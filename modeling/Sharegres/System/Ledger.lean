import Sharegres.Session.Operations

/-!
# System - Who owns a connection

Each connection of the proxy has one owner: a place of a session, the idle list of a
pool, or nobody.  The operations of sessions keep such an assignment, and with it that
the command in progress on a connection was sent by the session that holds it.

Main results:

- Definition {lit}`Ledger`: the assignment and what it implies.
- Theorem {lit}`Ops.ledger`: the operations of a session keep it.
- Theorem {lit}`Ops.frame`: they change no connection that is held elsewhere.
-/

namespace Sharegres

open Foundation

variable {x y : Account × Backends} {h : Hold}

/-- Where a connection is. -/
inductive Owner where
  | nobody
  | idle (pool : Nat)
  | held (session : Nat) (place : Place)
deriving DecidableEq

/-- The accounts of all sessions and the backends agree with an assignment of owners. -/
structure Ledger (accts : Nat → Account) (b : Backends) (own : ConnId → Owner) : Prop where
  ids : ∀ t, (accts t).id = t
  held : ∀ t q h, (accts t).held q = some h → own h.conn = .held t q
  idle : ∀ i c, c ∈ (b.pools i).idleConns → own c = .idle i
  nodup : ∀ i, (b.pools i).idleConns.Nodup
  unopened : ∀ c, b.opened ≤ c → own c = .nobody
  quiet : ∀ i c, c ∈ (b.pools i).idleConns → (b.conns c).command = none
  sent : ∀ t q h command, (accts t).held q = some h →
    (b.conns h.conn).command = some command →
    command.sender = t ∧ (h.conn, command.sql) ∈ (accts t).sent
  rows : ∀ t, ∀ q ∈ (accts t).rows, ∃ c command, q.origin = .result c command ∧
    command.sender = t ∧ (c, command.sql) ∈ (accts t).sent

variable {accts : Nat → Account} {b b' : Backends} {own : ConnId → Owner} {leaky : Prop}
  {sid : Nat} {p : Place} {a a' : Account}

/-- What is held after a session changed one of its places. -/
theorem update_hold_held (hold : Option Hold) (t : Nat) (q : Place) :
    (Function.update accts sid ((accts sid).hold p hold) t).held q =
      if t = sid ∧ q = p then hold else (accts t).held q := by
  by_cases ht : t = sid
  · subst ht
    rw [Function.update_self]
    by_cases hq : q = p
    · subst hq
      simp
    · rw [Account.hold_held_of_ne _ _ _ hq, if_neg fun h => hq h.2]
  · rw [Function.update_of_ne ht, if_neg fun h => ht h.1]

theorem update_hold_sent (hold : Option Hold) (t : Nat) :
    (Function.update accts sid ((accts sid).hold p hold) t).sent = (accts t).sent := by
  by_cases ht : t = sid
  · subst ht
    rw [Function.update_self]
    rfl
  · rw [Function.update_of_ne ht]

theorem update_hold_rows (hold : Option Hold) (t : Nat) :
    (Function.update accts sid ((accts sid).hold p hold) t).rows = (accts t).rows := by
  by_cases ht : t = sid
  · subst ht
    rw [Function.update_self]
    rfl
  · rw [Function.update_of_ne ht]

theorem update_hold_id (hold : Option Hold) (t : Nat) :
    (Function.update accts sid ((accts sid).hold p hold) t).id = (accts t).id := by
  by_cases ht : t = sid
  · subst ht
    rw [Function.update_self]
    rfl
  · rw [Function.update_of_ne ht]

/-- A connection changes its owner: a place of a session is left as it is, is emptied or
now holds it, and the idle lists change by this connection only. -/
theorem Ledger.move (hinv : Ledger accts b own) {c : ConnId} {owner : Owner}
    {hold : Option Hold}
    (hfrom : own c = .held sid p ∨ ∀ t q, own c ≠ .held t q)
    (hafter : ∀ h, hold = some h → h.conn = c ∧ owner = .held sid p ∨
      (accts sid).held p = some h ∧ h.conn ≠ c)
    (hidle : ∀ i c', c' ∈ (b'.pools i).idleConns →
      (c' = c ∧ owner = .idle i) ∨ (c' ≠ c ∧ c' ∈ (b.pools i).idleConns))
    (hnodup : ∀ i, (b'.pools i).idleConns.Nodup)
    (hopened : b.opened ≤ b'.opened) (hc : c < b'.opened)
    (hcommand : ∀ c', c' ≠ c → (b'.conns c').command = (b.conns c').command)
    (hquiet : owner ≠ .nobody → (b'.conns c).command = none) :
    Ledger (Function.update accts sid ((accts sid).hold p hold)) b'
      (Function.update own c owner) := by
  -- whatever is held is this connection in its new place, or as before and another one
  have hcases : ∀ t q h,
      (Function.update accts sid ((accts sid).hold p hold) t).held q = some h →
      (h.conn = c ∧ owner = .held sid p ∧ t = sid ∧ q = p) ∨
        ((accts t).held q = some h ∧ h.conn ≠ c) := by
    intro t q h hheld
    rw [update_hold_held] at hheld
    split at hheld
    · rename_i hplace
      rcases hafter h hheld with ⟨hconn, howner⟩ | hsame
      · exact Or.inl ⟨hconn, howner, hplace⟩
      · rw [hplace.1, hplace.2]
        exact Or.inr hsame
    · rename_i hplace
      refine Or.inr ⟨hheld, fun heq => ?_⟩
      have hown := hinv.held t q h hheld
      rw [heq] at hown
      rcases hfrom with hfrom | hfrom
      · rw [hown, Owner.held.injEq] at hfrom
        exact hplace hfrom
      · exact hfrom t q hown
  constructor
  case ids =>
    intro t
    rw [update_hold_id]
    exact hinv.ids t
  case held =>
    intro t q h hheld
    rcases hcases t q h hheld with ⟨hconn, howner, rfl, rfl⟩ | ⟨hbefore, hne⟩
    · rw [hconn, Function.update_self, howner]
    · rw [Function.update_of_ne hne]
      exact hinv.held t q h hbefore
  case idle =>
    intro i c' hmem
    rcases hidle i c' hmem with ⟨rfl, howner⟩ | ⟨hne, hmem⟩
    · rw [Function.update_self]
      exact howner
    · rw [Function.update_of_ne hne]
      exact hinv.idle i c' hmem
  case nodup => exact hnodup
  case unopened =>
    intro c' hc'
    rw [Function.update_of_ne (Nat.lt_of_lt_of_le hc hc').ne']
    exact hinv.unopened c' (le_trans hopened hc')
  case quiet =>
    intro i c' hmem
    rcases hidle i c' hmem with ⟨rfl, howner⟩ | ⟨hne, hmem⟩
    · apply hquiet
      rw [howner]
      simp
    · rw [hcommand c' hne]
      exact hinv.quiet i c' hmem
  case sent =>
    intro t q h command hheld hcmd
    rw [update_hold_sent]
    rcases hcases t q h hheld with ⟨hconn, howner, -, -⟩ | ⟨hbefore, hne⟩
    · rw [hconn, hquiet (by rw [howner]; simp)] at hcmd
      cases hcmd
    · rw [hcommand _ hne] at hcmd
      exact hinv.sent t q h command hbefore hcmd
  case rows =>
    intro t q hq
    rw [update_hold_rows] at hq
    rw [update_hold_sent]
    exact hinv.rows t q hq

/-- Changes of connections that keep owners: no idle list changes, and the command in
progress on a connection ends, or is one that the holder has just sent. -/
theorem Ledger.stay (hinv : Ledger accts b own)
    (hid : a'.id = (accts sid).id) (hheld : a'.held = (accts sid).held)
    (hsent : ∀ entry ∈ (accts sid).sent, entry ∈ a'.sent)
    (hrows : ∀ q ∈ a'.rows, ∃ c command, q.origin = .result c command ∧
      command.sender = sid ∧ (c, command.sql) ∈ a'.sent)
    (hpools : b'.pools = b.pools) (hopened : b'.opened = b.opened)
    (hquiet : ∀ c, (∀ t q, own c ≠ .held t q) → (b'.conns c).command = (b.conns c).command)
    (hcommand : ∀ t q h command, (accts t).held q = some h →
      (b'.conns h.conn).command = some command →
      (b.conns h.conn).command = some command ∨
        t = sid ∧ command.sender = sid ∧ (h.conn, command.sql) ∈ a'.sent) :
    Ledger (Function.update accts sid a') b' own := by
  have hold : ∀ t q, (Function.update accts sid a' t).held q = (accts t).held q := by
    intro t q
    by_cases ht : t = sid
    · subst ht
      rw [Function.update_self, hheld]
    · rw [Function.update_of_ne ht]
  have hkept : ∀ t, ∀ entry ∈ (accts t).sent, entry ∈ (Function.update accts sid a' t).sent := by
    intro t entry hentry
    by_cases ht : t = sid
    · subst ht
      rw [Function.update_self]
      exact hsent entry hentry
    · rw [Function.update_of_ne ht]
      exact hentry
  constructor
  case ids =>
    intro t
    by_cases ht : t = sid
    · subst ht
      rw [Function.update_self, hid]
      exact hinv.ids t
    · rw [Function.update_of_ne ht]
      exact hinv.ids t
  case held =>
    intro t q h hheld'
    rw [hold] at hheld'
    exact hinv.held t q h hheld'
  case idle =>
    rw [hpools]
    exact hinv.idle
  case nodup =>
    rw [hpools]
    exact hinv.nodup
  case unopened =>
    rw [hopened]
    exact hinv.unopened
  case quiet =>
    intro i c hmem
    rw [hpools] at hmem
    have hown := hinv.idle i c hmem
    rw [hquiet c fun t q => by rw [hown]; simp]
    exact hinv.quiet i c hmem
  case sent =>
    intro t q h command hheld' hcmd
    rw [hold] at hheld'
    rcases hcommand t q h command hheld' hcmd with hold' | ⟨rfl, hsender, hentry⟩
    · rcases hinv.sent t q h command hheld' hold' with ⟨hsender, hentry⟩
      exact ⟨hsender, hkept t _ hentry⟩
    · rw [Function.update_self]
      exact ⟨hsender, hentry⟩
  case rows =>
    intro t q hq
    by_cases ht : t = sid
    · subst ht
      rw [Function.update_self] at hq ⊢
      exact hrows q hq
    · rw [Function.update_of_ne ht] at hq ⊢
      exact hinv.rows t q hq

/-- A place forgets what it holds. -/
theorem Ledger.forget (hinv : Ledger accts b own) :
    Ledger (Function.update accts sid ((accts sid).hold p none)) b own := by
  have hbefore : ∀ t q h,
      (Function.update accts sid ((accts sid).hold p none) t).held q = some h →
      (accts t).held q = some h := by
    intro t q h hheld
    rw [update_hold_held] at hheld
    split at hheld
    · cases hheld
    · exact hheld
  constructor
  case ids =>
    intro t
    rw [update_hold_id]
    exact hinv.ids t
  case held =>
    intro t q h hheld
    exact hinv.held t q h (hbefore t q h hheld)
  case idle => exact hinv.idle
  case nodup => exact hinv.nodup
  case unopened => exact hinv.unopened
  case quiet => exact hinv.quiet
  case sent =>
    intro t q h command hheld hcmd
    rw [update_hold_sent]
    exact hinv.sent t q h command (hbefore t q h hheld) hcmd
  case rows =>
    intro t q hq
    rw [update_hold_rows] at hq
    rw [update_hold_sent]
    exact hinv.rows t q hq

/-! ## Operations -/

/-- The idle connections of the pool, and of the others. -/
theorem mem_setIdle {i j : Nat} {idle : List ConnId} {c : ConnId}
    (h : c ∈ ((b.setIdle i idle).pools j).idleConns) :
    (j = i ∧ c ∈ idle) ∨ (j ≠ i ∧ c ∈ (b.pools j).idleConns) := by
  by_cases hj : j = i
  · subst hj
    rw [Backends.setIdle_self] at h
    exact Or.inl ⟨rfl, h⟩
  · rw [Backends.setIdle_of_ne b i idle hj] at h
    exact Or.inr ⟨hj, h⟩

/-- No idle connection is there twice. -/
theorem nodup_setIdle {i : Nat} {idle : List ConnId} (hidle : idle.Nodup)
    (hinv : Ledger accts b own) (j : Nat) : ((b.setIdle i idle).pools j).idleConns.Nodup := by
  by_cases hj : j = i
  · subst hj
    rw [Backends.setIdle_self]
    exact hidle
  · rw [Backends.setIdle_of_ne b i idle hj]
    exact hinv.nodup j

namespace Ledger

variable {i : Nat} {c : ConnId} {rest : List ConnId}

/-- The connection on top of an idle list is idle there and nowhere else. -/
theorem top_idle (hinv : Ledger accts b own) (htop : (b.pools i).idleConns = c :: rest) :
    own c = .idle i := by
  apply hinv.idle i c
  rw [htop]
  exact List.mem_cons_self

/-- A connection with an owner was opened. -/
theorem lt_opened (hinv : Ledger accts b own) (hown : own c ≠ .nobody) : c < b.opened := by
  apply Nat.lt_of_not_le
  intro hle
  exact hown (hinv.unopened c hle)

/-- A held connection is in no idle list. -/
theorem not_pooled (hinv : Ledger accts b own) (hheld : (accts sid).held p = some h) (j : Nat) :
    h.conn ∉ (b.pools j).idleConns := by
  intro hmem
  have hown := hinv.held sid p h hheld
  rw [hinv.idle j h.conn hmem] at hown
  cases hown

/-- The idle lists without the top of one of them. -/
theorem mem_pop (hinv : Ledger accts b own) (htop : (b.pools i).idleConns = c :: rest) {j : Nat}
    {c' : ConnId} (hmem : c' ∈ ((b.setIdle i rest).pools j).idleConns) :
    c' ≠ c ∧ c' ∈ (b.pools j).idleConns := by
  have hnodup := hinv.nodup i
  rw [htop, List.nodup_cons] at hnodup
  rcases mem_setIdle hmem with ⟨rfl, hrest⟩ | ⟨hj, hidle⟩
  · rw [htop]
    exact ⟨fun heq => hnodup.1 (heq ▸ hrest), List.mem_cons_of_mem _ hrest⟩
  · refine ⟨fun heq => ?_, hidle⟩
    have hown := hinv.idle j c' hidle
    rw [heq, hinv.top_idle htop, Owner.idle.injEq] at hown
    exact hj hown.symm

theorem nodup_pop (hinv : Ledger accts b own) (htop : (b.pools i).idleConns = c :: rest)
    (j : Nat) : ((b.setIdle i rest).pools j).idleConns.Nodup := by
  have hnodup := hinv.nodup i
  rw [htop, List.nodup_cons] at hnodup
  exact nodup_setIdle hnodup.2 hinv j

/-- The top of an idle list is closed. -/
theorem retire (hinv : Ledger accts b own) (htop : (b.pools i).idleConns = c :: rest) :
    Ledger accts ((b.setIdle i rest).pqFinish c) (Function.update own c .nobody) := by
  have hown := hinv.top_idle htop
  have hsame : Function.update accts 0 ((accts 0).hold .backend ((accts 0).held .backend)) =
      accts := by
    rw [Account.hold_held _ _ _ rfl, Function.update_eq_self]
  rw [← hsame]
  apply hinv.move
  case hfrom =>
    right
    intro t q
    rw [hown]
    simp
  case hafter =>
    intro h hheld
    refine Or.inr ⟨hheld, fun heq => ?_⟩
    have hheld' := hinv.held 0 .backend h hheld
    rw [heq, hown] at hheld'
    cases hheld'
  case hidle =>
    intro j c' hmem
    exact Or.inr (hinv.mem_pop htop hmem)
  case hnodup => exact hinv.nodup_pop htop
  case hopened => exact le_refl _
  case hc => exact hinv.lt_opened (by rw [hown]; simp)
  case hcommand =>
    intro c' _
    exact Backends.command_pqFinish c c'
  case hquiet =>
    intro h
    exact absurd rfl h

/-- The top of an idle list moves to a place. -/
theorem take (hinv : Ledger accts b own) (htop : (b.pools i).idleConns = c :: rest)
    (pool : Option Nat) (hidle : ∀ j, (b'.pools j).idleConns =
      ((b.setIdle i rest).pools j).idleConns) (hopened : b'.opened = b.opened)
    (hconns : b'.conns = b.conns) :
    Ledger (Function.update accts sid ((accts sid).hold p (some ⟨c, pool⟩))) b'
      (Function.update own c (.held sid p)) := by
  have hown := hinv.top_idle htop
  have hmem : c ∈ (b.pools i).idleConns := by
    rw [htop]
    exact List.mem_cons_self
  apply hinv.move
  case hfrom =>
    right
    intro t q
    rw [hown]
    simp
  case hafter =>
    intro h hheld
    cases hheld
    exact Or.inl ⟨rfl, rfl⟩
  case hidle =>
    intro j c' hmem
    rw [hidle] at hmem
    exact Or.inr (hinv.mem_pop htop hmem)
  case hnodup =>
    intro j
    rw [hidle]
    exact hinv.nodup_pop htop j
  case hopened => rw [hopened]
  case hc =>
    rw [hopened]
    exact hinv.lt_opened (by rw [hown]; simp)
  case hcommand =>
    intro c' _
    rw [hconns]
  case hquiet =>
    intro _
    rw [hconns]
    exact hinv.quiet i c hmem

/-- A new connection is put in a place. -/
theorem openNew (hinv : Ledger accts b own) (pool : Option Nat)
    (hidle : ∀ j, (b'.pools j).idleConns = (b.pools j).idleConns)
    (hopened : b'.opened = b.opened + 1) (hconns : b'.conns = b.openConn.conns) :
    Ledger (Function.update accts sid ((accts sid).hold p (some ⟨b.opened, pool⟩))) b'
      (Function.update own b.opened (.held sid p)) := by
  have hown := hinv.unopened b.opened (le_refl _)
  apply hinv.move
  case hfrom =>
    right
    intro t q
    rw [hown]
    simp
  case hafter =>
    intro h hheld
    cases hheld
    exact Or.inl ⟨rfl, rfl⟩
  case hidle =>
    intro j c' hmem
    rw [hidle] at hmem
    refine Or.inr ⟨fun heq => ?_, hmem⟩
    have hidle' := hinv.idle j c' hmem
    rw [heq, hown] at hidle'
    cases hidle'
  case hnodup =>
    intro j
    rw [hidle]
    exact hinv.nodup j
  case hopened =>
    rw [hopened]
    exact Nat.le_succ _
  case hc =>
    rw [hopened]
    exact Nat.lt_succ_self _
  case hcommand =>
    intro c' hne
    rw [hconns, Backends.open_of_ne b hne]
  case hquiet =>
    intro _
    rw [hconns, Backends.open_self]

/-- The connection in a place is closed. -/
theorem lose (hinv : Ledger accts b own) (hheld : (accts sid).held p = some h)
    (hidle : ∀ j, (b'.pools j).idleConns = (b.pools j).idleConns) (hopened : b'.opened = b.opened)
    (hcommand : ∀ c', (b'.conns c').command = (b.conns c').command) :
    Ledger (Function.update accts sid ((accts sid).hold p none)) b'
      (Function.update own h.conn .nobody) := by
  have hown := hinv.held sid p h hheld
  apply hinv.move
  case hfrom => exact Or.inl hown
  case hafter =>
    intro h' hnone
    cases hnone
  case hidle =>
    intro j c' hmem
    rw [hidle] at hmem
    refine Or.inr ⟨fun heq => ?_, hmem⟩
    have hidle' := hinv.idle j c' hmem
    rw [heq, hown] at hidle'
    cases hidle'
  case hnodup =>
    intro j
    rw [hidle]
    exact hinv.nodup j
  case hopened => rw [hopened]
  case hc =>
    rw [hopened]
    exact hinv.lt_opened (by rw [hown]; simp)
  case hcommand =>
    intro c' _
    exact hcommand c'
  case hquiet =>
    intro hne
    exact absurd rfl hne

/-- The connection in a place goes to an idle list. -/
theorem shelve (hinv : Ledger accts b own) (hheld : (accts sid).held p = some h)
    (hquiet : (b.conns h.conn).command = none)
    (hidle : ∀ j, (b'.pools j).idleConns =
      ((b.setIdle i (h.conn :: (b.pools i).idleConns)).pools j).idleConns)
    (hopened : b'.opened = b.opened) (hconns : b'.conns = b.conns) :
    Ledger (Function.update accts sid ((accts sid).hold p none)) b'
      (Function.update own h.conn (.idle i)) := by
  have hown := hinv.held sid p h hheld
  have hfresh : ∀ j, h.conn ∉ (b.pools j).idleConns := hinv.not_pooled hheld
  apply hinv.move
  case hfrom => exact Or.inl hown
  case hafter =>
    intro h' hnone
    cases hnone
  case hidle =>
    intro j c' hmem
    rw [hidle] at hmem
    have hkeep : c' ∈ (b.pools j).idleConns →
        (c' = h.conn ∧ Owner.idle i = .idle j) ∨ (c' ≠ h.conn ∧ c' ∈ (b.pools j).idleConns) := by
      intro hmem'
      exact Or.inr ⟨fun heq => hfresh j (heq ▸ hmem'), hmem'⟩
    rcases mem_setIdle hmem with ⟨rfl, hmem'⟩ | ⟨-, hmem'⟩
    · rcases List.mem_cons.mp hmem' with rfl | hrest
      · exact Or.inl ⟨rfl, rfl⟩
      · exact hkeep hrest
    · exact hkeep hmem'
  case hnodup =>
    intro j
    rw [hidle]
    exact nodup_setIdle (List.nodup_cons.mpr ⟨hfresh i, hinv.nodup i⟩) hinv j
  case hopened => rw [hopened]
  case hc =>
    rw [hopened]
    exact hinv.lt_opened (by rw [hown]; simp)
  case hcommand =>
    intro c' _
    rw [hconns]
  case hquiet =>
    intro _
    rw [hconns]
    exact hquiet

end Ledger

/-- An operation keeps an assignment of owners. -/
theorem Op.ledger (hop : Op leaky p x y) (hacct : accts sid = x.1) (hinv : Ledger accts x.2 own) :
    ∃ own', Ledger (Function.update accts sid y.1) y.2 own' := by
  cases hop with
  | retire htop =>
      dsimp only at hacct ⊢
      rw [← hacct, Function.update_eq_self]
      exact ⟨_, hinv.retire htop⟩
  | take hfree htop =>
      subst hacct
      exact ⟨_, hinv.take htop _ (by simp) rfl rfl⟩
  | openPooled hfree =>
      subst hacct
      exact ⟨_, hinv.openNew _ (by simp) rfl rfl⟩
  | openDefault hfree =>
      subst hacct
      exact ⟨_, hinv.openNew _ (by simp) rfl rfl⟩
  | discard hheld =>
      subst hacct
      exact ⟨_, hinv.lose hheld (by simp [Backends.pqFinish]) rfl (Backends.command_pqFinish _)⟩
  | shelve hheld hidle =>
      rename_i a b i c
      subst hacct
      refine ⟨_, hinv.shelve (i := i) hheld (pqTransactionStatus_idle hidle).2.1 ?_ rfl rfl⟩
      intro j
      by_cases hj : j = i
      · subst hj
        rw [Backends.setIdle_self, Backends.setIdle_self]
      · rw [Backends.setIdle_of_ne _ _ _ hj, Backends.setIdle_of_ne _ _ _ hj,
          Backends.giveBack_idleConns]
  | finish hheld =>
      subst hacct
      exact ⟨_, hinv.lose hheld (by simp [Backends.pqFinish]) rfl (Backends.command_pqFinish _)⟩
  | drop hleaky =>
      subst hacct
      exact ⟨own, hinv.forget⟩
  | send sql hheld hquiet =>
      rename_i a b h
      subst hacct
      have hown := hinv.held sid p h hheld
      refine ⟨own, hinv.stay rfl rfl ?_ ?_ rfl rfl ?_ ?_⟩
      · intro entry hentry
        exact List.mem_cons_of_mem _ hentry
      · intro q hq
        rcases hinv.rows sid q hq with ⟨c, command, horigin, hsender, hentry⟩
        exact ⟨c, command, horigin, hsender, List.mem_cons_of_mem _ hentry⟩
      · intro c hfree
        rw [Backends.modifyConn_of_ne]
        rintro rfl
        exact hfree sid p hown
      · intro t q h' command hheld' hcmd
        by_cases hc : h'.conn = h.conn
        · -- the connection just used is held here and nowhere else
          have hplace := hinv.held t q h' hheld'
          rw [hc, hown, Owner.held.injEq] at hplace
          rw [hc, Backends.modifyConn_self] at hcmd
          cases hcmd
          refine Or.inr ⟨hplace.1.symm, hinv.ids sid, ?_⟩
          rw [hc]
          exact List.mem_cons_self
        · rw [Backends.modifyConn_of_ne _ _ _ hc] at hcmd
          exact Or.inl hcmd
  | forward hheld hcommand hrows =>
      rename_i a b h command rows
      subst hacct
      refine ⟨own, hinv.stay rfl rfl (fun _ h => h) ?_ rfl rfl (fun _ _ => rfl) ?_⟩
      · intro q hq
        rcases List.mem_append.mp hq with hold | hnew
        · exact hinv.rows sid q hold
        · exact ⟨h.conn, command, hrows q hnew, hinv.sent sid p h command hheld hcommand⟩
      · intro t q h' command' _ hcmd
        exact Or.inl hcmd
  | complete xact hheld =>
      rename_i a b h
      subst hacct
      have hown := hinv.held sid p h hheld
      refine ⟨own, hinv.stay rfl rfl (fun _ h => h) (hinv.rows sid) rfl rfl ?_ ?_⟩
      · intro c hfree
        rw [Backends.endCommand, Backends.modifyConn_of_ne]
        rintro rfl
        exact hfree sid p hown
      · intro t q h' command _ hcmd
        by_cases hc : h'.conn = h.conn
        · rw [hc, Backends.endCommand, Backends.modifyConn_self] at hcmd
          cases hcmd
        · rw [Backends.endCommand, Backends.modifyConn_of_ne _ _ _ hc] at hcmd
          exact Or.inl hcmd
  | fault status hheld =>
      subst hacct
      refine ⟨own, hinv.stay rfl rfl (fun _ h => h) (hinv.rows sid) rfl rfl ?_ ?_⟩
      · intro c _
        exact Backends.command_setStatus _ c status
      · intro t q h' command _ hcmd
        rw [Backends.command_setStatus] at hcmd
        exact Or.inl hcmd

/-- An operation changes no connection that is held in another place. -/
theorem Op.frame (hop : Op leaky p x y) (hacct : accts sid = x.1) (hinv : Ledger accts x.2 own)
    {t : Nat} {q : Place} (hplace : ¬ (t = sid ∧ q = p)) (hheld : (accts t).held q = some h) :
    (Function.update accts sid y.1 t).held q = some h ∧
      y.2.conns h.conn = x.2.conns h.conn := by
  have hown := hinv.held t q h hheld
  have hhold : ∀ hold, (Function.update accts sid ((accts sid).hold p hold) t).held q =
      some h := by
    intro hold
    rw [update_hold_held, if_neg hplace]
    exact hheld
  have hsame : ∀ a' : Account, a'.held = (accts sid).held →
      (Function.update accts sid a' t).held q = some h := by
    intro a' ha'
    by_cases ht : t = sid
    · subst ht
      rw [Function.update_self, ha']
      exact hheld
    · rw [Function.update_of_ne ht]
      exact hheld
  -- a connection held in the place of the operation is another one
  have hne : ∀ h', x.1.held p = some h' → h.conn ≠ h'.conn := by
    intro h' hheld' heq
    rw [← hacct] at hheld'
    have hown' := hinv.held sid p h' hheld'
    rw [← heq, hown, Owner.held.injEq] at hown'
    exact hplace hown'
  cases hop with
  | retire htop =>
      subst hacct
      refine ⟨hsame _ rfl, Function.update_of_ne (fun heq => ?_) _ _⟩
      rw [heq, hinv.top_idle htop] at hown
      cases hown
  | take hfree htop =>
      subst hacct
      exact ⟨hhold _, rfl⟩
  | openPooled hfree =>
      subst hacct
      refine ⟨hhold _, Backends.open_of_ne _ fun heq => ?_⟩
      rw [heq, hinv.unopened _ (le_refl _)] at hown
      cases hown
  | openDefault hfree =>
      subst hacct
      refine ⟨hhold _, Backends.open_of_ne _ fun heq => ?_⟩
      rw [heq, hinv.unopened _ (le_refl _)] at hown
      cases hown
  | discard hheld' =>
      subst hacct
      exact ⟨hhold _, Function.update_of_ne (hne _ hheld') _ _⟩
  | shelve hheld' hidle =>
      subst hacct
      exact ⟨hhold _, rfl⟩
  | finish hheld' =>
      subst hacct
      exact ⟨hhold _, Function.update_of_ne (hne _ hheld') _ _⟩
  | drop hleaky =>
      subst hacct
      exact ⟨hhold _, rfl⟩
  | send sql hheld' hquiet =>
      subst hacct
      exact ⟨hsame _ rfl, Function.update_of_ne (hne _ hheld') _ _⟩
  | forward hheld' hcommand hrows =>
      subst hacct
      exact ⟨hsame _ rfl, rfl⟩
  | complete xact hheld' =>
      subst hacct
      exact ⟨hsame _ rfl, Function.update_of_ne (hne _ hheld') _ _⟩
  | fault status hheld' =>
      subst hacct
      exact ⟨hsame _ rfl, Function.update_of_ne (hne _ hheld') _ _⟩

/-! ## Sequences of operations -/

/-- The operations of a session keep an assignment of owners. -/
theorem Ops.ledger {places : Set Place} (hops : Ops leaky places x y) (hacct : accts sid = x.1)
    (hinv : Ledger accts x.2 own) :
    ∃ own', Ledger (Function.update accts sid y.1) y.2 own' := by
  induction hops with
  | refl =>
      refine ⟨own, ?_⟩
      rw [← hacct, Function.update_eq_self]
      exact hinv
  | tail _ hlast ih =>
      rcases hlast with ⟨p, -, hop⟩
      rcases ih with ⟨own', hinv'⟩
      rcases hop.ledger (Function.update_self ..) hinv' with ⟨own'', hinv''⟩
      rw [Function.update_idem] at hinv''
      exact ⟨own'', hinv''⟩

/-- They change no connection that is held elsewhere. -/
theorem Ops.frame {places : Set Place} (hops : Ops leaky places x y) (hacct : accts sid = x.1)
    (hinv : Ledger accts x.2 own) {t : Nat} {q : Place} (hplace : ¬ (t = sid ∧ q ∈ places))
    (hheld : (accts t).held q = some h) :
    (Function.update accts sid y.1 t).held q = some h ∧
      y.2.conns h.conn = x.2.conns h.conn := by
  induction hops with
  | refl =>
      rw [← hacct, Function.update_eq_self]
      exact ⟨hheld, rfl⟩
  | tail hfirst hlast ih =>
      rcases hlast with ⟨p, hp, hop⟩
      rcases Ops.ledger hfirst hacct hinv with ⟨own', hinv'⟩
      have hplace' : ¬ (t = sid ∧ q = p) := by
        rintro ⟨ht, rfl⟩
        exact hplace ⟨ht, hp⟩
      rcases hop.frame (Function.update_self ..) hinv' hplace' ih.1 with ⟨hheld', hconn⟩
      rw [Function.update_idem] at hheld'
      exact ⟨hheld', hconn.trans ih.2⟩

end Sharegres
