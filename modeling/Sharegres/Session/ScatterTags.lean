import Sharegres.Session.ScatterDrain
import Sharegres.Session.ScatterFailures

/-!
# Session - Tags of scattered queries

A scattered query whose targets all answer, in any order, with the rows of a SELECT or the tag
of a command.  The proxy does not look at the tags and does not count: the client gets
{lit}`SELECT` if there was a result with rows, and {lit}`SELECT 0` otherwise.

Main results:

- Definition {lit}`Gathers`: the answers of the targets from the start of a query to its end.
- Theorem {lit}`Gathers.tags`: the one tag of a query.
- Theorem {lit}`scatter_tag_iff`: when it is the sum of the tags of the targets.
- Theorem {lit}`updates_reported_as_select`: two targets that update rows.
-/

namespace Sharegres

open Foundation

variable {kind : AnswerKind} {x : Conf} {ns : List Nat}

/-! ## Answers -/

/-- What a statement is answered with: the rows of a SELECT, a count of rows, or a tag. -/
inductive AnswerKind where
  | select
  | insert
  | update
  | delete
  | command (tag : Text)
deriving DecidableEq

/-- The tag for a number of rows. -/
def AnswerKind.tag : AnswerKind → Nat → Text
  | .select, n => ascii "SELECT " ++ natNumeral n
  | .insert, n => ascii "INSERT 0 " ++ natNumeral n
  | .update, n => ascii "UPDATE " ++ natNumeral n
  | .delete, n => ascii "DELETE " ++ natNumeral n
  | .command tag, _ => tag

/-- The result of one target. -/
def AnswerKind.Answers (kind : AnswerKind) (n : Nat) (res : PGresult) : Prop :=
  if kind = .select then res.status = .tuplesOk ∧ res.rows.length = n
  else res.status = .commandOk ∧ res.cmdStatus = kind.tag n

/-- The tags among messages. -/
def completeTags (qs : List Queued) : List Text :=
  qs.filterMap fun q =>
    match q.msg with
    | .commandComplete tag => some tag
    | _ => none

/-- The targets of a query answer with the given numbers of rows, in the order of their arrival,
until the query is over.  Between the answers a target is not ready, and other sessions use the
backends. -/
inductive Gathers (kind : AnswerKind) : List Nat → Conf → Conf → Prop where
  | ended {x : Conf} (hstate : x.1.state ≠ .scatter) : Gathers kind [] x x
  | others {ns : List Nat} {x y : Conf} (b : Backends) (h : Gathers kind ns (x.1, b) y) :
      Gathers kind ns x y
  | waits {ns : List Nat} {x y : Conf} {i : Fin maxScatterShards} {input : BackendInput}
      {flush : SendOutcome} (hbusy : input.busy = true)
      (hcall : sessionOnScatterReadable i input flush x = some x) (h : Gathers kind ns x y) :
      Gathers kind ns x y
  | answer {n : Nat} {ns : List Nat} {x y : Conf} {i : Fin maxScatterShards}
      {input : BackendInput} {flush : SendOutcome} {c : ConnId} {res : PGresult}
      (hstate : x.1.state = .scatter) (hreach : ReachesLoop i input x c)
      (hresults : input.results = [res]) (hanswer : kind.Answers n res) (z : Conf)
      (hcall : sessionOnScatterReadable i input flush x = some z) (h : Gathers kind ns z y) :
      Gathers kind (n :: ns) x y

/-! ## The tag of a query -/

/-- The tag that the proxy sends. -/
def gatheredTag (kind : AnswerKind) : Text :=
  if kind = .select then ascii "SELECT" else ascii "SELECT 0"

theorem completeTags_append (qs qs' : List Queued) :
    completeTags (qs ++ qs') = completeTags qs ++ completeTags qs' :=
  List.filterMap_append

/-- Other messages have no tag. -/
theorem completeTags_none {qs : List Queued} (h : ∀ q ∈ qs, q.msg.isComplete = false) :
    completeTags qs = [] := by
  rw [completeTags, List.filterMap_eq_nil_iff]
  intro q hq
  have hnot := h q hq
  cases hmsg : q.msg with
  | commandComplete tag =>
      rw [hmsg] at hnot
      cases hnot
  | _ => rfl

theorem completeTags_rows {origin : Origin} {msgs : List BackendMsg}
    (h : ∀ msg ∈ msgs, msg.isRow = true) :
    completeTags (msgs.map fun msg => ⟨msg, origin⟩) = [] := by
  refine completeTags_none fun q hq => ?_
  rcases List.mem_map.mp hq with ⟨msg, hmsg, rfl⟩
  have hrow := h msg hmsg
  cases msg <;> first | rfl | cases hrow

/-- An answer adds rows, and the header was sent behind it if it is the one of a SELECT. -/
theorem scatterMessages_answer {n : Nat} {res : PGresult} (hanswer : kind.Answers n res)
    {headerSent : Bool} (hheader : headerSent = true → kind = .select) {r : List BackendMsg × Bool}
    (h : scatterMessages headerSent [res] = some r) :
    (∀ msg ∈ r.1, msg.isRow = true) ∧ r.2 = decide (kind = .select) := by
  refine ⟨scatterMessages_rows h, ?_⟩
  unfold AnswerKind.Answers at hanswer
  by_cases hkind : kind = .select
  · rw [if_pos hkind] at hanswer
    simp only [scatterMessages, hanswer.1] at h
    cases h
    exact (decide_eq_true hkind).symm
  · rw [if_neg hkind] at hanswer
    simp only [scatterMessages, hanswer.1] at h
    cases h
    cases headerSent with
    | true => exact absurd (hheader rfl) hkind
    | false => exact (decide_eq_false hkind).symm

theorem flushOrDestroy_state (flush : SendOutcome) (x : Conf) :
    (flushOrDestroy flush x).1.state = x.1.state :=
  (flushOrDestroy_case flush x).elim (fun h => h.quiet.state) fun h => h.state

/-- One answer: the query goes on, with rows added, or it is over and has got its tag. -/
theorem answer_step {n : Nat} {x z : Conf} {i : Fin maxScatterShards} {input : BackendInput}
    {flush : SendOutcome} {c : ConnId} {res : PGresult} (hstate : x.1.state = .scatter)
    (hreach : ReachesLoop i input x c) (hresults : input.results = [res])
    (hanswer : kind.Answers n res) (hheader : x.1.scatterHeaderSent = true → kind = .select)
    (hcall : sessionOnScatterReadable i input flush x = some z) :
    ∃ added, z.1.out = x.1.out ++ added ∧
      (z.1.state = .scatter ∧ (z.1.scatterHeaderSent = true → kind = .select) ∧
          completeTags added = [] ∨
        z.1.state ≠ .scatter ∧ completeTags added = [gatheredTag kind]) := by
  rcases hreach.call hcall with ⟨command, r, hr, rfl⟩
  rw [hresults] at hr
  rcases scatterMessages_answer hanswer hheader hr with ⟨hrows, hsent⟩
  have hout : (afterLoop i c command input x r).1.out =
      x.1.out ++ r.1.map fun msg => ⟨msg, .result c command⟩ := rfl
  by_cases hdone : (afterLoop i c command input x r).1.scatterCount ≤
      (afterLoop i c command input x r).1.scatterDone
  · have htag : checkComplete flush (afterLoop i c command input x r) =
        flushOrDestroy flush (gathered (gatheredTag kind) (afterLoop i c command input x r)) := by
      unfold checkComplete gatheredTag
      rw [if_pos hdone, show (afterLoop i c command input x r).1.scatterHeaderSent = r.2 from rfl,
        hsent]
      simp only [decide_eq_true_eq]
      rfl
    have hover := gathered_out flush (gatheredTag kind) (afterLoop i c command input x r)
    rw [hout, List.append_assoc] at hover
    rw [htag]
    refine ⟨_, hover, Or.inr ⟨?_, ?_⟩⟩
    · rw [flushOrDestroy_state]
      exact SessionState.noConfusion
    · rw [completeTags_append, completeTags_rows hrows]
      rfl
  · have hsame : checkComplete flush (afterLoop i c command input x r) =
        afterLoop i c command input x r := if_neg hdone
    rw [hsame]
    refine ⟨_, hout, Or.inl ⟨hstate, fun h => ?_, completeTags_rows hrows⟩⟩
    rw [show (afterLoop i c command input x r).1.scatterHeaderSent = r.2 from rfl, hsent] at h
    exact of_decide_eq_true h

/-- Nothing is queued behind the end of a query. -/
theorem Gathers.out_of_over {x y : Conf} (h : Gathers kind ns x y) (hstate : x.1.state ≠ .scatter) :
    y.1 = x.1 := by
  induction h with
  | ended => rfl
  | others b h ih => exact ih hstate
  | waits hbusy hcall h ih => exact ih hstate
  | answer hscatter => exact absurd hscatter hstate

/-- A query gets one tag, whichever targets answer first. -/
theorem Gathers.tags {x y : Conf} (h : Gathers kind ns x y) (hstate : x.1.state = .scatter)
    (hheader : x.1.scatterHeaderSent = true → kind = .select) :
    ∃ added, y.1.out = x.1.out ++ added ∧ completeTags added = [gatheredTag kind] := by
  induction h with
  | ended hover => exact absurd hstate hover
  | others b h ih => exact ih hstate hheader
  | waits hbusy hcall h ih => exact ih hstate hheader
  | answer hscatter hreach hresults hanswer z hcall h ih =>
      rcases answer_step hscatter hreach hresults hanswer hheader hcall with
        ⟨rows, hout, ⟨hagain, hheader', hrows⟩ | ⟨hover, htag⟩⟩
      · rcases ih hagain hheader' with ⟨added, hadded, htags⟩
        refine ⟨rows ++ added, by rw [hadded, hout, List.append_assoc], ?_⟩
        rw [completeTags_append, hrows, htags]
        rfl
      · exact ⟨rows, by rw [h.out_of_over hover, hout], htag⟩

/-- No header has been sent when a query is started. -/
theorem startScatter_header (sql : Text) (targets : List Shard) (input : ClientInput) (x : Conf) :
    (startScatter sql targets input x).1.scatterHeaderSent = false := by
  have hslot : ∀ (y : Conf) (target : Fin maxScatterShards × Shard),
      (startSlot sql input y target).1.scatterHeaderSent = y.1.scatterHeaderSent := by
    intro y target
    unfold startSlot
    dsimp only
    split
    · rfl
    · split <;> rfl
  have hslots : ∀ (ts : List (Fin maxScatterShards × Shard)) (y : Conf),
      (ts.foldl (startSlot sql input) y).1.scatterHeaderSent = y.1.scatterHeaderSent := by
    intro ts
    induction ts with
    | nil => exact fun y => rfl
    | cons target ts ih => exact fun y => (ih _).trans (hslot y target)
  exact hslots _ _

/-! ## Sums of tags -/

/-- The tag that is sent is the tag for a number of rows only for a command with that tag. -/
theorem gatheredTag_eq_tag_iff (kind : AnswerKind) (n : Nat) :
    gatheredTag kind = kind.tag n ↔ kind = .command (ascii "SELECT 0") := by
  cases kind with
  -- the tags differ in their first byte, or behind the word SELECT
  | select => simp [gatheredTag, AnswerKind.tag, ascii]
  | insert => simp [gatheredTag, AnswerKind.tag, ascii]
  | update => simp [gatheredTag, AnswerKind.tag, ascii]
  | delete => simp [gatheredTag, AnswerKind.tag, ascii]
  | command tag =>
      rw [gatheredTag, if_neg (by simp), AnswerKind.tag, AnswerKind.command.injEq, eq_comm]

/-- The client gets the tag for the sum of the rows of all targets exactly if there are targets
and they answer a command with the tag {lit}`SELECT 0`. -/
theorem scatter_tag_iff {sql : Text} {targets : List Shard} {input : ClientInput} {x y z : Conf}
    (hstart : executeScatter sql targets input x = (y, true)) (hsent : y.1.scatterDone = 0)
    (hrun : Gathers kind ns y z) :
    completeTags (newMessages x z) = [kind.tag ns.sum] ↔
      targets ≠ [] ∧ kind = .command (ascii "SELECT 0") := by
  have hcases := executeScatter_out hstart
  have hheader := startScatter_header sql targets input x
  unfold executeScatter at hstart
  split at hstart
  · cases hstart
  · dsimp only at hstart
    split at hstart
    · -- only a query without targets can be refused here
      rename_i hnone
      cases hstart
      have hnil : targets = [] := by
        rw [show (startScatter sql targets input x).1.scatterDone = 0 from hsent] at hnone
        exact List.length_eq_zero_iff.mp (Nat.le_zero.mp hnone)
      rcases hcases with ⟨-, hover, hreported⟩ | ⟨-, hagain, -⟩
      · refine iff_of_false ?_ (fun h => h.1 hnil)
        rw [newMessages, hrun.out_of_over hover, ← newMessages, completeTags_none hreported.2]
        simp
      · cases hagain
    · rename_i hsome
      cases hstart
      have hne : targets ≠ [] := by
        rintro rfl
        exact hsome (Nat.zero_le _)
      rcases hcases with ⟨-, hover, -⟩ | ⟨-, hagain, hout⟩
      · exact absurd rfl hover
      · rcases hrun.tags hagain (fun h => by cases hheader.symm.trans h) with ⟨added, hadded, htags⟩
        have hnew : newMessages x z = added := by
          rw [newMessages, hadded, hout, List.drop_left]
        rw [hnew, htags, List.singleton_inj, gatheredTag_eq_tag_iff, and_iff_right hne]

/-! ## Two targets -/

/-- A query that has been sent to two targets. -/
def sentQuery (sql : Text) : Conf :=
  (executeScatter sql demoShards {} readyConf).1

/-- A slot answers with one result. -/
def answerOf (i : Fin maxScatterShards) (res : PGresult) (x : Conf) : Option Conf :=
  sessionOnScatterReadable i { results := [res] } .all x

/-- Both targets of a query answer, one after the other. -/
def bothAnswer (res res' : PGresult) (x : Conf) : Conf :=
  ((answerOf 0 res x).bind (answerOf 1 res')).getD x

/-- The calls for two answers are as they should be. -/
def AnswersFit (res res' : PGresult) (x : Conf) : Prop :=
  x.1.state = .scatter ∧ ReachesLoop 0 { results := [res] } x 0 ∧
    (answerOf 0 res x).any (fun y => decide (y.1.state = .scatter ∧
      ReachesLoop 1 { results := [res'] } y 1) && (answerOf 1 res' y).any fun z =>
        decide (z.1.state ≠ .scatter)) = true

instance (res res' : PGresult) (x : Conf) : Decidable (AnswersFit res res' x) :=
  inferInstanceAs (Decidable (_ ∧ _))

/-- Both results are gathered. -/
theorem AnswersFit.gathers {n n' : Nat} {res res' : PGresult} (h : AnswersFit res res' x)
    (hanswer : kind.Answers n res) (hanswer' : kind.Answers n' res') :
    Gathers kind [n, n'] x (bothAnswer res res' x) := by
  rcases h with ⟨hstate, hreach, hrest⟩
  rcases (Option.any_eq_true ..).mp hrest with ⟨y, hy, hrest⟩
  rcases (Bool.and_eq_true ..).mp hrest with ⟨hnext, hrest⟩
  rcases of_decide_eq_true hnext with ⟨hstate', hreach'⟩
  rcases (Option.any_eq_true ..).mp hrest with ⟨z, hz, hover⟩
  have hboth : bothAnswer res res' x = z := by
    rw [bothAnswer, hy, Option.bind_some, hz, Option.getD_some]
  rw [hboth]
  exact .answer hstate hreach rfl hanswer y hy
    (.answer hstate' hreach' rfl hanswer' z hz (.ended (of_decide_eq_true hover)))

/-- The result of a command. -/
def commandResult (tag : Text) : PGresult :=
  { status := .commandOk, cmdStatus := tag }

/-- The result of a command. -/
theorem commandResult_answers (h : kind ≠ .select) (n : Nat) :
    kind.Answers n (commandResult (kind.tag n)) := by
  rw [AnswerKind.Answers, if_neg h]
  exact ⟨rfl, rfl⟩

/-- Two targets into which no rows are copied. -/
theorem nothing_selected_tag :
    completeTags (newMessages readyConf (bothAnswer (commandResult (ascii "SELECT 0"))
      (commandResult (ascii "SELECT 0")) (sentQuery (ascii "SELECT INTO u FROM t")))) =
      [(AnswerKind.command (ascii "SELECT 0")).tag ([0, 0] : List Nat).sum] := by
  have hfit : AnswersFit (commandResult (ascii "SELECT 0")) (commandResult (ascii "SELECT 0"))
      (sentQuery (ascii "SELECT INTO u FROM t")) := by
    decide +kernel
  have hstart : executeScatter (ascii "SELECT INTO u FROM t") demoShards {} readyConf =
      (sentQuery (ascii "SELECT INTO u FROM t"), true) := rfl
  have hanswer := commandResult_answers
    (show AnswerKind.command (ascii "SELECT 0") ≠ .select by simp) 0
  exact (scatter_tag_iff hstart (by decide +kernel) (hfit.gathers hanswer hanswer)).mpr
    ⟨by decide +kernel, rfl⟩

/-- Three rows are updated on one target and four on the other one. -/
theorem updates_reported_as_select :
    Gathers .update [3, 4] (sentQuery (ascii "UPDATE t SET a = 1"))
        (bothAnswer (commandResult (AnswerKind.tag .update 3))
          (commandResult (AnswerKind.tag .update 4)) (sentQuery (ascii "UPDATE t SET a = 1"))) ∧
      completeTags (newMessages readyConf
        (bothAnswer (commandResult (AnswerKind.tag .update 3))
          (commandResult (AnswerKind.tag .update 4)) (sentQuery (ascii "UPDATE t SET a = 1")))) =
        [ascii "SELECT 0"] ∧
      AnswerKind.tag .update ([3, 4] : List Nat).sum = ascii "UPDATE 7" := by
  have hfit : AnswersFit (commandResult (AnswerKind.tag .update 3))
      (commandResult (AnswerKind.tag .update 4)) (sentQuery (ascii "UPDATE t SET a = 1")) := by
    decide +kernel
  have hanswer := commandResult_answers (show AnswerKind.update ≠ .select by simp)
  exact ⟨hfit.gathers (hanswer 3) (hanswer 4), by decide +kernel, by decide +kernel⟩

end Sharegres
