import Sharegres.Parser.Positions
import Sharegres.Protocol.FeProtocol
import Sharegres.Router.StatementRoutes
import Sharegres.Router.WhereRouting

/-!
# Protocol - Queries with several statements

A Query message may hold any number of statements.  It is routed by the first one and sent as a
whole, so the others run where the first one goes.

Main results:

- Definition {lit}`RoutedTogether`: whenever the text is sent, each of its statements alone
  would take the same route.
- Definitions {lit}`NeverSent` and {lit}`FitsFirst`: conditions on the kinds of the statements,
  the rules of their tables and the homes of their keys.
- Theorem {lit}`routedTogether_iff`: the statements are routed together if and only if the text
  is never sent or each of them fits the first one.
- Theorem {lit}`second_delete_misplaced`: two statements on keys of different shards.
-/

namespace Sharegres

open Foundation Foundation.Json

/-- Two decisions for the same type of route and the same shards. -/
def RouteDecision.SameRoute (d d' : RouteDecision) : Prop :=
  d.type = d'.type ∧ ∀ s, s ∈ d.targetShards ↔ s ∈ d'.targetShards

/-- The route {lit}`handle_query` takes: without a shard map that to the default backend. -/
def routeTaken (cfg : Config) (sql : Text) : Option RouteDecision :=
  if cfg.shardMap.shards = [] then some { type := .default }
  else routeQuery cfg.shardMap cfg.pgQueryParse sql

/-- Whenever the query is sent to backends, each of the given statements alone would take the
route it is sent on. -/
def RoutedTogether (cfg : Config) (sql : Text) (alone : List Text) : Prop :=
  ∀ (input : ClientInput) (x : Conf) (r : Conf × Bool), handleQuery cfg sql input x = some r →
    r.1.1.sent ≠ x.1.sent →
    ∃ d, routeTaken cfg sql = some d ∧ ∀ text ∈ alone, ∃ d',
      routeQuery cfg.shardMap cfg.pgQueryParse text = some d' ∧ d'.SameRoute d

/-- A query on this route can be sent. -/
def RouteDecision.sendable (d : RouteDecision) : Prop :=
  match d.type with
  | .single | .default => True
  | .scatter => d.targetShards ≠ [] ∧ d.targetShards.length ≤ maxScatterShards
  | .local => False

/-- The route of a text with these statements. -/
def textRoute (map : ShardMap) : List RawStmt → RouteDecision
  | [] => { type := .default }
  | first :: more =>
      if map.shards = [] then { type := .default } else first.route map (stmtNames more)

/-! ## Kinds, rules and homes -/

/-- The kinds of statements that the proxy answers itself. -/
def StmtType.answered : StmtType → Bool
  | .set | .show | .discard => true
  | _ => false

/-- The rule of a statement's table, for the kinds for which it is looked up. -/
def RawStmt.rule? (map : ShardMap) (stmt : RawStmt) : Option TableRule :=
  match stmt.info.stmtType with
  | .transaction | .unknown => none
  | _ => stmt.info.table.bind (shardMapFindRule map)

/-- The home of the key that a statement has for the shard column of a rule, in front of these
names.  There is none on a broadcast table, and none for a change of the schema. -/
def RawStmt.home (behind : List (Option Text)) (stmt : RawStmt) (rule : TableRule) :
    Option Shard :=
  if rule.broadcast ∨ stmt.info.stmtType = .ddl then none
  else if stmt.info.stmtType = .insert then
    (rule.shardColumn.bind (stmt.insertKey behind)).bind (keyHome rule)
  else if stmt.info.column.isSome ∧ stmt.info.column = rule.shardColumn then
    stmt.info.key.bind (keyHome rule)
  else none

/-- The rule a text goes by is that of its first statement, if there is a shard map. -/
def textRule (map : ShardMap) (first : RawStmt) : Option TableRule :=
  if map.shards = [] then none else first.rule? map

/-- No text with this first statement is sent: the proxy answers it itself, or it has no home
under a rule without shards or with too many. -/
def NeverSent (map : ShardMap) (first : RawStmt) (more : List RawStmt) : Prop :=
  map.shards ≠ [] ∧ (first.info.stmtType.answered = true ∨
    ∃ rule, first.rule? map = some rule ∧ first.home (stmtNames more) rule = none ∧
      (rule.shards = [] ∨ maxScatterShards < rule.shards.length))

/-- A statement fits the first one of its text: both are without a rule, or both have one and
their keys have the same home, or both have no home and their rules the same shards. -/
def FitsFirst (map : ShardMap) (first : RawStmt) (more : List RawStmt) (stmt : RawStmt) : Prop :=
  stmt.info.stmtType.answered = false ∧
    match textRule map first, stmt.rule? map with
    | none, none => True
    | some rule, some rule' =>
        stmt.home [] rule' = first.home (stmtNames more) rule ∧
          (first.home (stmtNames more) rule = none → ∀ s, s ∈ rule'.shards ↔ s ∈ rule.shards)
    | _, _ => False

section Places

variable {map : ShardMap} {behind : List (Option Text)} {stmt first : RawStmt}
  {more : List RawStmt}

theorem RawStmt.routeByRule_eq (rule : TableRule) :
    stmt.routeByRule behind rule =
      match stmt.home behind rule with
      | none => .scatterTo rule
      | some s => .singleTo rule s := by
  have hdecide : ∀ column key, decideInfo rule column key =
      match if column.isSome ∧ column = rule.shardColumn then key.bind (keyHome rule) else none with
      | none => .scatterTo rule
      | some s => .singleTo rule s := by
    intro column key
    by_cases hcolumn : column.isSome ∧ column = rule.shardColumn
    · rw [if_pos hcolumn]
      cases key with
      | none => rfl
      | some key =>
          rw [decideInfo, if_pos hcolumn, Option.bind_some]
          cases keyHome rule key <;> rfl
    · rw [if_neg hcolumn]
      cases key with
      | none => rfl
      | some key => rw [decideInfo, if_neg hcolumn]
  unfold RawStmt.routeByRule RawStmt.home
  split
  · rfl
  · split
    · rw [hdecide]
      cases rule.shardColumn <;> simp
    · exact hdecide ..

/-- The route of a statement by its kind, its rule and its home. -/
theorem RawStmt.route_eq :
    stmt.route map behind =
      if stmt.info.stmtType.answered then { type := .local }
      else
        match stmt.rule? map with
        | none => { type := .default }
        | some rule =>
            match stmt.home behind rule with
            | none => .scatterTo rule
            | some s => .singleTo rule s := by
  unfold RawStmt.route RawStmt.rule?
  simp only [RawStmt.routeByRule_eq]
  cases stmt.info.stmtType <;> rfl

theorem sendable_iff :
    (textRoute map (first :: more)).sendable ↔ ¬ NeverSent map first more := by
  unfold NeverSent
  by_cases hmap : map.shards = []
  · rw [textRoute, if_pos hmap]
    simp [hmap, RouteDecision.sendable]
  · rw [textRoute, if_neg hmap, RawStmt.route_eq]
    cases hkind : first.info.stmtType.answered with
    | true => simp [hmap, RouteDecision.sendable]
    | false =>
        rw [if_neg (by simp)]
        cases hrule : first.rule? map with
        | none => simp [RouteDecision.sendable]
        | some rule =>
            cases hhome : first.home (stmtNames more) rule with
            | none =>
                simp [hmap, hhome, RouteDecision.sendable, RouteDecision.scatterTo, shardMapGetAll]
            | some s => simp [hhome, RouteDecision.sendable, RouteDecision.singleTo]

/-- On a route that can be sent, the statements that fit are those on the same route. -/
theorem fitsFirst_iff (hsend : (textRoute map (first :: more)).sendable) :
    FitsFirst map first more stmt ↔
      (stmt.route map []).SameRoute (textRoute map (first :: more)) := by
  have hroute : textRoute map (first :: more) =
      match textRule map first with
      | none => { type := .default }
      | some rule =>
          match first.home (stmtNames more) rule with
          | none => .scatterTo rule
          | some s => .singleTo rule s := by
    by_cases hmap : map.shards = []
    · rw [textRoute, textRule, if_pos hmap, if_pos hmap]
    · rw [textRoute, if_neg hmap, RawStmt.route_eq] at hsend ⊢
      rw [textRule, if_neg hmap]
      cases hkind : first.info.stmtType.answered with
      | true =>
          rw [if_pos hkind] at hsend
          exact absurd hsend not_false
      | false => rw [if_neg (by simp)]
  unfold FitsFirst
  rw [hroute, RawStmt.route_eq]
  cases stmt.info.stmtType.answered with
  | true =>
      refine iff_of_false (fun h => by simp at h) fun h => ?_
      have htype := h.1
      rw [if_pos rfl] at htype
      split at htype
      · cases htype
      · split at htype <;> cases htype
  | false =>
      rw [if_neg (by simp)]
      cases textRule map first with
      | none =>
          cases stmt.rule? map with
          | none => simp [RouteDecision.SameRoute]
          | some rule' =>
              dsimp only
              cases stmt.home [] rule' <;>
                simp [RouteDecision.SameRoute, RouteDecision.scatterTo, RouteDecision.singleTo]
      | some rule =>
          dsimp only
          cases stmt.rule? map with
          | none =>
              cases first.home (stmtNames more) rule <;>
                simp [RouteDecision.SameRoute, RouteDecision.scatterTo, RouteDecision.singleTo]
          | some rule' =>
              dsimp only
              cases first.home (stmtNames more) rule <;> cases stmt.home [] rule' <;>
                simp [RouteDecision.SameRoute, RouteDecision.scatterTo, RouteDecision.singleTo,
                  shardMapGetAll, eq_comm]

end Places

/-! ## When a query is sent -/

section Sending

variable (sql : Text) (input : ClientInput) {x : Conf}

/-- A round of a scatter takes nothing back. -/
theorem startSlot_sent_le (x : Conf) (target : Fin maxScatterShards × Shard) :
    x.1.sent.length ≤ (startSlot sql input x target).1.sent.length := by
  unfold startSlot
  dsimp only
  split
  · exact Nat.le_refl _
  · split
    · exact Nat.le_refl _
    · exact Nat.le_succ _

theorem startSlots_sent_le (targets : List (Fin maxScatterShards × Shard)) (x : Conf) :
    x.1.sent.length ≤ (targets.foldl (startSlot sql input) x).1.sent.length := by
  induction targets generalizing x with
  | nil => exact Nat.le_refl _
  | cons target targets ih => exact Nat.le_trans (startSlot_sent_le sql input x target) (ih _)

theorem executeScatter_sent {targets : List Shard} (h : targets.length ≤ maxScatterShards) :
    (executeScatter sql targets input x).1.1.sent = (startScatter sql targets input x).1.sent := by
  unfold executeScatter
  rw [if_neg (Nat.not_lt.mpr h)]
  dsimp only
  split <;> rfl

/-- On a route that cannot be sent nothing is sent. -/
theorem executeRoute_unsent {d : RouteDecision} (h : ¬ d.sendable) :
    (executeRoute sql d input x).1.1.sent = x.1.sent := by
  unfold RouteDecision.sendable at h
  unfold executeRoute
  cases htype : d.type with
  | single => simp [htype] at h
  | default => simp [htype] at h
  | «local» => rfl
  | scatter =>
      rw [htype] at h
      dsimp only at h ⊢
      by_cases hmany : d.targetShards.length ≤ maxScatterShards
      · have hnone : d.targetShards = [] := by
          by_contra hne
          exact h ⟨hne, hmany⟩
        rw [executeScatter_sent sql input hmany, hnone]
        rfl
      · unfold executeScatter
        rw [if_pos (Nat.not_le.mp hmany)]

/-- A new session, and pools with room. -/
def roomyConf : Conf :=
  ({ id := 0, pid := 0, secretKey := 0 }, { pools := fun _ => { maxSize := 1 } })

/-- From there a scattered query is sent, to its first shard at least. -/
theorem executeScatter_roomy {targets : List Shard} (hne : targets ≠ [])
    (hmany : targets.length ≤ maxScatterShards) :
    (executeScatter sql targets {} (roomyConf.1.countQuery, roomyConf.2)).1.1.sent ≠ [] := by
  rcases List.exists_cons_of_ne_nil hne with ⟨shard, more, rfl⟩
  let start : Conf := (roomyConf.1.countQuery.resetScatter (shard :: more).length, roomyConf.2)
  have hpairs : (List.finRange maxScatterShards).zip (shard :: more) =
      (0, shard) :: (List.finRange maxScatterShards).tail.zip more := rfl
  have hfirst : (startSlot sql {} start (0, shard)).1.sent = [(0, sql)] := rfl
  have hrest := startSlots_sent_le sql {} ((List.finRange maxScatterShards).tail.zip more)
    (startSlot sql {} start (0, shard))
  rw [executeScatter_sent sql {} hmany, startScatter, hpairs, List.foldl_cons]
  intro hnil
  rw [hfirst, hnil] at hrest
  simp at hrest

/-- On a route that can be sent, something is sent from there. -/
theorem executeRoute_roomy {d : RouteDecision} (h : d.sendable) :
    (executeRoute sql d {} (roomyConf.1.countQuery, roomyConf.2)).1.1.sent ≠ [] := by
  have hone : ∀ shard message, (executeOrRefuse sql shard message {}
      (roomyConf.1.countQuery, roomyConf.2)).1.sent = [(0, sql)] := by
    intro shard message
    cases shard <;> rfl
  unfold RouteDecision.sendable at h
  unfold executeRoute
  cases htype : d.type with
  | single =>
      dsimp only
      rw [hone]
      simp
  | default =>
      dsimp only
      rw [hone]
      simp
  | «local» =>
      rw [htype] at h
      exact absurd h not_false
  | scatter =>
      rw [htype] at h
      exact executeScatter_roomy sql h.1 h.2

end Sending

/-! ## The route of a text -/

section Texts

variable {cfg : Config} {sql : Text} {version : Int} {stmts : List RawStmt}

/-- What is done with a text is decided by its statements. -/
theorem handleQuery_text (hne : stmts ≠ [])
    (hparse : cfg.pgQueryParse sql = some (printed version stmts)) (input : ClientInput)
    (x : Conf) :
    routeTaken cfg sql = some (textRoute cfg.shardMap stmts) ∧
      handleQuery cfg sql input x =
        some (if cfg.shardMap.shards = [] then
            (handleUnsharded sql input (x.1.countQuery, x.2), true)
          else executeRoute sql (textRoute cfg.shardMap stmts) input (x.1.countQuery, x.2)) := by
  rcases List.exists_cons_of_ne_nil hne with ⟨first, more, rfl⟩
  have hroute := routeQuery_tree cfg.shardMap hparse
  rcases parseQuery_tree hparse with ⟨parsed, hparsed, -, -⟩
  unfold routeTaken handleQuery textRoute
  dsimp only
  by_cases hmap : cfg.shardMap.shards = []
  · rw [if_pos hmap, if_pos hmap, if_pos hmap, if_pos hmap]
    exact ⟨rfl, rfl⟩
  · rw [if_neg hmap, if_neg hmap, if_neg hmap, if_neg hmap]
    refine ⟨hroute, ?_⟩
    rw [routeQuery_of_parse hparsed] at hroute
    unfold handleSharded
    rw [hparsed]
    dsimp only
    rw [if_neg (by decide), hroute]

/-- The text is sent from some state exactly if its route can be sent. -/
theorem sent_iff_sendable (hne : stmts ≠ [])
    (hparse : cfg.pgQueryParse sql = some (printed version stmts)) :
    (∃ input x r, handleQuery cfg sql input x = some r ∧ r.1.1.sent ≠ x.1.sent) ↔
      (textRoute cfg.shardMap stmts).sendable := by
  constructor
  · rintro ⟨input, x, r, hr, hsent⟩
    by_contra hnot
    rw [(handleQuery_text hne hparse input x).2] at hr
    cases hr
    by_cases hmap : cfg.shardMap.shards = []
    · have hdefault : textRoute cfg.shardMap stmts = { type := .default } := by
        cases stmts with
        | nil => rfl
        | cons first more => exact if_pos hmap
      rw [hdefault] at hnot
      exact hnot trivial
    · rw [if_neg hmap] at hsent
      exact hsent (executeRoute_unsent sql input hnot)
  · intro hsendable
    refine ⟨{}, roomyConf, _, (handleQuery_text hne hparse {} roomyConf).2, ?_⟩
    by_cases hmap : cfg.shardMap.shards = []
    · rw [if_pos hmap]
      have hsent : (handleUnsharded sql {} (roomyConf.1.countQuery, roomyConf.2)).1.sent =
          [(0, sql)] := rfl
      rw [hsent]
      simp [roomyConf]
    · rw [if_neg hmap]
      exact executeRoute_roomy sql hsendable

/-- The route of a statement does not depend on its position. -/
theorem RawStmt.route_unplaced {map : ShardMap} {behind : List (Option Text)}
    {stmt stmt' : RawStmt} (hname : stmt'.name = stmt.name)
    (hbody : unplaced stmt'.body = unplaced stmt.body) :
    stmt'.route map behind = stmt.route map behind := by
  have hinsert : stmt'.insertKey behind = stmt.insertKey behind :=
    funext (RawStmt.insertKey_unplaced hbody behind)
  unfold RawStmt.route RawStmt.routeByRule
  rw [RawStmt.info_unplaced hname hbody, hinsert]

/-- A text with any number of statements: whenever it is sent, each of them alone would take the
same route, if and only if the text is never sent or each statement fits the first one.  The
tree of a statement alone is that in the whole, up to the positions it records. -/
theorem routedTogether_iff (cfg : Config) (sql : Text) (version : Int) (first : Text × RawStmt)
    (more : List (Text × RawStmt))
    (hparse : cfg.pgQueryParse sql = some (printed version (first.2 :: more.map Prod.snd)))
    (halone : ∀ part ∈ first :: more, ∃ stmt : RawStmt, stmt.name = part.2.name ∧
      unplaced stmt.body = unplaced part.2.body ∧
      cfg.pgQueryParse part.1 = some (printed version [stmt])) :
    RoutedTogether cfg sql (first.1 :: more.map Prod.fst) ↔
      NeverSent cfg.shardMap first.2 (more.map Prod.snd) ∨
        ∀ part ∈ first :: more, FitsFirst cfg.shardMap first.2 (more.map Prod.snd) part.2 := by
  have hne : first.2 :: more.map Prod.snd ≠ [] := List.cons_ne_nil _ _
  have hsent_iff := sent_iff_sendable hne hparse
  have hroute : ∀ part ∈ first :: more, routeQuery cfg.shardMap cfg.pgQueryParse part.1 =
      some (part.2.route cfg.shardMap []) := by
    intro part hpart
    rcases halone part hpart with ⟨stmt, hname, hbody, hprinted⟩
    rw [routeQuery_tree cfg.shardMap hprinted, RawStmt.route_unplaced hname hbody]
    rfl
  by_cases hsend : (textRoute cfg.shardMap (first.2 :: more.map Prod.snd)).sendable
  · rw [or_iff_right (sendable_iff.mp hsend)]
    constructor
    · intro htogether part hpart
      rcases hsent_iff.mpr hsend with ⟨input, x, r, hr, hsent⟩
      rcases htogether input x r hr hsent with ⟨d, hd, hall⟩
      rw [(handleQuery_text hne hparse input x).1] at hd
      cases hd
      rcases hall part.1 (List.mem_map_of_mem (f := Prod.fst) hpart) with ⟨d', hd', hsame⟩
      rw [hroute part hpart] at hd'
      cases hd'
      exact (fitsFirst_iff hsend).mpr hsame
    · intro hfits input x r hr hsent
      refine ⟨_, (handleQuery_text hne hparse input x).1, fun text htext => ?_⟩
      rcases List.mem_map.mp (show text ∈ (first :: more).map Prod.fst from htext) with
        ⟨part, hpart, rfl⟩
      exact ⟨_, hroute part hpart, (fitsFirst_iff hsend).mp (hfits part hpart)⟩
  · have hnever := not_not.mp (mt sendable_iff.mpr hsend)
    refine iff_of_true (fun input x r hr hsent => ?_) (Or.inl hnever)
    exact absurd (hsent_iff.mp ⟨input, x, r, hr, hsent⟩) hsend

end Texts

/-! ## Two statements -/

/-- {lit}`DELETE FROM t WHERE id = n`. -/
def deleteStmt (n : Int) : RawStmt where
  name := tok .deleteNode
  body := obj [(tok .relation, obj [(tok .relname, strVal (ascii "t"))]),
    (tok .whereClause, (Where.leaf (ascii "id") .eq n ⟨23, 20, 25⟩).toExpr.toJson)]
  position := []
  tight := by
    have hconst := (ValueTree.const (.ofLiteral n) 25).tight
    have hint : ∀ k m, tightMembers (intField (tok k) m) = true := by
      intro k m
      unfold intField
      split <;> rfl
    simp_all [obj, Json.tight, tightMembers, Where.toExpr, PgExpr.toJson, aExprMembers,
      nodeField, tight_arr, tight_stringNode, Operand.toJson, ValueTree.const]
  position_unnamed := rfl

/-- Its text. -/
def deleteText (n : Int) : Text :=
  ascii "DELETE FROM t WHERE id = " ++ intNumeral n

/-- Two of them in one text. -/
def pairText (m n : Int) : Text :=
  deleteText m ++ ascii "; " ++ deleteText n

/-- Two shards and one table, and a parser that knows two statements and both together. -/
def pairConfig (m n : Int) : Config where
  shardMap := ⟨demoShards, [demoRule], 4⟩
  pgQueryParse text :=
    if text = pairText m n then some (printed 170000 [deleteStmt m, deleteStmt n])
    else if text = deleteText m then some (printed 170000 [deleteStmt m])
    else if text = deleteText n then some (printed 170000 [deleteStmt n])
    else none

/-- The parser tells the texts apart by their lengths and their keys. -/
theorem pairConfig_parses {m n : Int} (hne : deleteText n ≠ deleteText m) :
    (pairConfig m n).pgQueryParse (pairText m n) =
        some (printed 170000 [deleteStmt m, deleteStmt n]) ∧
      (pairConfig m n).pgQueryParse (deleteText m) = some (printed 170000 [deleteStmt m]) ∧
      (pairConfig m n).pgQueryParse (deleteText n) = some (printed 170000 [deleteStmt n]) := by
  have hlength : (pairText m n).length =
      (deleteText m).length + (deleteText n).length + 2 := by
    simp [pairText, ascii]
    omega
  have hm : deleteText m ≠ pairText m n := by
    intro heq
    rw [← heq] at hlength
    omega
  have hn : deleteText n ≠ pairText m n := by
    intro heq
    rw [← heq] at hlength
    omega
  refine ⟨if_pos rfl, (if_neg hm).trans (if_pos rfl), ?_⟩
  exact (if_neg hn).trans ((if_neg hne).trans (if_pos rfl))

/-- The tree is that of a DELETE with one equality, whose key decides. -/
theorem deleteStmt_route (n : Int) (more : List RawStmt) :
    (deleteStmt n).route ⟨demoShards, [demoRule], 4⟩ (stmtNames more) =
      routeByKey demoRule (Where.leaf (ascii "id") .eq n ⟨23, 20, 25⟩).toExpr.key := by
  let parses (_ : Text) : Option Text := some (printed 170000 (deleteStmt n :: more))
  have htree : routeQuery ⟨demoShards, [demoRule], 4⟩ parses [] = _ := routeQuery_tree _ rfl
  have hparse : parses [] = some (render (document 170000
      (((plainDelete (ascii "t")).toJson (Where.leaf (ascii "id") .eq n ⟨23, 20, 25⟩).toExpr, []) ::
        more.map fun stmt => (stmt.toJson, stmt.position)))) := rfl
  have hwhere : routeQuery ⟨demoShards, [demoRule], 4⟩ parses [] = _ :=
    routeQuery_where hparse demoRule_found rfl
  exact Option.some.inj (htree.symm.trans hwhere)

theorem pairConfig_textRoute (m n : Int) :
    textRoute (pairConfig m n).shardMap [deleteStmt m, deleteStmt n] =
      routeByKey demoRule (Where.leaf (ascii "id") .eq m ⟨23, 20, 25⟩).toExpr.key := by
  have hshards : (pairConfig m n).shardMap.shards ≠ [] := List.cons_ne_nil _ _
  rw [textRoute, if_neg hshards]
  exact deleteStmt_route m [deleteStmt n]

/-- Two statements on keys of one shard. -/
theorem same_shard_routed_together :
    RoutedTogether (pairConfig 1 2) (pairText 1 2) [deleteText 1, deleteText 2] := by
  have hkeys : ∀ n ∈ [(1 : Int), 2],
      routeByKey demoRule (Where.leaf (ascii "id") .eq n ⟨23, 20, 25⟩).toExpr.key =
        .singleTo demoRule ⟨0, ascii "shard_0", ascii "host=a", 0, 10⟩ := by
    decide +kernel
  rcases pairConfig_parses (show deleteText 2 ≠ deleteText 1 by decide +kernel) with
    ⟨hboth, hone, htwo⟩
  have htext := (pairConfig_textRoute 1 2).trans (hkeys 1 (by simp))
  have hsend : (textRoute (pairConfig 1 2).shardMap [deleteStmt 1, deleteStmt 2]).sendable :=
    htext ▸ trivial
  refine (routedTogether_iff (pairConfig 1 2) (pairText 1 2) 170000 (deleteText 1, deleteStmt 1)
    [(deleteText 2, deleteStmt 2)] hboth ?_).mpr (Or.inr ?_)
  · intro part hpart
    rcases List.mem_pair.mp hpart with rfl | rfl
    · exact ⟨deleteStmt 1, rfl, rfl, hone⟩
    · exact ⟨deleteStmt 2, rfl, rfl, htwo⟩
  · intro part hpart
    refine (fitsFirst_iff hsend).mpr ?_
    rw [htext]
    rcases List.mem_pair.mp hpart with rfl | rfl
    · exact (deleteStmt_route 1 []).trans (hkeys 1 (by simp)) ▸ ⟨rfl, fun s => Iff.rfl⟩
    · exact (deleteStmt_route 2 []).trans (hkeys 2 (by simp)) ▸ ⟨rfl, fun s => Iff.rfl⟩

/-- The text {lit}`DELETE FROM t WHERE id = 1; DELETE FROM t WHERE id = 12` is sent to the
shard of the first key, and the second statement belongs to another one. -/
theorem second_delete_misplaced :
    ¬ RoutedTogether (pairConfig 1 12) (pairText 1 12) [deleteText 1, deleteText 12] := by
  intro htogether
  have hkeys : routeByKey demoRule (Where.leaf (ascii "id") .eq 1 ⟨23, 20, 25⟩).toExpr.key =
        .singleTo demoRule ⟨0, ascii "shard_0", ascii "host=a", 0, 10⟩ ∧
      routeByKey demoRule (Where.leaf (ascii "id") .eq 12 ⟨23, 20, 25⟩).toExpr.key =
        .singleTo demoRule ⟨1, ascii "shard_1", ascii "host=b", 10, 20⟩ := by
    decide +kernel
  rcases pairConfig_parses (show deleteText 12 ≠ deleteText 1 by decide +kernel) with
    ⟨hboth, -, hsecond⟩
  have htext := (pairConfig_textRoute 1 12).trans hkeys.1
  rcases (sent_iff_sendable (List.cons_ne_nil _ _) hboth).mpr (htext ▸ trivial) with
    ⟨input, x, r, hr, hsent⟩
  rcases htogether input x r hr hsent with ⟨d, hd, hall⟩
  rcases hall (deleteText 12) (by simp) with ⟨d', hd', -, hshards⟩
  rw [(handleQuery_text (List.cons_ne_nil _ _) hboth input x).1, htext] at hd
  rw [routeQuery_tree _ hsecond] at hd'
  cases hd
  cases hd'
  have hmem := (hshards ⟨1, ascii "shard_1", ascii "host=b", 10, 20⟩).mp
    (((deleteStmt_route 12 []).trans hkeys.2) ▸ List.mem_singleton.mpr rfl)
  exact absurd (congrArg Shard.index (List.mem_singleton.mp hmem)) (by decide)

end Sharegres
