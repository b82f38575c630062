import CrossDialect.Proofs.Statements.Layouts
import CrossDialect.Statement.Basic

/-!
What a refused call leaves of itself in a query. A condition that is refused takes with
it only the conjunction chosen for the next one, which no text shows, and a refused map
of tables takes nothing. A join is added before its condition is read, so the join of a
refused condition stays and is written without ON.
-/

namespace CrossDialect

namespace PredicateSet

variable {s : PredicateSet} {e : Error}

theorem add_refused {c : Criterion} (refused : (s.add c).refusal = some e) :
    (s.add c).state = { s with pending := none } := by
  unfold add at refused ⊢
  cases read : c.toPredicate with
  | ok p => simp [read] at refused
  | error fault => rfl

theorem addMap_refused {entries : List (String × Value)}
    (refused : (s.addMap entries).refusal = some e) :
    (s.addMap entries).state = { s with pending := none } := by
  unfold addMap at refused ⊢
  split at refused
  · exact absurd refused (by simp)
  · rfl

/-- The conjunction chosen for the next element is not part of the text. -/
theorem layout_pending (s : PredicateSet) (pending : Option Conjunction) :
    layout { s with pending } = s.layout := by
  cases s
  rfl

theorem isEmpty_pending (s : PredicateSet) (pending : Option Conjunction) :
    isEmpty { s with pending } = s.isEmpty := by
  cases s
  rfl

end PredicateSet

namespace Select

theorem layout_eq (d : Dialect) (s : Select) :
    s.layout d = do
      let window ← s.window d
      let body ← s.body d
      return s.assemble d window body := by
  cases s
  simp only [layout, body, bind_assoc, pure_bind]

/-- The builds of two queries, of their rows and of their number, end alike. -/
def BuildsAs (s s' : Select) : Prop :=
  (Statement.select s).build = (Statement.select s').build ∧ s.buildCount = s'.buildCount

/-- Only the layouts of its conditions matter to a query, and whether HAVING is empty. -/
theorem builds_of_conditions {s : Select} {filter having : PredicateSet}
    (filtered : filter.layout = s.filter.layout) (grouped : having.layout = s.having.layout)
    (empty : having.isEmpty = s.having.isEmpty) :
    { s with filter, having }.BuildsAs s := by
  have body (d : Dialect) : { s with filter, having }.body d = s.body d := by
    simp [Select.body, conditions, filtered, grouped]
  constructor
  · have laid (d : Dialect) : { s with filter, having }.layout d = s.layout d := by
      rw [layout_eq, layout_eq, body]
      rfl
    exact congrArg (Except.map _) (laid s.target.dialect)
  · have counted (d : Dialect) : { s with filter, having }.countLayout d = s.countLayout d := by
      simp only [countLayout, body, countsOutside, empty]
      rfl
    exact congrArg (Except.map _) (counted s.target.dialect)

theorem builds_filter_pending (s : Select) (pending : Option Conjunction) :
    { s with filter := { s.filter with pending } }.BuildsAs s :=
  builds_of_conditions (s.filter.layout_pending pending) rfl rfl

theorem builds_having_pending (s : Select) (pending : Option Conjunction) :
    { s with having := { s.having with pending } }.BuildsAs s :=
  builds_of_conditions rfl (s.having.layout_pending pending) (s.having.isEmpty_pending pending)

inductive Call where
  | join (kind : JoinKind) (table : TableRef Select) (on : Criterion)
  | andWhere (c : Criterion)
  | orWhere (c : Criterion)
  | whereMap (entries : List (String × Value))
  | having (c : Criterion)
  | fromAliasMap (entries : List (String × String))

def Call.apply (s : Select) : Call → Edited Select
  | .join kind table on => s.join kind table on
  | .andWhere c => Filtered.andWhere s c
  | .orWhere c => Filtered.orWhere s c
  | .whereMap entries => Filtered.whereMap s entries
  | .having c => s.addHaving c
  | .fromAliasMap entries => s.fromAliasMap entries

def Call.remains (s : Select) : Call → Select
  | .join kind table _ => s.joinWith kind table s.joinConditions
  | .andWhere _ | .orWhere _ | .whereMap _ => { s with filter := { s.filter with pending := none } }
  | .having _ => { s with having := { s.having with pending := none } }
  | .fromAliasMap _ => s

theorem fromAliasMap_refused {s : Select} {entries : List (String × String)} {e : Error}
    (refused : (s.fromAliasMap entries).refusal = some e) : (s.fromAliasMap entries).state = s := by
  unfold fromAliasMap at refused ⊢
  cases read : (TableRef.ofAliasMap entries : Except Error (TableRef Select)) with
  | ok table => simp [read] at refused
  | error fault => rfl

theorem apply_refused {s : Select} {call : Call} {e : Error}
    (refused : (call.apply s).refusal = some e) : (call.apply s).state = call.remains s := by
  cases call with
  | join kind table on =>
      exact congrArg (s.joinWith kind table) (PredicateSet.add_refused refused)
  | andWhere c => exact congrArg (Filtered.withFilter s) (PredicateSet.add_refused refused)
  | orWhere c => exact congrArg (Filtered.withFilter s) (PredicateSet.add_refused refused)
  | whereMap entries =>
      exact congrArg (Filtered.withFilter s) (PredicateSet.addMap_refused refused)
  | having c =>
      exact congrArg (fun having => { s with having }) (PredicateSet.add_refused refused)
  | fromAliasMap entries => exact fromAliasMap_refused refused

theorem joinLayout_bare (d : Dialect) (s : Select) (kind : JoinKind) (table : TableRef Select) :
    joinLayout d ⟨kind, table, s.joinConditions⟩ =
      (tableLayout d table).map fun l => .text (" " ++ kind.sql ++ " ") :: l := by
  cases laid : tableLayout d table <;>
    simp [joinLayout, laid, joinConditions, PredicateSet.layout, PredicateSet.childElements,
      PredicateSet.joinElements, Layout.clause, bind, Except.bind, pure, Except.pure, Except.map]

/-- A refused call changes neither build of a query, unless it is a join. A refused join
stays in the query, with no condition. -/
theorem refused_call_adds_no_condition (s : Select) (call : Call) (e : Error)
    (refused : (call.apply s).refusal = some e) :
    ((∀ kind table on, call ≠ .join kind table on) → (call.apply s).state.BuildsAs s) ∧
    ∀ kind table on, call = .join kind table on →
      (call.apply s).state = s.joinWith kind table s.joinConditions ∧
      ∀ d, joinLayout d ⟨kind, table, s.joinConditions⟩ =
        (tableLayout d table).map fun l => .text (" " ++ kind.sql ++ " ") :: l := by
  rw [apply_refused refused]
  constructor
  · intro other
    cases call with
    | join kind table on => exact absurd rfl (other kind table on)
    | andWhere | orWhere | whereMap => exact s.builds_filter_pending none
    | having => exact s.builds_having_pending none
    | fromAliasMap => exact ⟨rfl, rfl⟩
  · rintro kind table on rfl
    exact ⟨rfl, fun d => joinLayout_bare d s kind table⟩

def users : Select :=
  { target := .ofDialect .mysql
    source := some (.aliased "users" "u")
    filter := { target := .ofDialect .mysql, predicates := [.isNull "u.left"] } }

def halfMap : List (String × Value) := [("name", .text "Ann"), ("age >", .null)]

theorem refused_call_adds_no_condition_map :
    (Call.apply users (.whereMap halfMap)).refusal =
      some (.malformed "age >" (.needsSingleValue .gt)) ∧
    (Call.apply users (.whereMap halfMap)).state.BuildsAs users := by
  have plain : Shorthand.splitKey "name" = .ok ("name", .plain) :=
    eq_ok_of_toOption (by decide +kernel)
  have signed : Shorthand.splitKey "age >" = .ok ("age", .compare .gt) :=
    eq_ok_of_toOption (by decide +kernel)
  have first : Predicate.shorthand "name" (.text "Ann") = .ok (.eq "name" (.text "Ann")) := by
    rw [Predicate.shorthand, Shorthand.parse, plain]
    rfl
  have second : Predicate.shorthand "age >" .null =
      .error (.malformed "age >" (.needsSingleValue .gt)) := by
    rw [Predicate.shorthand, Shorthand.parse, signed]
    rfl
  have refused : (Call.apply users (.whereMap halfMap)).refusal =
      some (.malformed "age >" (.needsSingleValue .gt)) := by
    simp only [Call.apply, Filtered.whereMap, PredicateSet.addMap, halfMap, List.mapM_cons, first,
      second]
    rfl
  rcases refused_call_adds_no_condition users (.whereMap halfMap) _ refused with ⟨kept, _⟩
  exact ⟨refused, kept fun _ _ _ => nofun⟩

def refusedJoin : Edited Select :=
  Call.apply users (.join .inner (.aliased "orders" "o") (.text "u.id >>= o.user_id"))

theorem parse_doubledSign : Predicate.parse "u.id >>= o.user_id" =
    .error (.malformed "u.id >>= o.user_id" (.noValue .gt)) := by
  have column : Grammar.column (Text.skipGap "u.id >>= o.user_id".toList) =
      some ("u.id".toList, " >>= o.user_id".toList) := by
    decide +kernel
  have op : Grammar.operator (Text.skipGap " >>= o.user_id".toList) =
      some (.gt, ">= o.user_id".toList) := by
    decide +kernel
  have operand : (Condition.operandsOf .gt).1 ">= o.user_id".toList = none := by
    rw [← Option.isNone_iff_eq_none]
    decide +kernel
  have read : Condition.parseChars "u.id >>= o.user_id".toList = .error (.noValue .gt) := by
    simp only [Condition.parseChars, column, op, operand]
    rfl
  rw [Predicate.parse, Condition.parse, read]
  rfl

theorem refused_join_stays_in_builds :
    refusedJoin.refusal = some (.malformed "u.id >>= o.user_id" (.noValue .gt)) ∧
    (Statement.select users).render.toOption =
      some "SELECT * FROM `users` AS `u` WHERE (`u`.`left` IS NULL)" ∧
    (Statement.select refusedJoin.state).render.toOption = some
      "SELECT * FROM `users` AS `u` INNER JOIN `orders` AS `o` WHERE (`u`.`left` IS NULL)" ∧
    ¬ refusedJoin.state.BuildsAs users := by
  have refused : refusedJoin.refusal = some (.malformed "u.id >>= o.user_id" (.noValue .gt)) := by
    simp only [refusedJoin, Call.apply, join, PredicateSet.add, Criterion.toPredicate,
      parse_doubledSign]
    rfl
  have before : (Statement.select users).render.toOption =
      some "SELECT * FROM `users` AS `u` WHERE (`u`.`left` IS NULL)" := by
    decide +kernel
  have after : (Statement.select refusedJoin.state).render.toOption = some
      "SELECT * FROM `users` AS `u` INNER JOIN `orders` AS `o` WHERE (`u`.`left` IS NULL)" := by
    decide +kernel
  refine ⟨refused, before, after, ?_⟩
  rintro ⟨same, _⟩
  have shown : (Statement.select refusedJoin.state).render = (Statement.select users).render :=
    congrArg (Except.map Built.sql) same
  rw [shown, before] at after
  exact absurd after (by decide)

end Select

end CrossDialect
