import CrossDialect.Container
import CrossDialect.Proofs.Statements.Layouts

/-!
Whose target counts. Every set of conditions and every query inside a statement has a
target of its own, and none of them is asked: a statement is built for the target of the
outermost object alone. Two versions of a statement that only differ in targets inside are
the same once all targets are replaced by one.
-/

namespace CrossDialect

namespace PredicateSet

mutual

/-- The set with this target at every depth. -/
def aimed (t : Target) : PredicateSet → PredicateSet
  | s@{ children, .. } => { s with target := t, children := aimedAll t children }

def aimedAll (t : Target) : List PredicateSet → List PredicateSet
  | [] => []
  | c :: cs => aimed t c :: aimedAll t cs

end

mutual

theorem isEmpty_aimed (t : Target) (s : PredicateSet) : (s.aimed t).isEmpty = s.isEmpty := by
  cases s with
  | mk target predicates children conjunction pending =>
      simp only [aimed, isEmpty, allEmpty_aimedAll t children]

theorem allEmpty_aimedAll (t : Target) (cs : List PredicateSet) :
    allEmpty (aimedAll t cs) = allEmpty cs := by
  cases cs with
  | nil => rfl
  | cons c cs => simp only [aimedAll, allEmpty, isEmpty_aimed t c, allEmpty_aimedAll t cs]

end

theorem conjunction_aimed (t : Target) (s : PredicateSet) :
    (s.aimed t).conjunction = s.conjunction := by
  cases s
  rfl

mutual

theorem layout_aimed (t : Target) (s : PredicateSet) : (s.aimed t).layout = s.layout := by
  cases s with
  | mk target predicates children conjunction pending =>
      simp only [aimed, layout, childElements_aimedAll t children]

theorem childElements_aimedAll (t : Target) (cs : List PredicateSet) :
    childElements (aimedAll t cs) = childElements cs := by
  cases cs with
  | nil => rfl
  | cons c cs =>
      simp only [aimedAll, childElements, conjunction_aimed, isEmpty_aimed, layout_aimed t c,
        childElements_aimedAll t cs]

end

end PredicateSet

namespace Select

mutual

def aimed (t : Target) : Select → Select
  | s@{ source, joins, filter, having, .. } =>
    { s with
      target := t
      source := aimedSource t source
      joins := aimedJoins t joins
      filter := filter.aimed t
      having := having.aimed t }

def aimedSource (t : Target) : Option (TableRef Select) → Option (TableRef Select)
  | none => none
  | some table => some (aimedTable t table)

def aimedTable (t : Target) : TableRef Select → TableRef Select
  | .named name => .named name
  | .aliased table aliasName => .aliased table aliasName
  | .subquery inner aliasName => .subquery (inner.aimed t) aliasName

def aimedJoins (t : Target) : List (Join Select) → List (Join Select)
  | [] => []
  | j :: js => aimedJoin t j :: aimedJoins t js

def aimedJoin (t : Target) : Join Select → Join Select
  | { kind, table, on } => { kind, table := aimedTable t table, on := on.aimed t }

end

mutual

theorem layout_aimed (t : Target) (d : Dialect) (s : Select) :
    (s.aimed t).layout d = s.layout d := by
  cases s with
  | mk target distinct columns source joins filter groupBy having orderBy limit offset =>
      simp only [aimed, layout, conditions, PredicateSet.layout_aimed,
        sourceLayout_aimed t d source, joinsLayout_aimed t d joins]
      rfl

theorem sourceLayout_aimed (t : Target) (d : Dialect) (source : Option (TableRef Select)) :
    sourceLayout d (aimedSource t source) = sourceLayout d source := by
  cases source with
  | none => rfl
  | some table => simp only [aimedSource, sourceLayout, tableLayout_aimed t d table]

theorem tableLayout_aimed (t : Target) (d : Dialect) (table : TableRef Select) :
    tableLayout d (aimedTable t table) = tableLayout d table := by
  cases table with
  | named | aliased => rfl
  | subquery inner aliasName => simp only [aimedTable, tableLayout, layout_aimed t d inner]

theorem joinsLayout_aimed (t : Target) (d : Dialect) (joins : List (Join Select)) :
    joinsLayout d (aimedJoins t joins) = joinsLayout d joins := by
  cases joins with
  | nil => rfl
  | cons j js =>
      simp only [aimedJoins, joinsLayout, joinLayout_aimed t d j, joinsLayout_aimed t d js]

theorem joinLayout_aimed (t : Target) (d : Dialect) (j : Join Select) :
    joinLayout d (aimedJoin t j) = joinLayout d j := by
  cases j with
  | mk kind table on =>
      simp only [aimedJoin, joinLayout, PredicateSet.layout_aimed, tableLayout_aimed t d table]

end

end Select

namespace Statement

def aimed (t : Target) : Statement → Statement
  | .select s => .select (s.aimed t)
  | .insert i => .insert { i with target := t }
  | .update u => .update { u with target := t, filter := u.filter.aimed t }
  | .delete x => .delete { x with target := t, filter := x.filter.aimed t }

theorem layout_aimed (t : Target) (d : Dialect) (s : Statement) :
    (s.aimed t).layout d = s.layout d := by
  cases s with
  | select s => exact s.layout_aimed t d
  | insert i => rfl
  | update u =>
      simp only [aimed, layout, Update.layout, PredicateSet.layout_aimed]
      rfl
  | delete x => simp only [aimed, layout, Delete.layout, PredicateSet.layout_aimed]

theorem buildFor_aimed (t outer : Target) (s : Statement) :
    (s.aimed t).buildFor outer = s.buildFor outer := by
  rw [buildFor, buildFor, layout_aimed]

theorem kind_aimed (t : Target) (s : Statement) : (s.aimed t).kind = s.kind := by
  cases s <;> rfl

end Statement

theorem Container.build_put_congr (c : Container) {s s' : Statement} (kind : s.kind = s'.kind)
    (same : s.buildFor c.target = s'.buildFor c.target) :
    (c.put s).build = (c.put s').build := by
  rcases c with ⟨t, query, insertion, change, removal⟩
  -- a statement in an earlier place hides both
  cases s <;> cases s' <;> cases kind
  case select => exact same
  case insert =>
    cases query with
    | some => rfl
    | none => exact same
  case update =>
    cases query with
    | some => rfl
    | none =>
        cases insertion with
        | some => rfl
        | none => exact same
  case delete =>
    cases query with
    | some => rfl
    | none =>
        cases insertion with
        | some => rfl
        | none =>
            cases change with
            | some => rfl
            | none => exact same

/-- Two versions of a statement with the same target are built alike if they only differ in
the targets inside. In a container the target of the statement is such a target too. -/
theorem nested_targets_leave_no_trace (t : Target) {s s' : Statement}
    (alike : s.aimed t = s'.aimed t) :
    (s.target = s'.target → s.build = s'.build) ∧
      ∀ c : Container, (c.put s).build = (c.put s').build := by
  have same (outer : Target) : s.buildFor outer = s'.buildFor outer := by
    rw [← Statement.buildFor_aimed t, alike, Statement.buildFor_aimed]
  constructor
  · intro own
    rw [Statement.build, Statement.build, own]
    exact same s'.target
  · intro c
    have kind : s.kind = s'.kind := by
      rw [← Statement.kind_aimed t, alike, Statement.kind_aimed]
    exact c.build_put_congr kind (same c.target)

def borrowed (inner : Target) : Statement :=
  let readers : Select :=
    { target := inner
      source := some (.named "readers")
      filter := { target := inner, predicates := [.eq "name" (.text "O'Neil")] } }
  let late : PredicateSet :=
    { target := inner, predicates := [.eq "late" (.bool true)], conjunction := some .or }
  .select
    { target := .ofDialect .postgres
      source := some (.subquery readers "r")
      joins :=
        [{ kind := .left, table := .named "loans",
           on := { target := inner, predicates := [.eq "loans.reader" (.column "r.id")] } }]
      filter := { target := inner, predicates := [.gt "days" (.param (.int 30))],
                  children := [late] } }

theorem nested_targets_leave_no_trace_borrowed :
    let odd : Target := ⟨.sqlServer, fun _ => "?"⟩
    let t := Target.ofDialect .mysql
    (borrowed t).aimed t = (borrowed odd).aimed t ∧ (borrowed t).build = (borrowed odd).build ∧
      (borrowed odd).render.toOption = some
        ("SELECT * FROM (SELECT * FROM \"readers\" WHERE (\"name\" = 'O''Neil')) AS \"r\" " ++
          "LEFT JOIN \"loans\" ON (\"loans\".\"reader\" = \"r\".\"id\") " ++
          "WHERE ((\"days\" > $1) OR (\"late\" = TRUE))") := by
  intro odd t
  have alike : (borrowed t).aimed t = (borrowed odd).aimed t := rfl
  refine ⟨alike, (nested_targets_leave_no_trace t alike).1 rfl, ?_⟩
  decide +kernel

end CrossDialect
