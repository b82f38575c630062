import CrossDialect.Proofs.Conditions.Arity
import CrossDialect.Proofs.Statements.Layouts

/-!
Rendering that insists on its operands. A layout leaves a place empty that has no operand; the
strict layouts here stop there instead. Predicates that have as many operands as their operator
takes are laid out strictly as they are laid out otherwise, alone, in sets and in statements, so
nothing is ever read behind the last operand.
-/

namespace CrossDialect

/-- A rendering that stops where it would read an operand that is not there. -/
abbrev Strict := ExceptT Error Option

namespace Strict

def whole {α : Type} (x : Except Error α) : Strict α := ExceptT.mk (some x)

def filled {α : Type} (x : Option α) : Strict α := ExceptT.mk (x.map .ok)

variable {α β : Type}

theorem pure_eq (a : α) : (pure a : Strict α) = whole (.ok a) := rfl

theorem whole_bind (x : Except Error α) (f : α → Except Error β) :
    (whole x >>= fun a => whole (f a)) = whole (x >>= f) := by
  cases x <;> rfl

theorem filled_some (a : α) : filled (some a) = whole (.ok a) := rfl

theorem ok_bind (a : α) (f : α → Strict β) : (whole (.ok a) >>= f) = f a := rfl

end Strict

namespace Predicate

def operand? (p : Predicate) (place : Nat) : Option Layout :=
  p.operands[place]?.map fun v => [.value (some p.column) v]

def right? (p : Predicate) : Option Layout :=
  match p.op.shape with
  | .nothing => some []
  | .one => do return .text " " :: (← p.operand? 0)
  | .bounds => do return .text " " :: (← p.operand? 0) ++ .text " AND " :: (← p.operand? 1)
  | .list =>
    some (.text " " ::
      (Layout.joined ", " (p.operands.map fun v => [.value (some p.column) v])).parenthesized)

def layout? (p : Predicate) : Option Layout := do
  return Layout.parenthesized (.name p.column :: .text (" " ++ p.op.sql) :: (← p.right?))

theorem layout?_eq {p : Predicate} (takes : p.op.Takes p.operands.length) :
    p.layout? = some p.layout := by
  have filled : p.right? = some p.right := by
    unfold right? right operand? operand
    cases op : p.op <;> simp only [op, Operator.Takes] at takes <;>
      simp only [Operator.shape]
    case between | notBetween =>
      obtain ⟨low, high, operands⟩ := List.length_eq_two.1 takes
      simp [operands]
    all_goals
      obtain ⟨v, operands⟩ := List.length_eq_one_iff.1 takes
      simp [operands]
  simp [layout?, layout, filled]

/-- Too few operands are noticed. -/
example : layout? { column := "age", op := .between, operands := [.int 18] } = none := rfl

def element? (p : Predicate) : Option (Conjunction × Layout) :=
  p.layout?.map (p.conjunction, ·)

theorem elements?_eq {ps : List Predicate} (takes : ∀ p ∈ ps, p.op.Takes p.operands.length) :
    ps.mapM element? = some (ps.map fun p => (p.conjunction, p.layout)) := by
  induction ps with
  | nil => rfl
  | cons p ps ih =>
      have first := layout?_eq (takes p List.mem_cons_self)
      have rest := ih fun q later => takes q (List.mem_cons_of_mem p later)
      simp [element?, first, rest]

end Predicate

namespace PredicateSet

mutual

def layout? : PredicateSet → Strict Layout
  | { predicates, children, .. } => do
    let own ← Strict.filled (predicates.mapM Predicate.element?)
    let nested ← childElements? children
    return joinElements (own ++ nested)

def childElements? : List PredicateSet → Strict (List (Conjunction × Layout))
  | [] => Strict.whole (.ok [])
  | c :: cs =>
    match c.conjunction with
    | none => Strict.whole (.error .unboundConjunction)
    | some conjunction =>
      if c.isEmpty then childElements? cs
      else do
        let first ← layout? c
        let rest ← childElements? cs
        return (conjunction, first) :: rest

end

mutual

theorem layout?_eq {s : PredicateSet} (takes : ∀ p ∈ s.atoms, p.op.Takes p.operands.length) :
    s.layout? = Strict.whole s.layout := by
  cases s with
  | mk target predicates children conjunction pending =>
      simp only [atoms, List.forall_mem_append] at takes
      obtain ⟨own, nested⟩ := takes
      simp only [layout?, layout, Predicate.elements?_eq own, childElements?_eq nested,
        Strict.filled_some, Strict.ok_bind, Strict.pure_eq, ← Strict.whole_bind]
      rfl

theorem childElements?_eq {cs : List PredicateSet}
    (takes : ∀ p ∈ childAtoms cs, p.op.Takes p.operands.length) :
    childElements? cs = Strict.whole (childElements cs) := by
  cases cs with
  | nil => rfl
  | cons c cs =>
      simp only [childAtoms, List.forall_mem_append] at takes
      obtain ⟨first, rest⟩ := takes
      simp only [childElements?, childElements, layout?_eq first, childElements?_eq rest]
      cases c.conjunction with
      | none => rfl
      | some conjunction =>
          cases c.isEmpty with
          | true => rfl
          | false =>
              simp only [Bool.false_eq_true, ↓reduceIte, Strict.pure_eq, ← Strict.whole_bind]
              rfl

end

end PredicateSet

namespace Select

def conditions? (s : Select) : Strict Layout := do
  let filter ← s.filter.layout?
  let having ← s.having.layout?
  return Layout.clause " WHERE " filter ++ Layout.clause " GROUP BY " (Layout.names s.groupBy)
    ++ Layout.clause " HAVING " having

/-- Rows picked by number are picked by a predicate of their own. -/
def assemble? (d : Dialect) (s : Select) (window : Window) (body : Layout) : Option Layout :=
  match window with
  | .numbered first last => do
    return .text "SELECT * FROM " :: (s.numberedRows body).parenthesized
      ++ [.text " AS ", .name "paged", .text " WHERE "] ++ (← (rowCondition first last).layout?)
      ++ [.text " ORDER BY ", .name rowNumberName]
  | window => some (s.assemble d window body)

mutual

def layout? (d : Dialect) : Select → Strict Layout
  | s@{ source, joins, .. } => do
    let window ← Strict.whole (s.window d)
    let source ← sourceLayout? d source
    let joins ← joinsLayout? d joins
    let conditions ← s.conditions?
    Strict.filled (s.assemble? d window (source ++ joins ++ conditions))

def sourceLayout? (d : Dialect) : Option (TableRef Select) → Strict Layout
  | none => Strict.whole (.ok [])
  | some table => do return .text " FROM " :: (← tableLayout? d table)

def tableLayout? (d : Dialect) : TableRef Select → Strict Layout
  | .named name => Strict.whole (.ok [.name name])
  | .aliased table aliasName => Strict.whole (.ok [.name table, .text " AS ", .name aliasName])
  | .subquery inner aliasName => do
    return (← inner.layout? d).parenthesized ++ [.text " AS ", .name aliasName]

def joinsLayout? (d : Dialect) : List (Join Select) → Strict Layout
  | [] => Strict.whole (.ok [])
  | j :: js => do
    let first ← joinLayout? d j
    return first ++ (← joinsLayout? d js)

def joinLayout? (d : Dialect) : Join Select → Strict Layout
  | { kind, table, on } => do
    let table ← tableLayout? d table
    let on ← on.layout?
    return .text (" " ++ kind.sql ++ " ") :: table ++ Layout.clause " ON " on

end

def body? (d : Dialect) (s : Select) : Strict Layout := do
  let source ← sourceLayout? d s.source
  let joins ← joinsLayout? d s.joins
  let conditions ← s.conditions?
  return source ++ joins ++ conditions

def countLayout? (d : Dialect) (s : Select) : Strict Layout := do
  let body ← s.body? d
  if s.countsOutside then
    let columns := if s.distinct then s.columnList else [.text "1"]
    return .text "SELECT COUNT(*) FROM " :: (s.core [] columns [] body).parenthesized
      ++ [.text " AS ", .name "count_subquery"]
  else return .text "SELECT COUNT(*)" :: body

mutual

def atoms : Select → List Predicate
  | { source, joins, filter, having, .. } =>
      sourceAtoms source ++ joinsAtoms joins ++ filter.atoms ++ having.atoms

def sourceAtoms : Option (TableRef Select) → List Predicate
  | none => []
  | some table => tableAtoms table

def tableAtoms : TableRef Select → List Predicate
  | .named _ => []
  | .aliased _ _ => []
  | .subquery inner _ => inner.atoms

def joinsAtoms : List (Join Select) → List Predicate
  | [] => []
  | j :: js => joinAtoms j ++ joinsAtoms js

def joinAtoms : Join Select → List Predicate
  | { table, on, .. } => tableAtoms table ++ on.atoms

end

theorem conditions?_eq {s : Select} (filter : ∀ p ∈ s.filter.atoms, p.op.Takes p.operands.length)
    (having : ∀ p ∈ s.having.atoms, p.op.Takes p.operands.length) :
    s.conditions? = Strict.whole s.conditions := by
  simp only [conditions?, conditions, PredicateSet.layout?_eq filter,
    PredicateSet.layout?_eq having, Strict.pure_eq, ← Strict.whole_bind]
  rfl

theorem rowCondition_takes (first : Int64) (last : Option Int64) :
    (rowCondition first last).op.Takes (rowCondition first last).operands.length := by
  cases last <;> rfl

theorem assemble?_eq (d : Dialect) (s : Select) (window : Window) (body : Layout) :
    s.assemble? d window body = some (s.assemble d window body) := by
  cases window with
  | numbered first last =>
      simp [assemble?, assemble, Predicate.layout?_eq (rowCondition_takes first last)]
  | _ => rfl

mutual

theorem layout?_eq {d : Dialect} {s : Select}
    (takes : ∀ p ∈ s.atoms, p.op.Takes p.operands.length) :
    s.layout? d = Strict.whole (s.layout d) := by
  cases s with
  | mk target distinct columns source joins filter groupBy having orderBy limit offset =>
      simp only [atoms, List.forall_mem_append] at takes
      obtain ⟨⟨⟨inSource, inJoins⟩, inFilter⟩, inHaving⟩ := takes
      have conditioned : conditions? ⟨target, distinct, columns, source, joins, filter, groupBy,
          having, orderBy, limit, offset⟩ = _ := conditions?_eq inFilter inHaving
      simp only [layout?, layout, sourceLayout?_eq inSource, joinsLayout?_eq inJoins,
        conditioned, assemble?_eq, Strict.filled_some, ← Strict.whole_bind]
      rfl

theorem sourceLayout?_eq {d : Dialect} {source : Option (TableRef Select)}
    (takes : ∀ p ∈ sourceAtoms source, p.op.Takes p.operands.length) :
    sourceLayout? d source = Strict.whole (sourceLayout d source) := by
  cases source with
  | none => rfl
  | some table =>
      simp only [sourceAtoms] at takes
      simp only [sourceLayout?, sourceLayout, tableLayout?_eq takes, Strict.pure_eq,
        ← Strict.whole_bind]
      rfl

theorem tableLayout?_eq {d : Dialect} {table : TableRef Select}
    (takes : ∀ p ∈ tableAtoms table, p.op.Takes p.operands.length) :
    tableLayout? d table = Strict.whole (tableLayout d table) := by
  cases table with
  | named | aliased => rfl
  | subquery inner aliasName =>
      simp only [tableAtoms] at takes
      simp only [tableLayout?, tableLayout, layout?_eq takes, Strict.pure_eq, ← Strict.whole_bind]
      rfl

theorem joinsLayout?_eq {d : Dialect} {joins : List (Join Select)}
    (takes : ∀ p ∈ joinsAtoms joins, p.op.Takes p.operands.length) :
    joinsLayout? d joins = Strict.whole (joinsLayout d joins) := by
  cases joins with
  | nil => rfl
  | cons j js =>
      simp only [joinsAtoms, List.forall_mem_append] at takes
      simp only [joinsLayout?, joinsLayout, joinLayout?_eq takes.1, joinsLayout?_eq takes.2,
        Strict.pure_eq, ← Strict.whole_bind]
      rfl

theorem joinLayout?_eq {d : Dialect} {j : Join Select}
    (takes : ∀ p ∈ joinAtoms j, p.op.Takes p.operands.length) :
    joinLayout? d j = Strict.whole (joinLayout d j) := by
  cases j with
  | mk kind table on =>
      simp only [joinAtoms, List.forall_mem_append] at takes
      simp only [joinLayout?, joinLayout, tableLayout?_eq takes.1,
        PredicateSet.layout?_eq takes.2, Strict.pure_eq, ← Strict.whole_bind]
      rfl

end

theorem body?_eq {d : Dialect} {s : Select} (takes : ∀ p ∈ s.atoms, p.op.Takes p.operands.length) :
    s.body? d = Strict.whole (s.body d) := by
  cases s with
  | mk target distinct columns source joins filter groupBy having orderBy limit offset =>
      simp only [atoms, List.forall_mem_append] at takes
      obtain ⟨⟨⟨inSource, inJoins⟩, inFilter⟩, inHaving⟩ := takes
      have conditioned : conditions? ⟨target, distinct, columns, source, joins, filter, groupBy,
          having, orderBy, limit, offset⟩ = _ := conditions?_eq inFilter inHaving
      simp only [body?, body, sourceLayout?_eq inSource, joinsLayout?_eq inJoins, conditioned,
        Strict.pure_eq, ← Strict.whole_bind]
      rfl

theorem countLayout?_eq {d : Dialect} {s : Select}
    (takes : ∀ p ∈ s.atoms, p.op.Takes p.operands.length) :
    s.countLayout? d = Strict.whole (s.countLayout d) := by
  simp only [countLayout?, countLayout, body?_eq takes, Strict.pure_eq, ← Strict.whole_bind]
  cases s.countsOutside <;> rfl

end Select

def Update.layout? (u : Update) : Strict Layout :=
  match u.table with
  | none => Strict.whole (.error (.missingTable .update))
  | some table => do
    let filter ← u.filter.layout?
    return .text "UPDATE " :: .name table :: .text " SET" :: Layout.clause " " u.assignmentList
      ++ Layout.clause " WHERE " filter

def Delete.layout? (x : Delete) : Strict Layout :=
  match x.table with
  | none => Strict.whole (.error (.missingTable .delete))
  | some table => do
    let filter ← x.filter.layout?
    return .text "DELETE FROM " :: .name table :: Layout.clause " WHERE " filter

namespace Statement

def layout? (d : Dialect) : Statement → Strict Layout
  | .select s => s.layout? d
  | .insert i => Strict.whole (i.layout d)
  | .update u => u.layout?
  | .delete x => x.layout?

def atoms : Statement → List Predicate
  | .select s => s.atoms
  | .insert _ => []
  | .update u => u.filter.atoms
  | .delete x => x.filter.atoms

theorem layout?_eq {d : Dialect} {s : Statement}
    (takes : ∀ p ∈ s.atoms, p.op.Takes p.operands.length) :
    s.layout? d = Strict.whole (s.layout d) := by
  cases s with
  | select s => exact Select.layout?_eq takes
  | insert i => rfl
  | update u =>
      simp only [layout?, layout, Update.layout?, Update.layout, PredicateSet.layout?_eq takes]
      cases u.table with
      | none => rfl
      | some table =>
          simp only [Strict.pure_eq, ← Strict.whole_bind]
          rfl
  | delete x =>
      simp only [layout?, layout, Delete.layout?, Delete.layout, PredicateSet.layout?_eq takes]
      cases x.table with
      | none => rfl
      | some table =>
          simp only [Strict.pure_eq, ← Strict.whole_bind]
          rfl

def Formed (s : Statement) : Prop := ∀ p ∈ s.atoms, p.Formed

end Statement

/-- A predicate has the operands that its operator takes, however it came about. So none is
missing where it is rendered alone, in a set after any edits, in a statement, or in a count. -/
theorem operands_meet_operator :
    (∀ p : Predicate, p.Formed → p.op.Takes p.operands.length ∧ p.layout? = some p.layout) ∧
    (∀ (s : PredicateSet) (steps : List PredicateSet.Step), s.Formed →
      (∀ step ∈ steps, step.edit.Formed) →
      (s.edited steps).Formed ∧ (s.edited steps).layout? = Strict.whole (s.edited steps).layout) ∧
    (∀ (d : Dialect) (s : Statement), s.Formed → s.layout? d = Strict.whole (s.layout d)) ∧
    ∀ (d : Dialect) (s : Select), (Statement.select s).Formed →
      s.countLayout? d = Strict.whole (s.countLayout d) := by
  refine ⟨?_, ?_, ?_, ?_⟩
  · intro p formed
    exact ⟨formed.takes, Predicate.layout?_eq formed.takes⟩
  · intro s steps formed given
    have after : (s.edited steps).Formed := formed.edited given
    exact ⟨after, PredicateSet.layout?_eq fun p inside => (after p inside).takes⟩
  · intro d s formed
    exact Statement.layout?_eq fun p inside => (formed p inside).takes
  · intro d s formed
    exact Select.countLayout?_eq fun p inside => (formed p inside).takes

def members : Predicate :=
  { column := "id", op := .inList, operands := [.list [.int 1], .null], conjunction := .or }

theorem members_formed : members.Formed := by
  have made : Predicate.inList "id" [.list [.list [.int 1], .null]] =
      .ok (members.withConjunction .and) := rfl
  exact .joined .or (.inList made)

def fillings : List PredicateSet.Step :=
  [⟨[], .notInList "id" []⟩, ⟨[], .orNest⟩, ⟨[0], .addPredicate members⟩]

def filledSet : PredicateSet := PredicateSet.edited { target := .ofDialect .sqlServer } fillings

def filledSelect : Select :=
  { Select.ofTarget (.ofDialect .sqlServer) with
    source := some
      (.subquery { Select.ofTarget (.ofDialect .sqlServer) with filter := filledSet } "t")
    orderBy := [⟨"id", none⟩]
    offset := some 10 }

theorem operands_meet_operator_filled :
    (members.op.Takes members.operands.length ∧ members.layout? = some members.layout) ∧
    filledSet.layout? = Strict.whole filledSet.layout ∧
    (Statement.select filledSelect).layout? .sqlServer =
      Strict.whole ((Statement.select filledSelect).layout .sqlServer) ∧
    filledSelect.countLayout? .mysql = Strict.whole (filledSelect.countLayout .mysql) := by
  obtain ⟨alone, inSets, inStatements, inCounts⟩ := operands_meet_operator
  have given : ∀ step ∈ fillings, step.edit.Formed := by
    simpa [fillings, PredicateSet.Edit.Formed] using members_formed
  obtain ⟨formed, whole⟩ := inSets _ fillings (PredicateSet.formed_empty _ none) given
  have inside : (Statement.select filledSelect).Formed := by
    intro p member
    simp only [Statement.atoms, filledSelect, Select.ofTarget, Select.atoms, Select.sourceAtoms,
      Select.tableAtoms, Select.joinsAtoms, PredicateSet.atoms, PredicateSet.childAtoms,
      List.append_nil, List.nil_append] at member
    exact formed p member
  exact ⟨alone members members_formed, whole, inStatements .sqlServer _ inside,
    inCounts .mysql filledSelect inside⟩

end CrossDialect
