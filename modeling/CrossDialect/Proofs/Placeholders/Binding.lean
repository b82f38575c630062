import CrossDialect.Container
import CrossDialect.Proofs.Placeholders.Entries

/-!
Every bound value meets its own placeholder. The values to bind are the leaves of the
statement in the order in which they are given, on every dialect, and the text of the
statement is that of a statement with a mark for each of them in turn.
-/

namespace CrossDialect

namespace Insert

def mark (f : Nat → String) (n : Nat) (i : Insert) : Insert :=
  { i with values := Entries.mark f n i.values }

theorem columns_mark (f : Nat → String) (n : Nat) (i : Insert) :
    (i.mark f n).columns = i.columns :=
  Entries.columns_mark f n i.values

theorem slots_assignments (columns : List String) (form : String → Layout)
    (plain : ∀ c, (form c).slots = []) : (assignments columns form).slots = [] := by
  simp [assignments, Layout.slots_joined, List.flatMap_map, plain]

theorem slots_upsertClause {d : Dialect} {i : Insert} {l : Layout}
    (laid : i.upsertClause d = .ok l) : l.slots = [] := by
  have assigned (columns : List String) (word : String) (close : Layout)
      (closed : close.slots = []) :
      (assignments columns fun c => .text word :: .name c :: close).slots = [] :=
    slots_assignments _ _ fun c => by simpa using closed
  unfold upsertClause at laid
  split at laid
  · cases laid; rfl
  · split at laid
    · cases laid
      unfold duplicateKeyClause
      split
      · rfl
      · simpa using assigned _ "VALUES(" [.text ")"] rfl
    · simp only [conflictClause] at laid
      split at laid
      · cases laid
        split <;> simp [Layout.parenthesized]
      · split at laid
        · cases laid
        · cases laid
          simpa [Layout.parenthesized] using assigned _ "excluded." [] rfl
    · cases laid

theorem slots_outputClause {d : Dialect} {i : Insert} {l : Layout}
    (laid : i.outputClause d = .ok l) : l.slots = [] := by
  unfold outputClause at laid
  split at laid
  · cases laid; rfl
  · split at laid
    · cases laid
      simp [Layout.slots_joined, List.flatMap_map]
    · cases laid; rfl
    · cases laid

theorem slots_returningClause (d : Dialect) (i : Insert) : (i.returningClause d).slots = [] := by
  unfold returningClause
  split <;> simp

theorem upsertClause_mark (f : Nat → String) (n : Nat) (d : Dialect) (i : Insert) :
    (i.mark f n).upsertClause d = i.upsertClause d := by
  have overwritten (u : Upsert) : (i.mark f n).overwritten u = i.overwritten u := by
    simp [Insert.overwritten, columns_mark]
  have same : (i.mark f n).upsert = i.upsert := rfl
  simp [upsertClause, same, duplicateKeyClause, conflictClause, overwritten, columns_mark]

theorem layout_eq_ok {d : Dialect} {i : Insert} {l : Layout} :
    i.layout d = .ok l ↔ ∃ table, i.table = some table ∧
      ∃ output, i.outputClause d = .ok output ∧ ∃ upsert, i.upsertClause d = .ok upsert ∧
      l = .text (i.opening d) :: .name table :: .text " " ::
        (Layout.names i.columns).parenthesized ++ output
        ++ .text " VALUES " :: i.valueList.parenthesized ++ upsert ++ i.returningClause d := by
  unfold layout
  cases table : i.table with
  | none => simp
  | some name => simp only [bind_eq_ok, pure_eq_ok, Option.some.injEq, exists_eq_left']

theorem valueList_eq (i : Insert) : i.valueList = Entries.listing (fun _ => []) i.values := rfl

theorem slots_layout {d : Dialect} {i : Insert} {l : Layout} (laid : i.layout d = .ok l) :
    l.slots = Entries.slots i.values := by
  rcases layout_eq_ok.1 laid with ⟨table, named, output, left, upsert, right, rfl⟩
  simp [Layout.parenthesized, slots_outputClause left, slots_upsertClause right,
    slots_returningClause, valueList_eq, Entries.slots_listing _ fun _ => Layout.slots_nil]

theorem layout_mark (f : Nat → String) (n : Nat) {d : Dialect} {i : Insert} {l : Layout}
    (laid : i.layout d = .ok l) : (i.mark f n).layout d = .ok (l.mark f n) := by
  rcases layout_eq_ok.1 laid with ⟨table, named, output, left, upsert, right, rfl⟩
  have right' := right
  rw [← upsertClause_mark f n] at right'
  refine layout_eq_ok.2 ⟨table, named, output, left, upsert, right', ?_⟩
  -- only the list of values holds leaves, so marks leave the clauses around it alone
  have columns := Layout.slots_names i.columns
  have output_slots := slots_outputClause left
  have upsert_slots := slots_upsertClause right
  have values := Entries.mark_listing (fun _ => []) (fun _ => rfl) f n i.values
  simp only [Layout.parenthesized, Layout.mark_append, Layout.mark_text, Layout.mark_name,
    Layout.mark_nil, Layout.mark_of_no_slot f _ columns, Layout.mark_of_no_slot f _ output_slots,
    Layout.mark_of_no_slot f _ upsert_slots,
    Layout.mark_of_no_slot f _ (slots_returningClause d i), List.cons_append, Layout.leaves_text,
    Layout.leaves_append, Layout.leaves_of_no_slot columns,
    Layout.leaves_of_no_slot output_slots, Layout.leaves_nil, List.append_nil, List.length_nil,
    Nat.add_zero, valueList_eq, values, columns_mark]
  rfl

end Insert

namespace Update

def entries (u : Update) : List (String × Value) := u.assignments ++ u.filter.entries

def mark (f : Nat → String) (n : Nat) (u : Update) : Update :=
  { u with
    assignments := Entries.mark f n u.assignments
    filter := u.filter.mark f (n + (Entries.leaves u.assignments).length) }

theorem assignmentList_eq (u : Update) :
    u.assignmentList = Entries.listing (fun c => [.name c, .text " = "]) u.assignments := rfl

theorem slots_assignmentList (u : Update) :
    u.assignmentList.slots = Entries.slots u.assignments := by
  rw [assignmentList_eq]
  exact Entries.slots_listing _ (fun _ => rfl) _

theorem slots_layout {u : Update} {l : Layout} (laid : u.layout = .ok l) :
    l.slots = Entries.slots u.entries := by
  rcases layout_eq_ok.1 laid with ⟨table, named, filter, told, rfl⟩
  simp [slots_assignmentList, PredicateSet.slots_layout told, entries, Entries.slots_append]

theorem layout_mark (f : Nat → String) (n : Nat) {u : Update} {l : Layout}
    (laid : u.layout = .ok l) : (u.mark f n).layout = .ok (l.mark f n) := by
  rcases layout_eq_ok.1 laid with ⟨table, named, filter, told, rfl⟩
  have assigned := Entries.mark_listing (fun c => [.name c, .text " = "]) (fun _ => rfl) f n
    u.assignments
  have count : (Layout.clause " " u.assignmentList).leaves = Entries.leaves u.assignments := by
    apply Entries.leaves_of_slots
    rw [Layout.slots_clause, slots_assignmentList]
  refine layout_eq_ok.2 ⟨table, named, _, PredicateSet.layout_mark f _ told, ?_⟩
  rw [← assignmentList_eq] at assigned
  simp only [List.cons_append, Layout.mark_text, Layout.mark_name, Layout.mark_append,
    Layout.mark_clause, assigned, count]
  rfl

end Update

namespace Delete

theorem slots_layout {x : Delete} {l : Layout} (laid : x.layout = .ok l) :
    l.slots = Entries.slots x.filter.entries := by
  rcases layout_eq_ok.1 laid with ⟨table, named, filter, told, rfl⟩
  simpa using PredicateSet.slots_layout told

theorem layout_mark (f : Nat → String) (n : Nat) {x : Delete} {l : Layout}
    (laid : x.layout = .ok l) :
    layout { x with filter := x.filter.mark f n } = .ok (l.mark f n) := by
  rcases layout_eq_ok.1 laid with ⟨table, named, filter, told, rfl⟩
  refine layout_eq_ok.2 ⟨table, named, _, PredicateSet.layout_mark f n told, ?_⟩
  simp

end Delete

namespace Statement

def entries : Statement → List (String × Value)
  | .select s => s.entries
  | .insert i => i.values
  | .update u => u.entries
  | .delete x => x.filter.entries

def leaves (s : Statement) : List Value := Entries.leaves s.entries

/-- The statement with SQL text `f i` for the leaf with the number `i`, from one on. -/
def mark (f : Nat → String) : Statement → Statement
  | .select s => .select (s.mark f 0)
  | .insert i => .insert (i.mark f 0)
  | .update u => .update (u.mark f 0)
  | .delete x => .delete { x with filter := x.filter.mark f 0 }

def PlainTexts (s : Statement) : Prop :=
  ∀ e ∈ s.entries, ∀ text ∈ e.2.inlineTexts, Placeholder.isToken text (some e.1) = false

theorem slots_layout {d : Dialect} {s : Statement} {l : Layout} (laid : s.layout d = .ok l) :
    l.slots = Entries.slots s.entries := by
  cases s with
  | select s => exact Select.slots_layout laid
  | insert i => exact Insert.slots_layout laid
  | update u => exact Update.slots_layout laid
  | delete x => exact Delete.slots_layout laid

theorem layout_mark (f : Nat → String) {d : Dialect} {s : Statement} {l : Layout}
    (laid : s.layout d = .ok l) : (s.mark f).layout d = .ok (l.mark f 0) := by
  cases s with
  | select s => exact Select.layout_mark f 0 laid
  | insert i => exact Insert.layout_mark f 0 laid
  | update u => exact Update.layout_mark f 0 laid
  | delete x => exact Delete.layout_mark f 0 laid

theorem slots_bound {s : Statement} (plain : s.PlainTexts) :
    ∀ slot ∈ Entries.slots s.entries, slot.value?.isSome := by
  intro slot member
  rcases List.mem_flatMap.1 member with ⟨e, inside, own⟩
  exact Value.slots_bound (some e.1) e.2 (plain e inside) slot own

end Statement

/-- What a statement is built into when every bound value meets its own placeholder. -/
structure Built.Binds (t : Target) (s : Statement) (b : Built) : Prop where
  params : b.params = s.leaves
  positional : t.dialect = .mysql ∨ t.dialect = .sqlServer →
    (s.mark fun _ => "?").buildFor t = .ok ⟨b.sql, []⟩
  numbered : t.dialect = .postgres →
    (s.mark fun i => "$" ++ Nat.repr i).buildFor t = .ok ⟨b.sql, []⟩
  -- The marks stand in the text in the order of the leaves, whatever they are.
  inOrder : ∃ fragments : List Fragment,
    (fragments.filterMap Fragment.slot?).filterMap Slot.value? = s.leaves ∧
    (fragments.filterMap Fragment.slot?).length = s.leaves.length ∧
    ∀ f, (s.mark f).buildFor t =
      .ok ⟨Fragment.spell fragments ((List.range' 1 s.leaves.length).map f), []⟩

theorem Statement.binds_of_buildFor {s : Statement} (plain : s.PlainTexts) {t : Target} {b : Built}
    (built : s.buildFor t = .ok b) : b.Binds t s := by
  rcases Ident.map_eq_ok built with ⟨l, laid, rfl⟩
  have slots := slots_layout laid
  have bound : ∀ slot ∈ l.slots, slot.value?.isSome := by
    rw [slots]
    exact slots_bound plain
  -- from here on the layout stands for the statement
  have leaves : l.leaves = s.leaves := Entries.leaves_of_slots slots
  have marked (f : Nat → String) : (s.mark f).buildFor t = .ok ⟨l.spell t f, []⟩ := by
    rw [buildFor, layout_mark f laid, Except.map, Layout.build_mark bound]
  refine ⟨?_, ?_, ?_, l.fragments t, ?_, ?_, ?_⟩
  · rw [Layout.build_eq, leaves]
  · intro dialect
    have positional : t.profile.placeholder = .positional := by
      rcases dialect with dialect | dialect <;> rw [Target.profile, dialect] <;> rfl
    rw [marked, Layout.sql_positional bound positional]
  · intro dialect
    have numbered : t.profile.placeholder = .numbered := by
      rw [Target.profile, dialect]
      rfl
    rw [marked, Layout.sql_numbered bound numbered]
  · rw [Layout.slots_fragments, Layout.values_slots, leaves]
  · rw [Layout.slots_fragments, Layout.length_slots bound, leaves]
  · intro f
    rw [marked, Layout.spell, leaves]

/-- Whoever builds a statement of plain texts, for a target of its own or out of a
container, gets its leaves in order and a text with their placeholders in order. -/
theorem bound_values_meet_placeholders (s : Statement) (plain : s.PlainTexts) :
    (∀ t b, s.buildFor t = .ok b → b.Binds t s) ∧
    (∀ b, s.build = .ok b → b.Binds s.target s) ∧
    ∀ (c : Container) (b : Built), c.statement = some s → c.build = .ok b → b.Binds c.target s := by
  refine ⟨?_, ?_, ?_⟩
  · intro t b built
    exact Statement.binds_of_buildFor plain built
  · intro b built
    exact Statement.binds_of_buildFor plain built
  · intro c b held built
    rw [Container.build, held] at built
    exact Statement.binds_of_buildFor plain built

def shelvedBooks (t : Target) : Statement :=
  let shelf : PredicateSet :=
    { target := t
      predicates := [.eq "shelf" (.param (.text "A"))]
      conjunction := some .or }
  let filter : PredicateSet :=
    { target := t
      predicates := [.between "year" (.param (.int 1900)) (.param (.int 2000))]
      children := [shelf] }
  let inner : Select :=
    { target := t
      source := some (.named "copies")
      filter := { target := t, predicates := [.gt "age" (.param (.int 3))] } }
  let genre : PredicateSet :=
    { target := t
      predicates := [{ column := "genre", op := .inList,
                       operands := [.text "poem", .param .null] }] }
  .select
    { target := t
      source := some (.subquery inner "c")
      joins := [{ kind := .inner, table := .named "books", on := genre }]
      filter := filter }

theorem shelved_books_plain (t : Target) : (shelvedBooks t).PlainTexts := by
  intro e member text own
  have entries : (shelvedBooks t).entries =
      [("age", .param (.int 3)), ("genre", .text "poem"), ("genre", .param .null),
       ("year", .param (.int 1900)), ("year", .param (.int 2000)),
       ("shelf", .param (.text "A"))] := rfl
  simp only [entries, List.mem_cons, List.not_mem_nil, or_false] at member
  rcases member with rfl | rfl | rfl | rfl | rfl | rfl
  all_goals simp [Value.inlineTexts] at own
  subst own
  decide

theorem bound_values_meet_placeholders_shelved :
    let t := Target.ofDialect .postgres
    ∃ b, (shelvedBooks t).build = .ok b ∧ b.Binds t (shelvedBooks t) ∧
      b.params = [.int 3, .null, .int 1900, .int 2000, .text "A"] ∧
      b.sql = "SELECT * FROM (SELECT * FROM \"copies\" WHERE (\"age\" > $1)) AS \"c\" " ++
        "INNER JOIN \"books\" ON (\"genre\" IN (\'poem\', $2)) " ++
        "WHERE ((\"year\" BETWEEN $3 AND $4) OR (\"shelf\" = $5))" := by
  refine ⟨_, rfl, ?_, rfl, by decide +kernel⟩
  exact (bound_values_meet_placeholders _ (shelved_books_plain _)).2.1 _ rfl

end CrossDialect
