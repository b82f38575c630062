import CrossDialect.Proofs.Placeholders.Leaves
import CrossDialect.Proofs.Statements.Layouts

/-!
The values of conditions and statements in the order in which they are given, each
with its column and apart from any layout. A layout has its slots in this order, and
the marks put into a statement turn up in its layout one by one.
-/

namespace CrossDialect

namespace Entries

def slots (entries : List (String × Value)) : List Slot :=
  entries.flatMap fun (column, v) => v.slots (some column)

def leaves (entries : List (String × Value)) : List Value :=
  entries.flatMap fun (_, v) => v.leaves

def mark (f : Nat → String) (n : Nat) : List (String × Value) → List (String × Value)
  | [] => []
  | (column, v) :: rest => (column, v.mark f n) :: mark f (n + v.leaves.length) rest

theorem slots_append (before behind : List (String × Value)) :
    slots (before ++ behind) = slots before ++ slots behind := by
  simp [slots]

theorem values_slots (entries : List (String × Value)) :
    (slots entries).filterMap Slot.value? = leaves entries := by
  simp [slots, leaves, List.filterMap_flatMap, Value.values_slots]

theorem leaves_of_slots {l : Layout} {entries : List (String × Value)}
    (same : l.slots = slots entries) : l.leaves = leaves entries := by
  rw [← Layout.values_slots, same, values_slots]

theorem columns_mark (f : Nat → String) (n : Nat) (entries : List (String × Value)) :
    (mark f n entries).map (·.1) = entries.map (·.1) := by
  induction entries generalizing n with
  | nil => rfl
  | cons e rest ih => simp [mark, ih]

theorem mark_items (f : Nat → String) (n : Nat) (column : String) (vs : List Value) :
    mark f n (vs.map (column, ·)) = (Value.markItems f n vs).map (column, ·) := by
  induction vs generalizing n with
  | nil => rfl
  | cons v vs ih => simp [mark, Value.markItems, ih]

def listing (head : String → Layout) (entries : List (String × Value)) : Layout :=
  Layout.joined ", " (entries.map fun (column, v) => head column ++ [.value (some column) v])

theorem listing_cons (head : String → Layout) (e e' : String × Value)
    (rest : List (String × Value)) :
    listing head (e :: e' :: rest) =
      head e.1 ++ [.value (some e.1) e.2] ++ .text ", " :: listing head (e' :: rest) := by
  rfl

theorem slots_listing (head : String → Layout) (plain : ∀ column, (head column).slots = [])
    (entries : List (String × Value)) : (listing head entries).slots = slots entries := by
  simp [listing, Layout.slots_joined, List.flatMap_map, plain, slots]

theorem mark_listing (head : String → Layout) (plain : ∀ column, (head column).leaves = [])
    (f : Nat → String) (n : Nat) (entries : List (String × Value)) :
    (listing head entries).mark f n = listing head (mark f n entries) := by
  induction entries generalizing n with
  | nil => rfl
  | cons e rest ih =>
      have opening (n : Nat) : (head e.1).mark f n = head e.1 :=
        Layout.mark_of_no_leaf f n _ (plain e.1)
      cases rest with
      | nil => simp [listing, Layout.joined, mark, opening, plain]
      | cons e' rest =>
          simp only [mark] at ih ⊢
          rw [listing_cons, listing_cons]
          simp [opening, plain, ih]

end Entries

namespace Predicate

/-- The operands that stand in the text. A predicate that was checked has no others. -/
def placed (p : Predicate) : List Value :=
  match p.op.shape with
  | .nothing => []
  | .one => p.operands.take 1
  | .bounds => p.operands.take 2
  | .list => p.operands

def entries (p : Predicate) : List (String × Value) := p.placed.map (p.column, ·)

def mark (f : Nat → String) (n : Nat) (p : Predicate) : Predicate :=
  { p with operands := Value.markItems f n p.operands }

theorem right_list {p : Predicate} (shape : p.op.shape = .list) :
    p.right = .text " " :: (Entries.listing (fun _ => []) p.entries).parenthesized := by
  simp [right, shape, Entries.listing, entries, placed, Function.comp_def]

theorem slots_layout (p : Predicate) : p.layout.slots = Entries.slots p.entries := by
  have right_eq : p.right.slots = Entries.slots p.entries := by
    cases shape : p.op.shape with
    | list =>
        simp [right_list shape, Layout.parenthesized,
          Entries.slots_listing (fun _ => []) (fun _ => rfl)]
    | nothing => simp [right, shape, entries, placed, Entries.slots]
    | one =>
        rcases operands : p.operands with _ | ⟨v, vs⟩ <;>
          simp [right, shape, operand, operands, entries, placed, Entries.slots]
    | bounds =>
        -- operands may be missing or left over where a predicate was never checked
        rcases operands : p.operands with _ | ⟨v, _ | ⟨w, vs⟩⟩ <;>
          simp [right, shape, operand, operands, entries, placed, Entries.slots]
  simp [layout, Layout.parenthesized, right_eq]

theorem layout_mark (f : Nat → String) (n : Nat) (p : Predicate) :
    (p.mark f n).layout = p.layout.mark f n := by
  have right_eq : (p.mark f n).right = p.right.mark f n := by
    cases shape : p.op.shape with
    | list =>
        have marked : (p.mark f n).entries = Entries.mark f n p.entries := by
          simp [entries, placed, mark, shape, Entries.mark_items]
        rw [right_list (p := p.mark f n) shape, right_list shape, marked]
        simp [Layout.parenthesized, Entries.mark_listing (fun _ => []) (fun _ => rfl)]
    | nothing => simp [right, shape, mark]
    | one =>
        rcases operands : p.operands with _ | ⟨v, vs⟩ <;>
          simp [right, shape, operand, operands, mark, Value.markItems]
    | bounds =>
        rcases operands : p.operands with _ | ⟨v, _ | ⟨w, vs⟩⟩ <;>
          simp [right, shape, operand, operands, mark, Value.markItems]
  simp only [layout, Layout.parenthesized, right_eq, Layout.mark_append, Layout.mark_text,
    Layout.mark_name, Layout.mark_nil]
  rfl

def markAll (f : Nat → String) (n : Nat) : List Predicate → List Predicate
  | [] => []
  | p :: ps => p.mark f n :: markAll f (n + (Entries.leaves p.entries).length) ps

end Predicate

namespace PredicateSet

mutual

def entries : PredicateSet → List (String × Value)
  | { predicates, children, .. } =>
      predicates.flatMap Predicate.entries ++ childEntries children

def childEntries : List PredicateSet → List (String × Value)
  | [] => []
  | c :: cs => entries c ++ childEntries cs

end

mutual

def mark (f : Nat → String) (n : Nat) : PredicateSet → PredicateSet
  | s@{ predicates, children, .. } =>
      let inner := n + (Entries.leaves (predicates.flatMap Predicate.entries)).length
      { s with
        predicates := Predicate.markAll f n predicates
        children := markChildren f inner children }

def markChildren (f : Nat → String) (n : Nat) : List PredicateSet → List PredicateSet
  | [] => []
  | c :: cs => mark f n c :: markChildren f (n + (Entries.leaves c.entries).length) cs

end

def markElements (f : Nat → String) (n : Nat) :
    List (Conjunction × Layout) → List (Conjunction × Layout)
  | [] => []
  | (c, l) :: rest => (c, l.mark f n) :: markElements f (n + l.leaves.length) rest

theorem markElements_append (f : Nat → String) (n : Nat)
    (before behind : List (Conjunction × Layout)) :
    markElements f n (before ++ behind) = markElements f n before ++
      markElements f (n + (before.flatMap fun e => e.2.leaves).length) behind := by
  induction before generalizing n with
  | nil => rfl
  | cons e rest ih => simp [markElements, ih, Nat.add_assoc]

theorem slots_joinElements (elements : List (Conjunction × Layout)) :
    (joinElements elements).slots = elements.flatMap fun e => e.2.slots := by
  cases elements with
  | nil => rfl
  | cons e rest =>
      cases rest with
      | nil => simp [joinElements]
      | cons e' rest =>
          have others (rest : List (Conjunction × Layout)) :
              Layout.slots (rest.flatMap trailing) = rest.flatMap fun e => e.2.slots := by
            simp [Layout.slots, List.flatMap_assoc, trailing, Piece.slots]
          rw [joinElements_cons_cons]
          simp only [Layout.parenthesized, Layout.slots_append, Layout.slots_text,
            Layout.slots_nil, trailing, others, List.append_nil, List.flatMap_cons]

theorem joinElements_mark (f : Nat → String) (n : Nat) (elements : List (Conjunction × Layout)) :
    joinElements (markElements f n elements) = (joinElements elements).mark f n := by
  have tail (n : Nat) (rest : List (Conjunction × Layout)) :
      (markElements f n rest).flatMap trailing = Layout.mark f n (rest.flatMap trailing) := by
    induction rest generalizing n with
    | nil => rfl
    | cons e rest ih => simp [markElements, trailing, ih]
  cases elements with
  | nil => rfl
  | cons e rest =>
      cases rest with
      | nil => rfl
      | cons e' rest =>
          have others := tail (n + e.2.leaves.length) (e' :: rest)
          simp only [markElements] at others ⊢
          rw [joinElements_cons_cons, joinElements_cons_cons, others]
          simp [Layout.parenthesized]

mutual

theorem entries_of_empty (s : PredicateSet) (empty : s.isEmpty = true) : s.entries = [] := by
  cases s with
  | mk target predicates children =>
      simp only [isEmpty, Bool.and_eq_true, List.isEmpty_iff] at empty
      simp [entries, empty.1, childEntries_of_empty children empty.2]

theorem childEntries_of_empty (cs : List PredicateSet) (empty : allEmpty cs = true) :
    childEntries cs = [] := by
  cases cs with
  | nil => rfl
  | cons c cs =>
      simp only [allEmpty, Bool.and_eq_true] at empty
      simp [childEntries, entries_of_empty c empty.1, childEntries_of_empty cs empty.2]

end

mutual

theorem isEmpty_mark (f : Nat → String) (n : Nat) (s : PredicateSet) :
    (s.mark f n).isEmpty = s.isEmpty := by
  cases s with
  | mk target predicates children =>
      have own : (Predicate.markAll f n predicates).isEmpty = predicates.isEmpty := by
        cases predicates <;> rfl
      simp [mark, isEmpty, own, allEmpty_markChildren f _ children]

theorem allEmpty_markChildren (f : Nat → String) (n : Nat) (cs : List PredicateSet) :
    allEmpty (markChildren f n cs) = allEmpty cs := by
  cases cs with
  | nil => rfl
  | cons c cs =>
      simp [markChildren, allEmpty, isEmpty_mark f n c, allEmpty_markChildren f _ cs]

end

theorem conjunction_mark (f : Nat → String) (n : Nat) (s : PredicateSet) :
    (s.mark f n).conjunction = s.conjunction := by
  cases s; rfl

theorem slots_ownElements (s : PredicateSet) :
    (s.ownElements.flatMap fun e => e.2.slots) =
      Entries.slots (s.predicates.flatMap Predicate.entries) := by
  simp only [ownElements, List.flatMap_map, Entries.slots, List.flatMap_assoc]
  congr 1
  funext p
  exact p.slots_layout

mutual

theorem slots_layout {s : PredicateSet} {l : Layout} (laid : s.layout = .ok l) :
    l.slots = Entries.slots s.entries := by
  cases s with
  | mk target predicates children =>
      rcases layout_eq_ok.1 laid with ⟨nested, others, rfl⟩
      rw [slots_joinElements, List.flatMap_append, slots_ownElements, entries,
        Entries.slots_append, slots_childElements others]

theorem slots_childElements {cs : List PredicateSet} {elements : List (Conjunction × Layout)}
    (laid : childElements cs = .ok elements) :
    (elements.flatMap fun e => e.2.slots) = Entries.slots (childEntries cs) := by
  cases cs with
  | nil => cases laid; rfl
  | cons c cs =>
      obtain ⟨conjunction, rest, bound, others, ⟨empty, rfl⟩ | ⟨present, l, first, rfl⟩⟩ :=
        childElements_cons_eq_ok.1 laid
      · rw [childEntries, entries_of_empty c empty, List.nil_append]
        exact slots_childElements others
      · rw [childEntries, Entries.slots_append, List.flatMap_cons, slots_layout first,
          slots_childElements others]

end

theorem leaves_layout {s : PredicateSet} {l : Layout} (laid : s.layout = .ok l) :
    l.leaves = Entries.leaves s.entries :=
  Entries.leaves_of_slots (slots_layout laid)

theorem leaves_ownElements (s : PredicateSet) :
    (s.ownElements.flatMap fun e => e.2.leaves) =
      Entries.leaves (s.predicates.flatMap Predicate.entries) := by
  rw [← Entries.values_slots, ← slots_ownElements]
  simp [List.filterMap_flatMap, Layout.values_slots]

theorem ownElements_mark (f : Nat → String) (n : Nat) (ps : List Predicate) :
    ((Predicate.markAll f n ps).map fun p => (p.conjunction, p.layout)) =
      markElements f n (ps.map fun p => (p.conjunction, p.layout)) := by
  induction ps generalizing n with
  | nil => rfl
  | cons p ps ih =>
      have count := Entries.leaves_of_slots p.slots_layout
      simp only [Predicate.markAll, List.map_cons, markElements, ih, count, Predicate.layout_mark]
      rfl

mutual

theorem layout_mark (f : Nat → String) (n : Nat) {s : PredicateSet} {l : Layout}
    (laid : s.layout = .ok l) : (s.mark f n).layout = .ok (l.mark f n) := by
  cases s with
  | mk target predicates children =>
      rcases layout_eq_ok.1 laid with ⟨nested, others, rfl⟩
      refine layout_eq_ok.2 ⟨_, childElements_mark f _ others, ?_⟩
      rw [← joinElements_mark, markElements_append, leaves_ownElements]
      congr 2
      exact (ownElements_mark f n predicates).symm

theorem childElements_mark (f : Nat → String) (n : Nat) {cs : List PredicateSet}
    {elements : List (Conjunction × Layout)} (laid : childElements cs = .ok elements) :
    childElements (markChildren f n cs) = .ok (markElements f n elements) := by
  cases cs with
  | nil => cases laid; rfl
  | cons c cs =>
      obtain ⟨conjunction, rest, bound, others, ⟨empty, rfl⟩ | ⟨present, l, first, rfl⟩⟩ :=
        childElements_cons_eq_ok.1 laid
      · -- a set that is left out has no leaves, so the count goes on unchanged
        have skipped := childElements_mark f n others
        refine childElements_cons_eq_ok.2 ⟨conjunction, _, ?_, ?_, .inl ⟨?_, rfl⟩⟩
        · rw [conjunction_mark, bound]
        · simpa [entries_of_empty c empty, Entries.leaves] using skipped
        · rw [isEmpty_mark, empty]
      · have behind := childElements_mark f (n + l.leaves.length) others
        refine childElements_cons_eq_ok.2
          ⟨conjunction, _, ?_, ?_, .inr ⟨?_, l.mark f n, layout_mark f n first, rfl⟩⟩
        · rw [conjunction_mark, bound]
        · rwa [← leaves_layout first]
        · rw [isEmpty_mark, present]

end

end PredicateSet

namespace Select

mutual

/-- The values of a query in the order of its clauses: the tables, each join with its
conditions, WHERE and HAVING. -/
def entries : Select → List (String × Value)
  | { source, joins, filter, having, .. } =>
      sourceEntries source ++ joinsEntries joins ++ filter.entries ++ having.entries

def sourceEntries : Option (TableRef Select) → List (String × Value)
  | none => []
  | some table => tableEntries table

def tableEntries : TableRef Select → List (String × Value)
  | .named _ => []
  | .aliased _ _ => []
  | .subquery inner _ => inner.entries

def joinsEntries : List (Join Select) → List (String × Value)
  | [] => []
  | j :: js => joinEntries j ++ joinsEntries js

def joinEntries : Join Select → List (String × Value)
  | { table, on, .. } => tableEntries table ++ on.entries

end

mutual

def mark (f : Nat → String) (n : Nat) : Select → Select
  | s@{ source, joins, filter, having, .. } =>
      let inJoins := n + (Entries.leaves (sourceEntries source)).length
      let inFilter := inJoins + (Entries.leaves (joinsEntries joins)).length
      let inHaving := inFilter + (Entries.leaves filter.entries).length
      { s with
        source := markSource f n source
        joins := markJoins f inJoins joins
        filter := filter.mark f inFilter
        having := having.mark f inHaving }

def markSource (f : Nat → String) (n : Nat) : Option (TableRef Select) → Option (TableRef Select)
  | none => none
  | some table => some (markTable f n table)

def markTable (f : Nat → String) (n : Nat) : TableRef Select → TableRef Select
  | .named name => .named name
  | .aliased table aliasName => .aliased table aliasName
  | .subquery inner aliasName => .subquery (inner.mark f n) aliasName

def markJoins (f : Nat → String) (n : Nat) : List (Join Select) → List (Join Select)
  | [] => []
  | j :: js => markJoin f n j :: markJoins f (n + (Entries.leaves (joinEntries j)).length) js

def markJoin (f : Nat → String) (n : Nat) : Join Select → Join Select
  | { kind, table, on } =>
      { kind
        table := markTable f n table
        on := on.mark f (n + (Entries.leaves (tableEntries table)).length) }

end

theorem slots_orderList (s : Select) : s.orderList.slots = [] := by
  have single (item : OrderItem) : item.layout.slots = [] := by
    rcases item with ⟨column, _ | direction⟩ <;> rfl
  simp [orderList, OrderItem.layouts, Layout.slots_joined, List.flatMap_map, single]

theorem slots_columnList (s : Select) : s.columnList.slots = [] := by
  unfold columnList
  split
  · rfl
  · exact Layout.slots_names _

theorem slots_opening (s : Select) (window : Window) : (s.opening window).slots = [] := by
  have columns := s.slots_columnList
  have order := s.slots_orderList
  cases window <;> cases distinct : s.distinct <;>
    simp [opening, core, rowNumbering, Window.head, columns, order, distinct]

theorem slots_closing (d : Dialect) (s : Select) (window : Window) :
    (s.closing d window).slots = [] := by
  have order : s.orderClause.slots = [] := by
    rw [orderClause, Layout.slots_clause, slots_orderList]
  cases window with
  | numbered first last =>
      have bounds : (rowCondition first last).layout.slots = [] := by
        cases last <;> rfl
      cases distinct : s.distinct <;> simp [closing, bounds, distinct]
  | offset skipped =>
      simp only [closing, Window.tail, Layout.slots_append, order]
      split <;> rfl
  | _ => simp [closing, Window.tail, order]

theorem slots_conditions {s : Select} {l : Layout} (told : s.conditions = .ok l) :
    l.slots = Entries.slots s.filter.entries ++ Entries.slots s.having.entries := by
  rcases conditions_eq_ok.1 told with ⟨filter, left, having, right, rfl⟩
  simp [PredicateSet.slots_layout left, PredicateSet.slots_layout right]

mutual

theorem slots_layout {d : Dialect} {s : Select} {l : Layout} (laid : s.layout d = .ok l) :
    l.slots = Entries.slots s.entries := by
  cases s with
  | mk target distinct columns source joins filter groupBy having orderBy limit offset =>
      rcases layout_eq_ok.1 laid with ⟨window, chosen, body, built, rfl⟩
      rcases body_eq_ok.1 built with ⟨first, tables, others, joined, last, told, rfl⟩
      simp [assemble_eq, slots_opening, slots_closing, slots_conditions told,
        slots_sourceLayout tables, slots_joinsLayout joined, entries, Entries.slots_append]

theorem slots_sourceLayout {d : Dialect} {source : Option (TableRef Select)} {l : Layout}
    (laid : sourceLayout d source = .ok l) : l.slots = Entries.slots (sourceEntries source) := by
  cases source with
  | none => cases laid; rfl
  | some table =>
      rcases bind_eq_ok.1 laid with ⟨inner, tables, rest⟩
      obtain rfl := pure_eq_ok.1 rest
      simpa [sourceEntries] using slots_tableLayout tables

theorem slots_tableLayout {d : Dialect} {table : TableRef Select} {l : Layout}
    (laid : tableLayout d table = .ok l) : l.slots = Entries.slots (tableEntries table) := by
  cases table with
  | named name => cases laid; rfl
  | aliased name aliasName => cases laid; rfl
  | subquery inner aliasName =>
      rcases bind_eq_ok.1 laid with ⟨nested, query, rest⟩
      obtain rfl := pure_eq_ok.1 rest
      simpa [Layout.parenthesized, tableEntries] using slots_layout query

theorem slots_joinsLayout {d : Dialect} {joins : List (Join Select)} {l : Layout}
    (laid : joinsLayout d joins = .ok l) : l.slots = Entries.slots (joinsEntries joins) := by
  cases joins with
  | nil => cases laid; rfl
  | cons j js =>
      rcases bind_eq_ok.1 laid with ⟨first, head, rest⟩
      rcases bind_eq_ok.1 rest with ⟨others, tail, last⟩
      obtain rfl := pure_eq_ok.1 last
      simp [slots_joinLayout head, slots_joinsLayout tail, joinsEntries, Entries.slots_append]

theorem slots_joinLayout {d : Dialect} {j : Join Select} {l : Layout}
    (laid : joinLayout d j = .ok l) : l.slots = Entries.slots (joinEntries j) := by
  cases j with
  | mk kind table on =>
      rcases bind_eq_ok.1 laid with ⟨first, tables, rest⟩
      rcases bind_eq_ok.1 rest with ⟨condition, told, last⟩
      obtain rfl := pure_eq_ok.1 last
      simp [slots_tableLayout tables, PredicateSet.slots_layout told, joinEntries,
        Entries.slots_append]

end

theorem conditions_mark (f : Nat → String) (n : Nat) {s : Select} (marked : Select) {l : Layout}
    (told : s.conditions = .ok l) (groups : marked.groupBy = s.groupBy)
    (filtered : marked.filter = s.filter.mark f n)
    (restricted : marked.having =
      s.having.mark f (n + (Entries.leaves s.filter.entries).length)) :
    marked.conditions = .ok (l.mark f n) := by
  rcases conditions_eq_ok.1 told with ⟨filter, left, having, right, rfl⟩
  have left' := PredicateSet.layout_mark f n left
  have right' := PredicateSet.layout_mark f (n + filter.leaves.length) right
  rw [PredicateSet.leaves_layout left, ← restricted] at right'
  rw [← filtered] at left'
  refine conditions_eq_ok.2 ⟨_, left', _, right', ?_⟩
  have grouped := Layout.slots_clause " GROUP BY " (Layout.names s.groupBy)
  rw [Layout.slots_names] at grouped
  have filterLeaves := Entries.leaves_of_slots (PredicateSet.slots_layout left)
  have clauseLeaves : (Layout.clause " WHERE " filter).leaves = filter.leaves := by
    rw [← Layout.values_slots, Layout.slots_clause, Layout.values_slots]
  simp [groups, Layout.mark_of_no_slot f _ grouped, Layout.leaves_of_no_slot grouped,
    clauseLeaves, filterLeaves]

/-- Leaves stand in the body of a query only. -/
theorem assemble_mark (f : Nat → String) (n : Nat) (d : Dialect) (s : Select) (window : Window)
    (body : Layout) :
    (s.assemble d window body).mark f n = s.assemble d window (body.mark f n) := by
  have opened := s.slots_opening window
  have closed := s.slots_closing d window
  rw [assemble_eq, assemble_eq]
  simp only [Layout.mark_append, Layout.mark_of_no_slot f _ opened,
    Layout.mark_of_no_slot f _ closed, Layout.leaves_of_no_slot opened, List.length_nil,
    Nat.add_zero]

mutual

theorem layout_mark (f : Nat → String) (n : Nat) {d : Dialect} {s : Select} {l : Layout}
    (laid : s.layout d = .ok l) : (s.mark f n).layout d = .ok (l.mark f n) := by
  cases s with
  | mk target distinct columns source joins filter groupBy having orderBy limit offset =>
      rcases layout_eq_ok.1 laid with ⟨window, chosen, body, built, rfl⟩
      rcases body_eq_ok.1 built with ⟨first, tables, others, joined, last, told, rfl⟩
      have tables' := sourceLayout_mark f n tables
      have joined' := joinsLayout_mark f (n + first.leaves.length) joined
      have told' := conditions_mark f (n + first.leaves.length + others.leaves.length)
        ((mk target distinct columns source joins filter groupBy having orderBy limit
          offset).mark f n) told rfl
      have marked : (first ++ others ++ last).mark f n = first.mark f n ++
          others.mark f (n + first.leaves.length) ++
          last.mark f (n + first.leaves.length + others.leaves.length) := by
        simp [Nat.add_assoc]
      rw [Entries.leaves_of_slots (slots_sourceLayout tables)] at joined' told' marked
      rw [Entries.leaves_of_slots (slots_joinsLayout joined)] at told' marked
      refine layout_eq_ok.2 ⟨window, chosen, _,
        body_eq_ok.2 ⟨_, tables', _, joined', _, told' rfl rfl, rfl⟩, ?_⟩
      rw [assemble_mark, marked]
      -- columns, order and window hold no values, so the query around the body is the same
      rfl

theorem sourceLayout_mark (f : Nat → String) (n : Nat) {d : Dialect}
    {source : Option (TableRef Select)} {l : Layout} (laid : sourceLayout d source = .ok l) :
    sourceLayout d (markSource f n source) = .ok (l.mark f n) := by
  cases source with
  | none => cases laid; rfl
  | some table =>
      rcases bind_eq_ok.1 laid with ⟨inner, tables, rest⟩
      obtain rfl := pure_eq_ok.1 rest
      exact bind_eq_ok.2 ⟨_, tableLayout_mark f n tables, rfl⟩

theorem tableLayout_mark (f : Nat → String) (n : Nat) {d : Dialect} {table : TableRef Select}
    {l : Layout} (laid : tableLayout d table = .ok l) :
    tableLayout d (markTable f n table) = .ok (l.mark f n) := by
  cases table with
  | named name => cases laid; rfl
  | aliased name aliasName => cases laid; rfl
  | subquery inner aliasName =>
      rcases bind_eq_ok.1 laid with ⟨nested, query, rest⟩
      obtain rfl := pure_eq_ok.1 rest
      refine bind_eq_ok.2 ⟨_, layout_mark f n query, pure_eq_ok.2 ?_⟩
      simp [Layout.parenthesized]

theorem joinsLayout_mark (f : Nat → String) (n : Nat) {d : Dialect} {joins : List (Join Select)}
    {l : Layout} (laid : joinsLayout d joins = .ok l) :
    joinsLayout d (markJoins f n joins) = .ok (l.mark f n) := by
  cases joins with
  | nil => cases laid; rfl
  | cons j js =>
      rcases bind_eq_ok.1 laid with ⟨first, head, rest⟩
      rcases bind_eq_ok.1 rest with ⟨others, tail, last⟩
      obtain rfl := pure_eq_ok.1 last
      have tail' := joinsLayout_mark f (n + first.leaves.length) tail
      rw [Entries.leaves_of_slots (slots_joinLayout head)] at tail'
      refine bind_eq_ok.2 ⟨_, joinLayout_mark f n head, bind_eq_ok.2 ⟨_, tail', pure_eq_ok.2 ?_⟩⟩
      rw [Layout.mark_append, Entries.leaves_of_slots (slots_joinLayout head)]

theorem joinLayout_mark (f : Nat → String) (n : Nat) {d : Dialect} {j : Join Select} {l : Layout}
    (laid : joinLayout d j = .ok l) : joinLayout d (markJoin f n j) = .ok (l.mark f n) := by
  cases j with
  | mk kind table on =>
      rcases bind_eq_ok.1 laid with ⟨first, tables, rest⟩
      rcases bind_eq_ok.1 rest with ⟨condition, told, last⟩
      obtain rfl := pure_eq_ok.1 last
      have told' := PredicateSet.layout_mark f (n + first.leaves.length) told
      rw [Entries.leaves_of_slots (slots_tableLayout tables)] at told'
      refine bind_eq_ok.2
        ⟨_, tableLayout_mark f n tables, bind_eq_ok.2 ⟨_, told', pure_eq_ok.2 ?_⟩⟩
      simp [Entries.leaves_of_slots (slots_tableLayout tables)]

end

end Select

end CrossDialect
