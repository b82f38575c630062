import CrossDialect.Statement.Basic

/-!
How layouts are put together from the layouts of their parts. A layout exists
exactly if those of the parts that it needs exist, and it is the text around them
that differs between statements.
-/

namespace CrossDialect

theorem bind_eq_ok {ε α β : Type} {x : Except ε α} {f : α → Except ε β} {b : β} :
    (x >>= f) = .ok b ↔ ∃ a, x = .ok a ∧ f a = .ok b := by
  cases x <;> simp [bind, Except.bind]

theorem pure_eq_ok {ε α : Type} {a b : α} : (pure a : Except ε α) = .ok b ↔ b = a := by
  simp [pure, Except.pure, eq_comm]

theorem mapM_ok_member {ε α β : Type} {f : α → Except ε β} {xs : List α} {ys : List β}
    (all : xs.mapM f = .ok ys) {y : β} (member : y ∈ ys) : ∃ x ∈ xs, f x = .ok y := by
  induction xs generalizing ys with
  | nil =>
      obtain rfl := pure_eq_ok.1 all
      cases member
  | cons x xs ih =>
      simp only [List.mapM_cons, bind_eq_ok, pure_eq_ok] at all
      obtain ⟨first, got, rest, others, rfl⟩ := all
      rcases List.mem_cons.1 member with rfl | later
      · exact ⟨x, List.mem_cons_self, got⟩
      · obtain ⟨x', inside, got⟩ := ih others later
        exact ⟨x', List.mem_cons_of_mem x inside, got⟩

theorem eq_ok_of_toOption {ε α : Type} {x : Except ε α} {a : α} (got : x.toOption = some a) :
    x = .ok a := by
  cases x with
  | ok b => exact congrArg Except.ok (Option.some.inj got)
  | error e => exact absurd got (by simp [Except.toOption])

namespace PredicateSet

def ownElements (s : PredicateSet) : List (Conjunction × Layout) :=
  s.predicates.map fun p => (p.conjunction, p.layout)

def trailing (e : Conjunction × Layout) : Layout := .text (" " ++ e.1.sql ++ " ") :: e.2

theorem joinElements_cons_cons (e e' : Conjunction × Layout) (rest : List (Conjunction × Layout)) :
    joinElements (e :: e' :: rest) =
      Layout.parenthesized (e.2 ++ (e' :: rest).flatMap trailing) := rfl

theorem layout_eq_ok {s : PredicateSet} {l : Layout} :
    s.layout = .ok l ↔ ∃ nested, childElements s.children = .ok nested ∧
      l = joinElements (s.ownElements ++ nested) := by
  cases s
  simp only [layout, bind_eq_ok, pure_eq_ok, ownElements]

/-- A nested set needs a conjunction even if it is left out. -/
theorem childElements_cons_eq_ok {c : PredicateSet} {cs : List PredicateSet}
    {elements : List (Conjunction × Layout)} :
    childElements (c :: cs) = .ok elements ↔
      ∃ conjunction rest, c.conjunction = some conjunction ∧ childElements cs = .ok rest ∧
        (c.isEmpty = true ∧ elements = rest ∨
          c.isEmpty = false ∧ ∃ l, c.layout = .ok l ∧ elements = (conjunction, l) :: rest) := by
  cases bound : c.conjunction with
  | none => simp [childElements, bound]
  | some conjunction =>
      cases empty : c.isEmpty with
      | true => simp [childElements, bound, empty, eq_comm]
      | false =>
          simp only [childElements, bound, empty, Bool.false_eq_true, ↓reduceIte, bind_eq_ok,
            pure_eq_ok]
          constructor
          · rintro ⟨l, laid, rest, others, rfl⟩
            exact ⟨conjunction, rest, rfl, others, .inr ⟨trivial, l, laid, rfl⟩⟩
          · rintro ⟨_, rest, same, others, ⟨wrong, _⟩ | ⟨_, l, laid, rfl⟩⟩
            · exact wrong.elim
            · cases same
              exact ⟨l, laid, rest, others, rfl⟩

mutual

/-- Each nested set carries a conjunction, and those that are not left out are well
joined themselves. -/
def WellJoined : PredicateSet → Prop
  | { children, .. } => AllWellJoined children

def AllWellJoined : List PredicateSet → Prop
  | [] => True
  | c :: cs => c.conjunction.isSome ∧ (c.isEmpty = false → c.WellJoined) ∧ AllWellJoined cs

end

mutual

theorem layout_exists_iff (s : PredicateSet) : (∃ l, s.layout = .ok l) ↔ s.WellJoined := by
  cases s with
  | mk target predicates children conjunction pending =>
      rw [WellJoined, ← childElements_exists_iff children]
      constructor
      · rintro ⟨l, laid⟩
        rcases layout_eq_ok.1 laid with ⟨nested, told, _⟩
        exact ⟨nested, told⟩
      · rintro ⟨nested, told⟩
        exact ⟨_, layout_eq_ok.2 ⟨nested, told, rfl⟩⟩

theorem childElements_exists_iff (cs : List PredicateSet) :
    (∃ elements, childElements cs = .ok elements) ↔ AllWellJoined cs := by
  cases cs with
  | nil => simp [childElements, AllWellJoined]
  | cons c cs =>
      rw [AllWellJoined, ← layout_exists_iff c, ← childElements_exists_iff cs]
      constructor
      · rintro ⟨elements, told⟩
        rcases childElements_cons_eq_ok.1 told with ⟨conjunction, rest, bound, others, kind⟩
        refine ⟨by simp [bound], ?_, rest, others⟩
        rcases kind with ⟨skipped, _⟩ | ⟨_, l, laid, _⟩
        · simp [skipped]
        · exact fun _ => ⟨l, laid⟩
      · rintro ⟨bound, inner, rest, others⟩
        rcases Option.isSome_iff_exists.1 bound with ⟨conjunction, bound⟩
        cases empty : c.isEmpty with
        | true =>
            exact ⟨rest, childElements_cons_eq_ok.2
              ⟨conjunction, rest, bound, others, .inl ⟨empty, rfl⟩⟩⟩
        | false =>
            rcases inner empty with ⟨l, laid⟩
            exact ⟨(conjunction, l) :: rest, childElements_cons_eq_ok.2
              ⟨conjunction, rest, bound, others, .inr ⟨empty, l, laid, rfl⟩⟩⟩

end

end PredicateSet

namespace Select

theorem conditions_eq_ok {s : Select} {l : Layout} :
    s.conditions = .ok l ↔ ∃ filter, s.filter.layout = .ok filter ∧
      ∃ having, s.having.layout = .ok having ∧
      l = Layout.clause " WHERE " filter ++ Layout.clause " GROUP BY " (Layout.names s.groupBy)
        ++ Layout.clause " HAVING " having := by
  simp only [conditions, bind_eq_ok, pure_eq_ok]

theorem body_eq_ok {d : Dialect} {s : Select} {l : Layout} :
    s.body d = .ok l ↔ ∃ source, sourceLayout d s.source = .ok source ∧
      ∃ joins, joinsLayout d s.joins = .ok joins ∧
      ∃ conditions, s.conditions = .ok conditions ∧ l = source ++ joins ++ conditions := by
  simp only [body, bind_eq_ok, pure_eq_ok]

theorem layout_eq_ok {d : Dialect} {s : Select} {l : Layout} :
    s.layout d = .ok l ↔ ∃ window, s.window d = .ok window ∧ ∃ body, s.body d = .ok body ∧
      l = s.assemble d window body := by
  cases s
  simp only [layout, body_eq_ok, bind_eq_ok, pure_eq_ok]
  constructor
  · rintro ⟨window, chosen, source, tables, joins, joined, conditions, told, rfl⟩
    exact ⟨window, chosen, _, ⟨source, tables, joins, joined, conditions, told, rfl⟩, rfl⟩
  · rintro ⟨window, chosen, _, ⟨source, tables, joins, joined, conditions, told, rfl⟩, rfl⟩
    exact ⟨window, chosen, source, tables, joins, joined, conditions, told, rfl⟩

def opening (s : Select) : Window → Layout
  | .numbered _ _ =>
    .text "SELECT * FROM " :: .text "(" ::
      if s.distinct then
        .text "SELECT *, " :: s.rowNumbering ++ .text " FROM " :: .text "(" ::
          s.core [] s.columnList [] []
      else s.core [] s.columnList (.text ", " :: s.rowNumbering) []
  | window => s.core window.head s.columnList [] []

def closing (d : Dialect) (s : Select) : Window → Layout
  | .numbered first last =>
    (if s.distinct then [.text ")", .text " AS ", .name "distinct_rows"] else [])
      ++ .text ")" :: [.text " AS ", .name "paged", .text " WHERE "]
      ++ (rowCondition first last).layout ++ [.text " ORDER BY ", .name rowNumberName]
  | window => s.orderClause ++ window.tail d

theorem assemble_eq (d : Dialect) (s : Select) (window : Window) (body : Layout) :
    s.assemble d window body = s.opening window ++ body ++ s.closing d window := by
  cases window with
  | numbered first last =>
      cases distinct : s.distinct <;>
        simp [assemble, opening, closing, numberedRows, core, distinct, Layout.parenthesized]
  | _ => simp [assemble, opening, closing, core]

end Select

namespace Update

theorem layout_eq_ok {u : Update} {l : Layout} :
    u.layout = .ok l ↔ ∃ table, u.table = some table ∧ ∃ filter, u.filter.layout = .ok filter ∧
      l = .text "UPDATE " :: .name table :: .text " SET" :: Layout.clause " " u.assignmentList
        ++ Layout.clause " WHERE " filter := by
  unfold layout
  cases table : u.table with
  | none => simp
  | some name => simp only [bind_eq_ok, pure_eq_ok, Option.some.injEq, exists_eq_left']

end Update

namespace Delete

theorem layout_eq_ok {x : Delete} {l : Layout} :
    x.layout = .ok l ↔ ∃ table, x.table = some table ∧ ∃ filter, x.filter.layout = .ok filter ∧
      l = .text "DELETE FROM " :: .name table :: Layout.clause " WHERE " filter := by
  unfold layout
  cases table : x.table with
  | none => simp
  | some name => simp only [bind_eq_ok, pure_eq_ok, Option.some.injEq, exists_eq_left']

end Delete

end CrossDialect
