import CrossDialect.Proofs.Placeholders.Entries

/-!
Counting the rows of a query. The page and the count are written around the same body, and
nothing but the body holds values, so both bind the same values and choose from the same
rows. Order and window belong to the page alone.
-/

namespace CrossDialect

namespace Layout

/-- A layout without slots is the same text in every pass and leaves the pass as it was. -/
theorem write_of_no_slot (t : Target) (p : Pass) {l : Layout} (none : l.slots = []) :
    l.write t p = ((l.build t).sql, p) := by
  have slots : (l.fragments t).filterMap Fragment.slot? = [] := by rw [slots_fragments, none]
  have sql (p : Pass) : (l.write t p).1 = Fragment.spell (l.fragments t) [] := by
    rw [write_eq_run, Pass.run_sql, slots]
    rfl
  have pass : (l.write t p).2 = p := by
    rw [write_eq_run, Pass.run_pass, slots]
    rfl
  have same : (l.build t).sql = (l.write t {}).1 := rfl
  rw [same, sql, ← sql p]
  exact Prod.ext rfl pass

theorem write_around (t : Target) (p : Pass) (body : Layout) {front back : Layout}
    (before : front.slots = []) (behind : back.slots = []) :
    (front ++ body ++ back).write t p =
      ((front.build t).sql ++ (body.write t p).1 ++ (back.build t).sql, (body.write t p).2) := by
  simp only [write_append, write_of_no_slot t _ before, write_of_no_slot t _ behind]

theorem build_around (t : Target) (body : Layout) {front back : Layout}
    (before : front.slots = []) (behind : back.slots = []) :
    (front ++ body ++ back).build t =
      ⟨(front.build t).sql ++ (body.build t).sql ++ (back.build t).sql,
        (body.build t).params⟩ := by
  rw [build, write_around t {} body before behind]
  rfl

end Layout

namespace Select

inductive Paging where
  | order (clause : String)
  | orderColumn (column : String) (direction : Direction)
  | limit (n : UInt64)
  | offset (n : UInt64)
  | paginate (page perPage : UInt64)

def paged (s : Select) : Paging → Select
  | .order clause => s.order clause
  | .orderColumn column direction => s.orderColumn column direction
  | .limit n => s.withLimit n
  | .offset n => s.withOffset n
  | .paginate page perPage => s.paginate page perPage

theorem buildCount_paged (s : Select) (call : Paging) : (s.paged call).buildCount = s.buildCount := by
  cases call <;> rfl

theorem buildCount_pagedAll (s : Select) (calls : List Paging) :
    (calls.foldl paged s).buildCount = s.buildCount := by
  induction calls generalizing s with
  | nil => rfl
  | cons call calls ih => exact (ih (s.paged call)).trans (s.buildCount_paged call)

def countHead (t : Target) (s : Select) : String :=
  if s.distinct then "SELECT DISTINCT " ++ (s.columnList.build t).sql else "SELECT 1"

/-- How the rows of a query are counted, with its body as text. -/
structure CountedBy (t : Target) (s : Select) (body sql : String) : Prop where
  inside : s.distinct = false → s.groupBy = [] → s.having.isEmpty = true →
    sql = "SELECT COUNT(*)" ++ body
  outside : s.distinct = true ∨ s.groupBy ≠ [] ∨ s.having.isEmpty = false →
    sql = "SELECT COUNT(*) FROM (" ++ s.countHead t ++ body ++ ") AS " ++
      t.quoteIdentifier "count_subquery"

def countFront (s : Select) : Layout :=
  .text "SELECT COUNT(*) FROM " :: .text "(" ::
    s.core [] (if s.distinct then s.columnList else [.text "1"]) [] []

def countBack : Layout := [.text ")", .text " AS ", .name "count_subquery"]

theorem countsOutside_iff (s : Select) :
    s.countsOutside = true ↔ s.distinct = true ∨ s.groupBy ≠ [] ∨ s.having.isEmpty = false := by
  simp [countsOutside, or_assoc]

theorem countLayout_of_body {d : Dialect} {s : Select} {body : Layout}
    (told : s.body d = .ok body) :
    s.countLayout d = .ok (if s.countsOutside then s.countFront ++ body ++ countBack
      else [.text "SELECT COUNT(*)"] ++ body ++ []) := by
  unfold countLayout
  rw [told]
  cases outside : s.countsOutside with
  | true =>
      cases distinct : s.distinct <;>
        simp [countFront, countBack, core, Layout.parenthesized, distinct, bind, Except.bind, pure,
          Except.pure]
  | false => simp [bind, Except.bind, pure, Except.pure]

theorem slots_countFront (s : Select) : s.countFront.slots = [] := by
  have columns := s.slots_columnList
  cases distinct : s.distinct <;> simp [countFront, core, distinct, columns]

theorem sql_countFront (t : Target) (s : Select) :
    (s.countFront.build t).sql = "SELECT COUNT(*) FROM (" ++ s.countHead t := by
  cases distinct : s.distinct <;>
    simp [countFront, countHead, core, distinct, Layout.build, Layout.write, Piece.write,
      ← String.append_assoc]

theorem sql_countBack (t : Target) :
    (countBack.build t).sql = ") AS " ++ t.quoteIdentifier "count_subquery" := by
  simp [countBack, Layout.build, Layout.write, Piece.write, ← String.append_assoc]

theorem buildCount_of_body {s : Select} {body : Layout}
    (told : s.body s.target.dialect = .ok body) :
    ∃ counted, s.buildCount = .ok counted ∧ counted.params = (body.build s.target).params ∧
      s.CountedBy s.target (body.build s.target).sql counted.sql := by
  refine ⟨_, congrArg (Except.map _) (countLayout_of_body told), ?_⟩
  by_cases outside : s.countsOutside = true
  · have behind : countBack.slots = [] := rfl
    rw [if_pos outside, Layout.build_around _ _ s.slots_countFront behind]
    refine ⟨rfl, ?_, ?_⟩
    · intro distinct groups empty
      rcases s.countsOutside_iff.1 outside with twice | grouped | filled
      · exact absurd twice (by simp [distinct])
      · exact absurd groups grouped
      · exact absurd filled (by simp [empty])
    · intro _
      rw [sql_countFront, sql_countBack]
      simp [String.append_assoc]
  · have before : Layout.slots [.text "SELECT COUNT(*)"] = [] := rfl
    rw [if_neg outside, Layout.build_around _ _ before Layout.slots_nil]
    refine ⟨rfl, ?_, ?_⟩
    · intro _ _ _
      simp [Layout.build, Layout.write, Piece.write]
    · intro kind
      exact absurd (s.countsOutside_iff.2 kind) outside

end Select

/-- A query that can be built can be counted, with the same values and the same body in the
text. No call about order or window changes the count, not even one after which the query
itself cannot be built. -/
theorem count_shares_body (s : Select) :
    (∀ built, (Statement.select s).build = .ok built →
      ∃ body counted, s.body s.target.dialect = .ok body ∧ s.buildCount = .ok counted ∧
        counted.params = built.params ∧
        (∃ front back, built.sql = front ++ (body.build s.target).sql ++ back) ∧
        s.CountedBy s.target (body.build s.target).sql counted.sql) ∧
    ∀ calls : List Select.Paging, (calls.foldl Select.paged s).buildCount = s.buildCount := by
  refine ⟨?_, s.buildCount_pagedAll⟩
  intro built page
  rcases Ident.map_eq_ok page with ⟨l, laid, rfl⟩
  rcases Select.layout_eq_ok.1 laid with ⟨window, _, body, told, rfl⟩
  rcases Select.buildCount_of_body told with ⟨counted, done, params, text⟩
  rw [Select.assemble_eq, Layout.build_around _ _ (s.slots_opening window)
    (s.slots_closing _ window)]
  exact ⟨body, counted, told, done, params, ⟨_, _, rfl⟩, text⟩

def lateReaders : Select :=
  let t := Target.ofDialect .sqlServer
  let query : Select :=
    { target := t
      columns := ["reader"]
      source := some (.aliased "loans" "l")
      filter := { target := t, predicates := [.gt "days" (.param (.int 30))] }
      groupBy := ["reader"]
      having := { target := t, predicates := [.gt "COUNT(*)" (.param (.int 1))] } }
  (query.orderColumn "reader" .ascending).paginate 2 10

theorem count_shares_body_numbered :
    ∃ built counted, (Statement.select lateReaders).build = .ok built ∧
      lateReaders.buildCount = .ok counted ∧ counted.params = built.params ∧
      built.sql = "SELECT * FROM (SELECT [reader], " ++
        "ROW_NUMBER() OVER (ORDER BY [reader] ASC) AS [RowNumber] FROM [loans] AS [l] " ++
        "WHERE ([days] > ?) GROUP BY [reader] HAVING (COUNT(*) > ?)) AS [paged] " ++
        "WHERE ([RowNumber] BETWEEN 11 AND 20) ORDER BY [RowNumber]" ∧
      counted.sql = "SELECT COUNT(*) FROM (SELECT 1 FROM [loans] AS [l] " ++
        "WHERE ([days] > ?) GROUP BY [reader] HAVING (COUNT(*) > ?)) AS [count_subquery]" := by
  have page : (Statement.select lateReaders).build = .ok _ := rfl
  rcases (count_shares_body lateReaders).1 _ page with ⟨_, counted, _, done, params, _, _⟩
  have count : lateReaders.buildCount = .ok _ := rfl
  cases done.symm.trans count
  exact ⟨_, _, page, count, params, by decide +kernel, by decide +kernel⟩

end CrossDialect
