import CrossDialect.Proofs.Statements.Counting
import CrossDialect.Proofs.Statements.Filters
import CrossDialect.Proofs.Text.Words
import Mathlib.Logic.ExistsUnique

/-!
Pages of a query. Which rows a page shows is read off its text: they are limited and
skipped by words at its end, counted by a word at its head or picked by their numbers.
Whatever the size of the pages, each row with a number below the largest of 64 bits with a
sign is on one page and on no other. From that number on, pages can run into each other.
-/

namespace CrossDialect

open Text

/-- Rows counted from zero, from the first on and up to the one where it stops. -/
structure RowSpan where
  first : Nat
  stop : Nat
  deriving DecidableEq

namespace RowSpan

def Holds (r : RowSpan) (row : Nat) : Prop := r.first ≤ row ∧ row < r.stop

-- The readers that go on with `Back` take a text backwards, from its end.
def wordBack? (word : String) (s : List Char) : Option (List Char) :=
  after? word.toList.reverse s

def numberBack? (s : List Char) : Option (Nat × List Char) :=
  (digits? s).map fun (digits, rest) => (digitsValue digits.reverse, rest)

/-- `LIMIT n` shows the first n rows and `LIMIT n OFFSET m` the n rows behind the first m. -/
def limitBack? (s : List Char) : Option RowSpan := do
  let (n, s) ← numberBack? s
  match wordBack? " OFFSET " s with
  | none => (wordBack? " LIMIT " s).map fun _ => ⟨0, n⟩
  | some s => do
    let (rows, s) ← numberBack? s
    (wordBack? " LIMIT " s).map fun _ => ⟨n, n + rows⟩

def numbersBack? (s : List Char) : Option RowSpan := do
  let s ← wordBack? ") ORDER BY [RowNumber]" s
  let (last, s) ← numberBack? s
  let s ← wordBack? " AND " s
  let (first, s) ← numberBack? s
  (wordBack? " WHERE ([RowNumber] BETWEEN " s).map fun _ => ⟨first - 1, last⟩

/-- `TOP n` shows the first n rows. -/
def top? (s : List Char) : Option RowSpan := do
  let s ← after? "SELECT ".toList s
  let s ← after? "TOP ".toList ((after? "DISTINCT ".toList s).getD s)
  (digits? s).map fun (digits, _) => ⟨0, digitsValue digits⟩

end RowSpan

def Dialect.shownRows (d : Dialect) (sql : String) : Option RowSpan :=
  match d.profile.paging with
  | .limitOffset => RowSpan.limitBack? sql.toList.reverse
  | .rowNumber => (RowSpan.top? sql.toList).or (RowSpan.numbersBack? sql.toList.reverse)

def Dialect.Shows (d : Dialect) (sql : String) (row : Nat) : Prop :=
  ∃ span, d.shownRows sql = some span ∧ span.Holds row

namespace RowSpan

theorem wordBack?_self (word : String) (s : List Char) :
    wordBack? word (word.toList.reverse ++ s) = some s :=
  after?_self word.toList.reverse s

theorem numberBack?_repr (n : Nat) {s : List Char} (stops : StopsAt Char.isDigit s) :
    numberBack? ((Nat.repr n).toList.reverse ++ s) = some (n, s) := by
  have numeral : isNumeral (Nat.repr n).toList.reverse = true := by
    rcases isNumeral_iff.1 (isNumeral_repr n) with ⟨present, all⟩
    refine isNumeral_iff.2 ⟨List.reverse_ne_nil_iff.2 present, ?_⟩
    intro c member
    exact all c (List.mem_reverse.1 member)
  rw [numberBack?, digits?_run numeral stops]
  simp only [Option.map_some, List.reverse_reverse, digitsValue_repr]

theorem stopsAt_wordBack {word : String} (blank : word.toList.getLast? = some ' ')
    (s : List Char) : StopsAt Char.isDigit (word.toList.reverse ++ s) := by
  rcases List.getLast?_eq_some_iff.1 blank with ⟨front, split⟩
  rw [split, List.reverse_append]
  simp

theorem limitBack?_limit (front : String) (n : Nat) :
    limitBack? (front ++ " LIMIT " ++ Nat.repr n).toList.reverse = some ⟨0, n⟩ := by
  have stops : StopsAt Char.isDigit (" LIMIT ".toList.reverse ++ front.toList.reverse) :=
    stopsAt_wordBack (by decide) _
  have limit : wordBack? " OFFSET " (" LIMIT ".toList.reverse ++ front.toList.reverse) = none := rfl
  simp only [String.toList_append, List.reverse_append, limitBack?, numberBack?_repr n stops, limit,
    wordBack?_self, Option.bind_eq_bind, Option.bind_some, Option.map_some]

theorem limitBack?_limitOffset (front : String) (n m : Nat) :
    limitBack? (front ++ " LIMIT " ++ Nat.repr n ++ " OFFSET " ++ Nat.repr m).toList.reverse =
      some ⟨m, m + n⟩ := by
  have stops (s : List Char) : StopsAt Char.isDigit (" OFFSET ".toList.reverse ++ s) :=
    stopsAt_wordBack (by decide) s
  have stops' : StopsAt Char.isDigit (" LIMIT ".toList.reverse ++ front.toList.reverse) :=
    stopsAt_wordBack (by decide) _
  simp only [String.toList_append, List.reverse_append, limitBack?, numberBack?_repr m (stops _),
    numberBack?_repr n stops', wordBack?_self, Option.bind_eq_bind, Option.bind_some,
    Option.map_some]

theorem numbersBack?_between (front : String) (a b : Nat) :
    numbersBack? (front ++ " WHERE ([RowNumber] BETWEEN " ++ Nat.repr a ++ " AND " ++ Nat.repr b ++
      ") ORDER BY [RowNumber]").toList.reverse = some ⟨a - 1, b⟩ := by
  have stops (s : List Char) : StopsAt Char.isDigit (" AND ".toList.reverse ++ s) :=
    stopsAt_wordBack (by decide) s
  have stops' : StopsAt Char.isDigit
      (" WHERE ([RowNumber] BETWEEN ".toList.reverse ++ front.toList.reverse) :=
    stopsAt_wordBack (by decide) _
  simp only [String.toList_append, List.reverse_append, numbersBack?, numberBack?_repr b (stops _),
    numberBack?_repr a stops', wordBack?_self, Option.bind_eq_bind, Option.bind_some,
    Option.map_some]

theorem top?_head (distinct : Bool) (n : Nat) (rest : String) :
    top? ("SELECT " ++ (if distinct then "DISTINCT " else "") ++ "TOP " ++ Nat.repr n ++ " " ++
      rest).toList = some ⟨0, n⟩ := by
  have stops : StopsAt Char.isDigit (" ".toList ++ rest.toList) := by simp
  have word (s : List Char) : after? "DISTINCT ".toList ("TOP ".toList ++ s) = none := rfl
  have read := digits?_run (isNumeral_repr n) stops
  cases distinct <;>
    simp only [Bool.false_eq_true, ↓reduceIte, String.toList_append, String.toList_empty,
      List.nil_append, List.append_assoc, top?, after?_self, word, Option.getD_some,
      Option.getD_none, read, digitsValue_repr, Option.bind_eq_bind, Option.bind_some,
      Option.map_some]

/-- A query around numbered rows has no count at its head. -/
theorem top?_outer (rest : String) : top? ("SELECT * FROM " ++ rest).toList = none := by
  simp [top?, after?]

end RowSpan

namespace Layout

theorem sql_append (t : Target) (l : Layout) {l' : Layout} (none : l'.slots = []) :
    ((l ++ l').build t).sql = (l.build t).sql ++ (l'.build t).sql := by
  have behind := write_of_no_slot t (l.write t {}).2 none
  have whole := write_append t {} l l'
  rw [behind] at whole
  rw [build, whole]
  rfl

theorem sql_append_text (t : Target) (l : Layout) (sql : String) :
    ((l ++ text sql).build t).sql = (l.build t).sql ++ sql := by
  have written : ((text sql).build t).sql = sql := by
    simp [build, text, write, Piece.write]
  rw [sql_append t l rfl, written]

end Layout

namespace Select

theorem sql_assemble (t : Target) (s : Select) (w : Window) (body : Layout) :
    ((s.assemble t.dialect w body).build t).sql =
      ((s.opening w).build t).sql ++ (body.build t).sql ++
        ((s.closing t.dialect w).build t).sql := by
  rw [assemble_eq, Layout.build_around t body (s.slots_opening w) (s.slots_closing t.dialect w)]

variable {t : Target}

theorem shownRows_limit (limits : t.dialect.profile.paging = .limitOffset) (s : Select)
    (n : UInt64) (body : Layout) :
    t.dialect.shownRows ((s.assemble t.dialect (.limit n) body).build t).sql =
      some ⟨0, n.toNat⟩ := by
  have behind : ((s.closing t.dialect (.limit n)).build t).sql =
      (s.orderClause.build t).sql ++ (" LIMIT " ++ Nat.repr n.toNat) :=
    Layout.sql_append_text t s.orderClause _
  simp only [Dialect.shownRows, limits, sql_assemble, behind, ← String.append_assoc,
    RowSpan.limitBack?_limit]

theorem shownRows_limitOffset (limits : t.dialect.profile.paging = .limitOffset) (s : Select)
    (n m : UInt64) (body : Layout) :
    t.dialect.shownRows ((s.assemble t.dialect (.limitOffset n m) body).build t).sql =
      some ⟨m.toNat, m.toNat + n.toNat⟩ := by
  have behind : ((s.closing t.dialect (.limitOffset n m)).build t).sql =
      (s.orderClause.build t).sql ++
        (" LIMIT " ++ Nat.repr n.toNat ++ " OFFSET " ++ Nat.repr m.toNat) :=
    Layout.sql_append_text t s.orderClause _
  simp only [Dialect.shownRows, limits, sql_assemble, behind, ← String.append_assoc,
    RowSpan.limitBack?_limitOffset]

example : Dialect.mysql.shownRows "SELECT * FROM `loans` LIMIT 10 OFFSET 20" = some ⟨20, 30⟩ := by
  decide +kernel

theorem sql_opening_top (s : Select) (n : UInt64) :
    ((s.opening (.top n)).build t).sql = "SELECT " ++ (if s.distinct then "DISTINCT " else "") ++
      "TOP " ++ Nat.repr n.toNat ++ " " ++ (s.columnList.build t).sql := by
  cases distinct : s.distinct <;>
    simp [opening, core, Window.head, Window.count, distinct, Layout.build, Layout.write,
      Piece.write, ← String.append_assoc]

theorem shownRows_top (numbers : t.dialect.profile.paging = .rowNumber) (s : Select)
    (n : UInt64) (body : Layout) :
    t.dialect.shownRows ((s.assemble t.dialect (.top n) body).build t).sql =
      some ⟨0, n.toNat⟩ := by
  have whole : ((s.assemble t.dialect (.top n) body).build t).sql =
      "SELECT " ++ (if s.distinct then "DISTINCT " else "") ++ "TOP " ++ Nat.repr n.toNat ++ " " ++
        ((s.columnList.build t).sql ++ (body.build t).sql ++
          ((s.closing t.dialect (.top n)).build t).sql) := by
    rw [sql_assemble, sql_opening_top]
    simp only [String.append_assoc]
  simp only [Dialect.shownRows, numbers, whole, RowSpan.top?_head, Option.some_or]

theorem quoteIdentifier_rowNumberName (server : t.dialect = .sqlServer) :
    t.quoteIdentifier rowNumberName = "[RowNumber]" := by
  rw [Target.quoteIdentifier, server]
  decide +kernel

def numberedEnd (first last : Int64) : Layout :=
  .text " WHERE " :: (rowCondition first (some last)).layout ++
    [.text " ORDER BY ", .name rowNumberName]

theorem sql_numberedEnd (server : t.dialect = .sqlServer) {first last : Int64} {a b : Nat}
    (low : first.toInt = a) (high : last.toInt = b) :
    ((numberedEnd first last).build t).sql =
      " WHERE ([RowNumber] BETWEEN " ++ Nat.repr a ++ " AND " ++ Nat.repr b ++
        ") ORDER BY [RowNumber]" := by
  have name := quoteIdentifier_rowNumberName server
  have number (n : Nat) : Value.intText n = Nat.repr n := rfl
  simp [numberedEnd, rowCondition, Predicate.between, Predicate.layout, Predicate.right,
    Predicate.operand, Layout.parenthesized, Layout.build, Layout.write, Piece.write, Pass.write,
    low, high, number, name, Operator.shape, Operator.sql, ← String.append_assoc]

def numberedName (s : Select) : Layout :=
  (if s.distinct then [.text ")", .text " AS ", .name "distinct_rows"] else []) ++
    [.text ")", .text " AS ", .name "paged"]

theorem sql_closing_numbered (server : t.dialect = .sqlServer) (s : Select) {first last : Int64}
    {a b : Nat} (low : first.toInt = a) (high : last.toInt = b) :
    ((s.closing t.dialect (.numbered first (some last))).build t).sql =
      (s.numberedName.build t).sql ++ (" WHERE ([RowNumber] BETWEEN " ++ Nat.repr a ++ " AND " ++
        Nat.repr b ++ ") ORDER BY [RowNumber]") := by
  have parts : s.closing t.dialect (.numbered first (some last)) =
      s.numberedName ++ numberedEnd first last := by
    simp [closing, numberedName, numberedEnd]
  rw [parts, Layout.sql_append t s.numberedName rfl, sql_numberedEnd server low high]

theorem sql_opening_numbered (t : Target) (s : Select) (first : Int64) (last : Option Int64) :
    ∃ rest, ((s.opening (.numbered first last)).build t).sql = "SELECT * FROM " ++ rest :=
  ⟨_, rfl⟩

theorem shownRows_numbered (server : t.dialect = .sqlServer) (s : Select) {first last : Int64}
    {a b : Nat} (low : first.toInt = a) (high : last.toInt = b) (body : Layout) :
    t.dialect.shownRows ((s.assemble t.dialect (.numbered first (some last)) body).build t).sql =
      some ⟨a - 1, b⟩ := by
  rcases s.sql_opening_numbered t first (some last) with ⟨rest, head⟩
  have numbers : t.dialect.profile.paging = .rowNumber := by
    rw [server]
    rfl
  have top : RowSpan.top? ((s.assemble t.dialect (.numbered first (some last)) body).build
      t).sql.toList = none := by
    rw [sql_assemble, head, String.append_assoc, String.append_assoc]
    exact RowSpan.top?_outer _
  have numbered : RowSpan.numbersBack? ((s.assemble t.dialect (.numbered first (some last))
      body).build t).sql.toList.reverse = some ⟨a - 1, b⟩ := by
    simp only [sql_assemble, sql_closing_numbered server s low high, ← String.append_assoc,
      RowSpan.numbersBack?_between]
  simp only [Dialect.shownRows, numbers, top, Option.none_or, numbered]

end Select

namespace Window

theorem toInt_rowNumber (n : Nat) : (rowNumber n).toInt = (min n (UInt64.size / 2 - 1) : Nat) :=
  Int64.toInt_ofNat_of_lt (Nat.lt_of_le_of_lt (Nat.min_le_right _ _) (by decide))

theorem choose_page (d : Dialect) (rows skipped : UInt64) :
    choose d (some rows) (some skipped) true = .ok
      (match d.profile.paging with
      | .limitOffset => if skipped = 0 then .limit rows else .limitOffset rows skipped
      | .rowNumber =>
        if skipped = 0 then .top rows
        else .numbered (rowNumber (saturated (skipped.toNat + 1)))
          (some (rowNumber (saturated (skipped.toNat + rows.toNat))))) := by
  by_cases first : skipped = 0
  · have kept : (some skipped).filter (0 < ·) = none := by simp [first]
    cases paging : d.profile.paging <;> simp only [choose, paging, kept, if_pos first]
  · have kept : (some skipped).filter (0 < ·) = some skipped := by
      simp [UInt64.pos_iff_ne_zero, first]
    cases paging : d.profile.paging <;>
      simp only [choose, paging, kept, if_neg first, if_true, Option.map_some]

end Window

namespace Select

def pageSize (perPage : UInt64) : Nat := (max perPage 1).toNat

/-- The rows before a page, as far as 64 bits count them. -/
def pageStart (page perPage : UInt64) : Nat :=
  Window.saturated (((max page 1).toNat - 1) * pageSize perPage)

theorem toNat_pageStart (page perPage : UInt64) :
    (UInt64.ofNat (pageStart page perPage)).toNat = pageStart page perPage :=
  UInt64.toNat_ofNat_of_lt' (Nat.lt_of_le_of_lt (Nat.min_le_right _ _) (by decide))

theorem one_le_clamped (n : UInt64) : 1 ≤ (max n 1).toNat := by
  have one : (1 : UInt64).toNat = 1 := rfl
  rw [UInt64.toNat_max, one]
  exact Nat.le_max_right _ _

/-- The rows of a page have its number, counted from zero, as their quotient by the size.
A start that 64 bits cannot count is past the rows in question. -/
theorem on_page_iff (page perPage : UInt64) {row : Nat} (numbered : row < UInt64.size / 2 - 2) :
    pageStart page perPage ≤ row ∧ row < pageStart page perPage + pageSize perPage ↔
      row / pageSize perPage + 1 = (max page 1).toNat := by
  have first := one_le_clamped page
  have size : 0 < pageSize perPage := one_le_clamped perPage
  have quotient : row / pageSize perPage + 1 = (max page 1).toNat ↔
      row / pageSize perPage = (max page 1).toNat - 1 := by omega
  have words : UInt64.size = 18446744073709551616 := rfl
  rw [quotient, Nat.div_eq_iff size, pageStart, Window.saturated]
  generalize ((max page 1).toNat - 1) * pageSize perPage = start
  omega

/-- Row numbers count from one and end with the largest one of 64 bits with a sign, which
is past the rows in question. -/
theorem holds_numbers {start size row : Nat} (numbered : row < UInt64.size / 2 - 2)
    (counted : start ≤ UInt64.size - 1) :
    RowSpan.Holds ⟨min (Window.saturated (start + 1)) (UInt64.size / 2 - 1) - 1,
        min (Window.saturated (start + size)) (UInt64.size / 2 - 1)⟩ row ↔
      start ≤ row ∧ row < start + size := by
  have words : UInt64.size = 18446744073709551616 := rfl
  simp only [RowSpan.Holds, Window.saturated, words] at *
  omega

theorem paging_rowNumber {d : Dialect} (numbers : d.profile.paging = .rowNumber) :
    d = .sqlServer := by
  cases d <;> first | rfl | cases numbers

theorem paginate_zero (s : Select) (perPage : UInt64) :
    s.paginate 0 perPage = s.paginate 1 perPage := rfl

theorem paginate_size_zero (s : Select) (page : UInt64) :
    s.paginate page 0 = s.paginate page 1 := rfl

/-- Whatever the dialect writes, a window shows as many rows as it was asked for behind
the ones that it skips. -/
theorem shows_window (t : Target) (s : Select) (rows skipped : UInt64) (body : Layout) :
    ∃ w, Window.choose t.dialect (some rows) (some skipped) true = .ok w ∧
      ∀ row < UInt64.size / 2 - 2,
        t.dialect.Shows ((s.assemble t.dialect w body).build t).sql row ↔
          skipped.toNat ≤ row ∧ row < skipped.toNat + rows.toNat := by
  refine ⟨_, Window.choose_page _ _ _, ?_⟩
  intro row numbered
  have counted : skipped.toNat ≤ UInt64.size - 1 := Nat.le_pred_of_lt skipped.toNat_lt_size
  cases paging : t.dialect.profile.paging with
  | limitOffset =>
      by_cases first : skipped = 0
      · simp [Dialect.Shows, first, shownRows_limit paging, RowSpan.Holds]
      · simp [Dialect.Shows, first, shownRows_limitOffset paging, RowSpan.Holds]
  | rowNumber =>
      have server := paging_rowNumber paging
      by_cases first : skipped = 0
      · simp [Dialect.Shows, first, shownRows_top paging, RowSpan.Holds]
      · simp only [Dialect.Shows, if_neg first,
          shownRows_numbered server s (Window.toInt_rowNumber _) (Window.toInt_rowNumber _),
          Option.some.injEq, exists_eq_left', holds_numbers numbered counted]

/-- A page can be built if the body of the query can, and it shows the rows whose quotient by
the size of the pages is its number, counted from zero. -/
theorem shows_page {t : Target} {s : Select} (ordered : s.orderBy ≠ []) {body : Layout}
    (told : s.body t.dialect = .ok body) (page perPage : UInt64) :
    ∃ b, (Statement.select (s.paginate page perPage)).buildFor t = .ok b ∧
      ∀ row < UInt64.size / 2 - 2,
        t.dialect.Shows b.sql row ↔ row / pageSize perPage + 1 = (max page 1).toNat := by
  rcases shows_window t (s.paginate page perPage) (max perPage 1)
    (UInt64.ofNat (pageStart page perPage)) body with ⟨w, chosen, shows⟩
  have order : (!s.orderBy.isEmpty) = true := by simpa using ordered
  have window : (s.paginate page perPage).window t.dialect = .ok w := by
    rw [← chosen, ← order]
    rfl
  refine ⟨_, Statement.buildFor_eq_ok.2 ⟨_, layout_eq_ok.2 ⟨w, window, body, told, rfl⟩, rfl⟩, ?_⟩
  intro row numbered
  rw [shows row numbered, toNat_pageStart]
  exact on_page_iff page perPage numbered

end Select

/-- Where an ordered query can be built, all its pages can, and every row numbered below the
largest number is on exactly one of them. Page zero is written as page one, and pages of no
rows as pages of one row. -/
theorem pages_partition_rows (t : Target) (s : Select) (perPage : UInt64)
    (ordered : s.orderBy ≠ []) (rendered : ∃ b, (Statement.select s).buildFor t = .ok b) :
    (∀ page, ∃ b, (Statement.select (s.paginate page perPage)).buildFor t = .ok b) ∧
    (∀ row < UInt64.size / 2 - 2, ∃! page : UInt64, 1 ≤ page ∧
      ∃ b, (Statement.select (s.paginate page perPage)).buildFor t = .ok b ∧
        t.dialect.Shows b.sql row) ∧
    (Statement.select (s.paginate 0 perPage)).buildFor t =
      (Statement.select (s.paginate 1 perPage)).buildFor t ∧
    ∀ page, (Statement.select (s.paginate page 0)).buildFor t =
      (Statement.select (s.paginate page 1)).buildFor t := by
  rcases rendered with ⟨_, built⟩
  rcases Statement.buildFor_eq_ok.1 built with ⟨_, laid, _⟩
  rcases Select.layout_eq_ok.1 laid with ⟨_, _, body, told, _⟩
  have pages := fun page => Select.shows_page ordered told page perPage
  rw [s.paginate_zero perPage]
  refine ⟨?_, ?_, rfl, fun page => by rw [s.paginate_size_zero page]⟩
  · intro page
    rcases pages page with ⟨b, built, _⟩
    exact ⟨b, built⟩
  · intro row numbered
    have onPage {page : UInt64} (counted : 1 ≤ page) :
        (∃ b, (Statement.select (s.paginate page perPage)).buildFor t = .ok b ∧
          t.dialect.Shows b.sql row) ↔ row / Select.pageSize perPage + 1 = page.toNat := by
      have kept : (max page 1).toNat = page.toNat := by
        rw [UInt64.toNat_max]
        exact Nat.max_eq_left (UInt64.le_iff_toNat_le.1 counted)
      rcases pages page with ⟨b, built, shows⟩
      simp [built, shows row numbered, kept]
    have fits : row / Select.pageSize perPage + 1 < UInt64.size := by
      have quotient := Nat.div_le_self row (Select.pageSize perPage)
      have words : UInt64.size = 18446744073709551616 := rfl
      omega
    have number := UInt64.toNat_ofNat_of_lt' fits
    have counted : 1 ≤ UInt64.ofNat (row / Select.pageSize perPage + 1) := by
      rw [UInt64.le_iff_toNat_le, number]
      exact Nat.le_add_left _ _
    refine ⟨_, ⟨counted, (onPage counted).2 number.symm⟩, ?_⟩
    rintro page ⟨counted, shown⟩
    rw [(onPage counted).1 shown, UInt64.ofNat_toNat]

theorem pages_partition_rows_late :
    lateReaders.orderBy ≠ [] ∧
      (∃ b, (Statement.select lateReaders).buildFor (.ofDialect .sqlServer) = .ok b) ∧
      ∃! page : UInt64, 1 ≤ page ∧
        ∃ b, (Statement.select (lateReaders.paginate page 10)).buildFor (.ofDialect .sqlServer) =
            .ok b ∧ Dialect.sqlServer.Shows b.sql 25 := by
  have ordered : lateReaders.orderBy ≠ [] := List.cons_ne_nil _ _
  have rendered : ∃ b, (Statement.select lateReaders).buildFor (.ofDialect .sqlServer) = .ok b :=
    ⟨_, rfl⟩
  have pages := pages_partition_rows (.ofDialect .sqlServer) lateReaders 10 ordered rendered
  exact ⟨ordered, rendered, pages.2.1 25 (by decide)⟩

end CrossDialect
