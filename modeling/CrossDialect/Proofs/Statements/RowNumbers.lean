import CrossDialect.Proofs.Statements.Pages
import Mathlib.Algebra.Group.Nat.Defs

/-!
Rows picked by their numbers. A query on SQL Server that skips rows numbers them in their
order and asks for a range of numbers. Both bounds are sums that stop at the largest word
without a sign and are written as words with one. No row that can have a number is shown or
left out for that, as long as there is a number behind the rows that are skipped.
-/

namespace CrossDialect

structure NumberRange where
  first : Nat
  last : Option Nat
  deriving DecidableEq

namespace NumberRange

open RowSpan

def Holds (r : NumberRange) (number : Nat) : Prop :=
  r.first ≤ number ∧ ∀ last ∈ r.last, number ≤ last

instance (r : NumberRange) (number : Nat) : Decidable (r.Holds number) :=
  inferInstanceAs (Decidable (_ ∧ _))

/-- The range in the condition at the end of a text, which is read backwards. -/
def readBack? (s : List Char) : Option NumberRange := do
  let s ← wordBack? ") ORDER BY [RowNumber]" s
  let (n, s) ← numberBack? s
  match wordBack? " AND " s with
  | none => (wordBack? " WHERE ([RowNumber] >= " s).map fun _ => ⟨n, none⟩
  | some s => do
    let (first, s) ← numberBack? s
    (wordBack? " WHERE ([RowNumber] BETWEEN " s).map fun _ => ⟨first, some n⟩

def ofSql? (sql : String) : Option NumberRange := readBack? sql.toList.reverse

theorem ofSql?_between (front : String) (a b : Nat) :
    ofSql? (front ++ " WHERE ([RowNumber] BETWEEN " ++ Nat.repr a ++ " AND " ++ Nat.repr b ++
      ") ORDER BY [RowNumber]") = some ⟨a, some b⟩ := by
  have stops (s : List Char) : Text.StopsAt Char.isDigit (" AND ".toList.reverse ++ s) :=
    stopsAt_wordBack (by decide) s
  have stops' : Text.StopsAt Char.isDigit
      (" WHERE ([RowNumber] BETWEEN ".toList.reverse ++ front.toList.reverse) :=
    stopsAt_wordBack (by decide) _
  simp only [ofSql?, String.toList_append, List.reverse_append, readBack?,
    numberBack?_repr b (stops _), numberBack?_repr a stops', wordBack?_self, Option.bind_eq_bind,
    Option.bind_some, Option.map_some]

theorem ofSql?_from (front : String) (a : Nat) :
    ofSql? (front ++ " WHERE ([RowNumber] >= " ++ Nat.repr a ++ ") ORDER BY [RowNumber]") =
      some ⟨a, none⟩ := by
  have stops : Text.StopsAt Char.isDigit
      (" WHERE ([RowNumber] >= ".toList.reverse ++ front.toList.reverse) :=
    stopsAt_wordBack (by decide) _
  have single : wordBack? " AND "
      (" WHERE ([RowNumber] >= ".toList.reverse ++ front.toList.reverse) = none := by
    simp [wordBack?, Text.after?]
  simp only [ofSql?, String.toList_append, List.reverse_append, readBack?,
    numberBack?_repr a stops, single, wordBack?_self, Option.bind_eq_bind, Option.bind_some,
    Option.map_some]

/-- The numbers behind the skipped ones, with both bounds as 64 bits can write them. -/
def behind (skipped : Nat) (limit : Option Nat) : NumberRange where
  first := min (Window.saturated (skipped + 1)) (UInt64.size / 2 - 1)
  last := limit.map fun rows => min (Window.saturated (skipped + rows)) (UInt64.size / 2 - 1)

/-- Neither bound adds or drops a number that 64 bits with a sign can write. -/
theorem holds_behind {skipped number : Nat} (limit : Option Nat)
    (small : skipped < 2 ^ 63 - 1) (numbered : number ≤ 2 ^ 63 - 1) :
    (behind skipped limit).Holds number ↔
      skipped < number ∧ ∀ rows ∈ limit, number ≤ skipped + rows := by
  have words : UInt64.size = 18446744073709551616 := rfl
  refine and_congr ?_ ?_
  · simp only [behind, Window.saturated, words]
    omega
  · cases limit with
    | none => simp [behind]
    | some rows =>
        simp only [behind, Window.saturated, words, Option.map_some, Option.mem_some_iff,
          forall_eq']
        omega

/-- From the largest number on, the row with that number is not skipped any more. -/
example : (behind (2 ^ 63 - 1) none).Holds (2 ^ 63 - 1) := by decide

end NumberRange

theorem Window.choose_skipping {d : Dialect} (numbers : d.profile.paging = .rowNumber)
    (limit : Option UInt64) {skipped : UInt64} (positive : 0 < skipped) :
    choose d limit (some skipped) true = .ok
      (.numbered (rowNumber (saturated (skipped.toNat + 1)))
        (limit.map fun rows => rowNumber (saturated (skipped.toNat + rows.toNat)))) := by
  have kept : (some skipped).filter (0 < ·) = some skipped := by simp [positive]
  cases limit <;> simp only [choose, numbers, kept, if_true]

namespace Select

variable {t : Target}

theorem sql_closing_from (server : t.dialect = .sqlServer) (s : Select) {first : Int64} {a : Nat}
    (low : first.toInt = a) :
    ((s.closing t.dialect (.numbered first none)).build t).sql =
      (s.numberedName.build t).sql ++
        (" WHERE ([RowNumber] >= " ++ Nat.repr a ++ ") ORDER BY [RowNumber]") := by
  have name := quoteIdentifier_rowNumberName server
  have number : Value.intText a = Nat.repr a := rfl
  have parts : s.closing t.dialect (.numbered first none) = s.numberedName ++
      (.text " WHERE " :: (rowCondition first none).layout ++
        [.text " ORDER BY ", .name rowNumberName]) := by
    simp [closing, numberedName]
  rw [parts, Layout.sql_append t s.numberedName rfl]
  simp [rowCondition, Predicate.gte, Predicate.single, Predicate.layout, Predicate.right,
    Predicate.operand, Layout.parenthesized, Layout.build, Layout.write, Piece.write, Pass.write,
    low, number, name, Operator.shape, Operator.sql, ← String.append_assoc]

/-- The range of numbers can be read off the text of a query around numbered rows, in
whatever pass the query is written. -/
theorem ofSql?_numbered (server : t.dialect = .sqlServer) (s : Select) (body : Layout) (p : Pass)
    (skipped : Nat) (limit : Option Nat) :
    NumberRange.ofSql? ((s.assemble t.dialect
      (.numbered (Window.rowNumber (Window.saturated (skipped + 1)))
        (limit.map fun rows => Window.rowNumber (Window.saturated (skipped + rows)))) body).write
          t p).1 = some (NumberRange.behind skipped limit) := by
  have low := Window.toInt_rowNumber (Window.saturated (skipped + 1))
  rw [assemble_eq, Layout.write_around t p body (s.slots_opening _) (s.slots_closing _ _)]
  cases limit with
  | none =>
      simp only [Option.map_none, sql_closing_from server s low, ← String.append_assoc,
        NumberRange.ofSql?_from, NumberRange.behind]
  | some rows =>
      have high := Window.toInt_rowNumber (Window.saturated (skipped + rows))
      simp only [Option.map_some, sql_closing_numbered server s low high, ← String.append_assoc,
        NumberRange.ofSql?_between, NumberRange.behind]

end Select

/-- An ordered query on SQL Server that skips rows can be laid out if its body can. In every
pass its text ends in a range of row numbers, with a last one exactly if there is a limit,
and a row that can have a number is in the range if it is behind the skipped ones and, of
those, within the limit. -/
theorem row_condition_exact {t : Target} (server : t.dialect = .sqlServer) {s : Select}
    (ordered : s.orderBy ≠ []) {skipped : UInt64} (offset : s.offset = some skipped)
    (positive : 0 < skipped) (small : skipped.toNat < 2 ^ 63 - 1) :
    ((∃ l, s.layout t.dialect = .ok l) ↔ ∃ body, s.body t.dialect = .ok body) ∧
    ∀ l, s.layout t.dialect = .ok l →
      ∃ range : NumberRange, (∀ p, NumberRange.ofSql? (l.write t p).1 = some range) ∧
        range.last.isSome = s.limit.isSome ∧
        ∀ number ≤ 2 ^ 63 - 1, range.Holds number ↔
          skipped.toNat < number ∧
            ∀ rows, s.limit = some rows → number ≤ skipped.toNat + rows.toNat := by
  have numbers : t.dialect.profile.paging = .rowNumber := by
    rw [server]
    rfl
  have order : (!s.orderBy.isEmpty) = true := by simpa using ordered
  have window := Window.choose_skipping numbers s.limit positive
  rw [← offset, ← order] at window
  constructor
  · constructor
    · rintro ⟨l, laid⟩
      rcases Select.layout_eq_ok.1 laid with ⟨_, _, body, told, _⟩
      exact ⟨body, told⟩
    · rintro ⟨body, told⟩
      exact ⟨_, Select.layout_eq_ok.2 ⟨_, window, body, told, rfl⟩⟩
  · intro l laid
    rcases Select.layout_eq_ok.1 laid with ⟨w, chosen, body, told, rfl⟩
    obtain rfl := Except.ok.inj (chosen.symm.trans window)
    refine ⟨.behind skipped.toNat (s.limit.map UInt64.toNat), ?_, ?_, ?_⟩
    · intro p
      have read := s.ofSql?_numbered server body p skipped.toNat (s.limit.map UInt64.toNat)
      rwa [Option.map_map] at read
    · simp [NumberRange.behind]
    · intro number numbered
      rw [NumberRange.holds_behind _ small numbered]
      simp

def lastReader : Select :=
  (lateReaders.withOffset 9223372036854775806).withLimit 18446744073709551615

theorem row_condition_exact_last :
    lastReader.orderBy ≠ [] ∧ lastReader.offset = some 9223372036854775806 ∧
      ∃ l range, lastReader.layout .sqlServer = .ok l ∧
        (∀ p, NumberRange.ofSql? (l.write (.ofDialect .sqlServer) p).1 = some range) ∧
        range.last.isSome = true ∧
        range.Holds 9223372036854775807 ∧ ¬ range.Holds 9223372036854775806 := by
  have ordered : lastReader.orderBy ≠ [] := List.cons_ne_nil _ _
  have skipped : lastReader.offset = some 9223372036854775806 := rfl
  have exact := row_condition_exact (t := .ofDialect .sqlServer) rfl ordered skipped (by decide)
    (by decide)
  have body : lastReader.body .sqlServer = .ok _ := rfl
  rcases exact.1.2 ⟨_, body⟩ with ⟨l, laid⟩
  rcases exact.2 l laid with ⟨range, read, ended, holds⟩
  refine ⟨ordered, skipped, l, range, laid, read, ended, ?_, ?_⟩
  · refine (holds _ (by decide)).2 ⟨by decide, ?_⟩
    rintro rows limit
    obtain rfl : 18446744073709551615 = rows := Option.some.inj limit
    decide
  · intro held
    exact absurd ((holds _ (by decide)).1 held).1 (by decide)

end CrossDialect
