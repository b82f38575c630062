import CrossDialect.Proofs.Conditions.Marks
import CrossDialect.Proofs.Placeholders.Names

/-!
Numbers of placeholders. A number that the pass gives is above every number that stands in
the text before it, be it one that the pass gave or one that the caller wrote. A number that
the caller wrote stays as it is, and the counter is the largest number so far.
-/

namespace CrossDialect

open Text

namespace Placeholder

def number? (token : String) : Option Nat :=
  match token.toList with
  | '$' :: ds => if isNumeral ds then some (digitsValue ds) else none
  | _ => none

theorem number?_repr (n : Nat) : number? ("$" ++ Nat.repr n) = some n := by
  have chars : ("$" ++ Nat.repr n).toList = '$' :: (Nat.repr n).toList := String.toList_append
  simp only [number?, chars, isNumeral_repr, digitsValue_repr, if_true]

theorem style?_eq_numbered {token : String} {column : Option String} :
    style? token column = some .numbered ↔ (number? token).isSome = true := by
  unfold style? number?
  generalize token.toList = chars
  unfold styleOf
  split <;> simp_all

theorem number?_of_numbered {token : String} {column : Option String}
    (own : style? token column = some .numbered) :
    number? token = some (digitsValue (token.toList.drop 1)) := by
  have found := style?_eq_numbered.1 own
  unfold number? at found ⊢
  split at found <;> simp_all

end Placeholder

def Slot.native? : Slot → Option String
  | .bound .. => none
  | .token text _ _ => if (Placeholder.number? text).isSome then some text else none

namespace Pass

variable {t : Target} (numbered : t.profile.placeholder = .numbered)
include numbered

theorem fill_number (p : Pass) (s : Slot)
    (fits : ∀ text ∈ s.native?, ∀ n ∈ Placeholder.number? text, n < UInt64.size) :
    ∃ n, Placeholder.number? (p.fill t s).1 = some n ∧
      (p.fill t s).2.counter = max p.counter n ∧
      (s.native? = none → n = p.counter + 1) ∧
      ∀ text ∈ s.native?, (p.fill t s).1 = text := by
  cases s with
  | bound value column =>
      refine ⟨p.counter + 1, ?_, ?_, fun _ => rfl, by simp [Slot.native?]⟩
      · simp [fill, bind, next, numbered, Placeholder.number?_repr]
      · simp [fill, bind, next, numbered]
  | token text column isToken =>
      rcases Option.isSome_iff_exists.1 isToken with ⟨style, read⟩
      by_cases own : style = .numbered
      · subst own
        have number := Placeholder.number?_of_numbered read
        have native : (Slot.token text column isToken).native? = some text := by
          simp [Slot.native?, number]
        have small := fits text native _ number
        have noted : (p.note .numbered text).counter =
            max p.counter (digitsValue (text.toList.drop 1)) := by
          simp only [note, small, if_true]
        refine ⟨digitsValue (text.toList.drop 1), ?_, ?_, ?_, ?_⟩
        · simpa [fill, translate, read, numbered] using number
        · simpa [fill, translate, read, numbered] using noted
        · simp [native]
        · simp [native, fill, translate, read, numbered]
      · have none : Placeholder.number? text = none := by
          cases found : Placeholder.number? text with
          | none => rfl
          | some n =>
              have styled : Placeholder.style? text column = some .numbered :=
                Placeholder.style?_eq_numbered.2 (by simp [found])
              rw [read] at styled
              exact absurd (Option.some.inj styled) own
        refine ⟨p.counter + 1, ?_, ?_, fun _ => rfl, ?_⟩
        · simp [fill, translate, read, numbered, own, next, Placeholder.number?_repr]
        · simp [fill, translate, read, numbered, own, next]
        · simp [Slot.native?, none]

variable {slots : List Slot}

/-- A token of the caller's stays as it is, and every other slot gets a number above
those that were given before. -/
theorem fillAll_numbers (p : Pass)
    (fits : ∀ s ∈ slots, ∀ text ∈ s.native?, ∀ n ∈ Placeholder.number? text, n < UInt64.size) :
    ∀ filled ∈ slots.zip (p.fillAll t slots).1,
      (∀ text ∈ filled.1.native?, filled.2 = text) ∧
      ∃ n, Placeholder.number? filled.2 = some n ∧ (filled.1.native? = none → p.counter < n) := by
  induction slots generalizing p with
  | nil => simp
  | cons s slots ih =>
      rcases fill_number numbered p s (fits s List.mem_cons_self) with
        ⟨n, number, counter, above, kept⟩
      intro filled member
      rcases List.mem_cons.1 member with rfl | later
      · exact ⟨kept, n, number, fun given => by rw [above given]; exact Nat.lt_succ_self _⟩
      · rcases ih _ (fun s member => fits s (List.mem_cons_of_mem _ member)) filled later with
          ⟨kept', m, number', above'⟩
        refine ⟨kept', m, number', fun given => ?_⟩
        have := above' given
        omega

theorem fillAll_rising (p : Pass)
    (fits : ∀ s ∈ slots, ∀ text ∈ s.native?, ∀ n ∈ Placeholder.number? text, n < UInt64.size) :
    (slots.zip (p.fillAll t slots).1).Pairwise fun earlier later =>
      later.1.native? = none →
        ∀ n ∈ Placeholder.number? earlier.2, ∀ m ∈ Placeholder.number? later.2, n < m := by
  induction slots generalizing p with
  | nil => exact .nil
  | cons s slots ih =>
      have rest := fun s member => fits s (List.mem_cons_of_mem _ member)
      rcases fill_number numbered p s (fits s List.mem_cons_self) with ⟨n, number, counter, -⟩
      refine .cons ?_ (ih _ rest)
      intro later member given n' first m second
      rcases (fillAll_numbers numbered _ rest later member).2 with ⟨m', number', above⟩
      have := above given
      obtain rfl : n = n' := Option.some.inj (number.symm.trans first)
      obtain rfl : m' = m := Option.some.inj (number'.symm.trans second)
      omega

theorem fillAll_counter (p : Pass)
    (fits : ∀ s ∈ slots, ∀ text ∈ s.native?, ∀ n ∈ Placeholder.number? text, n < UInt64.size) :
    (p.fillAll t slots).2.counter =
      ((p.fillAll t slots).1.filterMap Placeholder.number?).foldl max p.counter := by
  induction slots generalizing p with
  | nil => rfl
  | cons s slots ih =>
      rcases fill_number numbered p s (fits s List.mem_cons_self) with ⟨n, number, counter, -⟩
      have rest := ih (p.fill t s).2 fun s member => fits s (List.mem_cons_of_mem _ member)
      simp [fillAll, number, rest, counter]

end Pass

/-! Texts around the placeholders -/

mutual

/-- The value holds no column and no SQL text that would be written. -/
def Value.isData : Value → Bool
  | .column _ | .raw _ => false
  | .list items => allData items
  | _ => true

def Value.allData : List Value → Bool
  | [] => true
  | v :: vs => v.isData && allData vs

end

theorem Fragment.mem_joined {separator : String} {f : Fragment} {ls : List (List Fragment)}
    (member : f ∈ joined separator ls) : f = .text separator ∨ ∃ l ∈ ls, f ∈ l := by
  induction ls with
  | nil => simp [joined] at member
  | cons l ls ih =>
      cases ls with
      | nil => exact .inr ⟨l, List.mem_cons_self, by simpa [joined] using member⟩
      | cons l' ls =>
          simp only [joined, List.mem_append, List.mem_cons] at member
          rcases member with first | between | later
          · exact .inr ⟨l, List.mem_cons_self, first⟩
          · exact .inl between
          · rcases ih later with same | ⟨l'', inside, found⟩
            · exact .inl same
            · exact .inr ⟨l'', List.mem_cons_of_mem _ inside, found⟩

theorem dollar_not_mem_intText (i : Int) : '$' ∉ (Value.intText i).toList := by
  intro member
  cases i with
  | ofNat n =>
      have digit := (isNumeral_iff.1 (isNumeral_repr n)).2 '$' member
      exact absurd digit (by decide)
  | negSucc n =>
      have digit : '$' ∈ (Nat.repr (n + 1)).toList := by simpa [Value.intText] using member
      exact absurd ((isNumeral_iff.1 (isNumeral_repr (n + 1))).2 '$' digit) (by decide)

theorem dollar_not_mem_floatText (x : Float) : '$' ∉ (Value.floatText x).toList := by
  have body (significand : Nat) (exponent : Int) (least : Bool) :
      '$' ∉ Value.spelling.magnitude significand exponent least := by
    intro member
    have place := Decimal.isPlace_magnitude rfl '$' member
    exact absurd place (by simp [Decimal.IsPlace])
  unfold Value.floatText Decimal.Spelling.spell
  cases Decimal.Binary.ofFloat x with
  | notANumber => simp
  | infinite negative => cases negative <;> simp
  | finite negative significand exponent least =>
      cases negative <;> simp [body significand exponent least]

mutual

/-- Of the texts that are written for data, only string literals may hold a dollar sign. -/
theorem Value.literal_of_dollar (t : Target) (column : Option String) (v : Value)
    (data : v.isData = true) {sql : String} (written : .text sql ∈ v.fragments t column)
    (dollar : '$' ∈ sql.toList) : ∃ s, sql = t.quoteString s := by
  cases v with
  | null =>
      obtain rfl : sql = "NULL" := by simpa [fragments, Pass.write] using written
      exact absurd dollar (by decide)
  | bool b =>
      have word : sql ∈ ["TRUE", "FALSE", "1", "0"] := by
        obtain rfl := by simpa [fragments, Pass.write] using written
        cases t.profile.booleanWords <;> cases b <;> simp
      have clean : ∀ word ∈ ["TRUE", "FALSE", "1", "0"], '$' ∉ word.toList := by decide
      exact absurd dollar (clean sql word)
  | int n =>
      obtain rfl : sql = Value.intText n.toInt := by simpa [fragments, Pass.write] using written
      exact absurd dollar (dollar_not_mem_intText n.toInt)
  | float x =>
      have shown : sql = if x.isFinite then floatText x else t.quoteString (floatText x) := by
        simpa [fragments, Pass.write] using written
      split at shown
      · rw [shown] at dollar
        exact absurd dollar (dollar_not_mem_floatText x)
      · exact ⟨_, shown⟩
  | text s =>
      simp only [fragments] at written
      split at written
      · simp at written
      · exact ⟨s, by simpa using written⟩
  | list items =>
      simp only [fragments, List.mem_append, List.mem_cons, Fragment.text.injEq, List.not_mem_nil,
        or_false] at written
      rcases written with (rfl | inside) | rfl
      · exact absurd dollar (by decide)
      · rcases Fragment.mem_joined inside with same | ⟨l, listed, found⟩
        · obtain rfl := Fragment.text.inj same
          exact absurd dollar (by decide)
        · exact Value.literal_of_dollar_items t column items data listed found dollar
      · exact absurd dollar (by decide)
  | column name => exact absurd data Bool.false_ne_true
  | raw sql => exact absurd data Bool.false_ne_true
  | param inner => simp [fragments] at written

theorem Value.literal_of_dollar_items (t : Target) (column : Option String) (vs : List Value)
    (data : allData vs = true) {sql : String} {l : List Fragment}
    (listed : l ∈ itemFragments t column vs) (written : .text sql ∈ l)
    (dollar : '$' ∈ sql.toList) : ∃ s, sql = t.quoteString s := by
  cases vs with
  | nil => simp [itemFragments] at listed
  | cons v vs =>
      have both : v.isData = true ∧ allData vs = true := by simpa [allData] using data
      rcases List.mem_cons.1 listed with rfl | later
      · exact Value.literal_of_dollar t column v both.1 written dollar
      · exact Value.literal_of_dollar_items t column vs both.2 later written dollar

end

namespace Call

def isData : Call → Bool
  | .write value _ => value.isData
  | _ => true

theorem applyAll_pass (t : Target) (p : Pass) (calls : List Call) :
    (applyAll t p calls).2 = (p.fillAll t (calls.flatMap slots)).2 := by
  have slots_eq : (calls.flatMap (fragments t)).filterMap Fragment.slot? = calls.flatMap slots := by
    simp [List.filterMap_flatMap, slots_fragments]
  rw [← slots_eq, ← Pass.run_pass, ← applyAll_eq_run]

theorem foreign_dollar {t : Target} {c : Call} (data : c.isData = true) {sql : String}
    (written : .text sql ∈ c.fragments t) (dollar : '$' ∈ sql.toList) :
    (∃ s, sql = t.quoteString s) ∨
      ∃ column, c = .translate sql column ∧ Placeholder.isToken sql column = false := by
  cases c with
  | translate token column =>
      simp only [fragments] at written
      split at written
      · simp at written
      · rename_i plain
        obtain rfl : sql = token := by simpa using written
        exact .inr ⟨column, rfl, by simpa using plain⟩
  | bind value column => simp [fragments] at written
  | write value column => exact .inl (Value.literal_of_dollar t column value data written dollar)

def numbers (t : Target) (calls : List Call) : List Nat :=
  (marks t {} calls).filterMap Placeholder.number?

def filled (t : Target) (calls : List Call) : List (Slot × String) :=
  (calls.flatMap slots).zip (marks t {} calls)

structure NumbersRise (t : Target) (calls : List Call) : Prop where
  -- The texts of the calls are fragments with the placeholders in their slots.
  spelled : String.join (applyAll t {} calls).1 =
    Fragment.spell (calls.flatMap (fragments t)) (marks t {} calls)
  -- Outside of slots a dollar sign stands in a literal, or in text that is no placeholder.
  foreign : ∀ c ∈ calls, ∀ sql, .text sql ∈ c.fragments t → '$' ∈ sql.toList →
    (∃ s, sql = t.quoteString s) ∨
      ∃ column, c = .translate sql column ∧ Placeholder.isToken sql column = false
  numbered : ∀ mark ∈ marks t {} calls, ∃ n, Placeholder.number? mark = some n
  native : ∀ entry ∈ filled t calls, ∀ text ∈ entry.1.native?, entry.2 = text
  rising : (filled t calls).Pairwise fun earlier later => later.1.native? = none →
    ∀ n ∈ Placeholder.number? earlier.2, ∀ m ∈ Placeholder.number? later.2, n < m
  counter : ∀ before, before <+: calls →
    (applyAll t {} before).2.counter = (numbers t before).foldl max 0

end Call

theorem Pass.length_fillAll (t : Target) (p : Pass) (slots : List Slot) :
    (p.fillAll t slots).1.length = slots.length := by
  induction slots generalizing p with
  | nil => rfl
  | cons s slots ih => simp [fillAll, ih]

/-- On a dialect with numbered placeholders a number that the pass makes up is above all
numbers before it, a number of the caller's is written as it stands, and the counter shows
the largest of all these numbers. -/
theorem numbers_rise (escape : String → String) (calls : List Call)
    (data : ∀ c ∈ calls, c.isData = true)
    (fits : ∀ s ∈ calls.flatMap Call.slots, ∀ text ∈ s.native?,
      ∀ n ∈ Placeholder.number? text, n < UInt64.size) :
    Call.NumbersRise ⟨.postgres, escape⟩ calls where
  spelled := Call.join_applyAll _ _ _
  foreign := fun c member _ written dollar => Call.foreign_dollar (data c member) written dollar
  numbered := by
    intro mark member
    have marks := List.map_snd_zip
      (Nat.le_of_eq (Pass.length_fillAll ⟨.postgres, escape⟩ {} (calls.flatMap Call.slots)))
    rw [Call.marks, ← marks] at member
    rcases List.mem_map.1 member with ⟨entry, inside, rfl⟩
    rcases (Pass.fillAll_numbers rfl {} fits entry inside).2 with ⟨n, number, -⟩
    exact ⟨n, number⟩
  native := fun entry member => (Pass.fillAll_numbers rfl {} fits entry member).1
  rising := Pass.fillAll_rising rfl {} fits
  counter := by
    rintro before ⟨rest, rfl⟩
    rw [Call.applyAll_pass]
    refine Pass.fillAll_counter rfl {} fun s member => fits s ?_
    rw [List.flatMap_append]
    exact List.mem_append_left _ member

def mixedCalls : List Call :=
  [.bind (.int 5) none, .translate "$7" (some "a"),
    .write (.list [.param (.int 6), .text "$3", .list [.text "?", .text "$ 9"]]) (some "b"),
    .translate ":c" (some "c")]

theorem numbers_rise_mixed :
    (∀ c ∈ mixedCalls, c.isData = true) ∧
    (∀ s ∈ mixedCalls.flatMap Call.slots, ∀ text ∈ s.native?,
      ∀ n ∈ Placeholder.number? text, n < UInt64.size) ∧
    Call.marks (.ofDialect .postgres) {} mixedCalls = ["$1", "$7", "$8", "$3", "$9", "$10"] ∧
    Call.NumbersRise (.ofDialect .postgres) mixedCalls := by
  have data : ∀ c ∈ mixedCalls, c.isData = true := by decide
  have fits : ∀ s ∈ mixedCalls.flatMap Call.slots, ∀ text ∈ s.native?,
      ∀ n ∈ Placeholder.number? text, n < UInt64.size := by decide
  exact ⟨data, fits, by decide, numbers_rise _ mixedCalls data fits⟩

end CrossDialect
