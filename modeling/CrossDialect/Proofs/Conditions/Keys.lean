import CrossDialect.Condition.Shorthand
import CrossDialect.Proofs.Quoting.Names
import Mathlib.Data.List.Basic

/-!
Keys of shorthand entries and the forms in which a column is written with a modifier. A
key in one of these forms is taken apart into the column and the modifier, if the column
does not itself begin or end like a sign. Whatever a key is taken apart into, the key is
one of the forms of it.
-/

namespace CrossDialect.Shorthand

open Text

inductive Sign : Operator → List Char → Prop where
  | gte : Sign .gte ['>', '=']
  | lte : Sign .lte ['<', '=']
  | ne : Sign .ne ['!', '=']
  | unequal : Sign .ne ['<', '>']
  | gt : Sign .gt ['>']
  | lt : Sign .lt ['<']

def isSignEnd (c : Char) : Bool := c == '<' || c == '>' || c == '='

/-- One end of a key: nothing, a percent sign, or one with a minus outside. -/
inductive Edge where
  | bare
  | percent
  | negated

namespace Edge

def front : Edge → List Char
  | bare => []
  | percent => ['%']
  | negated => ['-', '%']

def back : Edge → List Char
  | bare => []
  | percent => ['%']
  | negated => ['%', '-']

def hasPercent : Edge → Bool
  | bare => false
  | percent | negated => true

def hasMinus : Edge → Bool
  | bare | percent => false
  | negated => true

end Edge

/-- The forms in which a key spells a column with a modifier. -/
inductive KeyText (column : List Char) : Modifier → List Char → Prop where
  | plain : KeyText column .plain column
  | negated : KeyText column .negated (column ++ ['-'])
  | compare {op gap sign} (blank : ∀ c ∈ gap, isBlank c = true) (signs : Sign op sign) :
      KeyText column (.compare op) (column ++ gap ++ sign)
  | like {start stop : Edge} (marked : start.hasPercent || stop.hasPercent) :
      KeyText column (.like start.hasPercent stop.hasPercent (start.hasMinus || stop.hasMinus))
        (start.front ++ column ++ stop.back)

structure IsColumn (column : List Char) : Prop where
  present : column ≠ []
  percent : '%' ∉ column
  front : column.head? ≠ some '-'
  back : column.getLast? ≠ some '-'

/-- The column neither begins nor ends in a blank, and does not end like a comparison. -/
structure StandsApart (column : List Char) : Prop extends IsColumn column where
  blankFront : StopsAt isBlank column
  blankBack : StopsAt isBlank column.reverse
  signless : StopsAt isSignEnd column.reverse

section Ends

variable {s tail rest : List Char} {a : Char}

theorem before?_self (tail s : List Char) : before? tail (s ++ tail) = some s := by
  simp [before?, after?_self]

theorem of_before? (taken : before? tail s = some rest) : s = rest ++ tail := by
  rcases Option.map_eq_some_iff.1 taken with ⟨left, found, rfl⟩
  have split := congrArg List.reverse (of_after? found)
  simpa using split

theorem before?_of_getLast? (tail : List Char) (other : s.getLast? ≠ some a) :
    before? (tail ++ [a]) s = none := by
  cases taken : before? (tail ++ [a]) s with
  | none => rfl
  | some rest =>
      rw [of_before? taken, ← List.append_assoc, List.getLast?_concat] at other
      exact absurd rfl other

theorem after?_of_head? (other : s.head? ≠ some a) : after? (a :: tail) s = none := by
  cases taken : after? (a :: tail) s with
  | none => rfl
  | some rest =>
      rw [of_after? taken] at other
      exact absurd rfl other

end Ends

def signed? (key : List Char) : Option (List Char × Operator) :=
  suffixes.findSome? fun (sign, op) => (before? sign.toList key).map (·, op)

def minusFront (key : List Char) : Bool := (after? ['-', '%'] key).isSome

def minusBack (key : List Char) : Bool := (before? ['%', '-'] key).isSome

def withoutMinus (key : List Char) : List Char :=
  let body := if minusFront key then key.drop 1 else key
  if minusBack key then body.dropLast else body

def splitUnsigned (key : List Char) : Except ConditionFault (List Char × Modifier) :=
  let (leading, trailing, column) := splitPercents (withoutMinus key)
  if leading || trailing then
    (checkColumn column).map (·, .like leading trailing (minusFront key || minusBack key))
  else
    match before? ['-'] key with
    | some column => (checkColumn column).map (·, .negated)
    | none => (checkColumn key).map (·, .plain)

theorem splitTrimmed_eq (key : List Char) :
    splitTrimmed key =
      match signed? key with
      | some (column, op) => (checkColumn (trimEnd column)).map (·, .compare op)
      | none => splitUnsigned key := rfl

theorem checkColumn_map {α : Type} {f : List Char → α} {column : List Char} {a : α} :
    (checkColumn column).map f = .ok a ↔ IsColumn column ∧ f column = a := by
  unfold checkColumn
  constructor
  · intro checked
    split at checked
    · exact absurd checked (by simp [Except.map])
    · split at checked
      · exact absurd checked (by simp [Except.map])
      · rename_i present signs
        simp only [not_or] at signs
        refine ⟨⟨?_, signs.1, signs.2.1, signs.2.2⟩, Except.ok.inj checked⟩
        simpa using present
  · rintro ⟨valid, rfl⟩
    simp [valid.present, valid.percent, valid.front, valid.back, Except.map]

/-! Comparison signs -/

theorem sign_of_mem {sign : String} {op : Operator} (listed : (sign, op) ∈ suffixes) :
    Sign op sign.toList := by
  simp only [suffixes, List.mem_cons, List.not_mem_nil, or_false, Prod.mk.injEq] at listed
  rcases listed with ⟨rfl, rfl⟩ | ⟨rfl, rfl⟩ | ⟨rfl, rfl⟩ | ⟨rfl, rfl⟩ | ⟨rfl, rfl⟩ | ⟨rfl, rfl⟩
  · exact .gte
  · exact .lte
  · exact .ne
  · exact .unequal
  · exact .gt
  · exact .lt

theorem of_signed? {key column : List Char} {op : Operator}
    (found : signed? key = some (column, op)) : ∃ sign, Sign op sign ∧ key = column ++ sign := by
  rcases List.exists_of_findSome?_eq_some found with ⟨⟨sign, op'⟩, listed, taken⟩
  rcases Option.map_eq_some_iff.1 taken with ⟨column', stripped, same⟩
  obtain ⟨rfl, rfl⟩ := Prod.mk.inj same
  exact ⟨sign.toList, sign_of_mem listed, of_before? stripped⟩

theorem signed?_eq_none {key : List Char} (signless : StopsAt isSignEnd key.reverse) :
    signed? key = none := by
  cases found : signed? key with
  | none => rfl
  | some entry =>
      rcases entry with ⟨column, op⟩
      rcases of_signed? found with ⟨sign, signs, rfl⟩
      exfalso
      cases signs <;> simp [isSignEnd] at signless

theorem signed?_self {op : Operator} {sign s : List Char} (signs : Sign op sign)
    (apart : s.getLast? ≠ some '<') : signed? (s ++ sign) = some (s, op) := by
  -- of the signs that come before `>`, only `<>` ends like it
  have other : after? ['<'] s.reverse = none := after?_of_head? (by simpa using apart)
  cases signs <;>
    simp [signed?, suffixes, before?, after?_cons_cons, after?_nil, other]

/-! Percent signs -/

def sigil (c : Char) (shown : Bool) : List Char := if shown then [c] else []

theorem splitPercents_percent (s : List Char) :
    splitPercents ('%' :: s) =
      if s.getLast? = some '%' then (true, true, s.dropLast) else (true, false, s) := by
  rcases List.eq_nil_or_concat' s with rfl | ⟨front, x, rfl⟩
  · rfl
  · have last : ('%' :: (front ++ [x])).getLast? = some x := by
      rw [← List.cons_append, List.getLast?_concat]
    by_cases marked : x = '%'
    · subst marked
      simp [splitPercents, last]
    · simp [splitPercents, last, marked]

theorem splitPercents_of_head? {s : List Char} (bare : s.head? ≠ some '%') :
    splitPercents s =
      if s.getLast? = some '%' then (false, true, s.dropLast) else (false, false, s) := by
  have leading : (s.head? == some '%') = false := by simpa using bare
  by_cases marked : s.getLast? = some '%'
  · -- a lone percent sign would stand at the front
    have long : 1 < s.length := by
      rcases List.getLast?_eq_some_iff.1 marked with ⟨front, rfl⟩
      cases front with
      | nil => exact absurd rfl bare
      | cons c front => simp
    simp [splitPercents, leading, marked, long]
  · simp [splitPercents, leading, marked]

theorem splitPercents_marked {c : List Char} (present : c ≠ []) (percent : '%' ∉ c)
    (leading trailing : Bool) :
    splitPercents (sigil '%' leading ++ c ++ sigil '%' trailing) = (leading, trailing, c) := by
  have last : c.getLast? ≠ some '%' := fun last => percent (List.mem_of_getLast? last)
  have first (tail : List Char) : (c ++ tail).head? ≠ some '%' := by
    rw [List.head?_append_of_ne_nil c present]
    exact fun first => percent (List.mem_of_mem_head? first)
  cases leading with
  | false =>
      have split := splitPercents_of_head? (first (sigil '%' trailing))
      cases trailing <;> simpa [sigil, last] using split
  | true =>
      have split := splitPercents_percent (c ++ sigil '%' trailing)
      cases trailing <;> simpa [sigil, last] using split

theorem of_splitPercents {body column : List Char} {leading trailing : Bool}
    (split : splitPercents body = (leading, trailing, column)) :
    body = sigil '%' leading ++ column ++ sigil '%' trailing := by
  have shorter {s : List Char} (marked : s.getLast? = some '%') : s.dropLast ++ ['%'] = s := by
    rcases List.getLast?_eq_some_iff.1 marked with ⟨front, rfl⟩
    rw [List.dropLast_concat]
  by_cases bare : body.head? = some '%'
  · rcases List.head?_eq_some_iff.1 bare with ⟨s, rfl⟩
    rw [splitPercents_percent] at split
    split at split
    · rename_i marked
      obtain ⟨rfl, rfl, rfl⟩ : _ ∧ _ ∧ _ := by simpa using split
      simp [sigil, shorter marked]
    · obtain ⟨rfl, rfl, rfl⟩ : _ ∧ _ ∧ _ := by simpa using split
      simp [sigil]
  · rw [splitPercents_of_head? bare] at split
    split at split
    · rename_i marked
      obtain ⟨rfl, rfl, rfl⟩ : _ ∧ _ ∧ _ := by simpa using split
      simp [sigil, shorter marked]
    · obtain ⟨rfl, rfl, rfl⟩ : _ ∧ _ ∧ _ := by simpa using split
      simp [sigil]

/-! Minus signs -/

theorem of_minusFront {key : List Char} (found : minusFront key = true) :
    ∃ s, key = '-' :: '%' :: s := by
  rcases Option.isSome_iff_exists.1 found with ⟨s, taken⟩
  exact ⟨s, of_after? taken⟩

theorem of_minusBack {key : List Char} (found : minusBack key = true) :
    ∃ s, key = s ++ ['%'] ++ ['-'] := by
  rcases Option.isSome_iff_exists.1 found with ⟨s, taken⟩
  exact ⟨s, by simpa using of_before? taken⟩

/-- A minus that is taken off stands outside a percent sign, which is left. -/
theorem withoutMinus_spec (key : List Char) :
    key = sigil '-' (minusFront key) ++ withoutMinus key ++ sigil '-' (minusBack key) ∧
    (minusFront key = true → (withoutMinus key).head? = some '%') ∧
    (minusBack key = true → (withoutMinus key).getLast? = some '%') := by
  unfold withoutMinus
  cases front : minusFront key <;> cases back : minusBack key
  case false.false => simp [sigil]
  case false.true =>
    rcases of_minusBack back with ⟨s, rfl⟩
    simp [sigil]
  case true.false =>
    rcases of_minusFront front with ⟨s, rfl⟩
    simp [sigil]
  case true.true =>
    rcases of_minusFront front with ⟨s, rfl⟩
    rcases of_minusBack back with ⟨t, same⟩
    rcases List.eq_nil_or_concat' s with rfl | ⟨s, x, rfl⟩
    · -- the two minus signs are not the same character
      have last := congrArg List.getLast? same
      simp at last
    · have ends : ('-' :: '%' :: s) ++ [x] = (t ++ ['%']) ++ ['-'] := same
      rcases List.append_inj' ends rfl with ⟨inner, outer⟩
      obtain rfl := List.singleton_inj.1 outer
      have last : ('%' :: s).getLast? = some '%' := by
        have last := congrArg List.getLast? inner
        rwa [List.getLast?_concat, List.getLast?_cons_cons] at last
      have shorter : ('%' :: s ++ ['-']).dropLast = '%' :: s := List.dropLast_concat
      rw [List.cons_append] at shorter
      simp [sigil, shorter, last]

theorem Edge.front_eq (e : Edge) : e.front = sigil '-' e.hasMinus ++ sigil '%' e.hasPercent := by
  cases e <;> rfl

theorem Edge.back_eq (e : Edge) : e.back = sigil '%' e.hasPercent ++ sigil '-' e.hasMinus := by
  cases e <;> rfl

section Column

variable {c : List Char} (valid : IsColumn c)
include valid

theorem minusFront_edge (start : Edge) (tail : List Char) :
    minusFront (start.front ++ c ++ tail) = start.hasMinus := by
  cases start with
  | bare =>
      have first : (c ++ tail).head? ≠ some '-' := by
        rw [List.head?_append_of_ne_nil c valid.present]
        exact valid.front
      simp [minusFront, Edge.front, Edge.hasMinus, after?_of_head? first]
  | percent => rfl
  | negated => simp [minusFront, Edge.front, Edge.hasMinus, after?_cons_cons, after?_nil]

theorem minusBack_edge (stop : Edge) (front : List Char) :
    minusBack (front ++ c ++ stop.back) = stop.hasMinus := by
  cases stop with
  | bare =>
      have last : (front ++ c).getLast? ≠ some '-' := by
        rw [List.getLast?_append_of_ne_nil front valid.present]
        exact valid.back
      have none := before?_of_getLast? ['%'] last
      simpa [minusBack, Edge.back, Edge.front, Edge.hasMinus] using none
  | percent => simp [minusBack, Edge.back, Edge.hasMinus, before?, after?_cons_cons]
  | negated =>
      have found := before?_self ['%', '-'] (front ++ c)
      rw [minusBack, Edge.back, found]
      rfl

theorem withoutMinus_edges (start stop : Edge) :
    withoutMinus (start.front ++ c ++ stop.back) =
      sigil '%' start.hasPercent ++ c ++ sigil '%' stop.hasPercent := by
  have front := minusFront_edge valid start stop.back
  have back := minusBack_edge valid stop start.front
  rw [withoutMinus, front, back, start.front_eq, stop.back_eq]
  cases start.hasMinus <;> cases stop.hasMinus <;> simp [sigil, ← List.append_assoc]

theorem splitUnsigned_like {start stop : Edge}
    (marked : (start.hasPercent || stop.hasPercent) = true) :
    splitUnsigned (start.front ++ c ++ stop.back) =
      .ok (c, .like start.hasPercent stop.hasPercent (start.hasMinus || stop.hasMinus)) := by
  rw [splitUnsigned, minusFront_edge valid, minusBack_edge valid, withoutMinus_edges valid,
    splitPercents_marked valid.present valid.percent]
  simp only [marked, if_true]
  exact checkColumn_map.2 ⟨valid, rfl⟩

end Column

/-- A key without percent signs is a column, or one with a minus behind it. -/
theorem splitUnsigned_unmarked {key : List Char} (present : key ≠ []) (percent : '%' ∉ key) :
    splitUnsigned key =
      match before? ['-'] key with
      | some column => (checkColumn column).map (·, .negated)
      | none => (checkColumn key).map (·, .plain) := by
  have front : minusFront key = false := by
    refine Bool.eq_false_iff.2 fun found => ?_
    rcases of_minusFront found with ⟨s, rfl⟩
    simp at percent
  have back : minusBack key = false := by
    refine Bool.eq_false_iff.2 fun found => ?_
    rcases of_minusBack found with ⟨s, rfl⟩
    simp at percent
  have whole : withoutMinus key = key := by simp [withoutMinus, front, back]
  have split : splitPercents key = (false, false, key) := by
    simpa [sigil] using splitPercents_marked present percent false false
  rw [splitUnsigned, whole, split]
  rfl

theorem splitUnsigned_plain {c : List Char} (valid : IsColumn c) :
    splitUnsigned c = .ok (c, .plain) := by
  have bare : before? ['-'] c = none := before?_of_getLast? [] valid.back
  rw [splitUnsigned_unmarked valid.present valid.percent, bare]
  exact checkColumn_map.2 ⟨valid, rfl⟩

theorem splitUnsigned_negated {c : List Char} (valid : IsColumn c) :
    splitUnsigned (c ++ ['-']) = .ok (c, .negated) := by
  have percent : '%' ∉ c ++ ['-'] := by simp [valid.percent]
  rw [splitUnsigned_unmarked (by simp) percent, before?_self]
  exact checkColumn_map.2 ⟨valid, rfl⟩

theorem Edge.exists_of {percent minus : Bool} (inside : minus = true → percent = true) :
    ∃ e : Edge, e.hasPercent = percent ∧ e.hasMinus = minus := by
  cases minus with
  | true => exact ⟨.negated, (inside rfl).symm, rfl⟩
  | false =>
      cases percent with
      | true => exact ⟨.percent, rfl, rfl⟩
      | false => exact ⟨.bare, rfl, rfl⟩

theorem of_splitUnsigned {key c : List Char} {m : Modifier}
    (split : splitUnsigned key = .ok (c, m)) : IsColumn c ∧ KeyText c m key := by
  rcases withoutMinus_spec key with ⟨whole, front, back⟩
  rcases parts : splitPercents (withoutMinus key) with ⟨leading, trailing, column⟩
  have body := of_splitPercents parts
  simp only [splitUnsigned, parts] at split
  split at split
  · rename_i marked
    obtain ⟨valid, rfl, rfl⟩ : IsColumn column ∧ column = c ∧ _ = m := by
      simpa only [checkColumn_map, Prod.mk.injEq] using split
    rw [body] at whole front back
    -- the column holds no percent sign, so one outside it was removed
    have start : minusFront key = true → leading = true := by
      intro minus
      cases leading with
      | true => rfl
      | false =>
          have first := front minus
          rw [sigil, List.append_assoc, if_neg Bool.false_ne_true, List.nil_append,
            List.head?_append_of_ne_nil _ valid.present] at first
          exact absurd (List.mem_of_mem_head? first) valid.percent
    have stop : minusBack key = true → trailing = true := by
      intro minus
      cases trailing with
      | true => rfl
      | false =>
          have last := back minus
          rw [sigil, sigil, if_neg Bool.false_ne_true, List.append_nil,
            List.getLast?_append_of_ne_nil _ valid.present] at last
          exact absurd (List.mem_of_getLast? last) valid.percent
    rcases Edge.exists_of start with ⟨first, rfl, minusFirst⟩
    rcases Edge.exists_of stop with ⟨last, rfl, minusLast⟩
    refine ⟨valid, ?_⟩
    have text : KeyText column _ (first.front ++ column ++ last.back) := .like marked
    rw [first.front_eq, last.back_eq, minusFirst, minusLast] at text
    simp only [List.append_assoc] at text whole
    rwa [← whole] at text
  · split at split
    · rename_i column' taken
      obtain ⟨valid, rfl, rfl⟩ : IsColumn column' ∧ column' = c ∧ _ = m := by
        simpa only [checkColumn_map, Prod.mk.injEq] using split
      rw [of_before? taken]
      exact ⟨valid, .negated⟩
    · obtain ⟨valid, rfl, rfl⟩ : IsColumn key ∧ key = c ∧ _ = m := by
        simpa only [checkColumn_map, Prod.mk.injEq] using split
      exact ⟨valid, .plain⟩

/-! Blanks -/

theorem exists_gap (s : List Char) :
    ∃ gap, (∀ c ∈ gap, isBlank c = true) ∧ s = trimEnd s ++ gap := by
  refine ⟨(s.reverse.takeWhile isBlank).reverse, ?_, ?_⟩
  · simpa using all_takeWhile isBlank s.reverse
  · rw [trimEnd, ← List.reverse_append, List.takeWhile_append_dropWhile, List.reverse_reverse]

theorem Edge.stopsAt_reverse {p : Char → Bool} {c : List Char} (present : c ≠ [])
    (stops : StopsAt p c.reverse) (signs : ['%', '-'].any p = false) (start stop : Edge) :
    StopsAt p (start.front ++ c ++ stop.back).reverse := by
  have apart : p '%' = false ∧ p '-' = false := by simpa using signs
  cases stop with
  | bare => simpa [back] using stops.append_of_ne_nil (by simpa using present)
  | percent => simp [back, apart]
  | negated => simp [back, apart]

theorem Sign.stopsAt_reverse {p : Char → Bool} {op : Operator} {sign : List Char}
    (signs : Sign op sign) (ends : ['<', '>', '='].any p = false) (s : List Char) :
    StopsAt p (s ++ sign).reverse := by
  have apart : p '<' = false ∧ p '>' = false ∧ p '=' = false := by simpa using ends
  cases signs <;> simp [apart]

theorem KeyText.trim_eq {c s : List Char} {m : Modifier} (apart : StandsApart c)
    (text : KeyText c m s) : trim s = s := by
  have front {tail : List Char} : StopsAt isBlank (c ++ tail) :=
    apart.blankFront.append_of_ne_nil apart.present
  cases text with
  | plain => exact trim_of_stopsAt apart.blankFront apart.blankBack
  | negated =>
      have minus : isBlank '-' = false := by decide
      exact trim_of_stopsAt front (by simp [minus])
  | @compare op gap sign blank signs =>
      have back := signs.stopsAt_reverse (p := isBlank) (by decide) (c ++ gap)
      rw [List.append_assoc] at back ⊢
      exact trim_of_stopsAt front back
  | @like start stop marked =>
      apply trim_of_stopsAt
      · cases start with
        | bare => simpa [Edge.front] using front
        | percent | negated => exact stopsAt_cons.2 (by decide)
      · exact Edge.stopsAt_reverse apart.present apart.blankBack (by decide) start stop

theorem splitTrimmed_spelled {c s : List Char} {m : Modifier} (apart : StandsApart c)
    (text : KeyText c m s) : splitTrimmed s = .ok (c, m) := by
  rw [splitTrimmed_eq]
  have valid := apart.toIsColumn
  cases text with
  | plain =>
      rw [signed?_eq_none apart.signless]
      exact splitUnsigned_plain valid
  | negated =>
      have minus : isSignEnd '-' = false := by decide
      rw [signed?_eq_none (by simp [minus])]
      exact splitUnsigned_negated valid
  | @compare op gap sign blank signs =>
      have last : (c ++ gap).getLast? ≠ some '<' := by
        intro last
        rcases List.eq_nil_or_concat' gap with rfl | ⟨front, x, rfl⟩
        · rw [List.append_nil, ← List.head?_reverse] at last
          exact absurd (apart.signless _ last) (by decide)
        · rw [← List.append_assoc, List.getLast?_concat] at last
          obtain rfl := Option.some.inj last
          exact absurd (blank '<' (by simp)) (by decide)
      rw [signed?_self signs last]
      simp only [trimEnd_blanks blank apart.blankBack]
      exact checkColumn_map.2 ⟨valid, rfl⟩
  | @like start stop marked =>
      have signless : StopsAt isSignEnd (start.front ++ c ++ stop.back).reverse :=
        Edge.stopsAt_reverse valid.present apart.signless (by decide) start stop
      rw [signed?_eq_none signless]
      exact splitUnsigned_like valid marked

theorem of_splitTrimmed {c s : List Char} {m : Modifier} (split : splitTrimmed s = .ok (c, m)) :
    IsColumn c ∧ KeyText c m s := by
  rw [splitTrimmed_eq] at split
  split at split
  · rename_i column op found
    obtain ⟨valid, rfl, rfl⟩ : IsColumn (trimEnd column) ∧ trimEnd column = c ∧ _ = m := by
      simpa only [checkColumn_map, Prod.mk.injEq] using split
    rcases of_signed? found with ⟨sign, signs, rfl⟩
    rcases exists_gap column with ⟨gap, blank, whole⟩
    refine ⟨valid, ?_⟩
    have text : KeyText (trimEnd column) (.compare op) (trimEnd column ++ gap ++ sign) :=
      .compare blank signs
    rwa [← whole] at text
  · exact of_splitUnsigned split

theorem splitKey_eq_ok {key c : String} {m : Modifier} :
    splitKey key = .ok (c, m) ↔ splitTrimmed (trim key.toList) = .ok (c.toList, m) := by
  unfold splitKey
  cases splitTrimmed (trim key.toList) with
  | error fault => simp
  | ok entry =>
      rcases entry with ⟨column, m'⟩
      simp [← String.toList_inj]

/-- A key that spells a column with a modifier is taken apart into the two, if the column
stands apart from the signs. Whatever a key is taken apart into, without the blanks around
it the key spells just that. -/
theorem keys_split_as_spelled :
    (∀ (c key : String) (m : Modifier), StandsApart c.toList → KeyText c.toList m key.toList →
      splitKey key = .ok (c, m)) ∧
    ∀ (c key : String) (m : Modifier), splitKey key = .ok (c, m) →
      IsColumn c.toList ∧ KeyText c.toList m (trim key.toList) := by
  constructor
  · intro c key m apart text
    rw [splitKey_eq_ok, text.trim_eq apart]
    exact splitTrimmed_spelled apart text
  · intro c key m split
    exact of_splitTrimmed (splitKey_eq_ok.1 split)

theorem keys_split_as_spelled_ends :
    StandsApart "a-b".toList ∧ KeyText "a-b".toList (.like true true true) "-%a-b%-".toList ∧
    splitKey "-%a-b%-" = .ok ("a-b", .like true true true) ∧
    splitKey " a<>=\t" = .ok ("a<", .compare .gte) ∧
    KeyText "a<".toList (.compare .gte) (trim " a<>=\t".toList) := by
  have apart : StandsApart "a-b".toList :=
    { present := by decide
      percent := by decide
      front := by decide
      back := by decide
      blankFront := stopsAt_cons.2 (by decide)
      blankBack := stopsAt_cons.2 (by decide)
      signless := stopsAt_cons.2 (by decide) }
  have text : KeyText "a-b".toList (.like true true true) "-%a-b%-".toList :=
    @KeyText.like _ .negated .negated rfl
  have split : splitKey " a<>=\t" = .ok ("a<", .compare .gte) := splitKey_eq_ok.2 (by rfl)
  rcases keys_split_as_spelled with ⟨read, spelled⟩
  exact ⟨apart, text, read _ _ _ apart text, split, (spelled _ _ _ split).2⟩

end CrossDialect.Shorthand
