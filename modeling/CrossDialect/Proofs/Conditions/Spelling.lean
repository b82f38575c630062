import CrossDialect.Condition.Basic
import CrossDialect.Proofs.Text.Doubled
import CrossDialect.Proofs.Text.Words

/-!
How conditions are spelled. The relations below say which texts spell a name, a call,
an operand or a whole condition, and each reader is shown to take such a text from the
head of its input and to leave the rest. So whatever is read as a condition is made of
the spellings of its parts, and every operand has a form in which it was written.
-/

namespace CrossDialect

open Text

/-- A part of a name. A quoted part may be empty. -/
inductive PartText : List Char → Prop where
  | star : PartText ['*']
  | bare {s : List Char} (word : BareWord s) : PartText s
  | quoted {c close : Char} (pair : closingQuote? c = some close) (name : List Char) :
      PartText (c :: (doubled close name ++ [close]))

inductive NameText : List Char → Prop where
  | part {s} : PartText s → NameText s
  | dot {s t} : PartText s → NameText t → NameText (s ++ '.' :: t)

/-- A text in which every parenthesis outside quotes has its partner. -/
inductive Balanced : List Char → Prop where
  | nil : Balanced []
  | plain {c s} (quote : c ≠ '\'') (opening : c ≠ '(') (closing : c ≠ ')') :
      Balanced s → Balanced (c :: s)
  | quoted {inside s} (plain : '\'' ∉ inside) :
      Balanced s → Balanced ('\'' :: (inside ++ '\'' :: s))
  | group {inner s} : Balanced inner → Balanced s → Balanced ('(' :: (inner ++ ')' :: s))

inductive CallText : List Char → Prop where
  | mk {name gap inner} : NameText name → Gap gap → Balanced inner →
      CallText (name ++ gap ++ '(' :: (inner ++ [')']))

inductive Form where
  | literal
  | number
  | token
  | word
  | call
  | name
  deriving DecidableEq

def signText (negative : Bool) : List Char := if negative then ['-'] else []

inductive Spells : Form → List Char → Value → Prop where
  | literal (content : List Char) :
      Spells .literal ('\'' :: (doubled '\'' content ++ ['\''])) (.text (String.ofList content))
  | whole (negative : Bool) {digits : List Char} {n : Int64} (numeral : isNumeral digits = true)
      (value : n.toInt = if negative then -(digitsValue digits : Int) else digitsValue digits) :
      Spells .number (signText negative ++ digits) (.int n)
  | decimal (negative : Bool) {whole places : List Char} (numeral : isNumeral whole = true)
      (numeral' : isNumeral places = true) :
      Spells .number (signText negative ++ whole ++ '.' :: places)
        (.float (Decimal.toFloat negative (digitsValue (whole ++ places)) (-places.length)))
  | question : Spells .token ['?'] (.text "?")
  | numbered {digits : List Char} (numeral : isNumeral digits = true) :
      Spells .token ('$' :: digits) (.text (String.ofList ('$' :: digits)))
  | named {name : List Char} (word : BareWord name) :
      Spells .token (':' :: name) (.text (String.ofList (':' :: name)))
  | null {text : List Char} (folds : Folds "NULL".toList text) : Spells .word text .null
  | bool (b : Bool) {text : List Char}
      (folds : Folds (if b then "TRUE" else "FALSE").toList text) : Spells .word text (.bool b)
  | call {text : List Char} (call : CallText text) : Spells .call text (.raw (String.ofList text))
  | name {text : List Char} (name : NameText text) :
      Spells .name text (.column (String.ofList text))

structure Spelled where
  form : Form
  text : List Char
  value : Value
  spells : Spells form text value

inductive MoreText : List Spelled → List Char → Prop where
  | nil : MoreText [] []
  | comma {gap gap' os s} (o : Spelled) : Gap gap → Gap gap' → MoreText os s →
      MoreText (o :: os) (gap ++ ',' :: (gap' ++ o.text ++ s))

inductive ListText : List Spelled → List Char → Prop where
  | empty {gap} : Gap gap → ListText [] ('(' :: (gap ++ [')']))
  | items {gap gap' os s} (o : Spelled) : Gap gap → MoreText os s → Gap gap' →
      ListText (o :: os) ('(' :: (gap ++ o.text ++ s ++ gap' ++ [')']))

/-- What an operator takes, as it is written behind the operator. -/
inductive OperandsText : Operator.Shape → List Spelled → List Char → Prop where
  | nothing : OperandsText .nothing [] []
  | one (o : Spelled) : OperandsText .one [o] o.text
  | list {os s} : ListText os s → OperandsText .list os s
  | boundsList {os s} : ListText os s → OperandsText .bounds os s
  | bounds {gap gap' word} (low high : Spelled) : Gap gap → gap ≠ [] → Gap gap' → gap' ≠ [] →
      Folds "AND".toList word →
      OperandsText .bounds [low, high] (low.text ++ gap ++ word ++ gap' ++ high.text)

inductive PhraseText : List String → List Char → Prop where
  | last {word text} : Folds word.toList text → PhraseText [word] text
  | more {word words text gap s} : Folds word.toList text → Gap gap → gap ≠ [] →
      PhraseText words s → PhraseText (word :: words) (text ++ gap ++ s)

inductive OperatorText : Operator → List Char → Prop where
  | phrase {op words s} : (op, words) ∈ Grammar.operatorWords → PhraseText words s →
      OperatorText op s
  | sign {op sign} : (op, sign) ∈ Grammar.operatorSigns → OperatorText op sign.toList

/-- A condition as it is written, with gaps between its parts and blanks behind it. -/
inductive ConditionText : List Char → Operator → List Spelled → List Char → Prop where
  | mk {column op os gap gap' gap'' opText operands blanks} :
      NameText column ∨ CallText column → OperatorText op opText →
      OperandsText op.shape os operands →
      Gap gap → Gap gap' → Gap gap'' → (∀ c ∈ blanks, isBlank c = true) →
      ConditionText column op os
        (gap ++ column ++ gap' ++ opText ++ gap'' ++ operands ++ blanks)

namespace Grammar

theorem of_bareIdent {s read rest : List Char} (taken : bareIdent s = some (read, rest)) :
    s = read ++ rest ∧ BareWord read := by
  cases s with
  | nil => simp [bareIdent] at taken
  | cons c s =>
      simp only [bareIdent, Option.ite_none_right_eq_some, Option.some.injEq,
        Prod.mk.injEq] at taken
      rcases taken with ⟨start, rfl, rfl⟩
      exact ⟨by simp, ⟨start, all_takeWhile isNameChar s⟩⟩

theorem of_identPart {s read rest : List Char} (taken : identPart s = some (read, rest)) :
    s = read ++ rest ∧ PartText read := by
  cases s with
  | nil => simp [identPart] at taken
  | cons c s =>
      simp only [identPart] at taken
      split at taken
      · rename_i star
        obtain ⟨rfl, rfl⟩ := Prod.mk.inj (Option.some.inj taken)
        subst star
        exact ⟨rfl, .star⟩
      · split at taken
        · rename_i close pair
          rcases Option.map_eq_some_iff.1 taken with ⟨⟨inside, left⟩, inner, same⟩
          obtain ⟨rfl, rfl⟩ := Prod.mk.inj same
          rcases of_quotedRest inner with ⟨name, rfl, rfl, _⟩
          exact ⟨rfl, .quoted pair name⟩
        · rcases of_bareIdent taken with ⟨split, word⟩
          exact ⟨split, .bare word⟩

theorem of_moreParts (s : List Char) :
    s = (moreParts s).1 ++ (moreParts s).2 ∧
      ((moreParts s).1 = [] ∨ ∃ t, (moreParts s).1 = '.' :: t ∧ NameText t) := by
  fun_induction moreParts s with
  | case1 => simp
  | case2 r read rest part more rest' behind ih =>
      rcases of_identPart part with ⟨rfl, text⟩
      rw [behind] at ih
      rcases ih with ⟨split, rfl | ⟨t, rfl, name⟩⟩
      · exact ⟨by simp [split], .inr ⟨read, by simp, .part text⟩⟩
      · exact ⟨by simp [split], .inr ⟨read ++ '.' :: t, by simp, .dot text name⟩⟩
  | case3 => simp
  | case4 => simp

theorem of_dottedIdent {s read rest : List Char} (taken : dottedIdent s = some (read, rest)) :
    s = read ++ rest ∧ NameText read := by
  unfold dottedIdent at taken
  split at taken
  · simp at taken
  · rename_i first between part
    obtain ⟨rfl, rfl⟩ := Prod.mk.inj (Option.some.inj taken)
    rcases of_identPart part with ⟨rfl, text⟩
    rcases of_moreParts between with ⟨split, none | ⟨t, some, name⟩⟩
    · refine ⟨by rw [List.append_assoc, ← split], ?_⟩
      rw [none, List.append_nil]
      exact .part text
    · refine ⟨by rw [List.append_assoc, ← split], ?_⟩
      rw [some]
      exact .dot text name

/-! One character of a text in parentheses. -/

section closing

variable (depth : Nat) (s : List Char)

def behind (c : Char) (r : List Char × List Char) : List Char × List Char :=
  (c :: r.1, r.2)

theorem closing_quote (inQuotes : Bool) :
    closing depth inQuotes ('\'' :: s) = (closing depth (!inQuotes) s).map (behind '\'') := by
  simp [closing]
  rfl

theorem closing_quoted {c : Char} (quote : c ≠ '\'') :
    closing depth true (c :: s) = (closing depth true s).map (behind c) := by
  simp [closing, quote]
  rfl

theorem closing_plain {c : Char} (quote : c ≠ '\'') (opening : c ≠ '(') (closes : c ≠ ')') :
    closing depth false (c :: s) = (closing depth false s).map (behind c) := by
  simp [closing, quote, opening, closes]
  rfl

theorem closing_opening :
    closing depth false ('(' :: s) = (closing (depth + 1) false s).map (behind '(') := by
  simp [closing]
  rfl

theorem closing_inner :
    closing (depth + 2) false (')' :: s) = (closing (depth + 1) false s).map (behind ')') := by
  simp [closing]
  rfl

theorem closing_last : closing 1 false (')' :: s) = some ([')'], s) := by
  simp [closing]

end closing

/-- Balanced texts, each with a parenthesis behind it that closes one more level. -/
inductive Closes : Nat → List Char → Prop where
  | last {inner} : Balanced inner → Closes 1 (inner ++ [')'])
  | more {depth inner s} : Balanced inner → Closes (depth + 1) s →
      Closes (depth + 2) (inner ++ ')' :: s)

namespace Closes

variable {depth : Nat} {s : List Char}

theorem plain (closes : Closes depth s) {c : Char} (quote : c ≠ '\'') (opening : c ≠ '(')
    (closing : c ≠ ')') : Closes depth (c :: s) := by
  cases closes with
  | last balanced => exact .last (.plain quote opening closing balanced)
  | more balanced rest => exact .more (.plain quote opening closing balanced) rest

theorem quoted (closes : Closes depth s) {inside : List Char} (plain : '\'' ∉ inside) :
    Closes depth ('\'' :: (inside ++ '\'' :: s)) := by
  cases closes with
  | last balanced =>
      have whole := Closes.last (.quoted plain balanced)
      simpa using whole
  | more balanced rest =>
      have whole := Closes.more (.quoted plain balanced) rest
      simpa using whole

theorem opened (closes : Closes (depth + 2) s) : Closes (depth + 1) ('(' :: s) := by
  cases closes with
  | more balanced rest =>
      cases rest with
      | last balanced' =>
          have whole := Closes.last (.group balanced balanced')
          simpa using whole
      | more balanced' rest =>
          have whole := Closes.more (.group balanced balanced') rest
          simpa using whole

end Closes

/-- Where the reader stands between quotes, the rest of the quoted stretch comes first. -/
def ClosesFrom (depth : Nat) : Bool → List Char → Prop
  | false, s => Closes depth s
  | true, s => ∃ stretch t, '\'' ∉ stretch ∧ s = stretch ++ '\'' :: t ∧ Closes depth t

theorem of_closing {depth : Nat} {inQuotes : Bool} {s read rest : List Char}
    (taken : closing (depth + 1) inQuotes s = some (read, rest)) :
    s = read ++ rest ∧ ClosesFrom (depth + 1) inQuotes read := by
  induction s generalizing depth inQuotes read with
  | nil => simp [closing] at taken
  | cons c s ih =>
      have step {depth' : Nat} {inQuotes' : Bool}
          (next : (closing (depth' + 1) inQuotes' s).map (behind c) = some (read, rest)) :
          ∃ t, read = c :: t ∧ s = t ++ rest ∧ ClosesFrom (depth' + 1) inQuotes' t := by
        rcases Option.map_eq_some_iff.1 next with ⟨⟨t, left⟩, found, same⟩
        obtain ⟨rfl, rfl⟩ := Prod.mk.inj same
        rcases ih found with ⟨split, closes⟩
        exact ⟨t, rfl, split, closes⟩
      by_cases quote : c = '\''
      · subst quote
        rw [closing_quote] at taken
        rcases step taken with ⟨t, rfl, rfl, closes⟩
        refine ⟨rfl, ?_⟩
        cases inQuotes with
        | false =>
            rcases closes with ⟨stretch, t, plain, rfl, closes⟩
            exact Closes.quoted closes plain
        | true => exact ⟨[], t, by simp, rfl, closes⟩
      cases inQuotes with
      | true =>
          rw [closing_quoted _ _ quote] at taken
          rcases step taken with ⟨t, rfl, rfl, stretch, t', plain, rfl, closes⟩
          refine ⟨rfl, c :: stretch, t', ?_, rfl, closes⟩
          intro member
          rcases List.mem_cons.1 member with same | later
          · exact quote same.symm
          · exact plain later
      | false =>
          by_cases opening : c = '('
          · subst opening
            rw [closing_opening] at taken
            rcases step taken with ⟨t, rfl, rfl, closes⟩
            exact ⟨rfl, Closes.opened closes⟩
          by_cases closes : c = ')'
          · subst closes
            cases depth with
            | zero =>
                rw [closing_last] at taken
                obtain ⟨rfl, rfl⟩ := Prod.mk.inj (Option.some.inj taken)
                exact ⟨rfl, .last .nil⟩
            | succ depth =>
                rw [closing_inner] at taken
                rcases step taken with ⟨t, rfl, rfl, closes⟩
                exact ⟨rfl, .more .nil closes⟩
          · rw [closing_plain _ _ quote opening closes] at taken
            rcases step taken with ⟨t, rfl, rfl, rest⟩
            exact ⟨rfl, Closes.plain rest quote opening closes⟩

theorem of_balancedParens {s read rest : List Char}
    (taken : balancedParens s = some (read, rest)) :
    s = read ++ rest ∧ ∃ inner, Balanced inner ∧ read = '(' :: (inner ++ [')']) := by
  cases s with
  | nil => simp [balancedParens] at taken
  | cons c s =>
      simp only [balancedParens, Option.ite_none_right_eq_some] at taken
      rcases taken with ⟨rfl, taken⟩
      rcases Option.map_eq_some_iff.1 taken with ⟨⟨t, left⟩, found, same⟩
      obtain ⟨rfl, rfl⟩ := Prod.mk.inj same
      rcases of_closing found with ⟨rfl, closes⟩
      cases closes with
      | last balanced => exact ⟨rfl, _, balanced, rfl⟩

theorem of_functionCall {s read rest : List Char} (taken : functionCall s = some (read, rest)) :
    s = read ++ rest ∧ CallText read := by
  unfold functionCall at taken
  split at taken
  · simp at taken
  · rename_i name between found
    rcases Option.map_eq_some_iff.1 taken with ⟨⟨arguments, left⟩, parens, same⟩
    obtain ⟨rfl, rfl⟩ := Prod.mk.inj same
    rcases of_dottedIdent found with ⟨rfl, named⟩
    rcases of_balancedParens parens with ⟨split, inner, balanced, rfl⟩
    have gap : Gap (between.takeWhile isGap) := all_takeWhile isGap between
    have whole : between = between.takeWhile isGap ++ skipGap between :=
      List.takeWhile_append_dropWhile.symm
    refine ⟨?_, .mk named gap balanced⟩
    rw [List.append_assoc, List.append_assoc, ← split, ← whole]

theorem of_stringLiteral {s rest : List Char} {v : Value}
    (taken : stringLiteral s = some (v, rest)) :
    ∃ text, s = text ++ rest ∧ Spells .literal text v := by
  cases s with
  | nil => simp [stringLiteral] at taken
  | cons c s =>
      simp only [stringLiteral, Option.ite_none_right_eq_some] at taken
      rcases taken with ⟨rfl, taken⟩
      rcases Option.map_eq_some_iff.1 taken with ⟨⟨content, left⟩, found, same⟩
      obtain ⟨rfl, rfl⟩ := Prod.mk.inj same
      obtain rfl := of_literalRest found
      exact ⟨_, by simp, .literal content⟩

theorem append_splitMinus (s : List Char) :
    s = signText (splitMinus s).1 ++ (splitMinus s).2 := by
  unfold splitMinus
  split <;> rfl

theorem of_fraction {s rest : List Char} {places : Option (List Char)}
    (taken : fraction s = (places, rest)) :
    places = none ∧ s = rest ∨
      ∃ ds, places = some ds ∧ isNumeral ds = true ∧ s = '.' :: (ds ++ rest) := by
  unfold fraction at taken
  split at taken
  · split at taken
    · rename_i r ds left found
      obtain ⟨rfl, rfl⟩ := Prod.mk.inj taken
      rcases of_digits? found with ⟨numeral, rfl⟩
      exact .inr ⟨ds, rfl, numeral, rfl⟩
    · obtain ⟨rfl, rfl⟩ := Prod.mk.inj taken
      exact .inl ⟨rfl, rfl⟩
  · obtain ⟨rfl, rfl⟩ := Prod.mk.inj taken
    exact .inl ⟨rfl, rfl⟩

theorem spells_whole {negative : Bool} {digits : List Char} {v : Value}
    (numeral : isNumeral digits = true) (value : numberValue? negative digits none = some v) :
    Spells .number (signText negative ++ digits) v := by
  simp only [numberValue?, Option.ite_none_right_eq_some, Option.some.injEq] at value
  rcases value with ⟨range, rfl⟩
  have least : Int64.minValue.toInt = -9223372036854775808 := rfl
  have greatest : Int64.maxValue.toInt = 9223372036854775807 := rfl
  exact .whole negative numeral (Int64.toInt_ofInt_of_le (by omega) (by omega))

theorem of_number {s rest : List Char} {v : Value} (taken : number s = some (v, rest)) :
    ∃ text, s = text ++ rest ∧ Spells .number text v := by
  have sign := append_splitMinus s
  rcases cut : splitMinus s with ⟨negative, body⟩
  simp only [number, cut] at taken sign
  split at taken
  · simp at taken
  · rename_i whole between found
    rcases tail : fraction between with ⟨places, left⟩
    simp only [tail, Option.ite_none_right_eq_some] at taken
    rcases Option.map_eq_some_iff.1 taken.2 with ⟨v', value, same⟩
    obtain ⟨rfl, rfl⟩ := Prod.mk.inj same
    rcases of_digits? found with ⟨numeral, rfl⟩
    rcases of_fraction tail with ⟨rfl, rfl⟩ | ⟨ds, rfl, digits, rfl⟩
    · exact ⟨_, by rw [sign, List.append_assoc], spells_whole numeral value⟩
    · obtain rfl := Option.some.inj value
      exact ⟨_, by simp [sign], .decimal negative numeral digits⟩

theorem of_placeholder {s rest : List Char} {v : Value}
    (taken : placeholder s = some (v, rest)) :
    ∃ text, s = text ++ rest ∧ Spells .token text v := by
  unfold placeholder at taken
  split at taken
  · obtain ⟨rfl, rfl⟩ := Prod.mk.inj (Option.some.inj taken)
    exact ⟨['?'], rfl, .question⟩
  · rcases Option.map_eq_some_iff.1 taken with ⟨⟨ds, left⟩, found, same⟩
    obtain ⟨rfl, rfl⟩ := Prod.mk.inj same
    rcases of_digits? found with ⟨numeral, rfl⟩
    exact ⟨'$' :: ds, rfl, .numbered numeral⟩
  · rcases Option.map_eq_some_iff.1 taken with ⟨⟨name, left⟩, found, same⟩
    obtain ⟨rfl, rfl⟩ := Prod.mk.inj same
    rcases of_bareIdent found with ⟨rfl, word⟩
    exact ⟨':' :: name, rfl, .named word⟩
  · simp at taken

theorem of_literalWord {s rest : List Char} {v : Value}
    (taken : literalWord s = some (v, rest)) :
    ∃ text, s = text ++ rest ∧ Spells .word text v := by
  simp only [literalWord, Option.orElse_eq_orElse, Option.orElse_eq_or,
    Option.or_eq_some_iff] at taken
  rcases taken with null | ⟨-, yes | ⟨-, no⟩⟩
  · rcases Option.map_eq_some_iff.1 null with ⟨left, found, same⟩
    obtain ⟨rfl, rfl⟩ := Prod.mk.inj same
    rcases of_keyword? found with ⟨text, folds, rfl⟩
    exact ⟨text, rfl, .null folds⟩
  · rcases Option.map_eq_some_iff.1 yes with ⟨left, found, same⟩
    obtain ⟨rfl, rfl⟩ := Prod.mk.inj same
    rcases of_keyword? found with ⟨text, folds, rfl⟩
    exact ⟨text, rfl, .bool true folds⟩
  · rcases Option.map_eq_some_iff.1 no with ⟨left, found, same⟩
    obtain ⟨rfl, rfl⟩ := Prod.mk.inj same
    rcases of_keyword? found with ⟨text, folds, rfl⟩
    exact ⟨text, rfl, .bool false folds⟩

/-- Whatever is read as an operand was written in one of the forms. -/
theorem of_scalar {s rest : List Char} {v : Value} (taken : scalar s = some (v, rest)) :
    ∃ o : Spelled, o.value = v ∧ s = o.text ++ rest := by
  simp only [scalar, Option.orElse_eq_orElse, Option.orElse_eq_or, Option.or_eq_some_iff] at taken
  rcases taken with literal | ⟨-, number | ⟨-, token | ⟨-, word | ⟨-, call | ⟨-, name⟩⟩⟩⟩⟩
  · rcases of_stringLiteral literal with ⟨text, split, spells⟩
    exact ⟨⟨_, text, v, spells⟩, rfl, split⟩
  · rcases of_number number with ⟨text, split, spells⟩
    exact ⟨⟨_, text, v, spells⟩, rfl, split⟩
  · rcases of_placeholder token with ⟨text, split, spells⟩
    exact ⟨⟨_, text, v, spells⟩, rfl, split⟩
  · rcases of_literalWord word with ⟨text, split, spells⟩
    exact ⟨⟨_, text, v, spells⟩, rfl, split⟩
  · rcases Option.map_eq_some_iff.1 call with ⟨⟨text, left⟩, found, same⟩
    obtain ⟨rfl, rfl⟩ := Prod.mk.inj same
    rcases of_functionCall found with ⟨split, spells⟩
    exact ⟨⟨_, text, _, .call spells⟩, rfl, split⟩
  · rcases Option.map_eq_some_iff.1 name with ⟨⟨text, left⟩, found, same⟩
    obtain ⟨rfl, rfl⟩ := Prod.mk.inj same
    rcases of_dottedIdent found with ⟨split, spells⟩
    exact ⟨⟨_, text, _, .name spells⟩, rfl, split⟩

theorem of_afterComma? {s rest : List Char} (taken : afterComma? s = some rest) :
    ∃ gap gap', Gap gap ∧ Gap gap' ∧ s = gap ++ ',' :: (gap' ++ rest) := by
  unfold afterComma? at taken
  split at taken
  · rename_i r comma
    obtain rfl := Option.some.inj taken
    rcases append_skipGap s with ⟨gap, all, split⟩
    rcases append_skipGap r with ⟨gap', all', split'⟩
    rw [comma] at split
    exact ⟨gap, gap', all, all', by rw [split, ← split']⟩
  · simp at taken

theorem of_moreValues (s : List Char) :
    ∃ os text, os.map Spelled.value = (moreValues s).1 ∧ s = text ++ (moreValues s).2 ∧
      MoreText os text := by
  fun_induction moreValues s with
  | case1 => exact ⟨[], [], rfl, rfl, .nil⟩
  | case2 => exact ⟨[], [], rfl, rfl, .nil⟩
  | case3 s r comma v rest read vs rest' behind ih =>
      rcases of_afterComma? comma with ⟨gap, gap', all, all', rfl⟩
      rcases of_scalar read with ⟨o, rfl, rfl⟩
      rw [behind] at ih
      rcases ih with ⟨os, text, rfl, split, more⟩
      exact ⟨o :: os, _, rfl, by simp [split], .comma o all all' more⟩

theorem of_values (s : List Char) :
    (values s = ([], s)) ∨ ∃ o os more, (values s).1 = (o :: os).map Spelled.value ∧
      s = o.text ++ more ++ (values s).2 ∧ MoreText os more := by
  unfold values
  split
  · exact .inl rfl
  · rename_i v rest read
    rcases of_scalar read with ⟨o, rfl, rfl⟩
    rcases of_moreValues rest with ⟨os, more, listed, split, spelled⟩
    exact .inr ⟨o, os, more, by simp [listed], by rw [List.append_assoc, ← split], spelled⟩

theorem of_valueList {s rest : List Char} {vs : List Value}
    (taken : valueList s = some (vs, rest)) :
    ∃ os text, os.map Spelled.value = vs ∧ s = text ++ rest ∧ ListText os text := by
  unfold valueList at taken
  split at taken
  · rename_i s
    split at taken
    rename_i listed left read
    split at taken
    · rename_i closing
      obtain ⟨rfl, rfl⟩ := Prod.mk.inj (Option.some.inj taken)
      rcases append_skipGap s with ⟨gap, all, split⟩
      rcases append_skipGap left with ⟨gap', all', split'⟩
      rw [closing] at split'
      rcases of_values (skipGap s) with none | ⟨o, os, more, values, items, spelled⟩
      · -- without operands both gaps lie between the parentheses
        obtain ⟨rfl, rfl⟩ := Prod.mk.inj (none.symm.trans read)
        refine ⟨[], _, rfl, ?_, .empty (all.append all')⟩
        rw [split, split']
        simp
      · rw [read] at values items
        refine ⟨o :: os, _, values.symm, ?_, .items o all spelled all'⟩
        rw [split, items, split']
        simp
    · simp at taken
  · simp at taken

theorem of_andBounds {s rest : List Char} {vs : List Value}
    (taken : andBounds s = some (vs, rest)) :
    ∃ os text, os.map Spelled.value = vs ∧ s = text ++ rest ∧ OperandsText .bounds os text := by
  simp only [andBounds, Option.bind_eq_bind, Option.bind_eq_some_iff, Option.pure_def,
    Option.some.injEq, Prod.exists] at taken
  rcases taken with ⟨low, s1, first, s2, gap, s3, word, s4, gap', high, s5, second, same⟩
  obtain ⟨rfl, rfl⟩ := Prod.mk.inj same
  rcases of_scalar first with ⟨o, rfl, rfl⟩
  rcases of_gap? gap with ⟨g, all, some, rfl⟩
  rcases of_keyword? word with ⟨text, folds, rfl⟩
  rcases of_gap? gap' with ⟨g', all', some', rfl⟩
  rcases of_scalar second with ⟨o', rfl, rfl⟩
  exact ⟨[o, o'], _, rfl, by simp, .bounds o o' all some all' some' folds⟩

theorem of_phrase {words : List String} {s rest : List Char} (present : words ≠ [])
    (taken : phrase words s = some rest) : ∃ text, s = text ++ rest ∧ PhraseText words text := by
  induction words generalizing s with
  | nil => exact absurd rfl present
  | cons word words ih =>
      cases words with
      | nil =>
          rcases of_keyword? taken with ⟨text, folds, rfl⟩
          exact ⟨text, rfl, .last folds⟩
      | cons next words =>
          simp only [phrase, Option.bind_eq_some_iff] at taken
          rcases taken with ⟨behindGap, ⟨behindWord, found, gap⟩, others⟩
          rcases of_keyword? found with ⟨text, folds, rfl⟩
          rcases of_gap? gap with ⟨g, all, some, rfl⟩
          rcases ih (by simp) others with ⟨t, rfl, phrase⟩
          exact ⟨_, by simp, .more folds all some phrase⟩

theorem of_operator {s rest : List Char} {op : Operator} (taken : operator s = some (op, rest)) :
    ∃ text, s = text ++ rest ∧ OperatorText op text := by
  simp only [operator, Option.orElse_eq_orElse, Option.orElse_eq_or, Option.or_eq_some_iff] at taken
  rcases taken with words | ⟨-, sign⟩
  · rcases List.exists_of_findSome?_eq_some words with ⟨⟨op', ws⟩, listed, found⟩
    rcases Option.map_eq_some_iff.1 found with ⟨left, read, same⟩
    obtain ⟨rfl, rfl⟩ := Prod.mk.inj same
    have present : ws ≠ [] := by
      rintro rfl
      simp [operatorWords] at listed
    rcases of_phrase present read with ⟨text, rfl, spelled⟩
    exact ⟨text, rfl, .phrase listed spelled⟩
  · rcases List.exists_of_findSome?_eq_some sign with ⟨⟨op', lead⟩, listed, found⟩
    rcases Option.map_eq_some_iff.1 found with ⟨left, read, same⟩
    obtain ⟨rfl, rfl⟩ := Prod.mk.inj same
    exact ⟨lead.toList, of_after? read, .sign listed⟩

theorem of_column {s read rest : List Char} (taken : column s = some (read, rest)) :
    s = read ++ rest ∧ (NameText read ∨ CallText read) := by
  simp only [column, Option.orElse_eq_orElse, Option.orElse_eq_or, Option.or_eq_some_iff] at taken
  rcases taken with call | ⟨-, name⟩
  · rcases of_functionCall call with ⟨split, spelled⟩
    exact ⟨split, .inr spelled⟩
  · rcases of_dottedIdent name with ⟨split, spelled⟩
    exact ⟨split, .inl spelled⟩

theorem of_operands {op : Operator} {s rest : List Char} {vs : List Value}
    (taken : (Condition.operandsOf op).1 s = some (vs, rest)) :
    ∃ os gap text, os.map Spelled.value = vs ∧ Gap gap ∧ s = gap ++ text ++ rest ∧
      OperandsText op.shape os text := by
  unfold Condition.operandsOf at taken
  rcases append_skipGap s with ⟨gap, all, split⟩
  cases shape : op.shape with
  | nothing =>
      simp only [shape, Option.some.injEq, Prod.mk.injEq] at taken
      rcases taken with ⟨rfl, rfl⟩
      exact ⟨[], [], [], rfl, by simp [Gap], rfl, .nothing⟩
  | one =>
      simp only [shape] at taken
      rcases Option.map_eq_some_iff.1 taken with ⟨⟨v, left⟩, read, same⟩
      obtain ⟨rfl, rfl⟩ := Prod.mk.inj same
      rcases of_scalar read with ⟨o, rfl, rest⟩
      exact ⟨[o], gap, o.text, rfl, all, by rw [List.append_assoc, ← rest, ← split], .one o⟩
  | bounds =>
      simp only [shape] at taken
      simp only [bounds, Option.orElse_eq_orElse, Option.orElse_eq_or,
        Option.or_eq_some_iff] at taken
      rcases taken with words | ⟨-, listed⟩
      · rcases of_andBounds words with ⟨os, text, values, rest, spelled⟩
        exact ⟨os, gap, text, values, all, by rw [List.append_assoc, ← rest, ← split], spelled⟩
      · rcases of_valueList listed with ⟨os, text, values, rest, spelled⟩
        exact ⟨os, gap, text, values, all, by rw [List.append_assoc, ← rest, ← split],
          .boundsList spelled⟩
  | list =>
      simp only [shape] at taken
      rcases of_valueList taken with ⟨os, text, values, rest, spelled⟩
      exact ⟨os, gap, text, values, all, by rw [List.append_assoc, ← rest, ← split],
        .list spelled⟩

end Grammar

theorem Text.isBlank_of_trim {s : List Char} (empty : trim s = []) :
    ∀ c ∈ s, isBlank c = true := by
  rw [trim, trimEnd, List.reverse_eq_nil_iff] at empty
  have inside : ∀ c ∈ trimStart s, isBlank c = true := by
    intro c member
    exact all_of_dropWhile empty c (List.mem_reverse.2 member)
  intro c member
  rw [← List.takeWhile_append_dropWhile (p := isBlank) (l := s)] at member
  rcases List.mem_append.1 member with front | behind
  · exact all_takeWhile isBlank s c front
  · exact inside c behind

namespace Condition

theorem parse_eq_ok_iff {text : String} {c : Condition} :
    parse text = .ok c ↔ parseChars text.toList = .ok c := by
  unfold parse
  cases parseChars text.toList with
  | error fault => exact ⟨nofun, nofun⟩
  | ok c' => exact ⟨fun same => by cases same; rfl, fun same => by cases same; rfl⟩

theorem of_parseChars_eq_ok {s : List Char} {c : Condition} (parsed : parseChars s = .ok c) :
    ∃ column behindColumn behindOp blanks,
      Grammar.column (skipGap s) = some (column, behindColumn) ∧
      Grammar.operator (skipGap behindColumn) = some (c.op, behindOp) ∧
      (operandsOf c.op).1 behindOp = some (c.operands, blanks) ∧
      trim blanks = [] ∧ c.column = String.ofList column := by
  unfold parseChars at parsed
  split at parsed
  · simp at parsed
  rename_i column behindColumn columnRead
  dsimp only at parsed
  split at parsed
  · simp at parsed
  rename_i op behindOp opRead
  split at parsed
  · simp at parsed
  rename_i operands blanks operandsRead
  split at parsed
  · rename_i blank
    obtain rfl := Except.ok.inj parsed
    exact ⟨column, behindColumn, behindOp, blanks, columnRead, opRead, operandsRead,
      List.isEmpty_iff.1 blank, rfl⟩
  · simp at parsed

/-- Whatever is read as a condition is spelled as one, with the operands it has. -/
theorem of_parseChars {s : List Char} {c : Condition} (parsed : parseChars s = .ok c) :
    ∃ os, os.map Spelled.value = c.operands ∧ ConditionText c.column.toList c.op os s := by
  rcases of_parseChars_eq_ok parsed with
    ⟨column, behindColumn, behindOp, blanks, columnRead, opRead, operandsRead, blank, named⟩
  rcases append_skipGap s with ⟨gap, all, split⟩
  rcases append_skipGap behindColumn with ⟨gap', all', split'⟩
  rcases Grammar.of_column columnRead with ⟨columnSplit, columnText⟩
  rcases Grammar.of_operator opRead with ⟨opText, opSplit, spelled⟩
  rcases Grammar.of_operands operandsRead with
    ⟨os, gap'', text, values, all'', rest, operandsText⟩
  have trailing := isBlank_of_trim blank
  refine ⟨os, values, ?_⟩
  have whole := ConditionText.mk columnText spelled operandsText all all' all'' trailing
  rw [split, columnSplit, split', opSplit, rest, named, String.toList_ofList]
  simpa using whole

end Condition

end CrossDialect
