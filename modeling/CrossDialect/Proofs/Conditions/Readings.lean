import CrossDialect.Proofs.Conditions.Marks
import CrossDialect.Proofs.Conditions.RoundTrip
import CrossDialect.Proofs.Conditions.Shorthand
import CrossDialect.Proofs.Quoting.Identifiers

/-!
What an accepted text says. A condition is in its text as it is: the column in its own
characters, the operator in its own words or sign, and each operand in the one form that its
text has. The first character of an operand tells literals, numbers and tokens apart from the
rest, the last one a call, and a word that stands for a value is never read as a name.
-/

namespace CrossDialect

open Text

/-! Operators -/

/-- The text in any case, with any gap where it has a space. -/
inductive Text.Loosely : List Char → List Char → Prop where
  | nil : Loosely [] []
  | char {c d s t} (folds : c.toUpper = d.toUpper) : Loosely s t → Loosely (c :: s) (d :: t)
  | gap {gap s t} (all : Gap gap) (some : gap ≠ []) : Loosely s t →
      Loosely (' ' :: s) (gap ++ t)

theorem Text.Loosely.append {s s' t t' : List Char} (front : Loosely s t)
    (behind : Loosely s' t') : Loosely (s ++ s') (t ++ t') := by
  induction front with
  | nil => exact behind
  | char folds _ ih => exact .char folds ih
  | gap all some _ ih =>
      rw [List.append_assoc]
      exact .gap all some ih

theorem Text.Folds.loosely {word text : List Char} (folds : Folds word text) :
    Loosely word text := by
  induction word generalizing text with
  | nil =>
      obtain rfl : text = [] := by simpa [Folds] using folds
      exact .nil
  | cons c word ih =>
      cases text with
      | nil => simp [Folds] at folds
      | cons d text =>
          simp only [Folds, List.map_cons, List.cons.injEq] at folds
          exact .char folds.1.symm (ih folds.2)

/-- An operator as it is written: in its own words or sign, or with the other sign for what
is not equal. -/
inductive Operator.Written : Operator → List Char → Prop where
  | own {op s} : Loosely op.sql.toList s → Written op s
  | unequal : Written .ne "<>".toList

theorem PhraseText.loosely {words : List String} {s : List Char} (phrase : PhraseText words s) :
    Loosely (" ".intercalate words).toList s := by
  induction phrase with
  | last folds => simpa using folds.loosely
  | @more word words text gap s folds all some rest ih =>
      cases rest <;>
      · rw [String.intercalate_cons_cons, String.toList_append, String.toList_append,
          List.append_assoc, List.append_assoc]
        exact folds.loosely.append (.gap all some ih)

theorem OperatorText.written {op : Operator} {s : List Char} (spelled : OperatorText op s) :
    op.Written s := by
  cases spelled with
  | @phrase words _ listed phrase =>
      have own : op.sql = " ".intercalate words := by
        have all : ∀ entry ∈ Grammar.operatorWords,
            entry.1.sql = " ".intercalate entry.2 := by decide +kernel
        exact all _ listed
      exact .own (own ▸ phrase.loosely)
  | @sign sign listed =>
      have all : ∀ entry ∈ Grammar.operatorSigns,
          entry.1.sql = entry.2 ∨ entry = (.ne, "<>") := by decide +kernel
      rcases all _ listed with own | other
      · obtain rfl : op.sql = sign := own
        exact .own (Folds.loosely rfl)
      · obtain ⟨rfl, rfl⟩ := Prod.mk.inj other
        exact .unequal

/-! Operands -/

/-- A reading of an operand's text. What is a word for a value is no name. -/
def Reading (form : Form) (text : List Char) (v : Value) : Prop :=
  Spells form text v ∧ (form = .name → ∀ w, ¬ Spells .word text w)

def Form.ofHead (c : Char) : Form :=
  if c = '\'' then .literal
  else if c = '-' || c.isDigit then .number
  else if Quoting.isMarkHead c then .token
  else .name

def Form.beginning : Form → Form
  | .word | .call => .name
  | form => form

theorem Form.ofHead_of_isWordStart {c : Char} (start : isWordStart c = true) :
    ofHead c = .name := by
  have quote : c ≠ '\'' := ne_of_isWordStart start (by decide)
  have minus : c ≠ '-' := ne_of_isWordStart start (by decide)
  have mark : Quoting.isMarkHead c = false := Quoting.isMarkHead_eq_false start (by decide)
  simp [ofHead, quote, minus, isDigit_of_isWordStart start, mark]

theorem Form.ofHead_of_isDigit {c : Char} (digit : c.isDigit = true) : ofHead c = .number := by
  have quote : c ≠ '\'' := by
    rintro rfl
    exact absurd digit (by decide)
  simp [ofHead, quote, digit]

theorem NameText.ofHead {s : List Char} (name : NameText s) :
    ∃ c t, s = c :: t ∧ Form.ofHead c = .name := by
  have part {s : List Char} (text : PartText s) : ∃ c t, s = c :: t ∧ Form.ofHead c = .name := by
    cases text with
    | star => exact ⟨'*', [], rfl, by decide⟩
    | bare word =>
        rcases word with ⟨start, _⟩
        exact ⟨_, _, rfl, Form.ofHead_of_isWordStart start⟩
    | @quoted c close pair name =>
        refine ⟨c, _, rfl, ?_⟩
        rcases closingQuote?_eq_some pair with ⟨rfl, _⟩ | ⟨rfl, _⟩ | ⟨rfl, _⟩ <;> decide
  cases name with
  | part text => exact part text
  | dot text rest =>
      rcases part text with ⟨c, t, rfl, kind⟩
      exact ⟨c, _, rfl, kind⟩

theorem NameText.getLast? {s : List Char} (name : NameText s) : s.getLast? ≠ some ')' := by
  induction name with
  | part text =>
      cases text with
      | star => decide
      | bare word =>
          intro last
          have name := word.isNameChar ')' (List.mem_of_getLast? last)
          exact absurd name (by decide)
      | @quoted c close pair name =>
          rcases closingQuote?_eq_some pair with ⟨_, rfl⟩ | ⟨_, rfl⟩ | ⟨_, rfl⟩ <;>
            simp [List.getLast?_cons]
  | @dot s t _ rest ih =>
      rcases rest.ofHead with ⟨c, t, rfl, _⟩
      rw [List.getLast?_append_of_ne_nil _ (by simp), List.getLast?_cons_cons]
      exact ih

theorem CallText.getLast? {s : List Char} (call : CallText s) : s.getLast? = some ')' := by
  cases call
  simp [List.getLast?_cons, List.getLast?_append]

theorem CallText.not_name {s : List Char} (call : CallText s) : ¬ NameText s :=
  fun name => name.getLast? call.getLast?

theorem Text.Folds.bareWord {word text : List Char} (folds : Folds word text) (present : word ≠ [])
    (letters : ∀ c ∈ word, isWordStart c.toUpper = true) : BareWord text := by
  have starts := folds.starts letters
  cases text with
  | nil =>
      have empty : word = [] := by simpa [Folds] using folds.symm
      exact absurd empty present
  | cons c text =>
      exact .mk (starts c (by simp)) fun d later =>
        isNameChar_of_isWordStart (starts d (List.mem_cons_of_mem c later))

namespace Spells

variable {form : Form} {text : List Char} {v v' : Value}

theorem bareWord (spells : Spells .word text v) : BareWord text := by
  cases spells with
  | null folds => exact folds.bareWord (by simp) (List.all_eq_true.1 rfl)
  | bool b folds =>
      exact folds.bareWord (by cases b <;> simp) (List.all_eq_true.1 (by cases b <;> rfl))

theorem ofHead (spells : Spells form text v) :
    ∃ c t, text = c :: t ∧ Form.ofHead c = form.beginning := by
  have signed (negative : Bool) {digits : List Char} (numeral : isNumeral digits = true)
      (rest : List Char) :
      ∃ c t, signText negative ++ digits ++ rest = c :: t ∧ Form.ofHead c = .number := by
    rcases isNumeral_iff.1 numeral with ⟨present, all⟩
    rcases List.exists_cons_of_ne_nil present with ⟨d, ds, rfl⟩
    cases negative with
    | true => exact ⟨'-', _, rfl, by decide⟩
    | false => exact ⟨d, _, rfl, Form.ofHead_of_isDigit (all d (by simp))⟩
  cases spells with
  | literal content => exact ⟨'\'', _, rfl, rfl⟩
  | whole negative numeral =>
      have head := signed negative numeral []
      rwa [List.append_nil] at head
  | decimal negative numeral => exact signed negative numeral _
  | question => exact ⟨'?', [], rfl, rfl⟩
  | numbered => exact ⟨'$', _, rfl, rfl⟩
  | named => exact ⟨':', _, rfl, rfl⟩
  | null folds => exact (NameText.part (.bare (null folds).bareWord)).ofHead
  | bool b folds => exact (NameText.part (.bare (bool b folds).bareWord)).ofHead
  | call call =>
      rcases call with ⟨name, _, _⟩
      rcases name.ofHead with ⟨c, t, rfl, kind⟩
      exact ⟨c, _, rfl, kind⟩
  | name name => exact name.ofHead

theorem splitMinus_signText (negative : Bool) {digits : List Char}
    (numeral : isNumeral digits = true) (rest : List Char) :
    Grammar.splitMinus (signText negative ++ digits ++ rest) = (negative, digits ++ rest) := by
  cases negative with
  | true => rfl
  | false =>
      apply Grammar.splitMinus_of_head
      rcases isNumeral_iff.1 numeral with ⟨present, all⟩
      rcases List.exists_cons_of_ne_nil present with ⟨d, ds, rfl⟩
      have digit := all d (by simp)
      have minus : d ≠ '-' := by
        rintro rfl
        exact absurd digit (by decide)
      simpa [signText] using minus

theorem number_eq (spells : Spells .number text v) : Grammar.number text = some (v, []) := by
  cases spells with
  | whole negative numeral value =>
      have sign := splitMinus_signText negative numeral []
      rw [List.append_nil] at sign
      exact Grammar.number_digits sign numeral .nil (ReadAs.numberValue?_int value)
  | @decimal negative whole places numeral numeral' =>
      have sign := splitMinus_signText negative numeral ('.' :: places)
      have digits : digits? (whole ++ '.' :: places) = some (whole, '.' :: places) :=
        digits?_run numeral (by simp)
      have behind := digits?_run numeral' (stopsAt_nil _)
      rw [List.append_nil] at behind
      simp only [Grammar.number, sign, digits, Grammar.fraction, behind]
      rfl

theorem stringLiteral_eq (spells : Spells .literal text v) :
    Grammar.stringLiteral text = some (v, []) := by
  cases spells with
  | literal content =>
      have alone : ([] : List Char).head? ≠ some '\'' := by simp
      simp [Grammar.stringLiteral, Grammar.literalRest_doubled alone content]

theorem value_unique (spells : Spells form text v) (spells' : Spells form text v') : v = v' := by
  cases form with
  | literal => simpa using spells.stringLiteral_eq.symm.trans spells'.stringLiteral_eq
  | number => simpa using spells.number_eq.symm.trans spells'.number_eq
  | token => rw [spells.text_of_token, spells'.text_of_token]
  | word =>
      cases spells with
      | null folds =>
          cases spells' with
          | null => rfl
          | bool b folds' => exact absurd (folds.symm.trans folds') (by cases b <;> decide)
      | bool b folds =>
          cases spells' with
          | null folds' => exact absurd (folds.symm.trans folds') (by cases b <;> decide)
          | bool b' folds' =>
              have same := folds.symm.trans folds'
              cases b <;> cases b' <;> first | rfl | exact absurd same (by decide)
  | call =>
      cases spells
      cases spells'
      rfl
  | name =>
      cases spells
      cases spells'
      rfl

end Spells

namespace Reading

variable {form form' : Form} {text : List Char} {v v' : Value}

theorem call_iff (reading : Reading form text v) (plain : form.beginning = .name) :
    form = .call ↔ CallText text := by
  constructor
  · rintro rfl
    cases reading.1
    assumption
  · intro call
    cases reading.1 with
    | literal | whole | decimal | question | numbered | named => cases plain
    | null folds => exact absurd (.part (.bare (Spells.null folds).bareWord)) call.not_name
    | bool b folds => exact absurd (.part (.bare (Spells.bool b folds).bareWord)) call.not_name
    | call => rfl
    | name name => exact absurd name call.not_name

theorem word_iff (reading : Reading form text v) (plain : form.beginning = .name) :
    form = .word ↔ ∃ w, Spells .word text w := by
  constructor
  · rintro rfl
    exact ⟨v, reading.1⟩
  · rintro ⟨w, word⟩
    cases form with
    | literal | number | token => cases plain
    | word => rfl
    | call =>
        have call := (reading.call_iff plain).1 rfl
        exact absurd (.part (.bare word.bareWord)) call.not_name
    | name => exact absurd word (reading.2 rfl w)

theorem form_unique (reading : Reading form text v) (reading' : Reading form' text v') :
    form = form' := by
  have beginning : form.beginning = form'.beginning := by
    rcases reading.1.ofHead with ⟨c, t, rfl, kind⟩
    rcases reading'.1.ofHead with ⟨c', t', same, kind'⟩
    obtain ⟨rfl, rfl⟩ := List.cons.inj same
    exact kind.symm.trans kind'
  by_cases plain : form.beginning = .name
  · have plain' : form'.beginning = .name := beginning ▸ plain
    have call := (reading.call_iff plain).trans (reading'.call_iff plain').symm
    have word := (reading.word_iff plain).trans (reading'.word_iff plain').symm
    cases form <;> cases form' <;> simp_all [Form.beginning]
  · cases form <;> cases form' <;> simp_all [Form.beginning]

/-- A text has one reading. -/
theorem unique (reading : Reading form text v) (reading' : Reading form' text v') :
    form = form' ∧ v = v' := by
  obtain rfl := reading.form_unique reading'
  exact ⟨rfl, reading.1.value_unique reading'.1⟩

end Reading

namespace Grammar

theorem stopsAt_identPart {s word rest : List Char} (taken : identPart s = some (word, rest))
    (bare : BareWord word) : StopsAt isNameChar rest := by
  cases s with
  | nil => simp [identPart] at taken
  | cons c s =>
      simp only [identPart] at taken
      split at taken
      · rename_i star
        obtain ⟨rfl, rfl⟩ := Prod.mk.inj (Option.some.inj taken)
        cases bare with
        | mk start _ => exact absurd start (by rw [star]; decide)
      split at taken
      · rename_i close pair
        rcases Option.map_eq_some_iff.1 taken with ⟨_, _, same⟩
        obtain ⟨rfl, rfl⟩ := Prod.mk.inj same
        cases bare with
        | mk start _ =>
            rcases closingQuote?_eq_some pair with ⟨rfl, _⟩ | ⟨rfl, _⟩ | ⟨rfl, _⟩ <;>
              exact absurd start (by decide)
      · simp only [bareIdent, Option.ite_none_right_eq_some, Option.some.injEq,
          Prod.mk.injEq] at taken
        rw [← taken.2.2]
        exact stopsAt_dropWhile isNameChar s

/-- A name that is one bare word has no dot in it, so it is its first part. -/
theorem stopsAt_dottedIdent {s word rest : List Char}
    (taken : dottedIdent s = some (word, rest)) (bare : BareWord word) :
    StopsAt isNameChar rest := by
  unfold dottedIdent at taken
  split at taken
  · simp at taken
  rename_i first between part
  obtain ⟨rfl, rfl⟩ := Prod.mk.inj (Option.some.inj taken)
  rcases of_moreParts between with ⟨split, none | ⟨t, more, _⟩⟩
  · rw [none, List.append_nil] at bare
    rw [none, List.nil_append] at split
    rw [← split]
    exact stopsAt_identPart part bare
  · have dot := bare.isNameChar '.' (by simp [more])
    exact absurd dot (by decide)

theorem wordEnds_of_stopsAt {s : List Char} (stops : StopsAt isNameChar s) : wordEnds s = true := by
  refine wordEnds_iff.2 fun c first => ?_
  have other := stops c first
  simp only [isNameChar, Bool.or_eq_false_iff] at other
  exact other.1

theorem literalWord_of_spells {text rest : List Char} {v : Value} (word : Spells .word text v)
    (ends : wordEnds rest = true) : literalWord (text ++ rest) ≠ none := by
  intro none
  simp only [literalWord, Option.orElse_eq_orElse, Option.orElse_eq_or, Option.or_eq_none_iff,
    Option.map_eq_none_iff] at none
  rcases none with ⟨null, yes, no⟩
  cases word with
  | null folds => cases (keyword?_folds folds ends).symm.trans null
  | bool b folds =>
      have read := keyword?_folds folds ends
      cases b with
      | true => cases read.symm.trans yes
      | false => cases read.symm.trans no

/-- A name that is read as an operand is no word for a value: words are tried first, and a
name does not end inside a word. -/
theorem no_word_of_scalar {s rest : List Char} {name : String}
    (taken : scalar s = some (.column name, rest)) (v : Value) :
    ¬ Spells .word name.toList v := by
  intro word
  simp only [scalar, Option.orElse_eq_orElse, Option.orElse_eq_or, Option.or_eq_some_iff] at taken
  rcases taken with literal | ⟨-, number | ⟨-, token | ⟨-, value | ⟨none, call | ⟨-, named⟩⟩⟩⟩⟩
  · rcases of_stringLiteral literal with ⟨_, _, spells⟩
    cases spells
  · rcases of_number number with ⟨_, _, spells⟩
    cases spells
  · rcases of_placeholder token with ⟨_, _, spells⟩
    cases spells
  · rcases of_literalWord value with ⟨_, _, spells⟩
    cases spells
  · rcases Option.map_eq_some_iff.1 call with ⟨_, _, same⟩
    cases (Prod.mk.inj same).1
  · rcases Option.map_eq_some_iff.1 named with ⟨⟨text, left⟩, found, same⟩
    obtain ⟨column, rfl⟩ := Prod.mk.inj same
    obtain rfl := Value.column.inj column
    rw [String.toList_ofList] at word
    have ends := wordEnds_of_stopsAt (stopsAt_dottedIdent found word.bareWord)
    obtain rfl := (of_dottedIdent found).1
    exact literalWord_of_spells word ends none

/-! Every operand of a condition is taken by the reader of operands from some text. -/

def Taken (v : Value) : Prop := ∃ s rest, scalar s = some (v, rest)

theorem taken_moreValues (s : List Char) : ∀ v ∈ (moreValues s).1, Taken v := by
  fun_induction moreValues s with
  | case1 => simp
  | case2 => simp
  | case3 s r comma v rest read vs rest' behind ih =>
      rw [behind] at ih
      simpa using ⟨⟨r, rest, read⟩, ih⟩

theorem taken_valueList {s rest : List Char} {vs : List Value}
    (taken : valueList s = some (vs, rest)) : ∀ v ∈ vs, Taken v := by
  have values (s : List Char) : ∀ v ∈ (values s).1, Taken v := by
    unfold values
    split
    · simp
    · rename_i v rest read
      simpa using ⟨⟨s, rest, read⟩, taken_moreValues rest⟩
  unfold valueList at taken
  split at taken
  · rename_i s
    dsimp only at taken
    split at taken
    · obtain ⟨rfl, -⟩ := Prod.mk.inj (Option.some.inj taken)
      exact values (skipGap s)
    · simp at taken
  · simp at taken

theorem taken_andBounds {s rest : List Char} {vs : List Value}
    (taken : andBounds s = some (vs, rest)) : ∀ v ∈ vs, Taken v := by
  simp only [andBounds, Option.bind_eq_bind, Option.bind_eq_some_iff, Option.pure_def,
    Option.some.injEq, Prod.exists] at taken
  rcases taken with ⟨low, s1, first, s2, -, s3, -, s4, -, high, s5, second, same⟩
  obtain ⟨rfl, -⟩ := Prod.mk.inj same
  simpa using ⟨⟨s, s1, first⟩, ⟨s4, s5, second⟩⟩

theorem taken_operands {op : Operator} {s rest : List Char} {vs : List Value}
    (taken : (Condition.operandsOf op).1 s = some (vs, rest)) : ∀ v ∈ vs, Taken v := by
  unfold Condition.operandsOf at taken
  split at taken
  · obtain ⟨rfl, -⟩ := Prod.mk.inj (Option.some.inj taken)
    simp
  · exact taken_valueList taken
  · simp only [bounds, Option.orElse_eq_orElse, Option.orElse_eq_or, Option.or_eq_some_iff] at taken
    rcases taken with words | ⟨-, listed⟩
    · exact taken_andBounds words
    · exact taken_valueList listed
  · rcases Option.map_eq_some_iff.1 taken with ⟨⟨v, left⟩, read, same⟩
    obtain ⟨rfl, rfl⟩ := Prod.mk.inj same
    simpa using ⟨_, _, read⟩

end Grammar

/-- The operand is the reading of its text, and the only one. -/
def Spelled.Settled (o : Spelled) : Prop :=
  ∀ form v, Reading form o.text v ↔ form = o.form ∧ v = o.value

theorem Spelled.settled {o : Spelled} (reading : Reading o.form o.text o.value) : o.Settled := by
  intro form v
  constructor
  · intro other
    exact other.unique reading
  · rintro ⟨rfl, rfl⟩
    exact reading

namespace Condition

/-- The text is the condition as it stands: its column, its operator and its operands, with
gaps around and between them, blanks behind them and nothing else. -/
inductive Verbatim : Condition → List Char → Prop where
  | mk {column op os gap gap' gap'' opText operands blanks} :
      NameText column ∨ CallText column → op.Written opText →
      OperandsText op.shape os operands → (∀ o ∈ os, o.Settled) →
      Gap gap → Gap gap' → Gap gap'' → (∀ c ∈ blanks, isBlank c = true) →
      Verbatim ⟨String.ofList column, op, os.map Spelled.value⟩
        (gap ++ column ++ gap' ++ opText ++ gap'' ++ operands ++ blanks)

theorem Verbatim.of_text {column s : List Char} {op : Operator} {os : List Spelled}
    (text : ConditionText column op os s) (settled : ∀ o ∈ os, o.Settled) :
    Verbatim ⟨String.ofList column, op, os.map Spelled.value⟩ s := by
  cases text with
  | mk columnText opText operandsText all all' all'' trailing =>
      exact .mk columnText opText.written operandsText settled all all' all'' trailing

theorem settled_of_parseChars {s : List Char} {c : Condition} (parsed : parseChars s = .ok c)
    {os : List Spelled} (values : os.map Spelled.value = c.operands) : ∀ o ∈ os, o.Settled := by
  rcases of_parseChars_eq_ok parsed with ⟨_, _, _, _, -, -, operandsRead, -, -⟩
  intro o member
  refine Spelled.settled ⟨o.spells, ?_⟩
  intro name v word
  have operand : o.value ∈ c.operands := values ▸ List.mem_map_of_mem member
  rcases Grammar.taken_operands operandsRead o.value operand with ⟨_, _, read⟩
  rcases o with ⟨form, text, value, spells⟩
  obtain rfl : form = .name := name
  cases spells with
  | name =>
      refine Grammar.no_word_of_scalar read v ?_
      rwa [String.toList_ofList]

end Condition

/-- A text that is read as a condition is that condition as it stands, and every operand in
it has no other reading than the one that was taken. -/
theorem condition_read_verbatim (text : String) (c : Condition)
    (parsed : Condition.parse text = .ok c) : c.Verbatim text.toList := by
  have read := Condition.parse_eq_ok_iff.1 parsed
  rcases Condition.of_parseChars read with ⟨os, values, spelled⟩
  have verbatim := Condition.Verbatim.of_text spelled (Condition.settled_of_parseChars read values)
  rwa [String.ofList_toList, values] at verbatim

def mixedConditionText : String :=
  "\tCOUNT ( ')' )\r\nnot\t in( 'it''s',-7 , :id,nUll, LOWER(x) ,\"a)\".b ) \u2003"

theorem condition_read_verbatim_mixed :
    ∃ c, Condition.parse mixedConditionText = .ok c ∧ c.column = "COUNT ( ')' )" ∧
      c.op = .notInList ∧
      c.operands.map Value.display =
        ["it's", "-7", ":id", "NULL", "LOWER(x)", "\"a)\".b"] ∧
      c.Verbatim mixedConditionText.toList := by
  rcases exists_ok_of_any (x := Condition.parse mixedConditionText)
    (p := fun c => c.column == "COUNT ( ')' )" && c.op == .notInList &&
      c.operands.map Value.display ==
        ["it's", "-7", ":id", "NULL", "LOWER(x)", "\"a)\".b"])
    (by decide +kernel) with ⟨c, parsed, held⟩
  rw [Bool.and_eq_true, Bool.and_eq_true, beq_iff_eq, beq_iff_eq, beq_iff_eq] at held
  rcases held with ⟨⟨column, op⟩, operands⟩
  exact ⟨c, parsed, column, op, operands, condition_read_verbatim _ _ parsed⟩

end CrossDialect
