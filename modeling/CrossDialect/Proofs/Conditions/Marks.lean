import CrossDialect.Proofs.Conditions.Operands
import CrossDialect.Proofs.Conditions.Spelling
import CrossDialect.Proofs.Quoting.Literals
import CrossDialect.Proofs.Quoting.Names

/-!
Operands of a condition keep the form in which they were written. A token that belongs
to the column is written as a placeholder of the dialect, and nothing else is, except
for string literals that hold such a token. All other literals, and tokens of another
name, are written as literals of the string that was given.
-/

namespace CrossDialect

open Text

def Dialect.IsMark (d : Dialect) (text : String) : Prop :=
  match d.profile.placeholder with
  | .positional => text = "?"
  | .numbered => ∃ digits, isNumeral digits = true ∧ text.toList = '$' :: digits
  | .named => ∃ name, name ≠ [] ∧ (∀ c ∈ name, isNameChar c = true) ∧ text.toList = ':' :: name

/-- Tokens that stand for a value of the column: a question mark, a dollar sign and a
number, or a colon and the column, as it is or in the letters of a placeholder. -/
def Belongs (column : String) (token : List Char) : Prop :=
  token = ['?'] ∨ (∃ digits, isNumeral digits = true ∧ token = '$' :: digits) ∨
    token = ':' :: column.toList ∨ token = ':' :: (Placeholder.nameFor column).toList

namespace Placeholder

theorem isToken_iff (s column : String) :
    isToken s (some column) = true ↔ Belongs column s.toList := by
  unfold isToken style? Belongs
  rw [nameFor, String.toList_ofList, Option.map_some]
  generalize s.toList = token
  unfold styleOf
  split
  · simp
  · rename_i digits
    simp
  · rename_i name
    simp [matchesColumn]
  · rename_i question dollar colon
    constructor
    · intro wrong
      exact absurd wrong (by simp)
    · rintro (rfl | ⟨digits, _, rfl⟩ | rfl | rfl)
      · exact absurd rfl question
      · exact absurd rfl (dollar digits)
      · exact absurd rfl (colon _)
      · exact absurd rfl (colon _)

theorem nameFor_ne_nil (column : String) : (nameFor column).toList ≠ [] := by
  rw [nameFor, String.toList_ofList]
  unfold nameChars
  split
  · simp
  · rename_i present
    simpa using present

theorem isNameChar_nameFor (column : String) :
    ∀ c ∈ (nameFor column).toList, isNameChar c = true := by
  rw [nameFor, String.toList_ofList]
  unfold nameChars
  split
  · exact List.all_eq_true.1 rfl
  · intro c member
    rcases List.mem_map.1 member with ⟨x, _, rfl⟩
    split
    · rename_i letter
      simp [isNameChar, isWordChar, letter]
    · decide

end Placeholder

namespace Dialect

variable {d : Dialect} {text : String}

theorem not_isMark (plain : StopsAt Quoting.isMarkHead text.toList) : ¬ d.IsMark text := by
  intro mark
  unfold IsMark at mark
  split at mark
  · subst mark
    simp [Quoting.isMarkHead] at plain
  · rcases mark with ⟨digits, _, same⟩
    rw [same] at plain
    simp [Quoting.isMarkHead] at plain
  · rcases mark with ⟨name, _, _, same⟩
    rw [same] at plain
    simp [Quoting.isMarkHead] at plain

theorem isNameChar_numbered {base : List Char} (all : ∀ c ∈ base, isNameChar c = true) (n : Nat) :
    ∀ c ∈ base ++ '_' :: (Nat.repr n).toList, isNameChar c = true := by
  intro c member
  rcases List.mem_append.1 member with front | behind
  · exact all c front
  rcases List.mem_cons.1 behind with rfl | digit
  · decide
  · have numeral := (isNumeral_iff.1 (isNumeral_repr n)).2 c digit
    simp [isNameChar, isWordChar, Char.isAlphanum, numeral]

theorem isMark_next (d : Dialect) (q : Pass) (column : String) :
    d.IsMark (q.next d.profile.placeholder (some column)).1 := by
  unfold IsMark
  split
  · rename_i own
    rw [own]
    rfl
  · rename_i own
    rw [own]
    exact ⟨_, isNumeral_repr (q.counter + 1), by simp [Pass.next]⟩
  · rename_i own
    rw [own]
    have letters := Placeholder.isNameChar_nameFor column
    have present := Placeholder.nameFor_ne_nil column
    simp only [Pass.next, Pass.claim, Option.getD_some]
    split
    · exact ⟨_, present, letters, by simp⟩
    · exact ⟨_, by simp, isNameChar_numbered letters _, by simp; rfl⟩

end Dialect

/-- An operand of a condition and the text that a pass writes for it. -/
structure Kept (d : Dialect) (column : String) (o : Spelled) (shown : String) : Prop where
  /-- Apart from literals, it is the tokens of the column that become placeholders. -/
  mark : o.form ≠ .literal → (d.IsMark shown ↔ o.form = .token ∧ Belongs column o.text)
  /-- A literal keeps its string, unless that string is a token of the column. -/
  literal : o.form = .literal → ∀ content, o.value = .text content →
    ¬ Belongs column content.toList → d.Denotes shown content ∧ ¬ d.IsMark shown
  /-- A token of another name is a string. -/
  foreign : o.form = .token → ¬ Belongs column o.text → d.Denotes shown (String.ofList o.text)

variable {d : Dialect} {column : String} {q : Pass}

theorem write_data {s : String} (data : ¬ Belongs column s.toList) :
    (q.write (.ofDialect d) (.text s) (some column)).1 = (Target.ofDialect d).quoteString s := by
  have plain : Placeholder.isToken s (some column) = false := by
    rw [← Bool.not_eq_true, Placeholder.isToken_iff]
    exact data
  simp [Pass.write, plain]

theorem not_isMark_quoteString (s : String) :
    ¬ d.IsMark ((Target.ofDialect d).quoteString s) := by
  apply Dialect.not_isMark
  simp [Target.quoteString, Quoting.isMarkHead]

theorem Spells.text_of_token {text : List Char} {v : Value} (spells : Spells .token text v) :
    v = .text (String.ofList text) := by
  cases spells with
  | question => rfl
  | numbered numeral => rfl
  | named word => rfl

theorem Spells.isMark {text : List Char} {v : Value} (spells : Spells .token text v)
    (own : Placeholder.styleOf text (some column.toList) = some d.profile.placeholder) :
    d.IsMark (String.ofList text) := by
  unfold Dialect.IsMark
  cases spells with
  | question =>
      have style : PlaceholderStyle.positional = d.profile.placeholder := by
        simpa [Placeholder.styleOf] using own
      rw [← style]
  | numbered numeral =>
      have style : PlaceholderStyle.numbered = d.profile.placeholder := by
        simpa [Placeholder.styleOf, numeral] using own
      rw [← style]
      exact ⟨_, numeral, by simp⟩
  | named word =>
      have style : PlaceholderStyle.named = d.profile.placeholder := by
        simp only [Placeholder.styleOf, Option.ite_none_right_eq_some] at own
        exact Option.some.inj own.2
      rw [← style]
      exact ⟨_, word.ne_nil, word.isNameChar, by simp⟩

theorem isMark_write {text : List Char} {v : Value} (spells : Spells .token text v)
    (belongs : Belongs column text) :
    d.IsMark (q.write (.ofDialect d) v (some column)).1 := by
  obtain rfl := spells.text_of_token
  have token : Placeholder.isToken (String.ofList text) (some column) = true := by
    rw [Placeholder.isToken_iff, String.toList_ofList]
    exact belongs
  simp only [Pass.write, token, ↓reduceIte, Pass.translate]
  split
  · rename_i none
    rw [Placeholder.isToken, none] at token
    exact absurd token (by simp)
  · rename_i style some
    split
    · rename_i own
      have styled := some
      rw [Placeholder.style?, String.toList_ofList, Option.map_some, own] at styled
      exact spells.isMark styled
    · exact d.isMark_next q column

theorem kept_token {o : Spelled} (form : o.form = .token) :
    Kept d column o (q.write (.ofDialect d) o.value (some column)).1 := by
  have spells := o.spells
  rw [form] at spells
  have value := spells.text_of_token
  have unquoted : o.form ≠ .literal := by
    simp [form]
  by_cases belongs : Belongs column o.text
  · refine ⟨?_, fun literal => absurd literal unquoted, ?_⟩
    · intro _
      exact iff_of_true (isMark_write spells belongs) ⟨form, belongs⟩
    · intro _ other
      exact absurd belongs other
  · have data : ¬ Belongs column (String.ofList o.text).toList := by
      rwa [String.toList_ofList]
    rw [value, write_data data]
    refine ⟨?_, fun literal => absurd literal unquoted, ?_⟩
    · intro _
      exact iff_of_false (not_isMark_quoteString _) fun own => belongs own.2
    · intro _ _
      exact d.denotes_quoteString _

theorem kept_literal {o : Spelled} (form : o.form = .literal) :
    Kept d column o (q.write (.ofDialect d) o.value (some column)).1 := by
  refine ⟨fun other => absurd form other, ?_, ?_⟩
  · intro _ content value other
    rw [value, write_data other]
    exact ⟨d.denotes_quoteString content, not_isMark_quoteString content⟩
  · intro token
    rw [form] at token
    exact Form.noConfusion token

namespace Decimal

/-- The characters of numbers that are written without an exponent. -/
def IsPlace (c : Char) : Prop := c.isDigit = true ∨ c = '.'

theorem isPlace_positional (keepsPoint : Bool) {digits : List Char}
    (all : ∀ c ∈ digits, c.isDigit = true) (exponent : Int) :
    ∀ c ∈ positional keepsPoint digits exponent, IsPlace c := by
  have zeros (n : Nat) : ∀ c ∈ List.replicate n '0', IsPlace c := by
    intro c member
    obtain rfl := (List.mem_replicate.1 member).2
    exact .inl rfl
  have given : ∀ c ∈ digits, IsPlace c := fun c member => .inl (all c member)
  intro c member
  unfold positional at member
  dsimp only at member
  split at member
  · rcases List.mem_append.1 member with front | tail
    · rcases List.mem_append.1 front with inside | zero
      · exact given c inside
      · exact zeros _ c zero
    · split at tail
      · rcases List.mem_cons.1 tail with rfl | zero
        · exact .inr rfl
        · exact zeros 1 c zero
      · exact absurd tail List.not_mem_nil
  · have padded : ∀ n, ∀ c ∈ List.replicate n '0' ++ digits, IsPlace c := by
      intro n c member
      rcases List.mem_append.1 member with zero | inside
      · exact zeros n c zero
      · exact given c inside
    rcases List.mem_append.1 member with front | behind
    · exact padded _ c (List.mem_of_mem_take front)
    · rcases List.mem_cons.1 behind with rfl | places
      · exact .inr rfl
      · exact padded _ c (List.mem_of_mem_drop places)

theorem isDigit_normalize (x : Scaled) : ∀ c ∈ x.normalize.1, c.isDigit = true := by
  unfold Scaled.normalize
  dsimp only
  split
  · exact List.all_eq_true.1 rfl
  · intro c member
    have inside := (List.dropWhile_sublist _).subset (List.mem_reverse.1 member)
    exact (isNumeral_iff.1 (isNumeral_repr x.digits)).2 c (List.mem_reverse.1 inside)

theorem isPlace_magnitude {f : Spelling} (plain : f.scientific = none) {significand : Nat}
    {exponent : Int} {least : Bool} :
    ∀ c ∈ f.magnitude significand exponent least, IsPlace c := by
  unfold Spelling.magnitude
  split
  · exact isPlace_positional _ (List.all_eq_true.1 rfl) 0
  · simp only [plain]
    exact isPlace_positional _ (isDigit_normalize _) _

end Decimal

theorem stopsAt_floatText (x : Float) : StopsAt Quoting.isMarkHead (Value.floatText x).toList := by
  have body (significand : Nat) (exponent : Int) (least : Bool) :
      StopsAt Quoting.isMarkHead (Value.spelling.magnitude significand exponent least) := by
    intro c first
    rcases Decimal.isPlace_magnitude rfl c (List.mem_of_mem_head? first) with digit | rfl
    · exact Quoting.isMarkHead_eq_false digit (by decide)
    · decide
  unfold Value.floatText Decimal.Spelling.spell
  cases Decimal.Binary.ofFloat x with
  | notANumber => simp [Quoting.isMarkHead]
  | infinite negative => cases negative <;> simp [Quoting.isMarkHead]
  | finite negative significand exponent least =>
      cases negative with
      | false => simpa using body significand exponent least
      | true => simp [Quoting.isMarkHead]

theorem stopsAt_intText (i : Int) : StopsAt Quoting.isMarkHead (Value.intText i).toList := by
  cases i with
  | ofNat n =>
      intro c first
      have digit := (isNumeral_iff.1 (isNumeral_repr n)).2 c (List.mem_of_mem_head? first)
      exact Quoting.isMarkHead_eq_false digit (by decide)
  | negSucc n => simp [Value.intText, Quoting.isMarkHead]

theorem NameText.head {s : List Char} (name : NameText s) :
    ∃ c t, s = c :: t ∧ isBlank c = false ∧ Quoting.isMarkHead c = false := by
  have part {s : List Char} (text : PartText s) :
      ∃ c t, s = c :: t ∧ isBlank c = false ∧ Quoting.isMarkHead c = false := by
    cases text with
    | star => exact ⟨'*', [], rfl, by decide, by decide⟩
    | bare word =>
        rcases word with ⟨start, _⟩
        have code := toNat_of_isNameChar (isNameChar_of_isWordStart start)
        exact ⟨_, _, rfl, isBlank_of_visible (by omega) (by omega),
          Quoting.isMarkHead_eq_false start (by decide)⟩
    | @quoted c close pair name =>
        refine ⟨c, _, rfl, ?_⟩
        unfold closingQuote? at pair
        split at pair
        all_goals first | decide | exact absurd pair (by simp)
  cases name with
  | part text => exact part text
  | dot text rest =>
      rcases part text with ⟨c, t, rfl, visible, plain⟩
      exact ⟨c, _, rfl, visible, plain⟩

theorem stopsAt_write {form : Form} {text : List Char} {v : Value} (spells : Spells form text v)
    (token : form ≠ .token) (literal : form ≠ .literal) :
    StopsAt Quoting.isMarkHead (q.write (.ofDialect d) v (some column)).1.toList := by
  cases spells with
  | literal content => exact absurd rfl literal
  | question | numbered | named => exact absurd rfl token
  | whole => exact stopsAt_intText _
  | decimal =>
      simp only [Pass.write]
      split
      · exact stopsAt_floatText _
      · simp [Target.quoteString, Quoting.isMarkHead]
  | null => simp [Pass.write, Quoting.isMarkHead]
  | bool b => cases d <;> cases b <;> simp [Pass.write, Target.profile, Target.ofDialect,
      Dialect.profile, Quoting.isMarkHead]
  | call call =>
      rcases call with ⟨name, _, _⟩
      rcases name.head with ⟨c, t, rfl, _, plain⟩
      simpa [Pass.write] using plain
  | name name =>
      rcases name.head with ⟨c, t, rfl, visible, plain⟩
      have stops := Quoting.stopsAt_quoteName d (s := t) visible plain
      simpa [Pass.write, Target.quoteIdentifier, Target.ofDialect, Dialect.quoteIdentifier]
        using stops

theorem kept_write (d : Dialect) (column : String) (q : Pass) (o : Spelled) :
    Kept d column o (q.write (.ofDialect d) o.value (some column)).1 := by
  by_cases token : o.form = .token
  · exact kept_token token
  by_cases literal : o.form = .literal
  · exact kept_literal literal
  · have plain :
        StopsAt Quoting.isMarkHead (q.write (.ofDialect d) o.value (some column)).1.toList :=
      stopsAt_write o.spells token literal
    exact ⟨fun _ => iff_of_false (Dialect.not_isMark plain) fun own => token own.1,
      fun same => absurd same literal, fun same => absurd same token⟩

theorem kept_writeAll (d : Dialect) (column : String) (q : Pass) (os : List Spelled) :
    List.Forall₂ (Kept d column) os
      (q.writeAll (.ofDialect d) (os.map Spelled.value) (some column)).1 := by
  induction os generalizing q with
  | nil => exact .nil
  | cons o os ih => exact .cons (kept_write d column q o) (ih _)

/-- Operands that were written are never lists, so none is taken apart. -/
theorem spread_written (op : Operator) (os : List Spelled) :
    Predicate.spread op (os.map Spelled.value) = os.map Spelled.value := by
  unfold Predicate.spread
  split
  · rename_i items _ lone
    rcases List.map_eq_singleton_iff.1 lone with ⟨⟨form, text, value, spells⟩, rfl, same⟩
    obtain rfl : value = .list items := same
    cases spells
  · rfl

theorem written_of_parse {text : String} {p : Predicate} (parsed : Predicate.parse text = .ok p) :
    p.op.accepts p.operands.length = true ∧
    ∃ os, os.map Spelled.value = p.operands ∧
      ConditionText p.column.toList p.op os text.toList := by
  unfold Predicate.parse Condition.parse at parsed
  cases read : Condition.parseChars text.toList with
  | error fault => simp [read, Except.mapError, Except.bind] at parsed
  | ok c =>
      rcases Condition.of_parseChars read with ⟨os, values, spelled⟩
      simp only [read, Except.mapError, Except.bind, Condition.toPredicate, Predicate.make,
        ← values, spread_written] at parsed
      split at parsed
      · rename_i accepted
        obtain rfl := Except.ok.inj parsed
        exact ⟨accepted, os, rfl, spelled⟩
      · simp at parsed

/-- Operands of a condition that was read are rendered in the form in which they were
written, whatever was numbered before. -/
theorem operands_keep_form (d : Dialect) (text : String) (p : Predicate)
    (parsed : Predicate.parse text = .ok p) :
    ∃ os, os.map Spelled.value = p.operands ∧
      ConditionText p.column.toList p.op os text.toList ∧
      ∀ q : Pass, ∃ shown,
        (p.layout.write (.ofDialect d) q).1 =
          "(" ++ (d.quoteIdentifier p.column ++ " " ++ p.op.sql ++ p.op.shape.arrange shown)
            ++ ")" ∧
        List.Forall₂ (Kept d p.column) os shown := by
  rcases written_of_parse parsed with ⟨accepted, os, values, spelled⟩
  refine ⟨os, values, spelled, ?_⟩
  intro q
  refine ⟨p.operandTexts (.ofDialect d) q, p.write_layout (.ofDialect d) q accepted, ?_⟩
  have kept := kept_writeAll d p.column q os
  rwa [values] at kept

theorem Value.eq_text_of_text? {v : Value} {text : String} (read : v.text? = some text) :
    v = .text text := by
  cases v <;> cases read
  rfl

theorem Value.eq_texts_of_text? {vs : List Value} {texts : List String}
    (read : vs.map text? = texts.map some) : vs = texts.map text := by
  induction vs generalizing texts with
  | nil => rw [List.map_eq_nil_iff.1 read.symm, List.map_nil]
  | cons v vs ih =>
      cases texts with
      | nil => cases read
      | cons s texts =>
          obtain ⟨first, others⟩ := List.cons.inj read
          rw [eq_text_of_text? first, ih others, List.map_cons]

/-- Operands that are texts can be compared, so a reading with no others can be decided. -/
theorem Predicate.parse_of_texts {text column : String} {op : Operator} (texts : List String)
    (read : (parse text).toOption.any (fun p => p.column == column && p.op == op &&
      p.operands.map Value.text? == texts.map some && p.conjunction == .and) = true) :
    parse text = .ok { column, op, operands := texts.map Value.text } := by
  cases parsed : parse text with
  | error e => simp [parsed, Except.toOption] at read
  | ok p =>
      rcases p with ⟨column, op, operands, conjunction⟩
      simp only [parsed, Except.toOption, Option.any_some, Bool.and_eq_true, beq_iff_eq] at read
      obtain ⟨⟨⟨rfl, rfl⟩, same⟩, rfl⟩ := read
      rw [Value.eq_texts_of_text? same]

def mixedText : String := "u.name NOT IN ('it''s', :u_name, :other)"

theorem operands_keep_form_mixed :
    ∃ p, Predicate.parse mixedText = .ok p ∧
      p.render (.ofDialect .postgres) = "(\"u\".\"name\" NOT IN ('it''s', $1, ':other'))" ∧
      ∃ os, os.map Spelled.value = [.text "it's", .text ":u_name", .text ":other"] ∧
        ConditionText p.column.toList p.op os mixedText.toList ∧
        ∃ shown, List.Forall₂ (Kept .postgres p.column) os shown := by
  have parsed : Predicate.parse mixedText = .ok
      { column := "u.name"
        op := .notInList
        operands := [.text "it's", .text ":u_name", .text ":other"] } :=
    Predicate.parse_of_texts ["it's", ":u_name", ":other"] (by decide +kernel)
  rcases operands_keep_form .postgres mixedText _ parsed with ⟨os, values, spelled, kept⟩
  rcases kept {} with ⟨shown, _, kept⟩
  exact ⟨_, parsed, by decide +kernel, os, values, spelled, shown, kept⟩

/-- A token of another name is data, and a literal that holds a token is a placeholder. -/
theorem tokens_leave_form :
    (∃ p, Predicate.parse "id = :name" = .ok p ∧ p.operands = [.text ":name"] ∧
      Spells .token ":name".toList (.text ":name") ∧
      p.render (.ofDialect .mysql) = "(`id` = ':name')" ∧ ¬ Dialect.mysql.IsMark "':name'") ∧
    (∃ p, Predicate.parse "name = '?'" = .ok p ∧ p.operands = [.text "?"] ∧
      Spells .literal "'?'".toList (.text "?") ∧
      p.render (.ofDialect .mysql) = "(`name` = ?)" ∧ Dialect.mysql.IsMark "?") := by
  constructor
  · refine ⟨{ column := "id", op := .eq, operands := [.text ":name"] },
      Predicate.parse_of_texts [":name"] (by decide +kernel), rfl, ?_,
      by decide +kernel, ?_⟩
    · exact Spells.named (.mk rfl (List.all_eq_true.1 rfl))
    · exact not_isMark_quoteString ":name"
  · refine ⟨{ column := "name", op := .eq, operands := [.text "?"] },
      Predicate.parse_of_texts ["?"] (by decide +kernel), rfl, ?_,
      by decide +kernel, rfl⟩
    exact Spells.literal ['?']

end CrossDialect
