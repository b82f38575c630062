import CrossDialect.Condition.Basic
import CrossDialect.Proofs.Conditions.Operands
import CrossDialect.Proofs.Quoting.Names
import CrossDialect.Proofs.Text.Doubled

/-!
A predicate that was written is read back. The text of each operand is read as that
operand whatever ends it, so operators and operands come back as they were, and columns
come back in the quotes of the dialect.
-/

namespace CrossDialect

open Text

/-- What stands behind an operand or a column: the end, a comma, a parenthesis that
closes, or a space, and never the arguments of a call. -/
structure Ended (rest : List Char) : Prop where
  ends : ∀ c ∈ rest.head?, c = ' ' ∨ c = ',' ∨ c = ')'
  noCall : (skipGap rest).head? ≠ some '('

namespace Ended

theorem nil : Ended [] := ⟨by simp, by simp [skipGap]⟩

theorem comma (s : List Char) : Ended (',' :: s) := ⟨by simp, by simp [skipGap, isGap]⟩

theorem closing (s : List Char) : Ended (')' :: s) := ⟨by simp, by simp [skipGap, isGap]⟩

theorem word {c : Char} (s : List Char) (visible : isGap c = false) (other : c ≠ '(') :
    Ended (' ' :: c :: s) := by
  refine ⟨by simp, ?_⟩
  rw [skipGap_space, skipGap_of_stopsAt (by simpa using visible)]
  simpa using other

variable {rest : List Char} (ended : Ended rest)

include ended

theorem stopsAt {p : Char → Bool} (foreign : [' ', ',', ')'].any p = false) : StopsAt p rest := by
  intro c first
  have none := List.any_eq_false.1 foreign
  have member : c ∈ [' ', ',', ')'] := by simpa using ended.ends c first
  simpa using none c member

theorem head_ne {c : Char} (foreign : c ∉ [' ', ',', ')']) : rest.head? ≠ some c := by
  intro first
  have member := ended.ends c (by simp [first])
  exact foreign (by simpa using member)

theorem wordEnds : wordEnds rest = true :=
  wordEnds_iff.2 (ended.stopsAt (by decide))

theorem functionCall_eq {s name : List Char} (read : Grammar.dottedIdent s = some (name, rest)) :
    Grammar.functionCall s = none := by
  have plain : Grammar.balancedParens (skipGap rest) = none := by
    have other := ended.noCall
    cases skipped : skipGap rest with
    | nil => rfl
    | cons c r =>
        rw [skipped] at other
        simp only [List.head?_cons, ne_eq, Option.some.injEq] at other
        simp [Grammar.balancedParens, other]
  simp [Grammar.functionCall, read, plain]

end Ended

namespace Grammar

theorem moreParts_of_head {s : List Char} (other : s.head? ≠ some '.') : moreParts s = ([], s) := by
  cases s with
  | nil => rw [moreParts]
  | cons c s =>
      have dot : c ≠ '.' := by simpa using other
      rw [moreParts]
      simp [dot]

theorem moreParts_dot {s read rest : List Char} (part : identPart s = some (read, rest)) :
    moreParts ('.' :: s) = ('.' :: read ++ (moreParts rest).1, (moreParts rest).2) := by
  rw [moreParts]
  simp only [↓reduceIte]
  split
  · rename_i found
    obtain ⟨rfl, rfl⟩ := Prod.mk.inj (Option.some.inj (found.symm.trans part))
    rfl
  · rename_i found
    rw [part] at found
    simp at found

theorem identPart_quoteSegment (d : Dialect) (name : List Char) {rest : List Char}
    (ends : rest.head? ≠ some d.profile.closeQuote) :
    identPart (d.quoteSegment name ++ rest) = some (d.quoteSegment name, rest) := by
  have read := quotedRest_doubled ends name
  have quotes : closingQuote? d.profile.openQuote = some d.profile.closeQuote ∧
      d.profile.openQuote ≠ '*' := by
    cases d <;> decide
  rw [Dialect.quoteSegment_eq]
  simp [identPart, quotes, read]

theorem head_moreQuoted (d : Dialect) (names : List (List Char)) {rest : List Char}
    (ends : rest.head? ≠ some d.profile.closeQuote) :
    ((names.flatMap fun n => '.' :: d.quoteSegment n) ++ rest).head? ≠
      some d.profile.closeQuote := by
  cases names with
  | nil => exact ends
  | cons n names => cases d <;> simp [Dialect.profile]

theorem moreParts_quoted (d : Dialect) (names : List (List Char)) {rest : List Char}
    (ends : rest.head? ≠ some d.profile.closeQuote) (dot : rest.head? ≠ some '.') :
    moreParts ((names.flatMap fun n => '.' :: d.quoteSegment n) ++ rest) =
      (names.flatMap fun n => '.' :: d.quoteSegment n, rest) := by
  induction names with
  | nil => exact moreParts_of_head dot
  | cons n names ih =>
      have part := identPart_quoteSegment d n (head_moreQuoted d names ends)
      rw [List.flatMap_cons, List.append_assoc, List.cons_append, moreParts_dot part, ih]

theorem dottedIdent_quoted (d : Dialect) {names : List (List Char)} (present : names ≠ [])
    {rest : List Char} (ends : rest.head? ≠ some d.profile.closeQuote)
    (dot : rest.head? ≠ some '.') :
    dottedIdent (['.'].intercalate (names.map d.quoteSegment) ++ rest) =
      some (['.'].intercalate (names.map d.quoteSegment), rest) := by
  rcases List.exists_cons_of_ne_nil present with ⟨n, names, rfl⟩
  have part := identPart_quoteSegment d n (head_moreQuoted d names ends)
  have more := moreParts_quoted d names ends dot
  rw [List.map_cons, dots_cons, List.flatMap_map, List.append_assoc]
  simp only [dottedIdent, part, more]

end Grammar

theorem DottedPath.quoted {name : String} (path : DottedPath name.toList) (d : Dialect) :
    (∃ s, (d.quoteIdentifier name).toList = d.profile.openQuote :: s) ∧
    ∀ {rest : List Char}, Ended rest →
      Grammar.dottedIdent ((d.quoteIdentifier name).toList ++ rest) =
        some ((d.quoteIdentifier name).toList, rest) := by
  rcases path with ⟨words, present, bare, spelled⟩
  have chars : (d.quoteIdentifier name).toList = ['.'].intercalate (words.map d.quoteSegment) := by
    rw [Dialect.quoteIdentifier, String.toList_ofList, spelled,
      Quoting.quoteName_path d present bare]
  rw [chars]
  constructor
  · rcases List.exists_cons_of_ne_nil present with ⟨w, words, rfl⟩
    rw [List.map_cons, dots_cons]
    exact ⟨_, rfl⟩
  · intro rest ended
    have close : rest.head? ≠ some d.profile.closeQuote := by
      cases d <;> exact ended.head_ne (by decide)
    exact Grammar.dottedIdent_quoted d present close (ended.head_ne (by decide))

/-- The operand that a written operand is read as: columns keep their quotes. -/
def Value.requoted (d : Dialect) : Value → Value
  | .column name => .column (d.quoteIdentifier name)
  | v => v

def Value.Readable (d : Dialect) (column : String) : Value → Prop
  | .null | .int _ => True
  | .bool _ => d = .postgres
  | .column name => DottedPath name.toList
  | .text s =>
      Placeholder.isToken s (some column) = false ∧
        (d = .mysql → '\\' ∉ s.toList ∧ '\x00' ∉ s.toList)
  | _ => False

/-- A text that is read as the operand whatever ends it. -/
structure ReadAs (v : Value) (text : List Char) : Prop where
  visible : ∃ c s, text = c :: s ∧ isGap c = false
  read : ∀ rest, Ended rest → Grammar.scalar (text ++ rest) = some (v, rest)

namespace Grammar

theorem stringLiteral_of_head {s : List Char} (other : s.head? ≠ some '\'') :
    stringLiteral s = none := by
  cases s with
  | nil => rfl
  | cons c s =>
      have quote : c ≠ '\'' := by simpa using other
      simp [stringLiteral, quote]

theorem splitMinus_of_head {s : List Char} (other : s.head? ≠ some '-') :
    splitMinus s = (false, s) := by
  unfold splitMinus
  split
  · simp at other
  · rfl

theorem fraction_of_head {s : List Char} (other : s.head? ≠ some '.') :
    fraction s = (none, s) := by
  unfold fraction
  split
  · simp at other
  · rfl

theorem placeholder_of_stopsAt {s : List Char} (plain : StopsAt Quoting.isMarkHead s) :
    placeholder s = none := by
  unfold placeholder
  split
  all_goals simp [Quoting.isMarkHead] at plain ⊢

/-- A first character that is no quote, sign, digit or mark leaves words and names. -/
theorem scalar_of_word {c : Char} {s : List Char} (quote : c ≠ '\'') (minus : c ≠ '-')
    (digit : c.isDigit = false) (plain : Quoting.isMarkHead c = false) :
    scalar (c :: s) = (literalWord (c :: s) <|>
      (functionCall (c :: s)).map (fun (read, rest) => (.raw (String.ofList read), rest)) <|>
      (dottedIdent (c :: s)).map (fun (read, rest) => (.column (String.ofList read), rest))) := by
  have literal : stringLiteral (c :: s) = none := stringLiteral_of_head (by simpa using quote)
  have whole : number (c :: s) = none := by
    have sign := splitMinus_of_head (s := c :: s) (by simpa using minus)
    have digits := digits?_of_stopsAt (s := c :: s) (by simpa using digit)
    simp [number, sign, digits]
  have mark : placeholder (c :: s) = none := placeholder_of_stopsAt (by simpa using plain)
  simp [scalar, literal, whole, mark]

theorem number_digits {s ds rest : List Char} {negative : Bool} {v : Value}
    (signed : splitMinus s = (negative, ds ++ rest)) (numeral : isNumeral ds = true)
    (ended : Ended rest) (fits : numberValue? negative ds none = some v) :
    number s = some (v, rest) := by
  have digits := digits?_run numeral (ended.stopsAt (by decide))
  have point := fraction_of_head (ended.head_ne (c := '.') (by decide))
  simp [number, signed, digits, point, ended.wordEnds, fits]

end Grammar

namespace ReadAs

theorem word {word : String} {v : Value} {c : Char} {s : List Char}
    (spelled : word.toList = c :: s) (start : isWordStart c = true)
    (read : ∀ rest, wordEnds rest = true →
      Grammar.literalWord (word.toList ++ rest) = some (v, rest)) :
    ReadAs v word.toList := by
  have other {x : Char} (foreign : isWordStart x = false) : c ≠ x := ne_of_isWordStart start foreign
  refine ⟨⟨c, s, spelled, isGap_eq_false start (by decide)⟩, ?_⟩
  intro rest ended
  have found := read rest ended.wordEnds
  rw [spelled, List.cons_append] at found ⊢
  rw [Grammar.scalar_of_word (other (by decide)) (other (by decide))
    (isDigit_of_isWordStart start) (Quoting.isMarkHead_eq_false start (by decide)), found]
  rfl

theorem null : ReadAs .null "NULL".toList := by
  apply word rfl (by decide)
  intro rest ends
  have read := keyword?_self "NULL".toList ends
  simp only [Grammar.literalWord, read]
  rfl

theorem bool (b : Bool) : ReadAs (.bool b) (if b then "TRUE" else "FALSE").toList := by
  cases b with
  | true =>
      apply word rfl (by decide)
      intro rest ends
      have read := keyword?_self "TRUE".toList ends
      have other : keyword? "NULL".toList ("TRUE".toList ++ rest) = none := rfl
      simp only [Grammar.literalWord, ↓reduceIte, read, other]
      rfl
  | false =>
      apply word rfl (by decide)
      intro rest ends
      have read := keyword?_self "FALSE".toList ends
      have null : keyword? "NULL".toList ("FALSE".toList ++ rest) = none := rfl
      have yes : keyword? "TRUE".toList ("FALSE".toList ++ rest) = none := rfl
      simp only [Grammar.literalWord, Bool.false_eq_true, ↓reduceIte, read, null, yes]
      rfl

theorem numberValue?_int {negative : Bool} {ds : List Char} {n : Int64}
    (value : n.toInt = if negative then -(digitsValue ds : Int) else digitsValue ds) :
    Grammar.numberValue? negative ds none = some (.int n) := by
  have low : Int64.minValue.toInt ≤ n.toInt := Int64.le_toInt n
  have high : n.toInt ≤ Int64.maxValue.toInt := Int64.toInt_le n
  simp only [Grammar.numberValue?, ← value]
  rw [if_pos ⟨low, high⟩, Int64.ofInt_toInt]

theorem signed {n : Int64} {c : Char} {s : List Char} (negative : Bool) (ds : List Char)
    (first : c = '-' ∨ c.isDigit = true)
    (split : ∀ rest, Grammar.splitMinus (c :: s ++ rest) = (negative, ds ++ rest))
    (numeral : isNumeral ds = true)
    (value : n.toInt = if negative then -(digitsValue ds : Int) else digitsValue ds) :
    ReadAs (.int n) (c :: s) := by
  have foreign : isGap c = false ∧ c ≠ '\'' := by
    rcases first with rfl | digit
    · decide
    · refine ⟨isGap_eq_false digit (by decide), ?_⟩
      rintro rfl
      exact absurd digit (by decide)
  refine ⟨⟨c, s, rfl, foreign.1⟩, ?_⟩
  intro rest ended
  have literal : Grammar.stringLiteral (c :: s ++ rest) = none :=
    Grammar.stringLiteral_of_head (by simpa using foreign.2)
  have read := Grammar.number_digits (split rest) numeral ended (numberValue?_int value)
  unfold Grammar.scalar
  rw [literal, read]
  rfl

theorem int (n : Int64) : ReadAs (.int n) (Value.intText n.toInt).toList := by
  cases whole : n.toInt with
  | ofNat m =>
      have numeral := isNumeral_repr m
      rcases isNumeral_iff.1 numeral with ⟨present, digits⟩
      rcases List.exists_cons_of_ne_nil present with ⟨c, s, spelled⟩
      have digit : c.isDigit = true := digits c (by simp [spelled])
      have minus : c ≠ '-' := by
        rintro rfl
        exact absurd digit (by decide)
      rw [Value.intText, spelled]
      apply signed false (c :: s) (.inr digit)
      · intro rest
        exact Grammar.splitMinus_of_head (by simpa using minus)
      · rwa [← spelled]
      · rw [← spelled, digitsValue_repr, whole]
        rfl
  | negSucc m =>
      have text : (Value.intText (.negSucc m)).toList = '-' :: (Nat.repr (m + 1)).toList := by
        simp [Value.intText]
      rw [text]
      apply signed true (Nat.repr (m + 1)).toList (.inl rfl)
      · intro rest
        rfl
      · exact isNumeral_repr (m + 1)
      · rw [digitsValue_repr, whole]
        rfl

theorem text (content : String) :
    ReadAs (.text content) ('\'' :: doubled '\'' content.toList ++ ['\'']) := by
  refine ⟨⟨'\'', _, rfl, by decide⟩, ?_⟩
  intro rest ended
  have read := Grammar.literalRest_doubled (ended.head_ne (c := '\'') (by decide)) content.toList
  simp [Grammar.scalar, Grammar.stringLiteral, read]

theorem column {name : String} (path : DottedPath name.toList) (d : Dialect) :
    ReadAs (.column (d.quoteIdentifier name)) (d.quoteIdentifier name).toList := by
  rcases path.quoted d with ⟨⟨s, chars⟩, read⟩
  refine ⟨⟨d.profile.openQuote, s, chars, by cases d <;> decide⟩, ?_⟩
  intro rest ended
  have found := read ended
  have call := ended.functionCall_eq found
  have keyword : Grammar.literalWord (d.profile.openQuote :: (s ++ rest)) = none := by
    cases d <;> rfl
  rw [chars, List.cons_append] at found call ⊢
  rw [Grammar.scalar_of_word (by cases d <;> decide) (by cases d <;> decide)
    (by cases d <;> decide) (by cases d <;> decide), keyword, call, found]
  simp [← chars]

end ReadAs

theorem Quoting.flatMap_escapeChar {backslashes : Bool} {s : List Char}
    (plain : backslashes = true → '\\' ∉ s ∧ '\x00' ∉ s) :
    s.flatMap (escapeChar backslashes) = doubled '\'' s := by
  induction s with
  | nil => rfl
  | cons c s ih =>
      have rest := ih fun escapes =>
        ⟨fun later => (plain escapes).1 (List.mem_cons_of_mem c later),
          fun later => (plain escapes).2 (List.mem_cons_of_mem c later)⟩
      have first : escapeChar backslashes c = if c = '\'' then [c, c] else [c] := by
        cases backslashes with
        | false => by_cases quote : c = '\'' <;> simp [escapeChar, quote]
        | true =>
            have backslash : c ≠ '\\' := fun same => (plain rfl).1 (by simp [same])
            have nul : c ≠ '\x00' := fun same => (plain rfl).2 (by simp [same])
            by_cases quote : c = '\'' <;> simp [escapeChar, quote, backslash, nul]
      rw [List.flatMap_cons, first, rest, doubled_cons]

/-- The text of an operand; the same in every pass where the operand is readable. -/
def Value.written (d : Dialect) (column : String) (v : Value) : String :=
  (({} : Pass).write (.ofDialect d) v (some column)).1

namespace Value.Readable

variable {d : Dialect} {column : String} {v : Value}

theorem write_eq (readable : v.Readable d column) (q : Pass) :
    q.write (.ofDialect d) v (some column) = (v.written d column, q) := by
  cases v with
  | text s =>
      have token := readable.1
      simp [written, Pass.write, token]
  | null | bool b | int n | column name => rfl
  | float x | list items | raw sql | param inner => exact readable.elim

theorem readAs (readable : v.Readable d column) :
    ReadAs (v.requoted d) (v.written d column).toList := by
  cases v with
  | null => exact .null
  | bool b =>
      obtain rfl : d = .postgres := readable
      exact .bool b
  | int n => exact .int n
  | text s =>
      have plain : d.profile.backslashEscapes = true →
          '\\' ∉ s.toList ∧ '\x00' ∉ s.toList := by
        intro escapes
        apply readable.2
        cases d <;> simp_all [Dialect.profile]
      have literal : ((Value.text s).written d column).toList =
          '\'' :: doubled '\'' s.toList ++ ['\''] := by
        simp [written, Pass.write, readable.1, Target.quoteString, Target.ofDialect,
          Dialect.escape, Quoting.flatMap_escapeChar plain]
      rw [literal]
      exact .text s
  | column name =>
      have path : DottedPath name.toList := readable
      exact .column path d
  | float x | list items | raw sql | param inner => exact readable.elim

theorem writeAll_eq {vs : List Value} (readable : ∀ v ∈ vs, v.Readable d column) (q : Pass) :
    q.writeAll (.ofDialect d) vs (some column) = (vs.map (written d column), q) := by
  induction vs with
  | nil => rfl
  | cons v vs ih =>
      have others := ih fun w later => readable w (List.mem_cons_of_mem v later)
      simp [Pass.writeAll, (readable v (by simp)).write_eq, others]

end Value.Readable

namespace ReadAs

variable {v w : Value} {s t : List Char}

theorem stopsAt (reads : ReadAs v s) (rest : List Char) : StopsAt isGap (s ++ rest) := by
  rcases reads.visible with ⟨c, s, rfl, visible⟩
  simpa using visible

theorem skipGap_eq (reads : ReadAs v s) (rest : List Char) : skipGap (s ++ rest) = s ++ rest :=
  skipGap_of_stopsAt (reads.stopsAt rest)

theorem one (reads : ReadAs v s) : Grammar.scalar s = some (v, []) := by
  have read := reads.read [] .nil
  rwa [List.append_nil] at read

theorem bounds (low : ReadAs v s) (high : ReadAs w t) :
    Grammar.bounds (s ++ " AND ".toList ++ t) = some ([v, w], []) := by
  have behind : Ended (" AND ".toList ++ t) := .word _ (by decide) (by decide)
  have first := low.read _ behind
  have gap : gap? (" AND ".toList ++ t) = some ("AND".toList ++ ' ' :: t) :=
    rfl
  have word : keyword? "AND".toList ("AND".toList ++ ' ' :: t) = some (' ' :: t) :=
    keyword?_self "AND".toList rfl
  have gap' : gap? (' ' :: t) = some t := by
    have stops := high.stopsAt []
    rw [List.append_nil] at stops
    exact gap?_space stops
  have pair : Grammar.andBounds (s ++ " AND ".toList ++ t) = some ([v, w], []) := by
    rw [List.append_assoc]
    simp only [Grammar.andBounds, first, gap, word, gap', high.one, Option.bind_eq_bind,
      Option.bind_some, Option.pure_def]
  rw [Grammar.bounds, pair]
  rfl

end ReadAs

namespace Grammar

theorem moreValues_of_head {s : List Char} (other : (skipGap s).head? ≠ some ',') :
    moreValues s = ([], s) := by
  have none : afterComma? s = none := by
    unfold afterComma?
    split
    · rename_i comma
      rw [comma] at other
      simp at other
    · rfl
  rw [moreValues]
  split <;> simp_all

theorem moreValues_comma {s r rest : List Char} {v : Value} (comma : afterComma? s = some r)
    (read : scalar r = some (v, rest)) :
    moreValues s = (v :: (moreValues rest).1, (moreValues rest).2) := by
  rw [moreValues]
  split
  · simp_all
  · split <;> simp_all

variable {α : Type} {value : α → Value} {text : α → List Char}

theorem ended_listed (items : List α) (rest : List Char) :
    Ended ((items.flatMap fun x => ',' :: ' ' :: text x) ++ ')' :: rest) := by
  cases items with
  | nil => exact .closing rest
  | cons x items => exact .comma _

theorem moreValues_listed {items : List α} (reads : ∀ x ∈ items, ReadAs (value x) (text x))
    (rest : List Char) :
    moreValues ((items.flatMap fun x => ',' :: ' ' :: text x) ++ ')' :: rest) =
      (items.map value, ')' :: rest) := by
  induction items with
  | nil => exact moreValues_of_head (by simp [skipGap, isGap])
  | cons x items ih =>
      have first := reads x (by simp)
      have others := ih fun y later => reads y (List.mem_cons_of_mem x later)
      have ended : Ended ((items.flatMap fun x => ',' :: ' ' :: text x) ++ ')' :: rest) :=
        ended_listed items rest
      have read := first.read _ ended
      have comma : afterComma? (((x :: items).flatMap fun x => ',' :: ' ' :: text x) ++
          ')' :: rest) =
            some (text x ++ ((items.flatMap fun x => ',' :: ' ' :: text x) ++ ')' :: rest)) := by
        rw [← first.skipGap_eq]
        simp [afterComma?, skipGap, isGap]
      rw [moreValues_comma comma read, others]
      rfl

theorem valueList_listed {x : α} {items : List α}
    (reads : ∀ y ∈ x :: items, ReadAs (value y) (text y)) (rest : List Char) :
    valueList ('(' :: (text x ++ ((items.flatMap fun y => ',' :: ' ' :: text y) ++ ')' :: rest))) =
      some ((x :: items).map value, rest) := by
  have first := reads x (by simp)
  have others := moreValues_listed (fun y later => reads y (List.mem_cons_of_mem x later)) rest
  have ended : Ended ((items.flatMap fun x => ',' :: ' ' :: text x) ++ ')' :: rest) :=
    ended_listed items rest
  have read := first.read _ ended
  have closing : skipGap (')' :: rest) = ')' :: rest := rfl
  simp only [valueList, first.skipGap_eq, values, read, others, closing]
  rfl

def Spaced (rest : List Char) : Prop := ∀ c ∈ rest.head?, c = ' '

theorem operator_sql (op : Operator) {rest : List Char} (spaced : Spaced rest) :
    operator (op.sql.toList ++ rest) = some (op, rest) := by
  cases rest with
  | nil => cases op <;> decide +kernel
  | cons c s =>
      obtain rfl : c = ' ' := spaced c rfl
      cases op <;>
        simp [operator, operatorWords, operatorSigns, Operator.sql, phrase,
          keyword?_cons_cons, keyword?_nil, after?_cons_cons, after?_nil, wordEnds, isWordChar,
          gap?, isGap, skipGap]

theorem head_sql (op : Operator) :
    ∃ c s, op.sql.toList = c :: s ∧ isGap c = false ∧ c ≠ '(' := by
  have first : (op.sql.toList.head?.any fun c => !isGap c && c != '(') = true := by
    cases op <;> decide +kernel
  cases spelled : op.sql.toList with
  | nil => simp [spelled] at first
  | cons c s =>
      simp only [spelled, List.head?_cons, Option.any_some, Bool.and_eq_true, Bool.not_eq_true',
        bne_iff_ne] at first
      exact ⟨c, s, rfl, first⟩

theorem ended_sql (op : Operator) (rest : List Char) : Ended (' ' :: (op.sql.toList ++ rest)) := by
  rcases head_sql op with ⟨c, s, spelled, visible, other⟩
  rw [spelled]
  exact .word _ visible other

theorem skipGap_sql (op : Operator) (rest : List Char) :
    skipGap (' ' :: (op.sql.toList ++ rest)) = op.sql.toList ++ rest := by
  rcases head_sql op with ⟨c, s, spelled, visible, _⟩
  rw [skipGap_space, spelled]
  exact skipGap_of_stopsAt (by simpa using visible)

end Grammar

theorem toList_commas (text : String) (texts : List String) :
    (", ".intercalate (text :: texts)).toList =
      text.toList ++ texts.flatMap fun t => ',' :: ' ' :: t.toList := by
  induction texts generalizing text with
  | nil => simp
  | cons t texts ih =>
      rw [String.intercalate_cons_cons, String.toList_append, String.toList_append, ih]
      simp

namespace Predicate

def arranged (d : Dialect) (p : Predicate) : List Char :=
  (p.op.shape.arrange (p.operands.map (Value.written d p.column))).toList

variable {d : Dialect} {p : Predicate}

theorem spaced_arranged (accepted : p.op.accepts p.operands.length = true) :
    Grammar.Spaced (p.arranged d) := by
  have fits := Operator.fits_of_accepts accepted
  unfold arranged
  generalize p.op.shape = shape at fits ⊢
  generalize p.operands = operands at fits ⊢
  cases fits with
  | nothing => simp [Grammar.Spaced, Operator.Shape.arrange]
  | one v => simp [Grammar.Spaced, Operator.Shape.arrange]
  | bounds low high => simp [Grammar.Spaced, Operator.Shape.arrange]
  | list v vs => simp [Grammar.Spaced, Operator.Shape.arrange]

theorem operands_arranged (accepted : p.op.accepts p.operands.length = true)
    (readable : ∀ v ∈ p.operands, v.Readable d p.column) :
    (Condition.operandsOf p.op).1 (p.arranged d) =
      some (p.operands.map (Value.requoted d), []) := by
  have reads : ∀ v ∈ p.operands, ReadAs (v.requoted d) (v.written d p.column).toList :=
    fun v member => (readable v member).readAs
  have fits := Operator.fits_of_accepts accepted
  unfold arranged Condition.operandsOf
  generalize p.op.shape = shape at fits ⊢
  generalize p.operands = operands at fits reads ⊢
  cases fits with
  | nothing => rfl
  | one v =>
      have read := reads v (by simp)
      have skipped := read.skipGap_eq []
      rw [List.append_nil] at skipped
      simp [Operator.Shape.arrange, skipped, read.one]
  | bounds low high =>
      have low := reads low (by simp)
      have high := reads high (by simp)
      simpa [Operator.Shape.arrange, low.skipGap_eq] using low.bounds high
  | list v vs =>
      have read := Grammar.valueList_listed reads []
      have paren (s : List Char) : skipGap (' ' :: '(' :: s) = '(' :: s := rfl
      simp only [Operator.Shape.arrange, String.toList_append, List.map_cons, toList_commas,
        List.flatMap_map]
      simpa [paren] using read

theorem parseChars_written (accepted : p.op.accepts p.operands.length = true)
    (path : DottedPath p.column.toList)
    (readable : ∀ v ∈ p.operands, v.Readable d p.column) :
    Condition.parseChars
        ((d.quoteIdentifier p.column).toList ++ ' ' :: (p.op.sql.toList ++ p.arranged d)) =
      .ok ⟨d.quoteIdentifier p.column, p.op, p.operands.map (Value.requoted d)⟩ := by
  rcases path.quoted d with ⟨⟨s, chars⟩, read⟩
  have found := read (Grammar.ended_sql p.op (p.arranged d))
  have call := (Grammar.ended_sql p.op (p.arranged d)).functionCall_eq found
  have column : Grammar.column
      ((d.quoteIdentifier p.column).toList ++ ' ' :: (p.op.sql.toList ++ p.arranged d)) =
        some ((d.quoteIdentifier p.column).toList, ' ' :: (p.op.sql.toList ++ p.arranged d)) := by
    rw [Grammar.column, call, found]
    rfl
  have start : skipGap
      ((d.quoteIdentifier p.column).toList ++ ' ' :: (p.op.sql.toList ++ p.arranged d)) =
        (d.quoteIdentifier p.column).toList ++ ' ' :: (p.op.sql.toList ++ p.arranged d) := by
    have visible : isGap d.profile.openQuote = false := by
      cases d <;> decide
    rw [chars]
    exact skipGap_of_stopsAt (by simpa using visible)
  have op := Grammar.operator_sql p.op (spaced_arranged (d := d) accepted)
  have operands := operands_arranged accepted readable
  simp only [Condition.parseChars, start, column, Grammar.skipGap_sql, op, operands]
  simp [trim, trimStart, trimEnd]

theorem spread_readable {op : Operator} {vs : List Value}
    (readable : ∀ v ∈ vs, v.Readable d p.column) :
    spread op (vs.map (Value.requoted d)) = vs.map (Value.requoted d) := by
  unfold spread
  split
  · rename_i items _ lone
    -- a list is no readable operand
    rcases List.map_eq_singleton_iff.1 lone with ⟨v, rfl, same⟩
    have list := readable v (by simp)
    cases v <;> simp [Value.requoted] at same
    exact list.elim
  · rfl

/-- A predicate over a path of bare words, rendered for a dialect, is read back. -/
theorem parse_rendered (d : Dialect) (p : Predicate)
    (accepted : p.op.accepts p.operands.length = true) (path : DottedPath p.column.toList)
    (readable : ∀ v ∈ p.operands, v.Readable d p.column) :
    ∃ inner, p.render (.ofDialect d) = "(" ++ inner ++ ")" ∧
      Predicate.parse inner = .ok
        { column := d.quoteIdentifier p.column
          op := p.op
          operands := p.operands.map (Value.requoted d) } := by
  let inner := d.quoteIdentifier p.column ++ " " ++ p.op.sql ++
    p.op.shape.arrange (p.operands.map (Value.written d p.column))
  refine ⟨inner, ?_, ?_⟩
  · have written := p.write_layout (.ofDialect d) {} accepted
    rw [operandTexts, Value.Readable.writeAll_eq readable] at written
    exact written
  · have chars : inner.toList =
        (d.quoteIdentifier p.column).toList ++ ' ' :: (p.op.sql.toList ++ p.arranged d) := by
      simp [inner, arranged]
    have read : Condition.parse inner =
        .ok ⟨d.quoteIdentifier p.column, p.op, p.operands.map (Value.requoted d)⟩ := by
      rw [Condition.parse, chars, parseChars_written accepted path readable]
      rfl
    have count : p.op.accepts (p.operands.map (Value.requoted d)).length = true := by
      rwa [List.length_map]
    rw [Predicate.parse, read]
    simp only [Except.bind, Condition.toPredicate, make, spread_readable readable, count,
      ↓reduceIte]

def mixedList : Predicate where
  column := "u.id"
  op := .notInList
  operands := [.text "it's", .int Int64.minValue, .null, .column "o.user_id"]
  conjunction := .or

theorem parse_rendered_list :
    mixedList.op.accepts mixedList.operands.length = true ∧
    DottedPath mixedList.column.toList ∧
    (∀ v ∈ mixedList.operands, v.Readable .mysql mixedList.column) ∧
    ∃ inner, mixedList.render (.ofDialect .mysql) = "(" ++ inner ++ ")" ∧
      Predicate.parse inner = .ok
        { column := "`u`.`id`"
          op := .notInList
          operands := [.text "it's", .int Int64.minValue, .null, .column "`o`.`user_id`"] } := by
  have path : DottedPath "u.id".toList :=
    ⟨[['u'], ['i', 'd']], by simp,
      by simpa using ⟨⟨rfl, by simp⟩, ⟨rfl, List.all_eq_true.1 rfl⟩⟩, by decide⟩
  have other : DottedPath "o.user_id".toList :=
    ⟨[['o'], "user_id".toList], by simp,
      by simpa using ⟨⟨rfl, by simp⟩, ⟨rfl, List.all_eq_true.1 rfl⟩⟩, by decide⟩
  have readable : ∀ v ∈ mixedList.operands, v.Readable .mysql mixedList.column := by
    intro v member
    simp only [mixedList, List.mem_cons, List.not_mem_nil, or_false] at member
    rcases member with rfl | rfl | rfl | rfl
    · exact ⟨by decide, fun _ => by decide⟩
    · trivial
    · trivial
    · exact other
  rcases parse_rendered .mysql mixedList rfl path readable with ⟨inner, rendered, parsed⟩
  have column : Dialect.mysql.quoteIdentifier "u.id" = "`u`.`id`" := by
    decide +kernel
  have operand : Dialect.mysql.quoteIdentifier "o.user_id" = "`o`.`user_id`" := by
    decide +kernel
  refine ⟨rfl, path, readable, inner, rendered, ?_⟩
  rw [parsed]
  simp [mixedList, column, operand, Value.requoted]

end Predicate

end CrossDialect
