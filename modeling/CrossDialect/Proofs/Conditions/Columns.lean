import CrossDialect.Proofs.Conditions.Readings
import CrossDialect.Proofs.Quoting.Dotted
import CrossDialect.Proofs.Quoting.Requoting

/-!
Columns of conditions and identifiers. Both are parts with dots between them, read by readers
of their own. Every identifier is read as a column. A column is an identifier with the same
parts, unless it holds NUL, has a part with nothing in its quotes, or has a star before its
last part: conditions let these three through.
-/

namespace CrossDialect

open Text

/-- A part of a column's name. There may be nothing in its quotes. -/
inductive Ident.Part.Lax : Part → List Char → Prop where
  | spelled {p s} : p.Spelled s → Lax p s
  | empty {opening close} (pair : closingQuote? opening = some close) :
      Lax (.quoted "") [opening, close]

namespace Ident

theorem Part.Lax.partText {p : Part} {s : List Char} (lax : p.Lax s) : PartText s := by
  cases lax with
  | spelled spelled =>
      cases spelled with
      | star => exact .star
      | bare word => exact .bare word
      | quoted pair => exact .quoted pair _
  | empty pair => exact .quoted pair []

theorem exists_lax {s : List Char} (text : PartText s) : ∃ p : Part, p.Lax s := by
  cases text with
  | star => exact ⟨_, .spelled .star⟩
  | bare word => exact ⟨_, .spelled (.bare word)⟩
  | quoted pair name =>
      cases name with
      | nil => exact ⟨_, .empty pair⟩
      | cons c name => exact ⟨_, .spelled (.quoted pair (by simp))⟩

/-- The reader of identifiers finds the part, or refuses it because its quotes are empty. -/
theorem Part.Lax.part_eq {p : Part} {s : List Char} (lax : p.Lax s) :
    part s = .ok (p, []) ∨ p = .quoted "" ∧ part s = .error .emptyQuoted := by
  cases lax with
  | spelled spelled =>
      have read := part_spelled spelled (.inl rfl)
      rw [List.append_nil] at read
      exact .inl read
  | @empty opening close pair =>
      have star := ne_star_of_closingQuote? pair
      exact .inr ⟨rfl, by simp [part, star, pair, quotedName]⟩

theorem Part.Lax.unique {p q : Part} {s : List Char} (lax : p.Lax s) (lax' : q.Lax s) :
    p = q := by
  rcases lax.part_eq with read | ⟨rfl, read⟩ <;>
    rcases lax'.part_eq with read' | ⟨rfl, read'⟩ <;> simp_all

end Ident

namespace Grammar

def continuesPart (c : Char) : Bool := isNameChar c || c == '"' || c == '\x60' || c == ']'

/-- A part is read whole where no character goes on with it. -/
theorem identPart_text {s rest : List Char} (text : PartText s)
    (ends : StopsAt continuesPart rest) : identPart (s ++ rest) = some (s, rest) := by
  cases text with
  | star => rfl
  | bare word =>
      cases word with
      | @mk c s start all =>
          have other {d : Char} (foreign : isWordStart d = false) : c ≠ d :=
            ne_of_isWordStart start foreign
          have star : c ≠ '*' := other (by decide)
          have unquoted : closingQuote? c = none := by
            have quotes : c ≠ '"' ∧ c ≠ '\x60' ∧ c ≠ '[' :=
              ⟨other (by decide), other (by decide), other (by decide)⟩
            simp [closingQuote?, quotes]
          have stops : StopsAt isNameChar rest := by
            intro d first
            have none := ends d first
            simp only [continuesPart, Bool.or_eq_false_iff] at none
            exact none.1.1.1
          simp [identPart, star, unquoted, bareIdent, start, takeWhile_run all stops,
            dropWhile_run all stops]
  | @quoted opening close pair name =>
      have star := ne_star_of_closingQuote? pair
      have apart : rest.head? ≠ some close := by
        intro first
        have none := ends close first
        rcases closingQuote?_eq_some pair with ⟨_, rfl⟩ | ⟨_, rfl⟩ | ⟨_, rfl⟩ <;>
          exact absurd none (by decide)
      have read := quotedRest_doubled apart name
      simp [identPart, star, pair, read]

theorem moreParts_dottedIdent {s read rest : List Char}
    (taken : dottedIdent s = some (read, rest)) :
    moreParts ('.' :: s) = ('.' :: read, rest) := by
  unfold dottedIdent at taken
  split at taken
  · simp at taken
  · rename_i first between part
    obtain ⟨rfl, rfl⟩ := Prod.mk.inj (Option.some.inj taken)
    rw [moreParts_dot part]
    rfl

theorem dottedIdent_text {s rest : List Char} (name : NameText s)
    (ends : StopsAt continuesPart rest) (dot : rest.head? ≠ some '.') :
    dottedIdent (s ++ rest) = some (s, rest) := by
  induction name with
  | part text =>
      have part := identPart_text text ends
      simp [dottedIdent, part, moreParts_of_head dot]
  | @dot s t text name ih =>
      have behind : StopsAt continuesPart ('.' :: (t ++ rest)) := by simp; decide
      have part := identPart_text text behind
      have more := moreParts_dottedIdent ih
      simp [dottedIdent, part, more]

theorem column_text {s rest : List Char} (name : NameText s) (ended : Ended rest) :
    column (s ++ rest) = some (s, rest) := by
  have found := dottedIdent_text name (ended.stopsAt (by decide)) (ended.head_ne (by decide))
  rw [column, ended.functionCall_eq found, found]
  rfl

end Grammar

namespace Ident

theorem exists_dotted_of_nameText {s : List Char} (name : NameText s) :
    ∃ parts, Dotted Part.Lax parts s := by
  induction name with
  | part text =>
      rcases exists_lax text with ⟨p, lax⟩
      exact ⟨[p], dotted_cons.2 ⟨_, lax, .inl ⟨rfl, rfl⟩⟩⟩
  | dot text _ ih =>
      rcases exists_lax text with ⟨p, lax⟩
      rcases ih with ⟨parts, dotted⟩
      exact ⟨p :: parts, dotted_cons.2 ⟨_, lax, .inr ⟨_, dotted, rfl⟩⟩⟩

theorem nameText_of_dotted {parts : List Part} {s : List Char} (dotted : Dotted Part.Lax parts s) :
    NameText s := by
  induction parts generalizing s with
  | nil => exact absurd rfl dotted.1
  | cons p parts ih =>
      rcases dotted_cons.1 dotted with ⟨t, lax, ⟨_, rfl⟩ | ⟨u, behind, rfl⟩⟩
      · exact .part lax.partText
      · exact .dot lax.partText (ih behind)

theorem identPart_of_dotted {p : Part} {parts : List Part} {s : List Char}
    (dotted : Dotted Part.Lax (p :: parts) s) :
    ∃ t rest, p.Lax t ∧ Grammar.identPart s = some (t, rest) ∧
      (parts = [] ∧ rest = [] ∨ ∃ u, Dotted Part.Lax parts u ∧ rest = '.' :: u) := by
  rcases dotted_cons.1 dotted with ⟨t, lax, ⟨last, rfl⟩ | ⟨u, behind, rfl⟩⟩
  · have read := Grammar.identPart_text lax.partText (stopsAt_nil _)
    rw [List.append_nil] at read
    exact ⟨s, [], lax, read, .inl ⟨last, rfl⟩⟩
  · have dot : StopsAt Grammar.continuesPart ('.' :: u) := stopsAt_cons.2 (by decide)
    exact ⟨t, _, lax, Grammar.identPart_text lax.partText dot, .inr ⟨u, behind, rfl⟩⟩

/-- A text is divided into parts in one way. -/
theorem dotted_unique {parts parts' : List Part} {s : List Char}
    (dotted : Dotted Part.Lax parts s) (dotted' : Dotted Part.Lax parts' s) :
    parts = parts' := by
  induction parts generalizing parts' s with
  | nil => exact absurd rfl dotted.1
  | cons p parts ih =>
      cases parts' with
      | nil => exact absurd rfl dotted'.1
      | cons p' parts' =>
          rcases identPart_of_dotted dotted with ⟨t, rest, lax, read, behind⟩
          rcases identPart_of_dotted dotted' with ⟨t', rest', lax', read', behind'⟩
          obtain ⟨rfl, rfl⟩ := Prod.mk.inj (Option.some.inj (read.symm.trans read'))
          obtain rfl := lax.unique lax'
          rcases behind with ⟨rfl, rfl⟩ | ⟨u, others, rfl⟩
          · rcases behind' with ⟨rfl, _⟩ | ⟨_, _, wrong⟩
            · rfl
            · cases wrong
          · rcases behind' with ⟨_, wrong⟩ | ⟨_, others', same⟩
            · cases wrong
            · obtain rfl := (List.cons.inj same).2
              rw [ih others others']

theorem Part.Spelled.ne_empty {p : Part} {s : List Char} (spelled : p.Spelled s) :
    p ≠ .quoted "" := by
  cases spelled with
  | star => simp
  | bare => simp
  | quoted _ present => simpa using present

theorem parseChars_of_dotted {parts : List Part} {s : List Char}
    (dotted : Dotted Part.Lax parts s) (i : Ident) :
    parseChars s = .ok i ↔
      i.parts = parts ∧ '\x00' ∉ s ∧ .quoted "" ∉ parts ∧ .star ∉ parts.dropLast := by
  rw [parseChars_eq_ok_iff, spelled_iff_dotted]
  constructor
  · rintro ⟨plain, spelled, inner⟩
    obtain rfl := dotted_unique (spelled.mono fun _ _ _ => .spelled) dotted
    refine ⟨rfl, plain, ?_, inner⟩
    intro empty
    rcases spelled.exists_text _ empty with ⟨t, part⟩
    exact part.ne_empty rfl
  · rintro ⟨rfl, plain, present, inner⟩
    refine ⟨plain, dotted.mono ?_, inner⟩
    intro p member t lax
    cases lax with
    | spelled spelled => exact spelled
    | empty => exact absurd member present

end Ident

/-- The parts of a column's name. It is an identifier, with these parts, unless there is NUL
in it, nothing in the quotes of a part, or a star before the last part. -/
structure ColumnParts (name : String) (parts : List Ident.Part) : Prop where
  dotted : Dotted Ident.Part.Lax parts name.toList
  only : ∀ others, Dotted Ident.Part.Lax others name.toList → others = parts
  read_iff : ∀ i, Ident.parse name = .ok i ↔ i.parts = parts ∧ '\x00' ∉ name.toList ∧
    .quoted "" ∉ parts ∧ .star ∉ parts.dropLast

theorem exists_columnParts {name : String} (text : NameText name.toList) :
    ∃ parts, ColumnParts name parts := by
  rcases Ident.exists_dotted_of_nameText text with ⟨parts, dotted⟩
  refine ⟨parts, dotted, fun others laid => Ident.dotted_unique laid dotted, ?_⟩
  intro i
  rw [← Ident.parseChars_of_dotted dotted, Ident.parse_eq_ok_iff, Ident.parseChars_eq_ok_iff]

theorem ConditionText.column {column s : List Char} {op : Operator} {os : List Spelled}
    (text : ConditionText column op os s) : NameText column ∨ CallText column := by
  cases text
  assumption

theorem Condition.parse_identifier {s : String} {i : Ident} (parsed : Ident.parse s = .ok i) :
    Condition.parse (s ++ " IS NULL") = .ok ⟨s, .isNull, []⟩ := by
  have spelled := (Ident.parse_eq_ok_iff.1 parsed).2
  have laid := (Ident.spelled_iff_dotted.1 spelled).1
  have name := Ident.nameText_of_dotted (laid.mono fun _ _ _ => .spelled)
  have ended : Ended " IS NULL".toList := .word _ (by decide) (by decide)
  have column := Grammar.column_text name ended
  have start : skipGap (s.toList ++ " IS NULL".toList) = s.toList ++ " IS NULL".toList := by
    apply skipGap_of_stopsAt
    have stops := spelled.stopsAt (fun c start => isGap_eq_false start (by decide)) (by decide)
    exact stops.append_of_ne_nil spelled.ne_nil
  have operator : Grammar.operator (skipGap " IS NULL".toList) = some (.isNull, []) := by
    decide +kernel
  rw [Condition.parse_eq_ok_iff, String.toList_append]
  simp only [Condition.parseChars, start, column, operator, String.ofList_toList]
  rfl

/-- The columns of the conditions that are read: those in front, unless they are calls, and
those among the operands. -/
inductive ReadColumn : String → Prop where
  | front {text c} : Condition.parse text = .ok c → ¬ CallText c.column.toList →
      ReadColumn c.column
  | operand {text c name} : Condition.parse text = .ok c → .column name ∈ c.operands →
      ReadColumn name

theorem ReadColumn.nameText {name : String} (read : ReadColumn name) : NameText name.toList := by
  cases read with
  | front parsed noCall =>
      rcases Condition.of_parseChars (Condition.parse_eq_ok_iff.1 parsed) with ⟨os, _, spelled⟩
      exact spelled.column.resolve_right noCall
  | operand parsed member =>
      rcases Condition.of_parseChars (Condition.parse_eq_ok_iff.1 parsed) with ⟨os, values, _⟩
      rw [← values] at member
      rcases List.mem_map.1 member with ⟨⟨form, text, value, spells⟩, _, same⟩
      dsimp only at same
      cases spells with
      | name text =>
          obtain rfl := Value.column.inj same
          rwa [String.toList_ofList]
      | _ => cases same

/-- A column of a condition is an identifier but for three things that an identifier may not
hold. Every identifier is read as a column. -/
theorem columns_read_as_identifiers (name : String) :
    (ReadColumn name → ∃ parts, ColumnParts name parts) ∧
    ∀ i, Ident.parse name = .ok i →
      Condition.parse (name ++ " IS NULL") = .ok ⟨name, .isNull, []⟩ := by
  constructor
  · intro read
    exact exists_columnParts read.nameText
  · intro i parsed
    exact Condition.parse_identifier parsed

theorem columns_read_as_identifiers_quoted :
    ∃ c, Condition.parse "\"a.b\".[c]]d] = x.*" = .ok c ∧ c.column = "\"a.b\".[c]]d]" ∧
      c.operands.map Value.display = ["x.*"] ∧
      (∃ parts, ColumnParts c.column parts) ∧
      (∀ name, Value.column name ∈ c.operands → ∃ parts, ColumnParts name parts) ∧
      Ident.parse c.column = .ok ⟨[.quoted "a.b", .quoted "c]d"]⟩ ∧
      Condition.parse (c.column ++ " IS NULL") = .ok ⟨c.column, .isNull, []⟩ := by
  rcases exists_ok_of_any (x := Condition.parse "\"a.b\".[c]]d] = x.*")
    (p := fun c => c.column == "\"a.b\".[c]]d]" && c.operands.map Value.display == ["x.*"])
    (by decide +kernel) with ⟨c, parsed, held⟩
  rw [Bool.and_eq_true, beq_iff_eq, beq_iff_eq] at held
  rcases held with ⟨column, operands⟩
  have ident : Ident.parse c.column = .ok ⟨[.quoted "a.b", .quoted "c]d"]⟩ := by
    rcases exists_ok_of_any (x := Ident.parse c.column)
      (p := fun i => i == ⟨[.quoted "a.b", .quoted "c]d"]⟩) (by rw [column]; decide +kernel) with
      ⟨i, parsed, same⟩
    rw [parsed, beq_iff_eq.1 same]
  have noCall : ¬ CallText c.column.toList := by
    intro call
    have last := call.getLast?
    rw [column] at last
    exact absurd last (by decide)
  have front := columns_read_as_identifiers c.column
  refine ⟨c, parsed, column, operands, front.1 (.front parsed noCall), ?_, ident, front.2 _ ident⟩
  intro name member
  exact (columns_read_as_identifiers name).1 (.operand parsed member)

def Value.isColumn (name : String) : Value → Bool
  | .column other => other == name
  | _ => false

theorem Value.eq_column_of_isColumn {name : String} {v : Value} (same : v.isColumn name = true) :
    v = .column name := by
  unfold isColumn at same
  split at same
  · rw [beq_iff_eq.1 same]
  · cases same

/-- Empty quotes, a star with a part behind it, and NUL in a name: columns that are no
identifiers. Quoting the first of them doubles its quotes. -/
theorem odd_columns_are_no_identifiers :
    (∀ column ∈ ["\"\"", "*.a", "[a\x00]"],
      (∃ c, Condition.parse (column ++ " = 1") = .ok c ∧ c.column = column) ∧
      ReadColumn column ∧ ∀ i, Ident.parse column ≠ .ok i) ∧
    (∃ c, Condition.parse "a = *.b" = .ok c ∧ Value.column "*.b" ∈ c.operands ∧
      ∀ i, Ident.parse "*.b" ≠ .ok i) ∧
    Dialect.postgres.quoteIdentifier "\"\"" = "\"\"\"\"\"\"" := by
  have refused {name : String} (no : (Ident.parse name).toOption.isNone = true) (i : Ident) :
      Ident.parse name ≠ .ok i := by
    intro parsed
    rw [parsed] at no
    cases no
  refine ⟨?_, ?_, by decide +kernel⟩
  · have all : ∀ column ∈ ["\"\"", "*.a", "[a\x00]"],
        (Condition.parse (column ++ " = 1")).toOption.any (fun c => c.column == column) = true ∧
        column.toList.getLast? ≠ some ')' ∧ (Ident.parse column).toOption.isNone = true := by
      decide +kernel
    intro column member
    rcases all column member with ⟨read, last, no⟩
    rcases exists_ok_of_any read with ⟨c, parsed, same⟩
    obtain rfl := beq_iff_eq.1 same
    have front : ReadColumn c.column := .front parsed fun call => last call.getLast?
    exact ⟨⟨c, parsed, rfl⟩, front, refused no⟩
  · rcases exists_ok_of_any (x := Condition.parse "a = *.b")
      (p := fun c => c.operands.any (Value.isColumn "*.b"))
      (by decide +kernel) with ⟨c, parsed, held⟩
    rcases List.any_eq_true.1 held with ⟨v, member, same⟩
    obtain rfl := Value.eq_column_of_isColumn same
    exact ⟨c, parsed, member, refused (by decide +kernel)⟩

end CrossDialect
