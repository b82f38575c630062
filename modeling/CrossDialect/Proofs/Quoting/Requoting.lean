import CrossDialect.Proofs.Quoting.Identifiers
import CrossDialect.Proofs.Quoting.Segments

/-!
When a text that is an identifier is also quoted as one. A parenthesis or a blank makes a
text an expression, which is never quoted, and inside its own quotes an identifier may hold
them. Every other identifier is written in the quotes of the dialect.
-/

namespace CrossDialect

open Text

namespace Ident

theorem Part.Spelled.stopsAt {kind : Char → Bool} {p : Part} {s : List Char}
    (spelled : p.Spelled s) (words : ∀ c, isWordStart c = true → kind c = false)
    (marks : ['*', '"', '\x60', '['].any kind = false) : StopsAt kind s := by
  have apart := List.any_eq_false.1 marks
  cases spelled with
  | star => simpa using apart '*' (by simp)
  | bare word =>
      cases word with
      | mk start _ => simpa using words _ start
  | @quoted opening close name pair _ =>
      have member : opening ∈ ['*', '"', '\x60', '['] := by
        rcases closingQuote?_eq_some pair with ⟨rfl, rfl⟩ | ⟨rfl, rfl⟩ | ⟨rfl, rfl⟩ <;> simp
      simpa using apart opening member

theorem Part.Spelled.stopsAt_reverse {kind : Char → Bool} {p : Part} {s : List Char}
    (spelled : p.Spelled s) (words : ∀ c, isNameChar c = true → kind c = false)
    (marks : ['*', '"', '\x60', ']'].any kind = false) : StopsAt kind s.reverse := by
  have apart := List.any_eq_false.1 marks
  cases spelled with
  | star => simpa using apart '*' (by simp)
  | bare word =>
      intro c last
      exact words c (word.isNameChar c (List.mem_reverse.1 (List.mem_of_mem_head? last)))
  | @quoted opening close name pair _ =>
      have member : close ∈ ['*', '"', '\x60', ']'] := by
        rcases closingQuote?_eq_some pair with ⟨rfl, rfl⟩ | ⟨rfl, rfl⟩ | ⟨rfl, rfl⟩ <;> simp
      simpa using apart close member

variable {kind : Char → Bool} {parts : List Part} {s : List Char}

theorem Spelled.stopsAt (spelled : Spelled parts s)
    (words : ∀ c, isWordStart c = true → kind c = false)
    (marks : ['*', '"', '\x60', '['].any kind = false) : StopsAt kind s := by
  cases spelled with
  | last part => exact part.stopsAt words marks
  | dot _ part _ => exact (part.stopsAt words marks).append_of_ne_nil part.ne_nil

theorem Spelled.stopsAt_reverse (spelled : Spelled parts s)
    (words : ∀ c, isNameChar c = true → kind c = false)
    (marks : ['*', '"', '\x60', ']'].any kind = false) : StopsAt kind s.reverse := by
  induction spelled with
  | last part => exact part.stopsAt_reverse words marks
  | dot _ _ rest ih =>
      rw [List.reverse_append, List.reverse_cons, List.append_assoc]
      exact ih.append_of_ne_nil (by simpa using rest.ne_nil)

/-- Blanks stand inside the quotes of an identifier, never around it. -/
theorem Spelled.trim_eq (spelled : Spelled parts s) : trim s = s := by
  apply trim_of_stopsAt
  · exact spelled.stopsAt
      (fun c start => isBlank_of_isNameChar (isNameChar_of_isWordStart start)) (by decide)
  · exact spelled.stopsAt_reverse (fun c name => isBlank_of_isNameChar name) (by decide)

end Ident

namespace Quoting

def MarksExpression (c : Char) : Prop := c = '(' ∨ c = ' ' ∨ c = '\t' ∨ c = '\n'

theorem passesThrough_of_marks {s : List Char} (marked : ∃ c ∈ s, MarksExpression c) :
    passesThrough s = true := by
  have found : s.any (fun c => c == '(' || c == ' ' || c == '\t' || c == '\n') = true := by
    rcases marked with ⟨c, member, mark⟩
    refine List.any_eq_true.2 ⟨c, member, ?_⟩
    simpa [MarksExpression, or_assoc] using mark
  simp [passesThrough, found]

theorem isName_of_spelled {parts : List Ident.Part} {s : List Char}
    (spelled : Ident.Spelled parts s) (noStar : s ≠ ['*'])
    (plain : ∀ c ∈ s, ¬ MarksExpression c) : IsName s where
  present := spelled.ne_nil
  noStar := noStar
  noNumber := by
    apply isNumber_of_stopsAt
    refine spelled.stopsAt (fun c start => ?_) (by decide)
    have dot : c ≠ '.' := ne_of_isWordStart start (by decide)
    have minus : c ≠ '-' := ne_of_isWordStart start (by decide)
    simp [isDigit_of_isWordStart start, dot, minus]
  noMark := by
    apply styleOf_of_stopsAt
    exact spelled.stopsAt (fun c start => isMarkHead_eq_false start (by decide)) (by decide)
  noExpression := by
    intro c member
    simpa [MarksExpression] using plain c member

theorem quoteName_star (d : Dialect) : quoteName d ['*'] = ['*'] := by
  have single : splitAlias (trim ['*']) = none := splitAlias_eq_none (by decide)
  rw [quoteName_of_single d single]
  rfl

theorem quoteName_spelled (d : Dialect) {i : Ident} {s : List Char}
    (parsed : Ident.parseChars s = .ok i) (plain : ∀ c ∈ s, ¬ MarksExpression c) :
    quoteName d s = i.write d := by
  have spelled := (Ident.parseChars_eq_ok_iff.1 parsed).2
  by_cases star : s = ['*']
  · subst star
    have read : Ident.parseChars ['*'] = .ok ⟨[.star]⟩ :=
      Ident.parseChars_eq_ok_iff.2 ⟨by decide, .last .star⟩
    obtain rfl := Except.ok.inj (read.symm.trans parsed)
    exact quoteName_star d
  · have named : IsName (trim s) := by
      rw [spelled.trim_eq]
      exact isName_of_spelled spelled star plain
    rw [named.quoteName_eq, quotePlain, named.passesThrough, spelled.trim_eq, parsed]
    rfl

theorem quoteName_marked (d : Dialect) {s : List Char} (whole : trim s = s)
    (single : splitAlias s = none) (marked : ∃ c ∈ s, MarksExpression c) :
    quoteName d s = s := by
  have cut : splitAlias (trim s) = none := by rw [whole, single]
  rw [quoteName_of_single d cut, whole, quotePlain, passesThrough_of_marks marked]
  rfl

end Quoting

/-- An identifier without parentheses and blanks is quoted for the dialect, whatever its
quotes were. One that holds any of them, and is not cut at an alias, is taken for an
expression and stays as it is. -/
theorem identifier_quoted_unless_expression (d : Dialect) {s : String} {i : Ident}
    (parsed : Ident.parse s = .ok i) :
    ((∀ c ∈ s.toList, ¬ Quoting.MarksExpression c) → d.quoteIdentifier s = i.sql d) ∧
    ((∃ c ∈ s.toList, Quoting.MarksExpression c) → Quoting.splitAlias s.toList = none →
      d.quoteIdentifier s = s) := by
  have spelled := Ident.parse_eq_ok_iff.1 parsed
  constructor
  · intro plain
    rw [Dialect.quoteIdentifier, Quoting.quoteName_spelled d (Ident.parseChars_eq_ok_iff.2 spelled)
      plain]
    rfl
  · intro marked single
    rw [Dialect.quoteIdentifier, Quoting.quoteName_marked d spelled.2.trim_eq single marked,
      String.ofList_toList]

theorem identifier_quoted_unless_expression_wide :
    Ident.parse "\"a.b\"\"\u3000c]\".[order]" =
      .ok ⟨[.quoted "a.b\"\u3000c]", .quoted "order"]⟩ ∧
    Dialect.sqlServer.quoteIdentifier "\"a.b\"\"\u3000c]\".[order]" =
      "[a.b\"\u3000c]]].[order]" ∧
    Ident.parse "[Line Items].*" = .ok ⟨[.quoted "Line Items", .star]⟩ ∧
    Dialect.postgres.quoteIdentifier "[Line Items].*" = "[Line Items].*" := by
  have parsed : Ident.parse "\"a.b\"\"\u3000c]\".[order]" =
      .ok ⟨[.quoted "a.b\"\u3000c]", .quoted "order"]⟩ := by
    cbv
  have parsed' : Ident.parse "[Line Items].*" = .ok ⟨[.quoted "Line Items", .star]⟩ := by
    cbv
  have plain : ∀ c ∈ "\"a.b\"\"\u3000c]\".[order]".toList, ¬ Quoting.MarksExpression c := by
    simp [Quoting.MarksExpression]
  have marked : ∃ c ∈ "[Line Items].*".toList, Quoting.MarksExpression c :=
    ⟨' ', by simp, .inr (.inl rfl)⟩
  have single : Quoting.splitAlias "[Line Items].*".toList = none := by decide +kernel
  refine ⟨parsed, ?_, parsed', ?_⟩
  · rw [(identifier_quoted_unless_expression .sqlServer parsed).1 plain]
    decide +kernel
  · exact (identifier_quoted_unless_expression .postgres parsed').2 marked single

/-- A space in a quoted name keeps the name in the quotes of another dialect. -/
theorem quoted_space_keeps_foreign_quotes :
    Ident.parse "\"Line Items\"" = .ok ⟨[.quoted "Line Items"]⟩ ∧
    Dialect.mysql.quoteIdentifier "\"Line Items\"" = "\"Line Items\"" ∧
    Dialect.mysql.quoteIdentifier "\"Line Items\"" ≠
      Ident.sql .mysql ⟨[.quoted "Line Items"]⟩ :=
  ⟨by cbv, by decide +kernel, by decide +kernel⟩

end CrossDialect
