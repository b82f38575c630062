import CrossDialect.Proofs.Quoting.Names
import CrossDialect.Proofs.Text.Doubled
import Mathlib.Data.List.Basic

/-!
How identifiers are spelled. A part is a bare word, a name in quotes or a star, and an
identifier is parts with dots between them in which only the last may be a star. Exactly
such texts are read as identifiers. What a dialect writes for an identifier is such a text
too, in which every name stands in quotes, so it is read back by name.
-/

namespace CrossDialect

open Text

theorem Dialect.closingQuote?_openQuote (d : Dialect) :
    closingQuote? d.profile.openQuote = some d.profile.closeQuote := by
  cases d <;> rfl

theorem Text.closingQuote?_eq_some {c close : Char} (pair : closingQuote? c = some close) :
    c = '"' ∧ close = '"' ∨ c = '\x60' ∧ close = '\x60' ∨ c = '[' ∧ close = ']' := by
  unfold closingQuote? at pair
  split at pair <;> simp_all [eq_comm]

theorem Text.ne_star_of_closingQuote? {c close : Char} (pair : closingQuote? c = some close) :
    c ≠ '*' := by
  rintro rfl
  cases pair

namespace Ident

inductive Part.Spelled : Part → List Char → Prop where
  | star : Spelled .star ['*']
  | bare {w : List Char} (word : BareWord w) : Spelled (.bare (String.ofList w)) w
  | quoted {opening close : Char} {name : List Char} (pair : closingQuote? opening = some close)
      (present : name ≠ []) :
      Spelled (.quoted (String.ofList name)) (opening :: (doubled close name ++ [close]))

/-- Parts with dots between them. A star stands last. -/
inductive Spelled : List Part → List Char → Prop where
  | last {p s} : p.Spelled s → Spelled [p] s
  | dot {p parts s t} (name : p ≠ .star) : p.Spelled s → Spelled parts t →
      Spelled (p :: parts) (s ++ '.' :: t)

/-! Readers -/

theorem quotedName_cons_ne {close c : Char} (other : c ≠ close) (s : List Char) :
    quotedName close (c :: s) =
      (quotedName close s).map fun (name, rest) => (c :: name, rest) := by
  cases s <;> simp [quotedName, other]

theorem quotedName_doubled {close : Char} {rest : List Char} (ends : rest.head? ≠ some close)
    (name : List Char) :
    quotedName close (doubled close name ++ close :: rest) = .ok (name, rest) := by
  induction name with
  | nil =>
      cases rest with
      | nil => simp [quotedName]
      | cons c rest =>
          have other : c ≠ close := by simpa using ends
          simp [quotedName, other]
  | cons c name ih =>
      by_cases same : c = close
      · subst same
        simp [doubled_cons_quote, quotedName, ih, Except.map]
      · simp [doubled_cons_ne same, quotedName_cons_ne same, ih, Except.map]

/-- Conditions and identifiers have readers of their own for what stands in quotes. They
take the same text, one as it is written and one as the name that it means. -/
theorem quotedRest_eq (close : Char) (s : List Char) :
    Grammar.quotedRest close s =
      (quotedName close s).toOption.map fun (name, rest) =>
        (doubled close name ++ [close], rest) := by
  fun_induction quotedName close s with
  | case1 => rfl
  | case2 r ih =>
      rw [Grammar.quotedRest, if_pos rfl]
      simp only [↓reduceIte, ih]
      cases quotedName close r <;> simp [Except.map, Except.toOption, doubled_cons_quote]
  | case3 d r other => simp [Grammar.quotedRest, other, Except.toOption]
  | case4 => simp [Grammar.quotedRest, Except.toOption]
  | case5 c s other ih =>
      rw [Grammar.quotedRest_cons_ne other, ih]
      cases quotedName close s <;> simp [Except.map, Except.toOption, doubled_cons_ne other]

theorem of_quotedName {close : Char} {s name rest : List Char}
    (taken : quotedName close s = .ok (name, rest)) : s = doubled close name ++ close :: rest := by
  have read : Grammar.quotedRest close s = some (doubled close name ++ [close], rest) := by
    rw [quotedRest_eq, taken]
    rfl
  rcases Grammar.of_quotedRest read with ⟨_, _, split, _⟩
  simpa using split

theorem of_bareName {first : Bool} {s name rest : List Char}
    (taken : bareName first s = .ok (name, rest)) :
    s = name ++ rest ∧ (∀ c ∈ name, isNameChar c = true) ∧
      (first = true → ∀ c ∈ name.head?, isWordStart c = true) := by
  fun_induction bareName first s generalizing name rest with
  | case1 | case2 =>
      obtain ⟨rfl, rfl⟩ := Prod.mk.inj (Except.ok.inj taken)
      simp
  | case3 first c s _ kind ih =>
      rcases map_eq_ok taken with ⟨⟨inner, behind⟩, read, same⟩
      obtain ⟨rfl, rfl⟩ := Prod.mk.inj same
      rcases ih read with ⟨rfl, all, _⟩
      cases first with
      | true =>
          have start : isWordStart c = true := by simpa using kind
          exact ⟨rfl, by simpa using ⟨isNameChar_of_isWordStart start, all⟩, by simpa using start⟩
      | false =>
          have inside : isNameChar c = true := by simpa using kind
          exact ⟨rfl, by simpa using ⟨inside, all⟩, by simp⟩
  | case4 => simp at taken

theorem of_part {s rest : List Char} {p : Part} (taken : part s = .ok (p, rest)) :
    ∃ text, s = text ++ rest ∧ p.Spelled text := by
  cases s with
  | nil => simp [part] at taken
  | cons c s =>
      simp only [part] at taken
      split at taken
      · rename_i star
        obtain ⟨rfl, rfl⟩ := Prod.mk.inj (Except.ok.inj taken)
        exact ⟨['*'], by rw [star]; rfl, .star⟩
      split at taken
      · rename_i close pair
        split at taken
        · simp at taken
        · simp at taken
        · rename_i name behind present read
          obtain ⟨rfl, rfl⟩ := Prod.mk.inj (Except.ok.inj taken)
          refine ⟨c :: (doubled close name ++ [close]), ?_, .quoted pair ?_⟩
          · rw [of_quotedName read]
            simp
          · rintro rfl
            exact present rfl
      · split at taken
        · simp at taken
        · simp at taken
        · rename_i name behind present read
          obtain ⟨rfl, rfl⟩ := Prod.mk.inj (Except.ok.inj taken)
          rcases of_bareName read with ⟨split, all, start⟩
          refine ⟨name, split, .bare ?_⟩
          cases name with
          | nil => exact absurd rfl present
          | cons x name =>
              exact ⟨start rfl x rfl, fun y later => all y (List.mem_cons_of_mem x later)⟩

theorem part_spelled {p : Part} {s rest : List Char} (spelled : p.Spelled s)
    (ends : rest = [] ∨ rest.head? = some '.') : part (s ++ rest) = .ok (p, rest) := by
  cases spelled with
  | star => rfl
  | bare word => exact part_bareWord word ends
  | @quoted opening close name pair present =>
      have kinds := closingQuote?_eq_some pair
      have star := ne_star_of_closingQuote? pair
      have apart : rest.head? ≠ some close := by
        rcases ends with rfl | dot
        · simp
        · rw [dot]
          rintro same
          obtain rfl := Option.some.inj same
          simp at kinds
      have read := quotedName_doubled apart name
      have text : opening :: (doubled close name ++ [close]) ++ rest =
          opening :: (doubled close name ++ close :: rest) := by
        simp
      rw [text, part, if_neg star, pair]
      simp only [read]

theorem Part.Spelled.ne_nil {p : Part} {s : List Char} (spelled : p.Spelled s) : s ≠ [] := by
  cases spelled with
  | star => simp
  | bare word => exact word.ne_nil
  | quoted => simp

theorem Spelled.ne_nil {parts : List Part} {s : List Char} (spelled : Spelled parts s) :
    s ≠ [] := by
  cases spelled with
  | last first => exact first.ne_nil
  | dot => simp

/-- Exactly the spellings are read. -/
theorem dotted_eq_ok_iff {s : List Char} {parts : List Part} :
    dotted s = .ok parts ↔ Spelled parts s := by
  constructor
  · intro read
    fun_induction dotted s generalizing parts with
    | case1 => simp at read
    | case2 s p whole =>
        obtain rfl := Except.ok.inj read
        rcases of_part whole with ⟨text, rfl, spelled⟩
        rw [List.append_nil]
        exact .last spelled
    | case3 => simp at read
    | case4 => simp at read
    | case5 => simp at read
    | case6 s p c r first name dot _ ih =>
        rcases map_eq_ok read with ⟨behind, inner, rfl⟩
        rcases of_part first with ⟨text, rfl, spelled⟩
        obtain rfl : c = '.' := by simpa using dot
        exact .dot name spelled (ih inner)
  · intro spelled
    induction spelled with
    | @last p s part =>
        have read := part_spelled part (.inl rfl)
        rw [List.append_nil] at read
        exact dotted_last read
    | dot name part rest ih =>
        rw [dotted_dot (part_spelled part (.inr rfl)) name rest.ne_nil, ih]
        rfl

theorem parseChars_eq_ok_iff {s : List Char} {i : Ident} :
    parseChars s = .ok i ↔ '\x00' ∉ s ∧ Spelled i.parts s := by
  rw [← dotted_eq_ok_iff]
  constructor
  · intro parsed
    simp only [parseChars] at parsed
    split at parsed
    · simp at parsed
    split at parsed
    · simp at parsed
    rename_i plain
    rcases map_eq_ok parsed with ⟨parts, read, rfl⟩
    exact ⟨plain, read⟩
  · rintro ⟨plain, read⟩
    have present : s.isEmpty = false := by
      simpa using (dotted_eq_ok_iff.1 read).ne_nil
    simp [parseChars, present, plain, read, Except.map]

theorem parse_eq_ok_iff {s : String} {i : Ident} :
    parse s = .ok i ↔ '\x00' ∉ s.toList ∧ Spelled i.parts s.toList := by
  rw [← parseChars_eq_ok_iff, parse]
  cases parseChars s.toList <;> simp [Except.mapError]

/-! Writing -/

def Part.requoted : Part → Part
  | .bare name | .quoted name => .quoted name
  | .star => .star

def requoted (i : Ident) : Ident := ⟨i.parts.map Part.requoted⟩

theorem Part.write_requoted (d : Dialect) (p : Part) : p.requoted.write d = p.write d := by
  cases p <;> rfl

theorem write_requoted (d : Dialect) (i : Ident) : i.requoted.write d = i.write d := by
  have same : Part.write d ∘ Part.requoted = Part.write d := funext (Part.write_requoted d)
  simp [write, requoted, same]

theorem Part.requoted_eq_star {p : Part} (star : p.requoted = .star) : p = .star := by
  cases p <;> simp_all [Part.requoted]

theorem Part.Spelled.write (d : Dialect) {p : Part} {s : List Char} (spelled : p.Spelled s) :
    p.requoted.Spelled (p.write d) := by
  cases spelled with
  | star => exact .star
  | bare word =>
      rw [Part.write, String.toList_ofList, d.quoteSegment_eq]
      exact .quoted d.closingQuote?_openQuote word.ne_nil
  | quoted _ present =>
      rw [Part.write, String.toList_ofList, d.quoteSegment_eq]
      exact .quoted d.closingQuote?_openQuote present

theorem write_singleton (d : Dialect) (p : Part) : write d ⟨[p]⟩ = p.write d :=
  List.intercalate_singleton

theorem write_cons_cons (d : Dialect) (p p' : Part) (parts : List Part) :
    write d ⟨p :: p' :: parts⟩ = p.write d ++ '.' :: write d ⟨p' :: parts⟩ :=
  dots_cons_cons _ _ _

theorem Spelled.write (d : Dialect) {parts : List Part} {s : List Char}
    (spelled : Spelled parts s) : Spelled (parts.map Part.requoted) (Ident.write d ⟨parts⟩) := by
  induction spelled with
  | last part =>
      rw [write_singleton]
      exact .last (part.write d)
  | dot name part rest ih =>
      cases rest <;>
      · rw [write_cons_cons]
        exact .dot (fun star => name (Part.requoted_eq_star star)) (part.write d) ih

def IsQuote (d : Dialect) (c : Char) : Prop :=
  c = d.profile.openQuote ∨ c = d.profile.closeQuote

theorem mem_quoteSegment {d : Dialect} {name : List Char} {c : Char}
    (member : c ∈ d.quoteSegment name) : c ∈ name ∨ IsQuote d c := by
  rw [d.quoteSegment_eq] at member
  simp only [List.cons_append, List.mem_cons, List.mem_append, mem_doubled, List.not_mem_nil,
    or_false] at member
  rcases member with opening | inside | closing
  · exact .inr (.inl opening)
  · exact .inl inside
  · exact .inr (.inr closing)

theorem Part.Spelled.mem_write {d : Dialect} {p : Part} {s : List Char} {c : Char}
    (spelled : p.Spelled s) (member : c ∈ p.write d) : c ∈ s ∨ IsQuote d c := by
  cases spelled with
  | star => exact .inl member
  | bare word =>
      rw [Part.write, String.toList_ofList] at member
      exact mem_quoteSegment member
  | quoted =>
      rw [Part.write, String.toList_ofList] at member
      apply (mem_quoteSegment member).imp_left
      intro inside
      simp [mem_doubled, inside]

theorem Spelled.mem_write {d : Dialect} {parts : List Part} {s : List Char} {c : Char}
    (spelled : Spelled parts s) (member : c ∈ Ident.write d ⟨parts⟩) : c ∈ s ∨ IsQuote d c := by
  induction spelled with
  | last part =>
      rw [write_singleton] at member
      exact part.mem_write member
  | dot name part rest ih =>
      cases rest <;>
      · rw [write_cons_cons] at member
        rcases List.mem_append.1 member with first | later
        · exact (part.mem_write first).imp_left (by simp +contextual)
        rcases List.mem_cons.1 later with rfl | behind
        · exact .inl (by simp)
        · exact (ih behind).imp_left (by simp +contextual)

theorem not_isQuote_nul (d : Dialect) : ¬ IsQuote d '\x00' := by
  cases d <;> simp [IsQuote, Dialect.profile]

/-- What a dialect writes for an identifier is read as that identifier by name. -/
theorem parseChars_write (d : Dialect) {s : List Char} {i : Ident}
    (parsed : parseChars s = .ok i) : parseChars (i.write d) = .ok i.requoted := by
  rcases parseChars_eq_ok_iff.1 parsed with ⟨plain, spelled⟩
  refine parseChars_eq_ok_iff.2 ⟨?_, spelled.write d⟩
  intro member
  exact (spelled.mem_write member).elim plain (not_isQuote_nul d)

end Ident

/-- An identifier in any style of quotes that is written for one dialect is read from
there with all its names, and a second dialect writes it as if it had read it first. -/
theorem identifier_survives_requoting (d e : Dialect) {s : String} {i : Ident}
    (parsed : Ident.parse s = .ok i) :
    Ident.parse (i.sql d) = .ok i.requoted ∧ i.requoted.sql e = i.sql e := by
  have read : Ident.parseChars s.toList = .ok i := by
    rw [Ident.parseChars_eq_ok_iff, ← Ident.parse_eq_ok_iff]
    exact parsed
  constructor
  · rw [Ident.parse, Ident.sql, String.toList_ofList, Ident.parseChars_write d read]
    rfl
  · rw [Ident.sql, Ident.write_requoted, Ident.sql]

theorem identifier_survives_requoting_odd :
    Ident.parse "\"a.\"\"b]]\".order.[\x60].*" =
      .ok ⟨[.quoted "a.\"b]]", .bare "order", .quoted "\x60", .star]⟩ ∧
    Ident.sql .sqlServer ⟨[.quoted "a.\"b]]", .bare "order", .quoted "\x60", .star]⟩ =
      "[a.\"b]]]]].[order].[\x60].*" ∧
    Ident.parse "[a.\"b]]]]].[order].[\x60].*" =
      .ok ⟨[.quoted "a.\"b]]", .quoted "order", .quoted "\x60", .star]⟩ ∧
    Ident.sql .mysql ⟨[.quoted "a.\"b]]", .quoted "order", .quoted "\x60", .star]⟩ =
      "\x60a.\"b]]\x60.\x60order\x60.\x60\x60\x60\x60.*" := by
  have parsed : Ident.parse "\"a.\"\"b]]\".order.[\x60].*" =
      .ok ⟨[.quoted "a.\"b]]", .bare "order", .quoted "\x60", .star]⟩ := by
    cbv
  have written : Ident.sql .sqlServer
      ⟨[.quoted "a.\"b]]", .bare "order", .quoted "\x60", .star]⟩ =
      "[a.\"b]]]]].[order].[\x60].*" := by
    decide +kernel
  rcases identifier_survives_requoting .sqlServer .mysql parsed with ⟨back, same⟩
  rw [written] at back
  exact ⟨parsed, written, back, same.trans (by decide +kernel)⟩

end CrossDialect
