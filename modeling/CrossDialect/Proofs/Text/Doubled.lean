import CrossDialect.Condition.Grammar
import CrossDialect.Quoting

/-!
Text between quotes in which the closing quote is doubled. A doubled text followed by
a single quote is read back whole, and whatever a reader takes from behind an opening
quote is a doubled text and its closing quote.
-/

namespace CrossDialect

namespace Text

def doubled (quote : Char) (s : List Char) : List Char :=
  s.flatMap fun c => if c = quote then [c, c] else [c]

@[simp] theorem doubled_nil (quote : Char) : doubled quote [] = [] := rfl

theorem doubled_cons (quote c : Char) (s : List Char) :
    doubled quote (c :: s) = (if c = quote then [c, c] else [c]) ++ doubled quote s := rfl

theorem doubled_cons_quote (quote : Char) (s : List Char) :
    doubled quote (quote :: s) = quote :: quote :: doubled quote s := by
  simp [doubled_cons]

theorem doubled_cons_ne {quote c : Char} (other : c ≠ quote) (s : List Char) :
    doubled quote (c :: s) = c :: doubled quote s := by
  simp [doubled_cons, other]

theorem mem_doubled {quote c : Char} {s : List Char} : c ∈ doubled quote s ↔ c ∈ s := by
  induction s with
  | nil => simp
  | cons x s ih =>
      by_cases same : x = quote
      · subst same
        simp [doubled_cons_quote, ih]
      · simp [doubled_cons_ne same, ih]

end Text

open Text

theorem Dialect.quoteSegment_eq (d : Dialect) (name : List Char) :
    d.quoteSegment name =
      d.profile.openQuote :: doubled d.profile.closeQuote name ++ [d.profile.closeQuote] := rfl

namespace Grammar

theorem quotedRest_cons_ne {close c : Char} (other : c ≠ close) (s : List Char) :
    quotedRest close (c :: s) =
      (quotedRest close s).map fun (read, rest) => (c :: read, rest) := by
  cases s <;> simp [quotedRest, other]

theorem literalRest_cons_ne {c : Char} (other : c ≠ '\'') (s : List Char) :
    literalRest (c :: s) = (literalRest s).map fun (text, rest) => (c :: text, rest) := by
  cases s <;> simp [literalRest, other]

theorem quotedRest_doubled {close : Char} {rest : List Char} (ends : rest.head? ≠ some close)
    (name : List Char) :
    quotedRest close (doubled close name ++ close :: rest) =
      some (doubled close name ++ [close], rest) := by
  induction name with
  | nil =>
      cases rest with
      | nil => simp [quotedRest]
      | cons c rest =>
          have other : c ≠ close := by simpa using ends
          simp [quotedRest, other]
  | cons c name ih =>
      by_cases same : c = close
      · subst same
        simp [doubled_cons_quote, quotedRest, ih]
      · simp [doubled_cons_ne same, quotedRest_cons_ne same, ih]

/-- The reader stops at the first quote that is not doubled. -/
theorem of_quotedRest {close : Char} {s read rest : List Char}
    (taken : quotedRest close s = some (read, rest)) :
    ∃ name, read = doubled close name ++ [close] ∧ s = read ++ rest ∧ rest.head? ≠ some close := by
  fun_induction quotedRest close s generalizing read rest with
  | case1 => simp at taken
  | case2 r ih =>
      obtain ⟨⟨n, t⟩, inner, same⟩ := Option.map_eq_some_iff.1 taken
      obtain ⟨rfl, rfl⟩ := Prod.mk.inj same
      obtain ⟨name, rfl, rfl, ends⟩ := ih inner
      exact ⟨close :: name, by simp [doubled_cons_quote], by simp, ends⟩
  | case3 d r other =>
      obtain ⟨rfl, rfl⟩ : [close] = read ∧ d :: r = rest := by simpa using taken
      exact ⟨[], rfl, rfl, by simpa using other⟩
  | case4 =>
      obtain ⟨rfl, rfl⟩ : [close] = read ∧ [] = rest := by simpa using taken
      exact ⟨[], rfl, rfl, by simp⟩
  | case5 c s other ih =>
      obtain ⟨⟨n, t⟩, inner, same⟩ := Option.map_eq_some_iff.1 taken
      obtain ⟨rfl, rfl⟩ := Prod.mk.inj same
      obtain ⟨name, rfl, rfl, ends⟩ := ih inner
      exact ⟨c :: name, by simp [doubled_cons_ne other], by simp, ends⟩

theorem literalRest_doubled {rest : List Char} (ends : rest.head? ≠ some '\'')
    (content : List Char) :
    literalRest (doubled '\'' content ++ '\'' :: rest) = some (content, rest) := by
  induction content with
  | nil =>
      cases rest with
      | nil => simp [literalRest]
      | cons c rest =>
          have other : c ≠ '\'' := by simpa using ends
          simp [literalRest, other]
  | cons c content ih =>
      by_cases same : c = '\''
      · subst same
        simp [doubled_cons_quote, literalRest, ih]
      · simp [doubled_cons_ne same, literalRest_cons_ne same, ih]

theorem of_literalRest {s content rest : List Char}
    (taken : literalRest s = some (content, rest)) :
    s = doubled '\'' content ++ '\'' :: rest := by
  fun_induction literalRest s generalizing content rest with
  | case1 => simp at taken
  | case2 r ih =>
      obtain ⟨⟨n, t⟩, inner, same⟩ := Option.map_eq_some_iff.1 taken
      obtain ⟨rfl, rfl⟩ := Prod.mk.inj same
      rw [ih inner, doubled_cons_quote]
      rfl
  | case3 d r other =>
      obtain ⟨rfl, rfl⟩ : [] = content ∧ d :: r = rest := by simpa using taken
      rfl
  | case4 =>
      obtain ⟨rfl, rfl⟩ : [] = content ∧ [] = rest := by simpa using taken
      rfl
  | case5 c s other ih =>
      obtain ⟨⟨n, t⟩, inner, same⟩ := Option.map_eq_some_iff.1 taken
      obtain ⟨rfl, rfl⟩ := Prod.mk.inj same
      rw [ih inner, doubled_cons_ne other]
      rfl

end Grammar

end CrossDialect
