import CrossDialect.Proofs.Quoting.Identifiers
import Mathlib.Data.List.Basic

/-!
The language of identifiers, part by part. An identifier is a text of one or more parts with
dots between them in which a star is the last part, and no part holds NUL. What is read are
these parts in their order, with names in quotes as they were before their quotes were doubled.
-/

namespace CrossDialect

open Text

/-- One piece or more with dots between them. The relation tells which texts a piece has. -/
def Dotted {α : Type} (R : α → List Char → Prop) (ps : List α) (s : List Char) : Prop :=
  ps ≠ [] ∧ ∃ texts, List.Forall₂ R ps texts ∧ s = ['.'].intercalate texts

section Dotted

variable {α : Type} {R : α → List Char → Prop} {p : α} {ps : List α} {s : List Char}

theorem dotted_cons :
    Dotted R (p :: ps) s ↔
      ∃ t, R p t ∧ (ps = [] ∧ s = t ∨ ∃ u, Dotted R ps u ∧ s = t ++ '.' :: u) := by
  constructor
  · rintro ⟨_, texts, fits, rfl⟩
    cases fits with
    | @cons _ t _ _ first rest =>
        refine ⟨t, first, ?_⟩
        cases rest with
        | nil => exact .inl ⟨rfl, List.intercalate_singleton⟩
        | @cons q t' ps texts second behind =>
            exact .inr ⟨_, ⟨by simp, t' :: texts, .cons second behind, rfl⟩,
              dots_cons_cons t t' texts⟩
  · rintro ⟨t, first, ⟨rfl, rfl⟩ | ⟨_, ⟨_, texts, fits, rfl⟩, rfl⟩⟩
    · exact ⟨by simp, [s], .cons first .nil, List.intercalate_singleton.symm⟩
    · refine ⟨by simp, t :: texts, .cons first fits, ?_⟩
      cases fits with
      | nil => contradiction
      | cons => exact (dots_cons_cons _ _ _).symm

theorem Dotted.mono {R' : α → List Char → Prop} (dotted : Dotted R ps s)
    (wider : ∀ p ∈ ps, ∀ t, R p t → R' p t) : Dotted R' ps s := by
  induction ps generalizing s with
  | nil => exact absurd rfl dotted.1
  | cons p ps ih =>
      rcases dotted_cons.1 dotted with ⟨t, first, last | ⟨u, behind, same⟩⟩
      · exact dotted_cons.2 ⟨t, wider p (by simp) t first, .inl last⟩
      · have others := ih behind fun q later => wider q (List.mem_cons_of_mem p later)
        exact dotted_cons.2 ⟨t, wider p (by simp) t first, .inr ⟨u, others, same⟩⟩

theorem Dotted.exists_text (dotted : Dotted R ps s) : ∀ p ∈ ps, ∃ t, R p t := by
  induction ps generalizing s with
  | nil => simp
  | cons p ps ih =>
      rcases dotted_cons.1 dotted with ⟨t, first, ⟨rfl, _⟩ | ⟨u, behind, _⟩⟩
      · simpa using ⟨t, first⟩
      · simpa using ⟨⟨t, first⟩, ih behind⟩

end Dotted

namespace Ident

theorem Spelled.parts_ne_nil {parts : List Part} {s : List Char} (spelled : Spelled parts s) :
    parts ≠ [] := by
  cases spelled <;> simp

/-- A spelling asks for the star to be last, and for nothing else of the order of its parts. -/
theorem spelled_iff_dotted {parts : List Part} {s : List Char} :
    Spelled parts s ↔ Dotted Part.Spelled parts s ∧ Part.star ∉ parts.dropLast := by
  constructor
  · intro spelled
    induction spelled with
    | last part => exact ⟨dotted_cons.2 ⟨_, part, .inl ⟨rfl, rfl⟩⟩, by simp⟩
    | dot name part rest ih =>
        refine ⟨dotted_cons.2 ⟨_, part, .inr ⟨_, ih.1, rfl⟩⟩, ?_⟩
        rw [List.dropLast_cons_of_ne_nil rest.parts_ne_nil]
        simpa [name.symm] using ih.2
  · rintro ⟨dotted, inner⟩
    induction parts generalizing s with
    | nil => exact absurd rfl dotted.1
    | cons p parts ih =>
        rcases dotted_cons.1 dotted with ⟨t, part, ⟨rfl, rfl⟩ | ⟨u, behind, rfl⟩⟩
        · exact .last part
        · rw [List.dropLast_cons_of_ne_nil behind.1, List.mem_cons, not_or] at inner
          exact .dot (Ne.symm inner.1) part (ih behind inner.2)

end Ident

/-- A text is read as an identifier exactly if it holds no NUL and is made of the parts of
the identifier, one or more, in their order and with dots between them, where each part is a
bare word, a name that is not empty in quotes, or a star in the last place. -/
theorem identifier_read_iff_dotted (s : String) (i : Ident) :
    Ident.parse s = .ok i ↔
      '\x00' ∉ s.toList ∧ Dotted Ident.Part.Spelled i.parts s.toList ∧
        Ident.Part.star ∉ i.parts.dropLast := by
  rw [Ident.parse_eq_ok_iff, Ident.spelled_iff_dotted]

end CrossDialect
