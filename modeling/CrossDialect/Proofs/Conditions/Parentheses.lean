import CrossDialect.Proofs.Conditions.Spelling

/-!
Where a text in parentheses ends. Its reader counts open parentheses and switches at every
single quote; what it looks for is said by counting alone: outside of quotes as many
parentheses are closed as are opened. Behind an opening parenthesis the reader stops at the
end of the shortest beginning with this property, and gives nothing only where there is none.
-/

namespace CrossDialect

namespace Text

/-- The shortest beginning of a text that is not empty and has a property. -/
structure Shortest (P : List Char → Prop) (text s : List Char) : Prop where
  present : text ≠ []
  beginning : text <+: s
  holds : P text
  shortest : ∀ {t : List Char}, t ≠ [] → t <+: s → P t → text.length ≤ t.length

/-- The shortest beginning with a property, together with the rest of the text, or nothing
if no beginning but the empty one has the property. -/
def Finds (P : List Char → Prop) (s : List Char) : Option (List Char × List Char) → Prop
  | some (text, rest) => s = text ++ rest ∧ Shortest P text s
  | none => ∀ t, t ≠ [] → t <+: s → ¬ P t

section finds

variable {P : List Char → Prop} {text t s : List Char}

theorem Shortest.unique (first : Shortest P text s) (second : Shortest P t s) : text = t := by
  have shorter := first.shortest second.present second.beginning second.holds
  have longer := second.shortest first.present first.beginning first.holds
  have inside := List.prefix_of_prefix_length_le first.beginning second.beginning shorter
  exact inside.eq_of_length (Nat.le_antisymm shorter longer)

theorem Shortest.head?_eq (shortest : Shortest P text s) : text.head? = s.head? := by
  obtain ⟨rest, rfl⟩ := shortest.beginning
  cases text with
  | nil => exact absurd rfl shortest.present
  | cons c text => rfl

namespace Finds

variable {found : Option (List Char × List Char)}

theorem eq_some_iff (finds : Finds P s found) {rest : List Char} :
    found = some (text, rest) ↔ s = text ++ rest ∧ Shortest P text s := by
  constructor
  · rintro rfl
    exact finds
  · rintro ⟨split, shortest⟩
    cases found with
    | none => exact absurd shortest.holds (finds text shortest.present shortest.beginning)
    | some read =>
        rcases read with ⟨t, left⟩
        rcases finds with ⟨split', shortest'⟩
        obtain rfl := shortest.unique shortest'
        rw [List.append_cancel_left (split.symm.trans split')]

theorem eq_none_iff (finds : Finds P s found) :
    found = none ↔ ∀ t, t ≠ [] → t <+: s → ¬ P t := by
  constructor
  · rintro rfl
    exact finds
  · intro never
    cases found with
    | none => rfl
    | some read =>
        have shortest := finds.2
        exact absurd shortest.holds (never _ shortest.present shortest.beginning)

theorem nil : Finds P [] none := by
  intro t present beginning
  exact absurd (List.prefix_nil.1 beginning) present

variable {c : Char}

theorem first (holds : P [c]) : Finds P (c :: s) (some ([c], s)) := by
  refine ⟨rfl, by simp, ⟨s, rfl⟩, holds, ?_⟩
  intro t present _ _
  exact List.length_pos_iff.2 present

theorem later (short : ¬ P [c]) (finds : Finds (fun t => P (c :: t)) s found) :
    Finds P (c :: s) (found.map (Grammar.behind c)) := by
  cases found with
  | none =>
      intro t present beginning holds
      rcases List.prefix_cons_iff.1 beginning with rfl | ⟨u, rfl, within⟩
      · exact present rfl
      · have more : u ≠ [] := by
          rintro rfl
          exact short holds
        exact finds u more within holds
  | some read =>
      rcases read with ⟨text, rest⟩
      rcases finds with ⟨rfl, shortest⟩
      refine ⟨rfl, by simp, ⟨rest, rfl⟩, shortest.holds, ?_⟩
      intro t present beginning holds
      rcases List.prefix_cons_iff.1 beginning with rfl | ⟨u, rfl, within⟩
      · exact absurd rfl present
      · have more : u ≠ [] := by
          rintro rfl
          exact short holds
        exact Nat.succ_le_succ (shortest.shortest more within holds)

end Finds

end finds

/-- The characters outside of single quotes. Every quote switches between inside and outside. -/
def unquoted : Bool → List Char → List Char
  | _, [] => []
  | inQuotes, c :: s =>
    if c = '\'' then unquoted (!inQuotes) s
    else if inQuotes then unquoted inQuotes s
    else c :: unquoted inQuotes s

/-- Outside of single quotes as many parentheses are closed as are opened. -/
def IsLevel (s : List Char) : Prop :=
  (unquoted false s).count '(' = (unquoted false s).count ')'

/-- The same in the middle of a text, behind so many parentheses that are still open. -/
def LevelFrom (depth : Nat) (inQuotes : Bool) (s : List Char) : Prop :=
  depth + (unquoted inQuotes s).count '(' = (unquoted inQuotes s).count ')'

theorem isLevel_iff (s : List Char) : IsLevel s ↔ LevelFrom 0 false s := by
  simp [IsLevel, LevelFrom]

/-! One character of a text, and what has to be level behind it. -/

section levelFrom

variable (depth : Nat) (s : List Char)

theorem not_levelFrom_nil (inQuotes : Bool) : ¬ LevelFrom (depth + 1) inQuotes [] := by
  simp [LevelFrom, unquoted]

theorem levelFrom_quote (inQuotes : Bool) :
    LevelFrom depth inQuotes ('\'' :: s) ↔ LevelFrom depth (!inQuotes) s := by
  simp [LevelFrom, unquoted]

theorem levelFrom_quoted {c : Char} (quote : c ≠ '\'') :
    LevelFrom depth true (c :: s) ↔ LevelFrom depth true s := by
  simp [LevelFrom, unquoted, quote]

theorem levelFrom_plain {c : Char} (quote : c ≠ '\'') (opening : c ≠ '(') (closes : c ≠ ')') :
    LevelFrom depth false (c :: s) ↔ LevelFrom depth false s := by
  simp [LevelFrom, unquoted, quote, opening, closes]

theorem levelFrom_opening : LevelFrom depth false ('(' :: s) ↔ LevelFrom (depth + 1) false s := by
  simp [LevelFrom, unquoted]
  omega

theorem levelFrom_closing : LevelFrom (depth + 1) false (')' :: s) ↔ LevelFrom depth false s := by
  simp [LevelFrom, unquoted]
  omega

end levelFrom

end Text

namespace Grammar

open Text

/-- The reader's count is the number of parentheses that are still open, so it stops where
they are level for the first time. -/
theorem finds_closing (depth : Nat) (inQuotes : Bool) (s : List Char) :
    Finds (LevelFrom (depth + 1) inQuotes) s (closing (depth + 1) inQuotes s) := by
  induction s generalizing depth inQuotes with
  | nil => exact .nil
  | cons c s ih =>
      -- wherever the reader goes on, a parenthesis is still open, so this character alone
      -- cannot be the beginning that is looked for
      have step {depth' : Nat} {inQuotes' : Bool}
          (same : ∀ t, LevelFrom (depth + 1) inQuotes (c :: t) ↔
            LevelFrom (depth' + 1) inQuotes' t) :
          Finds (LevelFrom (depth + 1) inQuotes) (c :: s)
            ((closing (depth' + 1) inQuotes' s).map (behind c)) := by
        apply Finds.later
        · rw [same]
          exact not_levelFrom_nil depth' inQuotes'
        · simp only [same]
          exact ih depth' inQuotes'
      by_cases quote : c = '\''
      · subst quote
        rw [closing_quote]
        exact step fun t => levelFrom_quote _ t _
      cases inQuotes with
      | true =>
          rw [closing_quoted _ _ quote]
          exact step fun t => levelFrom_quoted _ t quote
      | false =>
          by_cases opening : c = '('
          · subst opening
            rw [closing_opening]
            exact step fun t => levelFrom_opening _ t
          by_cases closes : c = ')'
          · subst closes
            cases depth with
            | zero =>
                rw [closing_last]
                exact .first ((levelFrom_closing 0 []).2 rfl)
            | succ depth =>
                rw [closing_inner]
                exact step fun t => levelFrom_closing _ t
          · rw [closing_plain _ _ quote opening closes]
            exact step fun t => levelFrom_plain _ t quote opening closes

theorem finds_balancedParens (s : List Char) :
    Finds IsLevel ('(' :: s) (balancedParens ('(' :: s)) := by
  have same : IsLevel = LevelFrom 0 false := funext fun t => propext (isLevel_iff t)
  rw [same]
  refine Finds.later ?_ ?_
  · rw [levelFrom_opening]
    exact not_levelFrom_nil 0 false
  · simp only [levelFrom_opening]
    exact finds_closing 0 false s

theorem balancedParens_eq_none {s : List Char} (other : s.head? ≠ some '(') :
    balancedParens s = none := by
  cases s with
  | nil => rfl
  | cons c s =>
      have different : c ≠ '(' := by
        rintro rfl
        exact other rfl
      simp [balancedParens, different]

/-- Text in parentheses is read up to the end of the shortest beginning in which they are
level outside of quotes. Nothing is read where another character stands first or no
beginning is level. -/
theorem parens_end_at_first_level (s : List Char) :
    (∀ text rest, balancedParens s = some (text, rest) ↔
      s = text ++ rest ∧ text.head? = some '(' ∧ Shortest IsLevel text s) ∧
    (balancedParens s = none ↔
      s.head? ≠ some '(' ∨ ∀ t, t ≠ [] → t <+: s → ¬ IsLevel t) := by
  by_cases start : s.head? = some '('
  · obtain ⟨s, rfl⟩ := List.head?_eq_some_iff.1 start
    have finds := finds_balancedParens s
    refine ⟨fun text rest => ?_, ?_⟩
    · rw [finds.eq_some_iff]
      constructor
      · rintro ⟨split, shortest⟩
        exact ⟨split, shortest.head?_eq.trans start, shortest⟩
      · rintro ⟨split, -, shortest⟩
        exact ⟨split, shortest⟩
    · rw [finds.eq_none_iff]
      simp [start]
  · have none := balancedParens_eq_none start
    refine ⟨fun text rest => ?_, by simp [none, start]⟩
    constructor
    · intro read
      rw [none] at read
      cases read
    · rintro ⟨-, head, shortest⟩
      exact absurd (shortest.head?_eq.symm.trans head) start

/-- A parenthesis between quotes does not close, and what follows the last one is left. -/
example : balancedParens "(f(a), ')') > (1)".toList =
    some ("(f(a), ')')".toList, " > (1)".toList) := by
  decide

end Grammar

end CrossDialect
