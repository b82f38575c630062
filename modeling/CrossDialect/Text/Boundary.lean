/-!
Places in the bytes of a text. A text may only be cut where a character starts or the text
ends, and from any other place the next such boundary is searched backward.
-/

namespace CrossDialect.Text

/-- Does a character start behind so many bytes, or does the text end there? -/
def IsBoundary (s : String) (place : Nat) : Prop :=
  (String.Pos.Raw.mk place).IsValid s

instance (s : String) (place : Nat) : Decidable (IsBoundary s place) :=
  inferInstanceAs (Decidable ((String.Pos.Raw.mk place).IsValid s))

def lastBoundary (s : String) : Nat → Nat
  | 0 => 0
  | place + 1 => if IsBoundary s (place + 1) then place + 1 else lastBoundary s place

theorem isBoundary_zero (s : String) : IsBoundary s 0 := String.Pos.Raw.isValid_zero

theorem isBoundary_lastBoundary (s : String) (place : Nat) :
    IsBoundary s (lastBoundary s place) := by
  induction place with
  | zero => exact isBoundary_zero s
  | succ place ih =>
    simp only [lastBoundary]
    split
    · assumption
    · exact ih

def upTo (s : String) (place : Nat) (h : IsBoundary s place) : String :=
  (s.sliceTo (s.pos ⟨place⟩ h)).copy

end CrossDialect.Text
