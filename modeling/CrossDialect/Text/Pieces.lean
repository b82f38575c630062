/-!
Texts cut at every occurrence of a separator. Between two separators there is
always a piece, be it empty, so the pieces tell the text again.
-/

namespace CrossDialect.Text

def pieces (separator : Char) : List Char → List (List Char)
  | [] => [[]]
  | c :: s =>
    if c = separator then [] :: pieces separator s
    else match pieces separator s with
      | [] => [[c]]
      | p :: ps => (c :: p) :: ps

theorem pieces_ne_nil (separator : Char) (s : List Char) : pieces separator s ≠ [] := by
  cases s with
  | nil => simp [pieces]
  | cons c s =>
    simp only [pieces]
    split
    · simp
    · split <;> simp

theorem intercalate_pieces (separator : Char) (s : List Char) :
    [separator].intercalate (pieces separator s) = s := by
  induction s with
  | nil => simp [pieces, List.intercalate]
  | cons c s ih =>
    simp only [pieces]
    split
    · rename_i h
      cases hp : pieces separator s with
      | nil => exact absurd hp (pieces_ne_nil separator s)
      | cons p ps => simp_all [List.intercalate]
    · cases hp : pieces separator s with
      | nil => exact absurd hp (pieces_ne_nil separator s)
      | cons p ps => cases ps <;> simp_all [List.intercalate]

end CrossDialect.Text
