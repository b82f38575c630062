/-!
Blank characters are those of the Unicode property White_Space. Trimming removes
them from both ends of a text and from nowhere else.
-/

namespace CrossDialect.Text

-- The ranges of White_Space, both ends included.
def blankRanges : List (Nat × Nat) :=
  [(0x09, 0x0d), (0x20, 0x20), (0x85, 0x85), (0xa0, 0xa0), (0x1680, 0x1680),
   (0x2000, 0x200a), (0x2028, 0x2029), (0x202f, 0x202f), (0x205f, 0x205f), (0x3000, 0x3000)]

def isBlank (c : Char) : Bool :=
  blankRanges.any fun (low, high) => low ≤ c.toNat && c.toNat ≤ high

def trimStart (s : List Char) : List Char :=
  s.dropWhile isBlank

def trimEnd (s : List Char) : List Char :=
  (s.reverse.dropWhile isBlank).reverse

def trim (s : List Char) : List Char :=
  trimEnd (trimStart s)

def trimmed (s : String) : String :=
  String.ofList (trim s.toList)

theorem length_trimStart_le (s : List Char) : (trimStart s).length ≤ s.length :=
  (List.dropWhile_sublist _).length_le

theorem length_trimEnd_le (s : List Char) : (trimEnd s).length ≤ s.length := by
  have h := (List.dropWhile_sublist isBlank (l := s.reverse)).length_le
  simpa [trimEnd] using h

theorem length_trim_le (s : List Char) : (trim s).length ≤ s.length :=
  Nat.le_trans (length_trimEnd_le _) (length_trimStart_le _)

end CrossDialect.Text
