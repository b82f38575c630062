/-!
Words are written in ASCII: a letter or underscore, then letters, digits and
underscores. Keywords are matched without regard to ASCII case and only where no
word character follows.
-/

namespace CrossDialect.Text

def isWordStart (c : Char) : Bool :=
  c == '_' || c.isAlpha

def isWordChar (c : Char) : Bool :=
  c == '_' || c.isAlphanum

/-- Names may also hold dollar signs after their first character. -/
def isNameChar (c : Char) : Bool :=
  isWordChar c || c == '$'

def lower (s : List Char) : List Char :=
  s.map Char.toLower

/-- What follows `lead` at the head of a text. -/
def after? (lead : List Char) : List Char → Option (List Char) :=
  match lead with
  | [] => some
  | l :: ls => fun
    | [] => none
    | c :: cs => if c = l then after? ls cs else none

-- A few characters beyond ASCII fold to a letter, as the Kelvin sign U+212A does to k. A
-- reader that folds by Unicode but counts the bytes of `lead` cuts the text inside of it
-- and crashes. Here it is no letter, and the word is not found.
/-- What follows `lead` at the head of a text, ASCII case ignored. -/
def afterFolded? (lead : List Char) : List Char → Option (List Char) :=
  match lead with
  | [] => some
  | l :: ls => fun
    | [] => none
    | c :: cs => if c.toUpper = l.toUpper then afterFolded? ls cs else none

def wordEnds : List Char → Bool
  | [] => true
  | c :: _ => !isWordChar c

def keyword? (word : List Char) (s : List Char) : Option (List Char) :=
  (afterFolded? word s).filter wordEnds

-- The spaces between the pieces of a condition are these four, not every blank.
def isGap (c : Char) : Bool :=
  c == ' ' || c == '\t' || c == '\r' || c == '\n'

def skipGap (s : List Char) : List Char :=
  s.dropWhile isGap

def gap? : List Char → Option (List Char)
  | [] => none
  | c :: s => if isGap c then some (skipGap s) else none

def digits? (s : List Char) : Option (List Char × List Char) :=
  match s.takeWhile Char.isDigit with
  | [] => none
  | d :: ds => some (d :: ds, s.dropWhile Char.isDigit)

def isHexDigit (c : Char) : Bool :=
  c.isDigit || ('a' ≤ c && c ≤ 'f') || ('A' ≤ c && c ≤ 'F')

/-- The closing quote of a name that begins with this opening quote. -/
def closingQuote? : Char → Option Char
  | '"' => some '"'
  | '\x60' => some '\x60'
  | '[' => some ']'
  | _ => none

def digitsValue (ds : List Char) : Nat :=
  ds.foldl (fun n d => 10 * n + (d.toNat - '0'.toNat)) 0

def isNumeral (s : List Char) : Bool :=
  !s.isEmpty && s.all Char.isDigit

theorem length_afterFolded? {lead s rest : List Char} (h : afterFolded? lead s = some rest) :
    s.length = lead.length + rest.length := by
  induction lead generalizing s with
  | nil => simp_all [afterFolded?]
  | cons l ls ih =>
    cases s with
    | nil => simp [afterFolded?] at h
    | cons c cs =>
      simp only [afterFolded?] at h
      split at h
      · simp [ih h]; omega
      · simp at h

theorem length_keyword? {word s rest : List Char} (h : keyword? word s = some rest) :
    s.length = word.length + rest.length := by
  obtain ⟨h, -⟩ := Option.filter_eq_some_iff.1 h
  exact length_afterFolded? h

theorem length_skipGap_le (s : List Char) : (skipGap s).length ≤ s.length :=
  (List.dropWhile_sublist _).length_le

theorem append_of_digits? {s ds rest : List Char} (h : digits? s = some (ds, rest)) :
    s = ds ++ rest ∧ ds ≠ [] := by
  unfold digits? at h
  split at h
  · simp at h
  · rename_i d r hd
    simp only [Option.some.injEq, Prod.mk.injEq] at h
    obtain ⟨rfl, rfl⟩ := h
    exact ⟨by rw [← hd]; exact (List.takeWhile_append_dropWhile).symm, by simp⟩

theorem length_digits? {s ds rest : List Char} (h : digits? s = some (ds, rest)) :
    rest.length < s.length := by
  obtain ⟨rfl, hne⟩ := append_of_digits? h
  have := List.length_pos_iff.2 hne
  simp only [List.length_append]
  omega

end CrossDialect.Text
