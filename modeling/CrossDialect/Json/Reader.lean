import CrossDialect.Json.Basic

/-!
JSON text is cut into tokens, and the tokens are gathered into a tree. Only a
whole text is read: nothing but spaces may follow the tree.
-/

namespace CrossDialect.Json

open Text

inductive Token where
  | openBracket
  | closeBracket
  | openBrace
  | closeBrace
  | colon
  | comma
  | leaf (j : Json)
  | text (s : Quoted)

inductive StringPiece where
  | char (c : Char)
  | unit (n : Nat)

def hexValue? (c : Char) : Option Nat :=
  if c.isDigit then some (c.toNat - '0'.toNat)
  else if 'a' ≤ c ∧ c ≤ 'f' then some (c.toNat - 'a'.toNat + 10)
  else if 'A' ≤ c ∧ c ≤ 'F' then some (c.toNat - 'A'.toNat + 10)
  else none

def unit? (a b c d : Char) : Option Nat := do
  return 4096 * (← hexValue? a) + 256 * (← hexValue? b) + 16 * (← hexValue? c) + (← hexValue? d)

def namedEscape? : Char → Option Char
  | '"' => some '"'
  | '\\' => some '\\'
  | '/' => some '/'
  | 'b' => some '\x08'
  | 'f' => some '\x0c'
  | 'n' => some '\n'
  | 'r' => some '\r'
  | 't' => some '\t'
  | _ => none

def stringPieces : List Char → Option (List StringPiece × List Char)
  | [] => none
  | '"' :: s => some ([], s)
  | '\\' :: 'u' :: a :: b :: c :: d :: s => do
    let n ← unit? a b c d
    let (ps, rest) ← stringPieces s
    return (.unit n :: ps, rest)
  | '\\' :: e :: s => do
    let c ← namedEscape? e
    let (ps, rest) ← stringPieces s
    return (.char c :: ps, rest)
  | c :: s =>
    if c = '\\' ∨ c.toNat < 0x20 then none
    else do
      let (ps, rest) ← stringPieces s
      return (.char c :: ps, rest)

def isHighSurrogate (n : Nat) : Bool := 0xd800 ≤ n && n < 0xdc00

def isLowSurrogate (n : Nat) : Bool := 0xdc00 ≤ n && n < 0xe000

/-- Two surrogates make one character; one alone makes the string unsound. -/
def joinPieces : List StringPiece → List Char × Bool
  | [] => ([], true)
  | .char c :: ps =>
    let (cs, sound) := joinPieces ps
    (c :: cs, sound)
  | .unit high :: .unit low :: ps =>
    if isHighSurrogate high && isLowSurrogate low then
      let (cs, sound) := joinPieces ps
      (Char.ofNat (0x10000 + (high - 0xd800) * 0x400 + (low - 0xdc00)) :: cs, sound)
    else
      let (cs, sound) := joinPieces (.unit low :: ps)
      if isHighSurrogate high || isLowSurrogate high then ('\ufffd' :: cs, false)
      else (Char.ofNat high :: cs, sound)
  | .unit n :: ps =>
    let (cs, sound) := joinPieces ps
    if isHighSurrogate n || isLowSurrogate n then ('\ufffd' :: cs, false)
    else (Char.ofNat n :: cs, sound)

def quoted? (s : List Char) : Option (Quoted × List Char) := do
  let (pieces, rest) ← stringPieces s
  let (chars, sound) := joinPieces pieces
  return ({ text := String.ofList chars, sound }, rest)

def exponent? : List Char → Option (Option Int × List Char)
  | e :: s =>
    if e = 'e' ∨ e = 'E' then do
      let (negative, s) := Decimal.splitSign s
      let (ds, rest) ← digits? s
      return (some (if negative then -(digitsValue ds : Int) else digitsValue ds), rest)
    else some (none, e :: s)
  | [] => some (none, [])

/-- A number: no digit follows a leading zero. -/
def number? (s : List Char) : Option (Number × List Char) := do
  let (negative, s) := match s with
    | '-' :: r => (true, r)
    | r => (false, r)
  let (whole, s) ← match s with
    | '0' :: r => some (['0'], r)
    | r => digits? r
  let (fraction, s) ← match s with
    | '.' :: r => digits? r
    | r => some ([], r)
  let (exponent, s) ← exponent? s
  return ({ negative, whole, fraction, exponent }, s)

def token? : List Char → Option (Token × List Char)
  | [] => none
  | '[' :: s => some (.openBracket, s)
  | ']' :: s => some (.closeBracket, s)
  | '\x7b' :: s => some (.openBrace, s)
  | '\x7d' :: s => some (.closeBrace, s)
  | ':' :: s => some (.colon, s)
  | ',' :: s => some (.comma, s)
  | '"' :: s => (quoted? s).map fun (q, rest) => (.text q, rest)
  | 'n' :: 'u' :: 'l' :: 'l' :: s => some (.leaf .null, s)
  | 't' :: 'r' :: 'u' :: 'e' :: s => some (.leaf (.bool true), s)
  | 'f' :: 'a' :: 'l' :: 's' :: 'e' :: s => some (.leaf (.bool false), s)
  | s => (number? s).map fun (n, rest) => (.leaf (.number n), rest)

/-- Cuts a text into tokens. A token that takes up no text ends the reading, so
every step makes the text shorter. -/
def tokens? (s : List Char) : Option (List Token) :=
  match s.dropWhile isGap with
  | [] => some []
  | c :: r =>
    match token? (c :: r) with
    | none => none
    | some (t, rest) =>
      if rest.length < s.length then (tokens? rest).map (t :: ·) else none
termination_by s.length

abbrev Rest (ts : List Token) := { r : List Token // r.length < ts.length }

mutual

def value? (ts : List Token) : Option (Json × Rest ts) :=
  match ts with
  | .leaf j :: r => some (j, ⟨r, by simp⟩)
  | .text s :: r => some (.string s, ⟨r, by simp⟩)
  | .openBracket :: .closeBracket :: r =>
    some (.array [], ⟨r, by simp only [List.length_cons]; omega⟩)
  | .openBracket :: r => do
    let (items, ⟨rest, h⟩) ← elements? r
    return (.array items, ⟨rest, by simp only [List.length_cons]; omega⟩)
  | .openBrace :: .closeBrace :: r =>
    some (.object [], ⟨r, by simp only [List.length_cons]; omega⟩)
  | .openBrace :: r => do
    let (fields, ⟨rest, h⟩) ← members? r
    return (.object fields, ⟨rest, by simp only [List.length_cons]; omega⟩)
  | _ => none
termination_by (ts.length, 0)

def elements? (ts : List Token) : Option (List Json × Rest ts) := do
  match ← value? ts with
  | (j, ⟨.closeBracket :: rest, h⟩) => return ([j], ⟨rest, by simp at h; omega⟩)
  | (j, ⟨.comma :: more, h⟩) =>
    have : more.length < ts.length := by simp at h; omega
    let (js, ⟨rest, h'⟩) ← elements? more
    return (j :: js, ⟨rest, by simp at h; omega⟩)
  | _ => none
termination_by (ts.length, 1)

def members? (ts : List Token) : Option (List (Quoted × Json) × Rest ts) :=
  match ts with
  | .text key :: .colon :: r => do
    match ← value? r with
    | (v, ⟨.closeBrace :: rest, h⟩) => return ([(key, v)], ⟨rest, by simp at h ⊢; omega⟩)
    | (v, ⟨.comma :: more, h⟩) =>
      have : more.length < r.length := by simp at h; omega
      let (fs, ⟨rest, h'⟩) ← members? more
      return ((key, v) :: fs, ⟨rest, by simp at h ⊢; omega⟩)
    | _ => none
  | _ => none
termination_by (ts.length, 1)

end

def read? (s : String) : Option Json := do
  match ← value? (← tokens? s.toList) with
  | (j, ⟨[], _⟩) => return j
  | _ => none

end CrossDialect.Json
