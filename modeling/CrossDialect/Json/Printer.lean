import CrossDialect.Json.Basic

/-!
Compact JSON text: no spaces, the fewest escapes, numbers in one form. The
canonical tree has the keys of every object in order of their code points, each
once.
-/

namespace CrossDialect.Json

/-- Numbers are positional from `1e-5` up to below `1e16` and keep a point. -/
def spelling : Decimal.Spelling where
  tie := .toEven
  keepsPoint := true
  scientific := some (16, -5)

def hexDigit (n : Nat) : Char :=
  (Nat.digitChar n)

def escapeChar (c : Char) : List Char :=
  match c with
  | '"' => ['\\', '"']
  | '\\' => ['\\', '\\']
  | '\n' => ['\\', 'n']
  | '\r' => ['\\', 'r']
  | '\t' => ['\\', 't']
  | '\x08' => ['\\', 'b']
  | '\x0c' => ['\\', 'f']
  | c =>
    if c.toNat < 0x20 then
      ['\\', 'u', '0', '0', hexDigit (c.toNat / 16), hexDigit (c.toNat % 16)]
    else [c]

def quote (s : String) : String :=
  String.ofList ('"' :: s.toList.flatMap escapeChar ++ ['"'])

/-- Whole numbers within 64 bits are written as such, all others as doubles. -/
def Number.compact (n : Number) : String :=
  match n.integer? with
  | some i =>
    if Int64.minValue.toInt ≤ i ∧ i < UInt64.size then toString i else spelling.spell n.toFloat
  | none => spelling.spell n.toFloat

mutual

def compact : Json → String
  | .null => "null"
  | .bool b => if b then "true" else "false"
  | .number n => n.compact
  | .string s => quote s.text
  | .array items => "[" ++ ",".intercalate (compactItems items) ++ "]"
  | .object fields => "\x7b" ++ ",".intercalate (compactFields fields) ++ "\x7d"

def compactItems : List Json → List String
  | [] => []
  | j :: js => compact j :: compactItems js

def compactFields : List (Quoted × Json) → List String
  | [] => []
  | (k, v) :: fs => (quote k.text ++ ":" ++ compact v) :: compactFields fs

end

/-- Puts a field in order of its key, in place of an earlier one of that key. -/
def insertField (key : Quoted) (value : Json) : List (Quoted × Json) → List (Quoted × Json)
  | [] => [(key, value)]
  | (k, v) :: fs =>
    if key.text = k.text then (key, value) :: fs
    else if key.text < k.text then (key, value) :: (k, v) :: fs
    else (k, v) :: insertField key value fs

mutual

def canonical : Json → Json
  | .array items => .array (canonicalItems items)
  | .object fields => .object (canonicalFields fields [])
  | j => j

def canonicalItems : List Json → List Json
  | [] => []
  | j :: js => canonical j :: canonicalItems js

def canonicalFields : List (Quoted × Json) → List (Quoted × Json) → List (Quoted × Json)
  | [], done => done
  | (k, v) :: fs, done => canonicalFields fs (insertField k (canonical v) done)

end

end CrossDialect.Json
