import CrossDialect.Value.Basic
import CrossDialect.Text.Word

/-!
UUIDs are read with or without hyphens, in braces or with a URN's head, and written
in one form: lower case with hyphens.
-/

namespace CrossDialect.Uuid

open Text

def groupLengths : List Nat := [8, 4, 4, 4, 12]

def cut : List Nat → List Char → List (List Char)
  | [], _ => []
  | n :: ns, s => s.take n :: cut ns (s.drop n)

def hyphenated? (s : List Char) : Option (List Char) :=
  let digits := s.filter (· != '-')
  if digits.all isHexDigit && ['-'].intercalate (cut groupLengths digits) == s then some digits
  else none

def digitsOf? (s : List Char) : Option (List Char) :=
  if s.length = 32 then (if s.all isHexDigit then some s else none)
  else if s.length = 36 then hyphenated? s
  else if s.length = 38 && s.head? == some '\x7b' && s.getLast? == some '\x7d' then
    hyphenated? (s.drop 1).dropLast
  else if s.length = 45 && s.take 9 == "urn:uuid:".toList then hyphenated? (s.drop 9)
  else none

def read? (text : String) : Option Value :=
  (digitsOf? text.toList).map fun ds =>
    .text (String.ofList (['-'].intercalate (cut groupLengths (ds.map Char.toLower))))

end CrossDialect.Uuid
