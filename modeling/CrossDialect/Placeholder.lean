import CrossDialect.Dialect.Basic
import CrossDialect.Text.Word

/-!
Placeholder tokens in the three styles. A colon and a name is a placeholder only
where that name belongs to the column at hand, so other text that starts with a
colon stays text.
-/

namespace CrossDialect.Placeholder

open Text

/-- The name a column lends to its placeholder: letters and digits stay, all else
becomes an underscore. -/
def nameChars (column : List Char) : List Char :=
  if column.isEmpty then "param".toList
  else column.map fun c => if c.isAlphanum then c else '_'

def nameFor (column : String) : String :=
  String.ofList (nameChars column.toList)

/-- Does a name after a colon belong to the column? Without a column every word does. -/
def matchesColumn (name : List Char) : Option (List Char) → Bool
  | some column => name == column || name == nameChars column
  | none =>
    match name with
    | [] => false
    | c :: cs => isWordStart c && cs.all isWordChar

def styleOf (token : List Char) (column : Option (List Char)) : Option PlaceholderStyle :=
  match token with
  | ['?'] => some .positional
  | '$' :: ds => if isNumeral ds then some .numbered else none
  | ':' :: name => if matchesColumn name column then some .named else none
  | _ => none

def style? (token : String) (column : Option String := none) : Option PlaceholderStyle :=
  styleOf token.toList (column.map String.toList)

def isToken (token : String) (column : Option String := none) : Bool :=
  (style? token column).isSome

end CrossDialect.Placeholder
