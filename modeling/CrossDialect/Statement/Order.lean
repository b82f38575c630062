import CrossDialect.Layout

/-!
The order of rows. Several items may be given in one text, with commas between
them that stand outside parentheses and with a direction after each.
-/

namespace CrossDialect

open Text

inductive Direction where
  | ascending
  | descending
  deriving DecidableEq

def Direction.sql : Direction → String
  | .ascending => "ASC"
  | .descending => "DESC"

structure OrderItem where
  column : String
  direction : Option Direction
  deriving DecidableEq

namespace OrderItem

/-- The texts between commas outside parentheses. A closing parenthesis too many is
not counted. -/
def splitOutside (depth : Nat) : List Char → List (List Char)
  | [] => [[]]
  | c :: s =>
    if c = ',' ∧ depth = 0 then [] :: splitOutside depth s
    else
      let depth := if c = '(' then depth + 1 else if c = ')' then depth - 1 else depth
      match splitOutside depth s with
      | [] => [[c]]
      | piece :: pieces => (c :: piece) :: pieces

def beforeWord? (word s : List Char) : Option (List Char) :=
  (afterFolded? (' ' :: word).reverse s.reverse).map List.reverse

def ofChars (s : List Char) : OrderItem :=
  match beforeWord? "DESC".toList s, beforeWord? "ASC".toList s with
  | some column, _ => ⟨String.ofList (trim column), some .descending⟩
  | none, some column => ⟨String.ofList (trim column), some .ascending⟩
  | none, none => ⟨String.ofList s, none⟩

/-- The items of a text; empty ones are left out. -/
def ofText (clause : String) : List OrderItem :=
  ((splitOutside 0 clause.toList).map trim).filter (!·.isEmpty) |>.map ofChars

def layout (item : OrderItem) : Layout :=
  .name item.column :: match item.direction with
    | some d => [.text (" " ++ d.sql)]
    | none => []

def layouts (items : List OrderItem) : Layout :=
  Layout.joined ", " (items.map layout)

end OrderItem

end CrossDialect
