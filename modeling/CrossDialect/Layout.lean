import CrossDialect.Pass
import CrossDialect.Error

/-!
The layout of a statement: its text in order, with names not yet quoted and values
not yet written. A layout is the same whatever was numbered before it; only when a
pass goes over it are placeholders chosen and values collected.
-/

namespace CrossDialect

inductive Piece where
  | text (sql : String)
  | name (n : String)
  -- A value that belongs to a column.
  | value (column : Option String) (v : Value)

abbrev Layout := List Piece

namespace Piece

def write (t : Target) (p : Pass) : Piece → String × Pass
  | .text sql => (sql, p)
  | .name n => (t.quoteIdentifier n, p)
  | .value column v => p.write t v column

end Piece

namespace Layout

def text (sql : String) : Layout := [.text sql]

def name (n : String) : Layout := [.name n]

def write (t : Target) (p : Pass) : Layout → String × Pass
  | [] => ("", p)
  | piece :: rest =>
    let (head, p) := piece.write t p
    let (tail, p) := write t p rest
    (head ++ tail, p)

def joined (separator : String) : List Layout → Layout
  | [] => []
  | [l] => l
  | l :: ls => l ++ .text separator :: joined separator ls

def names (ns : List String) : Layout :=
  joined ", " (ns.map name)

def parenthesized (l : Layout) : Layout :=
  .text "(" :: l ++ [.text ")"]

/-- A clause opens with its word unless there is nothing to say. -/
def clause (word : String) (l : Layout) : Layout :=
  if l.isEmpty then [] else .text word :: l

end Layout

structure Built where
  sql : String
  params : List Value

namespace Layout

def build (t : Target) (l : Layout) : Built :=
  let (sql, p) := l.write t {}
  { sql, params := p.params }

end Layout

end CrossDialect
