import CrossDialect.Quoting
import CrossDialect.Value.Basic

/-!
One pass over the text of a statement. It numbers or names placeholders as they
come and keeps the values to be bound in the same order.
-/

namespace CrossDialect

structure Pass where
  -- The largest placeholder number so far.
  counter : Nat := 0
  -- Every base name claimed so far, once for each claim.
  claimed : List String := []
  params : List Value := []

namespace Pass

/-- Claims a name: the base itself, then the base with the count of its claims. -/
def claim (p : Pass) (base : String) : String × Pass :=
  let count := p.claimed.count base + 1
  let name := if count = 1 then base else base ++ "_" ++ Nat.repr count
  (name, { p with claimed := base :: p.claimed })

def next (p : Pass) (style : PlaceholderStyle) (column : Option String) : String × Pass :=
  match style with
  | .positional => ("?", p)
  | .numbered =>
    -- The counter has no bound here. One of 64 bits overflows where a token of the text
    -- has taken the last number, $18446744073709551615.
    let n := p.counter + 1
    ("$" ++ Nat.repr n, { p with counter := n })
  | .named =>
    let (name, p) := p.claim (Placeholder.nameFor (column.getD "param"))
    (":" ++ name, p)

/-- Takes note of a token that is already in the dialect's own style. Numbers that
do not fit 64 bits are left out of account. -/
def note (p : Pass) (style : PlaceholderStyle) (token : String) : Pass :=
  let body := token.toList.drop 1
  match style with
  | .positional => p
  | .numbered =>
    let n := Text.digitsValue body
    if n < UInt64.size then { p with counter := max p.counter n } else p
  | .named => (p.claim (String.ofList body)).2

/-- Rewrites a token into the dialect's style. Text that is no placeholder, and a
token in that style already, stay as they are. -/
def translate (t : Target) (p : Pass) (token : String) (column : Option String) : String × Pass :=
  match Placeholder.style? token column with
  | none => (token, p)
  | some style =>
    let own := t.profile.placeholder
    if style = own then (token, p.note style token) else p.next own column

def bind (t : Target) (p : Pass) (value : Value) (column : Option String) : String × Pass :=
  let (placeholder, p) := p.next t.profile.placeholder column
  (placeholder, { p with params := p.params ++ [value] })

mutual

def write (t : Target) (p : Pass) (value : Value) (column : Option String) : String × Pass :=
  match value with
  | .null => ("NULL", p)
  | .bool b =>
    let word := if t.profile.booleanWords then (if b then "TRUE" else "FALSE")
      else if b then "1" else "0"
    (word, p)
  | .int n => (Value.intText n.toInt, p)
  | .float x =>
    let text := Value.floatText x
    (if x.isFinite then text else t.quoteString text, p)
  | .text s =>
    if Placeholder.isToken s column then p.translate t s column else (t.quoteString s, p)
  | .list items =>
    let (texts, p) := writeAll t p items column
    ("(" ++ ", ".intercalate texts ++ ")", p)
  | .column name => (t.quoteIdentifier name, p)
  | .raw sql => (sql, p)
  | .param inner => p.bind t inner column

def writeAll (t : Target) (p : Pass) (values : List Value) (column : Option String) :
    List String × Pass :=
  match values with
  | [] => ([], p)
  | v :: vs =>
    let (text, p) := write t p v column
    let (texts, p) := writeAll t p vs column
    (text :: texts, p)

end

end Pass

end CrossDialect
