import CrossDialect.Quoting
import CrossDialect.Error
import CrossDialect.Json.Basic

/-!
A connection says for what target statements are written and how its backend carries
them out. Transaction control is a handful of commands; most backends take them as
SQL text in the words of the dialect.
-/

namespace CrossDialect

inductive Outcome where
  | keep
  | discard
  deriving DecidableEq

inductive Event where
  | began
  | savepointSet (depth : Nat) (name : String)
  | ended (outcome : Outcome)
  | savepointLeft (depth : Nat) (name : String) (outcome : Outcome)
  | executed (dialect : Dialect) (paramCount : Nat) (sql : String)

namespace Event

def topic : Event → String
  | .executed .. => "polysql.sql"
  | _ => "polysql.tx"

def endWord : Outcome → String
  | .keep => "commit"
  | .discard => "rollback"

def leaveWord : Outcome → String
  | .keep => "release"
  | .discard => "rollback"

def fields : Event → List (String × Json)
  | .began => [("depth", .ofNat 1), ("message", .ofString "begin")]
  | .savepointSet depth name =>
    [("depth", .ofNat depth), ("savepoint", .ofString name), ("message", .ofString "savepoint")]
  | .ended outcome =>
    [("depth", .ofNat 0), ("outcome", .ofString (endWord outcome)), ("message", .ofString "end")]
  | .savepointLeft depth name outcome =>
    [("depth", .ofNat depth), ("savepoint", .ofString name),
     ("outcome", .ofString (leaveWord outcome)), ("message", .ofString "end savepoint")]
  | .executed dialect paramCount sql =>
    [("dialect", .ofString dialect.name), ("param_count", .ofNat paramCount),
     ("sql", .ofString sql)]

end Event

inductive Control where
  | begin
  | commit
  | rollback
  | savepoint (name : String)
  | release (name : String)
  | rollbackTo (name : String)
  deriving DecidableEq

/-- The SQL text of a command. Where a dialect never releases a savepoint there is
nothing to send. -/
def Control.sql? (d : Dialect) (k : Control) : Option String :=
  let words := d.profile.transaction
  match k with
  | .begin => some words.opening
  | .commit => some words.commit
  | .rollback => some words.rollback
  | .savepoint name => some (words.savepoint ++ " " ++ name)
  | .release name => words.release.map fun release => release ++ " " ++ name
  | .rollbackTo name => some (words.rollbackTo ++ " " ++ name)

structure Connection (σ : Type) where
  target : Target
  control : Control → σ → Except Error Unit × σ
  -- Runs a statement with its values and counts the rows it touched.
  execute : String → List Value → σ → Except Error Nat × σ

def Connection.ofBatch {σ : Type} (target : Target) (batch : String → σ → Except Error Unit × σ)
    (execute : String → List Value → σ → Except Error Nat × σ) : Connection σ where
  target := target
  control k s :=
    match k.sql? target.dialect with
    | some sql => batch sql s
    | none => (.ok (), s)
  execute := execute

/-- A connection with the state of its backend and what was reported so far. -/
structure Channel (σ : Type) where
  connection : Connection σ
  backend : σ
  events : List Event := []

namespace Channel

variable {σ : Type}

def dialect (c : Channel σ) : Dialect := c.connection.target.dialect

def report (c : Channel σ) (e : Event) : Channel σ :=
  { c with events := c.events ++ [e] }

def control (c : Channel σ) (k : Control) : Except Error Unit × Channel σ :=
  let (result, backend) := c.connection.control k c.backend
  (result, { c with backend })

def execute (c : Channel σ) (sql : String) (params : List Value) : Except Error Nat × Channel σ :=
  let (result, backend) := c.connection.execute sql params c.backend
  (result, { c with backend })

end Channel

end CrossDialect
