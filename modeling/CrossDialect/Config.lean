import CrossDialect.Json.Printer
import CrossDialect.Json.Reader
import CrossDialect.Text.Boundary

/-!
The configuration of an adapter and its stored form. Fields that are missing keep
their defaults and unknown ones are skipped; a field given twice, or of the wrong
kind, is refused.
-/

namespace CrossDialect

structure Config where
  -- What the names of savepoints begin with.
  savepointStem : String := "polysql_sp"
  -- Are executed statements logged?
  logsSql : Bool := false
  -- The number of bytes after which logged SQL is cut off, if it is.
  maxLoggedBytes : Option Nat := some 200
  deriving DecidableEq

namespace Config

/-- SQL text as it is logged: cut off at the last boundary of characters within the
limit, with dots where something is missing. -/
def truncate (c : Config) (sql : String) : String :=
  match c.maxLoggedBytes with
  | some limit =>
    if limit < sql.utf8ByteSize then
      Text.upTo sql _ (Text.isBoundary_lastBoundary sql limit) ++ "..."
    else sql
  | none => sql

/-- A length is a whole number within 64 bits, or null for none. -/
def lengthOf? : Json → Option (Option Nat)
  | .null => some none
  | j => do
    let i ← j.integer?
    if 0 ≤ i ∧ i < UInt64.size then some (some i.toNat) else none

structure Given where
  savepointStem : Option String := none
  logsSql : Option Bool := none
  maxLoggedBytes : Option (Option Nat) := none

def Given.complete (g : Given) : Config :=
  let default : Config := {}
  { savepointStem := g.savepointStem.getD default.savepointStem
    logsSql := g.logsSql.getD default.logsSql
    maxLoggedBytes := g.maxLoggedBytes.getD default.maxLoggedBytes }

def Given.take (g : Given) (key : String) (value : Json) : Option Given :=
  match key with
  | "savepoint_prefix" =>
    if g.savepointStem.isSome then none
    else value.text?.map fun s => { g with savepointStem := some s }
  | "log_sql" =>
    if g.logsSql.isSome then none
    else value.bool?.map fun b => { g with logsSql := some b }
  | "max_logged_sql_length" =>
    if g.maxLoggedBytes.isSome then none
    else (lengthOf? value).map fun n => { g with maxLoggedBytes := some n }
  | _ => some g

/-- The stored names in order; a list gives the fields by position. -/
def storedNames : List String := ["savepoint_prefix", "log_sql", "max_logged_sql_length"]

def ofJson? : Json → Option Config
  | .object fields => do
    let given ← fields.foldlM (fun (g : Given) (key, value) =>
      if key.sound then g.take key.text value else none) {}
    return given.complete
  | .array items => do
    if storedNames.length < items.length then none
    else
      let given ← (storedNames.zip items).foldlM (fun (g : Given) (key, value) =>
        g.take key value) {}
      return given.complete
  | _ => none

def toJson (c : Config) : Json :=
  Json.ofFields
    [("savepoint_prefix", Json.ofString c.savepointStem),
     ("log_sql", .bool c.logsSql),
     ("max_logged_sql_length", (c.maxLoggedBytes.map Json.ofNat).getD .null)]

def read? (text : String) : Option Config :=
  (Json.read? text).bind ofJson?

def write (c : Config) : String := c.toJson.compact

end Config

end CrossDialect
