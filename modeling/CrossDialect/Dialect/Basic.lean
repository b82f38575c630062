/-!
The four SQL dialects. All that a dialect decides stands in its `Profile`, so a
statement is laid out by looking facts up and not by the dialect's name.
-/

namespace CrossDialect

inductive Dialect where
  | mysql
  | postgres
  | sqlite
  | sqlServer
  deriving DecidableEq

inductive PlaceholderStyle where
  -- A question mark.
  | positional
  -- A dollar sign and a number.
  | numbered
  -- A colon and a name.
  | named
  deriving DecidableEq

inductive UpsertStyle where
  | onDuplicateKey
  | onConflict
  | unsupported
  deriving DecidableEq

inductive ReturningStyle where
  -- A clause at the end of the statement.
  | returning
  -- A clause before the values.
  | output
  | unsupported
  deriving DecidableEq

inductive PagingStyle where
  -- Clauses at the end of the statement.
  | limitOffset
  -- A count of leading rows, or row numbers where rows are skipped.
  | rowNumber
  deriving DecidableEq

structure TransactionWords where
  opening : String
  commit : String
  rollback : String
  savepoint : String
  -- Absent where savepoints are never released.
  release : Option String
  rollbackTo : String

structure Profile where
  name : String
  openQuote : Char
  closeQuote : Char
  placeholder : PlaceholderStyle
  upsert : UpsertStyle
  returning : ReturningStyle
  paging : PagingStyle
  -- The limit to write where only an offset is asked for, if one is needed.
  unboundedLimit : Option String
  -- Truth values are words rather than one and zero.
  booleanWords : Bool
  -- A backslash escapes inside string literals.
  backslashEscapes : Bool
  transaction : TransactionWords

namespace Dialect

def standardWords : TransactionWords where
  opening := "BEGIN"
  commit := "COMMIT"
  rollback := "ROLLBACK"
  savepoint := "SAVEPOINT"
  release := some "RELEASE SAVEPOINT"
  rollbackTo := "ROLLBACK TO SAVEPOINT"

def profile : Dialect → Profile
  | .mysql =>
    { name := "MySQL"
      openQuote := '\x60'
      closeQuote := '\x60'
      placeholder := .positional
      upsert := .onDuplicateKey
      returning := .unsupported
      paging := .limitOffset
      unboundedLimit := some "18446744073709551615"
      booleanWords := false
      backslashEscapes := true
      transaction := { standardWords with opening := "START TRANSACTION" } }
  | .postgres =>
    { name := "PostgreSQL"
      openQuote := '"'
      closeQuote := '"'
      placeholder := .numbered
      upsert := .onConflict
      returning := .returning
      paging := .limitOffset
      unboundedLimit := none
      booleanWords := true
      backslashEscapes := false
      transaction := standardWords }
  | .sqlite =>
    { name := "SQLite"
      openQuote := '"'
      closeQuote := '"'
      placeholder := .named
      upsert := .onConflict
      returning := .returning
      paging := .limitOffset
      unboundedLimit := some "-1"
      booleanWords := false
      backslashEscapes := false
      transaction := standardWords }
  | .sqlServer =>
    { name := "SQL Server"
      openQuote := '['
      closeQuote := ']'
      placeholder := .positional
      upsert := .unsupported
      returning := .output
      paging := .rowNumber
      unboundedLimit := none
      booleanWords := false
      backslashEscapes := false
      transaction :=
        { opening := "BEGIN TRANSACTION"
          commit := "COMMIT TRANSACTION"
          rollback := "ROLLBACK TRANSACTION"
          savepoint := "SAVE TRANSACTION"
          release := none
          rollbackTo := "ROLLBACK TRANSACTION" } }

def all : List Dialect := [.mysql, .postgres, .sqlite, .sqlServer]

def name (d : Dialect) : String := d.profile.name

end Dialect

end CrossDialect
