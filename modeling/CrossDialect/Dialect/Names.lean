import CrossDialect.Error
import CrossDialect.Json.Printer
import CrossDialect.Json.Reader
import CrossDialect.Text.Blank

/-!
The names of dialects. People may write any of them in any case; the stored form
is a JSON string with one of them as it stands.
-/

namespace CrossDialect.Dialect

/-- The names a dialect goes by, the one it is stored under first. -/
def names : Dialect → List String
  | .mysql => ["mysql", "mariadb"]
  | .postgres => ["postgres", "pgsql", "postgresql"]
  | .sqlite => ["sqlite", "sqlite3"]
  | .sqlServer => ["sqlserver", "sqlsrv", "mssql"]

def storedName : Dialect → String
  | .mysql => "mysql"
  | .postgres => "postgres"
  | .sqlite => "sqlite"
  | .sqlServer => "sqlserver"

def named? (name : String) : Option Dialect :=
  all.find? fun d => d.names.contains name

def foldName (name : String) : String :=
  String.ofList (Text.lower (Text.trim name.toList))

def ofName (name : String) : Except Error Dialect :=
  let name := foldName name
  match named? name with
  | some d => .ok d
  | none => .error (.unknownDialect name)

/-- The stored form is a string, or an object with the name as its only key and
nothing for it. -/
def ofJson? : Json → Option Dialect
  | .string s => if s.sound then named? s.text else none
  | .object [(key, .null)] => if key.sound then named? key.text else none
  | _ => none

def read? (text : String) : Option Dialect :=
  (Json.read? text).bind ofJson?

def write (d : Dialect) : String :=
  (Json.ofString d.storedName).compact

end CrossDialect.Dialect
