import CrossDialect.PredicateSet

/-!
What a statement reads from: tables, tables under an alias, and statements under an
alias, with the joins between them. The type of the inner statements is a parameter,
since a statement and its tables contain each other.
-/

namespace CrossDialect

inductive TableRef (σ : Type) where
  | named (name : String)
  | aliased (table aliasName : String)
  | subquery (statement : σ) (aliasName : String)
  deriving Inhabited

namespace TableRef

variable {σ : Type}

def ofText (s : String) : TableRef σ :=
  let name := Text.trim s.toList
  match Quoting.splitAlias name with
  | some (table, aliasName) => .aliased (String.ofList table) (String.ofList aliasName)
  | none => .named (String.ofList name)

def ofAliasMap : List (String × String) → Except Error (TableRef σ)
  | [(aliasName, table)] => .ok (.aliased table aliasName)
  | entries => .error (.aliasCount entries.length)

def referenceName : TableRef σ → String
  | .named name => name
  | .aliased _ aliasName => aliasName
  | .subquery _ aliasName => aliasName

end TableRef

inductive JoinKind where
  | inner
  | left
  | right
  | full
  deriving DecidableEq

def JoinKind.sql : JoinKind → String
  | .inner => "INNER JOIN"
  | .left => "LEFT JOIN"
  | .right => "RIGHT JOIN"
  | .full => "FULL OUTER JOIN"

structure Join (σ : Type) where
  kind : JoinKind
  table : TableRef σ
  on : PredicateSet

end CrossDialect
