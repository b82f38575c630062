import CrossDialect.Dialect.Basic
import CrossDialect.Operator
import CrossDialect.Value.Basic

/-!
What can go wrong, kept as causes. The wording of every cause stands in `message`
functions and nowhere else.
-/

namespace CrossDialect

inductive ConditionFault where
  | noColumn
  | unknownOperator (near : String)
  | noList (op : Operator)
  | noBounds (op : Operator)
  | noValue (op : Operator)
  | trailing (rest : String)
  | noColumnName
  | unknownModifiers
  | likeNeedsText (got : Value)
  | needsSingleValue (op : Operator)

def ConditionFault.message : ConditionFault → String
  | .noColumn => "expected a column"
  | .unknownOperator near => "unknown operator near '" ++ near ++ "'"
  | .noList op => op.sql ++ " expects a parenthesized list"
  | .noBounds op => op.sql ++ " expects 'a AND b' or '(a, b)'"
  | .noValue op => "expected a value after " ++ op.sql
  | .trailing rest => "unexpected trailing input '" ++ rest ++ "'"
  | .noColumnName => "missing column name"
  | .unknownModifiers => "unrecognized key modifiers"
  | .likeNeedsText got => "LIKE needs a text value, got " ++ got.display
  | .needsSingleValue op => op.sql ++ " needs a single value"

inductive IdentFault where
  | empty
  | holdsNul
  | starNotLast
  | trailingDot
  | noDot (got : Char)
  | unclosedQuote
  | emptyQuoted
  | badCharacter (c : Char)
  | emptySegment
  deriving DecidableEq

def IdentFault.message (name : String) : IdentFault → String
  | .empty => "identifier cannot be empty"
  | .holdsNul => "identifier cannot contain NUL character"
  | .starNotLast => "'*' must be the last part of '" ++ name ++ "'"
  | .trailingDot => "trailing '.' in '" ++ name ++ "'"
  | .noDot got => "expected '.' between identifier parts, got '" ++ String.singleton got ++ "'"
  | .unclosedQuote => "unclosed quoted identifier in '" ++ name ++ "'"
  | .emptyQuoted => "empty quoted identifier"
  | .badCharacter c => "invalid character '" ++ String.singleton c ++ "' in '" ++ name ++ "'"
  | .emptySegment => "empty identifier segment in '" ++ name ++ "'"

inductive Unsupported where
  | offsetWithoutOrder
  | upsertWithoutKey
  | upsert
  | returning
  deriving DecidableEq

def Unsupported.message : Unsupported → String
  | .offsetWithoutOrder => "OFFSET requires ORDER BY"
  | .upsertWithoutKey => "ON CONFLICT ... DO UPDATE requires a conflict key"
  | .upsert => "upsert"
  | .returning => "RETURNING"

inductive UrlFault where
  | noScheme
  | emptyHost
  | badPort
  | badIpv6
  | badHostCharacter
  | badDomain
  deriving DecidableEq

def UrlFault.message : UrlFault → String
  | .noScheme => "relative URL without a base"
  | .emptyHost => "empty host"
  | .badPort => "invalid port number"
  | .badIpv6 => "invalid IPv6 address"
  | .badHostCharacter => "invalid domain character"
  | .badDomain => "invalid international domain name"

inductive StatementKind where
  | select
  | insert
  | update
  | delete
  deriving DecidableEq

def StatementKind.verb : StatementKind → String
  | .select => "SELECT"
  | .insert => "INSERT"
  | .update => "UPDATE"
  | .delete => "DELETE"

inductive Error where
  | malformed (input : String) (fault : ConditionFault)
  | arity (op : Operator) (got : Nat)
  | unboundConjunction
  | unsupported (dialect : Dialect) (construct : Unsupported)
  | aliasCount (entries : Nat)
  | invalidIdentifier (name : String) (fault : IdentFault)
  | emptyStatement
  | noTransaction
  | noSavepoint (depth : Nat)
  | connection (text : String)
  | invalidUrl (url : String) (fault : UrlFault)
  | missingTable (kind : StatementKind)
  | unknownDialect (name : String)
  | rollbackFailed (error rollback : Error)
  | other (text : String)

namespace Error

def message : Error → String
  | .malformed input fault => "Malformed expression '" ++ input ++ "': " ++ fault.message
  | .arity op got =>
    op.sql ++ " expects " ++ op.shape.expectation ++ " operand(s), got " ++ Nat.repr got
  | .unboundConjunction => "Nested predicate set has no conjunction"
  | .unsupported dialect construct =>
    dialect.name ++ " does not support this statement: " ++ construct.message
  | .aliasCount entries =>
    "Table alias map must hold exactly one entry, got " ++ Nat.repr entries
  | .invalidIdentifier name fault => "Invalid identifier: " ++ fault.message name
  | .emptyStatement => "No active statement to render"
  | .noTransaction => "Transaction error: no active transaction"
  | .noSavepoint depth =>
    "Transaction error: no savepoint recorded for depth " ++ Nat.repr depth
  | .connection text => "Connection error: " ++ text
  | .invalidUrl url fault =>
    "Connection error: invalid connection url '" ++ url ++ "': " ++ fault.message
  | .missingTable kind => kind.verb ++ " requires a table"
  | .unknownDialect name => "unknown dialect '" ++ name ++ "'"
  | .rollbackFailed error rollback =>
    error.message ++ " (rollback failed: " ++ rollback.message ++ ")"
  | .other text => text

def isBuildError : Error → Bool
  | .malformed .. | .arity .. | .unboundConjunction | .unsupported .. | .aliasCount _
  | .invalidIdentifier .. | .emptyStatement => true
  | _ => false

end Error

end CrossDialect
