import CrossDialect.Json.Reader
import CrossDialect.Json.Printer
import CrossDialect.Value.OfJson
import CrossDialect.Calendar
import CrossDialect.Uuid
import CrossDialect.Wire
import CrossDialect.Config
import CrossDialect.ConnectionUrl
import CrossDialect.Container
import CrossDialect.Transaction.Adapter
import CrossDialect.Proofs.Placeholders.Slots
import CrossDialect.Proofs.Placeholders.Leaves
import CrossDialect.Proofs.Placeholders.Names
import CrossDialect.Proofs.Statements.Layouts
import CrossDialect.Proofs.Placeholders.Entries
import CrossDialect.Proofs.Placeholders.Binding
import CrossDialect.Proofs.Conditions.Reading
import CrossDialect.Proofs.Conditions.TruthValue
import CrossDialect.Proofs.Transactions.Database
import CrossDialect.Proofs.Transactions.Savepoints
import CrossDialect.Proofs.Transactions.Runs
import CrossDialect.Proofs.Text.Doubled
import CrossDialect.Proofs.Statements.Filters
import CrossDialect.Proofs.Statements.Refusals
import CrossDialect.Proofs.Text.Words
import CrossDialect.Proofs.Quoting.Names
import CrossDialect.Proofs.Conditions.Operands
import CrossDialect.Proofs.Quoting.Literals
import CrossDialect.Proofs.Conditions.RoundTrip
import CrossDialect.Proofs.Conditions.Spelling
import CrossDialect.Proofs.Conditions.Marks
import CrossDialect.Proofs.Conditions.Shorthand
import CrossDialect.Proofs.Quoting.Segments
import CrossDialect.Proofs.Quoting.Identifiers
import CrossDialect.Proofs.Transactions.Blocks
import CrossDialect.Proofs.Transactions.Atomicity
import CrossDialect.Proofs.Transactions.Levels
import CrossDialect.Proofs.Transactions.Nesting
import CrossDialect.Proofs.Statements.Counting
import CrossDialect.Proofs.Statements.Targets
import CrossDialect.Proofs.Quoting.Requoting
import CrossDialect.Proofs.Statements.Failures
import CrossDialect.Proofs.Statements.Pages
import CrossDialect.Proofs.Conditions.Readings
import CrossDialect.Proofs.Quoting.Dotted
import CrossDialect.Proofs.Conditions.Columns
import CrossDialect.Proofs.Statements.RowNumbers
import CrossDialect.Proofs.Conditions.Keys
import CrossDialect.Proofs.Conditions.Edits
import CrossDialect.Proofs.Placeholders.Numbers
import CrossDialect.Proofs.Conditions.Arity
import CrossDialect.Proofs.Statements.Maps
import CrossDialect.Proofs.Statements.Places
import CrossDialect.Proofs.Wire.Numbers
import CrossDialect.Proofs.Wire.Scalars
import CrossDialect.Proofs.Wire.Arrays
import CrossDialect.Proofs.Statements.Containers
import CrossDialect.Proofs.Transactions.Names
import CrossDialect.Proofs.Statements.Orders
import CrossDialect.Proofs.Conditions.Keywords
import CrossDialect.Proofs.Text.Truncation
import CrossDialect.Proofs.Conditions.Parentheses
