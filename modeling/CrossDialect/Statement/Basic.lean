import CrossDialect.Statement.Filtered
import CrossDialect.Statement.Insert

/-!
Statements of every kind, and what they are built into.
-/

namespace CrossDialect

inductive Statement where
  | select (s : Select)
  | insert (i : Insert)
  | update (u : Update)
  | delete (x : Delete)

namespace Statement

def kind : Statement → StatementKind
  | .select _ => .select
  | .insert _ => .insert
  | .update _ => .update
  | .delete _ => .delete

def fresh (t : Target) : StatementKind → Statement
  | .select => .select (.ofTarget t)
  | .insert => .insert (.ofTarget t)
  | .update => .update (.ofTarget t)
  | .delete => .delete (.ofTarget t)

def target : Statement → Target
  | .select s => s.target
  | .insert i => i.target
  | .update u => u.target
  | .delete x => x.target

def layout (d : Dialect) : Statement → Except Error Layout
  | .select s => s.layout d
  | .insert i => i.layout d
  | .update u => u.layout
  | .delete x => x.layout

def buildFor (t : Target) (s : Statement) : Except Error Built :=
  (s.layout t.dialect).map (Layout.build t)

def build (s : Statement) : Except Error Built :=
  s.buildFor s.target

def render (s : Statement) : Except Error String :=
  s.build.map Built.sql

end Statement

end CrossDialect
