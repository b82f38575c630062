import CrossDialect.Statement.Basic

/-!
A container for one statement at a time, with a place for each kind. Activating a kind
clears the places of the other kinds and starts a new statement if its own place is empty.
Whoever looks for the statement goes through the places in a fixed order.
-/

namespace CrossDialect

structure Container where
  target : Target
  select? : Option Select := none
  insert? : Option Insert := none
  update? : Option Update := none
  delete? : Option Delete := none

namespace Container

def ofTarget (t : Target) : Container := { target := t }

def kind (c : Container) : Option StatementKind :=
  if c.select?.isSome then some .select
  else if c.insert?.isSome then some .insert
  else if c.update?.isSome then some .update
  else if c.delete?.isSome then some .delete
  else none

def reset (c : Container) : Container :=
  { c with select? := none, insert? := none, update? := none, delete? := none }

def select (c : Container) : Select := c.select?.getD (.ofTarget c.target)

def insert (c : Container) : Insert := c.insert?.getD (.ofTarget c.target)

def update (c : Container) : Update := c.update?.getD (.ofTarget c.target)

def delete (c : Container) : Delete := c.delete?.getD (.ofTarget c.target)

def activate (c : Container) : StatementKind → Container
  | .select => { c with select? := some c.select, insert? := none, update? := none, delete? := none }
  | .insert => { c with select? := none, insert? := some c.insert, update? := none, delete? := none }
  | .update => { c with select? := none, insert? := none, update? := some c.update, delete? := none }
  | .delete => { c with select? := none, insert? := none, update? := none, delete? := some c.delete }

def put (c : Container) : Statement → Container
  | .select s => { c with select? := some s }
  | .insert i => { c with insert? := some i }
  | .update u => { c with update? := some u }
  | .delete x => { c with delete? := some x }

/-- The statement in the first place that is not empty. -/
def statement (c : Container) : Option Statement :=
  match c.select? with
  | some s => some (.select s)
  | none =>
    match c.insert? with
    | some i => some (.insert i)
    | none =>
      match c.update? with
      | some u => some (.update u)
      | none => c.delete?.map .delete

def build (c : Container) : Except Error Built :=
  match c.statement with
  | some s => s.buildFor c.target
  | none => .error .emptyStatement

def render (c : Container) : Except Error String :=
  c.build.map Built.sql

end Container

end CrossDialect
