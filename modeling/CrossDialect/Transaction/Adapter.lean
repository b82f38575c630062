import CrossDialect.Transaction.Manager
import CrossDialect.Container

/-!
An adapter joins a connection to its configuration and to the manager of its
transactions. A transaction block keeps its work if its body succeeds and discards
it if not.
-/

namespace CrossDialect

structure Adapter (σ : Type) where
  channel : Channel σ
  config : Config := {}
  -- Made at the first transaction.
  manager : Option Manager := none

/-- A use of an adapter, which may fail and still have changed it. -/
abbrev Session (σ α : Type) := Adapter σ → Except Error α × Adapter σ

namespace Adapter

variable {σ α : Type}

def target (a : Adapter σ) : Target := a.channel.connection.target

def container (a : Adapter σ) : Container := .ofTarget a.target

def ensureManager (a : Adapter σ) : Manager × Adapter σ :=
  let m := a.manager.getD (.withStem a.config.savepointStem)
  (m, { a with manager := some m })

def depth (a : Adapter σ) : Nat := (a.manager.map Manager.depth).getD 0

def begin : Session σ Unit := fun a =>
  let (m, a) := a.ensureManager
  let (result, m, channel) := m.enter a.channel
  (result, { a with channel, manager := some m })

def leave (outcome : Outcome) : Session σ Unit := fun a =>
  match a.manager with
  | none => (.error .noTransaction, a)
  | some m =>
    let (result, m, channel) := m.leave outcome a.channel
    (result, { a with channel, manager := some m })

def commit : Session σ Unit := leave .keep

def rollback : Session σ Unit := leave .discard

def executeDirect (built : Except Error Built) : Session σ Nat := fun a =>
  match built with
  | .error e => (.error e, a)
  | .ok b =>
    let (result, channel) := a.channel.execute b.sql b.params
    (result, { a with channel })

def execute (built : Except Error Built) : Session σ Nat := fun a =>
  match built with
  | .error e => (.error e, a)
  | .ok b =>
    let event := Event.executed a.channel.dialect b.params.length (a.config.truncate b.sql)
    let a := if a.config.logsSql then { a with channel := a.channel.report event } else a
    a.executeDirect (.ok b)

/-- A transaction block. A body that fails is rolled back; if that fails too, both
errors are told. -/
def transaction (body : Session σ α) : Session σ α := fun a =>
  match a.begin with
  | (.error e, a) => (.error e, a)
  | (.ok _, a) =>
    match body a with
    | (.ok x, a) =>
      match a.commit with
      | (.ok _, a) => (.ok x, a)
      | (.error e, a) => (.error e, a)
    | (.error e, a) =>
      match a.rollback with
      | (.ok _, a) => (.error e, a)
      | (.error r, a) => (.error (.rollbackFailed e r), a)

end Adapter

end CrossDialect
