import CrossDialect.Transaction.Manager

/-!
A database as transaction control sees it: idle, or open with the work done and the
savepoints set since it was opened. It reads its commands from their text. Which
statements fail is decided from outside, by their number.
-/

namespace CrossDialect

structure Work where
  sql : String
  params : List Value

/-- A savepoint: the work that stood when it was set, and the number of the statement
that set it. -/
structure Mark where
  name : String
  height : Nat
  made : Nat

/-- Work that can still be discarded. The innermost savepoint stands first. -/
structure OpenWork where
  done : List Work := []
  marks : List Mark := []

structure Database where
  permanent : List Work := []
  session : Option OpenWork := none

namespace OpenWork

def downTo (name : String) (w : OpenWork) : List Mark :=
  w.marks.dropWhile fun mark => mark.name ≠ name

def mark (name : String) (made : Nat) (w : OpenWork) : OpenWork :=
  { w with marks := ⟨name, w.done.length, made⟩ :: w.marks }

def release (name : String) (w : OpenWork) : Option OpenWork :=
  match w.downTo name with
  | [] => none
  | _ :: older => some { w with marks := older }

def rollbackTo (name : String) (w : OpenWork) : Option OpenWork :=
  match w.downTo name with
  | [] => none
  -- the savepoint itself is kept
  | mark :: older => some { done := w.done.take mark.height, marks := mark :: older }

end OpenWork

namespace Database

def visible (db : Database) : List Work :=
  db.permanent ++ (db.session.map OpenWork.done).getD []

theorem visible_idle (permanent : List Work) : visible { permanent } = permanent := by
  simp [visible]

def obey (db : Database) (number : Nat) (k : Control) : Option Database :=
  match k, db.session with
  | .begin, none => some { db with session := some {} }
  | .commit, some w => some { permanent := db.permanent ++ w.done }
  | .rollback, some _ => some { db with session := none }
  | .savepoint name, some w => some { db with session := some (w.mark name number) }
  | .release name, some w => (w.release name).map fun w => { db with session := some w }
  | .rollbackTo name, some w => (w.rollbackTo name).map fun w => { db with session := some w }
  | _, _ => none

/-- A command that ends the work ends it even if it fails. -/
def fail (db : Database) : Control → Database
  | .commit | .rollback => { db with session := none }
  | _ => db

def execute (db : Database) (w : Work) : Database :=
  match db.session with
  | none => { db with permanent := db.permanent ++ [w] }
  | some s => { db with session := some { s with done := s.done ++ [w] } }

theorem fail_of_forbidden {db : Database} {number : Nat} {k : Control}
    (forbidden : db.obey number k = none) : db.fail k = db := by
  rcases db with ⟨permanent, none | w⟩
  · cases k <;> rfl
  · cases k with
    | commit | rollback => cases forbidden
    | begin | savepoint | release | rollbackTo => rfl

/-- What becomes of a command: it is carried out, or it fails. One that has no text in the
dialect is not sent at all. -/
inductive Answers (db : Database) (d : Dialect) (number : Nat) (k : Control) :
    Except Error Unit → Database → Prop where
  | unsent (silent : k.sql? d = none) : Answers db d number k (.ok ()) db
  | obeyed {sql : String} {next : Database} (written : k.sql? d = some sql)
      (allowed : db.obey number k = some next) : Answers db d number k (.ok ()) next
  | failed {next : Database} (e : Error) (left : next = db.fail k) :
      Answers db d number k (.error e) next

theorem Answers.obeys {db next : Database} {d : Dialect} {number : Nat} {k : Control}
    (answers : Answers db d number k (.ok ()) next) :
    k.sql? d = none ∧ next = db ∨ db.obey number k = some next := by
  cases answers with
  | unsent silent => exact .inl ⟨silent, rfl⟩
  | obeyed _ allowed => exact .inr allowed

def find? (db : Database) (name : String) : Option Mark :=
  db.session.bind fun s => (s.downTo name).head?

end Database

namespace Control

def read? (d : Dialect) (sql : String) : Option Control :=
  let words := d.profile.transaction
  let named (word : String) := (Text.after? (word.toList ++ [' ']) sql.toList).map String.ofList
  if sql.toList = words.opening.toList then some .begin
  else if sql.toList = words.commit.toList then some .commit
  else if sql.toList = words.rollback.toList then some .rollback
  else ((named words.savepoint).map .savepoint).or
    (((words.release.bind named).map .release).or ((named words.rollbackTo).map .rollbackTo))

theorem read?_sql {d : Dialect} {k : Control} {sql : String} (written : k.sql? d = some sql) :
    read? d sql = some k := by
  -- no word of a dialect, with the blank behind it, begins another command
  cases k <;> cases d <;>
    simp [sql?, Dialect.profile, Dialect.standardWords] at written <;> subst written <;>
    simp [read?, Dialect.profile, Dialect.standardWords, Text.after?]

end Control

inductive Sent where
  | control (sql : String)
  | work (w : Work)

structure Server where
  db : Database := {}
  sent : List Sent := []

namespace Server

def command (faults : Nat → Option Error) (k : Control) (sql : String) (s : Server) :
    Except Error Unit × Server :=
  let number := s.sent.length
  let sent := s.sent ++ [.control sql]
  match faults number with
  | some e => (.error e, { db := s.db.fail k, sent })
  | none =>
    match s.db.obey number k with
    | some db => (.ok (), { db, sent })
    | none => (.error (.other "not allowed"), { s with sent })

def batch (d : Dialect) (faults : Nat → Option Error) (sql : String) (s : Server) :
    Except Error Unit × Server :=
  match Control.read? d sql with
  | some k => s.command faults k sql
  | none => (.error (.other "not understood"), { s with sent := s.sent ++ [.control sql] })

def execute (faults : Nat → Option Error) (sql : String) (params : List Value) (s : Server) :
    Except Error Nat × Server :=
  let sent := s.sent ++ [.work ⟨sql, params⟩]
  match faults s.sent.length with
  | some e => (.error e, { s with sent })
  | none => (.ok 1, { db := s.db.execute ⟨sql, params⟩, sent })

def connection (t : Target) (faults : Nat → Option Error) : Connection Server :=
  .ofBatch t (batch t.dialect faults) (execute faults)

section Control

variable (t : Target) (faults : Nat → Option Error) (c : Channel Server) {k : Control}

theorem control_written {sql : String} (same : c.connection = connection t faults)
    (written : k.sql? t.dialect = some sql) :
    c.control k = ((c.backend.command faults k sql).1,
      { c with backend := (c.backend.command faults k sql).2 }) := by
  simp [Channel.control, same, connection, Connection.ofBatch, written, batch,
    Control.read?_sql written]

theorem control_silent (same : c.connection = connection t faults)
    (silent : k.sql? t.dialect = none) : c.control k = (.ok (), c) := by
  have told : c.connection.control k c.backend = (.ok (), c.backend) := by
    simp [same, connection, Connection.ofBatch, silent]
  simp only [Channel.control, told]

theorem control_allowed (k : Control) {sql : String} {db : Database}
    (same : c.connection = connection t faults) (written : k.sql? t.dialect = some sql)
    (allowed : c.backend.db.obey c.backend.sent.length k = some db) :
    let sent := c.backend.sent ++ [.control sql]
    c.control k = (.ok (), { c with backend := { db, sent } }) ∨
      ∃ e, c.control k = (.error e, { c with backend := { db := c.backend.db.fail k, sent } }) := by
  rw [control_written t faults c same written]
  cases fault : faults c.backend.sent.length with
  | some e =>
      right
      exact ⟨e, by simp [command, fault]⟩
  | none =>
      left
      simp [command, fault, allowed]

theorem control_answers (k : Control) (same : c.connection = connection t faults) :
    c.backend.db.Answers t.dialect c.backend.sent.length k (c.control k).1
      (c.control k).2.backend.db := by
  cases written : k.sql? t.dialect with
  | none =>
      rw [control_silent t faults c same written]
      exact .unsent written
  | some sql =>
      rw [control_written t faults c same written]
      cases fault : faults c.backend.sent.length with
      | some e =>
          simp only [command, fault]
          exact .failed e rfl
      | none =>
          cases allowed : c.backend.db.obey c.backend.sent.length k with
          | some db =>
              simp only [command, fault, allowed]
              exact .obeyed written allowed
          | none =>
              simp only [command, fault, allowed]
              exact .failed _ (Database.fail_of_forbidden allowed).symm

end Control

end Server

end CrossDialect
