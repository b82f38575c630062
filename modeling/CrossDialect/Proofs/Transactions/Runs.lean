import CrossDialect.Proofs.Transactions.Levels
import CrossDialect.Proofs.Transactions.Savepoints

/-!
A manager at work on a database, with any statement failing. What it sends fits the
state of the database at every step, and a level that is rolled back leaves the work
as it was when that level was entered.
-/

namespace CrossDialect

/-- A manager with its channel, and the levels that were entered and not left, the
innermost first. The levels are kept apart from what the manager remembers. -/
structure World where
  manager : Manager
  channel : Channel Server
  levels : List Entered := []

inductive Use where
  | enter
  | leave (outcome : Outcome)
  | execute (sql : String) (params : List Value)

namespace World

def db (w : World) : Database := w.channel.backend.db

def sent (w : World) : List Sent := w.channel.backend.sent

def start (t : Target) (faults : Nat → Option Error) (stem : String) (permanent : List Work) :
    World where
  manager := .withStem stem
  channel := { connection := Server.connection t faults, backend := { db := { permanent } } }

def enter (w : World) : Except Error Unit × World :=
  let (result, manager, channel) := w.manager.enter w.channel
  let levels := match result with
    | .ok _ => ⟨w.db.visible, w.sent.length⟩ :: w.levels
    | .error _ => w.levels
  (result, { manager, channel, levels })

def leave (outcome : Outcome) (w : World) : Except Error Unit × World :=
  let (result, manager, channel) := w.manager.leave outcome w.channel
  -- however it ends, the innermost level is left
  (result, { manager, channel, levels := w.levels.tail })

def execute (sql : String) (params : List Value) (w : World) : Except Error Nat × World :=
  let (result, channel) := w.channel.execute sql params
  (result, { w with channel })

def step (w : World) : Use → World
  | .enter => w.enter.2
  | .leave outcome => (w.leave outcome).2
  | .execute sql params => (w.execute sql params).2

def run (w : World) (uses : List Use) : World := uses.foldl step w

/-- The state in which a command may be sent. A savepoint that is named is open, and it
is the one that the innermost level set. -/
def Permits (w : World) : Control → Prop
  | .begin => w.db.session = none
  | .savepoint _ | .commit | .rollback => w.db.session.isSome
  | .release name | .rollbackTo name =>
      ∃ level outer mark, w.levels = level :: outer ∧ w.db.find? name = some mark ∧
        mark.made = level.number

/-- One statement is sent at most, and a command only in a state that permits it. -/
def Keeps (d : Dialect) (w w' : World) : Prop :=
  ∃ statements, w'.sent = w.sent ++ statements ∧ statements.length ≤ 1 ∧
    ∀ sql, .control sql ∈ statements → ∃ k, Control.read? d sql = some k ∧ w.Permits k

theorem keeps_silent {d : Dialect} {w w' : World} (same : w'.sent = w.sent) : Keeps d w w' :=
  ⟨[], by simpa using same, by simp, by simp⟩

theorem keeps_control {d : Dialect} {w w' : World} {k : Control} {sql : String}
    (written : k.sql? d = some sql) (next : w'.sent = w.sent ++ [.control sql])
    (permitted : w.Permits k) : Keeps d w w' := by
  refine ⟨_, next, by simp, ?_⟩
  intro sql' member
  cases List.mem_singleton.1 member
  exact ⟨k, Control.read?_sql written, permitted⟩

theorem keeps_work {d : Dialect} {w w' : World} {done : Work}
    (next : w'.sent = w.sent ++ [.work done]) : Keeps d w w' := by
  refine ⟨_, next, by simp, ?_⟩
  intro sql member
  cases List.mem_singleton.1 member

def nested (t : Target) (faults : Nat → Option Error) (stem : String) (sequence : Nat)
    (names : List String) (permanent : List Work) (session : OpenWork) (sent : List Sent)
    (events : List Event) (levels : List Entered) : World where
  manager := ⟨stem, names.length + 1, names.reverse, sequence⟩
  channel := ⟨Server.connection t faults, ⟨⟨permanent, some session⟩, sent⟩, events⟩
  levels := levels

/-- What holds between the manager, the database and the open levels. The database is
open exactly where a level is. -/
inductive Sound (t : Target) (faults : Nat → Option Error) : World → Prop where
  | idle (stem : String) (sequence : Nat) (permanent : List Work) (sent : List Sent)
      (events : List Event) :
      Sound t faults
        { manager := { stem, sequence }
          channel := ⟨Server.connection t faults, ⟨{ permanent }, sent⟩, events⟩ }
  | opened {stem sequence permanent done marks levels} (names : List String) (sent : List Sent)
      (events : List Event) (numbered : Numbered stem sequence marks)
      (standing : Standing permanent done names levels marks) :
      Sound t faults
        (nested t faults stem sequence names permanent ⟨done, marks⟩ sent events levels)

variable {t : Target} {faults : Nat → Option Error} {w : World}

theorem sound_start (t : Target) (faults : Nat → Option Error) (stem : String)
    (permanent : List Work) : Sound t faults (start t faults stem permanent) :=
  .idle _ 0 permanent [] []

theorem execute_sound (sound : Sound t faults w) (sql : String) (params : List Value) :
    Sound t faults (w.execute sql params).2 ∧ Keeps t.dialect w (w.execute sql params).2 := by
  have moved (c : Channel Server) (same : c.connection = Server.connection t faults) :
      (c.execute sql params).2 =
        { c with backend := (c.backend.execute faults sql params).2 } := by
    simp [Channel.execute, same, Server.connection, Connection.ofBatch]
  cases sound with
  | idle stem sequence permanent sent events =>
      simp only [execute, moved, Server.execute]
      cases faults sent.length with
      | some e => exact ⟨.idle stem sequence permanent _ events, keeps_work rfl⟩
      | none => exact ⟨.idle stem sequence _ _ events, keeps_work rfl⟩
  | opened names sent events numbered standing =>
      simp only [execute, moved, nested, Server.execute]
      cases faults sent.length with
      | some e => exact ⟨.opened names _ events numbered standing, keeps_work rfl⟩
      | none => exact ⟨.opened names _ events numbered (standing.grow _), keeps_work rfl⟩

theorem enter_sound (sound : Sound t faults w) :
    Sound t faults w.enter.2 ∧ Keeps t.dialect w w.enter.2 := by
  cases sound with
  | idle stem sequence permanent sent events =>
      have answer := Server.control_allowed t faults
        ⟨Server.connection t faults, ⟨{ permanent }, sent⟩, events⟩ .begin rfl rfl rfl
      rcases answer with ok | ⟨e, failed⟩
      · simp only [enter, Manager.enter, ↓reduceIte, ok, db, Database.visible_idle]
        constructor
        · exact .opened [] _ _ .nil (.base [] _ [])
        · exact keeps_control (k := .begin) rfl rfl rfl
      · simp only [enter, Manager.enter, ↓reduceIte, failed]
        constructor
        · exact .idle stem sequence permanent _ _
        · exact keeps_control (k := .begin) rfl rfl rfl
  | @opened stem sequence permanent done marks levels names sent events numbered standing =>
      have inside : ¬ names.length + 1 = 0 := Nat.succ_ne_zero _
      let name := stem ++ "_" ++ Nat.repr (sequence + 1)
      have answer := Server.control_allowed t faults
        ⟨Server.connection t faults, ⟨⟨permanent, some ⟨done, marks⟩⟩, sent⟩, events⟩
        (.savepoint name) rfl rfl rfl
      rcases answer with ok | ⟨e, failed⟩
      · simp only [enter, nested, Manager.enter, inside, ↓reduceIte, Manager.savepointName, ok,
          name]
        constructor
        · have deeper : Sound t faults _ := .opened (name :: names)
            (sent ++ [.control (t.dialect.profile.transaction.savepoint ++ " " ++ name)])
            (events ++ [.savepointSet (names.length + 1 + 1) name])
            (numbered.cons done.length sent.length) (standing.enter name sent.length)
          rw [nested, List.reverse_cons] at deeper
          exact deeper
        · exact keeps_control (k := .savepoint name) rfl rfl rfl
      · simp only [enter, nested, Manager.enter, inside, ↓reduceIte, Manager.savepointName, failed,
          name]
        constructor
        · -- the number is spent, though no savepoint bears it
          exact .opened names _ events numbered.later standing
        · exact keeps_control (k := .savepoint name) rfl rfl rfl

/-- If the level was left, the work is what it was when that level was entered. -/
def Restored (w : World) (left : Except Error Unit × World) : Prop :=
  left.1 = .ok () → ∃ level outer, w.levels = level :: outer ∧ left.2.levels = outer ∧
    left.2.db.visible = level.work

theorem restored_of_error {left : Except Error Unit × World} {e : Error}
    (refused : left.1 = .error e) : Restored w left := by
  intro ok
  rw [refused] at ok
  cases ok

theorem leave_outermost (stem : String) (sequence : Nat) {permanent : List Work}
    {session : OpenWork} {levels : List Entered} (sent : List Sent) (events : List Event)
    (standing : Standing permanent session.done [] levels session.marks) (outcome : Outcome) :
    let w := nested t faults stem sequence [] permanent session sent events levels
    Sound t faults (w.leave outcome).2 ∧ Keeps t.dialect w (w.leave outcome).2 ∧
      (outcome = .discard → Restored w (w.leave outcome)) := by
  rcases standing.outermost with ⟨number, rfl⟩
  let c : Channel Server := ⟨Server.connection t faults, ⟨⟨permanent, some session⟩, sent⟩,
    events ++ [.ended outcome]⟩
  cases outcome with
  | keep =>
      rcases Server.control_allowed t faults c .commit rfl rfl rfl with ok | ⟨e, failed⟩
      · simp only [leave, nested, Manager.leave, Channel.report, List.length_nil, ok, c]
        exact ⟨.idle .., keeps_control (k := .commit) rfl rfl rfl, by simp⟩
      · -- the work is lost, and manager and database are both at rest
        simp only [leave, nested, Manager.leave, Channel.report, List.length_nil, failed, c]
        exact ⟨.idle .., keeps_control (k := .commit) rfl rfl rfl, by simp⟩
  | discard =>
      rcases Server.control_allowed t faults c .rollback rfl rfl rfl with ok | ⟨e, failed⟩
      · simp only [leave, nested, Manager.leave, Channel.report, List.length_nil, ok, c]
        refine ⟨.idle .., keeps_control (k := .rollback) rfl rfl rfl, ?_⟩
        intro _ _
        exact ⟨_, _, rfl, rfl, Database.visible_idle permanent⟩
      · simp only [leave, nested, Manager.leave, Channel.report, List.length_nil, failed, c]
        refine ⟨.idle .., keeps_control (k := .rollback) rfl rfl rfl, ?_⟩
        intro _
        exact restored_of_error rfl

theorem permits_innermost {session : OpenWork} {mark : Mark} {older : List Mark}
    {level : Entered} {outer : List Entered} (opened : w.db.session = some session)
    (found : session.downTo mark.name = mark :: older) (levels : w.levels = level :: outer)
    (made : mark.made = level.number) :
    w.Permits (.release mark.name) ∧ w.Permits (.rollbackTo mark.name) := by
  have known : w.db.find? mark.name = some mark := by
    simp [Database.find?, opened, found]
  exact ⟨⟨level, outer, mark, levels, known, made⟩, ⟨level, outer, mark, levels, known, made⟩⟩

section Savepoint

variable (t faults) {stem : String} {sequence : Nat} {permanent done : List Work} {names : List String}
  {newer older : List Mark} {mark : Mark} {outer : List Entered} (sent : List Sent)
  (events : List Event) (numbered : Numbered stem sequence (newer ++ mark :: older))
  (inner : Standing permanent (done.take mark.height) names outer older)
include numbered inner

theorem leave_savepoint_keep :
    let w := nested t faults stem sequence (mark.name :: names) permanent
      ⟨done, newer ++ mark :: older⟩ sent events
      (⟨permanent ++ done.take mark.height, mark.made⟩ :: outer)
    Sound t faults (w.leave .keep).2 ∧ Keeps t.dialect w (w.leave .keep).2 := by
  have found := OpenWork.downTo_own numbered done
  have last : (mark.name :: names).reverse.getLast? = some mark.name := by simp
  have others : (mark.name :: names).reverse.dropLast = names.reverse := by simp
  -- a savepoint that is not released stays behind, and the manager forgets it
  have staying := (Standing.skip mark inner.of_take).skipAll newer
  let c : Channel Server := ⟨Server.connection t faults,
    ⟨⟨permanent, some ⟨done, newer ++ mark :: older⟩⟩, sent⟩,
    events ++ [.savepointLeft (names.length + 1) mark.name .keep]⟩
  cases written : Control.sql? t.dialect (.release mark.name) with
  | none =>
      have silent := Server.control_silent t faults c rfl written
      simp only [leave, nested, Manager.leave, Channel.report, List.length_cons, last, others,
        silent, c]
      exact ⟨.opened names _ _ numbered staying, keeps_silent rfl⟩
  | some sql =>
      have allowed : c.backend.db.obey sent.length (.release mark.name) =
          some ⟨permanent, some ⟨done, older⟩⟩ := by
        simp [c, Database.obey, OpenWork.release, found]
      have kept : Numbered stem sequence older := numbered.sublist (by simp)
      rcases Server.control_allowed t faults c _ rfl written allowed with ok | ⟨e, failed⟩
      · simp only [leave, nested, Manager.leave, Channel.report, List.length_cons, last, others,
          ok, c]
        exact ⟨.opened names _ _ kept inner.of_take,
          keeps_control written rfl (permits_innermost rfl found rfl rfl).1⟩
      · simp only [leave, nested, Manager.leave, Channel.report, List.length_cons, last, others,
          failed, c]
        exact ⟨.opened names _ _ numbered staying,
          keeps_control written rfl (permits_innermost rfl found rfl rfl).1⟩

theorem leave_savepoint_discard :
    let w := nested t faults stem sequence (mark.name :: names) permanent
      ⟨done, newer ++ mark :: older⟩ sent events
      (⟨permanent ++ done.take mark.height, mark.made⟩ :: outer)
    Sound t faults (w.leave .discard).2 ∧ Keeps t.dialect w (w.leave .discard).2 ∧
      Restored w (w.leave .discard) := by
  have found := OpenWork.downTo_own numbered done
  have last : (mark.name :: names).reverse.getLast? = some mark.name := by simp
  have others : (mark.name :: names).reverse.dropLast = names.reverse := by simp
  have staying := (Standing.skip mark inner.of_take).skipAll newer
  let c : Channel Server := ⟨Server.connection t faults,
    ⟨⟨permanent, some ⟨done, newer ++ mark :: older⟩⟩, sent⟩,
    events ++ [.savepointLeft (names.length + 1) mark.name .discard]⟩
  have allowed : c.backend.db.obey sent.length (.rollbackTo mark.name) =
      some ⟨permanent, some ⟨done.take mark.height, mark :: older⟩⟩ := by
    simp [c, Database.obey, OpenWork.rollbackTo, found]
  have kept : Numbered stem sequence (mark :: older) := numbered.sublist (by simp)
  have answer := Server.control_allowed t faults c (.rollbackTo mark.name) rfl rfl allowed
  rcases answer with ok | ⟨e, failed⟩
  · simp only [leave, nested, Manager.leave, Channel.report, List.length_cons, last, others, ok, c]
    refine ⟨.opened names _ _ kept (.skip mark inner),
      keeps_control (k := .rollbackTo mark.name) rfl rfl (permits_innermost rfl found rfl rfl).2,
      ?_⟩
    intro _
    exact ⟨_, _, rfl, rfl, rfl⟩
  · simp only [leave, nested, Manager.leave, Channel.report, List.length_cons, last, others,
      failed, c]
    refine ⟨.opened names _ _ numbered staying,
      keeps_control (k := .rollbackTo mark.name) rfl rfl (permits_innermost rfl found rfl rfl).2,
      ?_⟩
    exact restored_of_error rfl

end Savepoint

theorem leave_sound (sound : Sound t faults w) (outcome : Outcome) :
    Sound t faults (w.leave outcome).2 ∧ Keeps t.dialect w (w.leave outcome).2 ∧
      (outcome = .discard → Restored w (w.leave outcome)) := by
  cases sound with
  | idle stem sequence permanent sent events =>
      exact ⟨.idle stem sequence permanent sent events, keeps_silent rfl,
        fun _ => restored_of_error rfl⟩
  | opened names sent events numbered standing =>
      cases names with
      | nil => exact leave_outermost _ _ sent events standing outcome
      | cons name names =>
          rcases standing.innermost with ⟨newer, mark, older, outer, rfl, rfl, _, rfl, inner⟩
          cases outcome with
          | keep =>
              have left := leave_savepoint_keep t faults sent events numbered inner
              exact ⟨left.1, left.2, by simp⟩
          | discard =>
              have left := leave_savepoint_discard t faults sent events numbered inner
              exact ⟨left.1, left.2.1, fun _ => left.2.2⟩

/-- The database follows the manager: it is open exactly inside a level, and the answer to a
turn tells what it made of the command. -/
structure Followed (d : Dialect) (w : World) : Prop where
  open_iff : w.db.session.isSome ↔ w.manager.depth ≠ 0
  enter : w.db.Answers d w.sent.length w.manager.opening w.enter.1 w.enter.2.db
  leave : w.manager.depth ≠ 0 → ∀ outcome, w.db.Answers d w.sent.length
    (w.manager.closing outcome) (w.leave outcome).1 (w.leave outcome).2.db

theorem Sound.connection (sound : Sound t faults w) :
    w.channel.connection = Server.connection t faults := by
  cases sound <;> rfl

theorem Sound.balanced (sound : Sound t faults w) : w.manager.Balanced := by
  cases sound with
  | idle => rfl
  | opened names => simp [nested, Manager.Balanced]

theorem Sound.followed (sound : Sound t faults w) : w.Followed t.dialect := by
  constructor
  · cases sound with
    | idle => simp [db]
    | opened => simp [db, nested]
  · have answer := (w.manager.enters w.channel).answer
    have answers := Server.control_answers t faults w.channel w.manager.opening sound.connection
    rw [← answer.1, ← answer.2] at answers
    exact answers
  · intro active outcome
    have answer := (w.manager.leaves outcome w.channel).answer sound.balanced active
    have answers := Server.control_answers t faults w.channel (w.manager.closing outcome)
      sound.connection
    rw [← answer.1, ← answer.2] at answers
    exact answers

/-- If a level was entered, it stands in the database: as the session, if it is the outermost
one, and else as a savepoint under the name that was next, on all the work there is. -/
def Opened (w : World) (entered : Except Error Unit × World) : Prop :=
  entered.1 = .ok () → entered.2.db = { w.db with
    session := some (w.db.session.elim {} (OpenWork.mark w.manager.nextName w.sent.length)) }

theorem enter_opens (sound : Sound t faults w) : Opened w w.enter := by
  intro entered
  have followed := sound.followed
  have answers := followed.enter
  rw [entered] at answers
  cases opened : w.db.session with
  | none =>
      have idle : w.manager.depth = 0 := by simpa [opened] using followed.open_iff
      rw [Manager.opening_of_idle idle] at answers
      obtain ⟨⟨⟩, _⟩ | allowed := answers.obeys
      simp only [Database.obey, opened, Option.some.injEq] at allowed
      exact allowed.symm
  | some session =>
      have inner : w.manager.depth ≠ 0 := by simpa [opened] using followed.open_iff
      rw [Manager.opening_of_inner inner] at answers
      obtain ⟨⟨⟩, _⟩ | allowed := answers.obeys
      simp only [Database.obey, opened, Option.some.injEq] at allowed
      exact allowed.symm

theorem visible_of_kept {db next : Database} {number : Nat} (name : Option String)
    (allowed : db.obey number (.closing name .keep) = some next) : next.visible = db.visible := by
  rcases db with ⟨permanent, none | session⟩
  · cases name <;> cases allowed
  · cases name with
    | none =>
        cases allowed
        simp [Database.visible]
    | some name =>
        obtain ⟨later, released, rfl⟩ := Option.map_eq_some_iff.1 allowed
        unfold OpenWork.release at released
        split at released
        · cases released
        · cases released
          rfl

/-- If a level was kept, it is closed, and all work stays in sight. -/
def Closed (w : World) (left : Except Error Unit × World) : Prop :=
  left.1 = .ok () → left.2.db.visible = w.db.visible ∧
    (left.2.db.session.isSome ↔ 1 < w.manager.depth)

theorem leave_closes (sound : Sound t faults w) : Closed w (w.leave .keep) := by
  intro kept
  have left := w.manager.leaves .keep w.channel
  have active : w.manager.depth ≠ 0 := by
    intro idle
    have refused : (w.leave .keep).1 = .error .noTransaction := (left.of_idle idle).1
    rw [kept] at refused
    cases refused
  constructor
  · have answers := sound.followed.leave active .keep
    rw [kept] at answers
    obtain ⟨_, same⟩ | allowed := answers.obeys
    · rw [same]
    · exact visible_of_kept _ allowed
  · have lower : (w.leave .keep).2.manager.depth + 1 = w.manager.depth :=
      (left.lowers sound.balanced active).1
    rw [(leave_sound sound .keep).1.followed.open_iff, ← lower]
    omega

theorem step_sound (sound : Sound t faults w) (u : Use) :
    Sound t faults (w.step u) ∧ Keeps t.dialect w (w.step u) := by
  cases u with
  | enter => exact enter_sound sound
  | leave outcome =>
      have left := leave_sound sound outcome
      exact ⟨left.1, left.2.1⟩
  | execute sql params => exact execute_sound sound sql params

theorem run_sound (sound : Sound t faults w) (uses : List Use) : Sound t faults (w.run uses) := by
  induction uses generalizing w with
  | nil => exact sound
  | cons u uses ih => exact ih (step_sound sound u).1

end World

/-- On every dialect, after any run and with any failures, what a manager sends next fits
the state of the database, and the answer tells what the database made of it. A level that is
entered is opened there, one that is kept is closed with its work, and one that is rolled back
leaves no trace. -/
theorem transactions_fit_database (t : Target) (faults : Nat → Option Error) (stem : String)
    (permanent : List Work) (uses : List Use) :
    let w := (World.start t faults stem permanent).run uses
    (∀ u, World.Keeps t.dialect w (w.step u)) ∧ w.Followed t.dialect ∧
      World.Opened w w.enter ∧ World.Closed w (w.leave .keep) ∧
      World.Restored w (w.leave .discard) := by
  have sound := World.run_sound (World.sound_start t faults stem permanent) uses
  refine ⟨?_, sound.followed, World.enter_opens sound, World.leave_closes sound,
    (World.leave_sound sound .discard).2.2 rfl⟩
  intro u
  exact (World.step_sound sound u).2

end CrossDialect
