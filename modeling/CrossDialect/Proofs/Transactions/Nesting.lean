import CrossDialect.Proofs.Statements.Layouts
import CrossDialect.Proofs.Transactions.Blocks
import CrossDialect.Proofs.Transactions.Levels

/-!
Blocks inside blocks, in place or in functions of their own. A block that cannot begin or
cannot be kept returns at once from the function or the body it stands in, so the failure
of an inner block may be how the body of an outer one ends. However it ends, a block
leaves the levels of the adapter as it found them.
-/

namespace CrossDialect

variable {σ α β : Type}

namespace Adapter

variable {a b c d : Adapter σ} {result : Except Error Unit} {outcome : Outcome}

def savepoints (a : Adapter σ) : List String := (a.manager.map Manager.savepoints).getD []

def answer (a : Adapter σ) (k : Control) : Except Error Unit :=
  (a.channel.connection.control k a.channel.backend).1

structure SameLevel (a b : Adapter σ) : Prop where
  depth : b.depth = a.depth
  savepoints : b.savepoints = a.savepoints

theorem SameLevel.refl (a : Adapter σ) : a.SameLevel a := ⟨rfl, rfl⟩

theorem SameLevel.trans (first : a.SameLevel b) (second : b.SameLevel c) : a.SameLevel c :=
  ⟨second.depth.trans first.depth, second.savepoints.trans first.savepoints⟩

theorem sameLevel_of_manager (same : b.manager = a.manager) : a.SameLevel b :=
  ⟨by rw [depth, depth, same], by rw [savepoints, savepoints, same]⟩

def Balanced (a : Adapter σ) : Prop := a.savepoints.length = a.depth - 1

theorem Balanced.sameLevel (balanced : a.Balanced) (same : a.SameLevel b) : b.Balanced := by
  rw [Balanced, same.depth, same.savepoints]
  exact balanced

@[simp] theorem depth_of_manager (channel : Channel σ) (config : Config) (m : Manager) :
    depth ⟨channel, config, some m⟩ = m.depth := rfl

@[simp] theorem savepoints_of_manager (channel : Channel σ) (config : Config) (m : Manager) :
    savepoints ⟨channel, config, some m⟩ = m.savepoints := rfl

theorem depth_ensureManager (a : Adapter σ) : a.ensureManager.1.depth = a.depth := by
  unfold ensureManager depth
  cases a.manager <;> rfl

theorem savepoints_ensureManager (a : Adapter σ) :
    a.ensureManager.1.savepoints = a.savepoints := by
  unfold ensureManager savepoints
  cases a.manager <;> rfl

theorem enters (entered : a.begin = (result, b)) :
    ∃ m channel, b = { a with channel, manager := some m } ∧
      a.ensureManager.1.Enters a.channel result m channel := by
  cases entered
  exact ⟨_, _, rfl, Manager.enters _ _⟩

theorem leaves {m : Manager} (made : a.manager = some m) (left : a.leave outcome = (result, b)) :
    ∃ m' channel, b = { a with channel, manager := some m' } ∧
      m.Leaves outcome a.channel result m' channel := by
  simp only [leave, made] at left
  cases left
  exact ⟨_, _, rfl, m.leaves outcome a.channel⟩

/-- How a level was opened, for the transaction itself or under the name of a savepoint. -/
structure Opened (a b : Adapter σ) (own : Option String) : Prop where
  outermost : own = none ↔ a.depth = 0
  answered : a.answer (.opening own) = .ok ()
  depth : b.depth = a.depth + 1
  savepoints : b.savepoints = a.savepoints ++ own.toList

theorem begin_balanced (balanced : a.Balanced) (entered : a.begin = (result, b)) :
    b.Balanced := by
  obtain ⟨m, channel, rfl, ways⟩ := enters entered
  apply ways.balanced
  rw [Manager.Balanced, depth_ensureManager, savepoints_ensureManager]
  exact balanced

theorem leave_balanced (balanced : a.Balanced) (outcome : Outcome) :
    (a.leave outcome).2.Balanced := by
  rcases a with ⟨channel, config, none | m⟩
  · exact balanced
  · exact (m.leaves outcome channel).balanced balanced

theorem begin_refused {e : Error} (entered : a.begin = (.error e, b)) : a.SameLevel b := by
  obtain ⟨m, channel, rfl, ways⟩ := enters entered
  have level := a.depth_ensureManager
  have names := a.savepoints_ensureManager
  generalize a.ensureManager.1 = before at *
  cases ways with
  | unopened | unset => exact ⟨level, names⟩

theorem begin_opened (entered : a.begin = (.ok (), b)) : ∃ own, Opened a b own := by
  obtain ⟨m, channel, rfl, ways⟩ := enters entered
  have level := a.depth_ensureManager
  have names := a.savepoints_ensureManager
  generalize a.ensureManager.1 = before at *
  cases ways with
  | opened idle answer =>
      rw [idle] at level
      refine ⟨none, ?_, congrArg Prod.fst answer, ?_, ?_⟩
      · simp [← level]
      · rw [← level, depth_of_manager]
      · simpa using names
  | set inner answer =>
      rw [level] at inner
      refine ⟨some before.nextName, ?_, congrArg Prod.fst answer, ?_, ?_⟩
      · simpa using inner
      · rw [depth_of_manager, level]
      · rw [savepoints_of_manager, names, Option.toList_some]

theorem Opened.leave {own : Option String} (opened : Opened a b own) (balanced : a.Balanced)
    (same : b.SameLevel c) (left : c.leave outcome = (result, d)) :
    a.SameLevel d ∧ result = c.answer (.closing own outcome) := by
  have level := same.depth.trans opened.depth
  have names := same.savepoints.trans opened.savepoints
  rcases c with ⟨channel, config, none | m⟩
  · cases level
  obtain ⟨m', channel', rfl, ways⟩ := leaves rfl left
  rw [depth_of_manager] at level
  rw [savepoints_of_manager] at names
  cases ways with
  | idle none => omega
  | ended outermost answer =>
      have idle : a.depth = 0 := by omega
      obtain rfl := opened.outermost.2 idle
      have closed : a.savepoints = [] := by
        rw [Balanced, idle] at balanced
        exact List.eq_nil_of_length_eq_zero balanced
      refine ⟨⟨idle.symm, closed.symm⟩, ?_⟩
      exact (congrArg Prod.fst answer).symm
  | left inner recorded answer =>
      cases own with
      | none =>
          have idle := opened.outermost.1 rfl
          omega
      | some name =>
          rw [recorded, Option.toList_some] at names
          obtain ⟨rfl, own⟩ := List.append_inj' names rfl
          cases own
          have lower : _ + 1 = a.depth := Nat.succ.inj (inner.symm.trans level)
          exact ⟨⟨lower, rfl⟩, (congrArg Prod.fst answer).symm⟩
  | unrecorded inner lost =>
      rw [lost] at names
      cases own with
      | none =>
          have idle := opened.outermost.1 rfl
          omega
      | some name => simp at names

/-- A body that keeps the level of its block makes a block that keeps the level around it. -/
theorem transaction_sameLevel {body : Session σ α} (balanced : a.Balanced)
    (spares : ∀ b : Adapter σ, b.Balanced → b.SameLevel (body b).2) :
    a.SameLevel (transaction body a).2 := by
  have closes {b c d : Adapter σ} {ended : Except Error α} {result : Except Error Unit}
      {outcome : Outcome} (entered : a.begin = (.ok (), b)) (ran : body b = (ended, c))
      (left : c.leave outcome = (result, d)) : a.SameLevel d := by
    obtain ⟨own, opened⟩ := begin_opened entered
    have inner := spares b (begin_balanced balanced entered)
    rw [ran] at inner
    exact (opened.leave balanced inner left).1
  obtain ⟨b, result, played⟩ := transaction_played body a
  rw [result]
  generalize ending body a = ended at played
  cases played with
  | refused entered => exact begin_refused entered
  | kept entered ran left | unkept entered ran left => exact closes entered ran left
  | undone entered ran left | stuck entered ran left => exact closes entered ran left

/-- A block that yielded a value: its level was opened, its body yielded the value and
left the level as it was, and the command that keeps the work of the level was obeyed. -/
def Kept (body : Session σ α) (a : Adapter σ) (x : α) : Prop :=
  ∃ b c own, a.begin = (.ok (), b) ∧ Opened a b own ∧ body b = (.ok x, c) ∧ b.SameLevel c ∧
    c.commit = (.ok (), (transaction body a).2) ∧ c.answer (.closing own .keep) = .ok ()

theorem transaction_kept {body : Session σ α} (balanced : a.Balanced)
    (spares : ∀ b : Adapter σ, b.Balanced → b.SameLevel (body b).2) {x : α}
    (ok : (transaction body a).1 = .ok x) : Kept body a x := by
  obtain ⟨d, result, played⟩ := transaction_played body a
  unfold Kept
  rw [result] at ok ⊢
  generalize ending body a = ended at played ok
  cases played with
  | refused | unkept | undone | stuck => cases ok
  | @kept _ b c _ entered ran left =>
      cases ok
      obtain ⟨own, opened⟩ := begin_opened entered
      have inner := spares b (begin_balanced balanced entered)
      rw [ran] at inner
      have answered := (opened.leave balanced inner left).2
      exact ⟨b, c, own, entered, opened, ran, inner, left, answered.symm⟩

end Adapter

structure Aside (σ α : Type) where
  run : Session σ α
  spares : ∀ a : Adapter σ, a.SameLevel (run a).2

def Aside.execute (statement : Except Error Built) : Aside σ Nat where
  run := Adapter.execute statement
  spares a := by
    apply Adapter.sameLevel_of_manager
    cases statement with
    | error e => rfl
    | ok built =>
        simp only [Adapter.execute, Adapter.executeDirect]
        split <;> rfl

/-- Code that touches the transaction through blocks alone. What it does next may depend on
every result it has seen. -/
inductive Code (σ : Type) : Type → Type 1 where
  | finish {α : Type} (result : Except Error α) : Code σ α
  | aside {α β : Type} (use : Aside σ β) (next : Except Error β → Code σ α) : Code σ α
  -- A block in place.
  | block {α β : Type} (inner : Code σ β) (next : Except Error β → Code σ α) : Code σ α
  -- A function, with blocks of its own.
  | call {α β : Type} (function : Code σ β) (next : Except Error β → Code σ α) : Code σ α

def Ending.returned? : Ending α → Option Error
  | .refused e | .unkept e => some e
  | .kept _ | .undone _ | .stuck .. => none

namespace Code

def run : {α : Type} → Code σ α → Session σ α
  | _, .finish result, a => (result, a)
  | _, .aside use next, a =>
    let (result, a) := use.run a
    (next result).run a
  | _, .block inner next, a =>
    let (result, b) := Adapter.transaction inner.run a
    match (Adapter.ending inner.run a).returned? with
    | some e => (.error e, b)
    | none => (next result).run b
  | _, .call function next, a =>
    let (result, a) := function.run a
    (next result).run a

/-- The blocks that are started while code runs, and the state of the adapter that each of
them finds. -/
inductive Starts : {α : Type} → Code σ α → Adapter σ → {β : Type} → Code σ β → Adapter σ → Prop
  where
  | here {α β : Type} (inner : Code σ β) (next : Except Error β → Code σ α) (a : Adapter σ) :
      Starts (.block inner next) a inner a
  | inside {α β γ : Type} {inner : Code σ β} {body : Code σ γ} {a b : Adapter σ}
      (next : Except Error β → Code σ α) (entered : a.begin.1 = .ok ()) :
      Starts inner a.begin.2 body b → Starts (.block inner next) a body b
  | behind {α β γ : Type} {inner : Code σ β} {next : Except Error β → Code σ α} {body : Code σ γ}
      {a b : Adapter σ} (stays : (Adapter.ending inner.run a).returned? = none) :
      Starts (next (Adapter.transaction inner.run a).1) (Adapter.transaction inner.run a).2 body b →
      Starts (.block inner next) a body b
  | afterUse {α β γ : Type} {use : Aside σ β} {next : Except Error β → Code σ α} {body : Code σ γ}
      {a b : Adapter σ} :
      Starts (next (use.run a).1) (use.run a).2 body b → Starts (.aside use next) a body b
  | called {α β γ : Type} {function : Code σ β} {body : Code σ γ} {a b : Adapter σ}
      (next : Except Error β → Code σ α) :
      Starts function a body b → Starts (.call function next) a body b
  | afterCall {α β γ : Type} {function : Code σ β} {next : Except Error β → Code σ α}
      {body : Code σ γ} {a b : Adapter σ} :
      Starts (next (function.run a).1) (function.run a).2 body b →
      Starts (.call function next) a body b

theorem run_sameLevel (code : Code σ α) {a : Adapter σ} (balanced : a.Balanced) :
    a.SameLevel (code.run a).2 := by
  induction code generalizing a with
  | finish result => exact .refl a
  | aside use next ih =>
      have same := use.spares a
      exact same.trans (ih _ (balanced.sameLevel same))
  | block inner next ihInner ihNext =>
      have same := Adapter.transaction_sameLevel balanced fun _ => ihInner
      simp only [run]
      split
      · exact same
      · exact same.trans (ihNext _ (balanced.sameLevel same))
  | call function next ihFunction ihNext =>
      have same := ihFunction balanced
      exact same.trans (ihNext _ (balanced.sameLevel same))

theorem Starts.balanced {code : Code σ α} {body : Code σ β} {a b : Adapter σ}
    (started : code.Starts a body b) (balanced : a.Balanced) : b.Balanced := by
  induction started with
  | here => exact balanced
  | inside next _ _ ih => exact ih (Adapter.begin_balanced balanced rfl)
  | @behind _ _ _ inner _ _ _ _ stays _ ih =>
      exact ih (balanced.sameLevel
        (Adapter.transaction_sameLevel balanced fun _ => inner.run_sameLevel))
  | @afterUse _ _ _ use _ _ a _ _ ih => exact ih (balanced.sameLevel (use.spares a))
  | called next _ ih => exact ih balanced
  | @afterCall _ _ _ function _ _ _ _ _ ih =>
      exact ih (balanced.sameLevel (function.run_sameLevel balanced))

end Code

/-- The states that an adapter comes to: by opening and leaving levels, and by uses that
leave the transaction alone. -/
inductive Adapter.Reached : Adapter σ → Prop where
  | made (channel : Channel σ) (config : Config) : Reached { channel, config }
  | begun {a : Adapter σ} : Reached a → Reached a.begin.2
  | left {a : Adapter σ} (outcome : Outcome) : Reached a → Reached (a.leave outcome).2
  | used {a : Adapter σ} {α : Type} (use : Aside σ α) : Reached a → Reached (use.run a).2

theorem Adapter.Reached.balanced {a : Adapter σ} (reached : a.Reached) : a.Balanced := by
  induction reached with
  | made channel config => rfl
  | begun _ ih => exact begin_balanced ih rfl
  | left outcome _ ih => exact leave_balanced ih outcome
  | used use _ ih => exact ih.sameLevel (use.spares _)

/-- However a block ends, by a value or by a return from the code around it, it leaves the
depth and the open savepoints as it found them. It yields a value only if its level was
opened, its body yielded the value and its level was kept. -/
theorem blocks_restore_levels {code : Code σ α} {body : Code σ β} {a b : Adapter σ}
    (reached : a.Reached) (started : code.Starts a body b) :
    b.SameLevel (Adapter.transaction body.run b).2 ∧
      ∀ x, (Adapter.transaction body.run b).1 = .ok x → Adapter.Kept body.run b x := by
  have balanced := started.balanced reached.balanced
  have spares (c : Adapter σ) (balanced : c.Balanced) : c.SameLevel (body.run c).2 :=
    body.run_sameLevel balanced
  constructor
  · exact Adapter.transaction_sameLevel balanced spares
  · intro x ok
    exact Adapter.transaction_kept balanced spares ok

/-- A function passes over the savepoint that could not be released, and a second block
inside the same transaction is kept. -/
theorem blocks_restore_levels_unreleased :
    let refused number := if number = 3 then some (Error.connection "refused") else none
    let a : Adapter Server :=
      { channel := { connection := Server.connection (.ofDialect .postgres) refused, backend := {} } }
    let audit : Code Server Unit :=
      .aside (.execute (.ok ⟨"INSERT INTO audit VALUES (1)", []⟩)) fun _ => .finish (.ok ())
    let report : Code Server Unit := .block audit .finish
    let order : Code Server Unit := .call report fun _ => .block audit .finish
    let tree : Code Server Unit := .block order .finish
    let b := (report.run a.begin.2).2
    a.Reached ∧ tree.Starts a audit b ∧ (report.run a.begin.2).1.toOption = none ∧
      b.depth = 1 ∧ b.SameLevel (Adapter.transaction audit.run b).2 ∧
      Adapter.Kept audit.run b () ∧ (tree.run a).2.depth = 0 := by
  intro refused a audit report order tree b
  have reached : a.Reached := .made _ _
  have entered : a.begin.1 = .ok () := eq_ok_of_toOption (by decide +kernel)
  have started : tree.Starts a audit b := .inside _ entered (.afterCall (.here _ _ _))
  have yields : (Adapter.transaction audit.run b).1 = .ok () :=
    eq_ok_of_toOption (by decide +kernel)
  rcases blocks_restore_levels reached started with ⟨same, kept⟩
  exact ⟨reached, started, by decide +kernel, by decide +kernel, same, kept () yields,
    by decide +kernel⟩

end CrossDialect
