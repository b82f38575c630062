import CrossDialect.Proofs.Placeholders.Names
import CrossDialect.Transaction.Manager
import Mathlib.Data.List.Nodup

/-!
The levels of a manager on a connection of which nothing is known: any command may succeed
or fail, whatever was sent before. Depth, savepoints and numbers change at different points
around a command, and still fit each other after every turn. All that a turn can do is said
once, by `Enters` and `Leaves`.
-/

namespace CrossDialect

variable {σ : Type}

def Control.opening : Option String → Control
  | none => .begin
  | some name => .savepoint name

/-- The command that leaves a level: that of a savepoint by its name, the outermost one
without a name. -/
def Control.closing : Option String → Outcome → Control
  | none, .keep => .commit
  | none, .discard => .rollback
  | some name, .keep => .release name
  | some name, .discard => .rollbackTo name

namespace Manager

def nextName (m : Manager) : String := m.savepointName (m.sequence + 1)

def opening (m : Manager) : Control :=
  .opening (if m.depth = 0 then none else some m.nextName)

def closing (m : Manager) (outcome : Outcome) : Control :=
  .closing m.savepoints.getLast? outcome

theorem opening_of_idle {m : Manager} (idle : m.depth = 0) : m.opening = .begin := by
  rw [opening, if_pos idle, Control.opening]

theorem opening_of_inner {m : Manager} (inner : m.depth ≠ 0) :
    m.opening = .savepoint m.nextName := by
  rw [opening, if_neg inner, Control.opening]

inductive Enters (m : Manager) (c : Channel σ) : Except Error Unit → Manager → Channel σ → Prop where
  | opened {d : Channel σ} (idle : m.depth = 0) (answer : c.control .begin = (.ok (), d)) :
      Enters m c (.ok ()) { m with depth := 1 } (d.report .began)
  | unopened {e : Error} {d : Channel σ} (idle : m.depth = 0)
      (answer : c.control .begin = (.error e, d)) : Enters m c (.error e) m d
  | set {d : Channel σ} (inner : m.depth ≠ 0)
      (answer : c.control (.savepoint m.nextName) = (.ok (), d)) :
      Enters m c (.ok ())
        { m with
          depth := m.depth + 1
          savepoints := m.savepoints ++ [m.nextName]
          sequence := m.sequence + 1 }
        (d.report (.savepointSet (m.depth + 1) m.nextName))
  | unset {e : Error} {d : Channel σ} (inner : m.depth ≠ 0)
      (answer : c.control (.savepoint m.nextName) = (.error e, d)) :
      Enters m c (.error e) { m with sequence := m.sequence + 1 } d

theorem enters (m : Manager) (c : Channel σ) :
    Enters m c (m.enter c).1 (m.enter c).2.1 (m.enter c).2.2 := by
  unfold enter
  split
  next idle =>
    rcases answer : c.control .begin with ⟨e | _, d⟩
    · exact .unopened idle answer
    · exact .opened idle answer
  next inner =>
    rcases answer : c.control (.savepoint m.nextName) with ⟨e | _, d⟩
    all_goals
      rw [nextName] at answer
      simp only [answer]
    · exact .unset inner answer
    · exact .set inner answer

inductive Leaves (m : Manager) (outcome : Outcome) (c : Channel σ) :
    Except Error Unit → Manager → Channel σ → Prop where
  | idle (none : m.depth = 0) : Leaves m outcome c (.error .noTransaction) m c
  | ended {result : Except Error Unit} {d : Channel σ} (outermost : m.depth = 1)
      (answer : (c.report (.ended outcome)).control (.closing none outcome) = (result, d)) :
      Leaves m outcome c result { m with depth := 0, savepoints := [] } d
  | left {depth : Nat} {names : List String} {name : String} {result : Except Error Unit}
      {d : Channel σ} (inner : m.depth = depth + 2) (recorded : m.savepoints = names ++ [name])
      (answer : (c.report (.savepointLeft (depth + 1) name outcome)).control
        (.closing (some name) outcome) = (result, d)) :
      Leaves m outcome c result { m with depth := depth + 1, savepoints := names } d
  | unrecorded {depth : Nat} (inner : m.depth = depth + 2) (lost : m.savepoints = []) :
      Leaves m outcome c (.error (.noSavepoint (depth + 2))) m c

theorem leaves (m : Manager) (outcome : Outcome) (c : Channel σ) :
    Leaves m outcome c (m.leave outcome c).1 (m.leave outcome c).2.1 (m.leave outcome c).2.2 := by
  unfold leave
  split
  next none => exact .idle none
  next outermost => cases outcome <;> exact .ended outermost rfl
  next depth inner =>
    rcases List.eq_nil_or_concat m.savepoints with lost | ⟨names, name, recorded⟩
    · simp only [lost, List.getLast?_nil]
      exact .unrecorded inner lost
    · rw [List.concat_eq_append] at recorded
      simp only [recorded, List.getLast?_append, List.getLast?_singleton, List.dropLast_concat]
      cases outcome <;> exact .left inner recorded rfl

def Balanced (m : Manager) : Prop := m.savepoints.length = m.depth - 1

variable {m m' : Manager} {outcome : Outcome} {c d : Channel σ} {result : Except Error Unit}

theorem Balanced.of_outermost (balanced : m.Balanced) (outermost : m.depth = 1) :
    m.savepoints = [] := by
  rw [Balanced, outermost] at balanced
  exact List.eq_nil_of_length_eq_zero balanced

theorem Balanced.recorded {depth : Nat} (balanced : m.Balanced) (inner : m.depth = depth + 2) :
    m.savepoints ≠ [] := by
  intro lost
  rw [Balanced, inner, lost] at balanced
  cases balanced

theorem Enters.balanced (entered : Enters m c result m' d) (balanced : m.Balanced) :
    m'.Balanced := by
  unfold Balanced at *
  cases entered with
  | opened idle => simpa [idle] using balanced
  | unopened | unset => exact balanced
  | set inner =>
      simp only [List.length_append, List.length_singleton]
      omega

theorem Leaves.balanced (left : Leaves m outcome c result m' d) (balanced : m.Balanced) :
    m'.Balanced := by
  unfold Balanced at *
  cases left with
  | idle | unrecorded => exact balanced
  | ended => rfl
  | left inner recorded =>
      rw [recorded, inner] at balanced
      simp only [List.length_append, List.length_singleton] at balanced
      dsimp only
      omega

/-- Entering hands on the answer to its command, and what the command left behind. -/
theorem Enters.answer (entered : Enters m c result m' d) :
    result = (c.control m.opening).1 ∧ d.backend = (c.control m.opening).2.backend := by
  cases entered with
  | opened idle answer | unopened idle answer =>
      rw [opening_of_idle idle, answer]
      exact ⟨rfl, rfl⟩
  | set inner answer | unset inner answer =>
      rw [opening_of_inner inner, answer]
      exact ⟨rfl, rfl⟩

theorem Leaves.of_idle (left : Leaves m outcome c result m' d) (idle : m.depth = 0) :
    result = .error .noTransaction ∧ m' = m ∧ d = c := by
  cases left with
  | idle => exact ⟨rfl, rfl, rfl⟩
  | ended outermost => omega
  | left inner | unrecorded inner => omega

/-- Whatever the answer is, the innermost level is gone with its savepoint. -/
theorem Leaves.lowers (left : Leaves m outcome c result m' d) (balanced : m.Balanced)
    (active : m.depth ≠ 0) :
    m'.depth + 1 = m.depth ∧ m'.savepoints = m.savepoints.dropLast := by
  cases left with
  | idle none => exact absurd none active
  | ended outermost => exact ⟨outermost.symm, by rw [balanced.of_outermost outermost]; rfl⟩
  | left inner recorded => exact ⟨inner.symm, by rw [recorded, List.dropLast_concat]⟩
  | unrecorded inner lost => exact absurd lost (balanced.recorded inner)

theorem Leaves.answer (left : Leaves m outcome c result m' d) (balanced : m.Balanced)
    (active : m.depth ≠ 0) :
    result = (c.control (m.closing outcome)).1 ∧
      d.backend = (c.control (m.closing outcome)).2.backend := by
  -- what is reported before the command is not seen by the connection
  have reported (e : Event) (k : Control) : (c.report e).control k =
      ((c.control k).1, (c.control k).2.report e) := rfl
  cases left with
  | idle none => exact absurd none active
  | ended outermost answer =>
      have command : m.closing outcome = .closing none outcome := by
        rw [closing, balanced.of_outermost outermost, List.getLast?_nil]
      rw [reported] at answer
      rw [command]
      cases answer
      exact ⟨rfl, rfl⟩
  | left inner recorded answer =>
      rw [reported] at answer
      rw [closing, recorded, List.getLast?_concat]
      cases answer
      exact ⟨rfl, rfl⟩
  | unrecorded inner lost => exact absurd lost (balanced.recorded inner)

theorem Enters.sequence_le (entered : Enters m c result m' d) : m'.sequence ≤ m.sequence + 1 := by
  cases entered with
  | opened | unopened => exact Nat.le_succ _
  | set | unset => exact Nat.le_refl _

theorem Leaves.sequence_eq (left : Leaves m outcome c result m' d) : m'.sequence = m.sequence := by
  cases left <;> rfl

end Manager

def Control.savepoint? : Control → Option String
  | .savepoint name => some name
  | _ => none

structure Noted (σ : Type) where
  backend : σ
  commands : List Control := []

def Connection.noted (connection : Connection σ) : Connection (Noted σ) where
  target := connection.target
  control k s :=
    let (result, backend) := connection.control k s.backend
    (result, { backend, commands := s.commands ++ [k] })
  execute sql params s :=
    let (result, backend) := connection.execute sql params s.backend
    (result, { s with backend })

structure Managed (σ : Type) where
  manager : Manager
  channel : Channel (Noted σ)

inductive Turn where
  | enter
  | leave (outcome : Outcome)

namespace Managed

variable {connection : Connection σ} {w : Managed σ}

def start (connection : Connection σ) (backend : σ) (stem : String) : Managed σ where
  manager := .withStem stem
  channel := { connection := connection.noted, backend := { backend } }

def enter (w : Managed σ) : Except Error Unit × Managed σ :=
  let (result, manager, channel) := w.manager.enter w.channel
  (result, { manager, channel })

def leave (outcome : Outcome) (w : Managed σ) : Except Error Unit × Managed σ :=
  let (result, manager, channel) := w.manager.leave outcome w.channel
  (result, { manager, channel })

def step (w : Managed σ) : Turn → Managed σ
  | .enter => w.enter.2
  | .leave outcome => (w.leave outcome).2

def run (w : Managed σ) (turns : List Turn) : Managed σ := turns.foldl step w

def commands (w : Managed σ) : List Control := w.channel.backend.commands

def named (w : Managed σ) : List String := w.commands.filterMap Control.savepoint?

def answer (connection : Connection σ) (w : Managed σ) (k : Control) : Except Error Unit :=
  (connection.control k w.channel.backend.backend).1

/-- Outside of a transaction no savepoint is open, and inside one for each level but the
outermost. -/
structure LevelsFit (w : Managed σ) : Prop where
  outside : w.manager.depth = 0 → w.manager.savepoints = []
  inside : w.manager.depth ≠ 0 → w.manager.savepoints.length = w.manager.depth - 1
  distinct : w.manager.savepoints.Nodup

/-- Entering sends one command and hands its answer on. Only where the connection agrees is a
level open after it, and an inner one with its savepoint. -/
structure EnterRaises (connection : Connection σ) (w : Managed σ) : Prop where
  sent : w.enter.2.commands = w.commands ++ [w.manager.opening] ∧
    w.enter.1 = w.answer connection w.manager.opening
  accepted : w.enter.1 = .ok () → w.enter.2.manager.depth = w.manager.depth + 1 ∧
    w.enter.2.manager.savepoints =
      w.manager.savepoints ++ w.manager.opening.savepoint?.toList
  refused : ∀ e, w.enter.1 = .error e → w.enter.2.manager.depth = w.manager.depth ∧
    w.enter.2.manager.savepoints = w.manager.savepoints

/-- Leaving sends one command and hands its answer on, and takes one level away whatever the
answer is. Where there is no level it sends nothing and changes nothing. -/
structure LeaveLowers (connection : Connection σ) (w : Managed σ) (outcome : Outcome) : Prop where
  outside : w.manager.depth = 0 → w.leave outcome = (.error .noTransaction, w)
  sent : w.manager.depth ≠ 0 →
    (w.leave outcome).2.commands = w.commands ++ [w.manager.closing outcome] ∧
      (w.leave outcome).1 = w.answer connection (w.manager.closing outcome)
  lowered : w.manager.depth ≠ 0 → (w.leave outcome).2.manager.depth + 1 = w.manager.depth ∧
    (w.leave outcome).2.manager.savepoints = w.manager.savepoints.dropLast
  -- that no savepoint is recorded could only be an answer of the connection
  recorded : ∀ depth, (w.leave outcome).1 = .error (.noSavepoint depth) →
    w.answer connection (w.manager.closing outcome) = .error (.noSavepoint depth)

/-- What holds between two turns. The names tried so far are the numbered ones up to the
last number, and those of the open savepoints are among them in the same order. -/
structure Sound (connection : Connection σ) (w : Managed σ) : Prop where
  noted : w.channel.connection = connection.noted
  balanced : w.manager.Balanced
  numbered : w.named = (List.range' 1 w.manager.sequence).map w.manager.savepointName
  known : w.manager.savepoints.Sublist w.named

theorem sound_start (connection : Connection σ) (backend : σ) (stem : String) :
    Sound connection (start connection backend stem) :=
  ⟨rfl, rfl, rfl, .slnil⟩

theorem Sound.control (sound : Sound connection w) {k : Control} {c d : Channel (Noted σ)}
    {result : Except Error Unit} (answered : c.control k = (result, d))
    (same : c.connection = w.channel.connection) (backend : c.backend = w.channel.backend) :
    result = w.answer connection k ∧ d.connection = connection.noted ∧
      d.backend.commands = w.commands ++ [k] := by
  simp only [Channel.control, same, backend, sound.noted, Connection.noted] at answered
  cases answered
  exact ⟨rfl, rfl, rfl⟩

theorem Sound.distinct (sound : Sound connection w) : w.named.Nodup := by
  rw [sound.numbered]
  refine List.Nodup.map ?_ List.nodup_range'
  intro n n' same
  exact (numbered_text_inj same).2

theorem Sound.unnamed (sound : Sound connection w) {m : Manager} {d : Channel (Noted σ)}
    {k : Control} (noted : d.connection = connection.noted)
    (sent : d.backend.commands = w.commands ++ [k]) (none : k.savepoint? = none)
    (balanced : m.Balanced) (stem : m.stem = w.manager.stem)
    (sequence : m.sequence = w.manager.sequence)
    (fewer : m.savepoints.Sublist w.manager.savepoints) : Sound connection ⟨m, d⟩ := by
  have named : named ⟨m, d⟩ = w.named := by
    simp [Managed.named, commands, sent, none]
  refine ⟨noted, balanced, ?_, ?_⟩
  · rw [named, sound.numbered, sequence]
    simp [Manager.savepointName, stem]
  · rw [named]
    exact fewer.trans sound.known

theorem Sound.tried (sound : Sound connection w) {m : Manager} {d : Channel (Noted σ)}
    (noted : d.connection = connection.noted)
    (sent : d.backend.commands = w.commands ++ [.savepoint w.manager.nextName])
    (balanced : m.Balanced) (stem : m.stem = w.manager.stem)
    (sequence : m.sequence = w.manager.sequence + 1)
    (known : m.savepoints.Sublist (w.manager.savepoints ++ [w.manager.nextName])) :
    Sound connection ⟨m, d⟩ := by
  have named : named ⟨m, d⟩ = w.named ++ [w.manager.nextName] := by
    simp [Managed.named, commands, sent, Control.savepoint?]
  refine ⟨noted, balanced, ?_, ?_⟩
  · rw [named, sound.numbered, sequence, List.range'_1_concat]
    simp [Manager.nextName, Manager.savepointName, stem, Nat.add_comm]
  · rw [named]
    exact known.trans (sound.known.append_right _)

theorem Sound.enters (sound : Sound connection w) {m : Manager} {d : Channel (Noted σ)}
    {result : Except Error Unit} (entered : w.manager.Enters w.channel result m d) :
    Sound connection ⟨m, d⟩ := by
  have balanced := entered.balanced sound.balanced
  cases entered with
  | opened _ answer =>
      obtain ⟨_, noted, sent⟩ := sound.control answer rfl rfl
      exact sound.unnamed noted sent rfl balanced rfl rfl (.refl _)
  | unopened _ answer =>
      obtain ⟨_, noted, sent⟩ := sound.control answer rfl rfl
      exact sound.unnamed noted sent rfl balanced rfl rfl (.refl _)
  | set _ answer =>
      obtain ⟨_, noted, sent⟩ := sound.control answer rfl rfl
      exact sound.tried noted sent balanced rfl rfl (.refl _)
  | unset _ answer =>
      obtain ⟨_, noted, sent⟩ := sound.control answer rfl rfl
      exact sound.tried noted sent balanced rfl rfl (List.sublist_append_left ..)

theorem Sound.leaves (sound : Sound connection w) {outcome : Outcome} {m : Manager}
    {d : Channel (Noted σ)} {result : Except Error Unit}
    (left : w.manager.Leaves outcome w.channel result m d) : Sound connection ⟨m, d⟩ := by
  have balanced := left.balanced sound.balanced
  cases left with
  | idle | unrecorded => exact sound
  | ended _ answer =>
      obtain ⟨_, noted, sent⟩ := sound.control answer rfl rfl
      refine sound.unnamed noted sent ?_ balanced rfl rfl (List.nil_sublist _)
      cases outcome <;> rfl
  | left _ recorded answer =>
      obtain ⟨_, noted, sent⟩ := sound.control answer rfl rfl
      refine sound.unnamed noted sent ?_ balanced rfl rfl ?_
      · cases outcome <;> rfl
      · rw [recorded]
        exact List.sublist_append_left ..

theorem Sound.step (sound : Sound connection w) (turn : Turn) :
    Sound connection (w.step turn) := by
  cases turn with
  | enter => exact sound.enters (w.manager.enters w.channel)
  | leave outcome => exact sound.leaves (w.manager.leaves outcome w.channel)

theorem Sound.run (sound : Sound connection w) (turns : List Turn) :
    Sound connection (w.run turns) := by
  induction turns generalizing w with
  | nil => exact sound
  | cons turn turns ih => exact ih (sound.step turn)

theorem Sound.levelsFit (sound : Sound connection w) : w.LevelsFit := by
  have balanced := sound.balanced
  refine ⟨?_, fun _ => balanced, sound.distinct.sublist sound.known⟩
  intro outside
  rw [Manager.Balanced, outside] at balanced
  exact List.eq_nil_of_length_eq_zero balanced

theorem Sound.enterRaises (sound : Sound connection w) : w.EnterRaises connection := by
  have entered := w.manager.enters w.channel
  have form : w.enter = ((w.manager.enter w.channel).1,
      ⟨(w.manager.enter w.channel).2.1, (w.manager.enter w.channel).2.2⟩) := rfl
  generalize w.manager.enter w.channel = after at entered form
  rcases after with ⟨result, m, d⟩
  obtain ⟨told, backend⟩ := entered.answer
  obtain ⟨answer, _, sent⟩ := sound.control (k := w.manager.opening) rfl rfl rfl
  refine ⟨?_, ?_, ?_⟩ <;> rw [form]
  · exact ⟨(congrArg Noted.commands backend).trans sent, told.trans answer⟩
  · intro ok
    cases entered with
    | opened idle =>
        rw [Manager.opening_of_idle idle, idle]
        exact ⟨rfl, (List.append_nil _).symm⟩
    | set inner =>
        rw [Manager.opening_of_inner inner]
        exact ⟨rfl, rfl⟩
    | unopened | unset => cases ok
  · intro e failed
    cases entered with
    | opened | set => cases failed
    | unopened | unset => exact ⟨rfl, rfl⟩

theorem Sound.leaveLowers (sound : Sound connection w) (outcome : Outcome) :
    w.LeaveLowers connection outcome := by
  have left := w.manager.leaves outcome w.channel
  have form : w.leave outcome = ((w.manager.leave outcome w.channel).1,
      ⟨(w.manager.leave outcome w.channel).2.1, (w.manager.leave outcome w.channel).2.2⟩) := rfl
  generalize w.manager.leave outcome w.channel = after at left form
  rcases after with ⟨result, m, d⟩
  have balanced := sound.balanced
  obtain ⟨answer, _, sent⟩ := sound.control (k := w.manager.closing outcome) rfl rfl rfl
  have told (active : w.manager.depth ≠ 0) := left.answer balanced active
  refine ⟨?_, ?_, ?_, ?_⟩ <;> rw [form]
  · intro idle
    obtain ⟨rfl, rfl, rfl⟩ := left.of_idle idle
    rfl
  · intro active
    exact ⟨(congrArg Noted.commands (told active).2).trans sent, (told active).1.trans answer⟩
  · intro active
    exact left.lowers balanced active
  · intro depth missing
    by_cases idle : w.manager.depth = 0
    · rw [(left.of_idle idle).1] at missing
      cases missing
    · exact (answer.symm.trans (told idle).1.symm).trans missing

theorem sequence_step (w : Managed σ) (turn : Turn) :
    (w.step turn).manager.sequence ≤ w.manager.sequence + 1 := by
  cases turn with
  | enter =>
      have entered := w.manager.enters w.channel
      exact entered.sequence_le
  | leave outcome =>
      have left := w.manager.leaves outcome w.channel
      exact Nat.le_succ_of_le (Nat.le_of_eq left.sequence_eq)

theorem sequence_run (w : Managed σ) (turns : List Turn) :
    (w.run turns).manager.sequence ≤ w.manager.sequence + turns.length := by
  induction turns generalizing w with
  | nil => exact Nat.le_refl _
  | cons turn turns ih =>
      have first := w.sequence_step turn
      have others := ih (w.step turn)
      have whole : w.run (turn :: turns) = (w.step turn).run turns := rfl
      rw [whole, List.length_cons]
      omega

end Managed

/-- After any turns on any connection the levels of a manager fit each other, and no name
was tried twice. A run gives out no more numbers than it has turns. -/
theorem levels_stay_balanced (connection : Connection σ) (backend : σ) (stem : String)
    (turns : List Turn) :
    let w := (Managed.start connection backend stem).run turns
    w.LevelsFit ∧ w.named.Nodup ∧ w.manager.sequence ≤ turns.length ∧
      w.EnterRaises connection ∧ ∀ outcome, w.LeaveLowers connection outcome := by
  intro w
  have sound : w.Sound connection := (Managed.sound_start connection backend stem).run turns
  have numbers : w.manager.sequence ≤ turns.length := by
    have given := Managed.sequence_run (.start connection backend stem) turns
    rwa [Managed.start, Manager.withStem, Nat.zero_add] at given
  exact ⟨sound.levelsFit, sound.distinct, numbers, sound.enterRaises, sound.leaveLowers⟩

end CrossDialect
