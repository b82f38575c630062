import CrossDialect.Proofs.Transactions.Database
import CrossDialect.Transaction.Adapter

/-!
Trees of transaction blocks on one adapter. What a body does next may depend on every
result it has seen, so a block may hand on the failure of an inner block, answer it or
pass over it. A journal tells which statements were carried out, and how each of the
blocks ended in which this was done.
-/

namespace CrossDialect

def Error.tellsRollback (e : Error) : Prop :=
  "rollback failed".toList <:+: e.message.toList

instance (e : Error) : Decidable e.tellsRollback := inferInstanceAs (Decidable (_ <:+: _))

theorem Error.tellsRollback_rollbackFailed (e r : Error) : (rollbackFailed e r).tellsRollback := by
  have text : (rollbackFailed e r).message =
      e.message ++ " (rollback failed: " ++ r.message ++ ")" := rfl
  have words : " (rollback failed: ".toList =
      " (".toList ++ "rollback failed".toList ++ ": ".toList := by simp
  have whole : (rollbackFailed e r).message.toList =
      (e.message.toList ++ " (".toList) ++ "rollback failed".toList ++
        (": ".toList ++ r.message.toList ++ ")".toList) := by
    rw [text]
    simp only [String.toList_append, words, List.append_assoc]
  exact ⟨_, _, whole.symm⟩

/-- A body, by what it does first and what it makes of each result. -/
inductive Body (α : Type) where
  | finish (result : Except Error α)
  | execute (statement : Except Error Built) (next : Except Error Nat → Body α)
  | block (inner : Body α) (next : Except Error α → Body α)

inductive Ending (α : Type) where
  -- The level was not entered.
  | refused (e : Error)
  | kept (x : α)
  -- The body succeeded, but the level could not be kept.
  | unkept (e : Error)
  -- The body failed, and the level was rolled back.
  | undone (e : Error)
  -- The body failed, and the rollback too.
  | stuck (e r : Error)

/-- A statement that was carried out, and how the blocks around it ended, the outermost
first. -/
structure Carried (α : Type) where
  work : Work
  around : List (Ending α) := []

variable {σ α : Type}

namespace Ending

def result : Ending α → Except Error α
  | .kept x => .ok x
  | .refused e | .unkept e | .undone e => .error e
  | .stuck e r => .error (.rollbackFailed e r)

/-- Does the work inside stay, as long as the blocks around it do? -/
def stays : Ending α → Bool
  | .kept _ | .unkept _ | .stuck .. => true
  | .refused _ | .undone _ => false

theorem stays_of_ok {ending : Ending α} {x : α} (ok : ending.result = .ok x) :
    ending.stays = true := by
  cases ending with
  | kept => rfl
  | refused | unkept | undone | stuck => cases ok

def FailedQuietly (ending : Ending α) : Prop :=
  ∃ e, ending.result = .error e ∧ ¬ e.tellsRollback

instance (ending : Ending α) : Decidable ending.FailedQuietly :=
  match told : ending.result with
  | .ok x => isFalse (by
      rintro ⟨e, failed, _⟩
      cases told.symm.trans failed)
  | .error e => decidable_of_iff (¬ e.tellsRollback) (by
      constructor
      · exact fun quiet => ⟨e, told, quiet⟩
      · rintro ⟨_, failed, quiet⟩
        cases told.symm.trans failed
        exact quiet)

theorem unkept_of_stays {ending : Ending α} (stays : ending.stays = true)
    (quiet : ending.FailedQuietly) : ∃ e, ending = .unkept e := by
  rcases quiet with ⟨e, failed, quiet⟩
  cases ending with
  | kept x => cases failed
  | refused e | undone e => cases stays
  | unkept e => exact ⟨e, rfl⟩
  | stuck e r =>
      cases failed
      exact absurd (Error.tellsRollback_rollbackFailed e r) quiet

end Ending

namespace Carried

def inside (ending : Ending α) (c : Carried α) : Carried α :=
  { c with around := ending :: c.around }

def stays (c : Carried α) : Bool := c.around.all Ending.stays

def remaining (journal : List (Carried α)) : List Work :=
  (journal.filter stays).map work

@[simp] theorem remaining_nil : remaining ([] : List (Carried α)) = [] := rfl

@[simp] theorem remaining_append (first second : List (Carried α)) :
    remaining (first ++ second) = remaining first ++ remaining second := by
  simp [remaining]

@[simp] theorem remaining_cons_bare (w : Work) (journal : List (Carried α)) :
    remaining (⟨w, []⟩ :: journal) = w :: remaining journal := rfl

theorem remaining_inside (ending : Ending α) (journal : List (Carried α)) :
    remaining (journal.map (inside ending)) = if ending.stays then remaining journal else [] := by
  have stays_map : stays ∘ inside ending = fun c => ending.stays && c.stays := rfl
  have work_map : work ∘ inside ending = work := rfl
  simp only [remaining, List.filter_map, List.map_map, stays_map, work_map]
  cases ending.stays <;> simp

end Carried

namespace Adapter

def ending (body : Session σ α) (a : Adapter σ) : Ending α :=
  match a.begin with
  | (.error e, _) => .refused e
  | (.ok _, a) =>
    match body a with
    | (.ok x, a) =>
      match a.commit with
      | (.ok _, _) => .kept x
      | (.error e, _) => .unkept e
    | (.error e, a) =>
      match a.rollback with
      | (.ok _, _) => .undone e
      | (.error r, _) => .stuck e r

def entered (inside : Adapter σ → List (Carried α)) (a : Adapter σ) : List (Carried α) :=
  match a.begin.1 with
  | .ok _ => inside a.begin.2
  | .error _ => []

theorem entered_ok {inside : Adapter σ → List (Carried α)} {a : Adapter σ}
    (opened : a.begin.1 = .ok ()) : a.entered inside = inside a.begin.2 := by
  simp [entered, opened]

inductive Played (body : Session σ α) (a : Adapter σ) : Ending α → Adapter σ → Prop where
  | refused {e : Error} {b : Adapter σ} (entered : a.begin = (.error e, b)) :
      Played body a (.refused e) b
  | kept {x : α} {b c d : Adapter σ} (entered : a.begin = (.ok (), b))
      (ran : body b = (.ok x, c)) (left : c.commit = (.ok (), d)) : Played body a (.kept x) d
  | unkept {x : α} {e : Error} {b c d : Adapter σ} (entered : a.begin = (.ok (), b))
      (ran : body b = (.ok x, c)) (left : c.commit = (.error e, d)) :
      Played body a (.unkept e) d
  | undone {e : Error} {b c d : Adapter σ} (entered : a.begin = (.ok (), b))
      (ran : body b = (.error e, c)) (left : c.rollback = (.ok (), d)) :
      Played body a (.undone e) d
  | stuck {e r : Error} {b c d : Adapter σ} (entered : a.begin = (.ok (), b))
      (ran : body b = (.error e, c)) (left : c.rollback = (.error r, d)) :
      Played body a (.stuck e r) d

theorem Played.of_refused {body : Session σ α} {a b : Adapter σ} {ended : Ending α} {e : Error}
    (played : Played body a ended b) (failed : a.begin.1 = .error e) :
    ended = .refused e ∧ b = a.begin.2 := by
  cases played with
  | refused entered =>
      rw [entered] at failed ⊢
      exact ⟨congrArg Ending.refused (Except.error.inj failed), rfl⟩
  | kept entered | unkept entered | undone entered | stuck entered =>
      rw [entered] at failed
      cases failed

theorem transaction_played (body : Session σ α) (a : Adapter σ) :
    ∃ b, transaction body a = ((ending body a).result, b) ∧ Played body a (ending body a) b := by
  unfold transaction ending
  rcases entered : a.begin with ⟨_ | _, b⟩
  · exact ⟨b, rfl, .refused entered⟩
  dsimp only
  rcases ran : body b with ⟨e | x, c⟩
  · dsimp only
    rcases left : c.rollback with ⟨r | _, d⟩
    · exact ⟨d, rfl, .stuck entered ran left⟩
    · exact ⟨d, rfl, .undone entered ran left⟩
  · dsimp only
    rcases left : c.commit with ⟨e | _, d⟩
    · exact ⟨d, rfl, .unkept entered ran left⟩
    · exact ⟨d, rfl, .kept entered ran left⟩

end Adapter

namespace Body

def run : Body α → Session σ α
  | .finish result, a => (result, a)
  | .execute statement next, a =>
    let (result, a) := Adapter.execute statement a
    (next result).run a
  | .block inner next, a =>
    let (result, a) := Adapter.transaction inner.run a
    (next result).run a

/-- The journal of a body. A statement that fails is not carried out. -/
def journal : Body α → Adapter σ → List (Carried α)
  | .finish _, _ => []
  | .execute statement next, a =>
    let (result, b) := Adapter.execute statement a
    let now := match statement, result with
      | .ok built, .ok _ => [⟨⟨built.sql, built.params⟩, []⟩]
      | _, _ => []
    now ++ (next result).journal b
  | .block inner next, a =>
    let within := a.entered inner.journal
    let (result, b) := Adapter.transaction inner.run a
    within.map (Carried.inside (Adapter.ending inner.run a)) ++ (next result).journal b

end Body

end CrossDialect
