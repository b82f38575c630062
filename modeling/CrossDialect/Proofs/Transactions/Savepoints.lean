import CrossDialect.Proofs.Placeholders.Names
import CrossDialect.Proofs.Transactions.Database

/-!
The savepoints of a database while a manager nests transactions on it. The database
may hold more of them than the manager: one stays where it was rolled back to, where
it could not be released, and where the dialect never releases. Those of the levels
that are still open stand among them in order, each with the work of its own level.
-/

namespace CrossDialect

/-- A level that was entered and not left yet: the work that was visible before, and
the number of the statement that opened it. -/
structure Entered where
  work : List Work
  number : Nat

structure Numbered (stem : String) (sequence : Nat) (marks : List Mark) : Prop where
  known : ∀ mark ∈ marks, ∃ n ≤ sequence, mark.name = stem ++ "_" ++ Nat.repr n
  distinct : (marks.map Mark.name).Nodup

namespace Numbered

variable {stem : String} {sequence : Nat} {marks fewer : List Mark}

theorem nil : Numbered stem sequence [] := ⟨by simp, by simp⟩

theorem sublist (numbered : Numbered stem sequence marks) (part : fewer.Sublist marks) :
    Numbered stem sequence fewer :=
  ⟨fun mark member => numbered.known mark (part.subset member),
    numbered.distinct.sublist (part.map Mark.name)⟩

theorem later (numbered : Numbered stem sequence marks) : Numbered stem (sequence + 1) marks := by
  refine ⟨?_, numbered.distinct⟩
  intro mark member
  rcases numbered.known mark member with ⟨n, below, named⟩
  exact ⟨n, Nat.le_succ_of_le below, named⟩

theorem fresh (numbered : Numbered stem sequence marks) :
    ∀ mark ∈ marks, mark.name ≠ stem ++ "_" ++ Nat.repr (sequence + 1) := by
  intro mark member same
  rcases numbered.known mark member with ⟨n, below, named⟩
  have next := (numbered_text_inj (named.symm.trans same)).2
  omega

theorem cons (numbered : Numbered stem sequence marks) (height made : Nat) :
    Numbered stem (sequence + 1) (⟨stem ++ "_" ++ Nat.repr (sequence + 1), height, made⟩ :: marks)
    := by
  constructor
  · intro mark member
    rcases List.mem_cons.1 member with rfl | older
    · exact ⟨sequence + 1, Nat.le_refl _, rfl⟩
    · exact numbered.later.known mark older
  · rw [List.map_cons, List.nodup_cons]
    refine ⟨?_, numbered.distinct⟩
    intro member
    rcases List.mem_map.1 member with ⟨mark, older, same⟩
    exact numbered.fresh mark older same

end Numbered

/-- The open levels and the savepoints they stand on, innermost first. Each savepoint
stands on as much work as its level began with. -/
inductive Standing (permanent : List Work) :
    List Work → List String → List Entered → List Mark → Prop where
  | base (done : List Work) (number : Nat) (marks : List Mark) :
      Standing permanent done [] [⟨permanent, number⟩] marks
  | skip {done names levels marks} (mark : Mark) :
      Standing permanent done names levels marks →
      Standing permanent done names levels (mark :: marks)
  | level {done names levels marks} (mark : Mark) (reached : mark.height ≤ done.length) :
      Standing permanent (done.take mark.height) names levels marks →
      Standing permanent done (mark.name :: names)
        (⟨permanent ++ done.take mark.height, mark.made⟩ :: levels) (mark :: marks)

namespace Standing

variable {permanent done : List Work} {name : String} {names : List String}
  {levels : List Entered} {marks : List Mark}

theorem grow (standing : Standing permanent done names levels marks) (more : List Work) :
    Standing permanent (done ++ more) names levels marks := by
  induction standing with
  | base done number marks => exact .base _ number marks
  | skip mark _ ih => exact .skip mark ih
  | @level done _ _ _ mark reached inner _ =>
      have same : (done ++ more).take mark.height = done.take mark.height :=
        List.take_append_of_le_length reached
      rw [← same] at inner ⊢
      exact .level mark (by simp; omega) inner

theorem of_take {n : Nat} (standing : Standing permanent (done.take n) names levels marks) :
    Standing permanent done names levels marks := by
  have whole := standing.grow (done.drop n)
  rwa [List.take_append_drop] at whole

theorem enter (standing : Standing permanent done names levels marks) (name : String)
    (made : Nat) :
    Standing permanent done (name :: names) (⟨permanent ++ done, made⟩ :: levels)
      (⟨name, done.length, made⟩ :: marks) := by
  have whole : done.take done.length = done := List.take_length
  have inner : Standing permanent (done.take done.length) names levels marks := by
    rw [whole]
    exact standing
  have entered := Standing.level ⟨name, done.length, made⟩ (Nat.le_refl _) inner
  simpa only [whole] using entered

theorem skipAll (standing : Standing permanent done names levels marks) (newer : List Mark) :
    Standing permanent done names levels (newer ++ marks) := by
  induction newer with
  | nil => exact standing
  | cons mark newer ih => exact .skip mark ih

/-- The savepoint of the innermost level, among those the manager knows nothing of. -/
theorem innermost (standing : Standing permanent done (name :: names) levels marks) :
    ∃ newer mark older outer, marks = newer ++ mark :: older ∧ mark.name = name ∧
      mark.height ≤ done.length ∧
      levels = ⟨permanent ++ done.take mark.height, mark.made⟩ :: outer ∧
      Standing permanent (done.take mark.height) names outer older := by
  generalize known : name :: names = all at standing
  induction standing with
  | base => cases known
  | skip mark _ ih =>
      rcases ih known with ⟨newer, own, older, outer, rfl, found⟩
      exact ⟨mark :: newer, own, older, outer, rfl, found⟩
  | level mark reached inner _ =>
      cases known
      exact ⟨[], mark, _, _, rfl, rfl, reached, rfl, inner⟩

theorem outermost (standing : Standing permanent done [] levels marks) :
    ∃ number, levels = [⟨permanent, number⟩] := by
  generalize known : [] = all at standing
  induction standing with
  | base done number marks => exact ⟨number, rfl⟩
  | skip mark _ ih => exact ih known
  | level => cases known

end Standing

theorem OpenWork.downTo_own {stem : String} {sequence : Nat} {newer older : List Mark} {mark : Mark}
    (numbered : Numbered stem sequence (newer ++ mark :: older)) (done : List Work) :
    downTo mark.name ⟨done, newer ++ mark :: older⟩ = mark :: older := by
  have distinct := numbered.distinct
  rw [List.map_append, List.map_cons] at distinct
  have above : ∀ x ∈ newer, x.name ≠ mark.name := by
    intro x member same
    have apart := (List.nodup_append.1 distinct).2.2
    exact apart x.name (List.mem_map_of_mem member) mark.name (by simp) same
  rw [downTo, List.dropWhile_append_of_pos]
  · simp
  · simpa using above

end CrossDialect
