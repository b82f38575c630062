import CrossDialect.Proofs.Conditions.Edits
import CrossDialect.Proofs.Conditions.TruthValue

/-!
The number of operands of a predicate. However a predicate comes about, from its parts, from
text, from an entry or by name, it has as many operands as its operator takes. Edits of a set,
refused or not and at whatever depth, bring no other predicates into it.
-/

namespace CrossDialect

/-- Comparisons and patterns take one operand, ranges two, lists at least one, and the tests
for NULL none. -/
def Operator.Takes : Operator → Nat → Prop
  | .eq, count | .ne, count | .gt, count | .gte, count | .lt, count | .lte, count => count = 1
  | .like, count | .notLike, count => count = 1
  | .between, count | .notBetween, count => count = 2
  | .inList, count | .notInList, count => 1 ≤ count
  | .isNull, count | .isNotNull, count => count = 0

theorem Operator.accepts_iff {op : Operator} {count : Nat} :
    op.accepts count = true ↔ op.Takes count := by
  cases op <;> simp [accepts, shape, Shape.accepts, Takes]

namespace Predicate

inductive Formed : Predicate → Prop where
  | made {column op operands p} : make column op operands = .ok p → Formed p
  | parsed {text p} : parse text = .ok p → Formed p
  | entry {key v p} : shorthand key v = .ok p → Formed p
  | inList {column values p} : inList column values = .ok p → Formed p
  | notInList {column values p} : notInList column values = .ok p → Formed p
  | eq (column v) : Formed (.eq column v)
  | ne (column v) : Formed (.ne column v)
  | gt (column v) : Formed (.gt column v)
  | gte (column v) : Formed (.gte column v)
  | lt (column v) : Formed (.lt column v)
  | lte (column v) : Formed (.lte column v)
  | like (column v) : Formed (.like column v)
  | notLike (column v) : Formed (.notLike column v)
  | between (column low high) : Formed (.between column low high)
  | notBetween (column low high) : Formed (.notBetween column low high)
  | isNull (column) : Formed (.isNull column)
  | isNotNull (column) : Formed (.isNotNull column)
  | joined {p} (c) : Formed p → Formed (p.withConjunction c)

variable {p : Predicate}

theorem make_takes {column : String} {op : Operator} {operands : List Value}
    (made : make column op operands = .ok p) : p.op.Takes p.operands.length := by
  unfold make at made
  dsimp only at made
  split at made
  · rename_i accepted
    obtain rfl := Except.ok.inj made
    exact Operator.accepts_iff.1 accepted
  · exact absurd made (by simp)

theorem condition_takes {read : Except Error Condition}
    (formed : read.bind Condition.toPredicate = .ok p) : p.op.Takes p.operands.length := by
  cases read with
  | error e => exact absurd formed nofun
  | ok c => exact make_takes formed

theorem Formed.takes (formed : p.Formed) : p.op.Takes p.operands.length := by
  induction formed with
  | made made => exact make_takes made
  | parsed read => exact condition_takes read
  | entry read => exact condition_takes read
  | inList made => exact make_takes made
  | notInList made => exact make_takes made
  | joined c _ ih => exact ih
  | _ => rfl

end Predicate

namespace PredicateSet

def Formed (s : PredicateSet) : Prop := ∀ p ∈ s.atoms, p.Formed

theorem mem_childAtoms {cs : List PredicateSet} {p : Predicate} :
    p ∈ childAtoms cs ↔ ∃ c ∈ cs, p ∈ c.atoms := by
  induction cs with
  | nil => simp [childAtoms]
  | cons c cs ih => simp [childAtoms, ih]

theorem formed_iff {s : PredicateSet} :
    s.Formed ↔ (∀ p ∈ s.predicates, p.Formed) ∧ ∀ c ∈ s.children, c.Formed := by
  have split (p : Predicate) :
      p ∈ s.atoms ↔ p ∈ s.predicates ∨ ∃ c ∈ s.children, p ∈ c.atoms := by
    cases s
    simp [atoms, mem_childAtoms]
  simp only [Formed, split, or_imp, forall_and, forall_exists_index, and_imp]
  refine and_congr_right fun _ => ⟨?_, ?_⟩
  · exact fun all c nested p inside => all p c nested inside
  · exact fun all p c nested inside => all c nested p inside

theorem Formed.of_same {s s' : PredicateSet} (formed : s.Formed)
    (predicates : s'.predicates = s.predicates) (children : s'.children = s.children) :
    s'.Formed := by
  rw [formed_iff] at formed ⊢
  rwa [predicates, children]

theorem Formed.addPredicate {s : PredicateSet} {p : Predicate} (formed : s.Formed)
    (added : p.Formed) : (s.addPredicate p).Formed := by
  rw [formed_iff] at formed ⊢
  obtain ⟨own, nested⟩ := formed
  refine ⟨?_, nested⟩
  intro q member
  rcases List.mem_append.1 member with old | new
  · exact own q old
  · obtain rfl := List.mem_singleton.1 new
    cases s.pending with
    | none => exact added
    | some c => exact .joined c added

theorem Formed.attach {s c : PredicateSet} (formed : s.Formed) (inner : c.Formed) :
    (s.attach c).Formed := by
  rw [formed_iff] at formed ⊢
  obtain ⟨own, nested⟩ := formed
  refine ⟨own, ?_⟩
  intro c' member
  rcases List.mem_append.1 member with old | new
  · exact nested c' old
  · obtain rfl := List.mem_singleton.1 new
    exact inner

theorem formed_empty (t : Target) (c : Option Conjunction) :
    Formed { target := t, conjunction := c } := by
  intro p member
  simp [atoms, childAtoms] at member

theorem Formed.foldl {s : PredicateSet} {ps : List Predicate} (formed : s.Formed)
    (added : ∀ p ∈ ps, p.Formed) : (ps.foldl PredicateSet.addPredicate s).Formed := by
  induction ps generalizing s with
  | nil => exact formed
  | cons p ps ih =>
      have first := formed.addPredicate (added p List.mem_cons_self)
      exact ih first fun q later => added q (List.mem_cons_of_mem p later)

end PredicateSet

namespace Criterion

def Formed : Criterion → Prop
  | .text _ | .shorthand _ _ => True
  | .predicate p => p.Formed

theorem Formed.toPredicate {c : Criterion} {p : Predicate} (formed : c.Formed)
    (read : c.toPredicate = .ok p) : p.Formed := by
  cases c with
  | text s => exact .parsed read
  | shorthand key v => exact .entry read
  | predicate q =>
      obtain rfl := Except.ok.inj read
      exact formed

end Criterion

namespace PredicateSet

def Edit.Formed : Edit → Prop
  | .add c | .andAdd c | .orAdd c => c.Formed
  | .addPredicate p => p.Formed
  | .addSet c => c.Formed
  | _ => True

theorem Formed.add {s : PredicateSet} {c : Criterion} (formed : s.Formed) (given : c.Formed) :
    (s.add c).state.Formed := by
  unfold PredicateSet.add
  cases read : c.toPredicate with
  | error e => exact formed.of_same rfl rfl
  | ok p => exact formed.addPredicate (given.toPredicate read)

theorem Formed.addMap {s : PredicateSet} (formed : s.Formed) (entries : List (String × Value)) :
    (s.addMap entries).state.Formed := by
  unfold PredicateSet.addMap
  split
  · rename_i ps read
    refine formed.foldl fun p member => ?_
    obtain ⟨entry, _, first⟩ := mapM_ok_member read member
    exact .entry first
  · exact formed.of_same rfl rfl

theorem Formed.addChecked {s : PredicateSet} {made : Except Error Predicate} (formed : s.Formed)
    (given : ∀ p, made = .ok p → p.Formed) : (s.addChecked made).state.Formed := by
  cases made with
  | error e => exact formed
  | ok p => exact formed.addPredicate (given p rfl)

theorem Formed.apply {s : PredicateSet} {e : Edit} (formed : s.Formed) (given : e.Formed) :
    (s.apply e).state.Formed := by
  cases e with
  | and | or => exact formed.of_same rfl rfl
  | add c => exact formed.add given
  | andAdd c | orAdd c => exact Formed.add (formed.of_same rfl rfl) given
  | addPredicate p => exact formed.addPredicate given
  | addMap entries => exact formed.addMap entries
  | inList column values => exact formed.addChecked fun _ made => .inList made
  | notInList column values => exact formed.addChecked fun _ made => .notInList made
  | nest | andNest | orNest =>
      exact Formed.attach (formed.of_same rfl rfl) (formed_empty _ _)
  | addSet c =>
      refine formed.attach ?_
      cases s.pending with
      | none => exact given
      | some conjunction => exact Formed.of_same (s := c) given rfl rfl
  | eq column v => exact formed.addPredicate (.eq column v)
  | ne column v => exact formed.addPredicate (.ne column v)
  | gt column v => exact formed.addPredicate (.gt column v)
  | gte column v => exact formed.addPredicate (.gte column v)
  | lt column v => exact formed.addPredicate (.lt column v)
  | lte column v => exact formed.addPredicate (.lte column v)
  | like column v => exact formed.addPredicate (.like column v)
  | notLike column v => exact formed.addPredicate (.notLike column v)
  | between column low high => exact formed.addPredicate (.between column low high)
  | notBetween column low high => exact formed.addPredicate (.notBetween column low high)
  | isNull column => exact formed.addPredicate (.isNull column)
  | isNotNull column => exact formed.addPredicate (.isNotNull column)

/-- An edit of the set at an address, whatever comes of it. Where there is no set nothing
happens. -/
def editedAt (e : Edit) : List Nat → PredicateSet → PredicateSet
  | [], s => (s.apply e).state
  | k :: address, s =>
    { s with children := s.children.modify k fun c => editedAt e address c }

def edited (s : PredicateSet) (steps : List Step) : PredicateSet :=
  steps.foldl (fun s step => editedAt step.edit step.address s) s

theorem mem_modify {cs : List PredicateSet} {k : Nat} {f : PredicateSet → PredicateSet}
    {c : PredicateSet} (member : c ∈ cs.modify k f) : ∃ c' ∈ cs, c = c' ∨ c = f c' := by
  obtain ⟨i, found⟩ := List.mem_iff_getElem?.1 member
  rw [List.getElem?_modify, Option.map_eq_map, Option.map_eq_some_iff] at found
  obtain ⟨c', found, same⟩ := found
  refine ⟨c', List.mem_of_getElem? found, ?_⟩
  split at same
  · exact .inr same.symm
  · exact .inl same.symm

theorem Formed.editedAt {s : PredicateSet} {e : Edit} (formed : s.Formed) (given : e.Formed)
    (address : List Nat) : (editedAt e address s).Formed := by
  induction address generalizing s with
  | nil => exact formed.apply given
  | cons k address ih =>
      rw [formed_iff] at formed
      obtain ⟨own, nested⟩ := formed
      rw [PredicateSet.editedAt, formed_iff]
      refine ⟨own, ?_⟩
      intro c member
      obtain ⟨c', old, rfl | rfl⟩ := mem_modify member
      · exact nested c old
      · exact ih (nested c' old)

theorem Formed.edited {s : PredicateSet} {steps : List Step} (formed : s.Formed)
    (given : ∀ step ∈ steps, step.edit.Formed) : (s.edited steps).Formed := by
  induction steps generalizing s with
  | nil => exact formed
  | cons step steps ih =>
      have first := formed.editedAt (given step List.mem_cons_self) step.address
      exact ih first fun other later => given other (List.mem_cons_of_mem step later)

end PredicateSet

end CrossDialect
