import CrossDialect.Statement.Basic
import CrossDialect.Proofs.Conditions.Edits
import CrossDialect.Proofs.Statements.Layouts

/-!
A map of entries against its entries one by one. Both add the same predicates in the order
of the entries, and all of them are joined with AND but the first of a map: that one is
joined as was chosen on the filter before. So a map is the same as its entries one by one
exactly if no OR is open on the filter, or if it is empty.
-/

namespace CrossDialect

/-- A statement has one filter, the one put into it last. -/
class LawfulFiltered (σ : Type) [Filtered σ] : Prop where
  filter_withFilter (s : σ) (f : PredicateSet) : Filtered.filter (Filtered.withFilter s f) = f
  withFilter_withFilter (s : σ) (f g : PredicateSet) :
    Filtered.withFilter (Filtered.withFilter s f) g = Filtered.withFilter s g
  withFilter_filter (s : σ) : Filtered.withFilter s (Filtered.filter s) = s

attribute [simp] LawfulFiltered.filter_withFilter LawfulFiltered.withFilter_withFilter
  LawfulFiltered.withFilter_filter

instance : LawfulFiltered Select where
  filter_withFilter _ _ := rfl
  withFilter_withFilter _ _ _ := rfl
  withFilter_filter s := by cases s; rfl

instance : LawfulFiltered Update where
  filter_withFilter _ _ := rfl
  withFilter_withFilter _ _ _ := rfl
  withFilter_filter u := by cases u; rfl

instance : LawfulFiltered Delete where
  filter_withFilter _ _ := rfl
  withFilter_withFilter _ _ _ := rfl
  withFilter_filter x := by cases x; rfl

def Edited.andThen {σ : Type} (e : Edited σ) (next : σ → Edited σ) : Edited σ :=
  match e.refusal with
  | none => next e.state
  | some _ => e

namespace Predicate

theorem withConjunction_of_eq {p : Predicate} {c : Conjunction} (own : p.conjunction = c) :
    p.withConjunction c = p := by
  subst own
  rfl

def readAll (entries : List (String × Value)) : Except Error (List Predicate) :=
  entries.mapM fun (key, v) => shorthand key v

variable {entries : List (String × Value)}

theorem readAll_nil {ps : List Predicate} : readAll [] = .ok ps ↔ ps = [] := by
  simp only [readAll, List.mapM_nil, pure_eq_ok]

theorem readAll_cons {key : String} {v : Value} {ps : List Predicate} :
    readAll ((key, v) :: entries) = .ok ps ↔
      ∃ p rest, shorthand key v = .ok p ∧ readAll entries = .ok rest ∧ ps = p :: rest := by
  simp only [readAll, List.mapM_cons, bind_eq_ok, pure_eq_ok]
  constructor
  · rintro ⟨p, first, rest, others, same⟩
    exact ⟨p, rest, first, others, same⟩
  · rintro ⟨p, rest, first, others, same⟩
    exact ⟨p, first, rest, others, same⟩

theorem readAll_accepted (accepted : ∀ entry ∈ entries, ∃ p, shorthand entry.1 entry.2 = .ok p) :
    ∃ ps, readAll entries = .ok ps := by
  induction entries with
  | nil => exact ⟨[], readAll_nil.2 rfl⟩
  | cons entry entries ih =>
      obtain ⟨p, first⟩ := accepted entry List.mem_cons_self
      obtain ⟨ps, rest⟩ := ih fun e later => accepted e (List.mem_cons_of_mem entry later)
      exact ⟨p :: ps, readAll_cons.2 ⟨p, ps, first, rest, rfl⟩⟩

theorem readAll_conjunction {ps : List Predicate} (read : readAll entries = .ok ps) :
    ∀ p ∈ ps, p.conjunction = .and := by
  intro p member
  obtain ⟨entry, _, first⟩ := mapM_ok_member read member
  exact (congrArg conjunction (PredicateSet.shorthand_conjunction first)).symm

theorem readAll_eq_nil {ps : List Predicate} (read : readAll entries = .ok ps) :
    ps = [] ↔ entries = [] := by
  cases entries with
  | nil =>
      obtain rfl := Predicate.readAll_nil.1 read
      simp
  | cons entry entries =>
      obtain ⟨p, rest, _, _, rfl⟩ := readAll_cons.1 read
      simp

end Predicate

namespace PredicateSet

/-- The set with more predicates behind its own. A choice lasts until something is added. -/
def grown (s : PredicateSet) (ps : List Predicate) : PredicateSet :=
  { s with
    predicates := s.predicates ++ ps
    pending := if ps.isEmpty then s.pending else none }

theorem grown_nil (s : PredicateSet) : s.grown [] = s := by
  cases s
  simp [grown]

theorem grown_cons (s : PredicateSet) (p : Predicate) (ps : List Predicate) :
    grown { s with predicates := s.predicates ++ [p], pending := none } ps = s.grown (p :: ps) := by
  simp [grown]

/-- Only the first of many predicates meets the conjunction that was chosen. -/
theorem foldl_addPredicate (s : PredicateSet) (ps : List Predicate)
    (plain : ∀ p ∈ ps, p.conjunction = .and) :
    ps.foldl addPredicate s =
      s.grown (ps.modifyHead (·.withConjunction (s.pending.getD .and))) := by
  -- By induction on the list: behind the first predicate no choice is left.
  induction ps generalizing s with
  | nil => exact s.grown_nil.symm
  | cons p ps ih =>
      have first : s.addPredicate p =
          { s with
            predicates := s.predicates ++ [p.withConjunction (s.pending.getD .and)]
            pending := none } := by
        cases pending : s.pending with
        | none =>
            have own := Predicate.withConjunction_of_eq (plain p List.mem_cons_self)
            simp [addPredicate, pending, own]
        | some c => simp [addPredicate, pending]
      have others : ps.modifyHead (·.withConjunction .and) = ps := by
        cases ps with
        | nil => rfl
        | cons q qs => simp [Predicate.withConjunction_of_eq (plain q (by simp))]
      rw [List.foldl_cons, first, ih _ fun q later => plain q (List.mem_cons_of_mem p later)]
      simp only [Option.getD_none, others, grown_cons, List.modifyHead_cons]

theorem grown_inj {s : PredicateSet} {ps qs : List Predicate} :
    s.grown ps = s.grown qs ↔ ps = qs := by
  constructor
  · intro same
    exact List.append_cancel_left (congrArg PredicateSet.predicates same)
  · rintro rfl
    rfl

end PredicateSet

namespace Filtered

variable {σ : Type} [Filtered σ]

def andWhereEach (s : σ) : List (String × Value) → Edited σ
  | [] => { state := s }
  | (key, v) :: entries =>
    (andWhere s (.shorthand key v)).andThen fun s => andWhereEach s entries

theorem andWhere_accepted {s : σ} {key : String} {v : Value} {p : Predicate}
    (read : Predicate.shorthand key v = .ok p) :
    andWhere s (.shorthand key v) = { state := withFilter s ((filter s).grown [p]) } := by
  have plain : p.withConjunction .and = p := PredicateSet.shorthand_conjunction read
  simp only [andWhere, edit, PredicateSet.andAdd, PredicateSet.add, Criterion.toPredicate, read,
    PredicateSet.and, PredicateSet.addPredicate, plain]
  rfl

theorem whereMap_eq {s : σ} {entries : List (String × Value)} {ps : List Predicate}
    (read : Predicate.readAll entries = .ok ps) :
    whereMap s entries =
      { state := withFilter s ((filter s).grown
          (ps.modifyHead (·.withConjunction ((filter s).pending.getD .and)))) } := by
  rw [← PredicateSet.foldl_addPredicate _ _ (Predicate.readAll_conjunction read)]
  unfold Predicate.readAll at read
  simp only [whereMap, edit, PredicateSet.addMap, read]
  rfl

variable [LawfulFiltered σ]

theorem andWhereEach_eq {s : σ} {entries : List (String × Value)} {ps : List Predicate}
    (read : Predicate.readAll entries = .ok ps) :
    andWhereEach s entries = { state := withFilter s ((filter s).grown ps) } := by
  induction entries generalizing s ps with
  | nil =>
      obtain rfl := Predicate.readAll_nil.1 read
      rw [PredicateSet.grown_nil, LawfulFiltered.withFilter_filter, andWhereEach]
  | cons entry entries ih =>
      obtain ⟨p, rest, first, others, rfl⟩ := Predicate.readAll_cons.1 read
      have gained : ((filter s).grown [p]).grown rest = (filter s).grown (p :: rest) :=
        (filter s).grown_cons p rest
      simp only [andWhereEach, andWhere_accepted first, Edited.andThen, ih others,
        LawfulFiltered.filter_withFilter, LawfulFiltered.withFilter_withFilter, gained]

theorem withFilter_inj {s : σ} {f g : PredicateSet} : withFilter s f = withFilter s g ↔ f = g := by
  constructor
  · intro same
    rw [← LawfulFiltered.filter_withFilter s f, same, LawfulFiltered.filter_withFilter]
  · rintro rfl
    rfl

end Filtered

theorem Predicate.modifyHead_conjunction {ps : List Predicate} (c : Conjunction)
    (plain : ∀ p ∈ ps, p.conjunction = .and) :
    ps.modifyHead (·.withConjunction c) = ps ↔ c = .and ∨ ps = [] := by
  cases ps with
  | nil => simp
  | cons p ps =>
      have own : p.conjunction = .and := plain p List.mem_cons_self
      cases c with
      | and => simp [withConjunction_of_eq own]
      | or =>
          simp only [List.modifyHead_cons, List.cons.injEq, and_true, reduceCtorEq, or_self,
            iff_false]
          intro same
          have joined : p.conjunction = .or := (congrArg conjunction same).symm
          rw [own] at joined
          exact absurd joined nofun

namespace Filtered

/-- One by one, all entries are joined with AND. In a map the first is joined as was chosen
before, so the two agree exactly if no OR is open or there are no entries. -/
theorem map_agrees_unless_or_open {σ : Type} [Filtered σ] [LawfulFiltered σ] (s : σ)
    (entries : List (String × Value))
    (accepted : ∀ entry ∈ entries, ∃ p, Predicate.shorthand entry.1 entry.2 = .ok p) :
    ∃ ps, Predicate.readAll entries = .ok ps ∧ (∀ p ∈ ps, p.conjunction = .and) ∧
      andWhereEach s entries = { state := withFilter s ((filter s).grown ps) } ∧
      whereMap s entries =
        { state := withFilter s ((filter s).grown
            (ps.modifyHead (·.withConjunction ((filter s).pending.getD .and)))) } ∧
      (whereMap s entries = andWhereEach s entries ↔
        (filter s).pending ≠ some .or ∨ entries = []) := by
  obtain ⟨ps, read⟩ := Predicate.readAll_accepted accepted
  have plain : ∀ p ∈ ps, p.conjunction = .and := Predicate.readAll_conjunction read
  have each : andWhereEach s entries = { state := withFilter s ((filter s).grown ps) } :=
    andWhereEach_eq read
  have map := whereMap_eq (s := s) read
  refine ⟨ps, read, plain, each, map, ?_⟩
  have choice : (filter s).pending.getD .and = .and ↔ (filter s).pending ≠ some .or := by
    rcases (filter s).pending with _ | _ | _ <;> simp
  rw [each, map, Edited.mk.injEq, eq_self, and_true, withFilter_inj, PredicateSet.grown_inj,
    Predicate.modifyHead_conjunction _ plain, choice, Predicate.readAll_eq_nil read]

def working : List (String × Value) := [("age<", .int 65), ("left", .null)]

theorem read_working : ∀ entry ∈ working, ∃ p, Predicate.shorthand entry.1 entry.2 = .ok p := by
  have signed : Shorthand.splitKey "age<" = .ok ("age", .compare .lt) :=
    eq_ok_of_toOption (by decide +kernel)
  have plain : Shorthand.splitKey "left" = .ok ("left", .plain) :=
    eq_ok_of_toOption (by decide +kernel)
  have age : Predicate.shorthand "age<" (.int 65) = .ok (.lt "age" (.int 65)) := by
    rw [Predicate.shorthand, Shorthand.parse, signed]
    rfl
  have left : Predicate.shorthand "left" .null = .ok (.isNull "left") := by
    rw [Predicate.shorthand, Shorthand.parse, plain]
    rfl
  exact List.forall_mem_cons.2 ⟨⟨_, age⟩, List.forall_mem_singleton.2 ⟨_, left⟩⟩

def adults (choice : Option Conjunction) : Select :=
  { target := .ofDialect .mysql
    source := some (.named "users")
    filter :=
      { target := .ofDialect .mysql, predicates := [.gte "age" (.int 18)], pending := choice } }

theorem map_agrees_unless_or_open_working :
    (∀ entry ∈ working, ∃ p, Predicate.shorthand entry.1 entry.2 = .ok p) ∧
    whereMap (adults (some .and)) working = andWhereEach (adults (some .and)) working ∧
    whereMap (adults (some .or)) working ≠ andWhereEach (adults (some .or)) working := by
  obtain ⟨_, _, _, _, _, closed⟩ :=
    map_agrees_unless_or_open (adults (some .and)) working read_working
  obtain ⟨_, _, _, _, _, chosen⟩ :=
    map_agrees_unless_or_open (adults (some .or)) working read_working
  refine ⟨read_working, closed.2 (.inl nofun), ?_⟩
  intro same
  rcases chosen.1 same with closed | empty
  · exact closed rfl
  · exact absurd empty nofun

/-- An OR chosen on the filter joins the first entry of a map, though each entry on its own
is joined with AND. -/
theorem open_or_joins_first_entry :
    (∀ entry ∈ working, ∃ p, Predicate.shorthand entry.1 entry.2 = .ok p) ∧
    (filter (whereMap (adults (some .or)) working).state).predicates.map (·.conjunction) =
      [.and, .or, .and] ∧
    (filter (andWhereEach (adults (some .or)) working).state).predicates.map (·.conjunction) =
      [.and, .and, .and] ∧
    (Statement.select (whereMap (adults (some .or)) working).state).render.toOption = some
      "SELECT * FROM `users` WHERE ((`age` >= 18) OR (`age` < 65) AND (`left` IS NULL))" ∧
    (Statement.select (andWhereEach (adults (some .or)) working).state).render.toOption = some
      "SELECT * FROM `users` WHERE ((`age` >= 18) AND (`age` < 65) AND (`left` IS NULL))" := by
  refine ⟨read_working, ?_, ?_, ?_, ?_⟩ <;> decide +kernel

end Filtered

end CrossDialect
