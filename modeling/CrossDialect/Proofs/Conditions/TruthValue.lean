import CrossDialect.Proofs.Conditions.Reading
import CrossDialect.Proofs.Placeholders.Slots
import CrossDialect.Proofs.Statements.Layouts

/-!
The text of a set of conditions is worth what the set is worth. The value of a set
comes from its tree alone, each nested set as one unit; the value of its text comes
from the grammar alone, with the text of each predicate as an atom. Every set that
holds a predicate is written as a unit of that grammar.
-/

namespace CrossDialect

namespace Layout

/-- The texts of predicates in one pass, each with its truth value. -/
def judge (t : Target) (p : Pass) : List (Layout × Bool) → List Atom × Pass
  | [] => ([], p)
  | (l, b) :: rest =>
      let text := l.write t p
      let others := judge t text.2 rest
      (⟨text.1.toList, b⟩ :: others.1, others.2)

theorem judge_append (t : Target) (p : Pass) (before behind : List (Layout × Bool)) :
    judge t p (before ++ behind) =
      ((judge t p before).1 ++ (judge t (judge t p before).2 behind).1,
        (judge t (judge t p before).2 behind).2) := by
  induction before generalizing p with
  | nil => rfl
  | cons x before ih => simp [judge, ih]

/-- Whatever was numbered before, the layout is read at the level, with these atoms
in it and nothing else that touches the pass. -/
def Means (t : Target) (l : Layout) (atoms : List (Layout × Bool)) (level : Level) (b : Bool) :
    Prop :=
  ∀ p, (l.write t p).2 = (judge t p atoms).2 ∧
    Reads level (judge t p atoms).1 (l.write t p).1.toList b

variable {t : Target} {l l' : Layout} {atoms others : List (Layout × Bool)} {a b : Bool}

theorem means_atom (t : Target) (l : Layout) (b : Bool) : l.Means t [(l, b)] .unit b := by
  intro p
  exact ⟨rfl, .atom ⟨(l.write t p).1.toList, b⟩⟩

theorem Means.parenthesized (means : l.Means t atoms .disjunction b) :
    l.parenthesized.Means t atoms .unit b := by
  intro p
  rw [write_parenthesized]
  refine ⟨(means p).1, ?_⟩
  simpa using Reads.group (means p).2

theorem Means.unit (means : l.Means t atoms .unit b) : l.Means t atoms .conjunction b :=
  fun p => ⟨(means p).1, .unit (means p).2⟩

theorem Means.conjunction (means : l.Means t atoms .conjunction b) :
    l.Means t atoms .disjunction b :=
  fun p => ⟨(means p).1, .conjunction (means p).2⟩

theorem write_conjoined (t : Target) (p : Pass) (l l' : Layout) (c : Conjunction) :
    let joined := (l ++ PredicateSet.trailing (c, l')).write t p
    let behind := l'.write t (l.write t p).2
    joined.1.toList = (l.write t p).1.toList ++ c.spaced ++ behind.1.toList ∧
      joined.2 = behind.2 := by
  simp [PredicateSet.trailing, write_append, write, Piece.write, Conjunction.spaced]

theorem Means.and (means : l.Means t atoms .conjunction a) (means' : l'.Means t others .unit b) :
    Means t (l ++ PredicateSet.trailing (.and, l')) (atoms ++ others) .conjunction (a && b) := by
  intro p
  rcases means p with ⟨pass, reads⟩
  rcases means' (l.write t p).2 with ⟨pass', reads'⟩
  rcases write_conjoined t p l l' .and with ⟨text, pass''⟩
  rw [judge_append, text, pass'', ← pass]
  exact ⟨pass', .and reads reads'⟩

theorem Means.or (means : l.Means t atoms .conjunction a)
    (means' : l'.Means t others .disjunction b) :
    Means t (l ++ PredicateSet.trailing (.or, l')) (atoms ++ others) .disjunction (a || b) := by
  intro p
  rcases means p with ⟨pass, reads⟩
  rcases means' (l.write t p).2 with ⟨pass', reads'⟩
  rcases write_conjoined t p l l' .or with ⟨text, pass''⟩
  rw [judge_append, text, pass'', ← pass]
  exact ⟨pass', .or reads reads'⟩

end Layout

namespace PredicateSet

/-- What a row of elements is worth, where those up to here are worth `run`. -/
def combine (run : Bool) : List (Conjunction × Bool) → Bool
  | [] => run
  | (.and, b) :: rest => combine (run && b) rest
  | (.or, b) :: rest => run || combine b rest

/-- The conjunction of the first element joins nothing. -/
def elementsHold : List (Conjunction × Bool) → Bool
  | [] => true
  | (_, first) :: rest => combine first rest

mutual

def atoms : PredicateSet → List Predicate
  | { predicates, children, .. } => predicates ++ childAtoms children

def childAtoms : List PredicateSet → List Predicate
  | [] => []
  | c :: cs => c.atoms ++ childAtoms cs

end

mutual

/-- The value of a set, where `truth i` is that of the predicate with the number `i`
and the predicates of this set are counted from `n`. -/
def holds (truth : Nat → Bool) (n : Nat) : PredicateSet → Bool
  | { predicates, children, .. } =>
      elementsHold ((predicates.zipIdx n).map (fun (p, i) => (p.conjunction, truth i)) ++
        childValues truth (n + predicates.length) children)

def childValues (truth : Nat → Bool) (n : Nat) : List PredicateSet → List (Conjunction × Bool)
  | [] => []
  | c :: cs =>
      let rest := childValues truth (n + c.atoms.length) cs
      match c.conjunction, c.atoms with
      | some conjunction, _ :: _ => (conjunction, c.holds truth n) :: rest
      | _, _ => rest

end

mutual

def NestedBound : PredicateSet → Prop
  | { children, .. } => AllBound children

def AllBound : List PredicateSet → Prop
  | [] => True
  | c :: cs => c.conjunction.isSome ∧ c.NestedBound ∧ AllBound cs

end

def judged (truth : Nat → Bool) (n : Nat) (ps : List Predicate) : List (Layout × Bool) :=
  (ps.zipIdx n).map fun (p, i) => (p.layout, truth i)

def judgedTexts (truth : Nat → Bool) (s : PredicateSet) : List Atom :=
  (Layout.judge s.target {} (judged truth 0 s.atoms)).1

inductive Elements (t : Target) :
    List (Conjunction × Layout) → List (Layout × Bool) → List (Conjunction × Bool) → Prop where
  | nil : Elements t [] [] []
  | cons {l atoms b rest others values} (c : Conjunction) (means : l.Means t atoms .unit b)
      (tail : Elements t rest others values) :
      Elements t ((c, l) :: rest) (atoms ++ others) ((c, b) :: values)

theorem Elements.append {t : Target} {ls ls' : List (Conjunction × Layout)}
    {atoms atoms' : List (Layout × Bool)} {values values' : List (Conjunction × Bool)}
    (front : Elements t ls atoms values) (back : Elements t ls' atoms' values') :
    Elements t (ls ++ ls') (atoms ++ atoms') (values ++ values') := by
  induction front with
  | nil => exact back
  | cons c means _ ih =>
      rw [List.append_assoc]
      exact .cons c means ih

theorem elements_predicates (t : Target) (truth : Nat → Bool) (n : Nat) (ps : List Predicate) :
    Elements t (ps.map fun p => (p.conjunction, p.layout)) (judged truth n ps)
      ((ps.zipIdx n).map fun (p, i) => (p.conjunction, truth i)) := by
  induction ps generalizing n with
  | nil => exact .nil
  | cons p ps ih => exact .cons p.conjunction (Layout.means_atom t p.layout (truth n)) (ih (n + 1))

theorem judged_append (truth : Nat → Bool) (n : Nat) (ps qs : List Predicate) :
    judged truth n (ps ++ qs) = judged truth n ps ++ judged truth (n + ps.length) qs := by
  simp [judged, List.zipIdx_append]

theorem Elements.means_rest {t : Target} {ls : List (Conjunction × Layout)}
    {others : List (Layout × Bool)} {values : List (Conjunction × Bool)}
    (elements : Elements t ls others values) {l : Layout} {atoms : List (Layout × Bool)}
    {run : Bool} (means : l.Means t atoms .conjunction run) :
    Layout.Means t (l ++ ls.flatMap trailing) (atoms ++ others) .disjunction
      (combine run values) := by
  induction elements generalizing l atoms run with
  | nil => simpa [combine] using means.conjunction
  | cons c unit _ ih =>
      rw [List.flatMap_cons]
      -- AND makes the conjunction at hand longer, OR ends it
      cases c with
      | and =>
          have longer := ih (means.and unit)
          rw [List.append_assoc, List.append_assoc] at longer
          exact longer
      | or => exact means.or (ih unit.unit)

theorem Elements.means_joined {t : Target} {ls : List (Conjunction × Layout)}
    {atoms : List (Layout × Bool)} {values : List (Conjunction × Bool)}
    (elements : Elements t ls atoms values) (present : atoms ≠ []) :
    (joinElements ls).Means t atoms .unit (elementsHold values) := by
  cases elements with
  | nil => exact absurd rfl present
  | cons c means tail =>
      cases tail with
      | nil => simpa [joinElements, elementsHold, combine] using means
      | cons c' means' tail => exact ((tail.cons c' means').means_rest means.unit).parenthesized

mutual

theorem isEmpty_iff (s : PredicateSet) : s.isEmpty = true ↔ s.atoms = [] := by
  cases s with
  | mk target predicates children conjunction pending =>
      simp [isEmpty, atoms, allEmpty_iff children]

theorem allEmpty_iff (cs : List PredicateSet) : allEmpty cs = true ↔ childAtoms cs = [] := by
  cases cs with
  | nil => simp [allEmpty, childAtoms]
  | cons c cs => simp [allEmpty, childAtoms, isEmpty_iff c, allEmpty_iff cs]

end

mutual

theorem NestedBound.wellJoined {s : PredicateSet} (bound : s.NestedBound) : s.WellJoined := by
  cases s with
  | mk target predicates children conjunction pending => exact AllBound.wellJoined bound

theorem AllBound.wellJoined {cs : List PredicateSet} (bound : AllBound cs) : AllWellJoined cs := by
  cases cs with
  | nil => trivial
  | cons c cs => exact ⟨bound.1, fun _ => NestedBound.wellJoined bound.2.1, bound.2.2.wellJoined⟩

end

mutual

/-- Every set that holds a predicate is written as one unit. -/
theorem means_of_layout (t : Target) (truth : Nat → Bool) (n : Nat) {s : PredicateSet}
    {l : Layout} (laid : s.layout = .ok l) :
    (s.atoms = [] → l = []) ∧
      (s.atoms ≠ [] → l.Means t (judged truth n s.atoms) .unit (s.holds truth n)) := by
  cases s with
  | mk target predicates children conjunction pending =>
      rcases layout_eq_ok.1 laid with ⟨nested, told, rfl⟩
      rcases means_of_childElements t truth (n + predicates.length) told with ⟨empty, elements⟩
      constructor
      · intro absent
        rcases List.append_eq_nil_iff.1 absent with ⟨rfl, none⟩
        rw [empty none]
        rfl
      · intro present
        have own := elements_predicates t truth n predicates
        have all := own.append elements
        rw [← judged_append] at all
        apply all.means_joined
        simpa [judged, atoms] using present

theorem means_of_childElements (t : Target) (truth : Nat → Bool) (n : Nat)
    {cs : List PredicateSet} {nested : List (Conjunction × Layout)}
    (told : childElements cs = .ok nested) :
    (childAtoms cs = [] → nested = []) ∧
      Elements t nested (judged truth n (childAtoms cs)) (childValues truth n cs) := by
  cases cs with
  | nil =>
      cases told
      exact ⟨fun _ => rfl, .nil⟩
  | cons c cs =>
      rcases childElements_cons_eq_ok.1 told with ⟨conjunction, rest, carried, follow, kind⟩
      rcases means_of_childElements t truth (n + c.atoms.length) follow with ⟨empty, elements⟩
      rcases kind with ⟨skipped, rfl⟩ | ⟨kept, l, laid, rfl⟩
      · -- a nested set without predicates leaves no trace
        have held := c.isEmpty_iff.1 skipped
        refine ⟨?_, ?_⟩
        · simpa [childAtoms, held] using empty
        · simpa [childAtoms, childValues, held, carried] using elements
      · have present : c.atoms ≠ [] := by
          rw [Ne, ← c.isEmpty_iff, kept]
          exact Bool.false_ne_true
        have all := elements.cons conjunction ((means_of_layout t truth n laid).2 present)
        rw [← judged_append] at all
        rcases List.exists_cons_of_ne_nil present with ⟨p, ps, held⟩
        refine ⟨?_, ?_⟩
        · simp [childAtoms, held]
        · simpa [childAtoms, childValues, held, carried] using all

end

theorem layout_means (t : Target) (truth : Nat → Bool) (n : Nat) (s : PredicateSet)
    (bound : s.NestedBound) :
    ∃ l, s.layout = .ok l ∧
      (s.atoms = [] → l = []) ∧
      (s.atoms ≠ [] → l.Means t (judged truth n s.atoms) .unit (s.holds truth n)) := by
  rcases s.layout_exists_iff.2 bound.wellJoined with ⟨l, laid⟩
  exact ⟨l, laid, means_of_layout t truth n laid⟩

theorem framed_judged (t : Target) (p : Pass) (truth : Nat → Bool) (n : Nat)
    (ps : List Predicate) : ∀ x ∈ (Layout.judge t p (judged truth n ps)).1, x.Framed := by
  induction ps generalizing p n with
  | nil => simp [judged, Layout.judge]
  | cons q ps ih =>
      intro x member
      rcases List.mem_cons.1 member with rfl | behind
      · let inner : Layout := .name q.column :: .text (" " ++ q.op.sql) :: q.right
        refine ⟨(inner.write t p).1.toList, ?_⟩
        simp [Predicate.layout, Layout.write_parenthesized, inner]
      · exact ih _ (n + 1) x behind

end PredicateSet

/-- A set that renders is empty text where it holds no predicate, and has the value of
its tree, and no other one, where it does. -/
theorem rendered_text_keeps_value (s : PredicateSet) (bound : s.NestedBound) :
    (s.isEmpty = true ↔ s.atoms = []) ∧
    ∃ text, s.render = .ok text ∧ (text = "" ↔ s.atoms = []) ∧
      (s.atoms ≠ [] → ∀ truth b,
        Reads .disjunction (s.judgedTexts truth) text.toList b ↔ b = s.holds truth 0) := by
  refine ⟨s.isEmpty_iff, ?_⟩
  -- the layout does not depend on the truth values, so any of them gives it
  rcases PredicateSet.layout_means s.target (fun _ => true) 0 s bound with ⟨l, laid, empty, _⟩
  have reads (present : s.atoms ≠ []) (truth : Nat → Bool) :
      Reads .disjunction (s.judgedTexts truth) (l.build s.target).sql.toList
        (s.holds truth 0) := by
    rcases PredicateSet.layout_means s.target truth 0 s bound with ⟨l', laid', _, means⟩
    obtain rfl := Except.ok.inj (laid.symm.trans laid')
    exact .conjunction (.unit (means present {}).2)
  have framed (truth : Nat → Bool) : ∀ x ∈ s.judgedTexts truth, x.Framed :=
    PredicateSet.framed_judged s.target {} truth 0 s.atoms
  refine ⟨(l.build s.target).sql, by rw [PredicateSet.render, laid]; rfl, ?_, ?_⟩
  · constructor
    · intro blank
      by_cases absent : s.atoms = []
      · exact absent
      · have written := (reads absent fun _ => true).text_ne_nil (framed _)
        exact absurd (by rw [blank]; rfl) written
    · intro absent
      rw [empty absent]
      rfl
  · intro present truth b
    constructor
    · intro read
      exact read.unique (framed truth) (reads present truth)
    · rintro rfl
      exact reads present truth

def mixedConditions : PredicateSet :=
  let target := Target.ofDialect .postgres
  let choice : PredicateSet :=
    { target
      predicates := [.eq "c" (.param (.int 3)), { Predicate.isNull "d" with conjunction := .or }]
      conjunction := some .and }
  { target
    predicates := [.eq "a" (.int 1), { Predicate.eq "b" (.param (.int 2)) with conjunction := .or }]
    children := [choice, { target, conjunction := some .or }] }

theorem rendered_text_keeps_value_mixed :
    mixedConditions.NestedBound ∧
    mixedConditions.render =
      .ok "((\"a\" = 1) OR (\"b\" = $1) AND ((\"c\" = $2) OR (\"d\" IS NULL)))" ∧
    ∃ text, mixedConditions.render = .ok text ∧ ∀ truth b,
      Reads .disjunction (mixedConditions.judgedTexts truth) text.toList b ↔
        b = (truth 0 || truth 1 && (truth 2 || truth 3)) := by
  have bound : mixedConditions.NestedBound := ⟨rfl, trivial, rfl, trivial, trivial⟩
  rcases rendered_text_keeps_value mixedConditions bound with ⟨_, text, rendered, _, value⟩
  refine ⟨bound, ?_, text, rendered, ?_⟩
  · unfold PredicateSet.render
    exact congrArg Except.ok (by decide +kernel)
  · intro truth b
    exact value (by simp [PredicateSet.atoms, mixedConditions]) truth b

end CrossDialect
