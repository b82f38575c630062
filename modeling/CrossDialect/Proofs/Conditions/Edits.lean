import CrossDialect.PredicateSet
import CrossDialect.Proofs.Statements.Layouts
import Mathlib.Data.List.Basic

/-!
Edits of a set of conditions. Every element is stored with the conjunction that was chosen
for it, which is the last one chosen on this set since the element before, and with its own
if there is none. Predicates keep the order in which they were added, and so do nested sets,
whatever is done inside these in between. A refused edit adds nothing and forgets the
conjunction chosen for it, but for a refused list of members, which leaves it to the next
element.
-/

namespace CrossDialect

namespace PredicateSet

/-- The calls on a set. A nested set is edited by calls of its own. -/
inductive Edit where
  | and
  | or
  | add (c : Criterion)
  | andAdd (c : Criterion)
  | orAdd (c : Criterion)
  | addPredicate (p : Predicate)
  | addMap (entries : List (String × Value))
  | eq (column : String) (v : Value)
  | ne (column : String) (v : Value)
  | gt (column : String) (v : Value)
  | gte (column : String) (v : Value)
  | lt (column : String) (v : Value)
  | lte (column : String) (v : Value)
  | like (column : String) (v : Value)
  | notLike (column : String) (v : Value)
  | between (column : String) (low high : Value)
  | notBetween (column : String) (low high : Value)
  | isNull (column : String)
  | isNotNull (column : String)
  | inList (column : String) (values : List Value)
  | notInList (column : String) (values : List Value)
  | nest
  | andNest
  | orNest
  | addSet (c : PredicateSet)

def apply (s : PredicateSet) : Edit → Edited PredicateSet
  | .and => { state := s.and }
  | .or => { state := s.or }
  | .add c => s.add c
  | .andAdd c => s.andAdd c
  | .orAdd c => s.orAdd c
  | .addPredicate p => { state := s.addPredicate p }
  | .addMap entries => s.addMap entries
  | .eq column v => { state := s.eq column v }
  | .ne column v => { state := s.ne column v }
  | .gt column v => { state := s.gt column v }
  | .gte column v => { state := s.gte column v }
  | .lt column v => { state := s.lt column v }
  | .lte column v => { state := s.lte column v }
  | .like column v => { state := s.like column v }
  | .notLike column v => { state := s.notLike column v }
  | .between column low high => { state := s.between column low high }
  | .notBetween column low high => { state := s.notBetween column low high }
  | .isNull column => { state := s.isNull column }
  | .isNotNull column => { state := s.isNotNull column }
  | .inList column values => s.inList column values
  | .notInList column values => s.notInList column values
  | .nest => { state := s.nest id }
  | .andNest => { state := s.andNest id }
  | .orNest => { state := s.orNest id }
  | .addSet c => { state := s.addSet c }

/-! What an edit chooses and adds -/

inductive Element where
  | predicate (p : Predicate)
  | set (c : PredicateSet)

namespace Element

def plain (p : Predicate) : Element := .predicate (p.withConjunction .and)

def predicate? : Element → Option Predicate
  | .predicate p => some p
  | .set _ => none

def set? : Element → Option PredicateSet
  | .predicate _ => none
  | .set c => some c

def joined (choice : Option Conjunction) : Element → Element
  | .predicate p => .predicate (choice.elim p p.withConjunction)
  | .set c => .set (choice.elim c c.withConjunction)

end Element

namespace Edit

def choice? : Edit → Option Conjunction
  | .and | .andAdd _ | .andNest => some .and
  | .or | .orAdd _ | .orNest => some .or
  | _ => none

def criterion : Criterion → Except Error Element
  | .text s => (Predicate.parse s).map .plain
  | .shorthand key v => (Predicate.shorthand key v).map .plain
  | .predicate p => .ok (.predicate p)

def elements (t : Target) : Edit → Except Error (List Element)
  | .and | .or => .ok []
  | .add c | .andAdd c | .orAdd c => (criterion c).map ([·])
  | .addPredicate p => .ok [.predicate p]
  | .addMap entries => (entries.mapM fun (key, v) => Predicate.shorthand key v).map (List.map .plain)
  | .eq column v => .ok [.plain (.eq column v)]
  | .ne column v => .ok [.plain (.ne column v)]
  | .gt column v => .ok [.plain (.gt column v)]
  | .gte column v => .ok [.plain (.gte column v)]
  | .lt column v => .ok [.plain (.lt column v)]
  | .lte column v => .ok [.plain (.lte column v)]
  | .like column v => .ok [.plain (.like column v)]
  | .notLike column v => .ok [.plain (.notLike column v)]
  | .between column low high => .ok [.plain (.between column low high)]
  | .notBetween column low high => .ok [.plain (.notBetween column low high)]
  | .isNull column => .ok [.plain (.isNull column)]
  | .isNotNull column => .ok [.plain (.isNotNull column)]
  | .inList column values => (Predicate.inList column values).map ([.plain ·])
  | .notInList column values => (Predicate.notInList column values).map ([.plain ·])
  | .nest | .andNest | .orNest => .ok [.set { target := t, conjunction := some .and }]
  | .addSet c => .ok [.set c]

end Edit

inductive Event where
  | chosen (c : Conjunction)
  | added (e : Element)

namespace Event

def choice? : Event → Option Conjunction
  | .chosen c => some c
  | .added _ => none

end Event

/-- What an edit that is not refused does, in order. -/
def Edit.events (t : Target) (e : Edit) : List Event :=
  e.choice?.toList.map .chosen ++ ((e.elements t).toOption.getD []).map .added

/-- The choice that is open after these events. An event that is no choice adds an element,
so the choice made last since the element before is the event just before, if any. -/
def openChoice (before : List Event) : Option Conjunction :=
  before.getLast?.bind Event.choice?

def stored (before : List Event) : List Event → List Element
  | [] => []
  | .chosen c :: events => stored (before ++ [.chosen c]) events
  | .added e :: events => e.joined (openChoice before) :: stored (before ++ [.added e]) events

/-! One edit -/

def Edit.isMembership : Edit → Bool
  | .inList _ _ | .notInList _ _ => true
  | _ => false

def Edit.remains (s : PredicateSet) (e : Edit) : PredicateSet :=
  if e.isMembership then s else { s with pending := none }

def record (s : PredicateSet) : Event → PredicateSet
  | .chosen c => { s with pending := some c }
  | .added (.predicate p) => s.addPredicate p
  | .added (.set c) => s.addSet c

section Plain

variable {p : Predicate}

theorem make_conjunction {column : String} {op : Operator} {operands : List Value}
    (made : Predicate.make column op operands = .ok p) : p.withConjunction .and = p := by
  unfold Predicate.make at made
  dsimp only at made
  split at made
  · obtain rfl := Except.ok.inj made
    rfl
  · exact absurd made (by simp)

theorem condition_conjunction {read : Except Error Condition}
    (made : read.bind Condition.toPredicate = .ok p) : p.withConjunction .and = p := by
  cases read with
  | error e => exact absurd made nofun
  | ok c => exact make_conjunction made

theorem shorthand_conjunction {key : String} {v : Value}
    (read : Predicate.shorthand key v = .ok p) : p.withConjunction .and = p :=
  condition_conjunction read

theorem parse_conjunction {text : String}
    (read : Predicate.parse text = .ok p) : p.withConjunction .and = p :=
  condition_conjunction read

end Plain

theorem map_plain {made : Except Error Predicate}
    (conjunction : ∀ {p}, made = .ok p → p.withConjunction .and = p) :
    made.map Element.plain = made.map .predicate := by
  cases made with
  | error fault => rfl
  | ok p => simp [Except.map, Element.plain, conjunction]

theorem criterion_eq (c : Criterion) : Edit.criterion c = c.toPredicate.map .predicate := by
  cases c with
  | text s => exact map_plain parse_conjunction
  | shorthand key v => exact map_plain shorthand_conjunction
  | predicate p => rfl

theorem entries_plain {entries : List (String × Value)} {ps : List Predicate}
    (read : (entries.mapM fun (key, v) => Predicate.shorthand key v) = .ok ps) :
    ps.map Element.plain = ps.map .predicate := by
  refine List.map_congr_left fun p member => ?_
  obtain ⟨_, _, first⟩ := mapM_ok_member read member
  exact congrArg Element.predicate (shorthand_conjunction first)

theorem add_eq (s : PredicateSet) (c : Criterion) :
    s.add c = match Edit.criterion c with
      | .ok e => { state := s.record (.added e) }
      | .error fault => { state := { s with pending := none }, refusal := some fault } := by
  rw [criterion_eq, add]
  cases c.toPredicate <;> rfl

theorem addMap_eq (s : PredicateSet) (entries : List (String × Value)) :
    s.addMap entries = match (Edit.addMap entries).elements s.target with
      | .ok es => { state := (es.map .added).foldl record s }
      | .error fault => { state := { s with pending := none }, refusal := some fault } := by
  simp only [addMap, Edit.elements]
  cases read : entries.mapM fun (key, v) => Predicate.shorthand key v with
  | error fault => rfl
  | ok ps =>
      simp only [Except.map, entries_plain read, List.map_map, List.foldl_map]
      rfl

theorem addChecked_eq (s : PredicateSet) (made : Except Error Predicate)
    (conjunction : ∀ {p}, made = .ok p → p.withConjunction .and = p) :
    s.addChecked made = match made.map Element.plain with
      | .ok e => { state := s.record (.added e) }
      | .error fault => { state := s, refusal := some fault } := by
  rw [map_plain conjunction]
  cases made <;> rfl

theorem addSet_empty (s : PredicateSet) :
    s.addSet { target := s.target, conjunction := some .and } = s.nest id := by
  unfold addSet nest child
  cases s.pending <;> rfl

/-- An edit does what its events say, or nothing if it is refused. -/
theorem apply_eq (s : PredicateSet) (e : Edit) :
    s.apply e = match e.elements s.target with
      | .ok _ => { state := (e.events s.target).foldl record s }
      | .error fault => { state := e.remains s, refusal := some fault } := by
  cases e with
  | add c | andAdd c | orAdd c =>
      simp only [apply, andAdd, orAdd, add_eq, Edit.events, Edit.elements]
      cases Edit.criterion c <;> rfl
  | addMap entries =>
      simp only [apply, addMap_eq, Edit.events]
      cases (Edit.addMap entries).elements s.target <;> rfl
  | inList column values =>
      have made := addChecked_eq s (Predicate.inList column values) make_conjunction
      simp only [apply, inList, made, Edit.events, Edit.elements]
      cases Predicate.inList column values <;> rfl
  | notInList column values =>
      have made := addChecked_eq s (Predicate.notInList column values) make_conjunction
      simp only [apply, notInList, made, Edit.events, Edit.elements]
      cases Predicate.notInList column values <;> rfl
  | nest => exact congrArg (Edited.mk · none) s.addSet_empty.symm
  | andNest => exact congrArg (Edited.mk · none) s.and.addSet_empty.symm
  | orNest => exact congrArg (Edited.mk · none) s.or.addSet_empty.symm
  | _ => rfl

theorem apply_accepted {s : PredicateSet} {e : Edit} (accepted : (s.apply e).refusal = none) :
    (s.apply e).state = (e.events s.target).foldl record s := by
  rw [apply_eq] at accepted ⊢
  split at accepted <;> simp_all

/-! Many edits -/

@[simp] theorem openChoice_chosen (before : List Event) (c : Conjunction) :
    openChoice (before ++ [.chosen c]) = some c := by
  simp [openChoice, Event.choice?]

@[simp] theorem openChoice_added (before : List Event) (e : Element) :
    openChoice (before ++ [.added e]) = none := by
  simp [openChoice, Event.choice?]

theorem record_added (s : PredicateSet) (e : Element) :
    s.record (.added e) =
      { s with
        predicates := s.predicates ++ (e.joined s.pending).predicate?.toList
        children := s.children ++ (e.joined s.pending).set?.toList
        pending := none } := by
  cases e with
  | predicate p =>
      cases pending : s.pending <;>
        simp [record, addPredicate, Element.joined, Element.predicate?, Element.set?, pending]
  | set c =>
      cases pending : s.pending <;>
        simp [record, addSet, attach, Element.joined, Element.predicate?, Element.set?, pending]

/-- A set that records events stores their elements as chosen and keeps the open choice. -/
theorem record_events {s : PredicateSet} {before : List Event}
    (pending : s.pending = openChoice before) (events : List Event) :
    events.foldl record s =
      { s with
        predicates := s.predicates ++ (stored before events).filterMap Element.predicate?
        children := s.children ++ (stored before events).filterMap Element.set?
        pending := openChoice (before ++ events) } := by
  induction events generalizing s before with
  | nil =>
      cases s
      simp_all [stored]
  | cons event events ih =>
      cases event with
      | chosen c =>
          rw [List.foldl_cons, ih (openChoice_chosen before c).symm]
          simp [record, stored]
      | added e =>
          rw [List.foldl_cons, record_added, ih (openChoice_added before e).symm]
          simp only [stored, pending, List.filterMap_cons, List.append_assoc]
          generalize e.joined (openChoice before) = joined
          cases joined <;> simp [Element.predicate?, Element.set?]

theorem stored_append (before first second : List Event) :
    stored before (first ++ second) =
      stored before first ++ stored (before ++ first) second := by
  induction first generalizing before with
  | nil => simp [stored]
  | cons event first ih => cases event <;> simp [stored, ih]

/-- Of the events before, only the open choice matters. -/
theorem stored_congr {before before' : List Event} (same : openChoice before = openChoice before')
    (events : List Event) : stored before events = stored before' events := by
  induction events generalizing before before' with
  | nil => rfl
  | cons event events ih =>
      cases event with
      | chosen c => simpa [stored] using ih (by simp)
      | added e =>
          have rest : stored (before ++ [.added e]) events = stored (before' ++ [.added e]) events :=
            ih (by simp)
          rw [stored, stored, same, rest]

theorem openChoice_append {before before' : List Event}
    (same : openChoice before = openChoice before') (events : List Event) :
    openChoice (before ++ events) = openChoice (before' ++ events) := by
  simp only [openChoice, List.getLast?_append] at same ⊢
  cases events.getLast? with
  | none => simpa using same
  | some last => rfl

/-- An edit of the set nested at an address, which lists positions from the outside in. -/
structure Step where
  address : List Nat
  edit : Edit

def editAt (e : Edit) : List Nat → PredicateSet → Option PredicateSet
  | [], s =>
    match (s.apply e).refusal with
    | none => some (s.apply e).state
    | some _ => none
  | k :: address, s => do
    let c ← s.children[k]?
    let c' ← editAt e address c
    return { s with children := s.children.set k c' }

def runEdits (s : PredicateSet) (steps : List Step) : Option PredicateSet :=
  steps.foldlM (fun s step => editAt step.edit step.address s) s

def own (steps : List Step) : List Edit :=
  steps.filterMap fun
    | ⟨[], e⟩ => some e
    | ⟨_ :: _, _⟩ => none

def inside (k : Nat) (steps : List Step) : List Step :=
  steps.filterMap fun
    | ⟨[], _⟩ => none
    | ⟨j :: address, e⟩ => if j = k then some ⟨address, e⟩ else none

def start (s : PredicateSet) : List Event :=
  s.pending.toList.map .chosen

def history (s : PredicateSet) (steps : List Step) : List Event :=
  (own steps).flatMap (Edit.events s.target)

/-- The elements that a run adds to the set itself, each joined as chosen there. -/
def gains (s : PredicateSet) (steps : List Step) : List Element :=
  stored s.start (s.history steps)

/-- The nested sets as they were when the run began, or when they were added. -/
def nested (s : PredicateSet) (steps : List Step) : List PredicateSet :=
  s.children ++ (s.gains steps).filterMap Element.set?

/-- What a run makes of a set: it has the predicates and nested sets it had and those that
were added, in this order and no others, and the same holds of each nested set. -/
inductive Follows : PredicateSet → List Step → PredicateSet → Prop
  | intro {s s' : PredicateSet} {steps : List Step}
      (target : s'.target = s.target)
      (conjunction : s'.conjunction = s.conjunction)
      (predicates : s'.predicates = s.predicates ++ (s.gains steps).filterMap Element.predicate?)
      (count : s'.children.length = (s.nested steps).length)
      (children : ∀ k c c', (s.nested steps)[k]? = some c → s'.children[k]? = some c' →
        Follows c (inside k steps) c')
      (pending : s'.pending = openChoice (s.start ++ s.history steps)) :
      Follows s steps s'

theorem openChoice_start (s : PredicateSet) : openChoice s.start = s.pending := by
  cases pending : s.pending <;> simp [start, openChoice, pending, Event.choice?]

theorem record_history {s s₁ : PredicateSet} {e : Edit}
    (recorded : s₁ = (e.events s.target).foldl record s) (steps : List Step) :
    s.gains (⟨[], e⟩ :: steps) = stored s.start (e.events s.target) ++ s₁.gains steps ∧
    openChoice (s.start ++ s.history (⟨[], e⟩ :: steps)) =
      openChoice (s₁.start ++ s₁.history steps) := by
  rw [record_events s.openChoice_start.symm] at recorded
  have same : openChoice (s.start ++ e.events s.target) = openChoice s₁.start := by
    rw [openChoice_start, recorded]
  have target : s₁.target = s.target := by
    rw [recorded]
  have split : s.history (⟨[], e⟩ :: steps) = e.events s.target ++ s₁.history steps := by
    simp [history, own, target]
  constructor
  · rw [gains, split, stored_append, stored_congr same, gains]
  · rw [split, ← List.append_assoc, openChoice_append same]

theorem Follows.refl (s : PredicateSet) : Follows s [] s := by
  have gains : s.gains [] = [] := rfl
  have nested : s.nested [] = s.children := by simp [PredicateSet.nested, gains]
  refine .intro rfl rfl (by simp [gains]) (by rw [nested]) ?_ ?_
  · intro k c c' before after
    rw [nested] at before
    obtain rfl : c = c' := Option.some.inj (before.symm.trans after)
    -- The proof goes on into the nested sets, which are smaller than the set.
    have smaller : sizeOf c < sizeOf s.children :=
      List.sizeOf_lt_of_mem (List.mem_of_getElem? before)
    exact Follows.refl c
  · simp [history, own, openChoice_start]
termination_by sizeOf s
decreasing_by
  cases s
  simp_all
  omega

theorem Follows.edit_own {s s' : PredicateSet} {e : Edit} {steps : List Step}
    (accepted : (s.apply e).refusal = none) (follows : Follows (s.apply e).state steps s') :
    Follows s (⟨[], e⟩ :: steps) s' := by
  have recorded : (s.apply e).state = (e.events s.target).foldl record s := apply_accepted accepted
  generalize (s.apply e).state = s₁ at recorded follows
  obtain ⟨gains, choice⟩ := record_history recorded steps
  rw [record_events s.openChoice_start.symm] at recorded
  have nested : s.nested (⟨[], e⟩ :: steps) = s₁.nested steps := by
    simp [PredicateSet.nested, gains, recorded]
  cases follows with
  | intro target conjunction predicates count children pending =>
      refine .intro ?_ ?_ ?_ ?_ ?_ ?_
      · rw [target, recorded]
      · rw [conjunction, recorded]
      · rw [predicates, gains, List.filterMap_append, ← List.append_assoc, recorded]
      · rw [count, nested]
      · rw [nested]
        exact children
      · rw [pending, choice]

/-- A step in a nested set is no part of the history of the set itself. -/
theorem Follows.edit_nested {s s' c c₁ : PredicateSet} {e : Edit} {k : Nat} {address : List Nat}
    {steps : List Step} (found : s.children[k]? = some c)
    (inner : ∀ c', Follows c₁ (inside k steps) c' → Follows c (⟨address, e⟩ :: inside k steps) c')
    (follows : Follows { s with children := s.children.set k c₁ } steps s') :
    Follows s (⟨k :: address, e⟩ :: steps) s' := by
  obtain ⟨bound, _⟩ := List.getElem?_eq_some_iff.mp found
  have first : (s.nested (⟨k :: address, e⟩ :: steps))[k]? = some c := by
    rw [PredicateSet.nested, List.getElem?_append_left bound, found]
  have nested : PredicateSet.nested { s with children := s.children.set k c₁ } steps =
      (s.nested (⟨k :: address, e⟩ :: steps)).set k c₁ := by
    rw [PredicateSet.nested, PredicateSet.nested, List.set_append_left k c₁ bound]
    rfl
  cases follows with
  | intro target conjunction predicates count children pending =>
      rw [nested] at count children
      refine .intro target conjunction predicates ?_ ?_ pending
      · rw [count, List.length_set]
      · intro j d d' before after
        by_cases here : k = j
        · subst here
          obtain rfl : d = c := Option.some.inj (before.symm.trans first)
          have edited : ((s.nested (⟨k :: address, e⟩ :: steps)).set k c₁)[k]? = some c₁ := by
            rw [List.getElem?_set_self', first]
            rfl
          have split : inside k (⟨k :: address, e⟩ :: steps) = ⟨address, e⟩ :: inside k steps := by
            simp [inside]
          rw [split]
          exact inner d' (children k c₁ d' edited after)
        · have split : inside j (⟨k :: address, e⟩ :: steps) = inside j steps := by
            simp [inside, here]
          rw [split]
          exact children j d d' (by rw [List.getElem?_set_ne here, before]) after

theorem editAt_own {s s₁ : PredicateSet} {e : Edit} (edited : editAt e [] s = some s₁) :
    (s.apply e).refusal = none ∧ s₁ = (s.apply e).state := by
  unfold editAt at edited
  split at edited
  · rename_i accepted
    exact ⟨accepted, (Option.some.inj edited).symm⟩
  · exact absurd edited (by simp)

theorem editAt_nested {s s₁ : PredicateSet} {e : Edit} {k : Nat} {address : List Nat}
    (edited : editAt e (k :: address) s = some s₁) :
    ∃ c c₁, s.children[k]? = some c ∧ editAt e address c = some c₁ ∧
      s₁ = { s with children := s.children.set k c₁ } := by
  rw [editAt, Option.bind_eq_bind, Option.bind_eq_some_iff] at edited
  obtain ⟨c, found, edited⟩ := edited
  rw [Option.bind_eq_some_iff] at edited
  obtain ⟨c₁, child, edited⟩ := edited
  exact ⟨c, c₁, found, child, (Option.some.inj edited).symm⟩

theorem Follows.cons {s s₁ s' : PredicateSet} {step : Step} {steps : List Step}
    (edited : editAt step.edit step.address s = some s₁) (follows : Follows s₁ steps s') :
    Follows s (step :: steps) s' := by
  obtain ⟨address, e⟩ := step
  -- By induction on the address: every set on the way is changed in one nested set only.
  induction address generalizing s s₁ s' steps with
  | nil =>
      obtain ⟨accepted, rfl⟩ := editAt_own edited
      exact follows.edit_own accepted
  | cons k address ih =>
      obtain ⟨c, c₁, found, child, rfl⟩ := editAt_nested edited
      exact follows.edit_nested found fun _ inner => ih inner child

theorem runEdits_cons {s s' : PredicateSet} {step : Step} {steps : List Step}
    (run : s.runEdits (step :: steps) = some s') :
    ∃ s₁, editAt step.edit step.address s = some s₁ ∧ s₁.runEdits steps = some s' := by
  rwa [runEdits, List.foldlM_cons, Option.bind_eq_bind, Option.bind_eq_some_iff] at run

/-- Whatever is done to nested sets in between, every element of every set is stored in the
order of the calls on its set, with the conjunction last chosen there since the element before. -/
theorem elements_join_as_chosen (s s' : PredicateSet) (steps : List Step)
    (run : s.runEdits steps = some s') : Follows s steps s' := by
  induction steps generalizing s with
  | nil =>
      obtain rfl := Option.some.inj run
      exact .refl s
  | cons step steps ih =>
      obtain ⟨s₁, edited, run⟩ := runEdits_cons run
      exact (ih s₁ run).cons edited

def mysql : PredicateSet :=
  { target := .ofDialect .mysql }

def interleaved : List Step :=
  [⟨[], .eq "a" (.int 1)⟩, ⟨[], .orNest⟩, ⟨[0], .eq "b" (.int 2)⟩, ⟨[], .or⟩, ⟨[0], .or⟩,
    ⟨[0], .isNull "c"⟩, ⟨[], .addMap []⟩, ⟨[], .eq "d" (.int 4)⟩, ⟨[], .isNull "e"⟩]

def joined : PredicateSet :=
  { mysql with
    predicates :=
      [.eq "a" (.int 1), (Predicate.eq "d" (.int 4)).withConjunction .or, .isNull "e"]
    children :=
      [{ mysql with
          predicates := [.eq "b" (.int 2), (Predicate.isNull "c").withConjunction .or]
          conjunction := some .or }] }

theorem elements_join_as_chosen_interleaved :
    mysql.runEdits interleaved = some joined ∧ Follows mysql interleaved joined :=
  ⟨rfl, elements_join_as_chosen mysql joined interleaved rfl⟩

/-- A nested set that is filled before it is attached is the same as one filled afterwards. -/
theorem attach_filled {s c c' : PredicateSet} {steps : List Step}
    (filled : c.runEdits steps = some c') :
    (s.attach c).runEdits (steps.map fun step => ⟨s.children.length :: step.address, step.edit⟩) =
      some (s.attach c') := by
  induction steps generalizing c with
  | nil =>
      obtain rfl := Option.some.inj filled
      rfl
  | cons step steps ih =>
      obtain ⟨c₁, edited, filled⟩ := runEdits_cons filled
      have outer : editAt step.edit (s.children.length :: step.address) (s.attach c) =
          some (s.attach c₁) := by
        simp [editAt, attach, edited]
      rw [List.map_cons, runEdits, List.foldlM_cons, outer]
      exact ih filled

/-! Refusals -/

theorem apply_refused {s : PredicateSet} {e : Edit} {fault : Error}
    (refused : (s.apply e).refusal = some fault) : (s.apply e).state = e.remains s := by
  rw [apply_eq] at refused ⊢
  split at refused <;> simp_all

def choose (s : PredicateSet) (choices : List Conjunction) : PredicateSet :=
  (choices.map Event.chosen).foldl record s

theorem choose_forgotten (s : PredicateSet) (choices : List Conjunction) :
    { s.choose choices with pending := none } = { s with pending := none } := by
  induction choices generalizing s with
  | nil => rfl
  | cons c choices ih => exact ih { s with pending := some c }

/-- A refused edit leaves the set as if neither it nor the choices before it had been made,
but for a refused list of members, which leaves the choices. -/
theorem refused_edit_forgets_choice (s : PredicateSet) (choices : List Conjunction) (e : Edit)
    (fault : Error) (refused : ((s.choose choices).apply e).refusal = some fault) :
    ((s.choose choices).apply e).state =
      if e.isMembership then s.choose choices else { s with pending := none } := by
  rw [apply_refused refused, Edit.remains, choose_forgotten]

theorem refused_edit_forgets_choice_empty_key :
    (((mysql.choose [.or]).apply (.add (.shorthand "" (.int 2)))).refusal =
        some (.malformed "" .noColumnName) ∧
      ((mysql.choose [.or]).apply (.add (.shorthand "" (.int 2)))).state = mysql) ∧
    ((mysql.choose [.or]).apply (.inList "b" [])).refusal = some (.arity .inList 0) ∧
    ((mysql.choose [.or]).apply (.inList "b" [])).state = mysql.or := by
  have nameless : ((mysql.choose [.or]).apply (.add (.shorthand "" (.int 2)))).refusal =
      some (.malformed "" .noColumnName) := rfl
  have memberless : ((mysql.choose [.or]).apply (.inList "b" [])).refusal =
      some (.arity .inList 0) := rfl
  exact ⟨⟨nameless, refused_edit_forgets_choice mysql [.or] _ _ nameless⟩,
    memberless, refused_edit_forgets_choice mysql [.or] _ _ memberless⟩

/-- An OR chosen for a list of members that is refused joins the next condition. -/
theorem refused_members_leave_choice :
    let chosen := (mysql.eq "a" (.int 1)).or
    let refused := chosen.apply (.inList "b" [])
    refused.refusal = some (.arity .inList 0) ∧
    refused.state.pending = some .or ∧
    (refused.state.eq "c" (.int 3)).render.toOption = some "((`a` = 1) OR (`c` = 3))" ∧
    ((mysql.eq "a" (.int 1)).eq "c" (.int 3)).render.toOption =
      some "((`a` = 1) AND (`c` = 3))" := by
  refine ⟨rfl, rfl, ?_, ?_⟩ <;> decide +kernel

end PredicateSet

end CrossDialect
