import CrossDialect.Condition.Shorthand

/-!
Sets of conditions, nested to any depth. A set renders its predicates and then its
nested sets, each joined to the element before it by its own conjunction, with
parentheses where more than one element is present.
-/

namespace CrossDialect

/-- What an edit leaves behind. A refused edit may still have changed the state. -/
structure Edited (σ : Type) where
  state : σ
  refusal : Option Error := none

def Edited.map {σ τ : Type} (f : σ → τ) (e : Edited σ) : Edited τ :=
  { state := f e.state, refusal := e.refusal }

inductive Criterion where
  | text (s : String)
  | shorthand (key : String) (value : Value)
  | predicate (p : Predicate)

def Criterion.toPredicate : Criterion → Except Error Predicate
  | .text s => Predicate.parse s
  | .shorthand key value => Predicate.shorthand key value
  | .predicate p => .ok p

structure PredicateSet where
  target : Target
  predicates : List Predicate := []
  children : List PredicateSet := []
  -- How the set joins the element before it in its parent.
  conjunction : Option Conjunction := none
  -- The conjunction chosen for the next element.
  pending : Option Conjunction := none

namespace PredicateSet

def and (s : PredicateSet) : PredicateSet :=
  { s with pending := some .and }

def or (s : PredicateSet) : PredicateSet :=
  { s with pending := some .or }

def withConjunction (s : PredicateSet) (c : Conjunction) : PredicateSet :=
  { s with conjunction := some c }

/-- Adds a predicate. A conjunction chosen for it goes before its own. -/
def addPredicate (s : PredicateSet) (p : Predicate) : PredicateSet :=
  let p := match s.pending with
    | some c => p.withConjunction c
    | none => p
  { s with predicates := s.predicates ++ [p], pending := none }

/-- Adds a condition. If it is refused nothing is added, and the conjunction chosen
for it is forgotten. -/
def add (s : PredicateSet) (c : Criterion) : Edited PredicateSet :=
  match c.toPredicate with
  | .ok p => { state := s.addPredicate p }
  | .error e => { state := { s with pending := none }, refusal := some e }

/-- Adds all entries in order, or none of them if one is refused. -/
def addMap (s : PredicateSet) (entries : List (String × Value)) : Edited PredicateSet :=
  match entries.mapM fun (key, value) => Predicate.shorthand key value with
  | .ok ps => { state := ps.foldl addPredicate s }
  | .error e => { state := { s with pending := none }, refusal := some e }

def andAdd (s : PredicateSet) (c : Criterion) : Edited PredicateSet :=
  s.and.add c

def orAdd (s : PredicateSet) (c : Criterion) : Edited PredicateSet :=
  s.or.add c

def child (s : PredicateSet) : PredicateSet :=
  { target := s.target, conjunction := some (s.pending.getD .and) }

def attach (s : PredicateSet) (c : PredicateSet) : PredicateSet :=
  { s with children := s.children ++ [c], pending := none }

def nest (s : PredicateSet) (fill : PredicateSet → PredicateSet) : PredicateSet :=
  s.attach (fill s.child)

def andNest (s : PredicateSet) (fill : PredicateSet → PredicateSet) : PredicateSet :=
  s.and.nest fill

def orNest (s : PredicateSet) (fill : PredicateSet → PredicateSet) : PredicateSet :=
  s.or.nest fill

/-- Nests a set that was built on its own. It keeps its conjunction unless another
one was chosen. -/
def addSet (s : PredicateSet) (c : PredicateSet) : PredicateSet :=
  s.attach (match s.pending with
    | some conjunction => c.withConjunction conjunction
    | none => c)

def eq (s : PredicateSet) (column : String) (v : Value) := s.addPredicate (.eq column v)

def ne (s : PredicateSet) (column : String) (v : Value) := s.addPredicate (.ne column v)

def gt (s : PredicateSet) (column : String) (v : Value) := s.addPredicate (.gt column v)

def gte (s : PredicateSet) (column : String) (v : Value) := s.addPredicate (.gte column v)

def lt (s : PredicateSet) (column : String) (v : Value) := s.addPredicate (.lt column v)

def lte (s : PredicateSet) (column : String) (v : Value) := s.addPredicate (.lte column v)

def like (s : PredicateSet) (column : String) (v : Value) := s.addPredicate (.like column v)

def notLike (s : PredicateSet) (column : String) (v : Value) := s.addPredicate (.notLike column v)

def between (s : PredicateSet) (column : String) (low high : Value) :=
  s.addPredicate (.between column low high)

def notBetween (s : PredicateSet) (column : String) (low high : Value) :=
  s.addPredicate (.notBetween column low high)

def isNull (s : PredicateSet) (column : String) := s.addPredicate (.isNull column)

def isNotNull (s : PredicateSet) (column : String) := s.addPredicate (.isNotNull column)

/-- Adds a predicate that was made before. If it was refused the set does not change. -/
def addChecked (s : PredicateSet) : Except Error Predicate → Edited PredicateSet
  | .ok p => { state := s.addPredicate p }
  | .error e => { state := s, refusal := some e }

def inList (s : PredicateSet) (column : String) (values : List Value) : Edited PredicateSet :=
  s.addChecked (Predicate.inList column values)

def notInList (s : PredicateSet) (column : String) (values : List Value) : Edited PredicateSet :=
  s.addChecked (Predicate.notInList column values)

def size (s : PredicateSet) : Nat :=
  s.predicates.length + s.children.length

mutual

/-- No predicate at any depth. -/
def isEmpty : PredicateSet → Bool
  | { predicates, children, .. } => predicates.isEmpty && allEmpty children

def allEmpty : List PredicateSet → Bool
  | [] => true
  | c :: cs => isEmpty c && allEmpty cs

end

/-- Elements with the conjunction of each but the first before it. -/
def joinElements : List (Conjunction × Layout) → Layout
  | [] => []
  | [(_, only)] => only
  | (_, first) :: rest =>
    Layout.parenthesized
      (first ++ rest.flatMap fun (c, l) => .text (" " ++ c.sql ++ " ") :: l)

mutual

/-- Every nested set needs a conjunction; those without predicates are left out. -/
def layout : PredicateSet → Except Error Layout
  | { predicates, children, .. } => do
    let nested ← childElements children
    return joinElements (predicates.map (fun p => (p.conjunction, p.layout)) ++ nested)

def childElements : List PredicateSet → Except Error (List (Conjunction × Layout))
  | [] => .ok []
  | c :: cs =>
    match c.conjunction with
    | none => .error .unboundConjunction
    | some conjunction =>
      if c.isEmpty then childElements cs
      else do
        let first ← layout c
        let rest ← childElements cs
        return (conjunction, first) :: rest

end

def render (s : PredicateSet) : Except Error String :=
  s.layout.map fun l => (l.build s.target).sql

end PredicateSet

end CrossDialect
