import CrossDialect.Proofs.Conditions.TruthValue
import CrossDialect.Statement.Basic

/-!
Statements that change rows keep their filter. The text of a built DELETE or UPDATE is
its head alone where the filter holds no predicate. Otherwise a condition follows that
is woven from the predicates of the filter, each of them written once and in order.
-/

namespace CrossDialect

/-- A condition made of texts in their order, each used once, with conjunctions between
them and parentheses around groups, and of nothing else. -/
inductive Woven : List String → List Char → Prop where
  | single (text : String) : Woven [text] text.toList
  | group {texts inner} : Woven texts inner → Woven texts ('(' :: inner ++ [')'])
  | joined {texts before others behind} (c : Conjunction) :
      Woven texts before → Woven others behind →
      Woven (texts ++ others) (before ++ c.spaced ++ behind)

theorem Reads.woven {level : Level} {atoms : List Atom} {text : List Char} {b : Bool}
    (reads : Reads level atoms text b) :
    Woven (atoms.map fun a => String.ofList a.text) text := by
  induction reads with
  | atom x => simpa using Woven.single (String.ofList x.text)
  | group _ ih => exact .group ih
  | unit _ ih => exact ih
  | and _ _ left right => simpa using Woven.joined .and left right
  | conjunction _ ih => exact ih
  | or _ _ left right => simpa using Woven.joined .or left right

namespace Layout

def writeEach (t : Target) (p : Pass) : List Layout → List String × Pass
  | [] => ([], p)
  | l :: ls =>
      let text := l.write t p
      let others := writeEach t text.2 ls
      (text.1 :: others.1, others.2)

theorem writeEach_eq_judge (t : Target) (p : Pass) (ls : List (Layout × Bool)) :
    (writeEach t p (ls.map Prod.fst)).1 =
      (judge t p ls).1.map fun a => String.ofList a.text := by
  induction ls generalizing p with
  | nil => rfl
  | cons l ls ih => simp [writeEach, judge, ih]

end Layout

theorem PredicateSet.judged_layouts (truth : Nat → Bool) (n : Nat) (ps : List Predicate) :
    (judged truth n ps).map Prod.fst = ps.map Predicate.layout := by
  induction ps generalizing n with
  | nil => rfl
  | cons p ps ih => simpa [judged, List.zipIdx_cons] using ih (n + 1)

/-- The head of a statement, and behind it the filter if that holds a predicate. The
predicates are numbered on from the placeholders of the head. -/
def Built.Restricted (t : Target) (head : Layout) (filter : PredicateSet) (b : Built) : Prop :=
  let opening := head.write t {}
  (filter.atoms = [] → b.sql = opening.1) ∧
  (filter.atoms ≠ [] → ∃ condition, condition ≠ "" ∧
    b.sql = opening.1 ++ " WHERE " ++ condition ∧
    Woven (Layout.writeEach t opening.2 (filter.atoms.map Predicate.layout)).1 condition.toList)

theorem PredicateSet.restricts {filter : PredicateSet} {l : Layout} (laid : filter.layout = .ok l)
    (t : Target) (head : Layout) :
    ((head ++ Layout.clause " WHERE " l).build t).Restricted t head filter := by
  -- the predicates may be worth anything here, only their texts matter
  rcases means_of_layout t (fun _ => true) 0 laid with ⟨empty, means⟩
  constructor
  · intro absent
    simp [empty absent, Layout.clause, Layout.build]
  · intro present
    have reads := ((means present) (head.write t {}).2).2
    have written : (l.write t (head.write t {}).2).1.toList ≠ [] :=
      reads.text_ne_nil (framed_judged t _ _ 0 filter.atoms)
    have kept : l ≠ [] := by
      rintro rfl
      exact written rfl
    refine ⟨(l.write t (head.write t {}).2).1, ?_, ?_, ?_⟩
    · simpa using written
    · simp [Layout.clause, kept, Layout.build, Layout.write_append, Layout.write, Piece.write,
        String.append_assoc]
    · rw [← judged_layouts (fun _ => true) 0, Layout.writeEach_eq_judge]
      exact reads.woven

def Delete.head (table : String) : Layout := [.text "DELETE FROM ", .name table]

def Update.head (u : Update) (table : String) : Layout :=
  .text "UPDATE " :: .name table :: .text " SET" :: Layout.clause " " u.assignmentList

theorem Statement.buildFor_eq_ok {s : Statement} {t : Target} {b : Built} :
    s.buildFor t = .ok b ↔ ∃ l, s.layout t.dialect = .ok l ∧ b = l.build t := by
  constructor
  · intro built
    rcases Ident.map_eq_ok built with ⟨l, laid, same⟩
    exact ⟨l, laid, same.symm⟩
  · rintro ⟨l, laid, rfl⟩
    rw [buildFor, laid]
    rfl

theorem Statement.restricted_of_layout {s : Statement} {t : Target} {table : Option String}
    {head : String → Layout} {filter : PredicateSet}
    (layout : ∀ l, s.layout t.dialect = .ok l ↔ ∃ name, table = some name ∧
      ∃ conditions, filter.layout = .ok conditions ∧
        l = head name ++ Layout.clause " WHERE " conditions) :
    ((∃ b, s.buildFor t = .ok b) ↔ table.isSome ∧ filter.WellJoined) ∧
      ∀ b, s.buildFor t = .ok b →
        ∃ name, table = some name ∧ b.Restricted t (head name) filter := by
  constructor
  · rw [Option.isSome_iff_exists, ← filter.layout_exists_iff]
    constructor
    · rintro ⟨b, built⟩
      rcases buildFor_eq_ok.1 built with ⟨l, laid, _⟩
      rcases (layout l).1 laid with ⟨name, named, conditions, told, _⟩
      exact ⟨⟨name, named⟩, conditions, told⟩
    · rintro ⟨⟨name, named⟩, conditions, told⟩
      exact ⟨_, buildFor_eq_ok.2 ⟨_, (layout _).2 ⟨name, named, conditions, told, rfl⟩, rfl⟩⟩
  · intro b built
    rcases buildFor_eq_ok.1 built with ⟨l, laid, rfl⟩
    rcases (layout l).1 laid with ⟨name, named, conditions, told, rfl⟩
    exact ⟨name, named, PredicateSet.restricts told t (head name)⟩

/-- For whatever target they are built, a DELETE and an UPDATE are built exactly if they
have a table and their filter is well joined, and then they keep the filter. -/
theorem filters_reach_statements (t : Target) :
    (∀ x : Delete,
      ((∃ b, (Statement.delete x).buildFor t = .ok b) ↔ x.table.isSome ∧ x.filter.WellJoined) ∧
      ∀ b, (Statement.delete x).buildFor t = .ok b →
        ∃ table, x.table = some table ∧ b.Restricted t (Delete.head table) x.filter) ∧
    (∀ u : Update,
      ((∃ b, (Statement.update u).buildFor t = .ok b) ↔ u.table.isSome ∧ u.filter.WellJoined) ∧
      ∀ b, (Statement.update u).buildFor t = .ok b →
        ∃ table, u.table = some table ∧ b.Restricted t (u.head table) u.filter) := by
  constructor
  · intro x
    exact Statement.restricted_of_layout fun _ => Delete.layout_eq_ok
  · intro u
    exact Statement.restricted_of_layout fun _ => Update.layout_eq_ok

def deepFilter : PredicateSet :=
  let target := Target.ofDialect .postgres
  { target
    children :=
      [{ target, conjunction := some .and },
       { target
         children :=
           [{ target, predicates := [.eq "id" (.param (.int 7))], conjunction := some .or }]
         conjunction := some .or }] }

def deepUpdate : Update :=
  { target := .ofDialect .postgres
    table := some "users"
    assignments := [("name", .param (.text "Ann"))]
    filter := deepFilter }

theorem filters_reach_statements_deep :
    ∃ b, (Statement.update deepUpdate).buildFor (.ofDialect .postgres) = .ok b ∧
      ∃ condition, b.sql = "UPDATE \"users\" SET \"name\" = $1" ++ " WHERE " ++ condition ∧
        Woven ["(\"id\" = $2)"] condition.toList := by
  rcases (filters_reach_statements (.ofDialect .postgres)).2 deepUpdate with ⟨built, keeps⟩
  have joined : deepFilter.WellJoined :=
    ⟨rfl, fun _ => trivial, rfl, fun _ => ⟨rfl, fun _ => trivial, trivial⟩, trivial⟩
  rcases built.2 ⟨rfl, joined⟩ with ⟨b, told⟩
  rcases keeps b told with ⟨table, named, _, kept⟩
  obtain rfl : "users" = table := Option.some.inj named
  have present : deepFilter.atoms ≠ [] := by
    simp [PredicateSet.atoms, PredicateSet.childAtoms, deepFilter]
  rcases kept present with ⟨condition, _, text, woven⟩
  have opening : ((deepUpdate.head "users").write (.ofDialect .postgres) {}).1 =
      "UPDATE \"users\" SET \"name\" = $1" := by
    decide +kernel
  have texts : (Layout.writeEach (.ofDialect .postgres)
      ((deepUpdate.head "users").write (.ofDialect .postgres) {}).2
      (deepFilter.atoms.map Predicate.layout)).1 = ["(\"id\" = $2)"] := by
    decide +kernel
  exact ⟨b, told, condition, opening ▸ text, texts ▸ woven⟩

end CrossDialect
