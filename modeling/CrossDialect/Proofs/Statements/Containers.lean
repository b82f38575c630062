import CrossDialect.Container

/-!
A container has a place for each kind of statement and still holds one statement at most.
Whatever is done with it, it is what a cell with one optional statement would be: a kind that
is held is kept with every call on it, another kind starts afresh, and emptying leaves nothing
to render.
-/

namespace CrossDialect

namespace Container

/-- A use of a container. It is emptied, or a kind is activated and any calls are made on the
statement that comes back. -/
inductive Call where
  | reset
  | select (edit : Select → Select)
  | insert (edit : Insert → Insert)
  | update (edit : Update → Update)
  | delete (edit : Delete → Delete)

def call (c : Container) : Call → Container
  | .reset => c.reset
  | .select edit =>
    let c := c.activate .select
    c.put (.select (edit c.select))
  | .insert edit =>
    let c := c.activate .insert
    c.put (.insert (edit c.insert))
  | .update edit =>
    let c := c.activate .update
    c.put (.update (edit c.update))
  | .delete edit =>
    let c := c.activate .delete
    c.put (.delete (edit c.delete))

def run (c : Container) (calls : List Call) : Container := calls.foldl call c

def statements (c : Container) : List Statement :=
  (c.select?.map .select).toList ++ (c.insert?.map .insert).toList ++
    (c.update?.map .update).toList ++ (c.delete?.map .delete).toList

namespace Call

def kind? : Call → Option StatementKind
  | .reset => none
  | .select _ => some .select
  | .insert _ => some .insert
  | .update _ => some .update
  | .delete _ => some .delete

def edited : Call → Statement → Statement
  | .select edit, .select s => .select (edit s)
  | .insert edit, .insert i => .insert (edit i)
  | .update edit, .update u => .update (edit u)
  | .delete edit, .delete x => .delete (edit x)
  | _, s => s

end Call

end Container

structure Cell where
  target : Target
  held : Option Statement := none

namespace Cell

def kind (x : Cell) : Option StatementKind := x.held.map Statement.kind

/-- The kind that is held is kept. Another one starts afresh. -/
def activate (x : Cell) (kind : StatementKind) : Cell :=
  if x.kind = some kind then x else { x with held := some (.fresh x.target kind) }

def call (x : Cell) (call : Container.Call) : Cell :=
  match call.kind? with
  | none => { x with held := none }
  | some kind =>
    let x := x.activate kind
    { x with held := x.held.map call.edited }

def run (x : Cell) (calls : List Container.Call) : Cell := calls.foldl call x

def build (x : Cell) : Except Error Built :=
  match x.held with
  | some s => s.buildFor x.target
  | none => .error .emptyStatement

def render (x : Cell) : Except Error String := x.build.map Built.sql

/-- The container in which nothing but the held statement is present. -/
def container (x : Cell) : Container :=
  match x.held with
  | none => .ofTarget x.target
  | some s => (Container.ofTarget x.target).put s

theorem kind_container (x : Cell) : x.container.kind = x.kind := by
  rcases x with ⟨t, held⟩
  cases held with
  | none => rfl
  | some s => cases s <;> rfl

theorem build_container (x : Cell) : x.container.build = x.build := by
  rcases x with ⟨t, held⟩
  cases held with
  | none => rfl
  | some s => cases s <;> rfl

theorem statements_container (x : Cell) : x.container.statements = x.held.toList := by
  rcases x with ⟨t, held⟩
  cases held with
  | none => rfl
  | some s => cases s <;> rfl

theorem call_container (x : Cell) (call : Container.Call) :
    x.container.call call = (x.call call).container := by
  rcases x with ⟨t, held⟩
  cases held with
  | none => cases call <;> rfl
  | some s => cases s <;> cases call <;> rfl

theorem run_container (x : Cell) (calls : List Container.Call) :
    x.container.run calls = (x.run calls).container := by
  induction calls generalizing x with
  | nil => rfl
  | cons call calls ih =>
      have first := x.call_container call
      have others := ih (x.call call)
      rw [← first] at others
      exact others

end Cell

/-- After any uses of a container at most one of its statements is present, and it answers as
the cell does of which the same uses were made. Once it is emptied there is nothing to render. -/
theorem container_holds_one_statement (t : Target) (calls : List Container.Call) :
    let c := (Container.ofTarget t).run calls
    let x := ({ target := t } : Cell).run calls
    c.statements.length ≤ 1 ∧ c.statements = x.held.toList ∧ c.kind = x.kind ∧
      c.build = x.build ∧ c.render = x.render ∧
      (c.call .reset).kind = none ∧ (c.call .reset).render = .error .emptyStatement := by
  intro c x
  have same : c = x.container := Cell.run_container { target := t } calls
  have present : c.statements = x.held.toList := by
    rw [same, x.statements_container]
  have built : c.build = x.build := by
    rw [same, x.build_container]
  refine ⟨?_, present, ?_, built, ?_, rfl, rfl⟩
  · rw [present]
    exact Option.length_toList_le
  · rw [same, x.kind_container]
  · rw [Container.render, built, Cell.render]

-- what was assigned before the kind changed is gone
example :
    let t := Target.ofDialect .mysql
    ((Container.ofTarget t).run
      [.update fun u => (u.on "books").set "read" (.bool true),
        .select fun s => s.readFrom (.named "books"),
        .update fun u => u.on "shelves"]).render.toOption = some "UPDATE `shelves` SET" := by
  decide +kernel

end CrossDialect
