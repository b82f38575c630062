import CrossDialect.Layout

/-!
A text cut into the parts that every pass writes alike and the slots that a pass
fills with placeholders. What a pass writes for a value or a layout is what it
writes for these fragments, so all that is said about placeholders is said about
the list of slots alone.
-/

namespace CrossDialect

/-- A place for a placeholder: a value kept back for binding, or a token that was
given as text. -/
inductive Slot where
  | bound (value : Value) (column : Option String)
  | token (text : String) (column : Option String) (isToken : Placeholder.isToken text column)

inductive Fragment where
  | text (sql : String)
  | slot (s : Slot)

namespace Fragment

def slot? : Fragment → Option Slot
  | .text _ => none
  | .slot s => some s

def joined (separator : String) : List (List Fragment) → List Fragment
  | [] => []
  | [l] => l
  | l :: ls => l ++ .text separator :: joined separator ls

end Fragment

namespace Pass

def fill (t : Target) (p : Pass) : Slot → String × Pass
  | .bound value column => p.bind t value column
  | .token text column _ => p.translate t text column

def fillAll (t : Target) (p : Pass) : List Slot → List String × Pass
  | [] => ([], p)
  | s :: slots =>
      let first := p.fill t s
      let others := fillAll t first.2 slots
      (first.1 :: others.1, others.2)

def run (t : Target) (p : Pass) : List Fragment → String × Pass
  | [] => ("", p)
  | .text sql :: rest =>
      let tail := run t p rest
      (sql ++ tail.1, tail.2)
  | .slot s :: rest =>
      let first := p.fill t s
      let tail := run t first.2 rest
      (first.1 ++ tail.1, tail.2)

def runEach (t : Target) (p : Pass) : List (List Fragment) → List String × Pass
  | [] => ([], p)
  | l :: ls =>
      let first := p.run t l
      let others := runEach t first.2 ls
      (first.1 :: others.1, others.2)

theorem run_append (t : Target) (p : Pass) (before behind : List Fragment) :
    p.run t (before ++ behind) =
      ((p.run t before).1 ++ ((p.run t before).2.run t behind).1,
        ((p.run t before).2.run t behind).2) := by
  induction before generalizing p with
  | nil => simp [run]
  | cons fragment before ih =>
      cases fragment <;> simp [run, ih, String.append_assoc]

theorem run_text (t : Target) (p : Pass) (sql : String) :
    p.run t [.text sql] = (sql, p) := by
  simp [run]

theorem run_slot (t : Target) (p : Pass) (s : Slot) : p.run t [.slot s] = p.fill t s := by
  simp [run]

theorem run_joined (t : Target) (p : Pass) (separator : String) (ls : List (List Fragment)) :
    p.run t (Fragment.joined separator ls) =
      (separator.intercalate (p.runEach t ls).1, (p.runEach t ls).2) := by
  induction ls generalizing p with
  | nil => simp [Fragment.joined, run, runEach]
  | cons l ls ih =>
      cases ls with
      | nil => simp [Fragment.joined, runEach]
      | cons l' ls =>
          simp only [Fragment.joined, run_append, run, ih]
          simp [runEach, String.append_assoc]

theorem run_pass (t : Target) (p : Pass) (fragments : List Fragment) :
    (p.run t fragments).2 = (p.fillAll t (fragments.filterMap Fragment.slot?)).2 := by
  induction fragments generalizing p with
  | nil => rfl
  | cons fragment rest ih =>
      cases fragment with
      | text sql =>
          -- text does not touch the pass
          simpa [run, List.filterMap_cons, Fragment.slot?] using ih p
      | slot s =>
          simpa [run, List.filterMap_cons, Fragment.slot?, fillAll] using ih (p.fill t s).2

end Pass

namespace Fragment

def spell : List Fragment → List String → String
  | [], _ => ""
  | .text sql :: rest, marks => sql ++ spell rest marks
  | .slot _ :: rest, mark :: marks => mark ++ spell rest marks
  | .slot _ :: rest, [] => spell rest []

end Fragment

namespace Pass

theorem run_sql (t : Target) (p : Pass) (fragments : List Fragment) :
    (p.run t fragments).1 =
      Fragment.spell fragments (p.fillAll t (fragments.filterMap Fragment.slot?)).1 := by
  induction fragments generalizing p with
  | nil => rfl
  | cons fragment rest ih =>
      cases fragment with
      | text sql => simp [run, List.filterMap_cons, Fragment.slot?, Fragment.spell, ih p]
      | slot s =>
          simp [run, Fragment.slot?, fillAll, Fragment.spell, ih (p.fill t s).2]

end Pass

namespace Value

mutual

/-- The fragments of a value that belongs to a column. A value that is neither kept
back nor text nor a list is the same text in every pass. -/
def fragments (t : Target) (column : Option String) : Value → List Fragment
  | .param inner => [.slot (.bound inner column)]
  | .text s =>
      if isToken : Placeholder.isToken s column then [.slot (.token s column isToken)]
      else [.text (t.quoteString s)]
  | .list items =>
      .text "(" :: Fragment.joined ", " (itemFragments t column items) ++ [.text ")"]
  | v => [.text (({} : Pass).write t v column).1]

def itemFragments (t : Target) (column : Option String) : List Value → List (List Fragment)
  | [] => []
  | v :: vs => fragments t column v :: itemFragments t column vs

end

mutual

def slots (column : Option String) : Value → List Slot
  | .param inner => [.bound inner column]
  | .text s =>
      if isToken : Placeholder.isToken s column then [.token s column isToken] else []
  | .list items => itemSlots column items
  | _ => []

def itemSlots (column : Option String) : List Value → List Slot
  | [] => []
  | v :: vs => slots column v ++ itemSlots column vs

end

end Value

theorem Fragment.slots_joined (separator : String) (ls : List (List Fragment)) :
    (Fragment.joined separator ls).filterMap Fragment.slot? =
      ls.flatMap (·.filterMap Fragment.slot?) := by
  induction ls with
  | nil => rfl
  | cons l ls ih =>
      cases ls with
      | nil => simp [Fragment.joined]
      | cons l' ls =>
          simp only [Fragment.joined, List.filterMap_append, List.filterMap_cons, Fragment.slot?,
            ih]
          simp

mutual

theorem Value.slots_fragments (t : Target) (column : Option String) (v : Value) :
    (v.fragments t column).filterMap Fragment.slot? = v.slots column := by
  cases v with
  | param inner => rfl
  | text s =>
      simp only [Value.fragments, Value.slots]
      split <;> rfl
  | list items =>
      simp [Value.fragments, Value.slots, List.filterMap_cons, Fragment.slot?,
        Fragment.slots_joined, Value.slots_itemFragments t column items]
  | _ => rfl

theorem Value.slots_itemFragments (t : Target) (column : Option String) (vs : List Value) :
    (Value.itemFragments t column vs).flatMap (·.filterMap Fragment.slot?) =
      Value.itemSlots column vs := by
  cases vs with
  | nil => rfl
  | cons v vs =>
      simp [Value.itemFragments, Value.itemSlots, Value.slots_fragments t column v,
        Value.slots_itemFragments t column vs]

end

namespace Pass

mutual

theorem write_eq_run (t : Target) (p : Pass) (v : Value) (column : Option String) :
    p.write t v column = p.run t (v.fragments t column) := by
  cases v with
  | param inner => simp [Value.fragments, write, run_slot, fill]
  | text s =>
      simp only [Value.fragments, write]
      split
      · simp [run_slot, fill]
      · simp [run_text]
  | list items =>
      have items_eq := writeAll_eq_runEach t p items column
      simp [Value.fragments, write, run, run_append, run_joined, items_eq, String.append_assoc]
  | null | bool b | int n | float x | column name | raw sql =>
      simp [Value.fragments, write, run_text]

theorem writeAll_eq_runEach (t : Target) (p : Pass) (vs : List Value) (column : Option String) :
    p.writeAll t vs column = p.runEach t (Value.itemFragments t column vs) := by
  cases vs with
  | nil => rfl
  | cons v vs =>
      have head_eq := write_eq_run t p v column
      have tail_eq := writeAll_eq_runEach t (p.write t v column).2 vs column
      simp [Value.itemFragments, writeAll, runEach, head_eq ▸ tail_eq, head_eq]

end

end Pass

namespace Piece

def fragments (t : Target) : Piece → List Fragment
  | .text sql => [.text sql]
  | .name n => [.text (t.quoteIdentifier n)]
  | .value column v => v.fragments t column

def slots : Piece → List Slot
  | .value column v => v.slots column
  | _ => []

end Piece

namespace Layout

def fragments (t : Target) (l : Layout) : List Fragment := l.flatMap (Piece.fragments t)

def slots (l : Layout) : List Slot := l.flatMap Piece.slots

@[simp] theorem slots_nil : slots [] = [] := rfl

@[simp] theorem slots_text (sql : String) (l : Layout) : slots (.text sql :: l) = l.slots := rfl

@[simp] theorem slots_name (n : String) (l : Layout) : slots (.name n :: l) = l.slots := rfl

@[simp] theorem slots_value (column : Option String) (v : Value) (l : Layout) :
    slots (.value column v :: l) = v.slots column ++ l.slots := rfl

@[simp] theorem slots_append (before behind : Layout) :
    slots (before ++ behind) = before.slots ++ behind.slots :=
  List.flatMap_append

theorem slots_joined (separator : String) (ls : List Layout) :
    (joined separator ls).slots = ls.flatMap slots := by
  induction ls with
  | nil => rfl
  | cons l ls ih =>
      cases ls with
      | nil => simp [joined]
      | cons l' ls => simp [joined, ih]

@[simp] theorem slots_names (ns : List String) : (names ns).slots = [] := by
  simp [names, slots_joined, List.flatMap_map, name]

@[simp] theorem slots_clause (word : String) (l : Layout) : (clause word l).slots = l.slots := by
  cases l <;> simp [clause]

theorem slots_fragments (t : Target) (l : Layout) :
    (l.fragments t).filterMap Fragment.slot? = l.slots := by
  induction l with
  | nil => rfl
  | cons piece rest ih =>
      have piece_eq : (piece.fragments t).filterMap Fragment.slot? = piece.slots := by
        cases piece with
        | value column v => exact Value.slots_fragments t column v
        | _ => rfl
      simpa [fragments, slots, piece_eq] using ih

theorem write_eq_run (t : Target) (p : Pass) (l : Layout) :
    l.write t p = p.run t (l.fragments t) := by
  induction l generalizing p with
  | nil => rfl
  | cons piece rest ih =>
      have piece_eq : piece.write t p = p.run t (piece.fragments t) := by
        cases piece with
        | value column v => exact Pass.write_eq_run t p v column
        | _ => simp [Piece.write, Piece.fragments, Pass.run_text]
      simp only [fragments, List.flatMap_cons, Pass.run_append] at ih ⊢
      simp [write, piece_eq, ih]

theorem write_append (t : Target) (p : Pass) (before behind : Layout) :
    (before ++ behind).write t p =
      ((before.write t p).1 ++ (behind.write t (before.write t p).2).1,
        (behind.write t (before.write t p).2).2) := by
  simp only [write_eq_run, fragments, List.flatMap_append, Pass.run_append]

theorem write_parenthesized (t : Target) (p : Pass) (l : Layout) :
    l.parenthesized.write t p = ("(" ++ (l.write t p).1 ++ ")", (l.write t p).2) := by
  simp [Layout.parenthesized, write, write_append, Piece.write, String.append_assoc]

end Layout

end CrossDialect
