import CrossDialect.Proofs.Placeholders.Slots
import Mathlib.Data.List.Basic

/-!
The values of a text that are kept back for binding, and the same text with a mark
in the place of each of them. Where no token is among the slots, a pass puts its
placeholders exactly where the marks stand.
-/

namespace CrossDialect

namespace Value

mutual

/-- The values kept back, in the order of the text. What stands inside such a value
is kept back with it. -/
def leaves : Value → List Value
  | .param inner => [inner]
  | .list items => itemLeaves items
  | _ => []

def itemLeaves : List Value → List Value
  | [] => []
  | v :: vs => leaves v ++ itemLeaves vs

end

mutual

def inlineTexts : Value → List String
  | .text s => [s]
  | .list items => itemTexts items
  | _ => []

def itemTexts : List Value → List String
  | [] => []
  | v :: vs => inlineTexts v ++ itemTexts vs

end

mutual

/-- Puts the SQL text `f i` in the place of the leaf with the number `i`, where `n`
leaves stand before the value and the first leaf of all has the number one. -/
def mark (f : Nat → String) (n : Nat) : Value → Value
  | .param _ => .raw (f (n + 1))
  | .list items => .list (markItems f n items)
  | v => v

def markItems (f : Nat → String) (n : Nat) : List Value → List Value
  | [] => []
  | v :: vs => mark f n v :: markItems f (n + v.leaves.length) vs

end

end Value

namespace Slot

def value? : Slot → Option Value
  | .bound v _ => some v
  | .token .. => none

end Slot

mutual

theorem Value.values_slots (column : Option String) (v : Value) :
    (v.slots column).filterMap Slot.value? = v.leaves := by
  cases v with
  | param inner => rfl
  | text s =>
      simp only [Value.slots, Value.leaves]
      split <;> rfl
  | list items => exact Value.values_itemSlots column items
  | _ => rfl

theorem Value.values_itemSlots (column : Option String) (vs : List Value) :
    (Value.itemSlots column vs).filterMap Slot.value? = Value.itemLeaves vs := by
  cases vs with
  | nil => rfl
  | cons v vs =>
      simp [Value.itemSlots, Value.itemLeaves, Value.values_slots column v,
        Value.values_itemSlots column vs]

end

mutual

theorem Value.slots_bound (column : Option String) (v : Value)
    (plain : ∀ s ∈ v.inlineTexts, Placeholder.isToken s column = false) :
    ∀ s ∈ v.slots column, s.value?.isSome := by
  cases v with
  | param inner => simp [Value.slots, Slot.value?]
  | text s => simp [Value.slots, plain s (by simp [Value.inlineTexts])]
  | list items => exact Value.itemSlots_bound column items plain
  | _ => simp [Value.slots]

theorem Value.itemSlots_bound (column : Option String) (vs : List Value)
    (plain : ∀ s ∈ Value.itemTexts vs, Placeholder.isToken s column = false) :
    ∀ s ∈ Value.itemSlots column vs, s.value?.isSome := by
  cases vs with
  | nil => simp [Value.itemSlots]
  | cons v vs =>
      simp only [Value.itemTexts, List.mem_append] at plain
      intro s member
      rcases List.mem_append.1 member with head | tail
      · exact Value.slots_bound column v (fun s inside => plain s (.inl inside)) s head
      · exact Value.itemSlots_bound column vs (fun s inside => plain s (.inr inside)) s tail

end

namespace Fragment

def leafCount (fragments : List Fragment) : Nat :=
  ((fragments.filterMap slot?).filterMap Slot.value?).length

def mark (f : Nat → String) (n : Nat) : List Fragment → List Fragment
  | [] => []
  | .slot (.bound ..) :: rest => .text (f (n + 1)) :: mark f (n + 1) rest
  | fragment :: rest => fragment :: mark f n rest

def markEach (f : Nat → String) (n : Nat) : List (List Fragment) → List (List Fragment)
  | [] => []
  | l :: ls => mark f n l :: markEach f (n + leafCount l) ls

theorem mark_append (f : Nat → String) (n : Nat) (before behind : List Fragment) :
    mark f n (before ++ behind) = mark f n before ++ mark f (n + leafCount before) behind := by
  induction before generalizing n with
  | nil => rfl
  | cons fragment rest ih =>
      -- only a value that is kept back counts as a leaf
      rcases fragment with sql | ⟨v, column⟩ | _
      · simp [mark, ih, leafCount, List.filterMap_cons, slot?]
      · simp [mark, ih, leafCount, slot?, Slot.value?, Nat.add_assoc, Nat.add_comm 1]
      · simp [mark, ih, leafCount, List.filterMap_cons, slot?, Slot.value?]

theorem mark_joined (f : Nat → String) (n : Nat) (separator : String) (ls : List (List Fragment)) :
    mark f n (joined separator ls) = joined separator (markEach f n ls) := by
  induction ls generalizing n with
  | nil => rfl
  | cons l ls ih =>
      cases ls with
      | nil => rfl
      | cons l' ls => simp [joined, mark_append, mark, ih, markEach]

end Fragment

mutual

theorem Value.fragments_mark (t : Target) (column : Option String) (f : Nat → String) (n : Nat)
    (v : Value) :
    (v.mark f n).fragments t column = Fragment.mark f n (v.fragments t column) := by
  cases v with
  | param inner => simp [Value.mark, Value.fragments, Fragment.mark, Pass.write]
  | text s =>
      simp only [Value.mark, Value.fragments]
      split <;> rfl
  | list items =>
      simp [Value.mark, Value.fragments, Fragment.mark, Fragment.mark_append, Fragment.mark_joined,
        Value.itemFragments_mark t column f n items]
  | _ => rfl

theorem Value.itemFragments_mark (t : Target) (column : Option String) (f : Nat → String) (n : Nat)
    (vs : List Value) :
    Value.itemFragments t column (Value.markItems f n vs) =
      Fragment.markEach f n (Value.itemFragments t column vs) := by
  cases vs with
  | nil => rfl
  | cons v vs =>
      have count : Fragment.leafCount (v.fragments t column) = v.leaves.length := by
        rw [Fragment.leafCount, Value.slots_fragments, Value.values_slots]
      simp [Value.markItems, Value.itemFragments, Fragment.markEach, count,
        Value.fragments_mark t column f n v,
        Value.itemFragments_mark t column f (n + v.leaves.length) vs]

end

namespace Pass

theorem params_next (p : Pass) (style : PlaceholderStyle) (column : Option String) :
    (p.next style column).2.params = p.params := by
  cases style <;> rfl

theorem params_note (p : Pass) (style : PlaceholderStyle) (token : String) :
    (p.note style token).params = p.params := by
  cases style with
  | numbered =>
      simp only [note]
      split <;> rfl
  | _ => rfl

theorem params_translate (t : Target) (p : Pass) (token : String) (column : Option String) :
    (p.translate t token column).2.params = p.params := by
  simp only [translate]
  split
  · rfl
  · split
    · exact params_note _ _ _
    · exact params_next _ _ _

/-- Values are kept back in the order of the slots; tokens keep nothing back. -/
theorem params_fillAll (t : Target) (p : Pass) (slots : List Slot) :
    (p.fillAll t slots).2.params = p.params ++ slots.filterMap Slot.value? := by
  induction slots generalizing p with
  | nil => simp [fillAll]
  | cons s slots ih =>
      cases s with
      | bound v column => simp [fillAll, fill, bind, ih, params_next, Slot.value?]
      | token text column isToken =>
          simp [fillAll, fill, ih, params_translate, List.filterMap_cons, Slot.value?]

variable {t : Target} {slots : List Slot}

theorem fillAll_positional (positional : t.profile.placeholder = .positional) (p : Pass)
    (bound : ∀ s ∈ slots, s.value?.isSome) (n : Nat) :
    (p.fillAll t slots).1 = (List.range' n slots.length).map fun _ => "?" := by
  induction slots generalizing p n with
  | nil => rfl
  | cons s slots ih =>
      -- a token would be rewritten or kept as it stands, so all slots must be bound
      have rest := fun p n => ih p (fun s member => bound s (List.mem_cons_of_mem _ member)) n
      cases s with
      | bound v column =>
          simp [fillAll, fill, bind, next, positional, rest _ (n + 1), List.range'_succ]
      | token text column isToken => simpa [Slot.value?] using bound _ List.mem_cons_self

/-- The numbers of bound values go on from the counter without a gap. -/
theorem fillAll_numbered (numbered : t.profile.placeholder = .numbered) (p : Pass)
    (bound : ∀ s ∈ slots, s.value?.isSome) :
    (p.fillAll t slots).1 =
      (List.range' (p.counter + 1) slots.length).map fun i => "$" ++ Nat.repr i := by
  induction slots generalizing p with
  | nil => rfl
  | cons s slots ih =>
      have rest := fun p => ih p (fun s member => bound s (List.mem_cons_of_mem _ member))
      cases s with
      | bound v column => simp [fillAll, fill, bind, next, numbered, rest, List.range'_succ]
      | token text column isToken => simpa [Slot.value?] using bound _ List.mem_cons_self

end Pass

theorem Fragment.run_mark (t : Target) (p : Pass) (f : Nat → String) (n : Nat)
    (fragments : List Fragment) (bound : ∀ s ∈ fragments.filterMap slot?, s.value?.isSome) :
    p.run t (mark f n fragments) =
      (spell fragments ((List.range' (n + 1) (fragments.filterMap slot?).length).map f), p) := by
  induction fragments generalizing n with
  | nil => rfl
  | cons fragment rest ih =>
      rcases fragment with sql | ⟨v, column⟩ | _
      · have kept := ih n (by simpa [List.filterMap_cons, slot?] using bound)
        simp [mark, Pass.run, spell, List.filterMap_cons, slot?, kept]
      · have kept := ih (n + 1) fun s member => bound s (by simp_all [slot?])
        simp [mark, Pass.run, spell, slot?, kept, List.range'_succ]
      · simp [slot?, Slot.value?] at bound

namespace Piece

def leaves : Piece → List Value
  | .value _ v => v.leaves
  | _ => []

def mark (f : Nat → String) (n : Nat) : Piece → Piece
  | .value column v => .value column (v.mark f n)
  | piece => piece

end Piece

namespace Layout

def leaves (l : Layout) : List Value := l.flatMap Piece.leaves

def mark (f : Nat → String) (n : Nat) : Layout → Layout
  | [] => []
  | piece :: rest => piece.mark f n :: mark f (n + piece.leaves.length) rest

theorem values_slots (l : Layout) : l.slots.filterMap Slot.value? = l.leaves := by
  have piece_eq (piece : Piece) : piece.slots.filterMap Slot.value? = piece.leaves := by
    cases piece with
    | value column v => exact Value.values_slots column v
    | _ => rfl
  simp [slots, leaves, List.filterMap_flatMap, piece_eq]

theorem leaves_of_no_slot {l : Layout} (none : l.slots = []) : l.leaves = [] := by
  rw [← values_slots, none]; rfl

@[simp] theorem leaves_nil : leaves [] = [] := rfl

@[simp] theorem leaves_text (sql : String) (l : Layout) : leaves (.text sql :: l) = l.leaves := rfl

@[simp] theorem leaves_value (column : Option String) (v : Value) (l : Layout) :
    leaves (.value column v :: l) = v.leaves ++ l.leaves := rfl

@[simp] theorem leaves_append (before behind : Layout) :
    leaves (before ++ behind) = before.leaves ++ behind.leaves :=
  List.flatMap_append

section Mark

variable (f : Nat → String) (n : Nat)

@[simp] theorem mark_nil : mark f n [] = [] := rfl

@[simp] theorem mark_text (sql : String) (l : Layout) :
    mark f n (.text sql :: l) = .text sql :: l.mark f n := rfl

@[simp] theorem mark_name (name : String) (l : Layout) :
    mark f n (.name name :: l) = .name name :: l.mark f n := rfl

@[simp] theorem mark_value (column : Option String) (v : Value) (l : Layout) :
    mark f n (.value column v :: l) =
      .value column (v.mark f n) :: l.mark f (n + v.leaves.length) := rfl

@[simp] theorem mark_append (before behind : Layout) :
    mark f n (before ++ behind) = before.mark f n ++ behind.mark f (n + before.leaves.length) := by
  induction before generalizing n with
  | nil => rfl
  | cons piece rest ih => simp [mark, ih, leaves, Nat.add_assoc]

@[simp] theorem mark_clause (word : String) (l : Layout) :
    mark f n (clause word l) = clause word (l.mark f n) := by
  cases l <;> simp [clause, mark]

end Mark

theorem fragments_mark (t : Target) (f : Nat → String) (n : Nat) (l : Layout) :
    (l.mark f n).fragments t = Fragment.mark f n (l.fragments t) := by
  induction l generalizing n with
  | nil => rfl
  | cons piece rest ih =>
      have piece_eq : (piece.mark f n).fragments t = Fragment.mark f n (piece.fragments t) := by
        cases piece with
        | value column v => exact Value.fragments_mark t column f n v
        | _ => rfl
      have count : Fragment.leafCount (piece.fragments t) = piece.leaves.length := by
        cases piece with
        | value column v =>
            simp [Fragment.leafCount, Piece.fragments, Piece.leaves, Value.slots_fragments,
              Value.values_slots]
        | _ => rfl
      simp only [fragments] at ih
      simp [mark, fragments, Fragment.mark_append, piece_eq, count, ih]

end Layout

mutual

theorem Value.mark_of_no_leaf (f : Nat → String) (n : Nat) (v : Value) (none : v.leaves = []) :
    v.mark f n = v := by
  cases v with
  | param inner => simp [Value.leaves] at none
  | list items => simp [Value.mark, Value.markItems_of_no_leaf f n items none]
  | _ => rfl

theorem Value.markItems_of_no_leaf (f : Nat → String) (n : Nat) (vs : List Value)
    (none : Value.itemLeaves vs = []) : Value.markItems f n vs = vs := by
  cases vs with
  | nil => rfl
  | cons v vs =>
      rcases List.append_eq_nil_iff.1 none with ⟨head, tail⟩
      simp [Value.markItems, Value.mark_of_no_leaf f n v head,
        Value.markItems_of_no_leaf f (n + v.leaves.length) vs tail]

end

theorem Layout.mark_of_no_leaf (f : Nat → String) (n : Nat) (l : Layout) (none : l.leaves = []) :
    l.mark f n = l := by
  induction l generalizing n with
  | nil => rfl
  | cons piece rest ih =>
      rcases List.append_eq_nil_iff.1 none with ⟨head, tail⟩
      have piece_eq : piece.mark f n = piece := by
        cases piece with
        | value column v => simp [Piece.mark, Value.mark_of_no_leaf f n v head]
        | _ => rfl
      simp [mark, piece_eq, ih _ tail]

namespace Layout

theorem mark_of_no_slot (f : Nat → String) (n : Nat) {l : Layout} (none : l.slots = []) :
    l.mark f n = l :=
  mark_of_no_leaf f n l (leaves_of_no_slot none)

def spell (t : Target) (l : Layout) (f : Nat → String) : String :=
  Fragment.spell (l.fragments t) ((List.range' 1 l.leaves.length).map f)

theorem build_eq (t : Target) (l : Layout) :
    l.build t =
      ⟨Fragment.spell (l.fragments t) (({} : Pass).fillAll t l.slots).1, l.leaves⟩ := by
  have sql := Pass.run_sql t {} (l.fragments t)
  have pass := Pass.run_pass t {} (l.fragments t)
  rw [slots_fragments, ← write_eq_run] at sql pass
  simp [build, sql, pass, Pass.params_fillAll, values_slots]

section Bound

variable {t : Target} {l : Layout} (bound : ∀ s ∈ l.slots, s.value?.isSome)
include bound

theorem length_slots : l.slots.length = l.leaves.length := by
  rw [← values_slots]
  generalize l.slots = slots at bound
  induction slots with
  | nil => rfl
  | cons s slots ih =>
      rcases Option.isSome_iff_exists.1 (bound s List.mem_cons_self) with ⟨v, value⟩
      simp [value, ih fun s member => bound s (List.mem_cons_of_mem _ member)]

theorem build_mark (f : Nat → String) : (l.mark f 0).build t = ⟨l.spell t f, []⟩ := by
  -- with marks in its slots a layout is text alone, and the pass stays as it was
  have texts := Fragment.run_mark t {} f 0 (l.fragments t) (by rwa [slots_fragments])
  rw [slots_fragments, length_slots bound, ← fragments_mark, ← write_eq_run] at texts
  simp [build, texts, spell]

theorem sql_positional (positional : t.profile.placeholder = .positional) :
    (l.build t).sql = l.spell t fun _ => "?" := by
  simp [build_eq, Pass.fillAll_positional positional {} bound 1, length_slots bound, spell]

theorem sql_numbered (numbered : t.profile.placeholder = .numbered) :
    (l.build t).sql = l.spell t fun i => "$" ++ Nat.repr i := by
  simp [build_eq, Pass.fillAll_numbered numbered {} bound, length_slots bound, spell]

end Bound

end Layout

end CrossDialect
