import CrossDialect.Proofs.Quoting.Names
import CrossDialect.Statement.Select
import Mathlib.Data.List.Infix

/-!
The order of a query, given in one text or item by item. The text is cut at the commas that
stand outside parentheses, blanks around a piece fall away, and a direction word at its end
is taken off. A column that keeps its commas in parentheses and ends in no such word is not
cut, so a list of columns with their directions says what the single calls say.
-/

namespace CrossDialect

open Text

namespace OrderItem

/-! The cuts -/

/-- A text that closes no more parentheses than there are, with `depth` of them open in front of
it and `final` behind it, and without a comma outside of them. -/
inductive Nested : Nat → List Char → Nat → Prop where
  | nil {depth : Nat} : Nested depth [] depth
  | opening {depth final : Nat} {s : List Char} :
      Nested (depth + 1) s final → Nested depth ('(' :: s) final
  | closing {depth final : Nat} {s : List Char} :
      Nested depth s final → Nested (depth + 1) (')' :: s) final
  | other {depth final : Nat} {c : Char} {s : List Char} (opens : c ≠ '(') (closes : c ≠ ')')
      (inside : c = ',' → 0 < depth) : Nested depth s final → Nested depth (c :: s) final

theorem Nested.append {depth middle final : Nat} {s t : List Char} (first : Nested depth s middle)
    (second : Nested middle t final) : Nested depth (s ++ t) final := by
  induction first with
  | nil => exact second
  | opening _ ih => exact .opening (ih second)
  | closing _ ih => exact .closing (ih second)
  | other opens closes inside _ ih => exact .other opens closes inside (ih second)

theorem nested_plain {s : List Char} (plain : ∀ c ∈ s, c ≠ '(' ∧ c ≠ ')' ∧ c ≠ ',')
    (depth : Nat) : Nested depth s depth := by
  induction s with
  | nil => exact .nil
  | cons c s ih =>
      rcases plain c (by simp) with ⟨opens, closes, comma⟩
      have rest := ih fun d later => plain d (List.mem_cons_of_mem c later)
      exact .other opens closes (fun same => absurd same comma) rest

theorem plain_of_isBlank {c : Char} (blank : isBlank c = true) : c ≠ '(' ∧ c ≠ ')' ∧ c ≠ ',' := by
  refine ⟨?_, ?_, ?_⟩
  all_goals
    rintro rfl
    exact absurd blank (by decide)

theorem nested_of_prefixes {s : List Char} (depth : Nat)
    (inOrder : ∀ p, p <+: s → p.count ')' ≤ depth + p.count '(')
    (inside : ∀ p, p ++ [','] <+: s → p.count ')' < depth + p.count '(') :
    Nested depth s (depth + s.count '(' - s.count ')') := by
  induction s generalizing depth with
  | nil => exact .nil
  | cons c s ih =>
      have inOrder' (p : List Char) (front : p <+: s) := inOrder (c :: p) (by simpa using front)
      have inside' (p : List Char) (front : p ++ [','] <+: s) :=
        inside (c :: p) (by simpa using front)
      simp only [List.count_cons] at inOrder' inside' ⊢
      by_cases opens : c = '('
      · subst opens
        have rest := ih (depth + 1)
          (fun p front => by have counted := inOrder' p front; simp at counted; omega)
          (fun p front => by have counted := inside' p front; simp at counted; omega)
        have final : depth + (s.count '(' + 1) - s.count ')' =
            depth + 1 + s.count '(' - s.count ')' := by omega
        simpa [final] using Nested.opening rest
      by_cases closes : c = ')'
      · subst closes
        have one := inOrder [')'] (by simp)
        obtain ⟨outer, rfl⟩ : ∃ outer, depth = outer + 1 := by
          simp at one
          exact ⟨depth - 1, by omega⟩
        have rest := ih outer
          (fun p front => by have counted := inOrder' p front; simp at counted; omega)
          (fun p front => by have counted := inside' p front; simp at counted; omega)
        have final : outer + 1 + s.count '(' - (s.count ')' + 1) =
            outer + s.count '(' - s.count ')' := by omega
        simpa [final] using Nested.closing rest
      · have rest := ih depth
          (fun p front => by simpa [opens, closes] using inOrder' p front)
          (fun p front => by simpa [opens, closes] using inside' p front)
        have comma : c = ',' → 0 < depth := by
          rintro rfl
          simpa using inside [] (by simp)
        simpa [opens, closes] using Nested.other opens closes comma rest

theorem splitOutside_ne_nil (depth : Nat) (s : List Char) : splitOutside depth s ≠ [] := by
  cases s with
  | nil => simp [splitOutside]
  | cons c s =>
      simp only [splitOutside]
      split
      · simp
      · split <;> simp

theorem splitOutside_kept {depth : Nat} {c : Char} (kept : ¬ (c = ',' ∧ depth = 0))
    (s : List Char) :
    splitOutside depth (c :: s) =
      (splitOutside (if c = '(' then depth + 1 else if c = ')' then depth - 1 else depth) s).modifyHead
        (c :: ·) := by
  simp only [splitOutside, if_neg kept]
  split
  · rename_i none
    exact absurd none (splitOutside_ne_nil _ s)
  · rename_i piece pieces found
    rw [found, List.modifyHead_cons]

theorem splitOutside_nested {depth final : Nat} {s : List Char} (nested : Nested depth s final)
    (rest : List Char) :
    splitOutside depth (s ++ rest) = (splitOutside final rest).modifyHead (s ++ ·) := by
  induction nested with
  | nil => exact (congrFun List.modifyHead_id _).symm
  | opening _ ih =>
      rw [List.cons_append, splitOutside_kept (by simp), if_pos rfl, ih, List.modifyHead_modifyHead]
      rfl
  | closing _ ih =>
      rw [List.cons_append, splitOutside_kept (by simp), if_neg (by decide), if_pos rfl,
        Nat.add_sub_cancel, ih, List.modifyHead_modifyHead]
      rfl
  | @other depth final c s opens closes inside _ ih =>
      have kept : ¬ (c = ',' ∧ depth = 0) := by
        rintro ⟨comma, outside⟩
        exact absurd outside (Nat.ne_of_gt (inside comma))
      rw [List.cons_append, splitOutside_kept kept, if_neg opens, if_neg closes, ih,
        List.modifyHead_modifyHead]
      rfl

/-- Texts with commas between them are cut there and nowhere else. -/
theorem splitOutside_commas {texts : List (List Char)} (present : texts ≠ [])
    (nested : ∀ t ∈ texts, Nested 0 t 0) : splitOutside 0 ([','].intercalate texts) = texts := by
  induction texts with
  | nil => exact absurd rfl present
  | cons t texts ih =>
      have first := splitOutside_nested (nested t (by simp))
      cases texts with
      | nil =>
          have whole := first []
          simpa [splitOutside, List.intercalate] using whole
      | cons t' texts =>
          have others := ih (by simp) fun u later => nested u (List.mem_cons_of_mem t later)
          have joined : [','].intercalate (t :: t' :: texts) =
              t ++ ',' :: [','].intercalate (t' :: texts) := by
            simp [List.intercalate]
          rw [joined, first, splitOutside, if_pos ⟨rfl, rfl⟩, others]
          simp

/-! The directions -/

theorem beforeWord?_folds {word text : List Char} (folds : Folds word text) (s : List Char) :
    beforeWord? word (s ++ ' ' :: text) = some s := by
  have reversed : Folds (' ' :: word).reverse (' ' :: text).reverse := by
    rw [Folds, List.map_reverse, List.map_reverse, List.map_cons, List.map_cons, folds]
  have taken := afterFolded?_folds reversed s.reverse
  rw [← List.reverse_append] at taken
  rw [beforeWord?, taken, Option.map_some, List.reverse_reverse]

theorem of_beforeWord? {word s front : List Char} (taken : beforeWord? word s = some front) :
    ∃ text, Folds word text ∧ s = front ++ ' ' :: text := by
  rcases Option.map_eq_some_iff.1 taken with ⟨rest, found, rfl⟩
  rcases of_afterFolded? found with ⟨behind, folds, split⟩
  have folds : Folds (' ' :: word) behind.reverse := by
    have turned := congrArg List.reverse folds
    rwa [← List.map_reverse, ← List.map_reverse, List.reverse_reverse] at turned
  have chars : s = rest.reverse ++ behind.reverse := by
    rw [← List.reverse_append, ← split, List.reverse_reverse]
  cases text : behind.reverse with
  | nil => simp [text, Folds] at folds
  | cons c text' =>
      rw [text, Folds, List.map_cons, List.map_cons, List.cons.injEq] at folds
      obtain rfl := eq_space_of_toUpper folds.1
      exact ⟨text', folds.2, by rw [chars, text]⟩

theorem beforeWord?_eq_none_iff {word s : List Char} : beforeWord? word s = none ↔
    ∀ front text, s = front ++ ' ' :: text → ¬ Folds word text := by
  constructor
  · rintro none front text rfl folds
    rw [beforeWord?_folds folds] at none
    exact Option.some_ne_none front none
  · intro apart
    cases found : beforeWord? word s with
    | none => rfl
    | some front =>
        rcases of_beforeWord? found with ⟨text, folds, split⟩
        exact absurd folds (apart front text split)

theorem beforeWord?_descending {word : List Char} (folds : Folds "ASC".toList word)
    (s : List Char) : beforeWord? "DESC".toList (s ++ ' ' :: word) = none := by
  cases found : beforeWord? "DESC".toList (s ++ ' ' :: word) with
  | none => rfl
  | some front =>
      rcases of_beforeWord? found with ⟨text, folds', same⟩
      have length := congrArg List.length folds
      have length' := congrArg List.length folds'
      simp only [List.length_map] at length length'
      -- the longer word would begin with the space in front of the shorter one
      have ends : text = ' ' :: word := by
        have whole : s ++ ' ' :: word = (front ++ [' ']) ++ text := by simpa using same
        refine ((List.append_inj' whole ?_).2).symm
        rw [List.length_cons, length, length']
        rfl
      subst ends
      simp [Folds] at folds'

/-- A column as it may stand in a list: it opens and closes parentheses in order, keeps commas
inside of them and does not end like a direction. -/
structure IsColumn (s : List Char) : Prop where
  present : s ≠ []
  trimmed : trim s = s
  inOrder : ∀ p, p <+: s → p.count ')' ≤ p.count '('
  closed : s.count '(' = s.count ')'
  inside : ∀ p, p ++ [','] <+: s → p.count ')' < p.count '('
  undirected : ∀ (d : Direction) (front word : List Char), s = front ++ ' ' :: word →
    ¬ Folds d.sql.toList word

theorem isColumn_iff {s : List Char} : IsColumn s ↔ s ≠ [] ∧ trim s = s ∧
    (∀ p ∈ s.inits, p.count ')' ≤ p.count '(') ∧ s.count '(' = s.count ')' ∧
    (∀ p ∈ s.inits, p ++ [','] <+: s → p.count ')' < p.count '(') ∧
    ∀ d ∈ [Direction.ascending, .descending], beforeWord? d.sql.toList s = none := by
  constructor
  · intro column
    exact ⟨column.present, column.trimmed,
      fun p front => column.inOrder p ((List.mem_inits p s).1 front), column.closed,
      fun p _ front => column.inside p front,
      fun d _ => beforeWord?_eq_none_iff.2 (column.undirected d)⟩
  · rintro ⟨present, trimmed, inOrder, closed, inside, undirected⟩
    refine ⟨present, trimmed, fun p front => inOrder p ((List.mem_inits p s).2 front), closed,
      fun p front => ?_, fun d => beforeWord?_eq_none_iff.1 (undirected d ?_)⟩
    · exact inside p ((List.mem_inits p s).2 ((List.prefix_append p [',']).trans front)) front
    · cases d <;> simp

instance (s : List Char) : Decidable (IsColumn s) := decidable_of_iff _ isColumn_iff.symm

namespace IsColumn

variable {s : List Char} (column : IsColumn s)

include column

theorem nested : Nested 0 s 0 := by
  have whole := nested_of_prefixes 0
    (fun p front => by simpa using column.inOrder p front)
    (fun p front => by simpa using column.inside p front)
  rwa [column.closed, Nat.zero_add, Nat.sub_self] at whole

theorem stopsAt : StopsAt isBlank s := by
  cases s with
  | nil => exact stopsAt_nil _
  | cons c s =>
      rw [stopsAt_cons]
      cases blank : isBlank c with
      | false => rfl
      | true =>
          have shorter := congrArg List.length column.trimmed
          have skipped : trimStart (c :: s) = trimStart s := by
            rw [trimStart, List.dropWhile_cons_of_pos blank, trimStart]
          have bound := length_trimEnd_le (trimStart s)
          have bound' := length_trimStart_le s
          rw [trim, skipped, List.length_cons] at shorter
          omega

theorem stopsAt_reverse : StopsAt isBlank s.reverse := by
  have ends := stopsAt_dropWhile isBlank (trimStart s).reverse
  have trimmed := column.trimmed
  rw [trim, trimEnd] at trimmed
  rwa [← trimmed, List.reverse_reverse]

theorem ofChars_eq : ofChars s = ⟨String.ofList s, none⟩ := by
  have descending := beforeWord?_eq_none_iff.2 (column.undirected .descending)
  have ascending := beforeWord?_eq_none_iff.2 (column.undirected .ascending)
  simp only [Direction.sql] at descending ascending
  simp only [ofChars, descending, ascending]

theorem ofChars_directed {d : Direction} {word : List Char} (folds : Folds d.sql.toList word)
    (extra : Nat) :
    ofChars (s ++ List.replicate extra ' ' ++ ' ' :: word) = ⟨String.ofList s, some d⟩ := by
  have spaces : trim (s ++ List.replicate extra ' ') = s := by
    have blank : ∀ c ∈ List.replicate extra ' ', isBlank c = true := by
      intro c member
      rw [List.eq_of_mem_replicate member]
      decide
    have whole : trim ([] ++ s ++ List.replicate extra ' ') = s :=
      trim_between column.present (by simp) blank column.stopsAt column.stopsAt_reverse
    rwa [List.nil_append] at whole
  have found := beforeWord?_folds folds (s ++ List.replicate extra ' ')
  cases d with
  | descending =>
      simp only [Direction.sql] at found
      simp only [ofChars, found, spaces]
  | ascending =>
      have other := beforeWord?_descending folds (s ++ List.replicate extra ' ')
      simp only [Direction.sql] at found
      simp only [ofChars, found, other, spaces]

end IsColumn

/-! The list -/

/-- An item as it is written in a list: with blanks on both sides and, if it has a direction,
with the word for it in some case behind one space or more. -/
structure Listed where
  item : OrderItem
  word : List Char := []
  extraSpaces : Nat := 0
  before : List Char := []
  after : List Char := []

namespace Listed

def core (x : Listed) : List Char :=
  match x.item.direction with
  | some _ => x.item.column.toList ++ List.replicate x.extraSpaces ' ' ++ ' ' :: x.word
  | none => x.item.column.toList

def text (x : Listed) : List Char := x.before ++ x.core ++ x.after

structure Fits (x : Listed) : Prop where
  column : IsColumn x.item.column.toList
  word : ∀ d ∈ x.item.direction, Folds d.sql.toList x.word
  before : ∀ c ∈ x.before, isBlank c = true
  after : ∀ c ∈ x.after, isBlank c = true

def clause (xs : List Listed) : String := String.ofList ([','].intercalate (xs.map text))

namespace Fits

variable {x : Listed} (fits : x.Fits)

include fits

theorem word_starts {d : Direction} (directed : x.item.direction = some d) :
    ∀ c ∈ x.word, isWordStart c = true := by
  refine (fits.word d (by simp [directed])).starts (List.all_eq_true.1 ?_)
  cases d <;> rfl

theorem nested : Nested 0 x.text 0 := by
  have column := fits.column.nested
  have core : Nested 0 x.core 0 := by
    rw [Listed.core]
    cases directed : x.item.direction with
    | none => exact column
    | some d =>
        have spaces : Nested 0 (List.replicate x.extraSpaces ' ') 0 := by
          refine nested_plain (fun c member => ?_) 0
          rw [List.eq_of_mem_replicate member]
          decide
        have word : Nested 0 x.word 0 := by
          refine nested_plain (fun c member => ?_) 0
          have start := fits.word_starts directed c member
          exact ⟨ne_of_isWordStart start (by decide), ne_of_isWordStart start (by decide),
            ne_of_isWordStart start (by decide)⟩
        exact (column.append spaces).append (.other (by decide) (by decide) (by simp) word)
  have before := nested_plain (fun c member => plain_of_isBlank (fits.before c member)) 0
  have after := nested_plain (fun c member => plain_of_isBlank (fits.after c member)) 0
  exact (before.append core).append after

theorem core_ne_nil : x.core ≠ [] := by
  rw [Listed.core]
  cases x.item.direction with
  | none => exact fits.column.present
  | some _ => simp

theorem stopsAt_core : StopsAt isBlank x.core := by
  rw [Listed.core]
  cases x.item.direction with
  | none => exact fits.column.stopsAt
  | some _ =>
      rw [List.append_assoc]
      exact fits.column.stopsAt.append_of_ne_nil fits.column.present

theorem stopsAt_core_reverse : StopsAt isBlank x.core.reverse := by
  rw [Listed.core]
  cases directed : x.item.direction with
  | none => exact fits.column.stopsAt_reverse
  | some d =>
      have word : x.word ≠ [] := by
        intro none
        have folds := fits.word d (by simp [directed])
        rw [none] at folds
        cases d <;> simp [Folds, Direction.sql] at folds
      have visible : StopsAt isBlank x.word.reverse := by
        intro c last
        have member := List.mem_reverse.1 (List.mem_of_mem_head? last)
        have start := fits.word_starts directed c member
        exact isBlank_of_isNameChar (isNameChar_of_isWordStart start)
      rw [List.reverse_append, List.reverse_cons, List.append_assoc]
      exact visible.append_of_ne_nil (by simpa using word)

theorem trim_eq : trim x.text = x.core :=
  trim_between fits.core_ne_nil fits.before fits.after fits.stopsAt_core fits.stopsAt_core_reverse

theorem ofChars_core : ofChars x.core = x.item := by
  rw [Listed.core]
  rcases item : x.item with ⟨column, direction⟩
  have fitting := fits.column
  rw [item] at fitting
  cases direction with
  | none => rw [fitting.ofChars_eq, String.ofList_toList]
  | some d =>
      have folds : Folds d.sql.toList x.word := fits.word d (by simp [item])
      rw [fitting.ofChars_directed folds, String.ofList_toList]

end Fits

theorem ofText_clause {xs : List Listed} (fit : ∀ x ∈ xs, x.Fits) :
    ofText (clause xs) = xs.map item := by
  by_cases empty : xs = []
  · subst empty
    rfl
  have nested : ∀ t ∈ xs.map text, Nested 0 t 0 := by
    intro t member
    rcases List.mem_map.1 member with ⟨x, listed, rfl⟩
    exact (fit x listed).nested
  have pieces : (splitOutside 0 (clause xs).toList).map trim = xs.map core := by
    rw [clause, String.toList_ofList, splitOutside_commas (by simpa using empty) nested,
      List.map_map]
    exact List.map_congr_left fun x listed => (fit x listed).trim_eq
  have kept : (xs.map core).filter (!·.isEmpty) = xs.map core := by
    rw [List.filter_eq_self]
    intro piece member
    rcases List.mem_map.1 member with ⟨x, listed, rfl⟩
    simpa using (fit x listed).core_ne_nil
  rw [ofText, pieces, kept, List.map_map]
  exact List.map_congr_left fun x listed => (fit x listed).ofChars_core

theorem ofText_text {x : Listed} (fits : x.Fits) : ofText (String.ofList x.text) = [x.item] := by
  have fit : ∀ y ∈ [x], y.Fits := by simpa using fits
  have lone := ofText_clause fit
  rwa [clause, List.map_singleton, List.intercalate_singleton] at lone

end Listed

end OrderItem

namespace Select

def orderItem (s : Select) (item : OrderItem) : Select :=
  match item.direction with
  | some d => s.orderColumn item.column d
  | none => s.order item.column

theorem orderItem_eq (s : Select) {item : OrderItem}
    (column : OrderItem.IsColumn item.column.toList) :
    s.orderItem item = { s with orderBy := s.orderBy ++ [item] } := by
  rcases item with ⟨name, direction⟩
  cases direction with
  | some d => rfl
  | none =>
      let lone : OrderItem.Listed := { item := ⟨name, none⟩ }
      have fits : lone.Fits := ⟨column, by simp [lone], by simp [lone], by simp [lone]⟩
      have read := OrderItem.Listed.ofText_text fits
      have text : String.ofList lone.text = name := by
        simp [OrderItem.Listed.text, OrderItem.Listed.core, lone]
      rw [text] at read
      rw [orderItem, order, read]

theorem foldl_orderItem (s : Select) {items : List OrderItem}
    (columns : ∀ item ∈ items, OrderItem.IsColumn item.column.toList) :
    items.foldl orderItem s = { s with orderBy := s.orderBy ++ items } := by
  induction items generalizing s with
  | nil =>
      cases s
      simp
  | cons item items ih =>
      have rest := fun item' later => columns item' (List.mem_cons_of_mem item later)
      rw [List.foldl_cons, s.orderItem_eq (columns item (by simp)), ih _ rest]
      simp

end Select

/-- A list of columns with their directions, between commas and any blanks, orders a query as
the calls that add one column each: the items are the same ones and come in the same order. -/
theorem clause_orders_item_by_item (s : Select) {xs : List OrderItem.Listed}
    (fit : ∀ x ∈ xs, x.Fits) :
    s.order (OrderItem.Listed.clause xs) = (xs.map OrderItem.Listed.item).foldl Select.orderItem s ∧
    (s.order (OrderItem.Listed.clause xs)).orderBy = s.orderBy ++ xs.map OrderItem.Listed.item ∧
    ∀ x ∈ xs, ∀ s' : Select, s'.order (String.ofList x.text) = s'.orderItem x.item := by
  have read := OrderItem.Listed.ofText_clause fit
  have columns : ∀ item ∈ xs.map OrderItem.Listed.item, OrderItem.IsColumn item.column.toList := by
    intro item member
    rcases List.mem_map.1 member with ⟨x, listed, rfl⟩
    exact (fit x listed).column
  refine ⟨?_, ?_, ?_⟩
  · rw [s.foldl_orderItem columns, Select.order, read]
  · rw [Select.order, read]
  · intro x listed s'
    rw [s'.orderItem_eq (fit x listed).column, Select.order,
      OrderItem.Listed.ofText_text (fit x listed)]

theorem clause_orders_item_by_item_nested :
    ((Select.ofTarget (.ofDialect .sqlServer)).order
      "COALESCE(größe, round(b, 2))   dEsC\u3000,\n descending,(名 desc) asc").orderBy =
      [⟨"COALESCE(größe, round(b, 2))", some .descending⟩, ⟨"descending", none⟩,
        ⟨"(名 desc)", some .ascending⟩] := by
  let xs : List OrderItem.Listed :=
    [⟨⟨"COALESCE(größe, round(b, 2))", some .descending⟩, "dEsC".toList, 2, [], ['\u3000']⟩,
      ⟨⟨"descending", none⟩, [], 0, ['\n', ' '], []⟩,
      ⟨⟨"(名 desc)", some .ascending⟩, "asc".toList, 0, [], []⟩]
  have text : OrderItem.Listed.clause xs =
      "COALESCE(größe, round(b, 2))   dEsC\u3000,\n descending,(名 desc) asc" := by
    decide +kernel
  have fit : ∀ x ∈ xs, x.Fits := by
    intro x listed
    simp only [xs, List.mem_cons, List.not_mem_nil, or_false] at listed
    rcases listed with rfl | rfl | rfl
    all_goals exact ⟨by decide +kernel, by simp [Folds, Direction.sql], List.all_eq_true.1 rfl,
      List.all_eq_true.1 rfl⟩
  rw [← text]
  exact (clause_orders_item_by_item (.ofTarget (.ofDialect .sqlServer)) fit).2.1

end CrossDialect
