import CrossDialect.Proofs.Wire.Scalars
import Mathlib.Algebra.Group.Nat.Defs

/-!
Arrays as a server reads them: a number of dimensions, a mark for null, the member type, a length
and a lower bound for each dimension, and then the items, each behind its length. What is written
for a list is read as one dimension with the same items in order, and an array of integers
is refused exactly if one of them does not fit.
-/

namespace CrossDialect

def Value.ofInteger : Option Int64 → Value
  | none => .null
  | some n => .int n

namespace Wire

structure ArrayForm where
  -- The length and the lower bound of each dimension.
  dimensions : List (Int × Int)
  nulls : Int
  member : Nat
  items : List (Option (List UInt8))

def front? (count : Nat) (bytes : List UInt8) : Option (List UInt8 × List UInt8) :=
  if count ≤ bytes.length then some (bytes.splitAt count) else none

def readWord (bytes : List UInt8) : Option (Int × List UInt8) :=
  (front? 4 bytes).map fun (word, rest) => (signedNumber word, rest)

def readOid (bytes : List UInt8) : Option (Nat × List UInt8) :=
  (front? 4 bytes).map fun (word, rest) => (number word, rest)

def readDimensions : Nat → List UInt8 → Option (List (Int × Int) × List UInt8)
  | 0, bytes => some ([], bytes)
  | count + 1, bytes => do
    let (length, rest) ← readWord bytes
    let (lower, rest) ← readWord rest
    let (others, rest) ← readDimensions count rest
    return ((length, lower) :: others, rest)

/-- An item behind its length. The length -1 stands for null. -/
def readItem (bytes : List UInt8) : Option (Option (List UInt8) × List UInt8) := do
  let (length, rest) ← readWord bytes
  if length = -1 then return (none, rest)
  else if length < 0 then none
  else
    let (content, rest) ← front? length.toNat rest
    return (some content, rest)

def readItems : Nat → List UInt8 → Option (List (Option (List UInt8)) × List UInt8)
  | 0, bytes => some ([], bytes)
  | count + 1, bytes => do
    let (first, rest) ← readItem bytes
    let (others, rest) ← readItems count rest
    return (first :: others, rest)

/-- An array with nothing behind it. There are as many items as the lengths make together. -/
def readArray (bytes : List UInt8) : Option ArrayForm := do
  let (count, rest) ← readWord bytes
  let (nulls, rest) ← readWord rest
  let (member, rest) ← readOid rest
  let (dimensions, rest) ← readDimensions count.toNat rest
  let lengths := dimensions.map fun dimension => dimension.1.toNat
  let (items, rest) ← readItems (lengths.foldl (· * ·) 1) rest
  if 0 ≤ count ∧ rest = [] then some { dimensions, nulls, member, items } else none

def ScalarType.integer? (t : ScalarType) : Option (List UInt8) → Option (Option Int)
  | none => some none
  | some bytes =>
    match t.read? bytes with
    | some (.int i) => some (some i)
    | _ => none

def ArrayForm.integers? (t : ScalarType) (a : ArrayForm) : Option (List (Option Int)) :=
  a.items.mapM t.integer?

section Reading

theorem front?_append {bytes rest : List UInt8} {count : Nat} (length : bytes.length = count) :
    front? count (bytes ++ rest) = some (bytes, rest) := by
  subst length
  simp [front?]

theorem readWord_signed {i : Int} (fits : Fits 4 i) (rest : List UInt8) :
    readWord (signed 4 i ++ rest) = some (i, rest) := by
  simp [readWord, front?_append (length_signed 4 i), signedNumber_signed fits]

theorem readOid_bigEndian {n : Nat} (bound : n < span 4) (rest : List UInt8) :
    readOid (bigEndian 4 n ++ rest) = some (n, rest) := by
  simp [readOid, front?_append (length_bigEndian 4 n), number_of_lt bound]

theorem fits_length {n : Nat} (short : n < 2 ^ 31) : Fits 4 n := by
  have full : span 4 = 4294967296 := rfl
  rw [Fits, full]
  omega

theorem readItem_item {x : Option (List UInt8)}
    (short : ∀ bytes, x = some bytes → bytes.length < 2 ^ 31) (rest : List UInt8) :
    readItem (item x ++ rest) = some (x, rest) := by
  cases x with
  | none =>
      have fits : Fits 4 (-1) := by
        constructor <;> decide
      simp [readItem, item, readWord_signed fits]
  | some bytes =>
      have fits := fits_length (short bytes rfl)
      have length : ¬ (bytes.length : Int) = -1 ∧ ¬ (bytes.length : Int) < 0 := by omega
      have content : front? bytes.length (bytes ++ rest) = some (bytes, rest) := front?_append rfl
      simp [readItem, item, List.append_assoc, readWord_signed fits, length, content]

theorem readItems_items {items : List (Option (List UInt8))}
    (short : ∀ bytes, some bytes ∈ items → bytes.length < 2 ^ 31) (rest : List UInt8) :
    readItems items.length (items.flatMap item ++ rest) = some (items, rest) := by
  induction items with
  | nil => rfl
  | cons x items ih =>
      have first := readItem_item (x := x) fun bytes same => short bytes (by simp [same])
      have others := ih fun bytes later => short bytes (List.mem_cons_of_mem x later)
      simp [readItems, List.append_assoc, first, others]

/-- Any list of items is read back as an array of one dimension. -/
theorem readArray_array {member : ScalarType} {items : List (Option (List UInt8))}
    (count : items.length < 2 ^ 31)
    (short : ∀ bytes, some bytes ∈ items → bytes.length < 2 ^ 31) :
    readArray (array member items) =
      some { dimensions := [(items.length, 1)]
             nulls := if items.any Option.isNone then 1 else 0
             member := member.oid
             items } := by
  have oid : member.oid < span 4 := by
    cases member <;> decide
  have one : Fits 4 1 := ⟨by decide, by decide⟩
  have mark : Fits 4 (if items.any Option.isNone then 1 else 0) := by
    split <;> exact ⟨by decide, by decide⟩
  have read := readItems_items short []
  rw [List.append_nil] at read
  unfold array
  generalize (if items.any Option.isNone then (1 : Int) else 0) = nulls at mark ⊢
  simp [readArray, List.append_assoc, readWord_signed one, readWord_signed mark,
    readOid_bigEndian oid, readDimensions, readWord_signed (fits_length count), read]

end Reading

section Items

variable {t : ScalarType} {count : Nat} {xs : List (Option Int64)}

def AllFit (count : Nat) (xs : List (Option Int64)) : Prop :=
  ∀ x ∈ xs, ∀ n ∈ x, Fits count n.toInt

-- Spelled out, as otherwise every integer of 64 bits may be tried.
instance : Decidable (AllFit count xs) :=
  @List.decidableBAll _ _ (fun x => Option.decidableForallMem x) xs

theorem allFit_cons {x : Option Int64} :
    AllFit count (x :: xs) ↔ (∀ n ∈ x, Fits count n.toInt) ∧ AllFit count xs :=
  List.forall_mem_cons

def stored (count : Nat) (x : Option Int64) : Option (List UInt8) :=
  x.map fun n => signed count n.toInt

theorem encodeAll_bare (t : WireType) (items : List Value) :
    encodeAll t (items.map Value.bare) = encodeAll t items := by
  induction items with
  | nil => rfl
  | cons v items ih => rw [List.map_cons, encodeAll, encodeAll, encode_bare, ih]

theorem encode_fitting {x : Option Int64} (wide : t.integerWidth? = some count)
    (fits : ∀ n ∈ x, Fits count n.toInt) :
    encode (.scalar t) (Value.ofInteger x) = .ok (stored count x) := by
  cases x with
  | none => rfl
  | some n => exact encode_int_fits wide (fits n rfl)

theorem encodeAll_fitting (wide : t.integerWidth? = some count) (fit : AllFit count xs) :
    encodeAll (.scalar t) (xs.map Value.ofInteger) = .ok (xs.map (stored count)) := by
  induction xs with
  | nil => rfl
  | cons x xs ih =>
      obtain ⟨first, others⟩ := allFit_cons.1 fit
      rw [List.map_cons, encodeAll, encode_fitting wide first, ih others]
      rfl

theorem encodeAll_wide (wide : t.integerWidth? = some count) (large : ¬ AllFit count xs) :
    encodeAll (.scalar t) (xs.map Value.ofInteger) = .error .outOfRange := by
  induction xs with
  | nil => exact absurd (fun x member => absurd member List.not_mem_nil) large
  | cons x xs ih =>
      rw [List.map_cons, encodeAll]
      by_cases first : ∀ n ∈ x, Fits count n.toInt
      · have others : ¬ AllFit count xs := fun others => large (allFit_cons.2 ⟨first, others⟩)
        rw [encode_fitting wide first, ih others]
        rfl
      · cases x with
        | none => exact absurd nofun first
        | some n =>
            have wider : ¬ Fits count n.toInt := by
              intro fits
              refine first ?_
              rintro _ ⟨⟩
              exact fits
            rw [Value.ofInteger, encode_int_wide wide wider]
            rfl

theorem integers_stored (wide : t.integerWidth? = some count) (fit : AllFit count xs) :
    (xs.map (stored count)).mapM t.integer? = some (xs.map (Option.map Int64.toInt)) := by
  induction xs with
  | nil => rfl
  | cons x xs ih =>
      obtain ⟨first, others⟩ := allFit_cons.1 fit
      have read : t.integer? (stored count x) = some (x.map Int64.toInt) := by
        cases x with
        | none => rfl
        | some n => simp [stored, ScalarType.integer?, read_signed wide (first n rfl)]
      simp [read, ih others]

theorem length_stored (wide : t.integerWidth? = some count) {bytes : List UInt8}
    (member : some bytes ∈ xs.map (stored count)) : bytes.length < 2 ^ 31 := by
  have small : count ≤ 8 := by
    cases t <;> simp_all [ScalarType.integerWidth?] <;> omega
  obtain ⟨x, _, same⟩ := List.mem_map.1 member
  obtain ⟨n, _, rfl⟩ := Option.map_eq_some_iff.1 same
  rw [length_signed]
  omega

theorem any_stored : (xs.map (stored count)).any Option.isNone = decide (none ∈ xs) := by
  induction xs with
  | nil => rfl
  | cons x xs ih => cases x <;> simp_all [stored]

end Items

/-- A list of integers and nulls, each of them perhaps in marks of parameters, is out of range
as an array of integers exactly if one of its integers does not fit the type. If all fit it is
written as an array of one dimension that starts at one, has the number of the type, says whether
there are nulls, and has the integers and nulls of the list in their order. -/
theorem integer_arrays_read_back {t : ScalarType} {count : Nat} {v : Value} {items : List Value}
    {xs : List (Option Int64)} (wide : t.integerWidth? = some count) (list : v.bare = .list items)
    (integers : items.map Value.bare = xs.map Value.ofInteger) (short : items.length < 2 ^ 31) :
    (encode (.array t) v = .error .outOfRange ↔ ¬ AllFit count xs) ∧
    (AllFit count xs →
      ∃ bytes form, encode (.array t) v = .ok (some bytes) ∧ readArray bytes = some form ∧
        form.dimensions = [((items.length : Int), 1)] ∧ form.member = t.oid ∧
        form.nulls = (if none ∈ xs then 1 else 0) ∧
        form.integers? t = some (xs.map (Option.map Int64.toInt))) := by
  have length : xs.length = items.length := by
    simpa using (congrArg List.length integers).symm
  have result : encode (.array t) v =
      (encodeAll (.scalar t) (xs.map Value.ofInteger)).map fun items => some (array t items) := by
    rw [← encode_bare, list, ← integers, encodeAll_bare, encode]
  have written (fit : AllFit count xs) :
      encode (.array t) v = .ok (some (array t (xs.map (stored count)))) := by
    rw [result, encodeAll_fitting wide fit]
    rfl
  refine ⟨⟨fun refused fit => ?_, fun large => ?_⟩, fun fit => ?_⟩
  · rw [written fit] at refused
    cases refused
  · rw [result, encodeAll_wide wide large]
    rfl
  · have few : (xs.map (stored count)).length < 2 ^ 31 := by
      rwa [List.length_map, length]
    refine ⟨_, _, written fit, readArray_array few fun bytes => length_stored wide, ?_, rfl, ?_,
      integers_stored wide fit⟩
    · rw [List.length_map, length]
    · simp only [any_stored, decide_eq_true_eq]

theorem integer_arrays_read_back_mixed :
    (∃ bytes form,
      encode (.array .int2) (.list [.int 32767, .null, .param (.int (-32768))]) = .ok (some bytes) ∧
        readArray bytes = some form ∧ form.dimensions = [(3, 1)] ∧ form.member = 21 ∧
        form.nulls = 1 ∧ form.integers? .int2 = some [some 32767, none, some (-32768)]) ∧
    encode (.array .int2) (.param (.list [.int 1, .param (.int 32768), .null])) =
      .error .outOfRange ∧
    (∃ bytes form, encode (.array .int8) (.list []) = .ok (some bytes) ∧
      readArray bytes = some form ∧ form.dimensions = [(0, 1)] ∧ form.member = 20 ∧
        form.nulls = 0 ∧ form.integers? .int8 = some []) := by
  have mixed : [.int 32767, .null, .param (.int (-32768))].map Value.bare =
      [some 32767, none, some (-32768)].map Value.ofInteger := rfl
  have late : [.int 1, .param (.int 32768), .null].map Value.bare =
      [some 1, some 32768, none].map Value.ofInteger := rfl
  have empty : [].map Value.bare = [].map Value.ofInteger := rfl
  exact ⟨(integer_arrays_read_back (t := .int2) rfl rfl mixed (by decide)).2 (by decide),
    (integer_arrays_read_back (t := .int2) rfl rfl late (by decide)).1.2 (by decide),
    (integer_arrays_read_back (t := .int8) rfl rfl empty (by decide)).2 (by decide)⟩

end Wire

end CrossDialect
