import CrossDialect.Wire

/-!
Numbers read back from bytes, the highest byte first. What a signed number was written as is
read as the same number if it fits the bytes, and narrowing refuses exactly those that do not.
-/

namespace CrossDialect.Wire

def number (bytes : List UInt8) : Nat :=
  bytes.foldl (fun n b => n * 256 + b.toNat) 0

/-- The number that bytes spell in two's complement: the upper half stands for numbers
below zero. -/
def signedNumber (bytes : List UInt8) : Int :=
  if 2 * number bytes < span bytes.length then number bytes
  else number bytes - span bytes.length

def Fits (count : Nat) (i : Int) : Prop :=
  -(span count / 2 : Int) ≤ i ∧ i < span count / 2

instance (count : Nat) (i : Int) : Decidable (Fits count i) :=
  inferInstanceAs (Decidable (_ ∧ _))

theorem span_succ (count : Nat) : span (count + 1) = span count * 256 := rfl

theorem span_pos (count : Nat) : 0 < span count := by
  induction count with
  | zero => decide
  | succ count ih => rw [span_succ]; omega

@[simp] theorem length_bigEndian (count n : Nat) : (bigEndian count n).length = count := by
  induction count generalizing n with
  | zero => rfl
  | succ count ih => simp [bigEndian, ih]

@[simp] theorem length_signed (count : Nat) (i : Int) : (signed count i).length = count :=
  length_bigEndian _ _

theorem number_append_singleton (bytes : List UInt8) (b : UInt8) :
    number (bytes ++ [b]) = number bytes * 256 + b.toNat := by
  simp [number]

theorem number_bigEndian (count n : Nat) : number (bigEndian count n) = n % span count := by
  induction count generalizing n with
  | zero => exact (Nat.mod_one n).symm
  | succ count ih =>
      have last : (UInt8.ofNat (n % 256)).toNat = n % 256 :=
        UInt8.toNat_ofNat_of_lt' (Nat.mod_lt n (by decide))
      have split : n % span (count + 1) = n % 256 + 256 * (n / 256 % span count) := by
        rw [span_succ, Nat.mul_comm, Nat.mod_mul]
      rw [bigEndian, number_append_singleton, ih, last, split]
      omega

theorem number_of_lt {count n : Nat} (bound : n < span count) :
    number (bigEndian count n) = n := by
  rw [number_bigEndian, Nat.mod_eq_of_lt bound]

theorem signedNumber_signed {count : Nat} {i : Int} (fits : Fits count i) :
    signedNumber (signed count i) = i := by
  obtain ⟨low, high⟩ := fits
  have positive := span_pos count
  -- a number below zero is written as the number that lies a whole span above it
  have written : (number (signed count i) : Int) = i ∨
      (number (signed count i) : Int) = i + span count := by
    have bound : (i % span count).toNat < span count := by
      have := Int.emod_lt_of_pos i (b := span count) (by omega)
      omega
    rw [signed, number_of_lt bound]
    rcases Int.lt_or_le i 0 with below | above
    · right
      rw [← Int.add_emod_right, Int.emod_eq_of_lt (by omega) (by omega)]
      omega
    · left
      rw [Int.emod_eq_of_lt above (by omega)]
      omega
  unfold signedNumber
  rw [length_signed]
  split <;> omega

theorem narrowed_of_fits {count : Nat} {i : Int} (fits : Fits count i) :
    narrowed count i = .ok (signed count i) := by
  rw [narrowed]
  exact if_pos fits

theorem narrowed_of_not_fits {count : Nat} {i : Int} (wide : ¬ Fits count i) :
    narrowed count i = .error .outOfRange := by
  rw [narrowed]
  exact if_neg wide

theorem fits_int64 (n : Int64) : Fits 8 n.toInt := by
  have low := n.le_toInt
  have high := n.toInt_lt
  have full : span 8 = 18446744073709551616 := rfl
  rw [Fits, full]
  constructor <;> omega

end CrossDialect.Wire
