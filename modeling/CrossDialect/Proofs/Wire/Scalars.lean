import CrossDialect.Proofs.Wire.Numbers

/-!
Scalar values as a server reads them. A type of fixed width is read from exactly so many bytes.
What is written for a truth value, an integer or a float is read as the same by the types of its
kind, and nothing stops a value of another kind from being written: it is written in the form
of its own kind, whatever type was asked for. A list stops the program.
-/

namespace CrossDialect

def Value.bare : Value → Value
  | .param inner => inner.bare
  | v => v

namespace Wire

inductive Datum where
  | bool (b : Bool)
  | int (i : Int)
  -- A float by its bits.
  | float (bits : Nat)
  deriving DecidableEq

namespace ScalarType

def width? : ScalarType → Option Nat
  | .bool => some 1
  | .int2 => some 2
  | .int4 | .float4 => some 4
  | .int8 | .float8 => some 8
  | .text | .varchar | .json => none

def integerWidth? : ScalarType → Option Nat
  | .int2 => some 2
  | .int4 => some 4
  | .int8 => some 8
  | _ => none

def read? (t : ScalarType) (bytes : List UInt8) : Option Datum :=
  if t.width? = some bytes.length then
    match t with
    | .bool =>
      match number bytes with
      | 0 => some (.bool false)
      | 1 => some (.bool true)
      | _ => none
    | .int2 | .int4 | .int8 => some (.int (signedNumber bytes))
    | .float4 | .float8 => some (.float (number bytes))
    | .text | .varchar | .json => none
  else none

/-- What a value is in a type, if the type has values of its kind. -/
def datum? : ScalarType → Value → Option Datum
  | .bool, .bool b => some (.bool b)
  | .int2, .int n | .int4, .int n | .int8, .int n => some (.int n.toInt)
  | .float4, .int n => some (.float n.toFloat32.toBits.toNat)
  | .float8, .int n => some (.float n.toFloat.toBits.toNat)
  | .float4, .float x => some (.float x.toFloat32.toBits.toNat)
  | .float8, .float x => some (.float x.toBits.toNat)
  | _, _ => none

end ScalarType

/-- The bytes are the form of the value in the type. -/
def Form (t : ScalarType) (v : Value) (bytes : List UInt8) : Prop :=
  t.width? = some bytes.length ∧ ∃ d, t.datum? v = some d ∧ t.read? bytes = some d

/-- The value is refused, is null, or is written in the form of the type. -/
def Proper (t : ScalarType) (v : Value) : Prop :=
  (∃ e, encode (.scalar t) v = .error e) ∨ encode (.scalar t) v = .ok none ∨
    ∃ bytes, encode (.scalar t) v = .ok (some bytes) ∧ Form t v.bare bytes

/-- The value is of a kind that the type does not hold. -/
def Stray (t : ScalarType) : Value → Prop
  | .bool _ => t ≠ .bool
  | .int _ => t = .bool
  | .float _ => t ≠ .float4 ∧ t ≠ .float8
  | .text _ => True
  | _ => False

/-- The value has no form for the type. -/
def Refused (t : ScalarType) : Value → Prop
  | .int n => t = .int2 ∧ ¬ Fits 2 n.toInt ∨ t = .int4 ∧ ¬ Fits 4 n.toInt
  | .column _ | .raw _ => True
  | _ => False

/-- The bytes are those that the value has for a type of its own kind. -/
def OwnForm : Value → List UInt8 → Prop
  | .bool b, bytes => Form .bool (.bool b) bytes
  | .int n, bytes => Form .int8 (.int n) bytes
  | .float x, bytes => Form .float8 (.float x) bytes
  | .text s, bytes => bytes = s.toUTF8.toList
  | _, _ => False

section Forms

variable {t : ScalarType}

theorem form_bool (b : Bool) : Form .bool (.bool b) [if b then 1 else 0] :=
  ⟨rfl, .bool b, rfl, by cases b <;> rfl⟩

theorem width_of_integerWidth {count : Nat} (wide : t.integerWidth? = some count) :
    t.width? = some count := by
  cases t <;> simp_all [ScalarType.integerWidth?, ScalarType.width?]

theorem read_signed {count : Nat} {i : Int} (wide : t.integerWidth? = some count)
    (fits : Fits count i) : t.read? (signed count i) = some (.int i) := by
  unfold ScalarType.read?
  rw [length_signed, if_pos (width_of_integerWidth wide), signedNumber_signed fits]
  cases t <;> simp_all [ScalarType.integerWidth?]

theorem form_int {count : Nat} {n : Int64} (wide : t.integerWidth? = some count)
    (fits : Fits count n.toInt) : Form t (.int n) (signed count n.toInt) := by
  refine ⟨by rw [length_signed, width_of_integerWidth wide], .int n.toInt, ?_,
    read_signed wide fits⟩
  cases t <;> simp_all [ScalarType.integerWidth?, ScalarType.datum?]

theorem form_float {count bits : Nat} {v : Value}
    (kind : t = .float4 ∧ count = 4 ∨ t = .float8 ∧ count = 8)
    (datum : t.datum? v = some (.float bits)) (bound : bits < span count) :
    Form t v (bigEndian count bits) := by
  refine ⟨?_, .float bits, datum, ?_⟩
  · rcases kind with ⟨rfl, rfl⟩ | ⟨rfl, rfl⟩ <;> rw [length_bigEndian] <;> rfl
  · rcases kind with ⟨rfl, rfl⟩ | ⟨rfl, rfl⟩ <;>
      simp [ScalarType.read?, ScalarType.width?, number_of_lt bound]

theorem form_float4 {v : Value} {x : Float32}
    (datum : ScalarType.datum? .float4 v = some (.float x.toBits.toNat)) :
    Form .float4 v (float4 x) :=
  form_float (.inl ⟨rfl, rfl⟩) datum x.toBits.toNat_lt

theorem form_float8 {v : Value} {x : Float}
    (datum : ScalarType.datum? .float8 v = some (.float x.toBits.toNat)) :
    Form .float8 v (float8 x) :=
  form_float (.inr ⟨rfl, rfl⟩) datum x.toBits.toNat_lt

end Forms

theorem encode_bare (t : WireType) (v : Value) : encode t v.bare = encode t v := by
  cases v with
  | param inner => simpa [Value.bare, encode] using encode_bare t inner
  | _ => rfl

theorem bare_ne_param (v inner : Value) : v.bare ≠ .param inner := by
  cases v with
  | param outer => simpa [Value.bare] using bare_ne_param outer inner
  | _ => simp [Value.bare]

section Outcomes

variable {t : ScalarType}

theorem encode_int {count : Nat} (wide : t.integerWidth? = some count) (n : Int64) :
    encode (.scalar t) (.int n) = .ofExcept ((narrowed count n.toInt).map some) := by
  cases t <;> simp only [ScalarType.integerWidth?, Option.some.injEq, reduceCtorEq] at wide
  · subst wide
    rfl
  · subst wide
    rfl
  · subst wide
    rw [narrowed_of_fits (fits_int64 n)]
    rfl

theorem encode_int_fits {count : Nat} {n : Int64} (wide : t.integerWidth? = some count)
    (fits : Fits count n.toInt) :
    encode (.scalar t) (.int n) = .ok (some (signed count n.toInt)) := by
  rw [encode_int wide, narrowed_of_fits fits]
  rfl

theorem encode_int_wide {count : Nat} {n : Int64} (wide : t.integerWidth? = some count)
    (large : ¬ Fits count n.toInt) : encode (.scalar t) (.int n) = .error .outOfRange := by
  rw [encode_int wide, narrowed_of_not_fits large]
  rfl

/-- What comes of a value that is no parameter, for a type of fixed width. -/
inductive Outcome (t : ScalarType) (v : Value) : Answer (Option (List UInt8)) → Prop where
  | null : v = .null → Outcome t v (.ok none)
  | refused {e} : Refused t v → Outcome t v (.error e)
  | crashed {items} : v = .list items → Outcome t v (.crash .notAnArray)
  | form {bytes} : Form t v bytes → ¬ Stray t v → ¬ Refused t v → Outcome t v (.ok (some bytes))
  | stray {bytes} : OwnForm v bytes → Stray t v → ¬ Refused t v → Outcome t v (.ok (some bytes))

theorem outcome_int (n : Int64) (fixed : t.width?.isSome) :
    Outcome t (.int n) (encode (.scalar t) (.int n)) := by
  have integer {count : Nat} (wide : t.integerWidth? = some count) (kind : t ≠ .bool)
      (refused : Refused t (.int n) ↔ ¬ Fits count n.toInt) :
      Outcome t (.int n) (encode (.scalar t) (.int n)) := by
    by_cases fits : Fits count n.toInt
    · rw [encode_int_fits wide fits]
      exact .form (form_int wide fits) kind fun large => refused.1 large fits
    · rw [encode_int_wide wide fits]
      exact .refused (refused.2 fits)
  cases t with
  | bool => exact .stray (form_int rfl (fits_int64 n)) rfl (by simp [Refused])
  | int2 | int4 => exact integer rfl nofun (by simp [Refused])
  | int8 => exact integer rfl nofun (by simp [Refused, fits_int64 n])
  | float4 => exact .form (form_float4 rfl) nofun (by simp [Refused])
  | float8 => exact .form (form_float8 rfl) nofun (by simp [Refused])
  | text | varchar | json => exact absurd fixed nofun

theorem outcome_float (x : Float) (fixed : t.width?.isSome) :
    Outcome t (.float x) (encode (.scalar t) (.float x)) := by
  cases t with
  | bool | int2 | int4 | int8 => exact .stray (form_float8 rfl) ⟨nofun, nofun⟩ nofun
  | float4 => exact .form (form_float4 rfl) (fun stray => stray.1 rfl) nofun
  | float8 => exact .form (form_float8 rfl) (fun stray => stray.2 rfl) nofun
  | text | varchar | json => exact absurd fixed nofun

theorem outcome_bare (v : Value) (fixed : t.width?.isSome) :
    Outcome t v.bare (encode (.scalar t) v) := by
  rw [← encode_bare]
  cases kind : v.bare with
  | null => exact .null rfl
  | bool b =>
      by_cases same : t = .bool
      · subst same
        exact .form (form_bool b) (fun stray => stray rfl) nofun
      · exact .stray (form_bool b) same nofun
  | int n => exact outcome_int n fixed
  | float x => exact outcome_float x fixed
  | text s => exact .stray rfl trivial nofun
  | list items => exact .crashed rfl
  | column s => exact .refused trivial
  | raw s => exact .refused trivial
  | param inner => exact absurd kind (bare_ne_param v inner)

theorem Form.ne_null {v : Value} {bytes : List UInt8} (form : Form t v bytes) : v ≠ .null := by
  rintro rfl
  obtain ⟨_, d, datum, _⟩ := form
  cases t <;> simp [ScalarType.datum?] at datum

theorem Form.ne_list {v : Value} {bytes : List UInt8} (form : Form t v bytes)
    (items : List Value) : v ≠ .list items := by
  rintro rfl
  obtain ⟨_, d, datum, _⟩ := form
  cases t <;> simp [ScalarType.datum?] at datum

theorem OwnForm.ne_list {v : Value} {bytes : List UInt8} (own : OwnForm v bytes)
    (items : List Value) : v ≠ .list items := by
  rintro rfl
  exact own

theorem OwnForm.ne_null {v : Value} {bytes : List UInt8} (own : OwnForm v bytes) : v ≠ .null := by
  rintro rfl
  exact own

theorem Stray.not_form {v : Value} {bytes : List UInt8} (stray : Stray t v) : ¬ Form t v bytes := by
  rintro ⟨_, d, datum, _⟩
  cases v <;> cases t <;> simp_all [Stray, ScalarType.datum?]

end Outcomes

/-- Asked for a type of fixed width, a value is refused, is null, or is written in a form of
this type, unless it is a list or of a kind that the type does not hold. For a list there is no
answer, and a value of another kind is written all the same, in the form that it has for a type
of its own kind. -/
theorem scalars_keep_form (t : ScalarType) (v : Value) (fixed : t.width?.isSome) :
    (Proper t v ↔ ¬ Stray t v.bare ∧ ∀ items, v.bare ≠ .list items) ∧
    (encode (.scalar t) v = .ok none ↔ v.bare = .null) ∧
    ((∃ e, encode (.scalar t) v = .error e) ↔ Refused t v.bare) ∧
    (encode (.scalar t) v = .crash .notAnArray ↔ ∃ items, v.bare = .list items) ∧
    (Stray t v.bare → ∃ bytes, encode (.scalar t) v = .ok (some bytes) ∧ OwnForm v.bare bytes) := by
  have outcome := outcome_bare v fixed
  unfold Proper
  generalize encode (.scalar t) v = result at outcome ⊢
  generalize v.bare = w at outcome ⊢
  cases outcome with
  | null same =>
      subst same
      simp [Stray, Refused]
  | @refused e refused =>
      have kind : w ≠ .null ∧ ¬ Stray t w ∧ ∀ items, w ≠ .list items := by
        cases w <;> simp_all [Refused, Stray]
        rintro rfl
        simp at refused
      simp [kind, refused]
  | crashed same =>
      subst same
      simp [Stray, Refused]
  | form form held accepted => simp [held, accepted, form, form.ne_null, form.ne_list]
  | stray own stray accepted =>
      simp [own, stray, accepted, own.ne_null, own.ne_list, stray.not_form]

theorem scalars_keep_form_edge :
    ScalarType.int2.width?.isSome ∧
    Proper .int2 (.param (.param (.int 32767))) ∧
    (∃ e, encode (.scalar .int2) (.param (.int 32768)) = .error e) ∧
    encode (.scalar .bool) (.param (.list [])) = .crash .notAnArray ∧
    ¬ Proper .bool (.text "") := by
  obtain ⟨proper, _⟩ := scalars_keep_form .int2 (.param (.param (.int 32767))) rfl
  obtain ⟨_, _, refused, _⟩ := scalars_keep_form .int2 (.param (.int 32768)) rfl
  obtain ⟨_, _, _, crashed, _⟩ := scalars_keep_form .bool (.param (.list [])) rfl
  obtain ⟨stray, _⟩ := scalars_keep_form .bool (.text "") rfl
  refine ⟨rfl, proper.2 ⟨nofun, nofun⟩, refused.2 (.inl ⟨rfl, ?_⟩), crashed.2 ⟨[], rfl⟩,
    fun proper => (stray.1 proper).1 trivial⟩
  rintro ⟨_, high⟩
  exact absurd high (by decide)

/-- A float that is stored as an integer, a truth value that is too short for one, and a list
that is not refused. -/
theorem kinds_mix_on_the_wire :
    encode (.scalar .int8) (.float 1.5) = .ok (some (float8 1.5)) ∧
    ScalarType.int8.read? (float8 1.5) = some (.int 4609434218613702656) ∧
    ¬ Proper .int8 (.float 1.5) ∧
    encode (.scalar .int2) (.bool true) = .ok (some [1]) ∧ ¬ Proper .int2 (.bool true) ∧
    encode (.scalar .int4) (.list [.int 1]) = .crash .notAnArray ∧
    ¬ Proper .int4 (.list [.int 1]) := by
  refine ⟨rfl, ?_, ?_, rfl, ?_, rfl, ?_⟩
  · decide +kernel
  · rintro (⟨e, refused⟩ | null | ⟨bytes, written, form⟩)
    · cases refused
    · cases null
    · exact Stray.not_form (t := .int8) (v := .float 1.5) ⟨nofun, nofun⟩ form
  · rintro (⟨e, refused⟩ | null | ⟨bytes, written, form⟩)
    · cases refused
    · cases null
    · exact Stray.not_form (t := .int2) (v := .bool true) nofun form
  · rintro (⟨e, refused⟩ | null | ⟨bytes, written, form⟩)
    · cases refused
    · cases null
    · cases written

end Wire

end CrossDialect
