import CrossDialect.Text.Word

/-!
What the readers of words, gaps and digits take, seen from both sides: a run of
characters is read whole if the text behind it does not go on with the run, and
whatever a reader takes is such a run with the rest behind it.
-/

namespace CrossDialect.Text

/-- The text does not begin with a character of the kind. -/
def StopsAt (p : Char → Bool) (s : List Char) : Prop :=
  ∀ c ∈ s.head?, p c = false

@[simp] theorem stopsAt_nil (p : Char → Bool) : StopsAt p [] := by
  simp [StopsAt]

@[simp] theorem stopsAt_cons {p : Char → Bool} {c : Char} {s : List Char} :
    StopsAt p (c :: s) ↔ p c = false := by
  simp [StopsAt]

theorem StopsAt.append {p : Char → Bool} {s t : List Char} (front : StopsAt p s)
    (behind : StopsAt p t) : StopsAt p (s ++ t) := by
  cases s with
  | nil => exact behind
  | cons c s => simpa using front

theorem StopsAt.append_of_ne_nil {p : Char → Bool} {s t : List Char} (stops : StopsAt p s)
    (present : s ≠ []) : StopsAt p (s ++ t) := by
  cases s with
  | nil => exact absurd rfl present
  | cons c s => simpa using stops

variable {p : Char → Bool} {run rest s : List Char}

theorem dropWhile_of_stopsAt (stops : StopsAt p rest) : rest.dropWhile p = rest := by
  cases rest with
  | nil => rfl
  | cons c rest => simp [stopsAt_cons.1 stops]

theorem takeWhile_of_stopsAt (stops : StopsAt p rest) : rest.takeWhile p = [] := by
  cases rest with
  | nil => rfl
  | cons c rest => simp [stopsAt_cons.1 stops]

theorem takeWhile_run (all : ∀ c ∈ run, p c = true) (stops : StopsAt p rest) :
    (run ++ rest).takeWhile p = run := by
  rw [List.takeWhile_append_of_pos all, takeWhile_of_stopsAt stops, List.append_nil]

theorem dropWhile_run (all : ∀ c ∈ run, p c = true) (stops : StopsAt p rest) :
    (run ++ rest).dropWhile p = rest := by
  rw [List.dropWhile_append_of_pos all, dropWhile_of_stopsAt stops]

theorem all_takeWhile (p : Char → Bool) (s : List Char) : ∀ c ∈ s.takeWhile p, p c = true :=
  List.all_eq_true.1 List.all_takeWhile

theorem stopsAt_dropWhile (p : Char → Bool) (s : List Char) : StopsAt p (s.dropWhile p) := by
  intro c first
  have behind := List.head?_dropWhile_not p s
  rw [Option.mem_def.1 first] at behind
  simpa using behind

theorem all_of_dropWhile (none : s.dropWhile p = []) : ∀ c ∈ s, p c = true := by
  have whole : s.takeWhile p = s := by
    have split := List.takeWhile_append_dropWhile (p := p) (l := s)
    rwa [none, List.append_nil] at split
  rw [← whole]
  exact all_takeWhile p s

/-! Gaps -/

def Gap (s : List Char) : Prop := ∀ c ∈ s, isGap c = true

theorem isGap_eq_false {kind : Char → Bool} {c : Char} (holds : kind c = true)
    (foreign : [' ', '\t', '\r', '\n'].any kind = false) : isGap c = false := by
  cases gap : isGap c with
  | false => rfl
  | true =>
      simp only [isGap, Bool.or_eq_true, beq_iff_eq] at gap
      have member : c ∈ [' ', '\t', '\r', '\n'] := by
        simpa [or_assoc] using gap
      exact absurd holds (List.any_eq_false.1 foreign c member)

theorem Gap.append {s t : List Char} (front : Gap s) (behind : Gap t) : Gap (s ++ t) := by
  intro c member
  rcases List.mem_append.1 member with inFront | inside
  · exact front c inFront
  · exact behind c inside

theorem skipGap_of_stopsAt (stops : StopsAt isGap s) : skipGap s = s :=
  dropWhile_of_stopsAt stops

@[simp] theorem skipGap_space (s : List Char) : skipGap (' ' :: s) = skipGap s := rfl

theorem skipGap_spaces (count : Nat) (stops : StopsAt isGap s) :
    skipGap (List.replicate count ' ' ++ s) = s := by
  refine dropWhile_run ?_ stops
  intro c member
  rw [List.eq_of_mem_replicate member]
  rfl

theorem gap?_append {gap : List Char} (all : Gap gap) (present : gap ≠ [])
    (stops : StopsAt isGap s) : gap? (gap ++ s) = some s := by
  rcases List.exists_cons_of_ne_nil present with ⟨c, gap, rfl⟩
  have behind := dropWhile_run (fun d later => all d (List.mem_cons_of_mem c later)) stops
  simp [gap?, all c (by simp), skipGap, behind]

theorem gap?_space (stops : StopsAt isGap s) : gap? (' ' :: s) = some s := by
  have lone : Gap [' '] := by simp [Gap, isGap]
  exact gap?_append lone (by simp) stops

theorem append_skipGap (s : List Char) : ∃ gap, Gap gap ∧ s = gap ++ skipGap s :=
  ⟨s.takeWhile isGap, all_takeWhile isGap s, List.takeWhile_append_dropWhile.symm⟩

theorem of_gap? (taken : gap? s = some rest) :
    ∃ gap, Gap gap ∧ gap ≠ [] ∧ s = gap ++ rest := by
  cases s with
  | nil => simp [gap?] at taken
  | cons c s =>
      simp only [gap?, Option.ite_none_right_eq_some, Option.some.injEq] at taken
      rcases taken with ⟨first, rfl⟩
      rcases append_skipGap s with ⟨gap, all, split⟩
      refine ⟨c :: gap, ?_, by simp, by rw [List.cons_append, ← split]⟩
      intro x member
      rcases List.mem_cons.1 member with rfl | later
      · exact first
      · exact all x later

/-! Digits -/

theorem isNumeral_iff : isNumeral s = true ↔ s ≠ [] ∧ ∀ c ∈ s, c.isDigit = true := by
  cases s <;> simp [isNumeral]

theorem digits?_run (numeral : isNumeral run = true) (stops : StopsAt Char.isDigit rest) :
    digits? (run ++ rest) = some (run, rest) := by
  rcases isNumeral_iff.1 numeral with ⟨present, all⟩
  rcases List.exists_cons_of_ne_nil present with ⟨d, ds, rfl⟩
  unfold digits?
  rw [takeWhile_run all stops, dropWhile_run all stops]

theorem digits?_of_stopsAt (stops : StopsAt Char.isDigit s) : digits? s = none := by
  unfold digits?
  rw [takeWhile_of_stopsAt stops]

theorem of_digits? {ds : List Char} (taken : digits? s = some (ds, rest)) :
    isNumeral ds = true ∧ s = ds ++ rest := by
  rcases append_of_digits? taken with ⟨split, present⟩
  refine ⟨isNumeral_iff.2 ⟨present, ?_⟩, split⟩
  unfold digits? at taken
  split at taken
  · simp at taken
  · rename_i d ds' whole
    obtain ⟨rfl, -⟩ := Prod.mk.inj (Option.some.inj taken)
    rw [← whole]
    exact all_takeWhile Char.isDigit s

theorem isNumeral_repr (n : Nat) : isNumeral (Nat.repr n).toList = true := by
  rw [Nat.toList_repr]
  refine isNumeral_iff.2 ⟨Nat.toDigits_ne_nil, ?_⟩
  intro c member
  exact Nat.isDigit_of_mem_toDigits (by decide) (by decide) member

theorem digitsValue_repr (n : Nat) : digitsValue (Nat.repr n).toList = n := by
  rw [Nat.toList_repr]
  exact Nat.ofDigitChars_toDigits (by decide) (by decide)

/-! Words -/

def Folds (word text : List Char) : Prop := text.map Char.toUpper = word.map Char.toUpper

theorem afterFolded?_folds {word text : List Char} (folds : Folds word text) (rest : List Char) :
    afterFolded? word (text ++ rest) = some rest := by
  induction word generalizing text with
  | nil =>
      obtain rfl : text = [] := by simpa [Folds] using folds
      rfl
  | cons l word ih =>
      cases text with
      | nil => simp [Folds] at folds
      | cons c text =>
          simp only [Folds, List.map_cons, List.cons.injEq] at folds
          simp [afterFolded?, folds.1, ih folds.2]

theorem of_afterFolded? {word : List Char} (taken : afterFolded? word s = some rest) :
    ∃ text, Folds word text ∧ s = text ++ rest := by
  induction word generalizing s with
  | nil => exact ⟨[], rfl, by simpa [afterFolded?] using taken⟩
  | cons l word ih =>
      cases s with
      | nil => simp [afterFolded?] at taken
      | cons c s =>
          simp only [afterFolded?, Option.ite_none_right_eq_some] at taken
          rcases ih taken.2 with ⟨text, folds, rfl⟩
          refine ⟨c :: text, ?_, rfl⟩
          rw [Folds, List.map_cons, List.map_cons, taken.1, folds]

theorem wordEnds_iff : wordEnds s = true ↔ StopsAt isWordChar s := by
  cases s <;> simp [wordEnds]

theorem wordEnds_gap {gap : List Char} (all : Gap gap) (present : gap ≠ []) (s : List Char) :
    wordEnds (gap ++ s) = true := by
  rcases List.exists_cons_of_ne_nil present with ⟨c, gap, rfl⟩
  cases word : isWordChar c with
  | false => simp [wordEnds, word]
  | true =>
      have none := isGap_eq_false word (by decide)
      rw [all c (by simp)] at none
      cases none

theorem Folds.head?_append {word text : List Char} (folds : Folds word text) (present : word ≠ [])
    (rest : List Char) : (text ++ rest).head?.map Char.toUpper = word.head?.map Char.toUpper := by
  have heads := congrArg List.head? folds
  rw [List.head?_map, List.head?_map] at heads
  cases text with
  | nil => exact absurd (by simpa [Folds] using folds.symm) present
  | cons c t => exact heads

theorem keyword?_nil (s : List Char) : keyword? [] s = if wordEnds s then some s else none := rfl

theorem keyword?_cons_cons (l c : Char) (word s : List Char) :
    keyword? (l :: word) (c :: s) = if c.toUpper = l.toUpper then keyword? word s else none := by
  by_cases same : c.toUpper = l.toUpper <;> simp [keyword?, afterFolded?, same]

theorem keyword?_folds {word text : List Char} (folds : Folds word text)
    (ends : wordEnds rest = true) : keyword? word (text ++ rest) = some rest := by
  simp [keyword?, afterFolded?_folds folds, ends]

theorem keyword?_self (word : List Char) (ends : wordEnds rest = true) :
    keyword? word (word ++ rest) = some rest :=
  keyword?_folds rfl ends

theorem of_keyword? {word : List Char} (taken : keyword? word s = some rest) :
    ∃ text, Folds word text ∧ s = text ++ rest :=
  of_afterFolded? (Option.filter_eq_some_iff.1 taken).1

theorem wordEnds_of_keyword? {word : List Char} (taken : keyword? word s = some rest) :
    wordEnds rest = true :=
  (Option.filter_eq_some_iff.1 taken).2

theorem keyword?_of_head {word : List Char} (present : word ≠ [])
    (other : s.head?.map Char.toUpper ≠ word.head?.map Char.toUpper) : keyword? word s = none := by
  rcases List.exists_cons_of_ne_nil present with ⟨l, word, rfl⟩
  cases s with
  | nil => rfl
  | cons c s =>
      have apart : c.toUpper ≠ l.toUpper := by simpa using other
      simp [keyword?, afterFolded?, apart]

theorem after?_nil (s : List Char) : after? [] s = some s := rfl

theorem after?_cons_cons (a b : Char) (lead s : List Char) :
    after? (a :: lead) (b :: s) = if b = a then after? lead s else none := rfl

theorem after?_self (lead rest : List Char) : after? lead (lead ++ rest) = some rest := by
  induction lead with
  | nil => rfl
  | cons c lead ih => simp [after?, ih]

theorem of_after? {lead : List Char} (taken : after? lead s = some rest) : s = lead ++ rest := by
  induction lead generalizing s with
  | nil => simpa [after?] using taken
  | cons l lead ih =>
      cases s with
      | nil => simp [after?] at taken
      | cons c s =>
          simp only [after?, Option.ite_none_right_eq_some] at taken
          rw [ih taken.2, taken.1, List.cons_append]

inductive BareWord : List Char → Prop where
  | mk {c : Char} {s : List Char} (start : isWordStart c = true)
      (all : ∀ x ∈ s, isNameChar x = true) : BareWord (c :: s)

theorem isWordChar_of_isWordStart {c : Char} (start : isWordStart c = true) :
    isWordChar c = true := by
  simp only [isWordStart, isWordChar, Char.isAlphanum, Bool.or_eq_true] at start ⊢
  exact start.imp_right .inl

theorem isNameChar_of_isWordStart {c : Char} (start : isWordStart c = true) :
    isNameChar c = true := by
  simp [isNameChar, isWordChar_of_isWordStart start]

theorem bareWord_iff :
    BareWord s ↔ (s.head?.any isWordStart && s.tail.all isNameChar) = true := by
  cases s with
  | nil => exact ⟨nofun, nofun⟩
  | cons c s =>
      rw [List.head?_cons, Option.any_some, List.tail_cons, Bool.and_eq_true, List.all_eq_true]
      constructor
      · rintro ⟨start, all⟩
        exact ⟨start, all⟩
      · rintro ⟨start, all⟩
        exact .mk start all

instance (s : List Char) : Decidable (BareWord s) := decidable_of_iff _ bareWord_iff.symm

theorem BareWord.ne_nil (word : BareWord s) : s ≠ [] := by
  cases word
  simp

theorem BareWord.isNameChar (word : BareWord s) : ∀ c ∈ s, isNameChar c = true := by
  rcases word with ⟨start, all⟩
  intro c member
  rcases List.mem_cons.1 member with rfl | later
  · exact isNameChar_of_isWordStart start
  · exact all c later

end CrossDialect.Text
