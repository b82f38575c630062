import CrossDialect.Proofs.Placeholders.Slots
import Mathlib.Data.List.Basic

/-!
Names of placeholders. A pass numbers the claims of each base name on its own and
puts the number behind the base from the second claim on. Two names meet only where
a base spells the numbered form of another base; apart from that no name that the
pass makes up is in use when it is made.
-/

namespace CrossDialect

/-- An underscore and a number can be cut off again, since no digit is an underscore. -/
theorem numbered_text_inj {base base' : String} {n n' : Nat}
    (same : base ++ "_" ++ Nat.repr n = base' ++ "_" ++ Nat.repr n') : base = base' ∧ n = n' := by
  have chars : base.toList ++ '_' :: Nat.toDigits 10 n =
      base'.toList ++ '_' :: Nat.toDigits 10 n' := by
    simpa [Nat.toList_repr] using congrArg String.toList same
  have digits : base.toList = base'.toList ∧ Nat.toDigits 10 n = Nat.toDigits 10 n' := by
    rcases List.append_eq_append_iff.1 chars with ⟨gap, _, rest⟩ | ⟨gap, _, rest⟩
    -- if one base were longer, its underscore would stand among the digits of the other
    all_goals
      cases gap with
      | nil => simp_all
      | cons c gap =>
          have inside := List.cons.inj rest
          have : '_' ∈ Nat.toDigits 10 n ∨ '_' ∈ Nat.toDigits 10 n' := by
            simp [inside.2]
          simp at this
  refine ⟨String.toList_inj.1 digits.1, ?_⟩
  have value := congrArg (Nat.ofDigitChars 10 · 0) digits.2
  simpa [Nat.ofDigitChars_toDigits] using value

inductive Call where
  | translate (token : String) (column : Option String)
  | bind (value : Value) (column : Option String)
  | write (value : Value) (column : Option String)

namespace Call

def apply (t : Target) (p : Pass) : Call → String × Pass
  | .translate token column => p.translate t token column
  | .bind value column => p.bind t value column
  | .write value column => p.write t value column

def applyAll (t : Target) (p : Pass) : List Call → List String × Pass
  | [] => ([], p)
  | c :: calls =>
      let first := c.apply t p
      let others := applyAll t first.2 calls
      (first.1 :: others.1, others.2)

def fragments (t : Target) : Call → List Fragment
  | .translate token column =>
      if isToken : Placeholder.isToken token column then [.slot (.token token column isToken)]
      else [.text token]
  | .bind value column => [.slot (.bound value column)]
  | .write value column => value.fragments t column

def slots : Call → List Slot
  | .translate token column =>
      if isToken : Placeholder.isToken token column then [.token token column isToken] else []
  | .bind value column => [.bound value column]
  | .write value column => value.slots column

theorem slots_fragments (t : Target) (c : Call) :
    (c.fragments t).filterMap Fragment.slot? = c.slots := by
  cases c with
  | translate token column =>
      simp only [fragments, slots]
      split <;> rfl
  | bind value column => rfl
  | write value column => exact Value.slots_fragments t column value

theorem apply_eq_run (t : Target) (p : Pass) (c : Call) :
    c.apply t p = p.run t (c.fragments t) := by
  cases c with
  | translate token column =>
      simp only [fragments, apply]
      split
      · rw [Pass.run_slot]; rfl
      · rename_i noToken
        rw [Pass.run_text]
        have unread : Placeholder.style? token column = none := by
          simpa [Placeholder.isToken] using noToken
        simp [Pass.translate, unread]
  | bind value column => simp [fragments, apply, Pass.run_slot, Pass.fill]
  | write value column => exact Pass.write_eq_run t p value column

theorem applyAll_eq_run (t : Target) (p : Pass) (calls : List Call) :
    (String.join (applyAll t p calls).1, (applyAll t p calls).2) =
      p.run t (calls.flatMap (fragments t)) := by
  induction calls generalizing p with
  | nil => rfl
  | cons c calls ih => simp [applyAll, Pass.run_append, apply_eq_run, ← ih]

theorem join_applyAll (t : Target) (p : Pass) (calls : List Call) :
    String.join (applyAll t p calls).1 =
      Fragment.spell (calls.flatMap (fragments t)) (p.fillAll t (calls.flatMap slots)).1 := by
  have slots_eq : (calls.flatMap (fragments t)).filterMap Fragment.slot? = calls.flatMap slots := by
    simp [List.filterMap_flatMap, slots_fragments]
  rw [← slots_eq, ← Pass.run_sql, ← applyAll_eq_run]

def marks (t : Target) (p : Pass) (calls : List Call) : List String :=
  (p.fillAll t (calls.flatMap slots)).1

end Call

namespace Slot

def given : Slot → Bool
  | .bound .. => false
  | .token text column _ => decide (Placeholder.style? text column = some .named)

def base : Slot → String
  | .bound _ column => Placeholder.nameFor (column.getD "param")
  | .token text column _ =>
      if Placeholder.style? text column = some .named then String.ofList (text.toList.drop 1)
      else Placeholder.nameFor (column.getD "param")

end Slot

/-- A name claimed in a pass. The rank counts the claims of its base up to this one. -/
structure Claim where
  base : String
  rank : Nat
  given : Bool

namespace Claim

def plain (c : Claim) : Bool := c.given || c.rank == 1

def numbered (c : Claim) : String := c.base ++ "_" ++ Nat.repr c.rank

def name (c : Claim) : String := if c.plain then c.base else c.numbered

def ofSlots (earlier : List String) : List Slot → List Claim
  | [] => []
  | s :: slots =>
      ⟨s.base, earlier.count s.base + 1, s.given⟩ :: ofSlots (s.base :: earlier) slots

/-- A name with a number is the base of another claim, written without one. -/
def Shadows (numbered plain : Claim) : Prop :=
  numbered.plain = false ∧ plain.plain = true ∧ plain.base = numbered.numbered

end Claim

theorem Placeholder.toList_of_named {token : String} {column : Option String}
    (named : style? token column = some .named) : token.toList = ':' :: token.toList.drop 1 := by
  unfold style? at named
  generalize token.toList = chars at named ⊢
  unfold styleOf at named
  split at named
  · simp at named
  · split at named <;> simp at named
  · rfl
  · simp at named

namespace Pass

variable {t : Target}

theorem fill_named (named : t.profile.placeholder = .named) (p : Pass) (s : Slot) :
    (p.fill t s).1 = ":" ++ (Claim.mk s.base (p.claimed.count s.base + 1) s.given).name ∧
    (p.fill t s).2.claimed = s.base :: p.claimed := by
  cases s with
  | bound value column =>
      simp [fill, bind, next, named, claim, Slot.base, Slot.given, Claim.name, Claim.plain,
        Claim.numbered]
  | token text column isToken =>
      rcases Option.isSome_iff_exists.1 isToken with ⟨style, read⟩
      by_cases own : style = .named
      · subst own
        -- a token in the dialect's own style is written back as it stands
        have spelled : text = ":" ++ String.ofList (text.toList.drop 1) := by
          apply String.ext
          simpa using Placeholder.toList_of_named read
        constructor
        · simpa [fill, translate, read, named, Slot.base, Slot.given, Claim.name, Claim.plain]
            using spelled
        · simp [fill, translate, read, named, note, claim, Slot.base]
      · simp [fill, translate, read, named, own, next, claim, Slot.base, Slot.given, Claim.name,
          Claim.plain, Claim.numbered]

theorem fillAll_named (named : t.profile.placeholder = .named) (p : Pass) (slots : List Slot) :
    (slots.zip (p.fillAll t slots).1).map (fun (s, mark) => (s.given, mark)) =
      (Claim.ofSlots p.claimed slots).map fun c => (c.given, ":" ++ c.name) := by
  induction slots generalizing p with
  | nil => rfl
  | cons s slots ih =>
      rcases fill_named named p s with ⟨mark, claimed⟩
      simp [fillAll, Claim.ofSlots, ih, mark, claimed]

end Pass

namespace Claim

theorem numbered_inj {x y : Claim} (same : x.numbered = y.numbered) :
    x.base = y.base ∧ x.rank = y.rank :=
  numbered_text_inj same

theorem rank_pos {earlier : List String} {slots : List Slot} {c : Claim}
    (claimed : c ∈ ofSlots earlier slots) : earlier.count c.base < c.rank := by
  induction slots generalizing earlier with
  | nil => simp [ofSlots] at claimed
  | cons s slots ih =>
      rcases List.mem_cons.1 claimed with rfl | later
      · exact Nat.lt_succ_self _
      · exact Nat.lt_of_le_of_lt List.count_le_count_cons (ih later)

theorem rank_lt (earlier : List String) (slots : List Slot) :
    (ofSlots earlier slots).Pairwise fun x y =>
      0 < x.rank ∧ (x.base = y.base → x.rank < y.rank) := by
  induction slots generalizing earlier with
  | nil => exact .nil
  | cons s slots ih =>
      refine .cons ?_ (ih _)
      intro y later
      refine ⟨Nat.succ_pos _, ?_⟩
      intro same
      have below := rank_pos later
      simp only at same ⊢
      rw [same] at below ⊢
      simpa using below

theorem name_eq_iff {x y : Claim} (start : 0 < x.rank) (grows : x.base = y.base → x.rank < y.rank)
    (generated : y.given = false) : y.name = x.name ↔ Shadows x y ∨ Shadows y x := by
  cases xPlain : x.plain <;> cases yPlain : y.plain
  -- two bases, or two numbered names, meet only for claims of one base and one rank
  case true.true =>
    have first : y.rank = 1 := by simpa [plain, generated] using yPlain
    have apart : y.base ≠ x.base := fun same => by have := grows same.symm; omega
    simp [name, Shadows, xPlain, yPlain, apart]
  case true.false => simp [name, Shadows, xPlain, yPlain, eq_comm]
  case false.true => simp [name, Shadows, xPlain, yPlain]
  case false.false =>
    have apart : y.numbered ≠ x.numbered := fun same => by
      rcases numbered_inj same with ⟨base, rank⟩
      have := grows base.symm
      omega
    simp [name, Shadows, xPlain, yPlain, apart]

end Claim

/-- No name that the pass makes up was emitted before in the same pass. -/
def Call.GeneratedNamesFresh (t : Target) (calls : List Call) : Prop :=
  ((calls.flatMap Call.slots).zip (Call.marks t {} calls)).Pairwise fun earlier later =>
    later.1.given = false → later.2 ≠ earlier.2

/-- No base that is written without a number spells the numbered name of another claim,
unless it is the caller that writes it and does so later. -/
def Claim.NumbersUnspelled (claims : List Claim) : Prop :=
  claims.Pairwise fun earlier later =>
    later.given = false → ¬ Shadows earlier later ∧ ¬ Shadows later earlier

/-- On a dialect with named placeholders the texts of a run of calls are their fragments
with the marks in the slots. A made-up name among these marks is always fresh exactly
where no base spells the numbered name of another claim. -/
theorem generated_names_fresh_iff (escape : String → String) (calls : List Call) :
    String.join (Call.applyAll ⟨.sqlite, escape⟩ {} calls).1 =
        Fragment.spell (calls.flatMap (Call.fragments ⟨.sqlite, escape⟩))
          (Call.marks ⟨.sqlite, escape⟩ {} calls) ∧
    (Call.GeneratedNamesFresh ⟨.sqlite, escape⟩ calls ↔
      Claim.NumbersUnspelled (Claim.ofSlots [] (calls.flatMap Call.slots))) := by
  refine ⟨Call.join_applyAll _ _ _, ?_⟩
  have filled := Pass.fillAll_named (t := ⟨.sqlite, escape⟩) rfl {} (calls.flatMap Call.slots)
  have ranks := Claim.rank_lt [] (calls.flatMap Call.slots)
  have fresh : Call.GeneratedNamesFresh ⟨.sqlite, escape⟩ calls ↔
      (Claim.ofSlots [] (calls.flatMap Call.slots)).Pairwise fun earlier later =>
        later.given = false → later.name ≠ earlier.name := by
    have mapped := congrArg (List.Pairwise fun (earlier later : Bool × String) =>
      later.1 = false → later.2 ≠ earlier.2) filled
    simpa [List.pairwise_map, Call.GeneratedNamesFresh, Call.marks] using mapped
  rw [fresh]
  constructor
  · intro apart
    refine (ranks.and apart).imp ?_
    rintro x y ⟨⟨start, grows⟩, differ⟩ generated
    have := differ generated
    rw [Ne, Claim.name_eq_iff start grows generated] at this
    exact not_or.1 this
  · intro unspelled
    refine (ranks.and unspelled).imp ?_
    rintro x y ⟨⟨start, grows⟩, free⟩ generated
    rw [Ne, Claim.name_eq_iff start grows generated]
    exact not_or.2 (free generated)

/-- A second value for `age` takes the name that the column `age_2` has already. -/
theorem numbered_name_reused :
    ¬ Call.GeneratedNamesFresh (.ofDialect .sqlite)
      [.bind (.int 1) (some "age"), .bind (.int 2) (some "age_2"),
        .bind (.int 3) (some "age")] := by
  unfold Call.GeneratedNamesFresh
  decide

end CrossDialect
