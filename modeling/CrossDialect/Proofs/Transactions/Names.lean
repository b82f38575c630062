import CrossDialect.Proofs.Quoting.Names
import CrossDialect.Proofs.Transactions.Levels

/-!
The names of savepoints as a server reads them. They stand in their statements without quotes,
so they have to be words. Whatever the stem is, no character leaves a word, and nothing else
stands behind the words of the dialect. Only a digit at the head of the stem stays in place, and
a name that begins with a digit is no identifier.
-/

namespace CrossDialect

namespace Text

inductive Identifier : List Char → Prop where
  | mk {c : Char} {s : List Char} (start : isWordStart c = true)
      (all : ∀ x ∈ s, isWordChar x = true) : Identifier (c :: s)

theorem isWordStart_iff {c : Char} (word : isWordChar c = true) :
    isWordStart c = true ↔ c.isDigit = false := by
  constructor
  · exact isDigit_of_isWordStart
  · intro digit
    simp only [isWordChar, Char.isAlphanum, digit, Bool.or_false] at word
    exact word

theorem identifier_cons {c : Char} {s : List Char} (all : ∀ x ∈ c :: s, isWordChar x = true) :
    Identifier (c :: s) ↔ c.isDigit = false := by
  rw [← isWordStart_iff (all c (by simp))]
  constructor
  · rintro ⟨start, _⟩
    exact start
  · intro start
    exact ⟨start, fun x later => all x (List.mem_cons_of_mem c later)⟩

end Text

open Text

namespace Placeholder

theorem isWordChar_nameChars (column : List Char) :
    ∀ c ∈ nameChars column, isWordChar c = true := by
  unfold nameChars
  split
  · exact List.all_eq_true.1 rfl
  · intro c member
    rcases List.mem_map.1 member with ⟨x, _, rfl⟩
    split
    · rename_i letter
      simp [isWordChar, letter]
    · decide

/-- A digit at the head stays where it is, and no other character becomes one. -/
theorem nameChars_head (column : List Char) :
    ∃ c s, nameChars column = c :: s ∧
      (c.isDigit = false ↔ ∀ x ∈ column.head?, x.isDigit = false) := by
  cases column with
  | nil => exact ⟨'p', "aram".toList, rfl, iff_of_true rfl nofun⟩
  | cons x column =>
      refine ⟨_, _, rfl, ?_⟩
      simp only [List.head?_cons, Option.mem_def, Option.some.injEq, forall_eq']
      by_cases letter : x.isAlphanum = true
      · rw [if_pos letter]
      · have digit : x.isDigit = false := by
          simp only [Char.isAlphanum, Bool.or_eq_true, not_or, Bool.not_eq_true] at letter
          exact letter.2
        rw [if_neg letter, digit]
        decide

end Placeholder

namespace Manager

theorem toList_savepointName (m : Manager) (number : Nat) :
    (m.savepointName number).toList = m.stem.toList ++ '_' :: (Nat.repr number).toList := by
  simp [savepointName]

theorem savepointName_words (m : Manager) (stem : String)
    (made : m.stem = Placeholder.nameFor stem) (number : Nat) :
    (∀ c ∈ (m.savepointName number).toList, isWordChar c = true) ∧
      (Identifier (m.savepointName number).toList ↔ ∀ c ∈ stem.toList.head?, c.isDigit = false) := by
  have words : ∀ c ∈ (m.savepointName number).toList, isWordChar c = true := by
    rw [toList_savepointName, made, Placeholder.nameFor, String.toList_ofList]
    intro c member
    rcases List.mem_append.1 member with inStem | behind
    · exact Placeholder.isWordChar_nameChars _ c inStem
    rcases List.mem_cons.1 behind with rfl | digit
    · decide
    · have digit := (isNumeral_iff.1 (isNumeral_repr number)).2 c digit
      simp [isWordChar, Char.isAlphanum, digit]
  refine ⟨words, ?_⟩
  rcases Placeholder.nameChars_head stem.toList with ⟨c, s, chars, first⟩
  have spelled : (m.savepointName number).toList = c :: (s ++ '_' :: (Nat.repr number).toList) := by
    rw [toList_savepointName, made, Placeholder.nameFor, String.toList_ofList, chars,
      List.cons_append]
  rw [spelled] at words ⊢
  rw [identifier_cons words, first]

theorem Enters.stem_eq {σ : Type} {m m' : Manager} {c d : Channel σ} {result : Except Error Unit}
    (entered : Enters m c result m' d) : m'.stem = m.stem := by
  cases entered <;> rfl

theorem Leaves.stem_eq {σ : Type} {m m' : Manager} {outcome : Outcome} {c d : Channel σ}
    {result : Except Error Unit} (left : Leaves m outcome c result m' d) : m'.stem = m.stem := by
  cases left <;> rfl

end Manager

def Control.name? : Control → Option String
  | .savepoint name | .release name | .rollbackTo name => some name
  | .begin | .commit | .rollback => none

def Dialect.savepointWords (d : Dialect) : List String :=
  let words := d.profile.transaction
  words.savepoint :: words.rollbackTo :: words.release.toList

theorem Control.sql?_named {d : Dialect} {k : Control} {name sql : String}
    (named : k.name? = some name) (written : k.sql? d = some sql) :
    ∃ words ∈ d.savepointWords, sql = words ++ " " ++ name := by
  cases k with
  | begin | commit | rollback => cases named
  | savepoint | rollbackTo =>
      cases named
      cases written
      exact ⟨_, by simp [Dialect.savepointWords], rfl⟩
  | release =>
      cases named
      rcases Option.map_eq_some_iff.1 written with ⟨words, release, rfl⟩
      exact ⟨words, by simp [Dialect.savepointWords, release], rfl⟩

namespace Managed

variable {σ : Type} {connection : Connection σ} {w : Managed σ}

theorem stem_step (w : Managed σ) (turn : Turn) :
    (w.step turn).manager.stem = w.manager.stem := by
  cases turn with
  | enter =>
      have entered := w.manager.enters w.channel
      exact entered.stem_eq
  | leave outcome =>
      have left := w.manager.leaves outcome w.channel
      exact left.stem_eq

theorem stem_run (w : Managed σ) (turns : List Turn) :
    (w.run turns).manager.stem = w.manager.stem := by
  induction turns generalizing w with
  | nil => rfl
  | cons turn turns ih =>
      have first := w.stem_step turn
      have others := ih (w.step turn)
      exact others.trans first

/-- A name stands in commands only if a savepoint was to be set under it. -/
def NamesTried (w : Managed σ) : Prop :=
  ∀ k ∈ w.commands, ∀ name, k.name? = some name → name ∈ w.named

theorem NamesTried.sent (tried : w.NamesTried) {m : Manager} {d : Channel (Noted σ)} {k : Control}
    (sent : d.backend.commands = w.commands ++ [k])
    (known : ∀ name, k.name? = some name → k.savepoint? = some name ∨ name ∈ w.named) :
    NamesTried ⟨m, d⟩ := by
  have named : named ⟨m, d⟩ = w.named ++ (k.savepoint?).toList := by
    cases set : k.savepoint? <;> simp [Managed.named, commands, sent, set]
  intro k' member name stands
  rw [named, List.mem_append]
  rw [commands, sent, List.mem_append, List.mem_singleton] at member
  rcases member with before | rfl
  · exact .inl (tried k' before name stands)
  · rcases known name stands with set | old
    · exact .inr (by simp [set])
    · exact .inl old

theorem NamesTried.step (tried : w.NamesTried) (sound : w.Sound connection) (turn : Turn) :
    (w.step turn).NamesTried := by
  cases turn with
  | enter =>
      have entered := w.manager.enters w.channel
      have form : w.step .enter =
          ⟨(w.manager.enter w.channel).2.1, (w.manager.enter w.channel).2.2⟩ := rfl
      rw [form]
      generalize w.manager.enter w.channel = after at entered
      rcases after with ⟨result, m, d⟩
      cases entered with
      | opened _ answer | unopened _ answer =>
          obtain ⟨_, _, sent⟩ := sound.control answer rfl rfl
          exact tried.sent sent fun name stands => by cases stands
      | set _ answer | unset _ answer =>
          obtain ⟨_, _, sent⟩ := sound.control answer rfl rfl
          exact tried.sent sent fun name stands => .inl stands
  | leave outcome =>
      have left := w.manager.leaves outcome w.channel
      have form : w.step (.leave outcome) =
          ⟨(w.manager.leave outcome w.channel).2.1, (w.manager.leave outcome w.channel).2.2⟩ := rfl
      rw [form]
      generalize w.manager.leave outcome w.channel = after at left
      rcases after with ⟨result, m, d⟩
      cases left with
      | idle | unrecorded => exact tried
      | ended _ answer =>
          obtain ⟨_, _, sent⟩ := sound.control answer rfl rfl
          refine tried.sent sent ?_
          intro name stands
          cases outcome <;> cases stands
      | left _ recorded answer =>
          obtain ⟨_, _, sent⟩ := sound.control answer rfl rfl
          refine tried.sent sent ?_
          intro name' stands
          -- the innermost savepoint is one that was set
          have recent : name' ∈ w.manager.savepoints := by
            rw [recorded]
            cases outcome <;> cases stands <;> simp
          exact .inr (sound.known.subset recent)

theorem NamesTried.run (tried : w.NamesTried) (sound : w.Sound connection) (turns : List Turn) :
    (w.run turns).NamesTried := by
  induction turns generalizing w with
  | nil => exact tried
  | cons turn turns ih => exact ih (tried.step sound turn) (sound.step turn)

end Managed

/-- Every name in a command of a manager is a run of word characters, behind the words of the
dialect and with nothing after it. It is an identifier unless the stem begins with a digit. -/
theorem savepoint_names_are_words {σ : Type} (connection : Connection σ) (backend : σ)
    (stem : String) (turns : List Turn) :
    let w := (Managed.start connection backend stem).run turns
    ∀ k ∈ w.commands, ∀ name, k.name? = some name →
      (∀ c ∈ name.toList, isWordChar c = true) ∧
      (Identifier name.toList ↔ ∀ c ∈ stem.toList.head?, c.isDigit = false) ∧
      ∀ d sql, k.sql? d = some sql → ∃ words ∈ d.savepointWords, sql = words ++ " " ++ name := by
  intro w k member name stands
  have sound : w.Sound connection := (Managed.sound_start connection backend stem).run turns
  have tried : w.NamesTried := by
    have none : (Managed.start connection backend stem).NamesTried := by
      intro k member
      cases member
    exact none.run (Managed.sound_start connection backend stem) turns
  have made : w.manager.stem = Placeholder.nameFor stem := Managed.stem_run _ turns
  have numbered := tried k member name stands
  rw [sound.numbered] at numbered
  rcases List.mem_map.1 numbered with ⟨number, _, rfl⟩
  rcases w.manager.savepointName_words stem made number with ⟨words, identifier⟩
  exact ⟨words, identifier, fun d sql written => Control.sql?_named stands written⟩

def Connection.yielding (t : Target) : Connection Unit where
  target := t
  control _ s := (.ok (), s)
  execute _ params s := (.ok params.length, s)

theorem savepoint_names_are_words_quoted :
    let w := (Managed.start (.yielding (.ofDialect .sqlServer)) () "réf'; --").run
      [.enter, .enter, .leave .discard]
    let name := "r_f______1"
    let sql := "ROLLBACK TRANSACTION r_f______1"
    Control.rollbackTo name ∈ w.commands ∧ (Control.rollbackTo name).name? = some name ∧
      (Control.rollbackTo name).sql? .sqlServer = some sql ∧
      (∀ c ∈ name.toList, isWordChar c = true) ∧ Identifier name.toList ∧
      ∃ words ∈ Dialect.sqlServer.savepointWords, sql = words ++ " " ++ name := by
  intro w name sql
  have member : Control.rollbackTo name ∈ w.commands := by decide +kernel
  rcases savepoint_names_are_words (.yielding (.ofDialect .sqlServer)) () "réf'; --"
    [.enter, .enter, .leave .discard] _ member name rfl with ⟨words, identifier, behind⟩
  have letter : ∀ c ∈ "réf'; --".toList.head?, c.isDigit = false := by simp [Char.isDigit]
  exact ⟨member, rfl, rfl, words, identifier.2 letter, behind .sqlServer sql rfl⟩

/-- The stem `1st` is kept as it is, and its names are no identifiers. -/
theorem leading_digit_keeps_name_from_identifier :
    let w := (Managed.start (.yielding (.ofDialect .postgres)) () "1st").run [.enter, .enter]
    let k := Control.savepoint "1st_1"
    k ∈ w.commands ∧ k.sql? .postgres = some "SAVEPOINT 1st_1" ∧
      ¬ Identifier "1st_1".toList := by
  intro w k
  refine ⟨by decide +kernel, rfl, ?_⟩
  rintro ⟨start, _⟩
  exact absurd start (by decide)

end CrossDialect
