import CrossDialect.Condition.Shorthand
import CrossDialect.Proofs.Conditions.Spelling
import Mathlib.Data.List.Basic

/-!
What becomes of a text that is given with a shorthand key. It stays a text, in a pattern
with percent signs around it, and only a text that is as a whole a list of two operands
is taken apart. Those two are read like the operands of a condition, so a call and a name
among them leave the text as SQL.
-/

namespace CrossDialect

open Text

/-- Is the value written as SQL or as an identifier, and not as data? -/
def Value.isCode : Value → Bool
  | .raw _ | .column _ => true
  | _ => false

theorem Spells.form_of_isCode {form : Form} {text : List Char} {v : Value}
    (spells : Spells form text v) (code : v.isCode = true) : form = .call ∨ form = .name := by
  cases spells with
  | call => exact .inl rfl
  | name => exact .inr rfl
  | literal | whole | decimal | question | numbered | named | null | bool =>
      exact absurd code Bool.false_ne_true

def PairText (low high : Spelled) (s : List Char) : Prop :=
  ∃ gap list gap', Gap gap ∧ Gap gap' ∧ ListText [low, high] list ∧ s = gap ++ list ++ gap'

theorem Grammar.of_wholeList? {s : List Char} {vs : List Value}
    (taken : wholeList? s = some vs) :
    ∃ os gap list gap', os.map Spelled.value = vs ∧ Gap gap ∧ Gap gap' ∧ ListText os list ∧
      s = gap ++ list ++ gap' := by
  simp only [wholeList?, Option.bind_eq_bind, Option.bind_eq_some_iff, Prod.exists,
    Option.ite_none_right_eq_some, Option.some.injEq] at taken
  rcases taken with ⟨vs', rest, listed, blank, rfl⟩
  rcases append_skipGap s with ⟨gap, all, split⟩
  rcases of_valueList listed with ⟨os, list, values, split', spelled⟩
  have trailing : Gap rest := all_of_dropWhile (List.isEmpty_iff.1 blank)
  refine ⟨os, gap, list, rest, values, all, trailing, spelled, ?_⟩
  rw [List.append_assoc, ← split', ← split]

namespace Shorthand

theorem of_range? {text : String} {vs : List Value} (taken : range? (.text text) = some vs) :
    ∃ low high : Spelled, vs = [low.value, high.value] ∧ PairText low high text.toList := by
  simp only [range?, Value.text?, Option.bind_eq_bind, Option.bind_some,
    Option.ite_none_right_eq_some, Option.bind_eq_some_iff, Option.some.injEq] at taken
  rcases taken with ⟨_, vs', listed, two, rfl⟩
  rcases Grammar.of_wholeList? listed with ⟨os, gap, list, gap', values, all, all', spelled, split⟩
  rw [← values, List.length_map] at two
  rcases List.length_eq_two.1 two with ⟨low, high, rfl⟩
  exact ⟨low, high, values.symm, gap, list, gap', all, all', spelled, split⟩

/-- How a text is read: as it is, as a pattern, or as the two bounds written in it. -/
inductive TextRead (text : String) : Operator → List Value → Prop where
  | kept (op : Operator) : TextRead text op [.text text]
  | pattern {op : Operator} (leading trailing : Bool) (like : op = .like ∨ op = .notLike) :
      TextRead text op [.text (String.ofList (patternText leading trailing text.toList))]
  | bounds {op : Operator} {low high : Spelled} (range : op = .between ∨ op = .notBetween)
      (pair : PairText low high text.toList) : TextRead text op [low.value, high.value]

theorem TextRead.of_isCode {text : String} {op : Operator} {vs : List Value}
    (read : TextRead text op vs) {v : Value} (member : v ∈ vs)
    (code : v.isCode = true) :
    (op = .between ∨ op = .notBetween) ∧
      ∃ low high, PairText low high text.toList ∧ vs = [low.value, high.value] ∧
        ∃ o ∈ [low, high], o.value = v ∧ (o.form = .call ∨ o.form = .name) := by
  cases read with
  | kept =>
      obtain rfl := List.mem_singleton.1 member
      exact absurd code Bool.false_ne_true
  | pattern =>
      obtain rfl := List.mem_singleton.1 member
      exact absurd code Bool.false_ne_true
  | @bounds low high range pair =>
      obtain ⟨o, written, rfl⟩ : ∃ o ∈ [low, high], o.value = v := by simpa [eq_comm] using member
      exact ⟨range, low, high, pair, rfl, o, written, rfl, o.spells.form_of_isCode code⟩

theorem Choice.textRead {c : Choice} (range : c.within = .between ∨ c.within = .notBetween)
    (text : String) : TextRead text (c.classify (.text text)).1 (c.classify (.text text)).2 := by
  simp only [classify]
  cases taken : range? (.text text) with
  | none => exact .kept c.same
  | some vs =>
      rcases of_range? taken with ⟨low, high, rfl, pair⟩
      exact .bounds range pair

theorem Modifier.textRead {m : Modifier} {text : String} {op : Operator} {vs : List Value}
    (read : m.classify (.text text) = .ok (op, vs)) : TextRead text op vs := by
  cases m with
  | plain =>
      obtain ⟨rfl, rfl⟩ := Prod.mk.inj (Except.ok.inj read)
      exact Choice.textRead (.inl rfl) text
  | negated =>
      obtain ⟨rfl, rfl⟩ := Prod.mk.inj (Except.ok.inj read)
      exact Choice.textRead (.inr rfl) text
  | compare sign =>
      obtain ⟨rfl, rfl⟩ := Prod.mk.inj (Except.ok.inj read)
      exact .kept sign
  | like leading trailing negates =>
      obtain ⟨rfl, rfl⟩ := Prod.mk.inj (Except.ok.inj read)
      refine .pattern leading trailing ?_
      cases negates
      · exact .inl rfl
      · exact .inr rfl

theorem of_parse {key : String} {v : Value} {c : Condition} (parsed : parse key v = .ok c) :
    ∃ m : Modifier, m.classify v = .ok (c.op, c.operands) := by
  simp only [parse] at parsed
  cases split : splitKey key with
  | error e => simp [split, bind, Except.bind] at parsed
  | ok entry =>
      rcases entry with ⟨column, m⟩
      cases read : m.classify v with
      | error fault => simp [split, read, bind, Except.bind, Except.mapError] at parsed
      | ok chosen =>
          simp only [split, read, bind, Except.bind, Except.mapError] at parsed
          obtain rfl := Except.ok.inj parsed
          exact ⟨m, read⟩

end Shorthand

/-- A text given with a shorthand key stays data, unless bounds are asked for and it is
as a whole a list of two operands. Of these, SQL or an identifier is what was written
there as a call or as a name. -/
theorem shorthand_text_stays_data (key text : String) (c : Condition)
    (parsed : Shorthand.parse key (.text text) = .ok c) :
    Shorthand.TextRead text c.op c.operands ∧
      ∀ v ∈ c.operands, v.isCode = true → (c.op = .between ∨ c.op = .notBetween) ∧
        ∃ low high, PairText low high text.toList ∧ c.operands = [low.value, high.value] ∧
          ∃ o ∈ [low, high], o.value = v ∧ (o.form = .call ∨ o.form = .name) := by
  rcases Shorthand.of_parse parsed with ⟨m, classified⟩
  have read := Shorthand.Modifier.textRead classified
  refine ⟨read, ?_⟩
  intro v member code
  exact read.of_isCode member code

theorem exists_ok_of_any {ε α : Type} {x : Except ε α} {p : α → Bool}
    (held : x.toOption.any p = true) : ∃ a, x = .ok a ∧ p a = true := by
  cases x with
  | error e => exact absurd held Bool.false_ne_true
  | ok a => exact ⟨a, rfl, held⟩

theorem shorthand_text_stays_data_bounds :
    ∃ c, Shorthand.parse "age-" (.text " ( 18, u.most ) ") = .ok c ∧
      c.operands.map Value.isCode = [false, true] ∧ c.op = .notBetween ∧
      ∃ low high, PairText low high " ( 18, u.most ) ".toList ∧
        c.operands = [low.value, high.value] ∧ (high.form = .call ∨ high.form = .name) := by
  rcases exists_ok_of_any (x := Shorthand.parse "age-" (.text " ( 18, u.most ) "))
    (p := fun c => c.operands.map Value.isCode == [false, true] && c.op == .notBetween)
    (by decide +kernel) with ⟨c, parsed, held⟩
  obtain ⟨codes, op⟩ : c.operands.map Value.isCode = [false, true] ∧ c.op = .notBetween := by
    simpa using held
  have stays := shorthand_text_stays_data _ _ _ parsed
  obtain ⟨v, member, code⟩ : ∃ v ∈ c.operands, v.isCode = true := by
    have last : true ∈ c.operands.map Value.isCode := by simp [codes]
    exact List.mem_map.1 last
  rcases stays.2 v member code with ⟨_, low, high, pair, bounds, _⟩
  have second : low.value.isCode = false ∧ high.value.isCode = true := by
    simpa [bounds] using codes
  exact ⟨c, parsed, codes, op, low, high, pair, bounds, high.spells.form_of_isCode second.2⟩

/-- A text with a call and a name in it becomes SQL and an identifier. -/
theorem shorthand_text_becomes_code :
    ∃ c, Shorthand.parse "age" (.text "(NOW(), a)") = .ok c ∧
      c.operands.map Value.isCode = [true, true] ∧
      ∃ p, c.toPredicate = .ok p ∧
        p.render (.ofDialect .postgres) = "(\"age\" BETWEEN NOW() AND \"a\")" := by
  rcases exists_ok_of_any (x := Shorthand.parse "age" (.text "(NOW(), a)"))
    (p := fun c => c.operands.map Value.isCode == [true, true] &&
      c.toPredicate.toOption.any fun p =>
        p.render (.ofDialect .postgres) == "(\"age\" BETWEEN NOW() AND \"a\")")
    (by decide +kernel) with ⟨c, parsed, held⟩
  rw [Bool.and_eq_true, beq_iff_eq] at held
  rcases exists_ok_of_any held.2 with ⟨p, made, shown⟩
  exact ⟨c, parsed, held.1, p, made, beq_iff_eq.1 shown⟩

end CrossDialect
