import CrossDialect.Operator

/-!
What the text of a condition says. The predicates in it are atoms, each a text in
parentheses of its own that is true or false. Other parentheses group, and AND binds
tighter than OR. The grammar below is the meaning; the reader is there to show that a
text means one thing only.
-/

namespace CrossDialect

structure Atom where
  text : List Char
  truth : Bool

def Atom.Framed (a : Atom) : Prop := ∃ inner, a.text = '(' :: inner ++ [')']

def Conjunction.spaced (c : Conjunction) : List Char := ' ' :: c.sql.toList ++ [' ']

inductive Level where
  | unit
  | conjunction
  | disjunction

/-- A text with its atoms in order, and its truth value. -/
inductive Reads : Level → List Atom → List Char → Bool → Prop where
  | atom (x : Atom) : Reads .unit [x] x.text x.truth
  | group {atoms text b} :
      Reads .disjunction atoms text b → Reads .unit atoms ('(' :: text ++ [')']) b
  | unit {atoms text b} : Reads .unit atoms text b → Reads .conjunction atoms text b
  | and {atoms before a others behind b} :
      Reads .conjunction atoms before a → Reads .unit others behind b →
      Reads .conjunction (atoms ++ others) (before ++ Conjunction.and.spaced ++ behind) (a && b)
  | conjunction {atoms text b} : Reads .conjunction atoms text b → Reads .disjunction atoms text b
  | or {atoms before a others behind b} :
      Reads .conjunction atoms before a → Reads .disjunction others behind b →
      Reads .disjunction (atoms ++ others) (before ++ Conjunction.or.spaced ++ behind) (a || b)

inductive Token where
  | atom (x : Atom)
  | opening
  | closing
  | word (c : Conjunction)

namespace Token

def text : Token → List Char
  | .atom x => x.text
  | .opening => ['(']
  | .closing => [')']
  | .word c => c.spaced

def atom? : Token → Option Atom
  | .atom x => some x
  | _ => none

def textOf (ts : List Token) : List Char := ts.flatMap text

def atomsOf (ts : List Token) : List Atom := ts.filterMap atom?

@[simp] theorem textOf_nil : textOf [] = [] := rfl

@[simp] theorem textOf_cons (t : Token) (ts : List Token) :
    textOf (t :: ts) = t.text ++ textOf ts := rfl

@[simp] theorem textOf_append (ts us : List Token) :
    textOf (ts ++ us) = textOf ts ++ textOf us :=
  List.flatMap_append

@[simp] theorem atomsOf_nil : atomsOf [] = [] := rfl

@[simp] theorem atomsOf_atom (x : Atom) (ts : List Token) :
    atomsOf (.atom x :: ts) = x :: atomsOf ts := rfl

@[simp] theorem atomsOf_opening (ts : List Token) : atomsOf (.opening :: ts) = atomsOf ts := rfl

@[simp] theorem atomsOf_closing (ts : List Token) : atomsOf (.closing :: ts) = atomsOf ts := rfl

@[simp] theorem atomsOf_word (c : Conjunction) (ts : List Token) :
    atomsOf (.word c :: ts) = atomsOf ts := rfl

@[simp] theorem atomsOf_append (ts us : List Token) :
    atomsOf (ts ++ us) = atomsOf ts ++ atomsOf us :=
  List.filterMap_append

theorem eq_nil_of_textOf {ts : List Token} (spelled : textOf ts = []) (named : atomsOf ts = []) :
    ts = [] := by
  cases ts with
  | nil => rfl
  | cons t ts => cases t <;> simp [text, Conjunction.spaced] at spelled named

end Token

/-- A group that is still open: the disjuncts that are complete, and the one at hand. -/
structure Group where
  earlier : Bool
  current : Bool

namespace Group

def value (g : Group) : Bool := g.earlier || g.current

def meet (g : Group) (b : Bool) : Group := { g with current := g.current && b }

theorem meet_meet (g : Group) (a b : Bool) : (g.meet a).meet b = g.meet (a && b) := by
  simp [meet, Bool.and_assoc]

end Group

/-- The open groups, innermost first, where an operand or an operator comes next. -/
inductive Reader where
  | operand (groups : List Group)
  | operator (groups : List Group)

namespace Reader

def step : Reader → Token → Option Reader
  | .operand (g :: gs), .atom x => some (.operator (g.meet x.truth :: gs))
  | .operand gs, .opening => some (.operand (⟨false, true⟩ :: gs))
  | .operator (g :: gs), .word .and => some (.operand (g :: gs))
  | .operator (g :: gs), .word .or => some (.operand (⟨g.value, true⟩ :: gs))
  | .operator (g :: outer :: gs), .closing => some (.operator (outer.meet g.value :: gs))
  | _, _ => none

def run (r : Reader) : List Token → Option Reader
  | [] => some r
  | t :: ts => (r.step t).bind fun next => next.run ts

theorem run_append (r : Reader) (ts us : List Token) :
    r.run (ts ++ us) = (r.run ts).bind fun next => next.run us := by
  induction ts generalizing r with
  | nil => rfl
  | cons t ts ih =>
      simp only [List.cons_append, run]
      cases r.step t with
      | none => rfl
      | some next => simpa using ih next

end Reader

/-- What the reader does with tokens that hold together at a level and are worth `b`. -/
def Level.Takes (ts : List Token) (b : Bool) : Level → Prop
  | .disjunction => ∀ earlier gs, ∃ g : Group, g.value = (earlier || b) ∧
      (Reader.operand (⟨earlier, true⟩ :: gs)).run ts = some (.operator (g :: gs))
  | _ => ∀ g gs, (Reader.operand (g :: gs)).run ts = some (.operator (g.meet b :: gs))

theorem Reads.tokens {level : Level} {atoms : List Atom} {text : List Char} {b : Bool}
    (reads : Reads level atoms text b) :
    ∃ ts, Token.textOf ts = text ∧ Token.atomsOf ts = atoms ∧ level.Takes ts b := by
  induction reads with
  | atom x =>
      refine ⟨[.atom x], by simp [Token.text], rfl, ?_⟩
      intro g gs
      rfl
  | group _ ih =>
      rcases ih with ⟨ts, rfl, rfl, takes⟩
      refine ⟨.opening :: ts ++ [.closing], by simp [Token.text], by simp, ?_⟩
      intro g gs
      -- a group starts afresh, and its value goes to the group around it
      rcases takes false (g :: gs) with ⟨inner, worth, ran⟩
      simp [Reader.run, Reader.step, Reader.run_append, ran, worth]
  | unit _ ih => exact ih
  | @and _ _ a _ _ b _ _ left right =>
      rcases left with ⟨ts, rfl, rfl, takes⟩
      rcases right with ⟨us, rfl, rfl, takes'⟩
      refine ⟨ts ++ .word .and :: us, by simp [Token.text], by simp, ?_⟩
      intro g gs
      have first := takes g gs
      have second := takes' (g.meet a) gs
      simp [Reader.run_append, first, Reader.run, Reader.step, second, Group.meet_meet]
  | conjunction _ ih =>
      rcases ih with ⟨ts, rfl, rfl, takes⟩
      refine ⟨ts, rfl, rfl, ?_⟩
      intro earlier gs
      exact ⟨_, by simp [Group.value, Group.meet], takes _ gs⟩
  | or _ _ left right =>
      rcases left with ⟨ts, rfl, rfl, takes⟩
      rcases right with ⟨us, rfl, rfl, takes'⟩
      refine ⟨ts ++ .word .or :: us, by simp [Token.text], by simp, ?_⟩
      intro earlier gs
      -- the disjunct at hand is complete, so the rest is read behind both
      have first := takes ⟨earlier, true⟩ gs
      rcases takes' (Group.meet ⟨earlier, true⟩ _).value gs with ⟨g, worth, second⟩
      refine ⟨g, by rw [worth, Group.value, Group.meet, Bool.true_and, Bool.or_assoc], ?_⟩
      simp [Reader.run_append, first, Reader.run, Reader.step, second]

theorem all_same_of_shifted {c : Char} {text rest tail : List Char} {n : Nat}
    (shifted : text ++ tail = List.replicate (n + 1) c ++ text ++ rest) : ∀ x ∈ text, x = c := by
  induction text generalizing n with
  | nil => simp
  | cons y text ih =>
      simp only [List.replicate_succ, List.cons_append, List.cons.injEq] at shifted
      rcases shifted with ⟨rfl, shifted⟩
      -- without its first character the text is shifted by as much as before
      have again : text ++ tail = List.replicate (n + 1) y ++ text ++ rest := by
        rw [shifted, List.replicate_succ']
        simp
      simpa using ih again

/-- An atom closes its parenthesis, so it is never read as an opened group around itself. -/
theorem Atom.Framed.ne_opened {x : Atom} (framed : x.Framed) (tail rest : List Char) (n : Nat) :
    x.text ++ tail ≠ List.replicate (n + 1) '(' ++ x.text ++ rest := by
  intro shifted
  rcases framed with ⟨inner, spelled⟩
  have same := all_same_of_shifted shifted ')' (by simp [spelled])
  exact absurd same (by decide)

namespace Reader

theorem opened_before_atom {gs : List Group} {ts : List Token} {x : Atom} {xs : List Atom}
    (ran : ((Reader.operand gs).run ts).isSome) (next : Token.atomsOf ts = x :: xs) :
    ∃ n rest, Token.textOf ts = List.replicate n '(' ++ x.text ++ rest := by
  induction ts generalizing gs with
  | nil => simp at next
  | cons t ts ih =>
      cases t with
      | atom y =>
          rcases List.cons.inj next with ⟨rfl, _⟩
          exact ⟨0, Token.textOf ts, by simp [Token.text]⟩
      | opening =>
          have inside : ((Reader.operand (⟨false, true⟩ :: gs)).run ts).isSome := by
            simpa [run, step] using ran
          rcases ih inside next with ⟨n, rest, spelled⟩
          exact ⟨n + 1, rest, by simp [Token.text, spelled, List.replicate_succ]⟩
      | closing => simp [run, step] at ran
      | word c => simp [run, step] at ran

theorem atom_not_opened {gs : List Group} {x : Atom} {ts us : List Token} (framed : x.Framed)
    (ran : ((Reader.operand gs).run (.opening :: us)).isSome)
    (spelled : Token.textOf (.atom x :: ts) = Token.textOf (.opening :: us))
    (named : Token.atomsOf (.atom x :: ts) = Token.atomsOf us) : False := by
  have inside : ((Reader.operand (⟨false, true⟩ :: gs)).run us).isSome := by
    simpa [run, step] using ran
  rcases opened_before_atom inside named.symm with ⟨n, rest, opened⟩
  apply framed.ne_opened (Token.textOf ts) rest n
  rw [Token.textOf_cons, Token.textOf_cons, opened] at spelled
  simpa [Token.text, List.replicate_succ] using spelled

theorem first_token_unique {r : Reader} {t u : Token} {ts us : List Token}
    (framed : ∀ x ∈ Token.atomsOf (t :: ts), x.Framed)
    (ran : (r.run (t :: ts)).isSome) (ran' : (r.run (u :: us)).isSome)
    (spelled : Token.textOf (t :: ts) = Token.textOf (u :: us))
    (named : Token.atomsOf (t :: ts) = Token.atomsOf (u :: us)) : t = u := by
  cases r with
  | operand gs =>
      cases t with
      | atom x =>
          cases u with
          | atom y => rw [(List.cons.inj named).1]
          | opening =>
              exact (atom_not_opened (framed x (by simp)) ran' spelled named).elim
          | closing => simp [run, step] at ran'
          | word c => simp [run, step] at ran'
      | opening =>
          cases u with
          | atom y =>
              have member : y ∈ Token.atomsOf (.opening :: ts) := by simp [named]
              exact (atom_not_opened (framed y member) ran spelled.symm named.symm).elim
          | opening => rfl
          | closing => simp [run, step] at ran'
          | word c => simp [run, step] at ran'
      | closing => simp [run, step] at ran
      | word c => simp [run, step] at ran
  | operator gs =>
      -- no operator is the beginning of another one
      cases t with
      | atom x => simp [run, step] at ran
      | opening => simp [run, step] at ran
      | closing =>
          cases u with
          | closing => rfl
          | word c => simp [Token.text, Conjunction.spaced] at spelled
          | _ => simp [run, step] at ran'
      | word c =>
          cases u with
          | word c' =>
              cases c <;> cases c' <;> simp [Token.text, Conjunction.spaced, Conjunction.sql]
                at spelled ⊢
          | closing => simp [Token.text, Conjunction.spaced] at spelled
          | _ => simp [run, step] at ran'

/-- Two runs over the same text and the same atoms go over the same tokens. -/
theorem tokens_unique {r : Reader} {ts us : List Token}
    (framed : ∀ x ∈ Token.atomsOf ts, x.Framed)
    (ran : (r.run ts).isSome) (ran' : (r.run us).isSome)
    (spelled : Token.textOf ts = Token.textOf us)
    (named : Token.atomsOf ts = Token.atomsOf us) : ts = us := by
  induction ts generalizing r us with
  | nil => exact (Token.eq_nil_of_textOf spelled.symm named.symm).symm
  | cons t ts ih =>
      cases us with
      | nil => exact Token.eq_nil_of_textOf spelled named
      | cons u us =>
          -- the reader is in one state behind the token that both begin with
          obtain rfl := first_token_unique framed ran ran' spelled named
          cases next : r.step t with
          | none => simp [run, next] at ran
          | some r' =>
              simp only [run, next, Option.bind_some] at ran ran'
              have named' : Token.atomsOf ts = Token.atomsOf us := by
                cases t <;> simpa using named
              have framed' : ∀ x ∈ Token.atomsOf ts, x.Framed := by
                intro x member
                apply framed
                cases t <;> simp [member]
              rw [ih framed' ran ran' (List.append_cancel_left spelled) named']

end Reader

theorem Reads.text_ne_nil {level : Level} {atoms : List Atom} {text : List Char} {b : Bool}
    (reads : Reads level atoms text b) (framed : ∀ x ∈ atoms, x.Framed) : text ≠ [] := by
  induction reads with
  | atom x =>
      rcases framed x (by simp) with ⟨inner, spelled⟩
      simp [spelled]
  | group _ _ => simp
  | unit _ ih => exact ih framed
  | and _ _ _ _ => simp [Conjunction.spaced]
  | conjunction _ ih => exact ih framed
  | or _ _ _ _ => simp [Conjunction.spaced]

/-- A text has one truth value at most. -/
theorem Reads.unique {atoms : List Atom} {text : List Char} {a b : Bool}
    (framed : ∀ x ∈ atoms, x.Framed) (one : Reads .disjunction atoms text a)
    (other : Reads .disjunction atoms text b) : a = b := by
  rcases one.tokens with ⟨ts, spelled, named, takes⟩
  rcases other.tokens with ⟨us, spelled', named', takes'⟩
  rcases takes false [] with ⟨g, worth, ran⟩
  rcases takes' false [] with ⟨g', worth', ran'⟩
  have same : ts = us := by
    apply Reader.tokens_unique
    · rw [named]
      exact framed
    · rw [ran]
      rfl
    · rw [ran']
      rfl
    · rw [spelled, spelled']
    · rw [named, named']
  subst same
  rw [ran] at ran'
  simp only [Option.some.injEq, Reader.operator.injEq, List.cons.injEq, and_true] at ran'
  subst ran'
  simpa [worth] using worth'

end CrossDialect
