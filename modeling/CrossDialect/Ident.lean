import CrossDialect.Error
import CrossDialect.Text.Word

/-!
Identifiers are dotted parts: bare words, quoted names in any of three quote
styles, and a star in the last place. Inside quotes the closing quote is written
twice.
-/

namespace CrossDialect

open Text

namespace Ident

inductive Part where
  | bare (name : String)
  | quoted (name : String)
  | star
  deriving DecidableEq

def quotedName (close : Char) : List Char → Except IdentFault (List Char × List Char)
  | [] => .error .unclosedQuote
  | c :: s =>
    if c = close then
      match s with
      | d :: r =>
        if d = close then (quotedName close r).map fun (name, rest) => (close :: name, rest)
        else .ok ([], d :: r)
      | [] => .ok ([], [])
    else (quotedName close s).map fun (name, rest) => (c :: name, rest)

/-- The characters of a bare word up to a dot or the end. `first` holds at the word's
first character, which may be neither a digit nor a dollar sign. -/
def bareName (first : Bool) : List Char → Except IdentFault (List Char × List Char)
  | [] => .ok ([], [])
  | c :: s =>
    if c = '.' then .ok ([], c :: s)
    else if if first then isWordStart c else isNameChar c then
      (bareName false s).map fun (name, rest) => (c :: name, rest)
    else .error (.badCharacter c)

def part : List Char → Except IdentFault (Part × List Char)
  | [] => .error .emptySegment
  | c :: s =>
    if c = '*' then .ok (.star, s)
    else
      match closingQuote? c with
      | some close =>
        match quotedName close s with
        | .error fault => .error fault
        | .ok ([], _) => .error .emptyQuoted
        | .ok (name, rest) => .ok (.quoted (String.ofList name), rest)
      | none =>
        match bareName true (c :: s) with
        | .error fault => .error fault
        | .ok ([], _) => .error .emptySegment
        | .ok (name, rest) => .ok (.bare (String.ofList name), rest)

theorem map_eq_ok {ε α β : Type} {f : α → β} {e : Except ε α} {b : β} (h : e.map f = .ok b) :
    ∃ a, e = .ok a ∧ f a = b := by
  cases e with
  | error => simp [Except.map] at h
  | ok a => exact ⟨a, rfl, by simpa [Except.map] using h⟩

theorem length_quotedName_le {close : Char} {s name rest : List Char}
    (h : quotedName close s = .ok (name, rest)) : rest.length ≤ s.length := by
  fun_induction quotedName close s generalizing name rest with
  | case1 => simp at h
  | case2 r ih =>
    obtain ⟨⟨n, t⟩, hq, he⟩ := map_eq_ok h
    obtain ⟨-, rfl⟩ := Prod.mk.inj he
    have := ih hq
    simp only [List.length_cons]
    omega
  | case3 => simp at h; simp [← h.2]
  | case4 => simp at h; simp [← h.2]
  | case5 c s _ ih =>
    obtain ⟨⟨n, t⟩, hq, he⟩ := map_eq_ok h
    obtain ⟨-, rfl⟩ := Prod.mk.inj he
    have := ih hq
    simp only [List.length_cons]
    omega

theorem length_bareName_le {first : Bool} {s name rest : List Char}
    (h : bareName first s = .ok (name, rest)) : rest.length ≤ s.length := by
  fun_induction bareName first s generalizing name rest with
  | case1 => simp at h; simp [← h.2]
  | case2 => simp at h; simp [← h.2]
  | case3 first c s _ _ ih =>
    obtain ⟨⟨n, t⟩, hb, he⟩ := map_eq_ok h
    obtain ⟨-, rfl⟩ := Prod.mk.inj he
    have := ih hb
    simp only [List.length_cons]
    omega
  | case4 => simp at h

theorem length_part_le {s rest : List Char} {p : Part} (h : part s = .ok (p, rest)) :
    rest.length ≤ s.length := by
  cases s with
  | nil => simp [part] at h
  | cons c s =>
    simp only [part] at h
    split at h
    · simp at h; simp [← h.2]
    · split at h
      · split at h <;> simp at h
        rename_i hq
        have := length_quotedName_le hq
        simp only [List.length_cons, ← h.2]
        omega
      · split at h <;> simp at h
        rename_i hb
        have := length_bareName_le hb
        simpa [← h.2] using this

/-- Parts with dots between them. A star ends the list. -/
def dotted (s : List Char) : Except IdentFault (List Part) :=
  match _h : part s with
  | .error fault => .error fault
  | .ok (p, []) => .ok [p]
  | .ok (p, c :: r) =>
    if p = .star then .error .starNotLast
    else if c ≠ '.' then .error (.noDot c)
    else if r.isEmpty then .error .trailingDot
    else (dotted r).map (p :: ·)
termination_by s.length
decreasing_by
  have := length_part_le _h
  simp at this
  omega

end Ident

structure Ident where
  parts : List Ident.Part
  deriving DecidableEq

namespace Ident

def parseChars (s : List Char) : Except IdentFault Ident :=
  if s.isEmpty then .error .empty
  else if '\x00' ∈ s then .error .holdsNul
  else (dotted s).map Ident.mk

def parse (s : String) : Except Error Ident :=
  (parseChars s.toList).mapError (.invalidIdentifier s)

def Part.name? : Part → Option String
  | .bare name | .quoted name => some name
  | .star => none

def baseName (i : Ident) : Option String :=
  i.parts.getLast?.bind Part.name?

end Ident

end CrossDialect
