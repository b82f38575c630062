import CrossDialect.Ident
import CrossDialect.Placeholder
import CrossDialect.Text.Blank
import CrossDialect.Text.Pieces

/-!
Names and strings in a dialect's quotes. Inside quotes the closing quote is
doubled, so the quotes end where they should. Expressions, numbers, the star and
placeholders are no names and stay as they are.
-/

namespace CrossDialect

open Text

namespace Dialect

def quoteSegment (d : Dialect) (name : List Char) : List Char :=
  let close := d.profile.closeQuote
  d.profile.openQuote :: name.flatMap (fun c => if c = close then [c, c] else [c]) ++ [close]

end Dialect

def Ident.Part.write (d : Dialect) : Ident.Part → List Char
  | .bare name | .quoted name => d.quoteSegment name.toList
  | .star => ['*']

def Ident.write (d : Dialect) (i : Ident) : List Char :=
  ['.'].intercalate (i.parts.map (Ident.Part.write d))

def Ident.sql (d : Dialect) (i : Ident) : String :=
  String.ofList (i.write d)

namespace Quoting

def lastAs : List Char → Option (List Char × List Char)
  | [] => none
  | c :: s =>
    match lastAs s with
    | some (before, behind) => some (c :: before, behind)
    | none => (afterFolded? " AS ".toList (c :: s)).map fun behind => ([], behind)

/-- An expression and its alias. The alias is one word without parentheses. -/
def splitAlias (s : List Char) : Option (List Char × List Char) :=
  match lastAs s with
  | none => none
  | some (before, behind) =>
    let (expression, aliasName) := (trim before, trim behind)
    if expression.isEmpty || aliasName.isEmpty
        || aliasName.any (fun c => c == '(' || c == ')' || c == ' ')
    then none
    else some (expression, aliasName)

theorem length_lastAs {s before behind : List Char} (h : lastAs s = some (before, behind)) :
    s.length = before.length + 4 + behind.length := by
  induction s generalizing before with
  | nil => simp [lastAs] at h
  | cons c s ih =>
    simp only [lastAs] at h
    split at h
    · rename_i hs
      simp only [Option.some.injEq, Prod.mk.injEq] at h
      obtain ⟨rfl, rfl⟩ := h
      have := ih hs
      simp only [List.length_cons]
      omega
    · obtain ⟨rest, ha, he⟩ := Option.map_eq_some_iff.1 h
      simp only [Prod.mk.injEq] at he
      obtain ⟨rfl, rfl⟩ := he
      have := length_afterFolded? ha
      simpa [Nat.add_comm] using this

theorem length_splitAlias {s expression aliasName : List Char}
    (h : splitAlias s = some (expression, aliasName)) :
    expression.length < s.length ∧ aliasName.length < s.length := by
  unfold splitAlias at h
  split at h
  · simp at h
  · rename_i before behind hs
    simp only [Option.ite_none_left_eq_some, Option.some.injEq, Prod.mk.injEq] at h
    obtain ⟨-, rfl, rfl⟩ := h
    have := length_lastAs hs
    have := length_trim_le before
    have := length_trim_le behind
    omega

/-- Digits and points with an optional minus, holding at least one digit. -/
def isNumber (s : List Char) : Bool :=
  let body := match s with
    | '-' :: r => r
    | r => r
  body.any Char.isDigit && body.all fun c => c.isDigit || c == '.'

/-- Text that is no name and is written as it stands. -/
def passesThrough (s : List Char) : Bool :=
  s.isEmpty || s == ['*'] || isNumber s || (Placeholder.styleOf s none).isSome
    || s.any fun c => c == '(' || c == ' ' || c == '\t' || c == '\n'

/-- A name that has no alias. What is no identifier is quoted piece by piece. -/
def quotePlain (d : Dialect) (s : List Char) : List Char :=
  if passesThrough s then s
  else match Ident.parseChars s with
    | .ok i => i.write d
    | .error _ => ['.'].intercalate ((pieces '.' s).map d.quoteSegment)

/-- A name with its surrounding blanks removed. With an alias both sides are quoted. -/
def quoteName (d : Dialect) (s : List Char) : List Char :=
  match _h : splitAlias (trim s) with
  | some (expression, aliasName) =>
    quoteName d expression ++ " AS ".toList ++ quoteName d aliasName
  | none => quotePlain d (trim s)
termination_by s.length
decreasing_by
  all_goals
    have := length_splitAlias _h
    have := length_trim_le s
    omega

def escapeChar (backslashes : Bool) (c : Char) : List Char :=
  if c = '\'' then ['\'', '\'']
  else if backslashes && c == '\\' then ['\\', '\\']
  else if backslashes && c == '\x00' then ['\\', '0']
  else [c]

end Quoting

namespace Dialect

def quoteIdentifier (d : Dialect) (name : String) : String :=
  String.ofList (Quoting.quoteName d name.toList)

def escape (d : Dialect) (text : String) : String :=
  String.ofList (text.toList.flatMap (Quoting.escapeChar d.profile.backslashEscapes))

end Dialect

/-- What a statement is rendered for: a dialect and the way strings are escaped on
the connection. -/
structure Target where
  dialect : Dialect
  escape : String → String

namespace Target

def ofDialect (d : Dialect) : Target := ⟨d, d.escape⟩

def profile (t : Target) : Profile := t.dialect.profile

def quoteIdentifier (t : Target) (name : String) : String :=
  t.dialect.quoteIdentifier name

def quoteString (t : Target) (text : String) : String :=
  "'" ++ t.escape text ++ "'"

end Target

end CrossDialect
