import CrossDialect.Quoting

/-!
String literals as a database reads them. A doubled quote stands for one quote. Where
backslashes escape, a backslash and the character behind it stand for one character.
A string that was quoted for a dialect is read back by that dialect, to its end.
-/

namespace CrossDialect

namespace Dialect

/-- What a character stands for behind a backslash. The wildcards of a pattern keep
their backslash. -/
def unescaped : Char → List Char
  | '0' => ['\x00']
  | 'b' => ['\x08']
  | 'n' => ['\n']
  | 'r' => ['\r']
  | 't' => ['\t']
  | 'Z' => ['\x1a']
  | '%' => ['\\', '%']
  | '_' => ['\\', '_']
  | c => [c]

/-- The content of a literal behind its opening quote, and what follows the closing one. -/
def contentRest (backslashes : Bool) : List Char → Option (List Char × List Char)
  | [] => none
  | c :: s =>
    if c = '\'' then
      match s with
      | d :: r =>
        if d = '\'' then (contentRest backslashes r).map fun (text, rest) => (c :: text, rest)
        else some ([], d :: r)
      | [] => some ([], [])
    else if backslashes && c == '\\' then
      match s with
      | d :: r => (contentRest backslashes r).map fun (text, rest) => (unescaped d ++ text, rest)
      | [] => none
    else (contentRest backslashes s).map fun (text, rest) => (c :: text, rest)

def readString (d : Dialect) : List Char → Option (List Char × List Char)
  | [] => none
  | c :: s => if c = '\'' then contentRest d.profile.backslashEscapes s else none

/-- The text is one literal, and the database takes it for this string. -/
def Denotes (d : Dialect) (text content : String) : Prop :=
  d.readString text.toList = some (content.toList, [])

theorem contentRest_plain {backslashes : Bool} {c : Char} (quote : c ≠ '\'')
    (backslash : ¬ (backslashes ∧ c = '\\')) (s : List Char) :
    contentRest backslashes (c :: s) =
      (contentRest backslashes s).map fun (text, rest) => (c :: text, rest) := by
  cases s <;> simp [contentRest, quote, backslash]

theorem contentRest_escapeChar (backslashes : Bool) (c : Char) (s : List Char) :
    contentRest backslashes (Quoting.escapeChar backslashes c ++ s) =
      (contentRest backslashes s).map fun (text, rest) => (c :: text, rest) := by
  by_cases quote : c = '\''
  · subst quote
    simp [Quoting.escapeChar, contentRest]
  by_cases backslash : backslashes ∧ c = '\\'
  · rcases backslash with ⟨escapes, rfl⟩
    subst escapes
    simp [Quoting.escapeChar, contentRest, unescaped]
  by_cases nul : backslashes ∧ c = '\x00'
  · rcases nul with ⟨escapes, rfl⟩
    subst escapes
    simp [Quoting.escapeChar, contentRest, unescaped]
  · have plain : Quoting.escapeChar backslashes c = [c] := by
      simp [Quoting.escapeChar, quote, backslash, nul]
    rw [plain]
    exact contentRest_plain quote backslash s

theorem contentRest_escaped (backslashes : Bool) (content : List Char) {rest : List Char}
    (ends : rest.head? ≠ some '\'') :
    contentRest backslashes (content.flatMap (Quoting.escapeChar backslashes) ++ '\'' :: rest) =
      some (content, rest) := by
  induction content with
  | nil =>
      cases rest with
      | nil => rfl
      | cons c rest =>
          have other : c ≠ '\'' := by simpa using ends
          simp [contentRest, other]
  | cons c content ih =>
      rw [List.flatMap_cons, List.append_assoc, contentRest_escapeChar, ih]
      rfl

theorem toList_quoteString (d : Dialect) (content : String) :
    ((Target.ofDialect d).quoteString content).toList =
      '\'' :: (content.toList.flatMap (Quoting.escapeChar d.profile.backslashEscapes) ++
        ['\'']) := by
  simp [Target.quoteString, Target.ofDialect, escape]

theorem denotes_quoteString (d : Dialect) (content : String) :
    d.Denotes ((Target.ofDialect d).quoteString content) content := by
  have ends : ([] : List Char).head? ≠ some '\'' := by simp
  rw [Denotes, toList_quoteString]
  exact contentRest_escaped d.profile.backslashEscapes content.toList ends

theorem backslashEscapes_iff (d : Dialect) : d.profile.backslashEscapes = true ↔ d = .mysql := by
  cases d <;> decide

/-- A quoted string is read up to its own closing quote and no further, and as the string
it was, by a reader that knows backslashes on MySQL only. What follows must not begin with
a quote, for that would double the closing one. -/
theorem quoted_string_read_whole (d : Dialect) (content : String) {rest : List Char}
    (apart : rest.head? ≠ some '\'') :
    (d.profile.backslashEscapes = true ↔ d = .mysql) ∧
      d.readString (((Target.ofDialect d).quoteString content).toList ++ rest) =
        some (content.toList, rest) := by
  refine ⟨d.backslashEscapes_iff, ?_⟩
  rw [toList_quoteString, List.cons_append, List.append_assoc]
  exact contentRest_escaped d.profile.backslashEscapes content.toList apart

theorem quoted_string_read_whole_mixed :
    (Target.ofDialect .mysql).quoteString "\\'\x00' OR 1=1" = "'\\\\''\\0'' OR 1=1'" ∧
      Dialect.mysql.readString ("'\\\\''\\0'' OR 1=1'".toList ++ " OR 'a'".toList) =
        some ("\\'\x00' OR 1=1".toList, " OR 'a'".toList) := by
  have written : (Target.ofDialect .mysql).quoteString "\\'\x00' OR 1=1" =
      "'\\\\''\\0'' OR 1=1'" := by
    decide +kernel
  have apart : " OR 'a'".toList.head? ≠ some '\'' := by decide
  have read := (quoted_string_read_whole .mysql "\\'\x00' OR 1=1" apart).2
  rw [written] at read
  exact ⟨written, read⟩

end Dialect

end CrossDialect
