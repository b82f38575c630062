import CrossDialect.Proofs.Quoting.Names
import CrossDialect.Proofs.Text.Doubled
import Mathlib.Data.List.Basic

/-!
Quoted names as a database reads them: segments in quotes with dots between them, where
a doubled closing quote stands for one, and at the end perhaps a bare star. A name that
was quoted for a dialect is read by that dialect as the parts it has as an identifier,
or as what stands between its dots if it is none.
-/

namespace CrossDialect

open Text

inductive Segment where
  | quoted (name : List Char)
  | star
  deriving DecidableEq

/-- The name behind an opening quote, with its doubled quotes undone, and what follows
the closing quote. -/
def Segment.nameRest (close : Char) : List Char → Option (List Char × List Char)
  | [] => none
  | c :: s =>
    if c = close then
      match s with
      | d :: r =>
        if d = close then (nameRest close r).map fun (name, rest) => (c :: name, rest)
        else some ([], d :: r)
      | [] => some ([], [])
    else (nameRest close s).map fun (name, rest) => (c :: name, rest)

namespace Segment

theorem length_nameRest {close : Char} {s name rest : List Char}
    (taken : nameRest close s = some (name, rest)) : rest.length < s.length := by
  fun_induction nameRest close s generalizing name rest with
  | case1 => simp at taken
  | case2 r ih =>
      obtain ⟨⟨n, t⟩, inner, same⟩ := Option.map_eq_some_iff.1 taken
      obtain ⟨-, rfl⟩ := Prod.mk.inj same
      have shorter := ih inner
      simp only [List.length_cons]
      omega
  | case3 => simp at taken; simp [← taken.2]
  | case4 => simp at taken; simp [← taken.2]
  | case5 c s _ ih =>
      obtain ⟨⟨n, t⟩, inner, same⟩ := Option.map_eq_some_iff.1 taken
      obtain ⟨-, rfl⟩ := Prod.mk.inj same
      exact Nat.lt_succ_of_lt (ih inner)

theorem nameRest_cons_ne {close c : Char} (other : c ≠ close) (s : List Char) :
    nameRest close (c :: s) = (nameRest close s).map fun (name, rest) => (c :: name, rest) := by
  cases s <;> simp [nameRest, other]

theorem nameRest_doubled {close : Char} {rest : List Char} (ends : rest.head? ≠ some close)
    (name : List Char) :
    nameRest close (doubled close name ++ close :: rest) = some (name, rest) := by
  induction name with
  | nil =>
      cases rest with
      | nil => simp [nameRest]
      | cons c rest =>
          have other : c ≠ close := by simpa using ends
          simp [nameRest, other]
  | cons c name ih =>
      by_cases same : c = close
      · subst same
        simp [doubled_cons_quote, nameRest, ih]
      · simp [doubled_cons_ne same, nameRest_cons_ne same, ih]

end Segment

namespace Dialect

/-- A whole text as segments with dots between them. A star stands last. -/
def readName (d : Dialect) : List Char → Option (List Segment)
  | [] => none
  | c :: s =>
    if c = d.profile.openQuote then
      match _h : Segment.nameRest d.profile.closeQuote s with
      | none => none
      | some (name, []) => some [.quoted name]
      | some (name, c :: rest) =>
        if c = '.' then (readName d rest).map (.quoted name :: ·) else none
    else if c :: s = ['*'] then some [.star]
    else none
termination_by s => s.length
decreasing_by
  have := Segment.length_nameRest _h
  simp only [List.length_cons] at *
  omega

theorem readName_star (d : Dialect) : d.readName ['*'] = some [.star] := by
  cases d <;> simp [readName, profile]

theorem readName_segment (d : Dialect) {s name rest : List Char}
    (taken : Segment.nameRest d.profile.closeQuote s = some (name, rest)) :
    d.readName (d.profile.openQuote :: s) =
      match rest with
      | [] => some [.quoted name]
      | c :: rest => if c = '.' then (d.readName rest).map (.quoted name :: ·) else none := by
  rw [readName, if_pos rfl]
  split
  · rename_i missing
    cases missing.symm.trans taken
  · rename_i ended
    cases ended.symm.trans taken
    rfl
  · rename_i more
    cases more.symm.trans taken
    rfl

theorem nameRest_quoteSegment (d : Dialect) (name : List Char) {rest : List Char}
    (ends : rest.head? ≠ some d.profile.closeQuote) :
    ∃ s, d.quoteSegment name ++ rest = d.profile.openQuote :: s ∧
      Segment.nameRest d.profile.closeQuote s = some (name, rest) := by
  refine ⟨doubled d.profile.closeQuote name ++ d.profile.closeQuote :: rest, ?_,
    Segment.nameRest_doubled ends name⟩
  simp [quoteSegment_eq]

theorem readName_last (d : Dialect) (name : List Char) :
    d.readName (d.quoteSegment name) = some [.quoted name] := by
  have ends : [].head? ≠ some d.profile.closeQuote := by simp
  rcases d.nameRest_quoteSegment name ends with ⟨s, same, read⟩
  rw [List.append_nil] at same
  rw [same, d.readName_segment read]

theorem readName_dot (d : Dialect) (name s : List Char) :
    d.readName (d.quoteSegment name ++ '.' :: s) =
      (d.readName s).map (.quoted name :: ·) := by
  have ends : ('.' :: s).head? ≠ some d.profile.closeQuote := by cases d <;> simp [profile]
  rcases d.nameRest_quoteSegment name ends with ⟨s', same, read⟩
  rw [same, d.readName_segment read]
  exact if_pos rfl

end Dialect

namespace Ident

inductive StarLast : List Part → Prop where
  | last (p : Part) : StarLast [p]
  | more {p : Part} {parts : List Part} (name : p ≠ .star) :
      StarLast parts → StarLast (p :: parts)

theorem starLast_dotted {s : List Char} {parts : List Part} (read : dotted s = .ok parts) :
    StarLast parts := by
  fun_induction dotted s generalizing parts with
  | case1 => simp at read
  | case2 s p =>
      obtain rfl := Except.ok.inj read
      exact .last p
  | case3 => simp at read
  | case4 => simp at read
  | case5 => simp at read
  | case6 s p c r _ name _ _ ih =>
      rcases map_eq_ok read with ⟨behind, inner, rfl⟩
      exact .more name (ih inner)

theorem starLast_parseChars {s : List Char} {i : Ident} (read : parseChars s = .ok i) :
    StarLast i.parts := by
  simp only [parseChars] at read
  split at read
  · simp at read
  split at read
  · simp at read
  rcases map_eq_ok read with ⟨parts, inner, rfl⟩
  exact starLast_dotted inner

theorem starLast_names {names : List (List Char)} (present : names ≠ []) :
    StarLast (names.map fun name => .quoted (String.ofList name)) := by
  induction names with
  | nil => exact absurd rfl present
  | cons name names ih =>
      cases names with
      | nil => exact .last _
      | cons name' names => exact .more (by simp) (ih (by simp))

end Ident

def Segment.ofPart : Ident.Part → Segment
  | .bare name | .quoted name => .quoted name.toList
  | .star => .star

/-- Parts that are written for a dialect are read back by it. -/
theorem Dialect.readName_write (d : Dialect) {parts : List Ident.Part}
    (sound : Ident.StarLast parts) :
    d.readName (Ident.write d ⟨parts⟩) = some (parts.map Segment.ofPart) := by
  induction sound with
  | last p =>
      rw [Ident.write, List.map_singleton, List.intercalate_singleton]
      cases p with
      | bare name => exact d.readName_last name.toList
      | quoted name => exact d.readName_last name.toList
      | star => exact d.readName_star
  | @more p parts name rest ih =>
      have first : ∃ text, p.write d = d.quoteSegment text ∧ Segment.ofPart p = .quoted text := by
        cases p with
        | bare name => exact ⟨_, rfl, rfl⟩
        | quoted name => exact ⟨_, rfl, rfl⟩
        | star => exact absurd rfl name
      rcases first with ⟨text, written, segment⟩
      have split : Ident.write d ⟨p :: parts⟩ =
          d.quoteSegment text ++ '.' :: Ident.write d ⟨parts⟩ := by
        cases rest <;> simp [Ident.write, written]
      rw [split, d.readName_dot, ih]
      simp [segment]

theorem Text.pieces_eq_splitOn (separator : Char) (s : List Char) :
    pieces separator s = s.splitOn separator := by
  induction s with
  | nil => rfl
  | cons c s ih =>
      rw [List.splitOn, List.splitOnP_cons_eq_if_modifyHead, ← List.splitOn, ← ih]
      by_cases same : c = separator
      · simp [pieces, same]
      · simp only [pieces, same, beq_iff_eq, ↓reduceIte]
        cases cut : pieces separator s with
        | nil => exact absurd cut (pieces_ne_nil separator s)
        | cons first rest => rfl

namespace Quoting

/-- Text that is quoted as a name: it is not empty, is no star, number or placeholder,
and no expression. -/
structure IsName (s : List Char) : Prop where
  present : s ≠ []
  noStar : s ≠ ['*']
  noNumber : isNumber s = false
  noMark : Placeholder.styleOf s none = none
  noExpression : ∀ c ∈ s, c ≠ '(' ∧ c ≠ ' ' ∧ c ≠ '\t' ∧ c ≠ '\n'

theorem IsName.passesThrough {s : List Char} (named : IsName s) : passesThrough s = false := by
  have plain : s.any (fun c => c == '(' || c == ' ' || c == '\t' || c == '\n') = false := by
    rw [List.any_eq_false]
    intro c member
    simpa [or_assoc] using named.noExpression c member
  simp [Quoting.passesThrough, named.present, named.noStar, named.noNumber, named.noMark, plain]

theorem IsName.quoteName_eq {s : List Char} (named : IsName (trim s)) (d : Dialect) :
    quoteName d s = quotePlain d (trim s) := by
  exact quoteName_of_single d
    (splitAlias_eq_none fun member => (named.noExpression ' ' member).2.1 rfl)

theorem IsName.readName_parts {s : List Char} (named : IsName s) (d : Dialect) {i : Ident}
    (parsed : Ident.parseChars s = .ok i) :
    d.readName (quotePlain d s) = some (i.parts.map Segment.ofPart) := by
  rw [quotePlain, named.passesThrough, if_neg Bool.false_ne_true, parsed]
  exact d.readName_write (Ident.starLast_parseChars parsed)

/-- What is no identifier is read back as it stands between its dots. -/
theorem IsName.readName_pieces {s : List Char} (named : IsName s) (d : Dialect)
    {fault : IdentFault} (refused : Ident.parseChars s = .error fault) :
    d.readName (quotePlain d s) = some ((s.splitOn '.').map .quoted) := by
  have written : quotePlain d s =
      Ident.write d ⟨(s.splitOn '.').map fun name => .quoted (String.ofList name)⟩ := by
    rw [quotePlain, named.passesThrough, if_neg Bool.false_ne_true, refused, pieces_eq_splitOn]
    simp [Ident.write, Ident.Part.write, Function.comp_def]
  have present : s.splitOn '.' ≠ [] := by
    rw [← pieces_eq_splitOn]
    exact pieces_ne_nil '.' s
  rw [written, d.readName_write (Ident.starLast_names present)]
  simp [Segment.ofPart]

end Quoting

/-- A name that is quoted for a dialect is read by it to the end, as the parts that it
has as an identifier, and as what stands between its dots if it is none. -/
theorem quoted_name_reads_back (d : Dialect) (name : String)
    (named : Quoting.IsName (trim name.toList)) :
    (∀ i, Ident.parse (trimmed name) = .ok i →
      d.readName (d.quoteIdentifier name).toList = some (i.parts.map Segment.ofPart)) ∧
    (∀ e, Ident.parse (trimmed name) = .error e →
      d.readName (d.quoteIdentifier name).toList =
        some (((trim name.toList).splitOn '.').map .quoted)) := by
  have written : (d.quoteIdentifier name).toList = Quoting.quotePlain d (trim name.toList) := by
    rw [Dialect.quoteIdentifier, String.toList_ofList, named.quoteName_eq]
  rw [written, Ident.parse, trimmed, String.toList_ofList]
  cases parsed : Ident.parseChars (trim name.toList) with
  | ok i =>
      refine ⟨?_, by simp [Except.mapError]⟩
      intro i' same
      obtain rfl : i = i' := Except.ok.inj same
      exact named.readName_parts d parsed
  | error fault =>
      refine ⟨by simp [Except.mapError], ?_⟩
      intro e _
      exact named.readName_pieces d parsed

theorem quoted_name_reads_back_brackets :
    Dialect.sqlServer.quoteIdentifier " \"a.b]\".\"c\"\"d\".* " = "[a.b]]].[c\"d].*" ∧
    Dialect.sqlServer.readName "[a.b]]].[c\"d].*".toList =
      some [.quoted "a.b]".toList, .quoted "c\"d".toList, .star] ∧
    Dialect.sqlServer.quoteIdentifier "a];drop.[b" = "[a]];drop].[[b]" ∧
    Dialect.sqlServer.readName "[a]];drop].[[b]".toList =
      some [.quoted "a];drop".toList, .quoted "[b".toList] := by
  have parsed : Ident.parse (trimmed " \"a.b]\".\"c\"\"d\".* ") =
      .ok ⟨[.quoted "a.b]", .quoted "c\"d", .star]⟩ := by
    cbv
  have refused : Ident.parse (trimmed "a];drop.[b") =
      .error (.invalidIdentifier "a];drop.[b" (.badCharacter ']')) := by
    cbv
  have named : Quoting.IsName (trim " \"a.b]\".\"c\"\"d\".* ".toList) := by
    have inner : trim " \"a.b]\".\"c\"\"d\".* ".toList = "\"a.b]\".\"c\"\"d\".*".toList := by
      decide +kernel
    rw [inner]
    exact ⟨by decide, by decide, by decide, by decide, by simp⟩
  have named' : Quoting.IsName (trim "a];drop.[b".toList) := by
    have same : trim "a];drop.[b".toList = "a];drop.[b".toList := by decide +kernel
    rw [same]
    exact ⟨by decide, by decide, by decide, by decide, by simp⟩
  have quoted : Dialect.sqlServer.quoteIdentifier " \"a.b]\".\"c\"\"d\".* " =
      "[a.b]]].[c\"d].*" := by
    decide +kernel
  have quoted' : Dialect.sqlServer.quoteIdentifier "a];drop.[b" = "[a]];drop].[[b]" := by
    decide +kernel
  have read := (quoted_name_reads_back .sqlServer _ named).1 _ parsed
  have read' := (quoted_name_reads_back .sqlServer _ named').2 _ refused
  rw [quoted] at read
  rw [quoted'] at read'
  exact ⟨quoted, read, quoted', read'.trans (by decide +kernel)⟩

end CrossDialect
