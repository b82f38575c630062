import CrossDialect.Proofs.Text.Words
import CrossDialect.Quoting

/-!
How names are quoted. A path of bare words is quoted word by word. Whatever a name is,
its quoted form begins with a quote, a star or the first character of the name, so a
name that does not begin like a placeholder is not written as one.
-/

namespace CrossDialect

open Text

def DottedPath (s : List Char) : Prop :=
  ∃ words, words ≠ [] ∧ (∀ w ∈ words, BareWord w) ∧ s = ['.'].intercalate words

theorem DottedPath.of_pieces {s : List Char} (bare : ∀ w ∈ pieces '.' s, BareWord w) :
    DottedPath s :=
  ⟨pieces '.' s, pieces_ne_nil '.' s, bare, (intercalate_pieces '.' s).symm⟩

theorem dots_cons_cons (x y : List Char) (rest : List (List Char)) :
    ['.'].intercalate (x :: y :: rest) = x ++ '.' :: ['.'].intercalate (y :: rest) := by
  simp [List.intercalate]

theorem dots_cons (x : List Char) (rest : List (List Char)) :
    ['.'].intercalate (x :: rest) = x ++ rest.flatMap fun y => '.' :: y := by
  induction rest generalizing x with
  | nil => simp
  | cons y rest ih => rw [dots_cons_cons, ih, List.flatMap_cons, List.cons_append]

theorem DottedPath.chars {s : List Char} (path : DottedPath s) :
    ∀ c ∈ s, isNameChar c = true ∨ c = '.' := by
  rcases path with ⟨words, _, bare, rfl⟩
  induction words with
  | nil => simp [List.intercalate]
  | cons w words ih =>
      intro c member
      cases words with
      | nil =>
          have inside : c ∈ w := by simpa [List.intercalate] using member
          exact .inl ((bare w (by simp)).isNameChar c inside)
      | cons w' words =>
          rw [dots_cons_cons] at member
          rcases List.mem_append.1 member with inside | rest
          · exact .inl ((bare w (by simp)).isNameChar c inside)
          rcases List.mem_cons.1 rest with dot | behind
          · exact .inr dot
          · exact ih (by simp) (fun v later => bare v (List.mem_cons_of_mem w later)) c behind

theorem DottedPath.head {s : List Char} (path : DottedPath s) :
    ∃ c rest, s = c :: rest ∧ isWordStart c = true := by
  rcases path with ⟨words, present, bare, rfl⟩
  rcases List.exists_cons_of_ne_nil present with ⟨w, words, rfl⟩
  cases bare w (by simp) with
  | @mk c s start _ =>
      cases words with
      | nil => exact ⟨c, s, by simp, start⟩
      | cons w' words => exact ⟨c, _, by rw [dots_cons_cons]; rfl, start⟩

namespace Text

theorem isAlpha_iff {c : Char} : c.isAlpha = true ↔
    (0x41 ≤ c.toNat ∧ c.toNat ≤ 0x5a) ∨ (0x61 ≤ c.toNat ∧ c.toNat ≤ 0x7a) := by
  have ranges : c.isAlpha = (decide ('A'.val ≤ c.val ∧ c.val ≤ 'Z'.val) ||
      decide ('a'.val ≤ c.val) && decide (c.val ≤ 'z'.val)) := rfl
  simp [ranges, UInt32.le_iff_toNat_le, ← Char.toNat_val]

theorem toNat_of_isNameChar {c : Char} (name : isNameChar c = true) :
    0x24 ≤ c.toNat ∧ c.toNat ≤ 0x7a := by
  simp only [isNameChar, isWordChar, Char.isAlphanum, Bool.or_eq_true, beq_iff_eq,
    isAlpha_iff] at name
  rcases name with (rfl | letter | digit) | rfl
  · decide
  · omega
  · have code : c.toNat = c.val.toNat := rfl
    simp [Char.isDigit, UInt32.le_iff_toNat_le] at digit
    omega
  · decide

theorem isDigit_of_isWordStart {c : Char} (start : isWordStart c = true) :
    c.isDigit = false := by
  simp only [isWordStart, Bool.or_eq_true, beq_iff_eq, isAlpha_iff] at start
  have code : c.toNat = c.val.toNat := rfl
  rcases start with rfl | letter
  · decide
  · simp [Char.isDigit, UInt32.lt_iff_toNat_lt]
    omega

theorem ne_of_isWordStart {c d : Char} (start : isWordStart c = true)
    (other : isWordStart d = false) : c ≠ d := by
  rintro rfl
  rw [start] at other
  exact Bool.noConfusion other

theorem isBlank_of_visible {c : Char} (low : 0x20 < c.toNat) (high : c.toNat < 0x7f) :
    isBlank c = false := by
  simp only [isBlank, blankRanges, List.any_cons, List.any_nil, Bool.or_false,
    Bool.or_eq_false_iff, Bool.and_eq_false_iff, decide_eq_false_iff_not]
  omega

theorem isBlank_of_isNameChar {c : Char} (name : isNameChar c = true) : isBlank c = false := by
  have code := toNat_of_isNameChar name
  exact isBlank_of_visible (by omega) (by omega)

theorem trim_of_stopsAt {s : List Char} (front : StopsAt isBlank s)
    (back : StopsAt isBlank s.reverse) : trim s = s := by
  rw [trim, trimStart, dropWhile_of_stopsAt front, trimEnd, dropWhile_of_stopsAt back,
    List.reverse_reverse]

theorem trim_eq_self {s : List Char} (visible : ∀ c ∈ s, isBlank c = false) : trim s = s := by
  apply trim_of_stopsAt
  · intro c first
    exact visible c (List.mem_of_mem_head? first)
  · intro c first
    exact visible c (List.mem_reverse.1 (List.mem_of_mem_head? first))

theorem eq_space_of_toUpper {c : Char} (same : c.toUpper = ' ') : c = ' ' := by
  unfold Char.toUpper at same
  split at same
  · rename_i lowercase
    have code := congrArg (fun c => c.val.toNat) same
    have low := UInt32.le_iff_toNat_le.1 lowercase.1
    have high := UInt32.le_iff_toNat_le.1 lowercase.2
    simp [UInt32.toNat_add] at code low high
    omega
  · exact same

theorem isWordStart_of_toUpper {c : Char} (upper : isWordStart c.toUpper = true) :
    isWordStart c = true := by
  unfold Char.toUpper at upper
  split at upper
  · rename_i lower
    have letter : c.isAlpha = true := by
      have low := UInt32.le_iff_toNat_le.1 lower.1
      have high := UInt32.le_iff_toNat_le.1 lower.2
      exact isAlpha_iff.2 (.inr ⟨low, high⟩)
    simp [isWordStart, letter]
  · exact upper

theorem Folds.starts {word text : List Char} (folds : Folds word text)
    (letters : ∀ c ∈ word, isWordStart c.toUpper = true) : ∀ c ∈ text, isWordStart c = true := by
  intro c member
  have upper : c.toUpper ∈ word.map Char.toUpper := folds ▸ List.mem_map_of_mem member
  rcases List.mem_map.1 upper with ⟨d, listed, same⟩
  exact isWordStart_of_toUpper (same ▸ letters d listed)

theorem trimEnd_blanks {s blanks : List Char} (blank : ∀ c ∈ blanks, isBlank c = true)
    (stops : StopsAt isBlank s.reverse) : trimEnd (s ++ blanks) = s := by
  have blank' : ∀ c ∈ blanks.reverse, isBlank c = true := by simpa using blank
  rw [trimEnd, List.reverse_append, dropWhile_run blank' stops, List.reverse_reverse]

/-- What stands between blanks comes out of trimming, if it has none at its own ends. -/
theorem trim_between {before s after : List Char} (present : s ≠ [])
    (blank : ∀ c ∈ before, isBlank c = true) (blank' : ∀ c ∈ after, isBlank c = true)
    (front : StopsAt isBlank s) (back : StopsAt isBlank s.reverse) :
    trim (before ++ s ++ after) = s := by
  rw [trim, trimStart, List.append_assoc, dropWhile_run blank (front.append_of_ne_nil present),
    trimEnd_blanks blank' back]

theorem trim_cons {c : Char} (visible : isBlank c = false) (s : List Char) :
    ∃ rest, trim (c :: s) = c :: rest := by
  refine ⟨trimEnd s, ?_⟩
  have front : trimStart (c :: s) = c :: s := dropWhile_of_stopsAt (by simpa using visible)
  have lone : [c].dropWhile isBlank = [c] := dropWhile_of_stopsAt (by simpa using visible)
  rw [trim, front, trimEnd, trimEnd, List.reverse_cons, List.dropWhile_append, lone]
  cases kept : s.reverse.dropWhile isBlank <;> simp

end Text

theorem DottedPath.not_mem {s : List Char} (path : DottedPath s) {c : Char}
    (foreign : isNameChar c = false) (other : c ≠ '.') : c ∉ s := by
  intro member
  rcases path.chars c member with name | dot
  · rw [foreign] at name
    exact Bool.false_ne_true name
  · exact other dot

theorem DottedPath.isBlank_eq {s : List Char} (path : DottedPath s) :
    ∀ c ∈ s, isBlank c = false := by
  intro c member
  rcases path.chars c member with name | rfl
  · exact isBlank_of_isNameChar name
  · decide

theorem DottedPath.trim_eq {s : List Char} (path : DottedPath s) : trim s = s :=
  trim_eq_self path.isBlank_eq

namespace Quoting

theorem lastAs_eq_none {s : List Char} (absent : ' ' ∉ s) : lastAs s = none := by
  induction s with
  | nil => rfl
  | cons c s ih =>
      have other : c.toUpper ≠ ' ' := by
        intro same
        exact absent (by simp [eq_space_of_toUpper same])
      have rest := ih fun later => absent (List.mem_cons_of_mem c later)
      simp [lastAs, rest, afterFolded?, other]

theorem splitAlias_eq_none {s : List Char} (absent : ' ' ∉ s) : splitAlias s = none := by
  rw [splitAlias, lastAs_eq_none absent]

def isMarkHead (c : Char) : Bool := c == '?' || c == '$' || c == ':'

theorem isMarkHead_eq_false {kind : Char → Bool} {c : Char} (holds : kind c = true)
    (foreign : ['?', '$', ':'].any kind = false) : isMarkHead c = false := by
  cases mark : isMarkHead c with
  | false => rfl
  | true =>
      simp only [isMarkHead, Bool.or_eq_true, beq_iff_eq] at mark
      have member : c ∈ ['?', '$', ':'] := by
        simpa [or_assoc] using mark
      exact absurd holds (List.any_eq_false.1 foreign c member)

theorem isNumber_of_stopsAt {s : List Char}
    (stops : StopsAt (fun c => c.isDigit || c == '.' || c == '-') s) : isNumber s = false := by
  cases s with
  | nil => rfl
  | cons c s =>
      have first := stopsAt_cons.1 stops
      simp only [Bool.or_eq_false_iff, beq_eq_false_iff_ne] at first
      rcases first with ⟨⟨digit, dot⟩, minus⟩
      simp [isNumber, minus, digit, dot]

theorem styleOf_of_stopsAt {s : List Char} (stops : StopsAt isMarkHead s)
    (column : Option (List Char)) : Placeholder.styleOf s column = none := by
  cases s with
  | nil => rfl
  | cons c s =>
      have first := stopsAt_cons.1 stops
      simp only [isMarkHead, Bool.or_eq_false_iff, beq_eq_false_iff_ne] at first
      simp [Placeholder.styleOf, first]

theorem passesThrough_path {s : List Char} (path : DottedPath s) : passesThrough s = false := by
  have blanks : s.any (fun c => c == '(' || c == ' ' || c == '\t' || c == '\n') = false := by
    rw [List.any_eq_false]
    intro c member special
    simp only [Bool.or_eq_true, beq_iff_eq] at special
    rcases special with ((rfl | rfl) | rfl) | rfl
    all_goals exact path.not_mem (by decide) (by decide) member
  rcases path.head with ⟨c, rest, rfl, start⟩
  have digit := isDigit_of_isWordStart start
  have other {d : Char} (foreign : isWordStart d = false) : c ≠ d := ne_of_isWordStart start foreign
  have minus : c ≠ '-' := other (by decide)
  have dot : c ≠ '.' := other (by decide)
  have number : isNumber (c :: rest) = false := isNumber_of_stopsAt (by simp [digit, dot, minus])
  have style : Placeholder.styleOf (c :: rest) none = none :=
    styleOf_of_stopsAt (by simpa using isMarkHead_eq_false start (by decide)) none
  have star : c ≠ '*' := other (by decide)
  simp [passesThrough, number, style, star, -List.any_cons, blanks]

theorem quoteName_of_single (d : Dialect) {s : List Char} (single : splitAlias (trim s) = none) :
    quoteName d s = quotePlain d (trim s) := by
  rw [quoteName]
  split
  · rename_i expression aliasName split
    rw [single] at split
    simp at split
  · rfl

end Quoting

namespace Ident

theorem bareName_run {s rest : List Char} (all : ∀ c ∈ s, isNameChar c = true)
    (ends : rest = [] ∨ rest.head? = some '.') : bareName false (s ++ rest) = .ok (s, rest) := by
  induction s with
  | nil =>
      rcases ends with rfl | dot
      · rfl
      · cases rest with
        | nil => rfl
        | cons c rest =>
            obtain rfl : c = '.' := by simpa using dot
            rfl
  | cons c s ih =>
      have name := all c (by simp)
      have other : c ≠ '.' := by
        rintro rfl
        exact absurd name (by decide)
      have behind := ih fun x later => all x (List.mem_cons_of_mem c later)
      simp [bareName, other, name, behind, Except.map]

theorem part_bareWord {w rest : List Char} (word : BareWord w)
    (ends : rest = [] ∨ rest.head? = some '.') :
    part (w ++ rest) = .ok (.bare (String.ofList w), rest) := by
  cases word with
  | @mk c s start all =>
      have other {d : Char} (foreign : isWordStart d = false) : c ≠ d :=
        ne_of_isWordStart start foreign
      have star : c ≠ '*' := other (by decide)
      have dot : c ≠ '.' := other (by decide)
      have unquoted : closingQuote? c = none := by
        have quotes : c ≠ '"' ∧ c ≠ '\x60' ∧ c ≠ '[' :=
          ⟨other (by decide), other (by decide), other (by decide)⟩
        simp [closingQuote?, quotes]
      have read : bareName true (c :: (s ++ rest)) = .ok (c :: s, rest) := by
        simp [bareName, dot, start, bareName_run all ends, Except.map]
      simp [part, star, unquoted, read]

theorem dotted_last {s : List Char} {p : Part} (read : part s = .ok (p, [])) :
    dotted s = .ok [p] := by
  rw [dotted]
  split <;> simp_all

theorem dotted_dot {s r : List Char} {p : Part} (read : part s = .ok (p, '.' :: r))
    (name : p ≠ .star) (more : r ≠ []) : dotted s = (dotted r).map (p :: ·) := by
  rw [dotted]
  split <;> simp_all

theorem dotted_words {words : List (List Char)} (present : words ≠ [])
    (bare : ∀ w ∈ words, BareWord w) :
    dotted (['.'].intercalate words) = .ok (words.map fun w => .bare (String.ofList w)) := by
  induction words with
  | nil => exact absurd rfl present
  | cons w words ih =>
      have word := bare w (by simp)
      cases words with
      | nil =>
          have read := part_bareWord word (.inl rfl)
          rw [List.append_nil] at read
          rw [List.intercalate_singleton]
          exact dotted_last read
      | cons w' words =>
          have behind := ih (by simp) fun v later => bare v (List.mem_cons_of_mem w later)
          have more : ['.'].intercalate (w' :: words) ≠ [] := by
            intro blank
            rw [blank, dotted] at behind
            simp [part] at behind
          have read : part (w ++ '.' :: ['.'].intercalate (w' :: words)) =
              .ok (.bare (String.ofList w), '.' :: ['.'].intercalate (w' :: words)) :=
            part_bareWord word (.inr rfl)
          rw [dots_cons_cons, dotted_dot read (by simp) more, behind]
          rfl

theorem parseChars_path {words : List (List Char)} (present : words ≠ [])
    (bare : ∀ w ∈ words, BareWord w) :
    parseChars (['.'].intercalate words) =
      .ok ⟨words.map fun w => .bare (String.ofList w)⟩ := by
  have path : DottedPath (['.'].intercalate words) := ⟨words, present, bare, rfl⟩
  have text : (['.'].intercalate words).isEmpty = false := by
    rcases path.head with ⟨c, rest, same, _⟩
    rw [same]
    rfl
  have plain : '\x00' ∉ ['.'].intercalate words := path.not_mem (by decide) (by decide)
  simp [parseChars, text, plain, dotted_words present bare, Except.map]

end Ident

namespace Quoting

/-- A path is quoted word by word. -/
theorem quoteName_path (d : Dialect) {words : List (List Char)} (present : words ≠ [])
    (bare : ∀ w ∈ words, BareWord w) :
    quoteName d (['.'].intercalate words) = ['.'].intercalate (words.map d.quoteSegment) := by
  have path : DottedPath (['.'].intercalate words) := ⟨words, present, bare, rfl⟩
  have single : splitAlias (trim (['.'].intercalate words)) = none := by
    rw [path.trim_eq]
    exact splitAlias_eq_none (path.not_mem (by decide) (by decide))
  have parts : Ident.write d ⟨words.map fun w => .bare (String.ofList w)⟩ =
      ['.'].intercalate (words.map d.quoteSegment) := by
    simp [Ident.write, Ident.Part.write, Function.comp_def]
  rw [quoteName_of_single d single, path.trim_eq, quotePlain, passesThrough_path path,
    Ident.parseChars_path present bare]
  simp [parts]

theorem stopsAt_dots {words : List (List Char)} (stops : ∀ w ∈ words, StopsAt isMarkHead w) :
    StopsAt isMarkHead (['.'].intercalate words) := by
  cases words with
  | nil => simp [List.intercalate]
  | cons w words =>
      have first := stops w (by simp)
      cases words with
      | nil => simpa using first
      | cons w' words =>
          rw [dots_cons_cons]
          exact first.append (by simp [isMarkHead])

theorem stopsAt_quoteSegment (d : Dialect) (name : List Char) :
    StopsAt isMarkHead (d.quoteSegment name) := by
  cases d <;> simp [Dialect.quoteSegment, Dialect.profile, isMarkHead]

theorem stopsAt_quotePlain (d : Dialect) {s : List Char} (plain : StopsAt isMarkHead s) :
    StopsAt isMarkHead (quotePlain d s) := by
  unfold quotePlain
  split
  · exact plain
  · split
    · apply stopsAt_dots
      intro w member
      rcases List.mem_map.1 member with ⟨part, _, rfl⟩
      cases part with
      | bare name => exact stopsAt_quoteSegment d name.toList
      | quoted name => exact stopsAt_quoteSegment d name.toList
      | star => simp [Ident.Part.write, isMarkHead]
    · apply stopsAt_dots
      intro w member
      rcases List.mem_map.1 member with ⟨piece, _, rfl⟩
      exact stopsAt_quoteSegment d piece

theorem lastAs_head {c : Char} {s before behind : List Char}
    (cut : lastAs (c :: s) = some (before, behind)) : before = [] ∨ ∃ rest, before = c :: rest := by
  simp only [lastAs] at cut
  split at cut
  · obtain ⟨rfl, -⟩ := Prod.mk.inj (Option.some.inj cut)
    exact .inr ⟨_, rfl⟩
  · rcases Option.map_eq_some_iff.1 cut with ⟨rest, -, same⟩
    exact .inl (Prod.mk.inj same).1.symm

theorem splitAlias_head {c : Char} {s expression aliasName : List Char}
    (visible : isBlank c = false)
    (cut : splitAlias (c :: s) = some (expression, aliasName)) :
    ∃ rest, expression = c :: rest := by
  unfold splitAlias at cut
  split at cut
  · simp at cut
  · rename_i before behind found
    simp only [Option.ite_none_left_eq_some, Option.some.injEq, Prod.mk.injEq] at cut
    rcases cut with ⟨kept, rfl, rfl⟩
    rcases lastAs_head found with rfl | ⟨rest, rfl⟩
    · exact absurd (by rfl) kept
    · exact trim_cons visible rest

theorem stopsAt_quoteName (d : Dialect) {c : Char} {s : List Char} (visible : isBlank c = false)
    (plain : isMarkHead c = false) : StopsAt isMarkHead (quoteName d (c :: s)) := by
  generalize whole : c :: s = text
  fun_induction quoteName d text generalizing s with
  | case1 text expression aliasName cut first second =>
      subst whole
      rcases trim_cons visible s with ⟨rest, trimmed⟩
      rw [trimmed] at cut
      rcases splitAlias_head visible cut with ⟨rest', rfl⟩
      rw [List.append_assoc]
      exact (first rfl).append (by simp [isMarkHead])
  | case2 text single =>
      subst whole
      rcases trim_cons visible s with ⟨rest, trimmed⟩
      rw [trimmed]
      exact stopsAt_quotePlain d (by simpa using plain)

end Quoting

end CrossDialect
