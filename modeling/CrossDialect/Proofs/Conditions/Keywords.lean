import CrossDialect.Proofs.Conditions.Columns

/-!
Words for values and the names that begin like them. An operand is tried as such a word
before it is tried as a name, and the word ends where no letter, digit or underscore goes on
with it. A longer word is a name. Names also go on with dollar signs and dots, and these end
the word: what stands behind it is then left over.
-/

namespace CrossDialect

open Text

theorem DottedPath.nameText {s : List Char} (path : DottedPath s) : NameText s := by
  rcases path with ⟨words, present, bare, rfl⟩
  induction words with
  | nil => exact absurd rfl present
  | cons w words ih =>
      have word := bare w (by simp)
      cases words with
      | nil =>
          rw [List.intercalate_singleton]
          exact .part (.bare word)
      | cons w' words =>
          rw [dots_cons_cons]
          exact .dot (.bare word) (ih (by simp) fun v later => bare v (List.mem_cons_of_mem w later))

theorem DottedPath.stopsAt {kind : Char → Bool} {s : List Char} (path : DottedPath s)
    (words : ∀ c, isWordStart c = true → kind c = false) : StopsAt kind s := by
  rcases path.head with ⟨c, rest, rfl, start⟩
  simpa using words c start

theorem Spells.word_starts {text : List Char} {v : Value} (spells : Spells .word text v) :
    ∀ c ∈ text, isWordStart c = true := by
  cases spells with
  | null folds => exact folds.starts (List.all_eq_true.1 rfl)
  | bool b folds => exact folds.starts (List.all_eq_true.1 (by cases b <;> rfl))

theorem Spells.word_upper {text : List Char} {v : Value} (spells : Spells .word text v) :
    text.map Char.toUpper ∈ ["NULL".toList, "TRUE".toList, "FALSE".toList] := by
  cases spells with
  | null folds =>
      rw [Folds] at folds
      rw [folds]
      decide
  | bool b folds =>
      rw [Folds] at folds
      rw [folds]
      cases b <;> decide

namespace Grammar

theorem wordEnds_of_literalWord {s rest : List Char} {v : Value}
    (taken : literalWord s = some (v, rest)) : wordEnds rest = true := by
  have word {w : List Char} {x : Value} (read : (keyword? w s).map (x, ·) = some (v, rest)) :
      wordEnds rest = true := by
    rcases Option.map_eq_some_iff.1 read with ⟨left, found, same⟩
    obtain ⟨-, rfl⟩ := Prod.mk.inj same
    exact wordEnds_of_keyword? found
  simp only [literalWord, Option.orElse_eq_orElse, Option.orElse_eq_or,
    Option.or_eq_some_iff] at taken
  rcases taken with null | ⟨-, yes | ⟨-, no⟩⟩
  · exact word null
  · exact word yes
  · exact word no

/-- A word for a value is the whole first run of word characters. -/
theorem literalWord_eq_some_iff {s rest : List Char} {v : Value} :
    literalWord s = some (v, rest) ↔
      Spells .word (s.takeWhile isWordChar) v ∧ rest = s.dropWhile isWordChar := by
  have run {rest : List Char} {v : Value} (taken : literalWord s = some (v, rest)) :
      Spells .word (s.takeWhile isWordChar) v ∧ rest = s.dropWhile isWordChar := by
    have ends := wordEnds_iff.1 (wordEnds_of_literalWord taken)
    rcases of_literalWord taken with ⟨text, rfl, spells⟩
    have all : ∀ c ∈ text, isWordChar c = true := fun c member =>
      isWordChar_of_isWordStart (spells.word_starts c member)
    exact ⟨(takeWhile_run all ends).symm ▸ spells, (dropWhile_run all ends).symm⟩
  constructor
  · exact run
  · rintro ⟨spells, rfl⟩
    have ends : wordEnds (s.dropWhile isWordChar) = true :=
      wordEnds_iff.2 (stopsAt_dropWhile isWordChar s)
    have taken := literalWord_of_spells spells ends
    rw [List.takeWhile_append_dropWhile] at taken
    rcases Option.ne_none_iff_exists'.1 taken with ⟨⟨w, rest⟩, found⟩
    rcases run found with ⟨spells', rfl⟩
    rw [found, spells.value_unique spells']

/-- A path is read as a column where it does not begin with a word for a value. -/
theorem scalar_path {s : List Char} (path : DottedPath s) :
    scalar s = (literalWord s <|> some (.column (String.ofList s), [])) := by
  have name : dottedIdent s = some (s, []) := by
    have whole := dottedIdent_text path.nameText (stopsAt_nil _) (by simp)
    rwa [List.append_nil] at whole
  have call := Ended.nil.functionCall_eq name
  rcases path.head with ⟨c, rest, rfl, start⟩
  have other {d : Char} (foreign : isWordStart d = false) : c ≠ d := ne_of_isWordStart start foreign
  rw [scalar_of_word (other (by decide)) (other (by decide)) (isDigit_of_isWordStart start)
    (Quoting.isMarkHead_eq_false start (by decide)), call, name]
  rfl

end Grammar

/-! The comparison in front -/

theorem OperatorText.of_one {op : Operator} {text : List Char} (spelled : OperatorText op text)
    (one : op.shape = .one) :
    (∃ sign, (op, sign) ∈ Grammar.operatorSigns ∧ text = sign.toList) ∨
    (op = .like ∧ Folds "LIKE".toList text) ∨
    ∃ no gap like, op = .notLike ∧ Folds "NOT".toList no ∧ Gap gap ∧ gap ≠ [] ∧
      Folds "LIKE".toList like ∧ text = no ++ gap ++ like := by
  cases spelled with
  | sign listed => exact .inl ⟨_, listed, rfl⟩
  | @phrase words _ listed phrase =>
      have entry : (op, words) = (.like, ["LIKE"]) ∨ (op, words) = (.notLike, ["NOT", "LIKE"]) := by
        have all : ∀ entry ∈ Grammar.operatorWords, entry.1.shape = .one →
            entry = (.like, ["LIKE"]) ∨ entry = (.notLike, ["NOT", "LIKE"]) := by decide
        exact all _ listed one
      rcases entry with same | same
      · obtain ⟨rfl, rfl⟩ := Prod.mk.inj same
        cases phrase with
        | last folds => exact .inr (.inl ⟨rfl, folds⟩)
        | more _ _ _ none => cases none
      · obtain ⟨rfl, rfl⟩ := Prod.mk.inj same
        cases phrase with
        | more no all some rest =>
            cases rest with
            | last like => exact .inr (.inr ⟨_, _, _, rfl, no, all, some, like, rfl⟩)
            | more _ _ _ none => cases none

theorem OperatorText.head_of_one {op : Operator} {text : List Char}
    (spelled : OperatorText op text) (one : op.shape = .one) :
    ∃ c t, text = c :: t ∧ isGap c = false ∧ c ≠ '(' := by
  have word {text : List Char} (bare : BareWord text) :
      ∃ c t, text = c :: t ∧ isGap c = false ∧ c ≠ '(' := by
    rcases bare with ⟨start, _⟩
    exact ⟨_, _, rfl, isGap_eq_false start (by decide), ne_of_isWordStart start (by decide)⟩
  rcases spelled.of_one one with ⟨sign, listed, rfl⟩ | ⟨-, like⟩ | ⟨_, _, _, -, no, -, -, -, rfl⟩
  · have all : ∀ entry ∈ Grammar.operatorSigns, ∀ c ∈ entry.2.toList.head?,
        isGap c = false ∧ c ≠ '(' := by simp [Grammar.operatorSigns, isGap]
    have present : ∀ entry ∈ Grammar.operatorSigns, entry.2.toList ≠ [] := by
      simp [Grammar.operatorSigns]
    rcases List.exists_cons_of_ne_nil (present _ listed) with ⟨c, t, chars⟩
    exact ⟨c, t, chars, all _ listed c (by simp [chars])⟩
  · exact word (like.bareWord (by simp) (List.all_eq_true.1 rfl))
  · rcases word (no.bareWord (by simp) (List.all_eq_true.1 rfl)) with ⟨c, t, rfl, visible, other⟩
    exact ⟨c, _, rfl, visible, other⟩

namespace Grammar

theorem phrase_of_head {first : String} {s : List Char} (present : first.toList ≠ [])
    (other : s.head?.map Char.toUpper ≠ first.toList.head?.map Char.toUpper)
    (words : List String) : phrase (first :: words) s = none := by
  have key := keyword?_of_head present other
  cases words <;> simp [phrase, key]

theorem phrase_cons {first : String} {words : List String} {text gap s : List Char}
    (folds : Folds first.toList text) (all : Gap gap) (some : gap ≠ []) (stops : StopsAt isGap s)
    (more : words ≠ []) : phrase (first :: words) (text ++ (gap ++ s)) = phrase words s := by
  rcases List.exists_cons_of_ne_nil more with ⟨next, words, rfl⟩
  have read := keyword?_folds folds (wordEnds_gap all some s)
  simp [phrase, read, gap?_append all some stops]

theorem findSome?_words_of_head {s : List Char}
    (other : ∀ l ∈ ['I', 'N', 'B', 'L'], s.head?.map Char.toUpper ≠ some l) :
    operatorWords.findSome? (fun (op, words) => (phrase words s).map (op, ·)) = none := by
  rw [List.findSome?_eq_none_iff]
  rintro ⟨op, words⟩ listed
  have all : ∀ entry ∈ operatorWords, ∃ first words, entry.2 = first :: words ∧
      first.toList ≠ [] ∧
      ∃ l ∈ ['I', 'N', 'B', 'L'], first.toList.head?.map Char.toUpper = some l := by
    simp [operatorWords]
  rcases all _ listed with ⟨first, words, rfl, present, l, upper, head⟩
  have none := phrase_of_head present (head ▸ other l upper) words
  simp [none]

theorem operator_sign {op : Operator} {sign : String} (listed : (op, sign) ∈ operatorSigns)
    (rest : List Char) : operator (sign.toList ++ ' ' :: rest) = some (op, ' ' :: rest) := by
  have unlike : ∀ entry ∈ operatorSigns, ∀ l ∈ ['I', 'N', 'B', 'L'],
      (entry.2.toList ++ ' ' :: rest).head?.map Char.toUpper ≠ some l := by
    simp [operatorSigns]
  have none := findSome?_words_of_head (unlike _ listed)
  rw [operator, none]
  simp only [operatorSigns, List.mem_cons, Prod.mk.injEq, List.not_mem_nil, or_false] at listed
  rcases listed with ⟨rfl, rfl⟩ | ⟨rfl, rfl⟩ | ⟨rfl, rfl⟩ | ⟨rfl, rfl⟩ | ⟨rfl, rfl⟩ | ⟨rfl, rfl⟩ |
    ⟨rfl, rfl⟩
  all_goals rfl

theorem phrase_of_folds {first word : String} {text : List Char} (folds : Folds word.toList text)
    (apart : word.toList ≠ [] ∧ first.toList ≠ [] ∧
      word.toList.head?.map Char.toUpper ≠ first.toList.head?.map Char.toUpper)
    (words : List String) (rest : List Char) : phrase (first :: words) (text ++ rest) = none :=
  phrase_of_head apart.2.1 (folds.head?_append apart.1 rest ▸ apart.2.2) words

theorem operator_like {text : List Char} (folds : Folds "LIKE".toList text) (rest : List Char) :
    operator (text ++ ' ' :: rest) = some (.like, ' ' :: rest) := by
  have read : phrase ["LIKE"] (text ++ ' ' :: rest) = some (' ' :: rest) :=
    keyword?_folds folds rfl
  have skipped {first : String} (member : first ∈ ["IS", "NOT", "BETWEEN"]) (words : List String) :
      phrase (first :: words) (text ++ ' ' :: rest) = none := by
    have apart : ∀ first ∈ ["IS", "NOT", "BETWEEN"], "LIKE".toList ≠ [] ∧ first.toList ≠ [] ∧
        "LIKE".toList.head?.map Char.toUpper ≠ first.toList.head?.map Char.toUpper := by decide
    exact phrase_of_folds folds (apart first member) words (' ' :: rest)
  simp [operator, operatorWords, skipped, read]

theorem operator_notLike {no gap like : List Char} (negation : Folds "NOT".toList no)
    (all : Gap gap) (present : gap ≠ []) (folds : Folds "LIKE".toList like) (rest : List Char) :
    operator (no ++ (gap ++ (like ++ ' ' :: rest))) = some (.notLike, ' ' :: rest) := by
  have read : phrase ["LIKE"] (like ++ ' ' :: rest) = some (' ' :: rest) :=
    keyword?_folds folds rfl
  have stops : StopsAt isGap (like ++ ' ' :: rest) := by
    rcases folds.bareWord (by simp) (List.all_eq_true.1 rfl) with ⟨start, _⟩
    simpa using isGap_eq_false start (by decide)
  have behind {words : List String} (more : words ≠ []) :=
    phrase_cons negation all present stops more
  have is (words : List String) :
      phrase ("IS" :: words) (no ++ (gap ++ (like ++ ' ' :: rest))) = none :=
    phrase_of_folds negation (by decide) words _
  have between : phrase ["BETWEEN"] (like ++ ' ' :: rest) = none :=
    phrase_of_folds folds (by decide) [] _
  simp [operator, operatorWords, is, behind, between, read]

theorem operator_of_one {op : Operator} {text : List Char} (spelled : OperatorText op text)
    (one : op.shape = .one) (rest : List Char) :
    operator (text ++ ' ' :: rest) = some (op, ' ' :: rest) := by
  rcases spelled.of_one one with
    ⟨sign, listed, rfl⟩ | ⟨rfl, like⟩ | ⟨no, gap, like, rfl, negation, all, present, folds, rfl⟩
  · exact operator_sign listed rest
  · exact operator_like like rest
  · rw [List.append_assoc, List.append_assoc]
    exact operator_notLike negation all present folds rest

end Grammar

namespace Condition

def spaced (column opText operand : List Char) (before behind : Nat) : List Char :=
  column ++ (' ' :: List.replicate before ' ' ++
    (opText ++ ' ' :: (List.replicate behind ' ' ++ operand)))

theorem parseChars_spaced {column opText operand : List Char} {op : Operator}
    (path : DottedPath column) (spelled : OperatorText op opText) (one : op.shape = .one)
    (visible : StopsAt isGap operand) (before behind : Nat) :
    parseChars (spaced column opText operand before behind) =
      match Grammar.scalar operand with
      | none => .error (.noValue op)
      | some (v, rest) =>
        if (trim rest).isEmpty then .ok ⟨String.ofList column, op, [v]⟩
        else .error (.trailing (String.ofList (trim rest))) := by
  rcases spelled.head_of_one one with ⟨c, t, rfl, opens, call⟩
  have skipped : skipGap (' ' :: List.replicate before ' ' ++
      (c :: t ++ ' ' :: (List.replicate behind ' ' ++ operand))) =
      c :: t ++ ' ' :: (List.replicate behind ' ' ++ operand) :=
    skipGap_spaces (before + 1) (stopsAt_cons.2 opens)
  have ended : Ended (' ' :: List.replicate before ' ' ++
      (c :: t ++ ' ' :: (List.replicate behind ' ' ++ operand))) := by
    refine ⟨by simp, ?_⟩
    rw [skipped]
    simpa using call
  have front := Grammar.column_text path.nameText ended
  have start : skipGap (spaced column (c :: t) operand before behind) =
      spaced column (c :: t) operand before behind := by
    apply skipGap_of_stopsAt
    rcases path.head with ⟨d, rest, rfl, start⟩
    exact stopsAt_cons.2 (isGap_eq_false start (by decide))
  have operator := Grammar.operator_of_one spelled one (List.replicate behind ' ' ++ operand)
  have spaces : skipGap (' ' :: (List.replicate behind ' ' ++ operand)) = operand :=
    skipGap_spaces (behind + 1) visible
  rw [parseChars, start, spaced, front]
  simp only [skipped, operator, operandsOf, one, spaces]
  cases Grammar.scalar operand with
  | none => rfl
  | some taken => rfl

end Condition

/-- A path behind an operator is read as a column, unless its first run of letters, digits
and underscores is a word for a value. Such a word is the operand if it is all of the path;
otherwise the text is refused for what stands behind the word. -/
theorem path_read_unless_value_word {column w : String} {opText : List Char} {op : Operator}
    (front : DottedPath column.toList) (spelled : OperatorText op opText) (one : op.shape = .one)
    (path : DottedPath w.toList) (before behind : Nat) :
    let text := String.ofList (Condition.spaced column.toList opText w.toList before behind)
    let word := w.toList.takeWhile isWordChar
    let rest := w.toList.dropWhile isWordChar
    (Condition.parse text = .ok ⟨column, op, [.column w]⟩ ↔ ∀ v, ¬ Spells .word word v) ∧
    ∀ v, Spells .word word v →
      Condition.parse text =
        if rest = [] then .ok ⟨column, op, [v]⟩
        else .error (.malformed text (.trailing (String.ofList rest))) := by
  intro text word rest
  have visible : StopsAt isGap w.toList :=
    path.stopsAt fun c start => isGap_eq_false start (by decide)
  have read := Condition.parseChars_spaced front spelled one visible before behind
  rw [Grammar.scalar_path path, String.ofList_toList, String.ofList_toList] at read
  have value (v : Value) (spells : Spells .word word v) : Condition.parse text =
      if rest = [] then .ok ⟨column, op, [v]⟩
      else .error (.malformed text (.trailing (String.ofList rest))) := by
    have taken : Grammar.literalWord w.toList = some (v, rest) :=
      Grammar.literalWord_eq_some_iff.2 ⟨spells, rfl⟩
    have trimmed : trim rest = rest := by
      apply trim_eq_self
      intro c member
      exact path.isBlank_eq c ((List.dropWhile_sublist isWordChar).mem member)
    have parsed : Condition.parseChars
        (Condition.spaced column.toList opText w.toList before behind) =
        if rest = [] then .ok ⟨column, op, [v]⟩
        else .error (.trailing (String.ofList rest)) := by
      rw [read, taken]
      simp [trimmed]
    rw [Condition.parse, String.toList_ofList, parsed]
    split <;> rfl
  refine ⟨⟨?_, ?_⟩, value⟩
  · intro parsed v spells
    rw [value v spells] at parsed
    split at parsed
    · obtain rfl : v = .column w := by simpa using parsed
      cases spells
    · cases parsed
  · intro none
    have skipped : Grammar.literalWord w.toList = .none := by
      cases taken : Grammar.literalWord w.toList with
      | none => rfl
      | some read =>
          have spells := (Grammar.literalWord_eq_some_iff.1 taken).1
          exact absurd spells (none read.1)
    rw [Condition.parse_eq_ok_iff, String.toList_ofList, read, skipped]
    rfl

theorem path_read_unless_value_word_longer :
    Condition.parse "u.id <>  nullable.true" =
      .ok ⟨"u.id", .ne, [.column "nullable.true"]⟩ ∧
    Condition.parse "name nOt\tlike false_$" = .ok ⟨"name", .notLike, [.column "false_$"]⟩ := by
  have id : DottedPath "u.id".toList := .of_pieces (by decide +kernel)
  have nullable : DottedPath "nullable.true".toList := .of_pieces (by decide +kernel)
  have name : DottedPath "name".toList := .of_pieces (by decide +kernel)
  have falseName : DottedPath "false_$".toList := .of_pieces (by decide +kernel)
  have unequal : OperatorText .ne "<>".toList := .sign (by decide)
  have notLike : OperatorText .notLike ("nOt".toList ++ ['\t'] ++ "like".toList) := by
    have listed : (.notLike, ["NOT", "LIKE"]) ∈ Grammar.operatorWords := by decide
    have negation : Folds "NOT".toList "nOt".toList := by simp [Folds]
    have like : Folds "LIKE".toList "like".toList := by simp [Folds]
    exact .phrase listed (.more negation (by simp [Gap, isGap]) (by simp) (.last like))
  have text : String.ofList
      (Condition.spaced "u.id".toList "<>".toList "nullable.true".toList 0 1) =
      "u.id <>  nullable.true" := by
    decide +kernel
  have text' : String.ofList (Condition.spaced "name".toList
      ("nOt".toList ++ ['\t'] ++ "like".toList) "false_$".toList 0 0) =
      "name nOt\tlike false_$" := by
    decide +kernel
  rw [← text, ← text']
  constructor
  · refine (path_read_unless_value_word id unequal rfl nullable 0 1).1.2 ?_
    intro v spells
    exact absurd spells.word_upper (by decide +kernel)
  · refine (path_read_unless_value_word name notLike rfl falseName 0 0).1.2 ?_
    intro v spells
    exact absurd spells.word_upper (by decide +kernel)

def Condition.leftBehind : Except ConditionFault Condition → Option String
  | .error (.trailing rest) => some rest
  | _ => none

theorem Condition.parse_of_leftBehind {text rest : String}
    (left : leftBehind (parseChars text.toList) = some rest) :
    parse text = .error (.malformed text (.trailing rest)) := by
  unfold leftBehind at left
  split at left
  · rename_i read
    rw [parse, read, ← Option.some.inj left]
    rfl
  · cases left

/-- A dollar sign or a dot behind a word for a value goes on with the path, but the word is
read, and the rest of the path is refused. -/
theorem path_cut_behind_value_word :
    DottedPath "null$x".toList ∧ (∀ v, ¬ Spells .word "null$x".toList v) ∧
    Condition.parse "x = null$x" = .error (.malformed "x = null$x" (.trailing "$x")) ∧
    DottedPath "True.id".toList ∧ (∀ v, ¬ Spells .word "True.id".toList v) ∧
    Condition.parse "x = True.id" = .error (.malformed "x = True.id" (.trailing ".id")) := by
  refine ⟨.of_pieces (by decide +kernel), ?_, Condition.parse_of_leftBehind (by decide +kernel),
    .of_pieces (by decide +kernel), ?_, Condition.parse_of_leftBehind (by decide +kernel)⟩
  · intro v spells
    exact absurd spells.word_upper (by decide +kernel)
  · intro v spells
    exact absurd spells.word_upper (by decide +kernel)

end CrossDialect
