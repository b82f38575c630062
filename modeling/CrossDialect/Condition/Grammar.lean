import CrossDialect.Decimal.Reading
import CrossDialect.Operator
import CrossDialect.Value.Basic

/-!
The grammar of condition text. Every reader takes the text that is left and gives
what it read together with what follows; the readers of names and calls give back
the very characters they read. Where several forms could begin alike, the first
that fits is taken.
-/

namespace CrossDialect.Grammar

open Text

abbrev Reader (α : Type) := List Char → Option (α × List Char)

/-- A word that may go on with dollar signs. -/
def bareIdent : Reader (List Char)
  | [] => none
  | c :: s =>
    if isWordStart c then some (c :: s.takeWhile isNameChar, s.dropWhile isNameChar) else none

/-- The rest of a quoted name up to its closing quote. A doubled closing quote goes on. -/
def quotedRest (close : Char) : Reader (List Char)
  | [] => none
  | c :: s =>
    if c = close then
      match s with
      | d :: r =>
        if d = close then (quotedRest close r).map fun (read, rest) => (c :: d :: read, rest)
        else some ([c], d :: r)
      | [] => some ([c], [])
    else (quotedRest close s).map fun (read, rest) => (c :: read, rest)

/-- A quoted name, a bare one or a star. A quoted name may be empty here. -/
def identPart : Reader (List Char)
  | [] => none
  | c :: s =>
    if c = '*' then some ([c], s)
    else
      match closingQuote? c with
      | some close => (quotedRest close s).map fun (read, rest) => (c :: read, rest)
      | none => bareIdent (c :: s)

theorem length_bareIdent {s read rest : List Char} (h : bareIdent s = some (read, rest)) :
    rest.length < s.length := by
  cases s with
  | nil => simp [bareIdent] at h
  | cons c s =>
    simp only [bareIdent, Option.ite_none_right_eq_some, Option.some.injEq, Prod.mk.injEq] at h
    obtain ⟨-, -, rfl⟩ := h
    exact Nat.lt_succ_of_le (List.dropWhile_sublist _).length_le

theorem length_quotedRest {close : Char} {s read rest : List Char}
    (h : quotedRest close s = some (read, rest)) : rest.length < s.length := by
  fun_induction quotedRest close s generalizing read rest with
  | case1 => simp at h
  | case2 r ih =>
    obtain ⟨⟨n, t⟩, hq, he⟩ := Option.map_eq_some_iff.1 h
    obtain ⟨-, rfl⟩ := Prod.mk.inj he
    have := ih hq
    simp only [List.length_cons]
    omega
  | case3 => simp at h; simp [← h.2]
  | case4 => simp at h; simp [← h.2]
  | case5 c s _ ih =>
    obtain ⟨⟨n, t⟩, hq, he⟩ := Option.map_eq_some_iff.1 h
    obtain ⟨-, rfl⟩ := Prod.mk.inj he
    have := ih hq
    simp only [List.length_cons]
    omega

theorem length_identPart {s read rest : List Char} (h : identPart s = some (read, rest)) :
    rest.length < s.length := by
  cases s with
  | nil => simp [identPart] at h
  | cons c s =>
    simp only [identPart] at h
    split at h
    · simp at h; simp [← h.2]
    · split at h
      · obtain ⟨⟨n, t⟩, hq, he⟩ := Option.map_eq_some_iff.1 h
        obtain ⟨-, rfl⟩ := Prod.mk.inj he
        have := length_quotedRest hq
        simp only [List.length_cons]
        omega
      · exact length_bareIdent h

/-- Further parts, each after a dot. A dot that no part follows is left alone. -/
def moreParts (s : List Char) : List Char × List Char :=
  match s with
  | [] => ([], [])
  | c :: r =>
    if c = '.' then
      match _h : identPart r with
      | some (read, rest) =>
        let (more, rest) := moreParts rest
        (c :: read ++ more, rest)
      | none => ([], c :: r)
    else ([], c :: r)
termination_by s.length
decreasing_by
  have := length_identPart _h
  simp
  omega

def dottedIdent : Reader (List Char) := fun s =>
  match identPart s with
  | none => none
  | some (read, rest) =>
    let (more, rest) := moreParts rest
    some (read ++ more, rest)

theorem length_moreParts_le (s : List Char) : (moreParts s).2.length ≤ s.length := by
  fun_induction moreParts s with
  | case1 => simp
  | case2 r read rest h more rest' hm ih =>
    have := length_identPart h
    simp only [hm] at ih
    simp only [List.length_cons]
    omega
  | case3 => simp
  | case4 => simp

theorem length_dottedIdent {s read rest : List Char} (h : dottedIdent s = some (read, rest)) :
    rest.length < s.length := by
  unfold dottedIdent at h
  split at h
  · simp at h
  · rename_i part between hp
    simp only [Option.some.injEq, Prod.mk.injEq] at h
    have := length_identPart hp
    have := length_moreParts_le between
    rw [← h.2]
    omega

/-- The text up to the parenthesis that closes the outermost of `depth` open ones.
Between single quotes parentheses do not count. -/
def closing (depth : Nat) (quoted : Bool) : Reader (List Char)
  | [] => none
  | c :: s =>
    let go (depth : Nat) (quoted : Bool) :=
      (closing depth quoted s).map fun (read, rest) => (c :: read, rest)
    if c = '\'' then go depth (!quoted)
    else if c = '(' && !quoted then go (depth + 1) quoted
    else if c = ')' && !quoted then
      if depth ≤ 1 then some ([c], s) else go (depth - 1) quoted
    else go depth quoted

def balancedParens : Reader (List Char)
  | [] => none
  | c :: s =>
    if c = '(' then (closing 1 false s).map fun (read, rest) => (c :: read, rest) else none

theorem length_closing {depth : Nat} {quoted : Bool} {s read rest : List Char}
    (h : closing depth quoted s = some (read, rest)) : rest.length < s.length := by
  induction s generalizing depth quoted read with
  | nil => simp [closing] at h
  | cons c s ih =>
    have step {d : Nat} {q : Bool}
        (hs : (closing d q s).map (fun (read, rest) => (c :: read, rest)) = some (read, rest)) :
        rest.length < (c :: s).length := by
      obtain ⟨⟨n, t⟩, hc, he⟩ := Option.map_eq_some_iff.1 hs
      obtain ⟨-, rfl⟩ := Prod.mk.inj he
      exact Nat.lt_succ_of_lt (ih hc)
    simp only [closing] at h
    split at h
    · exact step h
    · split at h
      · exact step h
      · split at h
        · split at h
          · simp at h; simp [← h.2]
          · exact step h
        · exact step h

theorem length_balancedParens {s read rest : List Char}
    (h : balancedParens s = some (read, rest)) : rest.length < s.length := by
  cases s with
  | nil => simp [balancedParens] at h
  | cons c s =>
    simp only [balancedParens, Option.ite_none_right_eq_some] at h
    obtain ⟨⟨n, t⟩, hc, he⟩ := Option.map_eq_some_iff.1 h.2
    obtain ⟨-, rfl⟩ := Prod.mk.inj he
    exact Nat.lt_succ_of_lt (length_closing hc)

def functionCall : Reader (List Char) := fun s =>
  match dottedIdent s with
  | none => none
  | some (name, rest) =>
    (balancedParens (skipGap rest)).map fun (arguments, rest') =>
      (name ++ rest.takeWhile isGap ++ arguments, rest')

theorem length_functionCall {s read rest : List Char} (h : functionCall s = some (read, rest)) :
    rest.length < s.length := by
  unfold functionCall at h
  split at h
  · simp at h
  · rename_i name between hd
    obtain ⟨⟨n, t⟩, hb, he⟩ := Option.map_eq_some_iff.1 h
    obtain ⟨-, rfl⟩ := Prod.mk.inj he
    have := length_dottedIdent hd
    have := length_balancedParens hb
    have := length_skipGap_le between
    omega

def column : Reader (List Char) := fun s =>
  functionCall s <|> dottedIdent s

def phrase : List String → List Char → Option (List Char)
  | [], s => some s
  | [word], s => keyword? word.toList s
  | word :: words, s => (keyword? word.toList s).bind gap? |>.bind (phrase words)

def operatorWords : List (Operator × List String) :=
  [(.isNotNull, ["IS", "NOT", "NULL"]), (.isNull, ["IS", "NULL"]),
   (.notBetween, ["NOT", "BETWEEN"]), (.notLike, ["NOT", "LIKE"]), (.notInList, ["NOT", "IN"]),
   (.between, ["BETWEEN"]), (.like, ["LIKE"]), (.inList, ["IN"])]

def operatorSigns : List (Operator × String) :=
  [(.gte, ">="), (.lte, "<="), (.ne, "!="), (.ne, "<>"), (.eq, "="), (.gt, ">"), (.lt, "<")]

/-- Longer operators come before those they begin with. -/
def operator : Reader Operator := fun s =>
  (operatorWords.findSome? fun (op, words) => (phrase words s).map (op, ·)) <|>
  (operatorSigns.findSome? fun (op, sign) => (after? sign.toList s).map (op, ·))

/-- The content of a string literal after its opening quote. Two quotes are one. -/
def literalRest : Reader (List Char)
  | [] => none
  | c :: s =>
    if c = '\'' then
      match s with
      | d :: r =>
        if d = '\'' then (literalRest r).map fun (text, rest) => (c :: text, rest)
        else some ([], d :: r)
      | [] => some ([], [])
    else (literalRest s).map fun (text, rest) => (c :: text, rest)

def stringLiteral : Reader Value
  | [] => none
  | c :: s =>
    if c = '\'' then (literalRest s).map fun (text, rest) => (.text (String.ofList text), rest)
    else none

def fraction (s : List Char) : Option (List Char) × List Char :=
  match s with
  | '.' :: r =>
    match digits? r with
    | some (ds, rest) => (some ds, rest)
    | none => (none, s)
  | _ => (none, s)

def splitMinus : List Char → Bool × List Char
  | '-' :: s => (true, s)
  | s => (false, s)

/-- Whole numbers have 64 bits; with digits behind a point the number is a float. -/
def numberValue? (negative : Bool) (whole : List Char) : Option (List Char) → Option Value
  | some places =>
    some (.float (Decimal.toFloat negative (digitsValue (whole ++ places)) (-places.length)))
  | none =>
    let magnitude : Int := digitsValue whole
    let i := if negative then -magnitude else magnitude
    if Int64.minValue.toInt ≤ i ∧ i ≤ Int64.maxValue.toInt then some (.int (Int64.ofInt i))
    else none

/-- A number that no word character follows. -/
def number : Reader Value := fun s =>
  let (negative, s) := splitMinus s
  match digits? s with
  | none => none
  | some (whole, rest) =>
    let (places, rest) := fraction rest
    if wordEnds rest then (numberValue? negative whole places).map (·, rest) else none

/-- A placeholder is kept as text and told from other text by its spelling. -/
def placeholder : Reader Value
  | '?' :: s => some (.text "?", s)
  | '$' :: s => (digits? s).map fun (ds, rest) => (.text (String.ofList ('$' :: ds)), rest)
  | ':' :: s => (bareIdent s).map fun (name, rest) => (.text (String.ofList (':' :: name)), rest)
  | _ => none

def literalWord : Reader Value := fun s =>
  (keyword? "NULL".toList s).map (.null, ·) <|>
  (keyword? "TRUE".toList s).map (.bool true, ·) <|>
  (keyword? "FALSE".toList s).map (.bool false, ·)

def scalar : Reader Value := fun s =>
  stringLiteral s <|> number s <|> placeholder s <|> literalWord s <|>
  (functionCall s).map (fun (read, rest) => (.raw (String.ofList read), rest)) <|>
  (dottedIdent s).map (fun (read, rest) => (.column (String.ofList read), rest))

theorem length_literalRest {s read rest : List Char} (h : literalRest s = some (read, rest)) :
    rest.length < s.length := by
  fun_induction literalRest s generalizing read rest with
  | case1 => simp at h
  | case2 r ih =>
    obtain ⟨⟨n, t⟩, hq, he⟩ := Option.map_eq_some_iff.1 h
    obtain ⟨-, rfl⟩ := Prod.mk.inj he
    have := ih hq
    simp only [List.length_cons]
    omega
  | case3 => simp at h; simp [← h.2]
  | case4 => simp at h; simp [← h.2]
  | case5 c s _ ih =>
    obtain ⟨⟨n, t⟩, hq, he⟩ := Option.map_eq_some_iff.1 h
    obtain ⟨-, rfl⟩ := Prod.mk.inj he
    have := ih hq
    simp only [List.length_cons]
    omega

theorem length_stringLiteral {s rest : List Char} {v : Value}
    (h : stringLiteral s = some (v, rest)) : rest.length < s.length := by
  cases s with
  | nil => simp [stringLiteral] at h
  | cons c s =>
    simp only [stringLiteral, Option.ite_none_right_eq_some] at h
    obtain ⟨⟨n, t⟩, hc, he⟩ := Option.map_eq_some_iff.1 h.2
    obtain ⟨-, rfl⟩ := Prod.mk.inj he
    exact Nat.lt_succ_of_lt (length_literalRest hc)

theorem length_splitMinus_le (s : List Char) : (splitMinus s).2.length ≤ s.length := by
  unfold splitMinus
  split <;> simp

theorem length_fraction_le (s : List Char) : (fraction s).2.length ≤ s.length := by
  unfold fraction
  split
  · split
    · rename_i hd
      have := length_digits? hd
      simp only [List.length_cons]
      omega
    · simp
  · simp

theorem length_number {s rest : List Char} {v : Value} (h : number s = some (v, rest)) :
    rest.length < s.length := by
  simp only [number] at h
  split at h
  · simp at h
  · rename_i whole between hd
    simp only [Option.ite_none_right_eq_some] at h
    obtain ⟨v', -, he⟩ := Option.map_eq_some_iff.1 h.2
    obtain ⟨-, rfl⟩ := Prod.mk.inj he
    have := length_digits? hd
    have := length_splitMinus_le s
    have := length_fraction_le between
    omega

theorem length_placeholder {s rest : List Char} {v : Value} (h : placeholder s = some (v, rest)) :
    rest.length < s.length := by
  unfold placeholder at h
  split at h
  · simp at h; simp [← h.2]
  · obtain ⟨⟨n, t⟩, hd, he⟩ := Option.map_eq_some_iff.1 h
    obtain ⟨-, rfl⟩ := Prod.mk.inj he
    exact Nat.lt_succ_of_lt (length_digits? hd)
  · obtain ⟨⟨n, t⟩, hb, he⟩ := Option.map_eq_some_iff.1 h
    obtain ⟨-, rfl⟩ := Prod.mk.inj he
    exact Nat.lt_succ_of_lt (length_bareIdent hb)
  · simp at h

theorem length_literalWord {s rest : List Char} {v : Value} (h : literalWord s = some (v, rest)) :
    rest.length < s.length := by
  have word {w : List Char} {x : Value} (hw : w ≠ [])
      (h : (keyword? w s).map (x, ·) = some (v, rest)) : rest.length < s.length := by
    obtain ⟨t, hk, he⟩ := Option.map_eq_some_iff.1 h
    obtain ⟨-, rfl⟩ := Prod.mk.inj he
    have := length_keyword? hk
    have := List.length_pos_iff.2 hw
    omega
  simp only [literalWord, Option.orElse_eq_orElse, Option.orElse_eq_or, Option.or_eq_some_iff] at h
  rcases h with h | ⟨-, h | ⟨-, h⟩⟩ <;> exact word (by simp) h

theorem length_scalar {s rest : List Char} {v : Value} (h : scalar s = some (v, rest)) :
    rest.length < s.length := by
  simp only [scalar, Option.orElse_eq_orElse, Option.orElse_eq_or, Option.or_eq_some_iff] at h
  rcases h with h | ⟨-, h | ⟨-, h | ⟨-, h | ⟨-, h | ⟨-, h⟩⟩⟩⟩⟩
  · exact length_stringLiteral h
  · exact length_number h
  · exact length_placeholder h
  · exact length_literalWord h
  · obtain ⟨⟨n, t⟩, hf, he⟩ := Option.map_eq_some_iff.1 h
    obtain ⟨-, rfl⟩ := Prod.mk.inj he
    exact length_functionCall hf
  · obtain ⟨⟨n, t⟩, hd, he⟩ := Option.map_eq_some_iff.1 h
    obtain ⟨-, rfl⟩ := Prod.mk.inj he
    exact length_dottedIdent hd

def afterComma? (s : List Char) : Option (List Char) :=
  match skipGap s with
  | ',' :: r => some (skipGap r)
  | _ => none

theorem length_afterComma? {s rest : List Char} (h : afterComma? s = some rest) :
    rest.length < s.length := by
  unfold afterComma? at h
  split at h
  · rename_i r hs
    simp only [Option.some.injEq] at h
    have := length_skipGap_le s
    have := length_skipGap_le r
    simp only [hs, List.length_cons] at *
    rw [← h]
    omega
  · simp at h

/-- Further values, each after a comma. A comma that no value follows is left alone. -/
def moreValues (s : List Char) : List Value × List Char :=
  match _hc : afterComma? s with
  | none => ([], s)
  | some r =>
    match _hv : scalar r with
    | none => ([], s)
    | some (v, rest) =>
      let (vs, rest) := moreValues rest
      (v :: vs, rest)
termination_by s.length
decreasing_by
  have := length_afterComma? _hc
  have := length_scalar _hv
  omega

def values (s : List Char) : List Value × List Char :=
  match scalar s with
  | none => ([], s)
  | some (v, rest) =>
    let (vs, rest) := moreValues rest
    (v :: vs, rest)

def valueList : Reader (List Value)
  | '(' :: s =>
    let (vs, rest) := values (skipGap s)
    match skipGap rest with
    | ')' :: rest => some (vs, rest)
    | _ => none
  | _ => none

def andBounds : Reader (List Value) := fun s => do
  let (low, rest) ← scalar s
  let rest ← keyword? "AND".toList (← gap? rest)
  let (high, rest) ← scalar (← gap? rest)
  return ([low, high], rest)

def bounds : Reader (List Value) := fun s =>
  andBounds s <|> valueList s

def wholeList? (s : List Char) : Option (List Value) := do
  let (values, rest) ← valueList (skipGap s)
  if (skipGap rest).isEmpty then some values else none

end CrossDialect.Grammar
