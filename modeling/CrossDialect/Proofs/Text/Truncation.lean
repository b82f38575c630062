import CrossDialect.Config

/-!
Text that is cut off after a number of bytes. The backward search ends at the greatest
boundary within the limit, every beginning in whole characters ends at a boundary, and so the
beginning that is kept is the longest that fits.
-/

namespace CrossDialect

namespace Text

theorem lastBoundary_le (s : String) (place : Nat) : lastBoundary s place ≤ place := by
  induction place with
  | zero => exact Nat.le_refl 0
  | succ place ih =>
      simp only [lastBoundary]
      split
      · exact Nat.le_refl _
      · exact Nat.le_succ_of_le ih

theorem le_lastBoundary {s : String} {n place : Nat} (boundary : IsBoundary s n)
    (within : n ≤ place) : n ≤ lastBoundary s place := by
  induction place with
  | zero => exact within
  | succ place ih =>
      simp only [lastBoundary]
      split
      · exact within
      · rename_i inside
        have different : n ≠ place + 1 := by
          rintro rfl
          exact inside boundary
        exact ih (by omega)

theorem exists_append_of_beginning {t s : String} (beginning : t.toList <+: s.toList) :
    ∃ rest, s = t ++ rest := by
  rcases beginning with ⟨rest, split⟩
  refine ⟨String.ofList rest, ?_⟩
  rw [← String.toList_inj, String.toList_append, String.toList_ofList, split]

theorem isBoundary_of_beginning {t s : String} (beginning : t.toList <+: s.toList) :
    IsBoundary s t.utf8ByteSize := by
  rcases exists_append_of_beginning beginning with ⟨rest, whole⟩
  exact String.Pos.Raw.isValid_iff_exists_append.2 ⟨t, rest, whole, rfl⟩

section upTo

variable {s : String} {place : Nat} (boundary : IsBoundary s place)

theorem upTo_beginning : (upTo s place boundary).toList <+: s.toList := by
  have split := (s.pos ⟨place⟩ boundary).splits.eq_append
  refine ⟨(s.sliceFrom (s.pos ⟨place⟩ boundary)).copy.toList, ?_⟩
  rw [upTo, ← String.toList_append, ← split]

theorem utf8ByteSize_upTo : (upTo s place boundary).utf8ByteSize = place := by
  have offset := (s.pos ⟨place⟩ boundary).splits.offset_eq_rawEndPos
  exact (congrArg String.Pos.Raw.byteIdx offset).symm

end upTo

/-- The longest beginning of a text, in whole characters, that takes up no more than so many
bytes. -/
structure LongestWithin (budget : Nat) (kept s : String) : Prop where
  beginning : kept.toList <+: s.toList
  fits : kept.utf8ByteSize ≤ budget
  longest : ∀ {t : String}, t.toList <+: s.toList → t.utf8ByteSize ≤ budget →
    t.toList <+: kept.toList

/-- Of two beginnings of one text the one of fewer bytes begins the other. -/
theorem beginning_of_fewer_bytes {t kept s : String} (first : t.toList <+: s.toList)
    (second : kept.toList <+: s.toList) (fewer : t.utf8ByteSize ≤ kept.utf8ByteSize) :
    t.toList <+: kept.toList := by
  rcases List.prefix_or_prefix_of_prefix first second with shorter | longer
  · exact shorter
  · rcases exists_append_of_beginning longer with ⟨rest, rfl⟩
    have none : rest.utf8ByteSize = 0 := by
      rw [String.utf8ByteSize_append] at fewer
      omega
    obtain rfl := String.utf8ByteSize_eq_zero_iff.1 none
    simp

theorem longest_upTo (s : String) (limit : Nat) :
    LongestWithin limit (upTo s _ (isBoundary_lastBoundary s limit)) s where
  beginning := upTo_beginning _
  fits := by
    rw [utf8ByteSize_upTo]
    exact lastBoundary_le s limit
  longest := by
    intro t beginning fits
    -- the other beginning ends at a boundary too, and the search has not passed it
    apply beginning_of_fewer_bytes beginning (upTo_beginning _)
    rw [utf8ByteSize_upTo]
    exact le_lastBoundary (isBoundary_of_beginning beginning) fits

end Text

namespace Config

open Text

/-- A text within the limit, or without one, is logged as it is. Of a longer one the longest
beginning that fits is logged with dots behind it, and it is cut between two characters. -/
theorem truncate_keeps_longest (c : Config) (sql : String) :
    ((∀ limit ∈ c.maxLoggedBytes, sql.utf8ByteSize ≤ limit) → c.truncate sql = sql) ∧
    ∀ limit ∈ c.maxLoggedBytes, limit < sql.utf8ByteSize →
      ∃ kept, LongestWithin limit kept sql ∧ IsBoundary sql kept.utf8ByteSize ∧
        c.truncate sql = kept ++ "..." := by
  constructor
  · intro short
    cases bound : c.maxLoggedBytes with
    | none => simp only [truncate, bound]
    | some limit =>
        have fits : ¬ limit < sql.utf8ByteSize := Nat.not_lt.2 (short limit bound)
        simp only [truncate, bound, if_neg fits]
  · intro limit bound long
    have longest := longest_upTo sql limit
    refine ⟨_, longest, isBoundary_of_beginning longest.beginning, ?_⟩
    rw [Option.mem_def] at bound
    simp only [truncate, bound, if_pos long]

theorem truncate_keeps_longest_inside :
    let c : Config := { maxLoggedBytes := some 5 }
    "aéé".utf8ByteSize = 5 ∧ c.truncate "aéé" = "aéé" ∧ 5 < "aé€x".utf8ByteSize ∧
    ∃ kept, LongestWithin 5 kept "aé€x" ∧ IsBoundary "aé€x" kept.utf8ByteSize ∧
      c.truncate "aé€x" = kept ++ "..." := by
  intro c
  have long : 5 < "aé€x".utf8ByteSize := by decide
  refine ⟨by decide, (truncate_keeps_longest c "aéé").1 ?_, long,
    (truncate_keeps_longest c "aé€x").2 5 rfl long⟩
  intro limit bound
  obtain rfl := Option.some.inj bound
  decide

example : ({ maxLoggedBytes := some 1 } : Config).truncate "é1" = "..." := by decide

end Config

end CrossDialect
