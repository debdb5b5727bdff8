import OpenApiClient.Proofs.LineEnds
import OpenApiClient.Text.Numeral

/-!
# Oversized Numbers in Texts

A number that a text writes may have more digits than a number may have, and an escape may name a code
point beyond the last one. That a text has such a place is seen from a few characters of it, so a part of a
text has none if the text has none, and neither has the text with unified line ends.

## Layers

- **Digits**: a number has no more digits than its text (`digitsValue_lt`).
- **Numbers and escapes**: `HasLongNumeral`, `HasWideEscape`.
- **Both**: `HasOversize`, for parts of texts and under unified line ends.
-/

namespace OpenApiClient.Text

variable {rest cs : List Char}

/-! ## Digits -/

variable {base : Nat} {digits : List Char}

theorem lt_of_isDigitIn {c : Char} (h : isDigitIn base c = true) : (hexDigitValue? c).getD 0 < base := by
  unfold isDigitIn at h
  cases hvalue : hexDigitValue? c with
  | none => simp [hvalue] at h
  | some value => simpa [hvalue] using h

theorem foldl_digits_lt (h : ∀ c ∈ digits, isDigitIn base c = true) (value : Nat) :
    digits.foldl (fun value c => base * value + (hexDigitValue? c).getD 0) value <
      (value + 1) * Nat.pow base digits.length := by
  induction digits generalizing value with
  | nil => simp
  | cons c digits ih =>
    obtain ⟨hc, hdigits⟩ := List.forall_mem_cons.mp h
    have hvalue := lt_of_isDigitIn hc
    calc _ < (base * value + (hexDigitValue? c).getD 0 + 1) * Nat.pow base digits.length := ih hdigits _
      _ ≤ (base * (value + 1)) * Nat.pow base digits.length :=
        Nat.mul_le_mul_right _ (by rw [Nat.mul_add]; omega)
      _ = (value + 1) * (Nat.pow base digits.length * base) := by ac_rfl

/-- A number has no more digits than its text. -/
theorem digitsValue_lt (h : ∀ c ∈ digits, isDigitIn base c = true) :
    digitsValue base digits < Nat.pow base digits.length := by
  simpa [digitsValue] using foldl_digits_lt h 0

/-! ## Numbers and escapes -/

/-- Whether a text has a run of more digits than a number may have. -/
def HasLongNumeral (cs : List Char) : Prop :=
  ∃ digits, digits <:+: cs ∧ (∀ c ∈ digits, isPlainDigit c = true) ∧ digitLimit < digits.length

/-- Whether digits name a code point beyond the last one. -/
def AreWide (digits : List Char) : Prop :=
  (∀ c ∈ digits, isDigitIn 16 c = true) ∧ 0x10FFFF < digitsValue 16 digits

/-- Whether an escape, from its letter on, names a code point beyond the last one. -/
def IsWideEscape (word : List Char) : Prop :=
  ∃ digits, word = 'U' :: digits ∧ digits.length = 8 ∧ AreWide digits

/-- Whether a text has an escape for a code point beyond the last one. -/
def HasWideEscape (cs : List Char) : Prop :=
  ∃ word, IsWideEscape word ∧ '\\' :: word <:+: cs

/-- Four digits name no code point beyond the last one. -/
theorem AreWide.four_lt_length (h : AreWide digits) : 4 < digits.length := by
  by_contra hlength
  have hlt : digitsValue 16 digits < Nat.pow 16 digits.length := digitsValue_lt h.1
  have hpow : Nat.pow 16 digits.length ≤ Nat.pow 16 4 :=
    Nat.pow_le_pow_right (by decide) (Nat.le_of_not_lt hlength)
  have hwide := h.2
  have hfour : Nat.pow 16 4 = 65536 := by decide
  omega

theorem HasLongNumeral.of_part (h : HasLongNumeral rest) (hrest : rest <:+: cs) :
    HasLongNumeral cs := by
  obtain ⟨digits, hdigits, hrun⟩ := h
  exact ⟨digits, hdigits.trans hrest, hrun⟩

/-- A line feed is no digit. -/
theorem HasLongNumeral.of_unifyLineEnds (h : HasLongNumeral (unifyLineEnds cs)) : HasLongNumeral cs := by
  obtain ⟨digits, hinfix, hdigits, hlong⟩ := h
  have hword : '\n' ∉ digits := fun hmem => absurd (hdigits '\n' hmem) (by decide)
  exact ⟨digits, infix_of_infix_unifyLineEnds hword hinfix, hdigits, hlong⟩

theorem HasWideEscape.of_part (h : HasWideEscape rest) (hrest : rest <:+: cs) : HasWideEscape cs := by
  obtain ⟨word, hword, hinfix⟩ := h
  exact ⟨word, hword, hinfix.trans hrest⟩

/-- No escape has a line feed in it. -/
theorem HasWideEscape.of_unifyLineEnds (h : HasWideEscape (unifyLineEnds cs)) : HasWideEscape cs := by
  obtain ⟨word, hword, hinfix⟩ := h
  refine ⟨word, hword, infix_of_infix_unifyLineEnds ?_ hinfix⟩
  obtain ⟨digits, rfl, -, hdigits, -⟩ := hword
  simp only [List.mem_cons, Char.reduceEq, false_or]
  exact fun hmem => absurd (hdigits '\n' hmem) (by decide)

/-! ## Both -/

/-- Whether a text has an oversized number, be it written out or the number of a code point. -/
def HasOversize (cs : List Char) : Prop :=
  HasLongNumeral cs ∨ HasWideEscape cs

theorem HasOversize.of_part (h : HasOversize rest) (hrest : rest <:+: cs) : HasOversize cs :=
  h.imp (·.of_part hrest) (·.of_part hrest)

theorem HasOversize.of_suffix (h : HasOversize rest) (hrest : rest <:+ cs) : HasOversize cs :=
  h.of_part hrest.isInfix

/-- A short text without escapes has no oversized number. -/
theorem not_hasOversize (hshort : cs.length ≤ digitLimit) (hplain : '\\' ∉ cs) : ¬ HasOversize cs := by
  rintro (⟨digits, hpart, -, hlong⟩ | ⟨word, -, hpart⟩)
  · exact absurd (Nat.lt_of_lt_of_le hlong hpart.length_le) (Nat.not_lt.mpr hshort)
  · exact hplain (hpart.subset List.mem_cons_self)

theorem HasOversize.of_unifyLineEnds (h : HasOversize (unifyLineEnds cs)) : HasOversize cs :=
  h.imp (·.of_unifyLineEnds) (·.of_unifyLineEnds)

end OpenApiClient.Text
