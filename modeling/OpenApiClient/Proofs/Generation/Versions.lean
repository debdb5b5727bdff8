import Mathlib.Data.List.Induction
import OpenApiClient.Client.Version
import OpenApiClient.Proofs.Numerals

/-!
# Recognized Versions

Which versions are taken for version 3 of the specification format, which for another one, and which cannot
be told. The major part decides, read as a whole number; of the many spellings of 3 none has a minus, and
all digits but the last one are zeros.

## Layers

- **Values of digits**: digits that denote a number below ten.
- **Major parts**: what is left of a version when blanks, points and what follows them are gone.
- **Main statement**: `versionWarning_cases`.
-/

namespace OpenApiClient.Client

open OpenApiClient.Text

/-! ## Values of digits -/

theorem decimalValue_concat (values : List Nat) (value : Nat) :
    decimalValue (values ++ [value]) = 10 * decimalValue values + value := by
  simp [decimalValue]

theorem decimalValue_eq_zero_iff {values : List Nat} :
    decimalValue values = 0 ↔ ∃ zeros, values = List.replicate zeros 0 := by
  induction values using List.reverseRecOn with
  | nil => simp [decimalValue]
  | append_singleton values value ih =>
    rw [decimalValue_concat]
    constructor
    · intro h
      obtain ⟨zeros, rfl⟩ := ih.mp (by omega)
      obtain rfl : value = 0 := by omega
      exact ⟨zeros + 1, List.replicate_succ'.symm⟩
    · rintro ⟨zeros, hvalues⟩
      cases zeros with
      | zero => simp at hvalues
      | succ zeros =>
        rw [List.replicate_succ'] at hvalues
        obtain ⟨rfl, hvalue⟩ := List.append_inj' hvalues rfl
        have hzero := ih.mpr ⟨zeros, rfl⟩
        simp_all

/-- Digits denote a digit other than zero when it is the last of them, behind zeros. -/
theorem decimalValue_eq_digit_iff {values : List Nat} {digit : Nat} (hvalues : ∀ value ∈ values, value < 10)
    (hdigit : 0 < digit ∧ digit < 10) :
    decimalValue values = digit ↔ ∃ zeros, values = List.replicate zeros 0 ++ [digit] := by
  constructor
  · intro h
    rcases List.eq_nil_or_concat values with rfl | ⟨front, last, rfl⟩
    · simp only [decimalValue, List.foldl_nil] at h
      omega
    · rw [List.concat_eq_append] at h hvalues ⊢
      have hlast := hvalues last (by simp)
      rw [decimalValue_concat] at h
      obtain ⟨zeros, rfl⟩ := decimalValue_eq_zero_iff.mp (show decimalValue front = 0 by omega)
      obtain rfl : last = digit := by omega
      exact ⟨zeros, rfl⟩
  · rintro ⟨zeros, rfl⟩
    rw [decimalValue_concat, decimalValue_eq_zero_iff.mpr ⟨zeros, rfl⟩]
    omega

theorem lt_ten_of_spellsDigits {digits : Text} {values : List Nat} (h : SpellsDigits digits values) :
    ∀ value ∈ values, value < 10 := by
  obtain ⟨groups, -, -, -, hvalues⟩ := h
  intro value hvalue
  have hmem : some value ∈ groups.flatten.map decimalDigit? := hvalues ▸ List.mem_map_of_mem hvalue
  obtain ⟨point, -, hpoint⟩ := List.mem_map.mp hmem
  exact (plainForm_of_decimalDigit? hpoint).1

/-! ## Major parts -/

/-- Whether a major part spells the number three: perhaps a plus, then digits of which the last one is a
three and all others are zeros. -/
def SpellsThree (major : Text) : Prop :=
  ∃ digits values, (major = digits ∨ major = .char '+' :: digits) ∧ SpellsDigits digits values ∧
    values.length ≤ 4300 ∧ ∃ zeros, values = List.replicate zeros 0 ++ [3]

/-- Whether a major part spells another whole number than three. -/
def SpellsOther (major : Text) : Prop :=
  ∃ number, SpellsInteger major number ∧ number ≠ 3

theorem spellsInteger_three_iff {major : Text} : SpellsInteger major 3 ↔ SpellsThree major := by
  have hthree : ∀ {digits values}, SpellsDigits digits values →
      ((decimalValue values : Int) = 3 ↔ ∃ zeros, values = List.replicate zeros 0 ++ [3]) := by
    intro digits values hdigits
    rw [← decimalValue_eq_digit_iff (lt_ten_of_spellsDigits hdigits) (by omega)]
    omega
  constructor
  · intro h
    generalize hnumber : (3 : Int) = number at h
    cases h with
    | unsigned hdigits hlimit =>
      exact ⟨_, _, .inl rfl, hdigits, hlimit, (hthree hdigits).mp hnumber.symm⟩
    | plus hdigits hlimit =>
      exact ⟨_, _, .inr rfl, hdigits, hlimit, (hthree hdigits).mp hnumber.symm⟩
    | minus hdigits hlimit =>
      -- With a minus no number is above zero.
      omega
  · rintro ⟨digits, values, hmajor, hdigits, hlimit, hvalues⟩
    rw [← (hthree hdigits).mpr hvalues]
    rcases hmajor with rfl | rfl
    · exact .unsigned hdigits hlimit
    · exact .plus hdigits hlimit

theorem mem_of_mem_trim {text : Text} {point : CodePoint} (h : point ∈ trim text) : point ∈ text := by
  have hfront := (List.dropWhile_sublist _).mem (List.mem_reverse.mp h)
  exact (List.dropWhile_sublist _).mem (List.mem_reverse.mp hfront)

theorem mem_of_mem_majorText {version : Text} {point : CodePoint} (h : point ∈ majorText version) :
    point ∈ version :=
  mem_of_mem_trim ((List.takeWhile_sublist _).mem h)

/-- A number is read from a version if its major part spells it. -/
theorem readInteger_majorText_iff {version : Text} (h : ∀ point ∈ version, ¬ IsSeparator point)
    {number : Int} :
    readInteger 10 (majorText version) = .ok number ↔ SpellsInteger (trim (majorText version)) number :=
  readInteger_eq_ok_iff fun point hpoint => h point (mem_of_mem_majorText hpoint)

/-! ## Main statement -/

/-- The warning for a version that is a number, but not three. -/
def otherVersionText (version : Text) : Text :=
  "OpenAPI version " ++ version ++ " is not 3.x; output may be incomplete"

/-- The warning for a version that is no number. -/
def unreadableVersionText (version : Text) : Text :=
  "Unable to parse OpenAPI version " ++ quoted version ++ "; assuming 3.x semantics"

theorem otherVersionText_ne (version : Text) : otherVersionText version ≠ unreadableVersionText version :=
  nofun

theorem versionWarning_of_ok {version : Text} {number : Int}
    (h : readInteger 10 (majorText version) = .ok number) :
    versionWarning version = if number = 3 then none else some (otherVersionText version) := by
  unfold versionWarning
  rw [h]
  simp [supportedMajor, otherVersionText]

theorem versionWarning_of_error {version : Text} {error : NumeralError}
    (h : readInteger 10 (majorText version) = .error error) :
    versionWarning version = some (unreadableVersionText version) := by
  unfold versionWarning
  rw [h]
  rfl

/-- **Versions fall into three kinds.** For a version without separators there is no warning exactly when
its major part, without the blanks around it, spells the number three; there is the warning about another
version exactly when it spells another whole number, and the one about an unreadable version in all other
cases. -/
theorem versionWarning_cases {version : Text} (h : ∀ point ∈ version, ¬ IsSeparator point) :
    (versionWarning version = none ↔ SpellsThree (trim (majorText version))) ∧
      (versionWarning version = some (otherVersionText version) ↔
        SpellsOther (trim (majorText version))) ∧
      (versionWarning version = some (unreadableVersionText version) ↔
        ¬ SpellsThree (trim (majorText version)) ∧ ¬ SpellsOther (trim (majorText version))) := by
  have hthree : SpellsThree (trim (majorText version)) ↔ readInteger 10 (majorText version) = .ok 3 := by
    rw [readInteger_majorText_iff h, spellsInteger_three_iff]
  have hother : SpellsOther (trim (majorText version)) ↔
      ∃ number, readInteger 10 (majorText version) = .ok number ∧ number ≠ 3 := by
    simp only [readInteger_majorText_iff h, SpellsOther]
  rw [hthree, hother]
  cases hread : readInteger 10 (majorText version) with
  | error error =>
    have hne := (otherVersionText_ne version).symm
    simp [versionWarning_of_error hread, hne]
  | ok number =>
    have hne := otherVersionText_ne version
    rw [versionWarning_of_ok hread]
    by_cases hnumber : number = 3
    · simp [hnumber]
    · simp [hnumber, hne]

/-- Version 3 with a plus, a leading zero, an underscore and a digit of another script, and blanks around its
major part. -/
theorem versionWarning_cases_arabic :
    let version : Text := "\x09+0_\u0663\u00a0.1.0 "
    (∀ point ∈ version, ¬ IsSeparator point) ∧ trim (majorText version) = "+0_\u0663" ∧
      SpellsThree (trim (majorText version)) ∧ versionWarning version = none := by
  intro version
  have hseparators : ∀ point ∈ version, ¬ IsSeparator point := by
    simp only [IsSeparator]
    decide
  have hmajor : trim (majorText version) = "+0_\u0663" := by decide
  have hthree : SpellsThree (trim (majorText version)) := by
    rw [hmajor]
    refine ⟨"0_\u0663", [0, 3], .inr rfl, ?_, by decide, 1, rfl⟩
    exact ⟨["0", "\u0663"], by decide, by decide, by decide, by decide⟩
  exact ⟨hseparators, hmajor, hthree, (versionWarning_cases hseparators).1.mpr hthree⟩

end OpenApiClient.Client
