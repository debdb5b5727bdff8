import Mathlib.Data.List.TakeWhile
import Mathlib.Tactic.IntervalCases
import OpenApiClient.Text.Numeral

/-!
# Whole Numbers in Text

What a text must look like to be read as a whole number of base ten: an optional sign and groups of
digits, of whatever scripts, with one underscore between any two groups. Reading works on plain forms, in
which digits of other scripts are plain digits and typographic blanks are spaces; the grammar is one of the
text itself.

## Layers

- **Digits**: the value of a code point as a digit, and the digit in its plain form.
- **Plain forms**: blanks and marks can be told by their plain forms.
- **Digit sequences**: `SpellsDigits`, and `readDigits_eq_ok_iff`.
- **Whole numbers**: `SpellsInteger`, and `readInteger_eq_ok_iff`; a short run of plain digits is one
  (`exists_readInteger_ofChars`).
-/

namespace OpenApiClient.Text

/-! ## Digits -/

/-- The value of a code point as a decimal digit of some script. -/
def decimalDigit? : CodePoint → Option Nat
  | .char c => digitValue? c
  | .surrogate _ => none

theorem digitValue?_eq_some {c : Char} {value : Nat} (h : digitValue? c = some value) :
    value < 10 ∧ ∃ origin ∈ digitOrigins, c.toNat = origin + value := by
  obtain ⟨origin, hfound, rfl⟩ := Option.map_eq_some_iff.mp h
  have hrange : origin ≤ c.toNat ∧ c.toNat < origin + 10 := by simpa using List.find?_some hfound
  refine ⟨by omega, origin, List.mem_of_find?_eq_some hfound, by omega⟩

theorem isSome_digitValue? {c : Char} {origin : Nat} (horigin : origin ∈ digitOrigins)
    (hle : origin ≤ c.toNat) (hlt : c.toNat < origin + 10) : (digitValue? c).isSome := by
  rw [digitValue?, Option.isSome_map, List.find?_isSome]
  exact ⟨origin, horigin, by simp [hle, hlt]⟩

theorem digitOrigins_cases : ∀ origin ∈ digitOrigins, origin = 48 ∨ 0x7F ≤ origin := by
  decide

/-- The digit of a value below ten. -/
def plainDigit (value : Nat) : Char :=
  Char.ofNat ('0'.toNat + value)

theorem toNat_plainDigit {value : Nat} (h : value < 10) : (plainDigit value).toNat = 48 + value := by
  interval_cases value <;> rfl

theorem hexDigitValue?_plainDigit {value : Nat} (h : value < 10) :
    hexDigitValue? (plainDigit value) = some value := by
  interval_cases value <;> rfl

theorem isPlainDigit_iff {c : Char} : isPlainDigit c = true ↔ 48 ≤ c.toNat ∧ c.toNat < 58 := by
  have hle : ∀ a b : Char, a ≤ b ↔ a.toNat ≤ b.toNat := fun _ _ => Iff.rfl
  have hzero : ('0' : Char).toNat = 48 := rfl
  have hnine : ('9' : Char).toNat = 57 := rfl
  simp only [isPlainDigit, Bool.and_eq_true, decide_eq_true_eq, hle, hzero, hnine]
  omega

/-- The digits of base ten are the plain ones. -/
theorem isDigitIn_ten {c : Char} : isDigitIn 10 c = isPlainDigit c := by
  unfold isDigitIn hexDigitValue?
  cases hplain : isPlainDigit c with
  | true =>
    have hrange := isPlainDigit_iff.mp hplain
    have hzero : ('0' : Char).toNat = 48 := rfl
    simp only [if_true, plainDigitValue, hzero, decide_eq_true_eq]
    omega
  | false =>
    simp only [Bool.false_eq_true, if_false]
    split
    case h_1 value hvalue =>
      -- Letters count from ten on.
      rw [decide_eq_false_iff_not]
      grind
    case h_2 => rfl

/-! ## Plain forms -/

/-- Typographic blanks are no digits. -/
theorem digitValue?_eq_none_of_isBlank {c : Char} (h : isBlank c = true) : digitValue? c = none := by
  cases hvalue : digitValue? c with
  | none => rfl
  | some value =>
    obtain ⟨hlt, origin, horigin, hcode⟩ := digitValue?_eq_some hvalue
    have hnone : ∀ origin ∈ digitOrigins, ∀ value < 10,
        isBlank (Char.ofNat (origin + value)) = false := by
      decide +kernel
    rw [← Char.ofNat_toNat c, hcode, hnone origin horigin value hlt] at h
    contradiction

/-- The plain form of a digit is the plain digit of the same value. -/
theorem plainForm_of_decimalDigit? {point : CodePoint} {value : Nat}
    (h : decimalDigit? point = some value) : value < 10 ∧ plainForm point = plainDigit value := by
  cases point with
  | surrogate => contradiction
  | char c =>
    have hdigit : digitValue? c = some value := h
    obtain ⟨hlt, origin, horigin, hcode⟩ := digitValue?_eq_some hdigit
    refine ⟨hlt, ?_⟩
    show plainChar c = plainDigit value
    unfold plainChar
    split
    case isTrue hplain =>
      -- Of all scripts only the plain digits stand below the limit.
      have horigin : origin = 48 := by
        rcases digitOrigins_cases origin horigin with rfl | hlarge
        · rfl
        · omega
      apply Char.toNat_inj.mp
      rw [toNat_plainDigit hlt, hcode, horigin]
    case isFalse =>
      split
      case isTrue hblank => simp [digitValue?_eq_none_of_isBlank hblank] at hdigit
      case isFalse => simp [hdigit, plainDigit]

/-- What is no digit has no plain digit for its plain form. -/
theorem isPlainDigit_plainForm_of_none {point : CodePoint} (h : decimalDigit? point = none) :
    isPlainDigit (plainForm point) = false := by
  cases point with
  | surrogate => rfl
  | char c =>
    have hdigit : digitValue? c = none := h
    -- A plain digit would have been found among the digits of all scripts.
    have hplain : isPlainDigit c = false := by
      rw [Bool.eq_false_iff]
      intro hplain
      obtain ⟨hle, hlt⟩ := isPlainDigit_iff.mp hplain
      have hzero : 48 ∈ digitOrigins := by decide
      have hsome := isSome_digitValue? hzero hle (by omega)
      simp [hdigit] at hsome
    show isPlainDigit (plainChar c) = false
    unfold plainChar
    split
    case isTrue => exact hplain
    case isFalse =>
      split
      case isTrue => rfl
      case isFalse => simp [hdigit, hplain]

theorem isDigitIn_plainForm (point : CodePoint) :
    isDigitIn 10 (plainForm point) = (decimalDigit? point).isSome := by
  rw [isDigitIn_ten]
  cases hvalue : decimalDigit? point with
  | none => exact isPlainDigit_plainForm_of_none hvalue
  | some value =>
    obtain ⟨hlt, hform⟩ := plainForm_of_decimalDigit? hvalue
    rw [hform, Option.isSome_some, isPlainDigit_iff, toNat_plainDigit hlt]
    omega

/-- The marks of numerals: no other code point has one of them for its plain form. -/
def numeralMarks : List Char :=
  ['_', '+', '-']

theorem plainForm_eq_mark_iff {point : CodePoint} {mark : Char} (hmark : mark ∈ numeralMarks) :
    plainForm point = mark ↔ point = .char mark := by
  have hplain : ∀ mark ∈ numeralMarks, mark.toNat < 0x7F ∧ mark ≠ ' ' ∧ mark ≠ '?' ∧
      isPlainDigit mark = false := by
    simp [numeralMarks, isPlainDigit]
  obtain ⟨hlt, hspace, hquestion, hdigit⟩ := hplain mark hmark
  cases point with
  | surrogate =>
    simp only [plainForm, reduceCtorEq, iff_false]
    exact hquestion.symm
  | char c =>
    rw [CodePoint.char.injEq]
    show plainChar c = mark ↔ c = mark
    unfold plainChar
    split
    case isTrue => rfl
    case isFalse hlarge =>
      have hne : c ≠ mark := by
        rintro rfl
        exact hlarge hlt
      simp only [hne, iff_false]
      split
      case isTrue => exact hspace.symm
      case isFalse =>
        split
        case h_1 value hvalue =>
          -- The plain form is a digit here, and no mark is one.
          have hvalue := (digitValue?_eq_some hvalue).1
          rintro rfl
          have hdigits : isPlainDigit (plainDigit value) = true := by
            rw [isPlainDigit_iff, toNat_plainDigit hvalue]
            omega
          exact absurd hdigits (by simpa [plainDigit] using hdigit)
        case h_2 => exact hne

/-- Whether a code point is one of the controls `U+001C` to `U+001F`, which are blank but do not stand
around numerals. -/
def IsSeparator (point : CodePoint) : Prop :=
  0x1C ≤ point.toNat ∧ point.toNat ≤ 0x1F

theorem eq_space_iff {c : Char} : c = ' ' ↔ c.toNat = 0x20 := by
  rw [← Char.toNat_inj]
  rfl

/-- All plain blanks stand in front of the digits. -/
theorem isPlainBlank_eq_false_of_le {c : Char} (h : 0x30 ≤ c.toNat) : isPlainBlank c = false := by
  rw [Bool.eq_false_iff]
  simp only [isPlainBlank, Bool.or_eq_true, Bool.and_eq_true, decide_eq_true_eq, beq_iff_eq, eq_space_iff,
    ne_eq]
  omega

/-- Apart from separators, blanks are what has a blank for its plain form. -/
theorem isPlainBlank_plainForm {point : CodePoint} (h : ¬ IsSeparator point) :
    isPlainBlank (plainForm point) = point.is isBlank := by
  cases point with
  | surrogate => rfl
  | char c =>
    have hcode : ¬ (0x1C ≤ c.toNat ∧ c.toNat ≤ 0x1F) := h
    show isPlainBlank (plainChar c) = isBlank c
    unfold plainChar
    split
    case isTrue hplain =>
      rw [Bool.eq_iff_iff]
      simp only [isPlainBlank, isBlank, Bool.or_eq_true, Bool.and_eq_true, decide_eq_true_eq, beq_iff_eq,
        eq_space_iff]
      omega
    case isFalse hlarge =>
      split
      case isTrue hblank => rw [hblank]; rfl
      case isFalse hblank =>
        rw [Bool.eq_false_iff.mpr hblank]
        apply isPlainBlank_eq_false_of_le
        split
        case h_1 value hvalue =>
          show 0x30 ≤ (plainDigit value).toNat
          rw [toNat_plainDigit (digitValue?_eq_some hvalue).1]
          omega
        case h_2 => omega

/-! ## Digit sequences -/

/-- The mark between groups of digits. -/
def underscore : CodePoint := .char '_'

theorem plainForm_beq_underscore (point : CodePoint) :
    (plainForm point == '_') = (point == underscore) := by
  rw [Bool.eq_iff_iff, beq_iff_eq, beq_iff_eq]
  exact plainForm_eq_mark_iff (by decide)

/-- Whether a text is a sequence of digits with the given values: one or more groups of digits, none of
them empty, with one underscore between any two. -/
def SpellsDigits (text : Text) (values : List Nat) : Prop :=
  ∃ groups : List Text, groups ≠ [] ∧ [] ∉ groups ∧ text = Text.join [underscore] groups ∧
    groups.flatten.map decimalDigit? = values.map some

/-- The number that digits denote. -/
def decimalValue (values : List Nat) : Nat :=
  values.foldl (fun number value => 10 * number + value) 0

theorem length_of_map_decimalDigit? {digits : Text} {values : List Nat}
    (h : digits.map decimalDigit? = values.map some) : digits.length = values.length := by
  simpa using congrArg List.length h

theorem not_mem_of_map_decimalDigit? {text : Text} {values : List Nat}
    (h : text.map decimalDigit? = values.map some) : underscore ∉ text := by
  intro hmem
  have hnone : none ∈ values.map some := by
    rw [← h]
    exact List.mem_map.mpr ⟨underscore, hmem, by decide⟩
  simp at hnone

/-- The groups are what underscores cut the text into. -/
theorem spellsDigits_iff {text : Text} {values : List Nat} :
    SpellsDigits text values ↔ [] ∉ text.splitOn underscore ∧
      (text.splitOn underscore).flatten.map decimalDigit? = values.map some := by
  constructor
  · rintro ⟨groups, hne, hgroups, rfl, hvalues⟩
    have hmem := not_mem_of_map_decimalDigit? hvalues
    simp only [List.mem_flatten, not_exists, not_and] at hmem
    have hsplit : (Text.join [underscore] groups).splitOn underscore = groups :=
      List.splitOn_intercalate underscore hmem hne
    rw [hsplit]
    exact ⟨hgroups, hvalues⟩
  · rintro ⟨hgroups, hvalues⟩
    exact ⟨text.splitOn underscore, List.splitOn_ne_nil _ _, hgroups,
      (List.intercalate_splitOn underscore).symm, hvalues⟩

/-- A text and its plain form are cut at the same places. -/
theorem splitOn_map_plainForm (text : Text) :
    (text.map plainForm).splitOn '_' = (text.splitOn underscore).map (List.map plainForm) := by
  induction text with
  | nil => rfl
  | cons point text ih =>
    rw [List.map_cons, List.splitOn_cons_eq_if_modifyHead, List.splitOn_cons_eq_if_modifyHead,
      plainForm_beq_underscore, ih]
    split
    · rfl
    · cases text.splitOn underscore <;> rfl

/-- Digits in plain form have the value that they have in their scripts. -/
theorem digitsValue_map_plainForm {digits : Text} {values : List Nat}
    (h : digits.map decimalDigit? = values.map some) :
    digitsValue 10 (digits.map plainForm) = decimalValue values := by
  have hfold : ∀ number, (digits.map plainForm).foldl
      (fun value c => 10 * value + (hexDigitValue? c).getD 0) number =
        values.foldl (fun number value => 10 * number + value) number := by
    induction digits generalizing values with
    | nil =>
      obtain rfl : values = [] := by simpa using h.symm
      exact fun _ => rfl
    | cons point digits ih =>
      cases values with
      | nil => simp at h
      | cons value values =>
        obtain ⟨hpoint, hdigits⟩ := List.cons.inj h
        obtain ⟨hlt, hform⟩ := plainForm_of_decimalDigit? hpoint
        intro number
        simp only [List.map_cons, List.foldl_cons, hform, hexDigitValue?_plainDigit hlt, Option.getD_some]
        exact ih hdigits _
  exact hfold 0

/-- The characters that a digit sequence in plain form may have. -/
def isNumeralChar (c : Char) : Bool :=
  c == '_' || isDigitIn 10 c

/-- Digits are read where they and underscores make up the whole text, no group is empty and they are not
too many. -/
theorem readDigits_eq_ok_iff {cs : List Char} {number : Nat} :
    readDigits 10 cs = .ok number ↔ (∀ c ∈ cs, isNumeralChar c = true) ∧ [] ∉ cs.splitOn '_' ∧
      (cs.splitOn '_').flatten.length ≤ digitLimit ∧ digitsValue 10 (cs.splitOn '_').flatten = number := by
  have hread : readDigits 10 cs =
      if ((cs.takeWhile isNumeralChar).splitOn '_').any List.isEmpty then .error .malformed
      else if digitLimit < ((cs.takeWhile isNumeralChar).splitOn '_').flatten.length then
        .error (.tooManyDigits ((cs.takeWhile isNumeralChar).splitOn '_').flatten.length)
      else if (cs.dropWhile isNumeralChar).isEmpty then
        .ok (digitsValue 10 ((cs.takeWhile isNumeralChar).splitOn '_').flatten)
      else .error .malformed := by
    have hclass : (fun c => c == '_' || isDigitIn 10 c) = isNumeralChar := rfl
    simp only [readDigits, hclass, beq_self_eq_true, Bool.true_and, decide_eq_true_eq]
  rw [hread]
  by_cases hall : ∀ c ∈ cs, isNumeralChar c = true
  · rw [List.takeWhile_eq_self_iff.mpr hall, List.dropWhile_eq_nil_iff.mpr hall, and_iff_right hall]
    have hempty : (cs.splitOn '_').any List.isEmpty = true ↔ [] ∈ cs.splitOn '_' := by
      simp
    split
    case isTrue hgroups => simp [hempty.mp hgroups]
    case isFalse hgroups =>
      rw [and_iff_right (mt hempty.mpr hgroups)]
      split
      case isTrue hlimit =>
        simp only [reduceCtorEq, false_iff]
        exact fun h => absurd h.1 (Nat.not_le.mpr hlimit)
      case isFalse hlimit =>
        rw [and_iff_right (Nat.le_of_not_lt hlimit)]
        simp
  · -- Something is left over behind the digits, so whatever the reading meets first, it fails.
    have hdrop : (cs.dropWhile isNumeralChar).isEmpty = false := by
      rw [Bool.eq_false_iff]
      intro hempty
      exact hall (List.dropWhile_eq_nil_iff.mp (List.isEmpty_iff.mp hempty))
    simp only [hdrop, hall, false_and, iff_false, Bool.false_eq_true, if_false]
    split
    case isTrue => simp
    case isFalse => split <;> simp

/-- The code points that a digit sequence may have. -/
def mayStand (point : CodePoint) : Bool :=
  point == underscore || (decimalDigit? point).isSome

theorem isNumeralChar_plainForm (point : CodePoint) :
    isNumeralChar (plainForm point) = mayStand point := by
  rw [isNumeralChar, mayStand, plainForm_beq_underscore, isDigitIn_plainForm]

theorem mem_join_singleton {separator point : CodePoint} {groups : List Text}
    (h : point ∈ Text.join [separator] groups) : point = separator ∨ point ∈ groups.flatten := by
  induction groups with
  | nil => simp [Text.join] at h
  | cons group groups ih =>
    cases groups with
    | nil => simpa [Text.join] using Or.inr h
    | cons next groups =>
      simp only [Text.join, List.intercalate_cons_cons, List.mem_append, List.mem_singleton] at h ih
      rcases h with (hgroup | hseparator) | hrest
      · exact .inr (by simp [hgroup])
      · exact .inl hseparator
      · rcases ih hrest with hseparator | hflatten
        · exact .inl hseparator
        · rw [List.flatten_cons]
          exact .inr (List.mem_append_right _ hflatten)

theorem SpellsDigits.mayStand {text : Text} {values : List Nat} (h : SpellsDigits text values) :
    ∀ point ∈ text, mayStand point = true := by
  obtain ⟨groups, -, -, rfl, hvalues⟩ := h
  intro point hpoint
  rcases mem_join_singleton hpoint with rfl | hdigit
  · rfl
  · have hsome : decimalDigit? point ∈ values.map some := hvalues ▸ List.mem_map_of_mem hdigit
    obtain ⟨value, -, hvalue⟩ := List.mem_map.mp hsome
    simp [Text.mayStand, ← hvalue]

/-- Cutting at underscores leaves everything else. -/
theorem flatten_splitOn_underscore (text : Text) :
    (text.splitOn underscore).flatten = text.filter (· ≠ underscore) := by
  induction text with
  | nil => rfl
  | cons point text ih =>
    rw [List.splitOn_cons_eq_if_modifyHead]
    by_cases hpoint : point = underscore
    · simpa [hpoint] using ih
    · cases hsplit : text.splitOn underscore with
      | nil => exact absurd hsplit (List.splitOn_ne_nil underscore text)
      | cons group groups =>
        rw [hsplit] at ih
        simpa [hpoint] using ih

/-- Where only digits and underscores stand, the digits have values. -/
theorem exists_map_decimalDigit? {text : Text} (h : ∀ point ∈ text, mayStand point = true) :
    ∃ values : List Nat, (text.splitOn underscore).flatten.map decimalDigit? = values.map some := by
  rw [flatten_splitOn_underscore]
  induction text with
  | nil => exact ⟨[], rfl⟩
  | cons point text ih =>
    obtain ⟨hpoint, htext⟩ := List.forall_mem_cons.mp h
    obtain ⟨values, hvalues⟩ := ih htext
    by_cases hmark : point = underscore
    · exact ⟨values, by simpa [hmark] using hvalues⟩
    · obtain ⟨value, hvalue⟩ : ∃ value, decimalDigit? point = some value := by
        simpa [mayStand, hmark, Option.isSome_iff_exists] using hpoint
      exact ⟨value :: values, by simpa [hmark, hvalue] using hvalues⟩

/-- Reading digits accepts the plain forms of digit sequences that are not too long. -/
theorem readDigits_plainForm_eq_ok_iff {text : Text} {number : Nat} :
    readDigits 10 (text.map plainForm) = .ok number ↔
      ∃ values, SpellsDigits text values ∧ values.length ≤ digitLimit ∧ decimalValue values = number := by
  have hgroups : [] ∈ (text.splitOn underscore).map (List.map plainForm) ↔
      [] ∈ text.splitOn underscore := by
    simp
  rw [readDigits_eq_ok_iff, List.forall_mem_map, splitOn_map_plainForm, hgroups, ← List.map_flatten,
    List.length_map]
  simp only [isNumeralChar_plainForm]
  constructor
  · rintro ⟨hall, hnonempty, hlimit, hnumber⟩
    obtain ⟨values, hvalues⟩ := exists_map_decimalDigit? hall
    refine ⟨values, spellsDigits_iff.mpr ⟨hnonempty, hvalues⟩, length_of_map_decimalDigit? hvalues ▸ hlimit, ?_⟩
    rw [← hnumber, digitsValue_map_plainForm hvalues]
  · rintro ⟨values, hspells, hlimit, hnumber⟩
    obtain ⟨hnonempty, hvalues⟩ := spellsDigits_iff.mp hspells
    refine ⟨hspells.mayStand, hnonempty, (length_of_map_decimalDigit? hvalues).symm ▸ hlimit, ?_⟩
    rw [digitsValue_map_plainForm hvalues, hnumber]

/-! ## Whole numbers -/

/-- The whole number that a text spells: a sequence of digits, not too many, which may have a sign. -/
inductive SpellsInteger : Text → Int → Prop
  | unsigned {digits : Text} {values : List Nat} :
      SpellsDigits digits values → values.length ≤ digitLimit →
        SpellsInteger digits (decimalValue values)
  | plus {digits : Text} {values : List Nat} :
      SpellsDigits digits values → values.length ≤ digitLimit →
        SpellsInteger (.char '+' :: digits) (decimalValue values)
  | minus {digits : Text} {values : List Nat} :
      SpellsDigits digits values → values.length ≤ digitLimit →
        SpellsInteger (.char '-' :: digits) (-(decimalValue values : Int))

/-- Whether a text has a sign in front. -/
def IsSigned (text : Text) : Prop :=
  ∃ digits, text = .char '+' :: digits ∨ text = .char '-' :: digits

theorem SpellsDigits.not_isSigned {text : Text} {values : List Nat} (h : SpellsDigits text values) :
    ¬ IsSigned text := by
  rintro ⟨digits, rfl | rfl⟩
  · exact absurd (h.mayStand _ List.mem_cons_self) (by decide)
  · exact absurd (h.mayStand _ List.mem_cons_self) (by decide)

section

variable {digits : Text} {number : Int}

theorem spellsInteger_plus_iff :
    SpellsInteger (.char '+' :: digits) number ↔ ∃ values, (SpellsDigits digits values ∧
      values.length ≤ digitLimit) ∧ (decimalValue values : Int) = number := by
  constructor
  · intro h
    cases h with
    | unsigned hdigits => exact absurd ⟨digits, .inl rfl⟩ hdigits.not_isSigned
    | plus hdigits hlimit => exact ⟨_, ⟨hdigits, hlimit⟩, rfl⟩
  · rintro ⟨values, ⟨hdigits, hlimit⟩, rfl⟩
    exact .plus hdigits hlimit

theorem spellsInteger_minus_iff :
    SpellsInteger (.char '-' :: digits) number ↔ ∃ values, (SpellsDigits digits values ∧
      values.length ≤ digitLimit) ∧ -(decimalValue values : Int) = number := by
  constructor
  · intro h
    cases h with
    | unsigned hdigits => exact absurd ⟨digits, .inr rfl⟩ hdigits.not_isSigned
    | minus hdigits hlimit => exact ⟨_, ⟨hdigits, hlimit⟩, rfl⟩
  · rintro ⟨values, ⟨hdigits, hlimit⟩, rfl⟩
    exact .minus hdigits hlimit

theorem spellsInteger_iff_of_not_isSigned (h : ¬ IsSigned digits) :
    SpellsInteger digits number ↔ ∃ values, (SpellsDigits digits values ∧
      values.length ≤ digitLimit) ∧ (decimalValue values : Int) = number := by
  constructor
  · intro hspells
    cases hspells with
    | unsigned hdigits hlimit => exact ⟨_, ⟨hdigits, hlimit⟩, rfl⟩
    | plus => exact absurd ⟨_, .inl rfl⟩ h
    | minus => exact absurd ⟨_, .inr rfl⟩ h
  · rintro ⟨values, ⟨hdigits, hlimit⟩, rfl⟩
    exact .unsigned hdigits hlimit

end

/-! ### Reading -/

theorem takeSign_of_not_isSigned {text : Text} (h : ¬ IsSigned text) :
    takeSign (text.map plainForm) = (false, text.map plainForm) := by
  unfold takeSign
  split
  case h_1 cs hcs =>
    obtain ⟨point, digits, rfl, hpoint, -⟩ := List.map_eq_cons_iff.mp hcs
    rw [plainForm_eq_mark_iff (by decide)] at hpoint
    exact absurd ⟨digits, .inr (by rw [hpoint])⟩ h
  case h_2 cs hcs =>
    obtain ⟨point, digits, rfl, hpoint, -⟩ := List.map_eq_cons_iff.mp hcs
    rw [plainForm_eq_mark_iff (by decide)] at hpoint
    exact absurd ⟨digits, .inl (by rw [hpoint])⟩ h
  case h_3 => rfl

theorem trimBy_map {α β : Type} (f : α → β) (drops : β → Bool) (xs : List α) :
    trimBy drops (xs.map f) = (trimBy (drops ∘ f) xs).map f := by
  simp [trimBy, List.dropWhile_map, ← List.map_reverse]

theorem dropWhile_congr {α : Type} {drops others : α → Bool} {xs : List α}
    (h : ∀ x ∈ xs, drops x = others x) : xs.dropWhile drops = xs.dropWhile others := by
  induction xs with
  | nil => rfl
  | cons x xs ih =>
    obtain ⟨hx, hxs⟩ := List.forall_mem_cons.mp h
    simp only [List.dropWhile_cons, hx, ih hxs]

theorem trimBy_congr {α : Type} {drops others : α → Bool} {xs : List α}
    (h : ∀ x ∈ xs, drops x = others x) : trimBy drops xs = trimBy others xs := by
  unfold trimBy
  rw [dropWhile_congr h]
  congr 1
  apply dropWhile_congr
  intro x hx
  -- What is left after the first end was trimmed was there before.
  exact h x ((List.dropWhile_sublist others).mem (List.mem_reverse.mp hx))

/-- What is read behind a sign. -/
def readSigned (negative : Bool) (cs : List Char) : Except NumeralError Int :=
  (readDigits 10 cs).map fun n => if negative then -(n : Int) else n

theorem readInteger_ten (text : Text) :
    readInteger 10 text =
      let (negative, body) := takeSign (trimBy isPlainBlank (text.map plainForm))
      readSigned negative body := by
  unfold readInteger readSigned
  dsimp only [dropBaseMark]
  cases readDigits 10 (takeSign (trimBy isPlainBlank (text.map plainForm))).2 <;> rfl

theorem readSigned_eq_ok_iff {negative : Bool} {digits : Text} {number : Int} :
    readSigned negative (digits.map plainForm) = .ok number ↔
      ∃ values, (SpellsDigits digits values ∧ values.length ≤ digitLimit) ∧
        (if negative then -(decimalValue values : Int) else decimalValue values) = number := by
  have hmap : readSigned negative (digits.map plainForm) = .ok number ↔
      ∃ n : Nat, readDigits 10 (digits.map plainForm) = .ok n ∧
        (if negative then -(n : Int) else n) = number := by
    unfold readSigned
    cases readDigits 10 (digits.map plainForm) <;> simp [Except.map]
  rw [hmap]
  simp only [readDigits_plainForm_eq_ok_iff]
  constructor
  · rintro ⟨n, ⟨values, hdigits, hlimit, rfl⟩, hnumber⟩
    exact ⟨values, ⟨hdigits, hlimit⟩, hnumber⟩
  · rintro ⟨values, ⟨hdigits, hlimit⟩, hnumber⟩
    exact ⟨_, ⟨values, hdigits, hlimit, rfl⟩, hnumber⟩

/-- **What is read as a whole number.** A text without separators is read as the number that it spells once
the blanks around it are left out, and as nothing if it spells none. -/
theorem readInteger_eq_ok_iff {text : Text} (h : ∀ point ∈ text, ¬ IsSeparator point) {number : Int} :
    readInteger 10 text = .ok number ↔ SpellsInteger (trim text) number := by
  have hplain : trimBy isPlainBlank (text.map plainForm) = (trim text).map plainForm := by
    rw [trimBy_map]
    congr 1
    exact trimBy_congr fun point hpoint => isPlainBlank_plainForm (h point hpoint)
  rw [readInteger_ten, hplain]
  generalize trim text = text
  by_cases hsigned : IsSigned text
  · -- A sign is the same in plain form, and the digits are read behind it.
    obtain ⟨digits, rfl | rfl⟩ := hsigned
    · exact readSigned_eq_ok_iff.trans spellsInteger_plus_iff.symm
    · exact readSigned_eq_ok_iff.trans spellsInteger_minus_iff.symm
  · rw [takeSign_of_not_isSigned hsigned]
    exact readSigned_eq_ok_iff.trans (spellsInteger_iff_of_not_isSigned hsigned).symm

/-! ### Plain digits -/

theorem trimBy_eq_self {α : Type} {drops : α → Bool} {xs : List α} (h : ∀ x ∈ xs, drops x = false) :
    trimBy drops xs = xs := by
  have hdrop : ∀ ys : List α, (∀ y ∈ ys, drops y = false) → ys.dropWhile drops = ys := by
    intro ys hys
    cases ys with
    | nil => rfl
    | cons y ys => rw [List.dropWhile_cons_of_neg (by simp [hys y List.mem_cons_self])]
  unfold trimBy
  rw [hdrop xs h, hdrop xs.reverse (fun x hx => h x (List.mem_reverse.mp hx)), List.reverse_reverse]

theorem decimalDigit?_of_isPlainDigit {c : Char} (h : isPlainDigit c = true) :
    decimalDigit? (.char c) = some (plainDigitValue c) := by
  obtain ⟨hlow, hhigh⟩ := isPlainDigit_iff.mp h
  obtain ⟨value, hvalue⟩ := Option.isSome_iff_exists.mp
    (@isSome_digitValue? c 48 (by decide) hlow hhigh)
  obtain ⟨hlt, origin, horigin, hsum⟩ := digitValue?_eq_some hvalue
  have hzero : ('0' : Char).toNat = 48 := rfl
  have hsame : plainDigitValue c = value := by
    rw [plainDigitValue, hzero]
    obtain rfl | hlarge := digitOrigins_cases origin horigin <;> omega
  rw [decimalDigit?, hvalue, hsame]

/-- Plain digits that are not too many are read as a number. -/
theorem exists_readInteger_ofChars {digits : List Char} (hne : digits ≠ [])
    (hdigits : ∀ c ∈ digits, isPlainDigit c = true) (hlimit : digits.length ≤ digitLimit) :
    ∃ number, readInteger 10 (ofChars digits) = .ok number := by
  have hcode : ∀ point ∈ ofChars digits, ∃ c, point = .char c ∧ 48 ≤ c.toNat ∧ c.toNat < 58 := by
    intro point hpoint
    obtain ⟨c, hc, rfl⟩ := List.mem_map.mp hpoint
    exact ⟨c, rfl, isPlainDigit_iff.mp (hdigits c hc)⟩
  have hseparator : ∀ point ∈ ofChars digits, ¬ IsSeparator point := by
    intro point hpoint
    obtain ⟨c, rfl, hlow, -⟩ := hcode point hpoint
    exact fun h => absurd h.2 (by simp only [CodePoint.toNat]; omega)
  have htrim : trim (ofChars digits) = ofChars digits := by
    apply trimBy_eq_self
    intro point hpoint
    obtain ⟨c, rfl, hlow, hhigh⟩ := hcode point hpoint
    rw [Bool.eq_false_iff]
    simp only [CodePoint.is, isBlank, ne_eq, Bool.or_eq_true, Bool.and_eq_true, decide_eq_true_eq,
      beq_iff_eq]
    omega
  have hspelled : SpellsDigits (ofChars digits) (digits.map plainDigitValue) := by
    refine ⟨[ofChars digits], by simp, by simp [ofChars, hne], by simp [join], ?_⟩
    simp only [List.flatten_singleton, ofChars, List.map_map]
    exact List.map_congr_left fun c hc => decimalDigit?_of_isPlainDigit (hdigits c hc)
  refine ⟨decimalValue (digits.map plainDigitValue), (readInteger_eq_ok_iff hseparator).mpr ?_⟩
  rw [htrim]
  exact .unsigned hspelled (by rwa [List.length_map])

end OpenApiClient.Text
