import OpenApiClient.Client.Naming

/-!
# Lower Case is Settled

Lower-casing a character a second time changes nothing, and the plain characters that are no letters
neither come from other characters nor change themselves. Both facts are read off the case table by
one check of its stretches, and carry over to names whose first character is put in lower case.

## Layers

- **Stretches**: where the images of a stretch lie, and when another stretch misses them all.
- **Characters**: `lowerChar_of_mem_lowerChar` (settled) and `mem_lowerChar_cases` (what can arise).
- **Names**: `camelCase_camelCase` and `totalWeight_camelCase`.
-/

namespace OpenApiClient.Text

/-! ## Stretches -/

namespace CaseRange

/-- Whether no image of a stretch belongs to `other`: the images end before it, begin after it, or
fall between its characters. -/
def misses (range other : CaseRange) : Bool :=
  Nat.blt (range.shift range.last) other.first || Nat.blt other.last (range.shift range.first) ||
    ((Nat.beq range.step 2 || Nat.beq range.first range.last) && Nat.beq other.step 2 &&
      Nat.beq ((range.shift range.first - other.first) % 2) 1)

/-- Whether the images of a stretch are characters, none of them the capital I with a dot, and plain
only where the image is the letter `k`. -/
def hasProperImages (range : CaseRange) : Bool :=
  decide (0 ≤ range.first + range.offset) &&
    (Nat.blt (range.shift range.last) 0x130 || Nat.blt 0x130 (range.shift range.first)) &&
    (Nat.blt (range.shift range.last) 0xD800 ||
      (Nat.blt 0xDFFF (range.shift range.first) && Nat.blt (range.shift range.last) 0x110000)) &&
    (Nat.ble 0x80 (range.shift range.first) ||
      (Nat.beq (range.shift range.first) 0x6B && Nat.beq range.first range.last))

/-- A covered character moves as far as the first one of its stretch. -/
theorem shift_of_covers {range : CaseRange} {code : Nat} (hcovers : range.covers code)
    (hproper : range.hasProperImages) :
    range.shift code = range.shift range.first + (code - range.first) := by
  simp only [covers, hasProperImages, Bool.and_eq_true, decide_eq_true_eq] at hcovers hproper
  simp only [shift, Int.ofNat_eq_natCast]
  omega

/-- The images of a stretch lie between the images of its ends. -/
theorem shift_le_of_covers {range : CaseRange} {code : Nat} (hcovers : range.covers code)
    (hproper : range.hasProperImages) :
    range.shift range.first ≤ range.shift code ∧ range.shift code ≤ range.shift range.last := by
  have hshift := shift_of_covers hcovers hproper
  simp only [covers, hasProperImages, Bool.and_eq_true, decide_eq_true_eq] at hcovers hproper
  simp only [shift, Int.ofNat_eq_natCast] at hshift ⊢
  omega

theorem not_covers_shift {range other : CaseRange} {code : Nat} (hcovers : range.covers code)
    (hproper : range.hasProperImages) (hmisses : range.misses other) :
    other.covers (range.shift code) = false := by
  have hshift := shift_of_covers hcovers hproper
  have hbounds := shift_le_of_covers hcovers hproper
  simp only [covers, Bool.and_eq_true, decide_eq_true_eq, beq_iff_eq] at hcovers
  obtain ⟨⟨hfirst, hlast⟩, hstep⟩ := hcovers
  simp only [misses, Bool.or_eq_true, Bool.and_eq_true, Nat.blt_eq, Nat.beq_eq] at hmisses
  rw [← Bool.not_eq_true]
  simp only [covers, Bool.and_eq_true, decide_eq_true_eq, beq_iff_eq]
  rintro ⟨⟨hof, hol⟩, hos⟩
  rcases hmisses with (hend | hbegin) | ⟨⟨hsparse, hother⟩, hodd⟩
  · omega
  · omega
  · -- The images keep the parity of the first one, and `other` has the other parity.
    rw [hother] at hos
    have heven : (code - range.first) % 2 = 0 := by
      rcases hsparse with htwo | hone
      · rwa [htwo] at hstep
      · omega
    omega

end CaseRange

/-- Whether lower-casing an image of the stretch changes nothing more. -/
def isSettled (range : CaseRange) : Bool :=
  range.hasProperImages && lowerTable.all range.misses

theorem lowerTable_isSettled : lowerTable.all isSettled = true := by
  decide +kernel

/-- What the check says about a character that a stretch of the table covers: its image is covered by
no stretch, is a character other than the dotted I, and is plain only as the letter `k`. -/
theorem shift_cases {range : CaseRange} {code : Nat} (hmem : range ∈ lowerTable)
    (hcovers : range.covers code) :
    (∀ other ∈ lowerTable, other.covers (range.shift code) = false) ∧
      range.shift code ≠ 0x130 ∧
      (range.shift code < 0xD800 ∨ 0xDFFF < range.shift code ∧ range.shift code < 0x110000) ∧
      (0x80 ≤ range.shift code ∨ range.shift code = 0x6B) := by
  have hsettled := List.all_eq_true.mp lowerTable_isSettled range hmem
  simp only [isSettled, Bool.and_eq_true, List.all_eq_true] at hsettled
  obtain ⟨hproper, hmisses⟩ := hsettled
  have hbounds := CaseRange.shift_le_of_covers hcovers hproper
  have hshift := CaseRange.shift_of_covers hcovers hproper
  refine ⟨fun other hother => CaseRange.not_covers_shift hcovers hproper (hmisses other hother), ?_⟩
  simp only [CaseRange.covers, Bool.and_eq_true, decide_eq_true_eq] at hcovers
  simp only [CaseRange.hasProperImages, Bool.and_eq_true, Bool.or_eq_true, Nat.blt_eq,
    Nat.ble_eq, Nat.beq_eq, decide_eq_true_eq] at hproper
  omega

/-! ## Characters -/

/-- The number of a character that is made from the number of one. -/
theorem toNat_ofNat_of_valid {code : Nat}
    (hvalid : code < 0xD800 ∨ 0xDFFF < code ∧ code < 0x110000) : (Char.ofNat code).toNat = code := by
  have h : code.isValidChar := hvalid
  rw [Char.ofNat, dif_pos h]
  rfl

/-- Lower-casing by the table keeps a character, or leads to one that the table keeps. -/
theorem lookup_lowerTable_cases (c : Char) :
    CaseRange.lookup lowerTable c = c ∨
      ∃ d : Char, CaseRange.lookup lowerTable c = d ∧ CaseRange.lookup lowerTable d = d ∧
        d.toNat ≠ 0x130 ∧ (0x80 ≤ d.toNat ∨ d = 'k') := by
  unfold CaseRange.lookup
  cases hfind : lowerTable.find? (·.covers c.toNat) with
  | none => exact .inl rfl
  | some range =>
    have hmem : range ∈ lowerTable := List.mem_of_find?_eq_some hfind
    have hcovers : range.covers c.toNat := by simpa using List.find?_some hfind
    obtain ⟨hmisses, hdotted, hvalid, hplain⟩ := shift_cases hmem hcovers
    have hcode := toNat_ofNat_of_valid hvalid
    -- No stretch covers the image, so the table keeps it.
    have hnone : lowerTable.find? (·.covers (range.shift c.toNat)) = none := by
      rw [List.find?_eq_none]
      intro other hother
      rw [hmisses other hother]
      exact Bool.false_ne_true
    refine .inr ⟨Char.ofNat (range.shift c.toNat), rfl, ?_, ?_, ?_⟩
    · simp only [hcode, hnone]
    · rwa [hcode]
    · rcases hplain with hhigh | hk
      · exact .inl (by rwa [hcode])
      · exact .inr (by rw [hk])

/-- What holds of the plain characters by number holds of them. -/
theorem forall_plain {holds : Char → Prop} (h : ∀ code < 0x80, holds (Char.ofNat code)) {c : Char}
    (hplain : c.toNat < 0x80) : holds c := by
  have hc := h c.toNat hplain
  rwa [Char.ofNat_toNat] at hc

theorem toLower_cases {c : Char} (hplain : c.toNat < 0x80) :
    c.toLower.toLower = c.toLower ∧ c.toLower.toNat < 0x80 ∧
      (c.toLower = c ∨ c.isUpper ∧ c.toLower.isLower) := by
  revert hplain
  apply forall_plain
  decide

theorem lowerChar_ne_nil (c : Char) : lowerChar c ≠ [] := by
  unfold lowerChar
  split
  · exact List.cons_ne_nil _ _
  · split <;> exact List.cons_ne_nil _ _

/-- Lower-casing is settled: a character that arises from it stays as it is. -/
theorem lowerChar_of_mem_lowerChar {c d : Char} (h : d ∈ lowerChar c) : lowerChar d = [d] := by
  unfold lowerChar at h
  split at h
  case isTrue hplain =>
    obtain rfl := List.mem_singleton.mp h
    obtain ⟨hidem, hlow, -⟩ := toLower_cases hplain
    rw [lowerChar, if_pos hlow, hidem]
  case isFalse hhigh =>
    split at h
    case isTrue hdotted =>
      simp only [List.mem_cons, List.not_mem_nil, or_false] at h
      rcases h with rfl | rfl <;> decide +kernel
    case isFalse hdotted =>
      obtain rfl := List.mem_singleton.mp h
      rcases lookup_lowerTable_cases c with hkeep | ⟨d, hd, hkeep, hne, hd'⟩
      · rw [hkeep, lowerChar, if_neg hhigh, if_neg hdotted, hkeep]
      · rw [hd]
        rcases hd' with hhigh' | rfl
        · rw [lowerChar, if_neg (by omega), if_neg (by simpa using hne), hkeep]
        · rfl

/-- What can arise from lower-casing a character: the character itself, a plain small letter, or a
character that is not plain. -/
theorem mem_lowerChar_cases {c d : Char} (h : d ∈ lowerChar c) :
    d = c ∨ d.isLower ∨ 0x80 ≤ d.toNat := by
  unfold lowerChar at h
  split at h
  case isTrue hplain =>
    obtain rfl := List.mem_singleton.mp h
    obtain ⟨-, -, hkeep | ⟨-, hlower⟩⟩ := toLower_cases hplain
    · exact .inl hkeep
    · exact .inr (.inl hlower)
  case isFalse hhigh =>
    split at h
    case isTrue hdotted =>
      simp only [List.mem_cons, List.not_mem_nil, or_false] at h
      rcases h with rfl | rfl
      · exact .inr (.inl rfl)
      · exact .inr (.inr (by decide))
    case isFalse hdotted =>
      obtain rfl := List.mem_singleton.mp h
      rcases lookup_lowerTable_cases c with hkeep | ⟨d, hd, -, -, hd'⟩
      · exact .inl hkeep
      · rw [hd]
        rcases hd' with hhigh' | rfl
        · exact .inr (.inr hhigh')
        · exact .inr (.inl rfl)

theorem lowerChar_dotted {c : Char} (h : c.toNat = 0x130) : lowerChar c = ['i', '\u0307'] := by
  rw [lowerChar, if_neg (by omega), if_pos (by simp [h])]

theorem exists_lowerChar_eq_singleton {c : Char} (h : c.toNat ≠ 0x130) :
    ∃ d, lowerChar c = [d] := by
  unfold lowerChar
  split
  · exact ⟨_, rfl⟩
  · rw [if_neg (by simpa using h)]
    exact ⟨_, rfl⟩

/-- A plain character other than the letter `k` arises from a plain one, unless it is the first of the
two that the dotted I becomes. -/
theorem toNat_lt_of_mem_lowerChar {c d : Char} (h : d ∈ lowerChar c) (hplain : d.toNat < 0x80)
    (hk : d ≠ 'k') (hdotted : c.toNat ≠ 0x130) : c.toNat < 0x80 := by
  rcases Nat.lt_or_ge c.toNat 0x80 with hlow | hhigh
  · exact hlow
  · rw [lowerChar, if_neg (Nat.not_lt.mpr hhigh), if_neg (by simpa using hdotted)] at h
    obtain rfl := List.mem_singleton.mp h
    -- The table keeps the character, or its image is no plain one but `k`.
    rcases lookup_lowerTable_cases c with hkeep | ⟨image, himage, -, -, hhigh' | rfl⟩
    · rwa [hkeep] at hplain
    · rw [himage] at hplain
      omega
    · exact absurd himage hk

/-! ## Weights of text -/

/-- The total weight of the code points of a text. -/
def totalWeight (weight : CodePoint → Nat) : Text → Nat
  | [] => 0
  | point :: rest => weight point + totalWeight weight rest

@[simp] theorem totalWeight_nil (weight : CodePoint → Nat) : totalWeight weight [] = 0 := rfl

@[simp] theorem totalWeight_cons (weight : CodePoint → Nat) (point : CodePoint) (rest : Text) :
    totalWeight weight (point :: rest) = weight point + totalWeight weight rest := rfl

@[simp] theorem totalWeight_append (weight : CodePoint → Nat) (text other : Text) :
    totalWeight weight (text ++ other) = totalWeight weight text + totalWeight weight other := by
  induction text with
  | nil => simp
  | cons point rest ih => simp [ih, Nat.add_assoc]

theorem totalWeight_eq_zero {weight : CodePoint → Nat} {text : Text}
    (h : ∀ point ∈ text, weight point = 0) : totalWeight weight text = 0 := by
  induction text with
  | nil => rfl
  | cons point rest ih =>
    rw [List.forall_mem_cons] at h
    rw [totalWeight_cons, h.1, ih h.2]

end OpenApiClient.Text

namespace OpenApiClient.Client

open OpenApiClient.Text

/-! ## Names -/

/-- The plain characters that are no letters: case neither makes nor changes them. -/
def isCaseless (c : Char) : Bool :=
  c.toNat < 0x80 && !c.isAlpha

/-- A caseless character arises from itself only, and stays what it is. -/
theorem caseless_mem_lowerChar {c mark : Char} (hmark : isCaseless mark) :
    mark ∈ lowerChar c ↔ c = mark := by
  have halpha : mark.isAlpha = (mark.isUpper || mark.isLower) := rfl
  simp only [isCaseless, halpha, Bool.and_eq_true, decide_eq_true_eq, Bool.not_eq_true',
    Bool.or_eq_false_iff] at hmark
  obtain ⟨hplain, hupper, hlower⟩ := hmark
  constructor
  · intro h
    rcases mem_lowerChar_cases h with hself | hsmall | hhigh
    · exact hself.symm
    · rw [hlower] at hsmall
      contradiction
    · omega
  · rintro rfl
    obtain ⟨-, -, hkeep | ⟨hupper', -⟩⟩ := toLower_cases hplain
    · rw [lowerChar, if_pos hplain, hkeep]
      exact List.mem_singleton_self _
    · rw [hupper] at hupper'
      contradiction

theorem lowerChar_caseless {mark : Char} (hmark : isCaseless mark) : lowerChar mark = [mark] :=
  lowerChar_of_mem_lowerChar ((caseless_mem_lowerChar hmark).mpr rfl)

theorem caseless_mem_lowerPoint {point mark : CodePoint} (hmark : mark.is isCaseless) :
    mark ∈ lowerPoint point ↔ point = mark := by
  cases point with
  | surrogate offset => simp [lowerPoint, eq_comm]
  | char c =>
    cases mark with
    | surrogate offset => simp [CodePoint.is] at hmark
    | char m =>
      simp only [lowerPoint, ofChars, List.mem_map, CodePoint.char.injEq, exists_eq_right]
      exact caseless_mem_lowerChar hmark

/-- A name has the same caseless characters as the identifier made from it. -/
theorem caseless_mem_camelCase {mark : CodePoint} (hmark : mark.is isCaseless) (name : Text) :
    mark ∈ camelCase name ↔ mark ∈ name := by
  cases name with
  | nil => rfl
  | cons first rest =>
    rw [camelCase, List.mem_append, caseless_mem_lowerPoint hmark, List.mem_cons, eq_comm]

/-- Putting the first character in lower case twice is the same as doing it once, also where one
character becomes two. -/
theorem camelCase_camelCase (name : Text) : camelCase (camelCase name) = camelCase name := by
  cases name with
  | nil => rfl
  | cons first rest =>
    cases first with
    | surrogate offset => rfl
    | char c =>
      -- Of the images only the first is lowered again, and it is settled.
      cases hlower : lowerChar c with
      | nil => exact absurd hlower (lowerChar_ne_nil c)
      | cons d ds =>
        have hd : lowerChar d = [d] := lowerChar_of_mem_lowerChar (c := c) (by simp [hlower])
        simp [camelCase, lowerPoint, ofChars, hlower, hd]

/-- Weights that only caseless characters have. -/
theorem totalWeight_lowerPoint (weight : CodePoint → Nat)
    (hweight : ∀ point, ¬ point.is isCaseless → weight point = 0) (point : CodePoint) :
    totalWeight weight (lowerPoint point) = weight point := by
  by_cases hpoint : point.is isCaseless
  · cases point with
    | surrogate offset => rfl
    | char c => simp [lowerPoint, ofChars, lowerChar_caseless hpoint]
  · -- A caseless image would be the point itself, so no image has a weight.
    rw [hweight point hpoint]
    apply totalWeight_eq_zero
    intro image himage
    apply hweight
    intro hcaseless
    obtain rfl := (caseless_mem_lowerPoint hcaseless).mp himage
    exact hpoint hcaseless

/-- The total weight of a name is that of the identifier made from it, when only caseless characters
have a weight. -/
theorem totalWeight_camelCase (weight : CodePoint → Nat)
    (hweight : ∀ point, ¬ point.is isCaseless → weight point = 0) (name : Text) :
    totalWeight weight (camelCase name) = totalWeight weight name := by
  cases name with
  | nil => rfl
  | cons first rest =>
    rw [camelCase, totalWeight_append, totalWeight_lowerPoint weight hweight, totalWeight_cons]

end OpenApiClient.Client
