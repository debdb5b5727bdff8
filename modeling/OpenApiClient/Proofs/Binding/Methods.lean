import OpenApiClient.Proofs.Binding.Canonical
import OpenApiClient.Proofs.Binding.Keys
import OpenApiClient.Proofs.LowerCase
import OpenApiClient.Text.UpperCase

/-!
# HTTP Methods

The methods of a path keep the spelling of their keys, but a specification that was read has known
methods only. In upper case these are eight words, whatever the spelling.
-/

namespace OpenApiClient.Text

/-! ## Upper case after lower case -/

theorem toUpper_toLower {c : Char} (hplain : c.toNat < 0x80) :
    c.toLower.toUpper = c.toUpper := by
  revert hplain
  apply forall_plain
  decide

/-- A plain character other than `k`, which is the lower-case form of the kelvin sign, too. -/
def isPlainLower (c : Char) : Bool :=
  c.toNat < 0x80 && c != 'k'

theorem upper_lowerChar {c : Char} (h : ∀ d ∈ lowerChar c, isPlainLower d) :
    (lowerChar c).flatMap upperChar = upperChar c := by
  have hdotted : c.toNat ≠ 0x130 := by
    intro hdotted
    have hdot : isPlainLower '\u0307' := h _ (by simp [lowerChar_dotted hdotted])
    exact absurd hdot (by decide)
  -- The form is one plain character, so the character itself is plain.
  obtain ⟨d, hd⟩ := exists_lowerChar_eq_singleton hdotted
  have hmem : d ∈ lowerChar c := by simp [hd]
  have hplain := h d hmem
  simp only [isPlainLower, Bool.and_eq_true, decide_eq_true_eq, bne_iff_ne] at hplain
  have hc := toNat_lt_of_mem_lowerChar hmem hplain.1 hplain.2 hdotted
  rw [lowerChar, if_pos hc, List.flatMap_singleton, upperChar, if_pos (toLower_cases hc).2.1,
    toUpper_toLower hc, upperChar, if_pos hc]

/-- A text whose lower-case form is plain has the upper-case form of that one. -/
theorem upper_lowerAfter {before text : Text}
    (h : ∀ point ∈ lowerAfter before text, point.is isPlainLower) :
    upper (lowerAfter before text) = upper text := by
  induction text generalizing before with
  | nil => rfl
  | cons point rest ih =>
    rw [lowerAfter, List.forall_mem_append] at h
    obtain ⟨hpoint, hrest⟩ := h
    have hpoints : upper (if point == capitalSigma then [lowerSigma before rest]
        else lowerPoint point) = upperPoint point := by
      split at hpoint
      case isTrue =>
        -- Neither form of a sigma is plain.
        have hsigma := hpoint _ List.mem_cons_self
        unfold lowerSigma at hsigma
        split at hsigma <;> exact absurd hsigma (by decide)
      case isFalse hne =>
        rw [if_neg hne]
        cases point with
        | surrogate offset => exact absurd (hpoint _ List.mem_cons_self) Bool.false_ne_true
        | char c =>
          have hchars : ∀ d ∈ lowerChar c, isPlainLower d :=
            fun d hd => hpoint (.char d) (List.mem_map_of_mem hd)
          rw [upperPoint, ← upper_lowerChar hchars, upper, lowerPoint]
          simp only [ofChars, List.flatMap_map, List.map_flatMap, upperPoint]
    rw [lowerAfter, upper, List.flatMap_append, ← upper, ← upper, hpoints,
      ih hrest]
    rfl

end OpenApiClient.Text

namespace OpenApiClient

/-! ## Known methods -/

/-- Whether all methods of a path are known, in some letter case. -/
def HasKnownMethods (operations : List (Text × Operation)) : Prop :=
  ∀ entry ∈ operations, Text.lower entry.1 ∈ httpMethods

/-- The spelling of a known method does not show in upper case. -/
theorem upper_lower_of_lower_mem {method : Text} (h : Text.lower method ∈ httpMethods) :
    Text.upper (Text.lower method) = Text.upper method := by
  have hplain : ∀ known ∈ httpMethods, ∀ point ∈ known, point.is Text.isPlainLower := by decide
  exact Text.upper_lowerAfter (hplain _ h)

/-- In upper case a known method is one of the known methods in upper case. -/
theorem upper_mem_of_lower_mem {method : Text} (h : Text.lower method ∈ httpMethods) :
    Text.upper method ∈ httpMethods.map Text.upper := by
  rw [← upper_lower_of_lower_mem h]
  exact List.mem_map_of_mem h

namespace Binding

open OpenApiClient.Document

theorem methodKey?_eq_some_iff {key : Value} {method : Text} :
    methodKey? key = some method ↔ key = .text method ∧ Text.lower method ∈ httpMethods := by
  cases key with
  | text key =>
    simp only [methodKey?, Option.ite_none_right_eq_some, Option.some.injEq, List.contains_iff_mem,
      Value.text.injEq]
    constructor
    · rintro ⟨hknown, rfl⟩
      exact ⟨rfl, hknown⟩
    · rintro ⟨rfl, hknown⟩
      exact ⟨hknown, rfl⟩
  | _ => simp [methodKey?]

/-- No method has the name of the parameter lists. -/
theorem not_spells_of_methodKey? {key : Value} {method : Text} (h : methodKey? key = some method) :
    ¬ Spells "parameters" key := by
  cases key with
  | text key =>
    intro hspells
    have hlower : Text.lower key = Text.lower "parameters" := hspells
    have hmethod : httpMethods.contains (Text.lower "parameters") = false := by decide
    rw [methodKey?, hlower, hmethod] at h
    exact absurd h (by simp)
  | _ => exact not_false

/-- Every operation of a path comes from an entry whose key names its method, and has the parameters that
the path shares merged in. -/
theorem exists_own_of_pathOperations {knots : Knots} {entries : List (Value × Value)}
    {operations : List (Text × Operation)} (h : pathOperations knots entries = .valid operations) :
    ∃ shared, sharedParameters knots entries = .valid shared ∧
      ∀ entry ∈ operations, ∃ raw ∈ entries, methodKey? raw.1 = some entry.1 ∧
        ∃ own, operation knots (orEmpty (.map []) raw.2) = .valid own ∧
          entry.2 = own.withShared shared := by
  obtain ⟨shared, hshared, hoperations⟩ := Checked.andThen_eq_valid_iff.mp h
  rw [Checked.upToFirst_eq_valid_iff] at hoperations
  refine ⟨shared, hshared, fun entry hentry => ?_⟩
  have hmem := List.mem_map_of_mem (f := Checked.valid) hentry
  rw [← hoperations, List.mem_filterMap] at hmem
  obtain ⟨raw, hraw, hread⟩ := hmem
  obtain ⟨method, hmethod, hread⟩ := Option.map_eq_some_iff.mp hread
  obtain ⟨own, hown, rfl⟩ := Checked.map_eq_valid_iff.mp hread
  exact ⟨raw, hraw, hmethod, own, hown, rfl⟩

/-- The methods of a path are those that its keys name, in the same order and spelling. -/
theorem map_fst_of_pathOperations {knots : Knots} {entries : List (Value × Value)}
    {operations : List (Text × Operation)} (h : pathOperations knots entries = .valid operations) :
    operations.map (·.1) = entries.filterMap (methodKey? ·.1) := by
  obtain ⟨shared, -, hread⟩ := Checked.andThen_eq_valid_iff.mp h
  rw [Checked.upToFirst_eq_valid_iff] at hread
  clear h
  induction entries generalizing operations with
  | nil =>
    obtain rfl := List.map_eq_nil_iff.mp hread.symm
    rfl
  | cons raw entries ih =>
    cases hmethod : methodKey? raw.1 with
    | none =>
      simp only [List.filterMap_cons, hmethod, Option.map_none] at hread ⊢
      exact ih hread
    | some method =>
      simp only [List.filterMap_cons, hmethod, Option.map_some] at hread ⊢
      cases operations with
      | nil => contradiction
      | cons first operations =>
        -- The operation was read from this entry, under the method of its key.
        obtain ⟨hfirst, hrest⟩ := List.cons.inj hread
        obtain ⟨own, -, rfl⟩ := Checked.map_eq_valid_iff.mp hfirst
        rw [List.map_cons, ih hrest]

theorem hasKnownMethods_of_pathOperations {knots : Knots} {entries : List (Value × Value)}
    {operations : List (Text × Operation)} (h : pathOperations knots entries = .valid operations) :
    HasKnownMethods operations := by
  obtain ⟨shared, -, hall⟩ := exists_own_of_pathOperations h
  intro entry hentry
  obtain ⟨raw, -, hmethod, -⟩ := hall entry hentry
  exact (methodKey?_eq_some_iff.mp hmethod).2

/-- Every path that was read comes from an item that is a mapping. -/
theorem exists_pathItem?_of_paths {knots : Knots} {value : Value}
    {result : List (Text × List (Text × Operation))} (h : paths knots value = .valid result) :
    ∃ entries, knots.content value = .map entries ∧
      ∀ item ∈ result, ∃ entry ∈ entries, pathItem? knots entry.2 = .valid (some item.2) := by
  have hmapping := paths_eq_valid_iff.mp h
  obtain ⟨entries, hentries, -⟩ := mapping_eq_valid_iff.mp hmapping
  refine ⟨entries, hentries, fun item hitem => ?_⟩
  obtain ⟨raw, hraw, -, hread⟩ := (mem_mapping_iff hmapping hentries).mp hitem
  exact ⟨raw, hraw.mem, pathItem_eq_valid_iff.mp hread⟩

theorem hasKnownMethods_of_paths {knots : Knots} {value : Value}
    {result : List (Text × List (Text × Operation))} (h : paths knots value = .valid result) :
    ∀ item ∈ result, HasKnownMethods item.2 := by
  obtain ⟨entries, -, hall⟩ := exists_pathItem?_of_paths h
  intro item hitem
  obtain ⟨entry, -, hread⟩ := hall item hitem
  obtain ⟨own, -, hoperations⟩ := pathItem?_eq_some_iff.mp hread
  exact hasKnownMethods_of_pathOperations hoperations

/-- A specification that was read has known methods only. -/
theorem hasKnownMethods_of_bindDocument {document : Document} {result : Specification}
    (h : bindDocument document = .ok result) : ∀ item ∈ result.paths, HasKnownMethods item.2 := by
  obtain ⟨entries, -, -, -, hpaths, -⟩ :=
    specification_eq_valid_iff.mp (bindDocument_eq_ok_iff.mp h)
  unfold Field.read at hpaths
  split at hpaths
  case h_1 =>
    obtain hnone := Checked.valid.inj hpaths
    intro item hitem
    rw [← hnone] at hitem
    exact absurd hitem List.not_mem_nil
  case h_2 => exact hasKnownMethods_of_paths (Checked.under_eq_valid_iff.mp hpaths)

end Binding

end OpenApiClient
