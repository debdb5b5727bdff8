import Mathlib.Tactic.IntervalCases
import OpenApiClient.Proofs.LineEnds
import OpenApiClient.Proofs.Utf8
import OpenApiClient.Text.Portion

/-!
# Files in Blocks

A file is decoded block by block, and the end of a block may cut a character or a line end. What is cut
off is kept and completed by the next block, so a file that is made of characters is decoded to these
characters, wherever its blocks end.

## Layers

- **One block**: some bytes of a character are kept (`decodeFrom_of_cutOff`); a block ends inside the
  characters that are still to come (`decodeFrom_of_append_eq`).
- **Line ends**: a carriage return at the end of a block is held back (`splitReturn_spec`).
- **All blocks**: `decodeFile_flatMap`.
-/

namespace OpenApiClient.Text

namespace Utf8

/-! ## One block -/

variable {c : Char} {cs : List Char} {front rest : List UInt8} {position : Nat} {done : List Char}

theorem decodeFrom_of_cutOff (hc : String.utf8EncodeChar c = front ++ rest) (hrest : rest ≠ []) :
    decodeFrom position done front = ⟨done.reverse, none, front, position⟩ := by
  have hlength : front.length < (String.utf8EncodeChar c).length := by
    rw [hc, List.length_append]
    exact Nat.lt_add_of_pos_right (List.length_pos_iff.mpr hrest)
  have hfront : front = (String.utf8EncodeChar c).take front.length := by simp [hc]
  generalize front.length = n at hfront hlength
  rw [hfront]
  clear hfront hc
  obtain ⟨lead, hc⟩ | ⟨lead, second, hc⟩ | ⟨lead, second, third, hc⟩ |
    ⟨lead, second, third, fourth, hc⟩ := utf8EncodeChar_cases c
  · rw [hc] at hlength ⊢
    obtain rfl : n = 0 := by simpa using hlength
    simp [decodeFrom]
  · obtain ⟨hwidth, -, -⟩ := utf8EncodeChar_eq_two_iff.mp hc
    rw [hc] at hlength ⊢
    change n < 2 at hlength
    interval_cases n <;> simp [decodeFrom, hwidth]
  · obtain ⟨hwidth, hsecond, -, -⟩ := utf8EncodeChar_eq_three_iff.mp hc
    rw [hc] at hlength ⊢
    change n < 3 at hlength
    interval_cases n <;> simp [decodeFrom, hwidth, isStart, hsecond]
  · obtain ⟨hwidth, hsecond, hthird, -, -⟩ := utf8EncodeChar_eq_four_iff.mp hc
    rw [hc] at hlength ⊢
    change n < 4 at hlength
    interval_cases n <;> simp [decodeFrom, hwidth, hsecond, hthird]

theorem append_eq_flatMap_cons (h : front ++ rest = (c :: cs).flatMap String.utf8EncodeChar) :
    (∃ more, front = String.utf8EncodeChar c ++ more ∧
      more ++ rest = cs.flatMap String.utf8EncodeChar) ∨
    ∃ tail, String.utf8EncodeChar c = front ++ tail ∧ tail ≠ [] := by
  rw [List.flatMap_cons, List.append_eq_append_iff] at h
  obtain ⟨tail, hc, hrest⟩ | ⟨more, hfront, hmore⟩ := h
  · cases tail with
    | nil => exact .inl ⟨[], by simpa using hc.symm, by simpa using hrest⟩
    | cons b tail => exact .inr ⟨b :: tail, hc, List.cons_ne_nil b tail⟩
  · exact .inl ⟨more, hfront, hmore.symm⟩

/-- Whether bytes are the front of a character, without its end, or no bytes at all. -/
def IsCutOff (bytes : List UInt8) : Prop :=
  bytes = [] ∨ ∃ c rest, String.utf8EncodeChar c = bytes ++ rest ∧ rest ≠ []

/-- The front of one character is not made of other ones. -/
theorem IsCutOff.eq_nil_of_eq_flatMap (h : IsCutOff front)
    (hfront : front = cs.flatMap String.utf8EncodeChar) : cs = [] := by
  obtain ⟨after, hdecoded⟩ := decodeFrom_flatMap 0 [] cs
  rw [← hfront] at hdecoded
  obtain rfl | ⟨c, rest, hc, hrest⟩ := h
  · simpa [decodeFrom] using congrArg Decoded.chars hdecoded
  · rw [decodeFrom_of_cutOff hc hrest] at hdecoded
    simpa using congrArg Decoded.chars hdecoded

/-- The front of the bytes of characters has no fault; what it cuts off belongs to the characters that
are still to come. -/
theorem decodeFrom_of_append_eq (h : front ++ rest = cs.flatMap String.utf8EncodeChar)
    (position : Nat) (done : List Char) :
    ∃ (made left : List Char) (cutOff : List UInt8) (after : Nat),
      decodeFrom position done front = ⟨done.reverse ++ made, none, cutOff, after⟩ ∧
        IsCutOff cutOff ∧ made ++ left = cs ∧ cutOff ++ rest = left.flatMap String.utf8EncodeChar := by
  induction cs generalizing position done front with
  | nil =>
    obtain ⟨rfl, rfl⟩ := List.append_eq_nil_iff.mp h
    exact ⟨[], [], [], position, by simp [decodeFrom], .inl rfl, rfl, rfl⟩
  | cons c cs ih =>
    obtain ⟨more, rfl, hmore⟩ | ⟨tail, hc, htail⟩ := append_eq_flatMap_cons h
    · rw [decodeFrom_utf8EncodeChar_append]
      obtain ⟨made, left, cutOff, after, hdecoded, hcutOff, hall, hleft⟩ := ih hmore _ (c :: done)
      exact ⟨c :: made, left, cutOff, after, by rw [hdecoded]; simp, hcutOff, by simp [hall], hleft⟩
    · exact ⟨[], c :: cs, front, position, by simp [decodeFrom_of_cutOff hc htail],
        .inr ⟨c, tail, hc, htail⟩, rfl, h⟩

end Utf8

/-! ## Line ends -/

/-- What is held back begins the text that is still to come. -/
theorem splitReturn_spec (cs left : List Char) :
    (splitReturn cs).1 ++ (splitReturn cs).2 = cs ∧
      ((splitReturn cs).1.getLast? = some '\r' → ((splitReturn cs).2 ++ left).head? ≠ some '\n') := by
  unfold splitReturn
  split
  case isTrue hlast =>
    refine ⟨List.dropLast_append_getLast? '\r' (by simpa using hlast), ?_⟩
    simp
  case isFalse hlast =>
    refine ⟨List.append_nil cs, fun h => ?_⟩
    simp [h] at hlast

/-! ## All blocks -/

/-- The number of rounds that bytes take at most. -/
def roundsFor (bytes : List UInt8) : Nat :=
  if bytes.isEmpty then 1 else bytes.length / leastBlockSize + 2

/-- A block has the least size, or it is the last one. -/
theorem roundsFor_drop {bytes : List UInt8} {rounds wanted : Nat} (hne : ¬ bytes.isEmpty = true)
    (hwanted : leastBlockSize ≤ wanted) (h : roundsFor bytes ≤ rounds + 1) :
    roundsFor (bytes.drop (bytes.take wanted).length) ≤ rounds := by
  rw [roundsFor, if_neg hne] at h
  unfold roundsFor leastBlockSize at *
  simp only [List.length_take, List.isEmpty_iff, List.drop_eq_nil_iff, List.length_drop]
  split <;> omega

theorem decodeBlocks_of_append_eq {state : DecodingState} {rounds : Nat} {bytes : List UInt8}
    {cs : List Char} (hrounds : roundsFor bytes ≤ rounds) (hcutOff : Utf8.IsCutOff state.cutOff)
    (h : state.cutOff ++ bytes = cs.flatMap String.utf8EncodeChar) :
    decodeBlocks state rounds bytes = (unifyLineEnds (state.held ++ cs), none) := by
  -- What was cut off and what is left of the file are the bytes of characters in every round.
  induction rounds generalizing state bytes cs with
  | zero =>
    unfold roundsFor at hrounds
    split at hrounds <;> exact absurd hrounds (Nat.not_succ_le_zero _)
  | succ rounds ih =>
    unfold decodeBlocks
    split
    case isTrue hempty =>
      rw [List.isEmpty_iff.mp hempty, List.append_nil] at h
      obtain rfl := hcutOff.eq_nil_of_eq_flatMap h
      simp [h, Utf8.decodeFrom, Utf8.cutOffFault]
    case isFalse hne =>
      have hblock : bytes.take state.wanted ++ bytes.drop (bytes.take state.wanted).length = bytes :=
        List.prefix_iff_eq_append.mp (List.take_prefix _ _)
      have hleast : leastBlockSize ≤ state.wanted := Nat.le_max_left _ _
      rw [← hblock, ← List.append_assoc] at h
      obtain ⟨made, left, cutOff, after, hdecoded, hnext, hall, hleft⟩ :=
        Utf8.decodeFrom_of_append_eq h 0 []
      obtain ⟨hsplit, hcut⟩ := splitReturn_spec (state.held ++ made) left
      dsimp only
      rw [hdecoded]
      dsimp only
      rw [List.reverse_nil, List.nil_append]
      rw [ih (roundsFor_drop hne hleast hrounds) hnext hleft, ← unifyLineEnds_append hcut,
        ← List.append_assoc, hsplit, List.append_assoc, hall]

/-- **A file that is made of characters is decoded to them.** Only its line ends are unified. -/
theorem decodeFile_flatMap (cs : List Char) :
    decodeFile (cs.flatMap String.utf8EncodeChar) = (unifyLineEnds cs, none) := by
  apply decodeBlocks_of_append_eq _ (.inl rfl) rfl
  unfold roundsFor
  split
  · exact Nat.succ_le_succ (Nat.zero_le _)
  · exact Nat.le_refl _

end OpenApiClient.Text
