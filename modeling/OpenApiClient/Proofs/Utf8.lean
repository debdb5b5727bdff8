import Mathlib.Data.List.Basic
import Mathlib.Data.List.TakeWhile
import Mathlib.Tactic.SplitIfs
import OpenApiClient.Proofs.LowerCase
import OpenApiClient.Text.Utf8

/-!
# Decoding and Encoding Are Inverse

The decoder accepts exactly the bytes that characters encode to, and gives these characters back. So
it refuses overlong forms, surrogates, code points beyond the last plane and truncated characters. A
text has bytes unless a surrogate stands in it.

## Layers

- **Bytes**: the tests of the decoder as ranges of numbers.
- **One character**: which one, two, three or four bytes encode a character
  (`utf8EncodeChar_eq_one_iff` to `utf8EncodeChar_eq_four_iff`).
- **Runs**: the decoder goes on from the bytes of a character (`decodeFrom_utf8EncodeChar_append`), and
  what it accepts is made of such bytes (`eq_flatMap_of_decodeFrom`).
- **Main statements**: `decode_eq_ok_iff`, `isOk_encode_iff`.
-/

namespace OpenApiClient.Text.Utf8

/-! ## Bytes -/

variable {lead second third fourth : UInt8}

theorem isTail_iff {b : UInt8} : isTail b = true ↔ 0x80 ≤ b.toNat ∧ b.toNat ≤ 0xBF := by
  simp [isTail, UInt8.le_iff_toNat_le]

/-- After some first bytes the second one has a narrower range. -/
theorem isSecond_iff :
    isSecond lead second = true ↔
      (0x80 ≤ second.toNat ∧ second.toNat ≤ 0xBF) ∧
        (lead.toNat = 0xE0 → 0xA0 ≤ second.toNat) ∧ (lead.toNat = 0xED → second.toNat ≤ 0x9F) ∧
        (lead.toNat = 0xF0 → 0x90 ≤ second.toNat) ∧ (lead.toNat = 0xF4 → second.toNat ≤ 0x8F) := by
  simp only [isSecond, Bool.and_eq_true, isTail_iff, beq_iff_eq, ← UInt8.toNat_inj]
  refine and_congr_right fun _ => ?_
  split_ifs <;> simp_all [UInt8.le_iff_toNat_le]

theorem width_eq (lead : UInt8) :
    width lead =
      if lead.toNat < 0x80 then 1
      else if lead.toNat < 0xC2 then 0
      else if lead.toNat < 0xE0 then 2
      else if lead.toNat < 0xF0 then 3
      else if lead.toNat < 0xF5 then 4
      else 0 := by
  simp [width, UInt8.lt_iff_toNat_lt]

theorem width_eq_one_iff : width lead = 1 ↔ lead.toNat < 0x80 := by
  rw [width_eq]
  split_ifs <;> simp <;> omega

theorem width_eq_two_iff : width lead = 2 ↔ 0xC2 ≤ lead.toNat ∧ lead.toNat < 0xE0 := by
  rw [width_eq]
  split_ifs <;> simp <;> omega

theorem width_eq_three_iff : width lead = 3 ↔ 0xE0 ≤ lead.toNat ∧ lead.toNat < 0xF0 := by
  rw [width_eq]
  split_ifs <;> simp <;> omega

theorem width_eq_four_iff : width lead = 4 ↔ 0xF0 ≤ lead.toNat ∧ lead.toNat < 0xF5 := by
  rw [width_eq]
  split_ifs <;> simp <;> omega

/-! ## One character -/

variable {c : Char}

theorem ofNat_eq_iff {code : Nat} (h : code.isValidChar) : Char.ofNat code = c ↔ code = c.toNat := by
  constructor
  · rintro rfl
    exact (toNat_ofNat_of_valid h).symm
  · rintro rfl
    exact Char.ofNat_toNat c

/-- The bytes of a character as numbers. -/
theorem map_toNat_utf8EncodeChar (c : Char) :
    (String.utf8EncodeChar c).map UInt8.toNat =
      if c.toNat ≤ 0x7F then [c.toNat]
      else if c.toNat ≤ 0x7FF then [c.toNat / 0x40 % 0x20 + 0xC0, c.toNat % 0x40 + 0x80]
      else if c.toNat ≤ 0xFFFF then
        [c.toNat / 0x1000 % 0x10 + 0xE0, c.toNat / 0x40 % 0x40 + 0x80, c.toNat % 0x40 + 0x80]
      else
        [c.toNat / 0x40000 % 8 + 0xF0, c.toNat / 0x1000 % 0x40 + 0x80,
          c.toNat / 0x40 % 0x40 + 0x80, c.toNat % 0x40 + 0x80] := by
  have hval : c.val.toNat = c.toNat := rfl
  simp only [String.utf8EncodeChar, hval, apply_ite (List.map UInt8.toNat), List.map,
    UInt8.toNat_ofNat']
  split_ifs <;> simp only [List.cons.injEq, and_true] <;> omega

theorem utf8EncodeChar_eq_iff {bytes : List UInt8} :
    String.utf8EncodeChar c = bytes ↔
      (String.utf8EncodeChar c).map UInt8.toNat = bytes.map UInt8.toNat :=
  ((List.map_injective_iff.mpr fun _ _ => UInt8.toNat_inj.mp).eq_iff).symm

theorem utf8EncodeChar_eq_one_iff :
    String.utf8EncodeChar c = [lead] ↔ width lead = 1 ∧ Char.ofNat lead.toNat = c := by
  rw [utf8EncodeChar_eq_iff, map_toNat_utf8EncodeChar, width_eq_one_iff]
  constructor
  · intro h
    split_ifs at h <;> simp only [List.map, List.cons.injEq, reduceCtorEq, and_true, and_false] at h
    exact ⟨by omega, (ofNat_eq_iff (.inl (by omega))).mpr h.symm⟩
  · rintro ⟨hlead, hcode⟩
    rw [ofNat_eq_iff (.inl (by omega))] at hcode
    rw [if_pos (by omega), ← hcode]
    rfl

theorem utf8EncodeChar_eq_two_iff :
    String.utf8EncodeChar c = [lead, second] ↔
      width lead = 2 ∧ isTail second = true ∧
        Char.ofNat (lead.toNat % 0x20 * 0x40 + tailBits second) = c := by
  rw [utf8EncodeChar_eq_iff, map_toNat_utf8EncodeChar, width_eq_two_iff, isTail_iff, tailBits]
  constructor
  · intro h
    split_ifs at h <;> simp only [List.map, List.cons.injEq, reduceCtorEq, and_true, and_false] at h
    exact ⟨by omega, by omega, (ofNat_eq_iff (.inl (by omega))).mpr (by omega)⟩
  · rintro ⟨hlead, hsecond, hcode⟩
    rw [ofNat_eq_iff (.inl (by omega))] at hcode
    rw [if_neg (by omega), if_pos (by omega)]
    simp only [List.map, List.cons.injEq, and_true]
    omega

theorem utf8EncodeChar_eq_three_iff :
    String.utf8EncodeChar c = [lead, second, third] ↔
      width lead = 3 ∧ isSecond lead second = true ∧ isTail third = true ∧
        Char.ofNat ((lead.toNat % 0x10 * 0x40 + tailBits second) * 0x40 + tailBits third) = c := by
  have hc : c.toNat < 0xD800 ∨ 0xDFFF < c.toNat ∧ c.toNat < 0x110000 := c.valid
  rw [utf8EncodeChar_eq_iff, map_toNat_utf8EncodeChar, width_eq_three_iff, isSecond_iff, isTail_iff,
    tailBits, tailBits]
  constructor
  · intro h
    split_ifs at h <;> simp only [List.map, List.cons.injEq, reduceCtorEq, and_true, and_false] at h
    have hcode : (lead.toNat % 0x10 * 0x40 + second.toNat % 0x40) * 0x40 + third.toNat % 0x40 =
        c.toNat := by omega
    exact ⟨by omega, by omega, by omega, hcode ▸ Char.ofNat_toNat c⟩
  · rintro ⟨hlead, hsecond, hthird, hcode⟩
    rw [ofNat_eq_iff (by unfold Nat.isValidChar; omega)] at hcode
    rw [if_neg (by omega), if_neg (by omega), if_pos (by omega)]
    simp only [List.map, List.cons.injEq, and_true]
    omega

theorem utf8EncodeChar_eq_four_iff :
    String.utf8EncodeChar c = [lead, second, third, fourth] ↔
      width lead = 4 ∧ isSecond lead second = true ∧ isTail third = true ∧ isTail fourth = true ∧
        Char.ofNat (((lead.toNat % 8 * 0x40 + tailBits second) * 0x40 + tailBits third) * 0x40 +
          tailBits fourth) = c := by
  have hc : c.toNat < 0xD800 ∨ 0xDFFF < c.toNat ∧ c.toNat < 0x110000 := c.valid
  rw [utf8EncodeChar_eq_iff, map_toNat_utf8EncodeChar, width_eq_four_iff, isSecond_iff, isTail_iff,
    isTail_iff, tailBits, tailBits, tailBits]
  constructor
  · intro h
    split_ifs at h <;> simp only [List.map, List.cons.injEq, reduceCtorEq, and_true, and_false] at h
    have hcode : ((lead.toNat % 8 * 0x40 + second.toNat % 0x40) * 0x40 + third.toNat % 0x40) * 0x40 +
        fourth.toNat % 0x40 = c.toNat := by omega
    exact ⟨by omega, by omega, by omega, by omega, hcode ▸ Char.ofNat_toNat c⟩
  · rintro ⟨hlead, hsecond, hthird, hfourth, hcode⟩
    rw [ofNat_eq_iff (by unfold Nat.isValidChar; omega)] at hcode
    rw [if_neg (by omega), if_neg (by omega), if_neg (by omega)]
    simp only [List.map, List.cons.injEq, and_true]
    omega

/-! ## Runs -/

variable {position : Nat} {done : List Char} {rest : List UInt8}

/-- One, two, three or four bytes make a character. -/
theorem utf8EncodeChar_cases (c : Char) :
    (∃ a, String.utf8EncodeChar c = [a]) ∨ (∃ a b, String.utf8EncodeChar c = [a, b]) ∨
      (∃ a b d, String.utf8EncodeChar c = [a, b, d]) ∨
      ∃ a b d e, String.utf8EncodeChar c = [a, b, d, e] := by
  unfold String.utf8EncodeChar
  dsimp only
  split_ifs <;> simp

/-- The bytes of a character at the front are decoded to it. -/
theorem decodeFrom_utf8EncodeChar_append (c : Char) :
    decodeFrom position done (String.utf8EncodeChar c ++ rest) =
      decodeFrom (position + (String.utf8EncodeChar c).length) (c :: done) rest := by
  obtain ⟨a, hc⟩ | ⟨a, b, hc⟩ | ⟨a, b, d, hc⟩ | ⟨a, b, d, e, hc⟩ := utf8EncodeChar_cases c
  · obtain ⟨hwidth, hcode⟩ := utf8EncodeChar_eq_one_iff.mp hc
    rw [hc, List.singleton_append, decodeFrom.eq_def]
    simp [hwidth, hcode]
  · obtain ⟨hwidth, hsecond, hcode⟩ := utf8EncodeChar_eq_two_iff.mp hc
    simp [hc, decodeFrom, hwidth, hsecond, hcode]
  · obtain ⟨hwidth, hsecond, hthird, hcode⟩ := utf8EncodeChar_eq_three_iff.mp hc
    simp [hc, decodeFrom, hwidth, hsecond, hthird, hcode]
  · obtain ⟨hwidth, hsecond, hthird, hfourth, hcode⟩ := utf8EncodeChar_eq_four_iff.mp hc
    simp [hc, decodeFrom, hwidth, hsecond, hthird, hfourth, hcode]

theorem decodeFrom_flatMap (position : Nat) (done cs : List Char) :
    ∃ after, decodeFrom position done (cs.flatMap String.utf8EncodeChar) =
      ⟨done.reverse ++ cs, none, [], after⟩ := by
  induction cs generalizing position done with
  | nil => exact ⟨position, by simp [decodeFrom]⟩
  | cons c cs ih =>
    rw [List.flatMap_cons, decodeFrom_utf8EncodeChar_append]
    simpa using ih _ (c :: done)

theorem exists_flatMap_of_cons {front : List UInt8} {chars : List Char}
    (hc : String.utf8EncodeChar c = front)
    (h : ∃ cs, chars = (c :: done).reverse ++ cs ∧ rest = cs.flatMap String.utf8EncodeChar) :
    ∃ cs, chars = done.reverse ++ cs ∧ front ++ rest = cs.flatMap String.utf8EncodeChar := by
  obtain ⟨cs, hchars, hrest⟩ := h
  exact ⟨c :: cs, by simp [hchars], by rw [List.flatMap_cons, hc, hrest]⟩

/-- What is decoded without a fault, up to the last byte, is made of the bytes of characters. -/
theorem eq_flatMap_of_decodeFrom {bytes : List UInt8}
    (hfault : (decodeFrom position done bytes).fault = none)
    (hcutOff : (decodeFrom position done bytes).cutOff = []) :
    ∃ cs, (decodeFrom position done bytes).chars = done.reverse ++ cs ∧
      bytes = cs.flatMap String.utf8EncodeChar := by
  -- The decoder goes on in four cases, one for each number of bytes; it stops in all others.
  fun_induction decodeFrom position done bytes
  case case1 => exact ⟨[], by simp⟩
  case case2 lead rest hwidth ih =>
    exact exists_flatMap_of_cons (utf8EncodeChar_eq_one_iff.mpr ⟨hwidth, rfl⟩) (ih hfault hcutOff)
  case case4 lead hwidth second rest hsecond code ih =>
    exact exists_flatMap_of_cons (utf8EncodeChar_eq_two_iff.mpr ⟨hwidth, hsecond, rfl⟩)
      (ih hfault hcutOff)
  case case11 lead hwidth second third rest hsecond hthird code ih =>
    rw [Bool.not_eq_true', Bool.not_eq_false] at hsecond hthird
    exact exists_flatMap_of_cons (utf8EncodeChar_eq_three_iff.mpr ⟨hwidth, hsecond, hthird, rfl⟩)
      (ih hfault hcutOff)
  case case21 lead hwidth second third fourth rest hsecond hthird hfourth code ih =>
    rw [Bool.not_eq_true', Bool.not_eq_false] at hsecond hthird hfourth
    exact exists_flatMap_of_cons
      (utf8EncodeChar_eq_four_iff.mpr ⟨hwidth, hsecond, hthird, hfourth, rfl⟩) (ih hfault hcutOff)
  all_goals
    first
    | exact absurd hcutOff (List.cons_ne_nil _ _)
    | exact absurd hfault (Option.some_ne_none _)

/-! ## Main statements -/

/-- **The decoder accepts exactly the bytes of characters**, and gives them back. -/
theorem decode_eq_ok_iff {bytes : List UInt8} {cs : List Char} :
    decode bytes = .ok cs ↔ bytes = cs.flatMap String.utf8EncodeChar := by
  constructor
  · intro h
    unfold decode at h
    dsimp only at h
    split at h
    case h_1 => contradiction
    case h_2 hfault =>
      split at h
      case h_1 => contradiction
      case h_2 hend =>
        have hcutOff : (decodeFrom 0 [] bytes).cutOff = [] := by
          unfold cutOffFault at hend
          split at hend
          case h_1 hnil => exact hnil
          case h_2 => split at hend <;> contradiction
        obtain ⟨made, hmade, hbytes⟩ := eq_flatMap_of_decodeFrom hfault hcutOff
        rw [hmade, List.reverse_nil, List.nil_append] at h
        rwa [← Except.ok.inj h]
  · rintro rfl
    obtain ⟨after, hdecoded⟩ := decodeFrom_flatMap 0 [] cs
    simp [decode, hdecoded, cutOffFault]

theorem firstSurrogates?_eq_none_iff {text : Text} :
    firstSurrogates? text = none ↔ ∀ point ∈ text, point.isSurrogate = false := by
  have hsplit : text.takeWhile (!·.isSurrogate) ++ text.dropWhile (!·.isSurrogate) = text :=
    List.takeWhile_append_dropWhile
  have hdrop : text.drop (text.takeWhile (!·.isSurrogate)).length =
      text.dropWhile (!·.isSurrogate) := by
    conv_lhs =>
      arg 2
      rw [← hsplit]
    exact List.drop_left
  calc firstSurrogates? text = none
    _ ↔ text.dropWhile (!·.isSurrogate) = [] := by
      rw [← hdrop]
      unfold firstSurrogates?
      dsimp only
      split
      case h_1 hnil => simp only [hnil]
      case h_2 hcons => simp only [hcons, reduceCtorEq]
    _ ↔ ∀ point ∈ text, point.isSurrogate = false := by simp [List.dropWhile_eq_nil_iff]

/-- **A text has bytes unless a surrogate stands in it.** -/
theorem isOk_encode_iff {text : Text} :
    (encode text).isOk = true ↔ ∀ point ∈ text, point.isSurrogate = false := by
  rw [← firstSurrogates?_eq_none_iff]
  unfold encode
  split
  case h_1 fault hfault => simp [hfault, Except.isOk, Except.toBool]
  case h_2 hnone => simp [hnone, Except.isOk, Except.toBool]

end OpenApiClient.Text.Utf8
