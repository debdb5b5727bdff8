import Mathlib.Data.List.TakeWhile
import OpenApiClient.Document.Json
import OpenApiClient.Proofs.Binding.Writable
import OpenApiClient.Proofs.Numerals
import OpenApiClient.Proofs.Oversize

/-!
# Numbers in JSON Texts

A JSON text is refused because of a number only if it has a run of more than `digitLimit` digits. What
is read from any other text has whole numbers that can be written out again.

## Layers

- **Digits**: a number has no more digits than its text (`plainDigitsValue_lt`).
- **Cursors**: reading goes on in what is left of the text.
- **Readers**: `Sound`, for strings, numbers and words, and by induction on the work left for values.
- **Main statements**: `isWritable_of_read`, `hasLongNumeral_of_read`.
-/

namespace OpenApiClient.Document.Json

open OpenApiClient.Text

/-! ## Digits -/

/-- A number has no more digits than its text. -/
theorem plainDigitsValue_lt {digits : List Char} (h : ∀ c ∈ digits, isPlainDigit c = true) :
    plainDigitsValue digits < Nat.pow 10 digits.length := by
  have hsame : plainDigitsValue digits = digitsValue 10 digits := by
    apply List.foldl_ext
    intro value c hc
    simp [hexDigitValue?, h c hc]
  rw [hsame]
  exact digitsValue_lt fun c hc => isDigitIn_ten.trans (h c hc)

/-! ## Cursors -/

variable {cursor after : Cursor}

theorem advance_suffix (cursor : Cursor) (count : Nat) : (cursor.advance count).rest <:+ cursor.rest :=
  List.drop_suffix count cursor.rest

theorem skipSpace_suffix (cursor : Cursor) : cursor.skipSpace.rest <:+ cursor.rest :=
  advance_suffix cursor _

/-! ## Readers -/

/-- Whether a reader does what it may: it gives a good result and leaves a rest of its text, or it
fails, and fails because of a number only if a number in the text is too long. -/
def Sound {α : Type} (good : α → Prop) (cursor : Cursor) : Reading α → Prop
  | .ok (result, after) => good result ∧ after.rest <:+ cursor.rest
  | .error (.fault _) => True
  | .error (.numeral _ _) => HasLongNumeral cursor.rest

variable {α β : Type} {good : α → Prop}

/-- An error inside a text is one of the text. -/
theorem Sound.error {goal : β → Prop} {e : ReadError}
    (h : Sound good after (.error e : Reading α)) (hafter : after.rest <:+ cursor.rest) :
    Sound goal cursor (.error e : Reading β) := by
  cases e with
  | fault => trivial
  | numeral => exact HasLongNumeral.of_part h hafter.isInfix

theorem Sound.of_suffix {reading : Reading α} (h : Sound good after reading)
    (hafter : after.rest <:+ cursor.rest) : Sound good cursor reading := by
  cases reading with
  | error e => exact h.error hafter
  | ok result => exact ⟨h.1, h.2.trans hafter⟩

theorem readUnicodeEscape_ne_numeral (cursor : Cursor) (e : NumeralError) (literal : Text) :
    readUnicodeEscape cursor ≠ .error (.numeral e literal) := by
  unfold readUnicodeEscape
  dsimp only
  split
  · simp
  · split
    · simp
    · split
      · split
        · split
          · simp
          · split <;> simp
        · simp
      · simp

theorem sound_readStringFrom (start fuel : Nat) (points : Text) (cursor : Cursor) :
    Sound (fun _ => True) cursor (readStringFrom start fuel points cursor) := by
  induction fuel generalizing points cursor with
  | zero => trivial
  | succ fuel ih =>
    unfold readStringFrom
    split
    · trivial
    · exact ⟨trivial, advance_suffix cursor 1⟩
    · trivial
    · split
      · rename_i e he
        cases e with
        | fault => trivial
        | numeral e literal => exact absurd he (readUnicodeEscape_ne_numeral _ e literal)
      · exact (ih _ _).of_suffix (advance_suffix cursor _)
    · split
      · exact (ih _ _).of_suffix (advance_suffix cursor _)
      · trivial
    · split
      · trivial
      · exact (ih _ _).of_suffix (advance_suffix cursor _)

theorem sound_readString (cursor : Cursor) : Sound Value.IsWritable cursor (readString cursor) := by
  have h := sound_readStringFrom cursor.position cursor.rest.length [] (cursor.advance 1)
  unfold readString
  split
  case h_1 points after hread =>
    rw [hread] at h
    exact ⟨.scalar rfl nofun, h.2.trans (advance_suffix cursor 1)⟩
  case h_2 e hread =>
    rw [hread] at h
    exact h.error (advance_suffix cursor 1)

theorem isWritable_int {n : Int} {length : Nat} (hlength : length ≤ digitLimit)
    (h : n.natAbs < Nat.pow 10 length) : (Value.int n).IsWritable := by
  refine .scalar rfl fun m hm => ?_
  obtain rfl := Value.int.inj hm
  rw [writeInteger?]
  generalize digitLimit = limit at hlength
  have hlimit : n.natAbs < Nat.pow 10 limit :=
    Nat.lt_of_lt_of_le h (Nat.pow_le_pow_right (by decide) hlength)
  rw [if_pos hlimit]
  rfl

theorem sound_readNumber (cursor : Cursor) : Sound Value.IsWritable cursor (readNumber cursor) := by
  unfold readNumber
  split
  rename_i negative unsigned hsign
  have hunsigned : unsigned <:+ cursor.rest := by
    split at hsign
    case h_1 rest hrest => exact (Prod.mk.inj hsign).2 ▸ hrest ▸ List.suffix_cons '-' rest
    case h_2 rest hrest => exact (Prod.mk.inj hsign).2 ▸ List.suffix_rfl
  extract_lets whole afterWhole fraction afterFraction exponent length after size parts
  have hwhole : whole <+: unsigned ∧ ∀ c ∈ whole, isPlainDigit c = true := by
    unfold whole
    split
    case h_1 rest => exact ⟨⟨rest, rfl⟩, by simp [isPlainDigit]⟩
    case h_2 rest => exact ⟨List.takeWhile_prefix _, fun c hc => List.mem_takeWhile_imp hc⟩
  have hsize : size.natAbs < Nat.pow 10 whole.length := plainDigitsValue_lt hwhole.2
  split
  · trivial
  · split
    · split
      case isTrue hlong => exact ⟨whole, hwhole.1.isInfix.trans hunsigned.isInfix, hwhole.2, hlong⟩
      case isFalse hshort =>
        refine ⟨isWritable_int (Nat.le_of_not_lt hshort) ?_, advance_suffix cursor length⟩
        split
        · rwa [Int.natAbs_neg]
        · exact hsize
    · refine ⟨.scalar rfl ?_, advance_suffix cursor length⟩
      intro n hint
      contradiction

theorem sound_readScalar (cursor : Cursor) : Sound Value.IsWritable cursor (readScalar cursor) := by
  unfold readScalar
  extract_lets words
  split
  case h_1 word value hword =>
    refine ⟨?_, advance_suffix cursor word.length⟩
    have hmem := List.mem_of_find?_eq_some hword
    simp only [words, List.mem_cons, List.not_mem_nil, or_false, Prod.mk.injEq] at hmem
    obtain ⟨-, rfl⟩ | ⟨-, rfl⟩ | ⟨-, rfl⟩ | ⟨-, rfl⟩ | ⟨-, rfl⟩ | ⟨-, rfl⟩ := hmem
    all_goals exact .scalar rfl nofun
  case h_2 => exact sound_readNumber cursor

/-! ## Values -/

theorem forall_put {κ : Type} {same : κ → κ → Bool} {P : κ → Prop} {Q : α → Prop} {key : κ}
    {value : α} (hkey : P key) (hvalue : Q value) {entries : List (κ × α)}
    (h : ∀ entry ∈ entries, P entry.1 ∧ Q entry.2) :
    ∀ entry ∈ Value.put same key value entries, P entry.1 ∧ Q entry.2 := by
  induction entries with
  | nil => simpa [Value.put] using ⟨hkey, hvalue⟩
  | cons first rest ih =>
    obtain ⟨hfirst, hrest⟩ := List.forall_mem_cons.mp h
    rw [Value.put]
    split
    · exact List.forall_mem_cons.mpr ⟨⟨hfirst.1, hvalue⟩, hrest⟩
    · exact List.forall_mem_cons.mpr ⟨hfirst, ih hrest⟩

/-- A mapping that is written has keys and values from its entries. -/
theorem forall_putAll {κ : Type} {same : κ → κ → Bool} {P : κ → Prop} {Q : α → Prop}
    {entries : List (κ × α)} (h : ∀ entry ∈ entries, P entry.1 ∧ Q entry.2) :
    ∀ entry ∈ Value.putAll same entries, P entry.1 ∧ Q entry.2 := by
  unfold Value.putAll
  refine List.foldlRecOn entries _
    (motive := fun mapping : List (κ × α) => ∀ entry ∈ mapping, P entry.1 ∧ Q entry.2) (by simp)
    fun mapping hmapping entry hentry => ?_
  exact forall_put (h entry hentry).1 (h entry hentry).2 hmapping

/-- Whether the readers of values are sound with this bound for the work left. -/
structure SoundReaders (fuel : Nat) : Prop where
  value : ∀ cursor, Sound Value.IsWritable cursor (readValue fuel cursor)
  items : ∀ cursor items, (∀ item ∈ items, item.IsWritable) →
    Sound (fun items => ∀ item ∈ items, item.IsWritable) cursor (readItems fuel items cursor)
  members : ∀ cursor entries, Binding.AreWritable entries →
    Sound Binding.AreWritable cursor (readMembers fuel entries cursor)

theorem soundReaders_zero : SoundReaders 0 :=
  ⟨fun _ => trivial, fun _ _ _ => trivial, fun _ _ _ => trivial⟩

variable {fuel : Nat}

theorem SoundReaders.value_succ (h : SoundReaders fuel) (cursor : Cursor) :
    Sound Value.IsWritable cursor (readValue (fuel + 1) cursor) := by
  have hinside : (cursor.advance 1).skipSpace.rest <:+ cursor.rest :=
    (skipSpace_suffix _).trans (advance_suffix cursor 1)
  unfold readValue
  split
  case h_1 => exact sound_readString cursor
  case h_2 =>
    extract_lets inside
    split
    case h_1 =>
      exact ⟨.list fun _ hnil => (nomatch hnil), (advance_suffix inside 1).trans hinside⟩
    case h_2 =>
      have hitems := h.items inside [] fun _ hnil => nomatch hnil
      split
      case h_1 items after hread =>
        rw [hread] at hitems
        exact ⟨.list hitems.1, hitems.2.trans hinside⟩
      case h_2 e hread =>
        rw [hread] at hitems
        exact hitems.error hinside
  case h_3 =>
    extract_lets inside
    split
    case h_1 =>
      exact ⟨.map (fun _ hnil => nomatch hnil) fun _ hnil => (nomatch hnil),
        (advance_suffix inside 1).trans hinside⟩
    case h_2 =>
      have hmembers := h.members inside [] fun _ hnil => nomatch hnil
      split
      case h_1 entries after hread =>
        rw [hread] at hmembers
        have hput : ∀ entry ∈ Value.putAll Value.sameKey entries,
            entry.1.IsWritable ∧ entry.2.IsWritable := forall_putAll hmembers.1
        exact ⟨.map (fun entry hentry => (hput entry hentry).1)
          fun entry hentry => (hput entry hentry).2, hmembers.2.trans hinside⟩
      case h_2 e hread =>
        rw [hread] at hmembers
        exact hmembers.error hinside
  case h_4 => exact sound_readScalar cursor

theorem SoundReaders.items_succ (h : SoundReaders fuel) (cursor : Cursor) {items : List Value}
    (hitems : ∀ item ∈ items, item.IsWritable) :
    Sound (fun items => ∀ item ∈ items, item.IsWritable) cursor
      (readItems (fuel + 1) items cursor) := by
  have hvalue := h.value cursor
  unfold readItems
  split
  case h_1 e hread =>
    rw [hread] at hvalue
    exact hvalue.error List.suffix_rfl
  case h_2 item after hread =>
    rw [hread] at hvalue
    obtain ⟨hitem, hafter⟩ := hvalue
    have hall : ∀ item' ∈ item :: items, item'.IsWritable := List.forall_mem_cons.mpr ⟨hitem, hitems⟩
    extract_lets after
    have hskip : after.rest <:+ cursor.rest := (skipSpace_suffix _).trans hafter
    split
    · exact ⟨fun item hitem => hall item (List.mem_reverse.mp hitem), (advance_suffix after 1).trans hskip⟩
    · exact (h.items _ _ hall).of_suffix
        ((skipSpace_suffix _).trans ((advance_suffix after 1).trans hskip))
    · trivial

theorem SoundReaders.members_succ (h : SoundReaders fuel) (cursor : Cursor)
    {entries : List (Value × Value)} (hentries : Binding.AreWritable entries) :
    Sound Binding.AreWritable cursor (readMembers (fuel + 1) entries cursor) := by
  unfold readMembers
  split
  case h_2 => trivial
  case h_1 =>
    have hkey := sound_readString cursor
    split
    case h_1 e hread =>
      rw [hread] at hkey
      exact hkey.error List.suffix_rfl
    case h_2 key afterKey hread =>
      rw [hread] at hkey
      obtain ⟨hkey, hafterKey⟩ := hkey
      extract_lets colon
      have hcolon : colon.rest <:+ cursor.rest := (skipSpace_suffix _).trans hafterKey
      split
      case h_2 => trivial
      case h_1 =>
        have hstart : (colon.advance 1).skipSpace.rest <:+ cursor.rest :=
          (skipSpace_suffix _).trans ((advance_suffix colon 1).trans hcolon)
        have hvalue := h.value (colon.advance 1).skipSpace
        split
        case h_1 e hread =>
          rw [hread] at hvalue
          exact hvalue.error hstart
        case h_2 value afterValue hread =>
          rw [hread] at hvalue
          obtain ⟨hvalue, hafterValue⟩ := hvalue
          have hall : Binding.AreWritable ((key, value) :: entries) :=
            List.forall_mem_cons.mpr ⟨⟨hkey, hvalue⟩, hentries⟩
          extract_lets comma
          have hcomma : comma.rest <:+ cursor.rest :=
            (skipSpace_suffix _).trans (hafterValue.trans hstart)
          split
          · exact ⟨fun entry hentry => hall entry (List.mem_reverse.mp hentry),
              (advance_suffix comma 1).trans hcomma⟩
          · exact (h.members _ _ hall).of_suffix
              ((skipSpace_suffix _).trans ((advance_suffix comma 1).trans hcomma))
          · trivial

theorem soundReaders (fuel : Nat) : SoundReaders fuel := by
  induction fuel with
  | zero => exact soundReaders_zero
  | succ fuel ih =>
    exact ⟨ih.value_succ, fun cursor _ => ih.items_succ cursor, fun cursor _ => ih.members_succ cursor⟩

/-! ## Main statements -/

theorem sound_read (cs : List Char) :
    (∀ value, read cs = .ok value → value.IsWritable) ∧
      ∀ e literal, read cs = .error (.numeral e literal) → HasLongNumeral cs := by
  have h := (soundReaders (2 * cs.length + 1)).value (Cursor.skipSpace ⟨cs, 0⟩)
  unfold read
  split
  case h_1 => simp
  case h_2 =>
    extract_lets start
    split
    case h_1 e hread =>
      rw [hread] at h
      refine ⟨nofun, fun e' literal he => ?_⟩
      obtain rfl := Except.error.inj he
      exact HasLongNumeral.of_part h (skipSpace_suffix ⟨cs, 0⟩).isInfix
    case h_2 value after hread =>
      rw [hread] at h
      extract_lets after
      split
      · exact ⟨fun value' hvalue => Except.ok.inj hvalue ▸ h.1, nofun⟩
      · exact ⟨nofun, nofun⟩

/-- **What is read from a JSON text has whole numbers that can be written out again.** -/
theorem isWritable_of_read {cs : List Char} {value : Value} (h : read cs = .ok value) :
    value.IsWritable :=
  (sound_read cs).1 value h

/-- **A JSON text is refused because of a number only if it has a run of too many digits.** -/
theorem hasLongNumeral_of_read {cs : List Char} {e : NumeralError} {literal : Text}
    (h : read cs = .error (.numeral e literal)) : HasLongNumeral cs :=
  (sound_read cs).2 e literal h

end OpenApiClient.Document.Json
