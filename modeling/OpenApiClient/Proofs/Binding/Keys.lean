import OpenApiClient.Proofs.Binding.Valid

/-!
# Keys of Mappings

The mappings of a specification that was read have no key twice, although two keys of the document can
be read as the same text: the later value then takes the place of the earlier one.

## Layers

- **Setting keys**: a key that is set keeps its place (`map_fst_setKey`), so keys stay distinct
  (`nodup_setKeys`) and the first one that fits stays the first (`find?_map_fst_setKeys`); a function of the
  values can be applied before or after (`map_setKeys`).
- **Entries that prevail**: `Prevails`, the last entry with a key, and these are what is left when keys are
  set one after the other (`mem_setKeys_iff`).
- **Mappings that were read**: `AreReadAs`, with `nodup_of_mapping` and `mem_mapping_iff`, and the schemas of a
  document.
-/

namespace OpenApiClient.Binding

open OpenApiClient.Document

/-! ## Setting keys -/

section

variable {α : Type}

/-- A key that is set keeps its place, or comes last when it is new. -/
theorem map_fst_setKey (name : Text) (value : α) (entries : List (Text × α)) :
    (setKey name value entries).map (·.1) =
      if name ∈ entries.map (·.1) then entries.map (·.1) else entries.map (·.1) ++ [name] := by
  induction entries with
  | nil => rfl
  | cons entry entries ih =>
    rw [setKey]
    by_cases hname : entry.1 = name
    · simp [hname]
    · have hne : name ≠ entry.1 := fun h => hname h.symm
      simp only [beq_iff_eq, hname, if_false, List.map_cons, ih, List.mem_cons, hne, false_or]
      split
      · rfl
      · rfl

theorem nodup_setKey {name : Text} {value : α} {entries : List (Text × α)}
    (h : (entries.map (·.1)).Nodup) : ((setKey name value entries).map (·.1)).Nodup := by
  rw [map_fst_setKey]
  split
  case isTrue => exact h
  case isFalse hnew =>
    refine List.nodup_append.mpr ⟨h, by simp, ?_⟩
    intro key hkey other hother heq
    rw [List.mem_singleton.mp hother] at heq
    exact hnew (heq ▸ hkey)

theorem nodup_setKeys (entries : List (Text × α)) : ((setKeys entries).map (·.1)).Nodup := by
  -- The invariant holds of every mapping that setting keys starts with.
  have hfold : ∀ mapping : List (Text × α), (mapping.map (·.1)).Nodup →
      ((entries.foldl (fun mapping entry => setKey entry.1 entry.2 mapping) mapping).map
        (·.1)).Nodup := by
    induction entries with
    | nil => exact fun _ h => h
    | cons entry entries ih => exact fun mapping h => ih _ (nodup_setKey h)
  exact hfold [] List.nodup_nil

/-- A key that is set keeps its place, so the first name that fits stays the first one. -/
theorem find?_map_fst_setKeys (fits : Text → Bool) (entries : List (Text × α)) :
    ((setKeys entries).map (·.1)).find? fits = (entries.map (·.1)).find? fits := by
  -- The names that are there come first, then those that are set.
  have hfold : ∀ mapping : List (Text × α),
      ((entries.foldl (fun mapping entry => setKey entry.1 entry.2 mapping) mapping).map
        (·.1)).find? fits = (mapping.map (·.1) ++ entries.map (·.1)).find? fits := by
    induction entries with
    | nil => simp
    | cons first entries ih =>
      intro mapping
      rw [List.foldl_cons, ih, map_fst_setKey, List.map_cons]
      split
      case isTrue hthere =>
        simp only [List.find?_append, List.find?_cons]
        cases hfirst : fits first.1 with
        | false => rfl
        | true =>
          obtain ⟨name, hname⟩ :=
            Option.isSome_iff_exists.mp (List.find?_isSome.mpr ⟨first.1, hthere, hfirst⟩)
          rw [hname, Option.some_or, Option.some_or]
      case isFalse => rw [List.append_assoc, List.singleton_append]
  exact hfold []

/-- Setting keys commutes with a function of the values. -/
theorem map_setKey {β : Type} (f : α → β) (name : Text) (value : α) (entries : List (Text × α)) :
    (setKey name value entries).map (fun entry => (entry.1, f entry.2)) =
      setKey name (f value) (entries.map fun entry => (entry.1, f entry.2)) := by
  induction entries with
  | nil => rfl
  | cons first entries ih =>
    simp only [setKey, List.map_cons]
    split
    · rfl
    · rw [List.map_cons, ih]

theorem map_setKeys {β : Type} (f : α → β) (entries : List (Text × α)) :
    (setKeys entries).map (fun entry => (entry.1, f entry.2)) =
      setKeys (entries.map fun entry => (entry.1, f entry.2)) := by
  -- The equation holds whatever mapping the keys are set in.
  have hfold : ∀ mapping : List (Text × α),
      (entries.foldl (fun mapping entry => setKey entry.1 entry.2 mapping) mapping).map
          (fun entry => (entry.1, f entry.2)) =
        (entries.map fun entry => (entry.1, f entry.2)).foldl
          (fun mapping entry => setKey entry.1 entry.2 mapping)
          (mapping.map fun entry => (entry.1, f entry.2)) := by
    induction entries with
    | nil => exact fun _ => rfl
    | cons entry entries ih =>
      intro mapping
      rw [List.map_cons, List.foldl_cons, List.foldl_cons, ih, map_setKey]
  exact hfold []

end

/-! ## Entries that prevail -/

/-- Whether an item is the last one that has its key. -/
def Prevails {κ β : Type} (key : β → κ) (items : List β) (item : β) : Prop :=
  ∃ before after, items = before ++ item :: after ∧ ∀ later ∈ after, key later ≠ key item

section

variable {κ α β : Type} {key : β → κ}

theorem not_prevails_nil {item : β} : ¬ Prevails key [] item := by
  rintro ⟨before, after, hitems, -⟩
  cases before <;> contradiction

theorem Prevails.mem {items : List β} {item : β} (h : Prevails key items item) : item ∈ items := by
  obtain ⟨before, after, rfl, -⟩ := h
  simp

theorem prevails_cons_iff {first : β} {items : List β} {item : β} :
    Prevails key (first :: items) item ↔
      (item = first ∧ ∀ later ∈ items, key later ≠ key item) ∨ Prevails key items item := by
  constructor
  · rintro ⟨before, after, hitems, hafter⟩
    cases before with
    | nil =>
      obtain ⟨rfl, rfl⟩ := List.cons.inj hitems
      exact .inl ⟨rfl, hafter⟩
    | cons other before =>
      obtain ⟨rfl, rfl⟩ := List.cons.inj hitems
      exact .inr ⟨before, after, rfl, hafter⟩
  · rintro (⟨rfl, hitems⟩ | ⟨before, after, rfl, hafter⟩)
    · exact ⟨[], items, rfl, hitems⟩
    · exact ⟨first :: before, after, rfl, hafter⟩

/-- An entry with another key does not keep one from prevailing, wherever it stands. -/
theorem prevails_insert_iff {before after : List β} {other item : β}
    (h : key other ≠ key item) :
    Prevails key (before ++ other :: after) item ↔ Prevails key (before ++ after) item := by
  induction before with
  | nil =>
    rw [List.nil_append, prevails_cons_iff, List.nil_append, or_iff_right]
    rintro ⟨rfl, -⟩
    exact h rfl
  | cons first before ih =>
    rw [List.cons_append, prevails_cons_iff, List.cons_append, prevails_cons_iff, ih]
    simp only [List.forall_mem_append, List.forall_mem_cons, ne_eq, h, not_false_eq_true, true_and]

theorem mem_setKey_iff {name : Text} {value : α} {entries : List (Text × α)}
    (h : (entries.map (·.1)).Nodup) {entry : Text × α} :
    entry ∈ setKey name value entries ↔ entry = (name, value) ∨ entry ∈ entries ∧ entry.1 ≠ name := by
  induction entries with
  | nil => simp [setKey]
  | cons first entries ih =>
    rw [List.map_cons, List.nodup_cons] at h
    rw [setKey]
    split
    case isTrue hname =>
      -- The key stands here, so it does not stand further behind.
      obtain rfl := beq_iff_eq.mp hname
      have hbehind : entry ∈ entries → entry.1 ≠ first.1 :=
        fun hentry heq => h.1 (heq ▸ List.mem_map_of_mem hentry)
      grind
    case isFalse hname =>
      have hne : first.1 ≠ name := by simpa using hname
      rw [List.mem_cons, List.mem_cons, ih h.2]
      grind

/-- Of the entries with one key the last one is left when keys are set one after the other. -/
theorem mem_setKeys_iff {entries : List (Text × α)} {entry : Text × α} :
    entry ∈ setKeys entries ↔ Prevails (·.1) entries entry := by
  -- What is there before is left as far as its key is not set again.
  have hfold : ∀ mapping : List (Text × α), (mapping.map (·.1)).Nodup →
      (entry ∈ entries.foldl (fun mapping entry => setKey entry.1 entry.2 mapping) mapping ↔
        Prevails (·.1) entries entry ∨
          entry ∈ mapping ∧ ∀ later ∈ entries, later.1 ≠ entry.1) := by
    induction entries with
    | nil => simp [not_prevails_nil]
    | cons first entries ih =>
      intro mapping hmapping
      rw [List.foldl_cons, ih _ (nodup_setKey hmapping), mem_setKey_iff hmapping, prevails_cons_iff,
        List.forall_mem_cons]
      grind
  rw [setKeys, hfold [] List.nodup_nil]
  simp

variable {knots : Knots} {element : Value → Checked α}

/-- Entries that are read one by one prevail where what is read does. -/
theorem prevails_iff_of_read {raws : List (Value × Value)} {pairs : List (Text × α)}
    (h : (raws.map fun raw => entry raw.1 (element raw.2)) = pairs.map .valid) {pair : Text × α} :
    Prevails (·.1) pairs pair ↔
      ∃ raw, Prevails (fun raw => text raw.1) raws raw ∧ text raw.1 = .valid pair.1 ∧
        element raw.2 = .valid pair.2 := by
  induction raws generalizing pairs with
  | nil =>
    obtain rfl := List.map_eq_nil_iff.mp h.symm
    simp [not_prevails_nil]
  | cons first raws ih =>
    cases pairs with
    | nil => contradiction
    | cons firstPair pairs =>
      obtain ⟨hfirst, hrest⟩ := List.cons.inj h
      obtain ⟨hkey, hvalue⟩ := entry_eq_valid_iff.mp hfirst
      -- Both lists go on with the same keys.
      have hlater : (∀ later ∈ pairs, later.1 ≠ firstPair.1) ↔
          ∀ later ∈ raws, text later.1 ≠ text first.1 := by
        rw [hkey]
        constructor
        · intro hpairs later hmem heq
          have hread := List.mem_map_of_mem (f := fun raw => entry raw.1 (element raw.2)) hmem
          rw [hrest] at hread
          obtain ⟨pair, hpair, hread⟩ := List.mem_map.mp hread
          exact hpairs pair hpair
            (Checked.valid.inj ((entry_eq_valid_iff.mp hread.symm).1.symm.trans heq))
        · intro hraws pair hmem heq
          have hread := List.mem_map_of_mem (f := Checked.valid) hmem
          rw [← hrest] at hread
          obtain ⟨later, hlater, hread⟩ := List.mem_map.mp hread
          exact hraws later hlater ((entry_eq_valid_iff.mp hread).1.trans (by rw [heq]))
      have hhead : (pair = firstPair ∧ ∀ later ∈ pairs, later.1 ≠ pair.1) ↔
          ∃ raw, (raw = first ∧ ∀ later ∈ raws, text later.1 ≠ text raw.1) ∧
            text raw.1 = .valid pair.1 ∧ element raw.2 = .valid pair.2 := by
        constructor
        · rintro ⟨rfl, hpairs⟩
          exact ⟨first, ⟨rfl, hlater.mp hpairs⟩, hkey, hvalue⟩
        · rintro ⟨raw, ⟨rfl, hraws⟩, hkey', hvalue'⟩
          obtain rfl : pair = firstPair := Prod.ext
            (Checked.valid.inj (hkey'.symm.trans hkey)) (Checked.valid.inj (hvalue'.symm.trans hvalue))
          exact ⟨rfl, hlater.mpr hraws⟩
      simp only [prevails_cons_iff, hhead, ih hrest, or_and_right, exists_or]

end

/-! ## Mappings that were read -/

section

variable {α : Type} {knots : Knots} {element : Value → Checked α} {value : Value}
  {raws : List (Value × Value)} {result : List (Text × α)}

/-- Whether a mapping is what some entries of the document are read as. -/
def AreReadAs (element : Value → Checked α) (raws : List (Value × Value)) (result : List (Text × α)) : Prop :=
  ∃ pairs, (raws.map fun raw => entry raw.1 (element raw.2)) = pairs.map .valid ∧ setKeys pairs = result

namespace AreReadAs

theorem nodup (h : AreReadAs element raws result) : (result.map (·.1)).Nodup := by
  obtain ⟨pairs, -, rfl⟩ := h
  exact nodup_setKeys pairs

theorem mem_iff (h : AreReadAs element raws result) {pair : Text × α} :
    pair ∈ result ↔
      ∃ raw, Prevails (fun raw => text raw.1) raws raw ∧ text raw.1 = .valid pair.1 ∧
        element raw.2 = .valid pair.2 := by
  obtain ⟨pairs, hpairs, rfl⟩ := h
  rw [mem_setKeys_iff, prevails_iff_of_read hpairs]

/-- Every entry was read. -/
theorem exists_read (h : AreReadAs element raws result) :
    ∀ raw ∈ raws, ∃ name own, text raw.1 = .valid name ∧ element raw.2 = .valid own := by
  obtain ⟨pairs, hpairs, -⟩ := h
  intro raw hraw
  have hread := List.mem_map_of_mem (f := fun raw => entry raw.1 (element raw.2)) hraw
  rw [hpairs] at hread
  obtain ⟨pair, -, hread⟩ := List.mem_map.mp hread
  exact ⟨pair.1, pair.2, entry_eq_valid_iff.mp hread.symm⟩

end AreReadAs

theorem areReadAs_of_mapping (h : mapping knots element value = .valid result)
    (hraws : knots.content value = .map raws) : AreReadAs element raws result := by
  obtain ⟨entries, hentries, hread⟩ := mapping_eq_valid_iff.mp h
  obtain rfl := Value.map.inj (hraws.symm.trans hentries)
  exact hread

/-- A mapping that was read has the values of the entries that prevail. -/
theorem mem_mapping_iff (h : mapping knots element value = .valid result)
    (hraws : knots.content value = .map raws) {pair : Text × α} :
    pair ∈ result ↔
      ∃ raw, Prevails (fun raw => text raw.1) raws raw ∧ text raw.1 = .valid pair.1 ∧
        element raw.2 = .valid pair.2 :=
  (areReadAs_of_mapping h hraws).mem_iff

/-- In a mapping that was read every entry was read. -/
theorem exists_read_of_mapping (h : mapping knots element value = .valid result)
    (hraws : knots.content value = .map raws) :
    ∀ raw ∈ raws, ∃ name own, text raw.1 = .valid name ∧ element raw.2 = .valid own :=
  (areReadAs_of_mapping h hraws).exists_read

theorem nodup_of_mapping (h : mapping knots element value = .valid result) :
    (result.map (·.1)).Nodup := by
  obtain ⟨entries, hentries, -⟩ := mapping_eq_valid_iff.mp h
  exact (areReadAs_of_mapping h hentries).nodup

end

theorem nodup_of_components {knots : Knots} {value : Value} {result : Components}
    (h : components knots value = .valid result) : (result.schemas.map (·.1)).Nodup := by
  obtain ⟨entries, -, hread⟩ := part_eq_valid_iff.mp h
  obtain ⟨schemas, hschemas, rfl⟩ := Checked.fmap_eq_valid_iff.mp hread
  unfold Field.read at hschemas
  split at hschemas
  case h_1 =>
    obtain rfl := Checked.valid.inj hschemas
    exact List.nodup_nil
  case h_2 => exact nodup_of_mapping (Checked.under_eq_valid_iff.mp hschemas)

/-- The schemas of a specification that was read have distinct names. -/
theorem nodup_schemaNames_of_bindDocument {document : Document} {result : Specification}
    (h : bindDocument document = .ok result) : (result.components.schemas.map (·.1)).Nodup := by
  obtain ⟨entries, -, -, -, -, hcomponents⟩ :=
    specification_eq_valid_iff.mp (bindDocument_eq_ok_iff.mp h)
  unfold Field.read at hcomponents
  split at hcomponents
  case h_1 =>
    rw [← Checked.valid.inj hcomponents]
    exact List.nodup_nil
  case h_2 => exact nodup_of_components (Checked.under_eq_valid_iff.mp hcomponents)

end OpenApiClient.Binding
