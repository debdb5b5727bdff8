import OpenApiClient.Proofs.Binding.Inlining
import OpenApiClient.Proofs.Binding.Surroundings

/-!
# Selecting From Mappings

What a search in a mapping that was read finds, said by the entries of the document: a key that is asked for
is that of the last entry with this key, and the first name that fits is the first one that some entry has.

## Layers

- **Members**: `memberEntries`, and that a field is what they are read as (`areReadAs_of_read`).
- **Look-up**: `AreReadAs.mem_iff_of_distinct`, for keys that are written once.
- **First names**: `AreReadAs.find?_eq_some_iff`.
-/

namespace OpenApiClient.Binding

open OpenApiClient.Document
open OpenApiClient.Checked

/-! ## Members -/

/-- The entries of the mapping that a part gives for a field, if it does. -/
def memberEntries (knots : Knots) (field : Field) (value : Value) : List (Value × Value) :=
  match field.find? (rawEntries knots value) with
  | some (_, member) => rawEntries knots member
  | none => []

section

variable {α : Type} {knots : Knots} {element : Value → Checked α} {raws : List (Value × Value)}
  {result : List (Text × α)}

theorem areReadAs_nil : AreReadAs element [] [] :=
  ⟨[], rfl, rfl⟩

theorem areReadAs_rawEntries {value : Value} (h : mapping knots element value = .valid result) :
    AreReadAs element (rawEntries knots value) result := by
  obtain ⟨entries, hentries, -⟩ := mapping_eq_valid_iff.mp h
  rw [rawEntries, hentries]
  exact areReadAs_of_mapping h hentries

theorem areReadAs_of_read {field : Field} {value : Value} {entries : List (Value × Value)}
    (hentries : knots.content value = .map entries)
    (h : field.read entries [] (mapping knots element) = .valid result) :
    AreReadAs element (memberEntries knots field value) result := by
  rw [memberEntries, rawEntries, hentries]
  unfold Field.read at h
  split at h
  case h_1 hnone =>
    rw [← valid.inj h]
    simp only [hnone]
    exact areReadAs_nil
  case h_2 name member hfound =>
    simp only [hfound]
    exact areReadAs_rawEntries (under_eq_valid_iff.mp h)

theorem areReadAs_of_read? {field : Field} {value : Value} {entries : List (Value × Value)}
    {result : Option (List (Text × α))} (hentries : knots.content value = .map entries)
    (h : field.read? entries (mapping knots element) = .valid result) :
    AreReadAs element (memberEntries knots field value) (result.getD []) := by
  rw [memberEntries, rawEntries, hentries]
  unfold Field.read? Field.read at h
  split at h
  case h_1 hnone =>
    rw [← valid.inj h]
    simp only [hnone]
    exact areReadAs_nil
  case h_2 name member hfound =>
    obtain ⟨own, hown, rfl⟩ := map_eq_valid_iff.mp (under_eq_valid_iff.mp h)
    simp only [hfound]
    exact areReadAs_rawEntries hown

/-! ## Look-up -/

/-- Whether no two keys are read as the same text. -/
def DistinctKeys (raws : List (Value × Value)) : Prop :=
  (raws.map fun raw => text raw.1).Nodup

/-- Where keys are distinct each entry prevails. -/
theorem DistinctKeys.prevails_iff (h : DistinctKeys raws) {raw : Value × Value} :
    Prevails (fun raw => text raw.1) raws raw ↔ raw ∈ raws := by
  refine ⟨Prevails.mem, fun hraw => ?_⟩
  obtain ⟨before, after, rfl⟩ := List.append_of_mem hraw
  -- A later entry with the same key would be a second one.
  refine ⟨before, after, rfl, fun later hlater heq => ?_⟩
  rw [DistinctKeys, List.map_append, List.map_cons, List.nodup_append, List.nodup_cons] at h
  have hmem := List.mem_map_of_mem (f := fun raw : Value × Value => text raw.1) hlater
  rw [show text later.1 = text raw.1 from heq] at hmem
  exact h.2.1.1 hmem

theorem lookup_eq_some_iff_mem (h : (result.map (·.1)).Nodup) {name : Text} {own : α} :
    result.lookup name = some own ↔ (name, own) ∈ result := by
  refine ⟨fun hlookup => ?_, fun hmem => lookup_eq_some_of_mem h hmem⟩
  obtain ⟨before, after, rfl, -⟩ := List.lookup_eq_some_iff.mp hlookup
  simp

/-- When keys are written once, a look-up finds what stands under the key. -/
theorem AreReadAs.mem_iff_of_distinct (h : AreReadAs element raws result) (hkeys : DistinctKeys raws)
    {pair : Text × α} :
    pair ∈ result ↔
      ∃ raw ∈ raws, text raw.1 = .valid pair.1 ∧ element raw.2 = .valid pair.2 := by
  simp only [h.mem_iff, hkeys.prevails_iff]

/-! ## First names -/

/-- The name that a key is read as, if it fits. -/
def fittingName? (fits : Text → Bool) (key : Value) : Option Text :=
  match text key with
  | .valid name => if fits name then some name else none
  | _ => none

theorem fittingName?_eq_some_iff {fits : Text → Bool} {key : Value} {name : Text} :
    fittingName? fits key = some name ↔ text key = .valid name ∧ fits name := by
  unfold fittingName?
  split
  case h_1 own hown =>
    rw [hown]
    grind
  case h_2 hnot =>
    constructor
    · nofun
    · exact fun ⟨hname, _⟩ => absurd hname (hnot name)

/-- The first name that fits is the first one that some key is read as. -/
theorem AreReadAs.find?_map_fst (h : AreReadAs element raws result) (fits : Text → Bool) :
    (result.map (·.1)).find? fits = raws.findSome? fun raw => fittingName? fits raw.1 := by
  obtain ⟨pairs, hpairs, rfl⟩ := h
  rw [find?_map_fst_setKeys]
  -- Both searches go through what was read entry by entry, and stop at the same one.
  induction raws generalizing pairs with
  | nil =>
    obtain rfl := List.map_eq_nil_iff.mp hpairs.symm
    rfl
  | cons raw raws ih =>
    cases pairs with
    | nil => contradiction
    | cons pair pairs =>
      obtain ⟨hfirst, hrest⟩ := List.cons.inj hpairs
      have hkey := (entry_eq_valid_iff.mp hfirst).1
      rw [List.map_cons, List.find?_cons, List.findSome?_cons, ih _ hrest, fittingName?, hkey]
      cases hfits : fits pair.1 with
      | true => simp only [hfits, if_true]
      | false => simp only [hfits, Bool.false_eq_true, if_false]

/-- The first entry of a mapping whose name fits: the name is the first one, and the value is that of the last
entry with this name. -/
theorem AreReadAs.find?_eq_some_iff (h : AreReadAs element raws result) {fits : Text → Bool}
    {pair : Text × α} :
    result.find? (fun pair => fits pair.1) = some pair ↔
      (raws.findSome? fun raw => fittingName? fits raw.1) = some pair.1 ∧
        ∃ raw, Prevails (fun raw => text raw.1) raws raw ∧ text raw.1 = .valid pair.1 ∧
          element raw.2 = .valid pair.2 := by
  rw [← h.find?_map_fst, ← h.mem_iff, List.find?_map]
  constructor
  · intro hfound
    exact ⟨by simpa [Function.comp_def] using congrArg (Option.map (·.1)) hfound,
      List.mem_of_find?_eq_some hfound⟩
  · rintro ⟨hname, hmem⟩
    obtain ⟨first, hfirst, heq⟩ := Option.map_eq_some_iff.mp hname
    -- Names are distinct, so there is one entry of this name.
    have hlookup := lookup_eq_some_of_mem h.nodup (List.mem_of_find?_eq_some hfirst)
    rw [heq, lookup_eq_some_of_mem h.nodup hmem] at hlookup
    rwa [Prod.ext heq.symm (Option.some.inj hlookup)]

end

end OpenApiClient.Binding
