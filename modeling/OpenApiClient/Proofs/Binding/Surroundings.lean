import OpenApiClient.Proofs.Binding.Keys
import OpenApiClient.Proofs.Binding.Replacement

/-!
# Documents Around a Path

A document in which the item of one path is left open. If the path counts, the rest of the document decides
nothing about the item: what is accepted with one item is accepted with another one exactly if that can be
read, and the specification has at this path what is read from the item.

## Layers

- **Surroundings**: `Surroundings`, with the document for each item.
- **Acceptance**: `isAccepted_document_iff`.
- **Look-up**: `lookup_paths`.
-/

namespace OpenApiClient.Binding

open OpenApiClient.Document
open OpenApiClient.Checked

/-! ## Surroundings -/

/-- What stands in a document around the item of a path: the entries around that of the paths, with its
key, and the paths around this one. -/
structure Surroundings where
  knots : Knots := []
  before : List (Value × Value) := []
  key : Value := .text "paths"
  after : List (Value × Value) := []
  pathsBefore : List (Value × Value) := []
  path : Text
  pathsAfter : List (Value × Value) := []

namespace Surroundings

/-- The paths with an item put in. -/
def paths (around : Surroundings) (item : Value) : Value :=
  .map (around.pathsBefore ++ (.text around.path, item) :: around.pathsAfter)

/-- The document with an item put in. -/
def document (around : Surroundings) (item : Value) : Document :=
  { root := .map (around.before ++ (around.key, around.paths item) :: around.after)
    knots := around.knots }

/-- Whether the path counts: its entry is in the paths that are read, and no later key is read as the same
path. -/
structure Counts (around : Surroundings) : Prop where
  spells : Spells "paths" around.key
  unspelled : Unspelled "paths" around.before
  prevails : ∀ later ∈ around.pathsAfter, text later.1 ≠ .valid around.path

end Surroundings

section

variable {around : Surroundings} {item item' : Value}

theorem Surroundings.Counts.takenFrom (h : around.Counts) (item : Value) :
    Field.TakenFrom ⟨"paths", none⟩ "paths" around.before around.key (around.paths item)
      around.after := by
  refine ⟨.inr ⟨nofun, rfl, ?_⟩, h.spells, h.unspelled⟩
  exact ⟨_, _, _, rfl, h.unspelled, h.spells, Value.noConfusion⟩

/-! ## Acceptance -/

/-- Whether a document is accepted. -/
def IsAccepted (document : Document) : Prop :=
  ∃ specification, bindDocument document = .ok specification

/-- When the document is accepted with one item, it is with those that can be read. -/
theorem isAccepted_document_iff (h : around.Counts) (hitem : IsAccepted (around.document item)) :
    IsAccepted (around.document item') ↔ (pathItem around.knots item').IsValid := by
  have hroot : ∀ item, IsAccepted (around.document item) ↔
      Fits around.knots maxNesting [] (.part .specification) (around.document item).root :=
    fun _ => exists_bindDocument_iff
  -- Of the paths only the item is in question, and of the document only the paths.
  have hshape : ((⟨"paths", none⟩, .mapping .pathItem) : Field × Shape) ∈ shapes .specification := by
    simp [shapes]
  obtain ⟨inner, hinner, hpaths, hdocument⟩ :=
    ((hroot item).mp hitem).exchange_iff rfl hshape (h.takenFrom item) (around.paths item')
  obtain rfl : inner = maxNesting := hinner.symm
  obtain ⟨entries, hentries, hall⟩ := fits_mapping_iff.mp hpaths
  obtain rfl := Value.map.inj hentries
  have hmapping : Fits around.knots maxNesting [] (.mapping .pathItem) (around.paths item') ↔
      Fits around.knots maxNesting [] .pathItem item' := by
    simp only [fits_mapping_iff, Surroundings.paths, Knots.content, Value.map.injEq, exists_eq_left']
    rw [forall_mem_exchange hall]
    exact and_iff_right trivial
  have hnull : around.paths item' ≠ .null := Value.noConfusion
  rw [Field.find?_of_gives ((h.takenFrom item).exchange hnull)] at hdocument
  rw [hroot, reads_pathItem, ← hmapping]
  apply hdocument.trans
  simp

/-! ## Look-up -/

theorem lookup_eq_some_of_mem {α : Type} {entries : List (Text × α)} (h : (entries.map (·.1)).Nodup)
    {entry : Text × α} (hentry : entry ∈ entries) : entries.lookup entry.1 = some entry.2 := by
  obtain ⟨before, after, rfl⟩ := List.append_of_mem hentry
  rw [List.lookup_eq_some_iff]
  refine ⟨before, after, rfl, fun other hother => ?_⟩
  rw [List.map_append, List.map_cons, List.nodup_append] at h
  have hne := h.2.2 other.1 (List.mem_map_of_mem hother) entry.1 List.mem_cons_self
  simpa using hne.symm

/-- The specification has at the path what is read from its item. -/
theorem lookup_paths (h : around.Counts) {specification : Specification}
    (hspecification : bindDocument (around.document item) = .ok specification) :
    ∃ operations, pathItem around.knots item = .valid operations ∧
      specification.paths.lookup around.path = some operations := by
  obtain ⟨entries, hentries, -, -, hpaths, -⟩ :=
    specification_eq_valid_iff.mp (bindDocument_eq_ok_iff.mp hspecification)
  obtain rfl := Value.map.inj hentries
  rw [Field.read, Field.find?_of_gives (h.takenFrom item).gives] at hpaths
  have hmapping := paths_eq_valid_iff.mp (under_eq_valid_iff.mp hpaths)
  obtain ⟨path, operations, hpath, hread⟩ :=
    exists_read_of_mapping hmapping rfl (.text around.path, item) (by simp)
  obtain rfl := valid.inj hpath
  have hmem : (around.path, operations) ∈ specification.paths :=
    (mem_mapping_iff hmapping rfl).mpr ⟨_, ⟨_, _, rfl, h.prevails⟩, rfl, hread⟩
  exact ⟨operations, hread, lookup_eq_some_of_mem (nodup_of_mapping hmapping) hmem⟩

end

end OpenApiClient.Binding
