import Mathlib.Data.List.Nodup
import OpenApiClient.Proofs.Generation.Naming
import OpenApiClient.Proofs.Generation.Signatures

/-!
# Distinct Endpoints

An operation is called by its path and its HTTP method. The keys of a path name methods in any letter case
and keep their spelling, so a path has two operations for one method where two of its keys spell it. Nothing
else makes two operations of one endpoint: paths stay distinct, and in upper case methods differ where they
do in lower case.

## Layers

- **Spellings**: methods in upper case (`nodup_map_upper_iff`).
- **Methods of a path**: `NamesMethodsOnce`, from the keys of its item.
- **Documents**: `SpellsMethodsOnce`, for the paths that count (`mem_paths_iff`).
- **Main statement**: `endpoints_nodup_iff`, refuted without its condition for a method in two spellings.
-/

namespace OpenApiClient.Client

open OpenApiClient.Document
open OpenApiClient.Binding

/-! ## Spellings -/

theorem upper_injOn_httpMethods : ∀ method ∈ httpMethods, ∀ other ∈ httpMethods,
    Text.upper method = Text.upper other → method = other := by
  decide

/-- Known methods are as distinct in upper case as in lower case. -/
theorem nodup_map_upper_iff {operations : List (Text × Operation)} (h : HasKnownMethods operations) :
    (operations.map fun entry => Text.upper entry.1).Nodup ↔
      (operations.map fun entry => Text.lower entry.1).Nodup := by
  have hupper : operations.map (fun entry => Text.upper entry.1) =
      (operations.map fun entry => Text.lower entry.1).map Text.upper := by
    rw [List.map_map]
    exact List.map_congr_left fun entry hentry => (upper_lower_of_lower_mem (h entry hentry)).symm
  rw [hupper]
  constructor
  · exact List.Nodup.of_map Text.upper
  · refine List.Nodup.map_on fun method hmethod other hother => ?_
    obtain ⟨entry, hentry, rfl⟩ := List.mem_map.mp hmethod
    obtain ⟨entry', hentry', rfl⟩ := List.mem_map.mp hother
    exact upper_injOn_httpMethods _ (h entry hentry) _ (h entry' hentry')

/-! ## Methods of a path -/

/-- Whether the item of a path names no HTTP method twice, in whatever letter case. -/
def NamesMethodsOnce (knots : Knots) (item : Value) : Prop :=
  (((rawEntries knots item).filterMap (methodKey? ·.1)).map Text.lower).Nodup

theorem namesMethodsOnce_iff {knots : Knots} {item : Value} {operations : List (Text × Operation)}
    (h : pathItem knots item = .valid operations) :
    NamesMethodsOnce knots item ↔ (operations.map fun entry => Text.lower entry.1).Nodup := by
  obtain ⟨entries, hentries, hread⟩ := pathItem?_eq_some_iff.mp (pathItem_eq_valid_iff.mp h)
  rw [NamesMethodsOnce, rawEntries, hentries, ← map_fst_of_pathOperations hread, List.map_map]
  rfl

/-! ## Documents -/

/-- Whether no path that counts names an HTTP method twice. Of paths whose keys are read as the same text
the last one counts. -/
def SpellsMethodsOnce (document : Document) : Prop :=
  ∀ listed, Prevails (fun listed => text listed.1) (listedPaths document) listed →
    NamesMethodsOnce document.knots listed.2

/-- The paths of a specification are those that count in the document. -/
theorem mem_paths_iff {document : Document} {result : Specification}
    (h : bindDocument document = .ok result) {item : Text × List (Text × Operation)} :
    item ∈ result.paths ↔
      ∃ listed, Prevails (fun listed => text listed.1) (listedPaths document) listed ∧
        text listed.1 = .valid item.1 ∧ pathItem document.knots listed.2 = .valid item.2 :=
  mem_mapping_iff (mapping_listedPaths h) rfl

theorem forall_paths_nodup_iff {document : Document} {result : Specification}
    (h : bindDocument document = .ok result) :
    (∀ item ∈ result.paths, (item.2.map fun entry => Text.lower entry.1).Nodup) ↔
      SpellsMethodsOnce document := by
  constructor
  · intro hitems listed hlisted
    obtain ⟨name, operations, hname, hread⟩ :=
      exists_read_of_mapping (mapping_listedPaths h) rfl listed hlisted.mem
    rw [namesMethodsOnce_iff hread]
    exact hitems (name, operations) ((mem_paths_iff h).mpr ⟨listed, hlisted, hname, hread⟩)
  · intro honce item hitem
    obtain ⟨listed, hlisted, -, hread⟩ := (mem_paths_iff h).mp hitem
    exact (namesMethodsOnce_iff hread).mp (honce listed hlisted)

/-! ## Main statement -/

/-- What an operation is called by: its path and its HTTP method. -/
def NamedOperation.endpoint (named : NamedOperation) : Text × Text :=
  (named.path, Text.upper named.method)

theorem nodup_endpoints_iff {specification : Specification}
    (hpaths : (specification.paths.map (·.1)).Nodup)
    (hknown : ∀ item ∈ specification.paths, HasKnownMethods item.2) :
    ((namedOperations specification).map (·.endpoint)).Nodup ↔
      ∀ item ∈ specification.paths, (item.2.map fun entry => Text.lower entry.1).Nodup := by
  have hendpoints : (namedOperations specification).map (·.endpoint) =
      specification.paths.flatMap fun item =>
        (item.2.map fun entry => Text.upper entry.1).map (Prod.mk item.1) := by
    simp only [namedOperations, List.map_flatMap, List.map_map]
    rfl
  rw [hendpoints, List.nodup_flatMap]
  constructor
  · rintro ⟨hitems, -⟩ item hitem
    exact (nodup_map_upper_iff (hknown item hitem)).mp (hitems item hitem).of_map
  · intro hitems
    constructor
    · intro item hitem
      refine ((nodup_map_upper_iff (hknown item hitem)).mpr (hitems item hitem)).map ?_
      exact fun method method' heq => (Prod.mk.inj heq).2
    · -- Operations of different paths have different endpoints.
      refine (List.pairwise_map.mp hpaths).imp fun {item other} hne => ?_
      intro endpoint hmem hmem'
      obtain ⟨method, -, rfl⟩ := List.mem_map.mp hmem
      obtain ⟨method', -, heq⟩ := List.mem_map.mp hmem'
      exact hne (Prod.mk.inj heq).1.symm

/-- **When an endpoint has one operation.** In a document that is accepted, no path has two methods that
differ in letter case only, and no two named operations have the same endpoint, exactly if no path that
counts names a method twice. -/
theorem endpoints_nodup_iff {document : Document} {result : Specification}
    (h : bindDocument document = .ok result) :
    ((∀ item ∈ result.paths, (item.2.map fun entry => Text.lower entry.1).Nodup) ↔
        SpellsMethodsOnce document) ∧
      ∀ operations, resolveOperations result = .ok operations →
        ((operations.map (·.endpoint)).Nodup ↔ SpellsMethodsOnce document) := by
  refine ⟨forall_paths_nodup_iff h, ?_⟩
  intro operations hoperations
  obtain ⟨rfl, -⟩ := resolveOperations_eq_ok_iff.mp hoperations
  rw [nodup_endpoints_iff (nodup_of_mapping (mapping_listedPaths h))
    (hasKnownMethods_of_bindDocument h)]
  exact forall_paths_nodup_iff h

/-- A path that names one method after the other, beside one that names a method twice but does not count,
since a later key is read as the same text. -/
theorem endpoints_nodup_iff_pets :
    let operation (id : Text) : Value := .map [(.text "operationId", .text id)]
    let pets : Value := .map [(.text "Get", operation "listPets"), (.text "POST", operation "addPet")]
    let shadowed : Value := .map [(.text "get", operation "first"), (.text "GET", operation "second")]
    let document : Document :=
      { root := .map [(.text "paths", .map
          [(.text "/pets", pets), (.text "/", shadowed), (.bytes [0x2f], .map [])])] }
    let specification : Specification :=
      { paths :=
          [("/pets", [("Get", { id := "listPets" }), ("POST", { id := "addPet" })]), ("/", [])] }
    ∃ operations, bindDocument document = .ok specification ∧
      resolveOperations specification = .ok operations ∧
      operations.map (·.endpoint) = ([("/pets", "GET"), ("/pets", "POST")] : List (Text × Text)) ∧
      ¬ NamesMethodsOnce document.knots shadowed ∧ SpellsMethodsOnce document ∧
      (operations.map (·.endpoint)).Nodup := by
  intro operation pets shadowed document specification
  have h : bindDocument document = .ok specification := rfl
  have hoperations : resolveOperations specification = .ok (namedOperations specification) := rfl
  have hnodup : ((namedOperations specification).map (·.endpoint)).Nodup := by decide
  have honce : SpellsMethodsOnce document :=
    ((endpoints_nodup_iff h).2 _ hoperations).mp hnodup
  have hshadowed : ¬ NamesMethodsOnce document.knots shadowed := by
    unfold NamesMethodsOnce
    decide
  exact ⟨_, h, hoperations, rfl, hshadowed, honce, hnodup⟩

/-- A path that names a method in two spellings is accepted, and both operations are named. -/
theorem not_nodup_endpoints_get :
    let operation (id : Text) : Value := .map [(.text "operationId", .text id)]
    let pets : Value := .map [(.text "get", operation "listPets"), (.text "GET", operation "findPets")]
    let document : Document := { root := .map [(.text "paths", .map [(.text "/pets", pets)])] }
    ∃ specification operations, bindDocument document = .ok specification ∧
      resolveOperations specification = .ok operations ∧
      (∃ item ∈ specification.paths, ¬ (item.2.map fun entry => Text.lower entry.1).Nodup) ∧
      ¬ (operations.map (·.endpoint)).Nodup := by
  intro operation pets document
  refine ⟨_, _, rfl, rfl, ⟨_, List.mem_cons_self, ?_⟩, ?_⟩
  · decide
  · decide

end OpenApiClient.Client
