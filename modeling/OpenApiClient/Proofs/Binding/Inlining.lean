import OpenApiClient.Client.Generation
import OpenApiClient.Proofs.Binding.Methods
import OpenApiClient.Proofs.Binding.Reading
import OpenApiClient.Proofs.SharedParameters

/-!
# Inlining Shared Parameters

The parameters that a path lists for all its operations can be written into every operation instead:
those that the operation does not override come first, then its own ones. A document with shared
parameters and the one with all of them written out have the same specification.

## Layers

- **Written parameters**: what a document lists, before anything is read.
- **Inlined documents**: `inlineDocument`, from the root down to the operations.
- **Fields**: an entry that is dropped, added or changed is seen by the field of its name only.
- **Operations, paths, documents**: each is read as before (`operation_inlineOperation`,
  `pathItem?_inlinePath`, `paths_inlinePaths`).
- **Main statement**: `bindDocument_inlineDocument`.
-/

namespace OpenApiClient.Binding

open OpenApiClient.Document

/-! ## Written parameters -/

/-- The elements of a value, if it is a list. -/
def rawElements (knots : Knots) (value : Value) : List Value :=
  (elements? (knots.content value)).getD []

/-- The entries of a value, if it is a mapping. -/
def rawEntries (knots : Knots) (value : Value) : List (Value × Value) :=
  match knots.content value with
  | .map entries => entries
  | _ => []

def parametersField : Field := ⟨"parameters", none⟩

/-- The parameters that an operation lists itself. -/
def ownParameters (knots : Knots) (entries : List (Value × Value)) : List Value :=
  match parametersField.find? entries with
  | some (_, value) => rawElements knots value
  | none => []

/-- Name and location of a parameter, once it is read. -/
def boundKey? (knots : Knots) (raw : Value) : Option (Text × Text) :=
  match parameter knots raw with
  | .valid parameter => some parameter.key
  | _ => none

/-- The shared parameters whose name and location no own one has. -/
def inheritedParameters (knots : Knots) (shared own : List Value) : List Value :=
  shared.filter fun raw => !own.any fun other => boundKey? knots other == boundKey? knots raw

/-! ## Inlined documents -/

/-- Entries with the given list of parameters in place of all that were there. -/
def withParameters (parameters : List Value) (entries : List (Value × Value)) :
    List (Value × Value) :=
  entries.filter (¬ Spells "parameters" ·.1) ++ [(.text "parameters", .list parameters)]

/-- An operation that lists all its parameters itself. -/
def inlineOperation (knots : Knots) (shared : List Value) (value : Value) : Value :=
  let entries := rawEntries knots value
  let own := ownParameters knots entries
  .map (withParameters (inheritedParameters knots shared own ++ own) entries)

/-- The entries of a path without its list of parameters, which its operations have instead. -/
def inlineOperations (knots : Knots) (shared : List Value) (entries : List (Value × Value)) :
    List (Value × Value) :=
  (entries.filter (¬ Spells "parameters" ·.1)).map fun (key, value) =>
    (key, if (methodKey? key).isSome then inlineOperation knots shared value else value)

/-- A path that lists no parameters, since its operations list them. -/
def inlinePath (knots : Knots) (value : Value) : Value :=
  match knots.content value with
  | .map entries =>
    .map (inlineOperations knots (rawElements knots (firstNamed "parameters" entries)) entries)
  | _ => value

/-- Paths whose operations list all their parameters. -/
def inlinePaths (knots : Knots) (value : Value) : Value :=
  match knots.content value with
  | .map entries => .map (entries.map fun (key, item) => (key, inlinePath knots item))
  | _ => value

/-- An entry of a document, where what stands under `paths` is inlined. -/
def inlineEntry (knots : Knots) (entry : Value × Value) : Value × Value :=
  (entry.1, if Spells "paths" entry.1 then inlinePaths knots entry.2 else entry.2)

/-- A document whose operations list all their parameters. -/
def inlineDocument (document : Document) : Document :=
  match document.knots.content document.root with
  | .map entries => { document with root := .map (entries.map (inlineEntry document.knots)) }
  | _ => document

/-! ## Fields -/

theorem findSome?_filter_of_eq_none {α β : Type} {f : α → Option β} {keeps : α → Bool}
    {items : List α} (h : ∀ item ∈ items, ¬ keeps item → f item = none) :
    (items.filter keeps).findSome? f = items.findSome? f := by
  induction items with
  | nil => rfl
  | cons item items ih =>
    rw [List.forall_mem_cons] at h
    by_cases hkeeps : keeps item
    · rw [List.filter_cons_of_pos hkeeps, List.findSome?_cons, List.findSome?_cons, ih h.2]
    · rw [List.filter_cons_of_neg hkeeps, List.findSome?_cons, h.1 hkeeps, ih h.2]

theorem findSome?_withParameters {name : String} (parameters : List Value)
    (entries : List (Value × Value)) (hne : Text.lower name ≠ Text.lower "parameters") :
    (withParameters parameters entries).findSome? (entryNamed? name) =
      entries.findSome? (entryNamed? name) := by
  have hnone : ∀ entry : Value × Value, Spells "parameters" entry.1 → entryNamed? name entry = none :=
    fun entry => entryNamed?_eq_none_of_spells hne
  have hlast : entryNamed? name (.text "parameters", .list parameters) = none := hnone _ rfl
  rw [withParameters, List.findSome?_append, List.findSome?_cons, hlast, List.findSome?_nil,
    Option.or_none]
  apply findSome?_filter_of_eq_none
  intro entry _ hdropped
  exact hnone entry (by simpa using hdropped)

theorem find?_withParameters (parameters : List Value) (entries : List (Value × Value)) :
    parametersField.find? (withParameters parameters entries) =
      some ("parameters", .list parameters) := by
  have hdropped : (entries.filter (¬ Spells "parameters" ·.1)).findSome?
      (entryNamed? "parameters") = none := by
    rw [findSome?_entryNamed?_eq_none_iff]
    intro entry hmem hspells
    simp [hspells] at hmem
  simp only [parametersField, Field.find?, withParameters, List.findSome?_append, hdropped,
    Option.none_or, Option.bind_none]
  rfl

/-! ## Operations -/

section

variable {knots : Knots}

theorem rawElements_of_list {α : Type} {element : Value → Checked α} {value : Value}
    {values : List α} (h : list knots element value = .valid values) :
    (rawElements knots value).map element = values.map .valid := by
  obtain ⟨items, hitems, hvalues⟩ := list_eq_valid_iff.mp h
  rw [rawElements, hitems]
  exact hvalues

/-- A value that counts as nothing lists nothing. -/
theorem rawElements_orEmpty (value : Value) :
    rawElements knots (orEmpty (.list []) value) = rawElements knots value := by
  unfold orEmpty
  split
  case isTrue hempty =>
    cases value with
    | list items =>
      obtain rfl : items = [] := by simpa [Value.isEmpty] using hempty
      rfl
    | set members =>
      obtain rfl : members = [] := by simpa [Value.isEmpty] using hempty
      rfl
    | pair _ _ => contradiction
    | knot _ => contradiction
    | _ => rfl
  case isFalse => rfl

theorem rawEntries_orEmpty (value : Value) :
    rawEntries knots (orEmpty (.map []) value) = rawEntries knots value := by
  unfold orEmpty
  split
  case isTrue hempty =>
    cases value with
    | map entries =>
      obtain rfl : entries = [] := by simpa [Value.isEmpty] using hempty
      rfl
    | knot _ => contradiction
    | _ => rfl
  case isFalse => rfl

theorem map_ownParameters {entries : List (Value × Value)} {parameters : List Parameter}
    (h : parametersField.read entries [] (list knots (parameter knots)) = .valid parameters) :
    (ownParameters knots entries).map (parameter knots) = parameters.map .valid := by
  unfold Field.read at h
  unfold ownParameters
  split at h
  case h_1 hnone =>
    obtain rfl := Checked.valid.inj h
    rw [hnone]
    rfl
  case h_2 name value hsome =>
    rw [hsome]
    exact rawElements_of_list (Checked.under_eq_valid_iff.mp h)

theorem map_filter_eq_map_valid {α : Type} {read : Value → Checked α} {keeps : Value → Bool}
    {takes : α → Bool} {items : List Value} {values : List α}
    (h : items.map read = values.map .valid)
    (hkeeps : ∀ item value, read item = .valid value → keeps item = takes value) :
    (items.filter keeps).map read = (values.filter takes).map .valid := by
  induction items generalizing values with
  | nil =>
    obtain rfl : values = [] := by simpa using h.symm
    rfl
  | cons item items ih =>
    cases values with
    | nil => simp at h
    | cons value values =>
      simp only [List.map_cons, List.cons.injEq] at h
      have hhead := hkeeps item value h.1
      simp only [List.filter_cons, hhead]
      split
      · rw [List.map_cons, List.map_cons, h.1, ih h.2]
      · exact ih h.2

/-- Raw parameters have the keys that they have once they are read. -/
theorem map_boundKey?_eq {raws : List Value} {parameters : List Parameter}
    (h : raws.map (parameter knots) = parameters.map .valid) :
    raws.map (boundKey? knots) = parameters.map (some ·.key) := by
  have hkey : boundKey? knots = (fun result : Checked Parameter =>
      match result with
      | .valid parameter => some parameter.key
      | _ => none) ∘ parameter knots := rfl
  rw [hkey, ← List.map_map, h, List.map_map]
  rfl

/-- The inherited parameters are those that merging the read ones puts in front. -/
theorem map_inheritedParameters {shared own : List Value} {sharedRead : List Parameter}
    {operation : Operation} (hshared : shared.map (parameter knots) = sharedRead.map .valid)
    (hown : own.map (parameter knots) = operation.parameters.map .valid) :
    (inheritedParameters knots shared own).map (parameter knots) =
      (sharedRead.filter fun parameter => !operation.declares parameter.key).map .valid := by
  apply map_filter_eq_map_valid hshared
  intro raw read hread
  have hkeys := map_boundKey?_eq hown
  have hraw : boundKey? knots raw = some read.key := by rw [boundKey?, hread]
  have hany : (own.any fun other => boundKey? knots other == boundKey? knots raw) =
      operation.declares read.key := by
    rw [hraw, Operation.declares, ← Function.comp_def (· == some read.key) (boundKey? knots),
      ← List.any_map, hkeys, List.any_map]
    rfl
  rw [hany]

/-- An operation that lists all its parameters itself is read as the one with the shared parameters
merged in. -/
theorem operation_inlineOperation {shared : List Value} {sharedRead : List Parameter} {value : Value}
    {own : Operation} (hshared : shared.map (parameter knots) = sharedRead.map .valid)
    (hown : operation knots (orEmpty (.map []) value) = .valid own) :
    operation knots (inlineOperation knots shared value) = .valid (own.withShared sharedRead) := by
  obtain ⟨entries, hentries, hid, hsummary, htags, hparameters, hresponses⟩ :=
    operation_eq_valid_iff.mp hown
  have hraw : rawEntries knots value = entries := by
    rw [← rawEntries_orEmpty, rawEntries, hentries]
  have hlisted := map_ownParameters hparameters
  -- All fields but the parameters are read as before.
  have hfield : ∀ (field : Field) (parameters : List Value),
      (∀ name ∈ field.names, Text.lower name ≠ Text.lower "parameters") →
        field.find? (withParameters parameters entries) = field.find? entries := by
    intro field parameters hne
    apply Field.find?_eq_of_findSome?_eq
    exact fun name hname => findSome?_withParameters parameters entries (hne name hname)
  rw [operation_eq_valid_iff]
  refine ⟨_, rfl, ?_, ?_, ?_, ?_, ?_⟩
  · rw [hraw, Field.read, hfield _ _ (by decide)]
    exact hid
  · rw [hraw, Field.read, hfield _ _ (by decide)]
    exact hsummary
  · rw [hraw, Field.read, hfield _ _ (by decide)]
    exact htags
  · -- The list that was written is found, and read piece by piece.
    have hfound : Field.find? ⟨"parameters", none⟩ (withParameters
        (inheritedParameters knots shared (ownParameters knots entries) ++
          ownParameters knots entries) entries) = _ := find?_withParameters _ entries
    rw [hraw, Field.read, hfound]
    apply Checked.under_eq_valid_iff.mpr
    rw [list_eq_valid_iff]
    refine ⟨_, rfl, ?_⟩
    rw [List.map_append, map_inheritedParameters hshared hlisted, hlisted, ← List.map_append]
    rfl
  · rw [hraw, Field.read, hfield _ _ (by decide)]
    exact hresponses

/-! ## Paths -/

theorem firstNamed_filter (entries : List (Value × Value)) :
    firstNamed "parameters" (entries.filter (Spells "parameters" ·.1)) =
      firstNamed "parameters" entries := by
  induction entries with
  | nil => rfl
  | cons entry entries ih =>
    by_cases hspells : Spells "parameters" entry.1
    · rw [List.filter_cons_of_pos (by simpa using hspells), firstNamed_cons, firstNamed_cons]
      simp only [hspells, if_true]
    · rw [List.filter_cons_of_neg (by simpa using hspells), firstNamed_cons, if_neg hspells, ih]

/-- The operations of a path are read as before, one after the other. -/
theorem filterMap_operation_inline {shared : List Value} {sharedRead : List Parameter}
    (hshared : shared.map (parameter knots) = sharedRead.map .valid) {entries : List (Value × Value)}
    {operations : List (Text × Operation)}
    (h : (entries.filterMap fun (key, value) =>
        (methodKey? key).map fun method =>
          (operation knots (orEmpty (.map []) value)).map fun own =>
            (method, own.withShared sharedRead)) = operations.map .valid) :
    ((inlineOperations knots shared entries).filterMap fun (key, value) =>
        (methodKey? key).map fun method =>
          (operation knots (orEmpty (.map []) value)).map fun own =>
            (method, own.withShared [])) = operations.map .valid := by
  induction entries generalizing operations with
  | nil => exact h
  | cons entry entries ih =>
    obtain ⟨key, value⟩ := entry
    cases hmethod : methodKey? key with
    | none =>
      -- No operation is read here, whether the entry is kept or is the dropped list.
      simp only [List.filterMap_cons, hmethod, Option.map_none] at h
      by_cases hspells : Spells "parameters" key
      · rw [inlineOperations, List.filter_cons_of_neg (by simpa using hspells)]
        exact ih h
      · rw [inlineOperations, List.filter_cons_of_pos (by simpa using hspells)]
        simp only [List.map_cons, List.filterMap_cons, hmethod, Option.map_none]
        exact ih h
    | some method =>
      -- The key of an operation is not that of the list, so the operation is kept.
      rw [inlineOperations,
        List.filter_cons_of_pos (by simpa using not_spells_of_methodKey? hmethod)]
      simp only [List.filterMap_cons, List.map_cons, hmethod, Option.map_some, Option.isSome_some,
        if_true] at h ⊢
      cases operations with
      | nil => simp at h
      | cons first operations =>
        simp only [List.map_cons, List.cons.injEq, Checked.map_eq_valid_iff] at h ⊢
        obtain ⟨⟨own, hown, hfirst⟩, hrest⟩ := h
        refine ⟨⟨own.withShared sharedRead, ?_, ?_⟩, ih hrest⟩
        · have hread := operation_inlineOperation hshared hown
          rwa [inlineOperation, ← orEmpty_map] at hread
        · rw [Operation.withShared_nil, hfirst]

theorem pathOperations_inline {entries : List (Value × Value)} {operations : List (Text × Operation)}
    (h : pathOperations knots entries = .valid operations) :
    pathOperations knots
      (inlineOperations knots (rawElements knots (firstNamed "parameters" entries)) entries) =
        .valid operations := by
  unfold pathOperations at h ⊢
  obtain ⟨sharedRead, hshared, hoperations⟩ := Checked.andThen_eq_valid_iff.mp h
  rw [Checked.upToFirst_eq_valid_iff] at hoperations
  -- The list that was in effect was valid, so each of its elements was read.
  have hlisted := rawElements_of_list hshared
  rw [rawElements_orEmpty] at hlisted
  rw [Checked.andThen_eq_valid_iff]
  refine ⟨[], ?_, ?_⟩
  · -- No shared parameters are left.
    rw [sharedParameters, firstNamed_eq_null_of_unspelled]
    · rfl
    · intro entry hmem hspells
      obtain ⟨own, hown, rfl⟩ := List.mem_map.mp hmem
      exact absurd hspells (by simpa using (List.mem_filter.mp hown).2)
  · rw [Checked.upToFirst_eq_valid_iff]
    exact filterMap_operation_inline hlisted hoperations

theorem pathItem?_inlinePath {value : Value} {item : Option (List (Text × Operation))}
    (h : pathItem? knots value = .valid item) :
    pathItem? knots (inlinePath knots value) = .valid item := by
  unfold inlinePath
  split
  case h_1 entries hentries =>
    simp only [pathItem?, hentries, Checked.map_eq_valid_iff] at h
    obtain ⟨operations, hoperations, rfl⟩ := h
    exact Checked.map_eq_valid_iff.mpr ⟨operations, pathOperations_inline hoperations, rfl⟩
  case h_2 => exact h

theorem map_pathItem?_inlinePath {entries : List (Value × Value)}
    {items : List (Option (List (Text × Operation)))}
    (h : entries.map (fun entry => pathItem? knots entry.2) = items.map .valid) :
    entries.map (fun entry => pathItem? knots (inlinePath knots entry.2)) = items.map .valid := by
  induction entries generalizing items with
  | nil => exact h
  | cons entry entries ih =>
    cases items with
    | nil => simp at h
    | cons item items =>
      simp only [List.map_cons, List.cons.injEq] at h ⊢
      exact ⟨pathItem?_inlinePath h.1, ih h.2⟩

theorem paths_inlinePaths {value : Value} {result : List (Text × List (Text × Operation))}
    (h : paths knots value = .valid result) : paths knots (inlinePaths knots value) = .valid result := by
  unfold inlinePaths
  split
  case h_1 entries hentries =>
    simp only [paths, hentries, Checked.andThen_eq_valid_iff, Checked.settled_eq_valid_iff,
      Checked.upToFirst_eq_valid_iff] at h
    obtain ⟨items, hitems, hresult⟩ := h
    simp only [paths, Knots.content, Checked.andThen_eq_valid_iff, Checked.settled_eq_valid_iff,
      Checked.upToFirst_eq_valid_iff, List.map_map]
    refine ⟨items, map_pathItem?_inlinePath hitems, ?_⟩
    -- Beside its item only the key of a path is looked at.
    rw [List.zip_map_left, List.map_map]
    exact hresult
  case h_2 => exact h

end

/-! ## Documents -/

theorem inlinePaths_eq_null_iff (knots : Knots) (value : Value) :
    inlinePaths knots value = .null ↔ value = .null := by
  unfold inlinePaths
  split
  case h_1 entries hentries =>
    constructor
    · exact fun h => absurd h Value.noConfusion
    · rintro rfl
      exact absurd hentries Value.noConfusion
  case h_2 => rfl

theorem entryNamed?_inlineEntry (knots : Knots) {name : String} (entry : Value × Value)
    (hne : Text.lower name ≠ Text.lower "paths") :
    entryNamed? name (inlineEntry knots entry) = entryNamed? name entry := by
  by_cases hspells : Spells "paths" entry.1
  · rw [entryNamed?_eq_none_of_spells hne hspells]
    exact entryNamed?_eq_none_of_spells hne hspells
  · simp only [inlineEntry, hspells, if_false]

theorem entryNamed?_paths_inlineEntry (knots : Knots) (entry : Value × Value) :
    entryNamed? "paths" (inlineEntry knots entry) =
      (entryNamed? "paths" entry).map (inlinePaths knots) := by
  by_cases hspells : Spells "paths" entry.1
  · have hinline : inlineEntry knots entry = (entry.1, inlinePaths knots entry.2) := by
      simp only [inlineEntry, hspells, if_true]
    rw [hinline]
    by_cases hnull : entry.2 = .null
    · -- An entry with a null value is passed over before and after.
      have hafter := (inlinePaths_eq_null_iff knots entry.2).mpr hnull
      rw [entryNamed?_eq_none_iff.mpr fun _ => hnull, entryNamed?_eq_none_iff.mpr fun _ => hafter]
      rfl
    · have hafter := mt (inlinePaths_eq_null_iff knots entry.2).mp hnull
      have hbefore : entryNamed? "paths" entry = some entry.2 :=
        entryNamed?_eq_some_iff.mpr ⟨hspells, rfl, hnull⟩
      rw [hbefore]
      exact entryNamed?_eq_some_iff.mpr ⟨hspells, rfl, hafter⟩
  · have hother : inlineEntry knots entry = entry := by
      simp only [inlineEntry, hspells, if_false]
    rw [hother, entryNamed?_eq_none_iff.mpr fun h => absurd h hspells]
    rfl

theorem findSome?_inlineEntry (knots : Knots) {name : String} (entries : List (Value × Value))
    (hne : Text.lower name ≠ Text.lower "paths") :
    (entries.map (inlineEntry knots)).findSome? (entryNamed? name) =
      entries.findSome? (entryNamed? name) := by
  rw [List.findSome?_map]
  congr 1
  funext entry
  exact entryNamed?_inlineEntry knots entry hne

theorem findSome?_paths_inlineEntry (knots : Knots) (entries : List (Value × Value)) :
    (entries.map (inlineEntry knots)).findSome? (entryNamed? "paths") =
      (entries.findSome? (entryNamed? "paths")).map (inlinePaths knots) := by
  rw [List.findSome?_map, List.map_findSome?]
  congr 1
  funext entry
  exact entryNamed?_paths_inlineEntry knots entry

/-- The paths of a document are found where they were, and read as before. -/
theorem read_paths_inlineEntry {knots : Knots} {entries : List (Value × Value)}
    {result : List (Text × List (Text × Operation))}
    (h : Field.read ⟨"paths", none⟩ entries [] (paths knots) = .valid result) :
    Field.read ⟨"paths", none⟩ (entries.map (inlineEntry knots)) [] (paths knots) =
      .valid result := by
  simp only [Field.read, Field.find?, Option.bind_none, Option.none_or,
    findSome?_paths_inlineEntry] at h ⊢
  cases hfound : entries.findSome? (entryNamed? "paths") with
  | none =>
    rw [hfound] at h
    exact h
  | some value =>
    rw [hfound] at h
    exact Checked.under_eq_valid_iff.mpr (paths_inlinePaths (Checked.under_eq_valid_iff.mp h))

theorem specification_inlineDocument {document : Document} {result : Specification}
    (h : specification document = .valid result) :
    specification (inlineDocument document) = .valid result := by
  obtain ⟨entries, hentries, hopenapi, hinfo, hpaths, hcomponents⟩ :=
    specification_eq_valid_iff.mp h
  have hfield : ∀ field : Field, (∀ name ∈ field.names, Text.lower name ≠ Text.lower "paths") →
      field.find? (entries.map (inlineEntry document.knots)) = field.find? entries := by
    intro field hne
    apply Field.find?_eq_of_findSome?_eq
    exact fun name hname => findSome?_inlineEntry document.knots entries (hne name hname)
  have hdocument : inlineDocument document =
      { document with root := .map (entries.map (inlineEntry document.knots)) } := by
    rw [inlineDocument, hentries]
  rw [hdocument, specification_eq_valid_iff]
  refine ⟨_, rfl, ?_, ?_, read_paths_inlineEntry hpaths, ?_⟩
  · rw [Field.read, hfield _ (by decide)]
    exact hopenapi
  · rw [Field.read, hfield _ (by decide)]
    exact hinfo
  · rw [Field.read, hfield _ (by decide)]
    exact hcomponents

/-- **Shared parameters can be inlined.** When a document is accepted, so is the one in which no path
lists parameters and each operation lists those that it inherited in front of its own, and both have
the same specification. What is generated from them is the same, then. -/
theorem bindDocument_inlineDocument {document : Document} {result : Specification}
    (h : bindDocument document = .ok result) :
    bindDocument (inlineDocument document) = .ok result ∧
      ∀ other, bindDocument (inlineDocument document) = .ok other →
        ∀ givenName, Client.generate other givenName = Client.generate result givenName := by
  have hinline : bindDocument (inlineDocument document) = .ok result :=
    bindDocument_eq_ok_iff.mpr (specification_inlineDocument (bindDocument_eq_ok_iff.mp h))
  refine ⟨hinline, ?_⟩
  intro other hother givenName
  rw [hinline] at hother
  rw [Except.ok.inj hother]

/-- A path with two shared parameters and two operations: one overrides the second of them, the other
is given as a null value. -/
theorem bindDocument_inlineDocument_pets :
    let shared : List Value :=
      [.map [(.text "name", .text "petId"), (.text "in", .text "path")],
       .map [(.text "NAME", .text "limit"), (.text "in", .text "query")]]
    let own : Value := .map
      [(.text "name", .text "limit"), (.text "In", .text "query"), (.text "required", .bool true)]
    let document : Document :=
      { root := .map [(.text "Paths", .map [(.text "/pets/\x7bpetId\x7d", .map
          [(.text "Parameters", .list shared), (.text "get", .null),
           (.text "POST", .map
             [(.text "operationId", .text "addPet"), (.text "PARAMETERS", .list [own])])])])] }
    let inlined : Document :=
      { root := .map [(.text "Paths", .map [(.text "/pets/\x7bpetId\x7d", .map
          [(.text "get", .map [(.text "parameters", .list shared)]),
           (.text "POST", .map
             [(.text "operationId", .text "addPet"),
              (.text "parameters", .list (shared.take 1 ++ [own]))])])])] }
    ∃ result, bindDocument document = .ok result ∧ inlineDocument document = inlined ∧
      bindDocument inlined = .ok result := by
  intro shared own document inlined
  have h : ∃ result, bindDocument document = .ok result := ⟨_, rfl⟩
  obtain ⟨result, h⟩ := h
  exact ⟨result, h, rfl, (bindDocument_inlineDocument h).1⟩

end OpenApiClient.Binding
