import OpenApiClient.Input
import OpenApiClient.Proofs.Binding.Fields

/-!
# Reading Canonical Documents

A document and its canonical forms are read alike: they give the same specification, or the same
issues in the same order. So unknown keys, keys that are no text, null values, letter case and the
order of keys in the parts of a document never matter.

## Layers

- **Containers**: lists and mappings of parts.
- **Schemas**: by induction on how many schemas may still be nested.
- **Parts**: each part respects canonical forms when the readers of its fields do.
- **Paths**: the reader that stops at the first faulty operation.
- **Main statement**: `bindDocument_canonical`.
-/

namespace OpenApiClient.Binding

open OpenApiClient.Document

/-! ## Containers -/

section

variable {α : Type} {knots : Knots} {position : Position} {element : Value → Checked α}

theorem map_zipIdx_eachItem {items items' : List Value}
    (h : EachItem Canonical (itemsAt position items) items') (helement : Respects position element)
    (first : Nat) :
    (items'.zipIdx first).map (fun (item, index) =>
        (element item).under (.index (Int.ofNat index))) =
      (items.zipIdx first).map fun (item, index) =>
        (element item).under (.index (Int.ofNat index)) := by
  induction items generalizing items' first with
  | nil =>
    cases h
    rfl
  | cons item items ih =>
    cases h with
    | cons hitem hitems =>
      rw [List.zipIdx_cons, List.zipIdx_cons, List.map_cons, List.map_cons, ih hitems]
      dsimp only
      rw [helement _ _ hitem]

/-- Lists of parts are read alike. -/
theorem respects_list {part : Part} (helement : Respects (.part part) element) :
    Respects (.list part) (list knots element) := by
  intro value value' h
  cases h with
  | other => rfl
  | list hitems =>
    simp only [list, Knots.content, elements?]
    rw [map_zipIdx_eachItem hitems helement]

theorem map_eachEntry {β : Type} {place : Value → Position} {entries entries' : List (Value × Value)}
    (h : EachEntry Canonical (entriesAt place entries) entries') {f : Value × Value → β}
    (hf : ∀ key value value', Canonical (place key) value value' →
      f (key, value') = f (key, value)) :
    entries'.map f = entries.map f := by
  induction entries generalizing entries' with
  | nil =>
    cases h
    rfl
  | cons entry entries ih =>
    cases h with
    | cons hvalue hentries => rw [List.map_cons, List.map_cons, ih hentries, hf _ _ _ hvalue]

/-- Mappings to parts are read alike. -/
theorem respects_mapping {part : Part} (helement : Respects (.part part) element) :
    Respects (.mapping part) (mapping knots element) := by
  intro value value' h
  cases h with
  | other => rfl
  | mapping hentries =>
    simp only [mapping, Knots.content]
    rw [map_eachEntry hentries fun key value value' hvalue => by rw [helement value value' hvalue]]

theorem map_zip_eachEntry {β γ : Type} {place : Value → Position}
    {entries entries' : List (Value × Value)}
    (h : EachEntry Canonical (entriesAt place entries) entries') {f : (Value × Value) × β → γ}
    (hf : ∀ key value value' item, f ((key, value'), item) = f ((key, value), item))
    (items : List β) : (entries'.zip items).map f = (entries.zip items).map f := by
  induction entries generalizing entries' items with
  | nil =>
    cases h
    rfl
  | cons entry entries ih =>
    cases h with
    | cons hvalue hentries =>
      cases items with
      | nil => rfl
      | cons item items =>
        rw [List.zip_cons_cons, List.zip_cons_cons, List.map_cons, List.map_cons, ih hentries]
        exact congrArg (· :: _) (hf _ _ _ item)

/-- A part is read alike when its reader takes from the entries only what its fields give. -/
theorem respects_part {target : Part} {name : String} {reader : List (Value × Value) → Checked α}
    (hreader : ∀ entries result, KeptOf target entries result → reader result = reader entries) :
    Respects (.part target) (part knots name reader) := by
  intro value value' h
  cases h with
  | other => rfl
  | part hkept hperm => exact hreader _ _ ⟨_, hkept, hperm⟩

end

/-! ## Schemas -/

/-- A schema in its canonical form is read alike, however many schemas may be nested in it. -/
theorem respects_schema (knots : Knots) (nesting : Nat) (active : List Nat) :
    Respects (.part .schema) (schema knots nesting active) := by
  induction nesting generalizing active with
  | zero =>
    intro value value' h
    cases h <;> rfl
  | succ nesting ih =>
    intro value value' h
    cases h with
    | other => rfl
    | @part _ entries kept result hkept hperm =>
      -- A mapping is no knot, so both are read with the same knots active.
      have h : KeptOf .schema entries result := ⟨kept, hkept, hperm⟩
      simp only [schema, isActive, activate, part, Knots.content]
      rw [h.read? (by simp [fields]) (respects_data text),
        h.read? (by simp [fields]) (respects_data text),
        h.read (by simp [fields]) (respects_data _),
        h.read? (by simp [fields]) (respects_data text),
        h.read? (by simp [fields]) (ih active),
        h.read (by simp [fields]) (respects_mapping (ih active)),
        h.read (by simp [fields]) (respects_data _)]
      rfl

theorem respects_nestedSchema (knots : Knots) :
    Respects (.part .schema) (nestedSchema knots) :=
  respects_schema knots maxNesting []

/-! ## Parts -/

theorem respects_parameter (knots : Knots) : Respects (.part .parameter) (parameter knots) := by
  apply respects_part
  intro entries result h
  rw [h.read (by simp [fields]) (respects_data text),
    h.read (by simp [fields]) (respects_data text),
    h.read (by simp [fields]) (respects_data boolean),
    h.read (by simp [fields]) (respects_nestedSchema knots)]

theorem respects_mediaType (knots : Knots) : Respects (.part .mediaType) (mediaType knots) := by
  apply respects_part
  intro entries result h
  rw [h.read (by simp [fields]) (respects_nestedSchema knots)]

theorem respects_response (knots : Knots) : Respects (.part .response) (response knots) := by
  apply respects_part
  intro entries result h
  rw [h.read (by simp [fields]) (respects_data text),
    h.read? (by simp [fields]) (respects_mapping (respects_mediaType knots))]

theorem respects_operation (knots : Knots) : Respects (.part .operation) (operation knots) := by
  apply respects_part
  intro entries result h
  rw [h.read (by simp [fields]) (respects_data text),
    h.read (by simp [fields]) (respects_data text),
    h.read (by simp [fields]) (respects_data _),
    h.read (by simp [fields]) (respects_list (respects_parameter knots)),
    h.read (by simp [fields]) (respects_mapping (respects_response knots))]

theorem respects_info (knots : Knots) : Respects (.part .info) (info knots) := by
  apply respects_part
  intro entries result h
  rw [h.read (by simp [fields]) (respects_data text),
    h.read (by simp [fields]) (respects_data text)]

theorem respects_components (knots : Knots) : Respects (.part .components) (components knots) := by
  apply respects_part
  intro entries result h
  rw [h.read (by simp [fields]) (respects_mapping (respects_nestedSchema knots))]

/-! ## Paths -/

/-- The value that a path has under a name; both spellings of a path have the same keys. -/
theorem firstNamed_eachEntry {entries entries' : List (Value × Value)}
    (h : EachEntry Canonical (entriesAt pathItemPosition entries) entries') :
    Canonical (.list .parameter) (firstNamed "parameters" entries)
      (firstNamed "parameters" entries') := by
  induction entries generalizing entries' with
  | nil =>
    cases h
    exact .other rfl
  | cons entry entries ih =>
    cases h with
    | @cons _ key value value' _ rest hvalue hentries =>
      -- The entry that is found holds parameters, because their name is that of no method.
      have hmethod : Text.ofString "parameters" ∉ httpMethods := by decide
      cases key with
      | text key =>
        by_cases hname : Text.lower key = Text.ofString "parameters"
        · have hposition : pathItemPosition (.text key) = .list .parameter := by
            rw [pathItemPosition, hname, if_neg hmethod, if_pos rfl]
          rw [hposition] at hvalue
          simpa [firstNamed, hname] using hvalue
        · simpa [firstNamed, hname] using ih hentries
      | _ => simpa [firstNamed] using ih hentries

@[simp] theorem orEmpty_list (items : List Value) : orEmpty (.list []) (.list items) = .list items := by
  cases items <;> rfl

@[simp] theorem orEmpty_map (entries : List (Value × Value)) :
    orEmpty (.map []) (.map entries) = .map entries := by
  cases entries <;> rfl

/-- A list of parameters is read alike, also where an empty value stands for no parameters. -/
theorem respects_orEmpty_list (knots : Knots) :
    Respects (.list .parameter)
      (fun value => list knots (parameter knots) (orEmpty (.list []) value)) := by
  intro value value' h
  cases h with
  | other => rfl
  | list hitems =>
    simp only [orEmpty_list]
    exact respects_list (respects_parameter knots) _ _ (.list hitems)

/-- An operation is read alike, also where an empty value stands for one without fields. -/
theorem respects_orEmpty_map (knots : Knots) :
    Respects (.part .operation) (fun value => operation knots (orEmpty (.map []) value)) := by
  intro value value' h
  cases h with
  | other => rfl
  | part hkept hperm =>
    simp only [orEmpty_map]
    exact respects_operation knots _ _ (.part hkept hperm)

theorem sharedParameters_eachEntry (knots : Knots) {entries entries' : List (Value × Value)}
    (h : EachEntry Canonical (entriesAt pathItemPosition entries) entries') :
    sharedParameters knots entries' = sharedParameters knots entries :=
  respects_orEmpty_list knots _ _ (firstNamed_eachEntry h)

theorem filterMap_eachEntry {β : Type} {place : Value → Position}
    {entries entries' : List (Value × Value)}
    (h : EachEntry Canonical (entriesAt place entries) entries') {f : Value × Value → Option β}
    (hf : ∀ key value value', Canonical (place key) value value' →
      f (key, value') = f (key, value)) :
    entries'.filterMap f = entries.filterMap f := by
  have hmap : ∀ entries : List (Value × Value),
      entries.filterMap f = (entries.map f).filterMap id := by
    intro entries
    rw [List.filterMap_map]
    rfl
  rw [hmap, hmap, map_eachEntry h hf]

/-- The keys of a path that name methods hold operations. -/
theorem pathItemPosition_of_methodKey? {key : Value} {method : Text}
    (h : methodKey? key = some method) : pathItemPosition key = .part .operation := by
  cases key with
  | text key =>
    unfold methodKey? at h
    dsimp only at h
    split at h
    case isTrue hmethod => exact if_pos (by simpa using hmethod)
    case isFalse => contradiction
  | _ => contradiction

theorem respects_pathItem? (knots : Knots) : Respects .pathItem (pathItem? knots) := by
  intro value value' h
  cases h with
  | other => rfl
  | @pathItem entries entries' hentries =>
    simp only [pathItem?, Knots.content, pathOperations]
    rw [sharedParameters_eachEntry knots hentries]
    congr 2
    funext shared
    -- Only entries under methods are read, and those are operations.
    rw [filterMap_eachEntry hentries]
    intro key value value' hvalue
    cases hmethod : methodKey? key with
    | none => rfl
    | some method =>
      rw [pathItemPosition_of_methodKey? hmethod] at hvalue
      have hoperation : operation knots (orEmpty (.map []) value') =
          operation knots (orEmpty (.map []) value) :=
        respects_orEmpty_map knots value value' hvalue
      rw [hoperation]

/-- Paths are read alike: their items are, and their keys are the same. -/
theorem respects_paths (knots : Knots) : Respects .paths (paths knots) := by
  intro value value' h
  cases h with
  | other => rfl
  | @paths entries entries' hentries =>
    simp only [paths, Knots.content]
    rw [map_eachEntry hentries ?_]
    · congr 1
      funext items
      congr 2
      -- Beside its item only the key of a path is looked at.
      exact map_zip_eachEntry hentries (fun key value value' item => rfl) items
    · exact fun key value value' hvalue => respects_pathItem? knots value value' hvalue

/-! ## Documents -/

theorem specification_canonical (document : Document) {root : Value}
    (h : Canonical (.part .specification) document.root root) :
    specification { document with root := root } = specification document := by
  unfold specification
  refine respects_part (fun entries result hkept => ?_) document.root root h
  rw [hkept.read (by simp [fields]) (respects_data text),
    hkept.read (by simp [fields]) (respects_info document.knots),
    hkept.read (by simp [fields]) (respects_paths document.knots),
    hkept.read (by simp [fields]) (respects_components document.knots)]

/-- **Binding factors through canonical documents.** Every document has canonical forms, and binding
it gives what binding any of them gives: the same specification, or the same issues, each with its
place and kind, in the same order. -/
theorem bindDocument_canonical (document : Document) :
    (∃ root, Canonical (.part .specification) document.root root) ∧
      ∀ root, Canonical (.part .specification) document.root root →
        bindDocument { document with root := root } = bindDocument document := by
  constructor
  · exact exists_canonical document.root (.part .specification)
  · intro root h
    unfold bindDocument
    rw [specification_canonical document h]

/-- A document in odd spellings, with unknown keys and null values, and a canonical form of it. -/
theorem bindDocument_canonical_pets :
    let parameter : List (Value × Value) :=
      [(.text "location", .text "path"), (.text "NAME", .text "limit"), (.text "In", .text "query")]
    let operation : List (Value × Value) :=
      [(.text "operation_id", .text "other"), (.text "OPERATIONID", .text "listPets"),
       (.int 7, .bool true)]
    let item : List (Value × Value) :=
      [(.text "Parameters", .list [.map parameter]), (.text "GET", .map operation)]
    let document : Document :=
      { root := .map
          [(.text "OpenAPI", .null), (.text "PATHS", .map [(.text "/pets", .map item)]),
           (.text "x-note", .map [(.text "openapi", .text "1")]), (.text "openApi", .text "3.0.0")] }
    let root : Value := .map
      [(.text "paths", .map
          [(.text "/pets", .map
              [(.text "Parameters", .list
                  [.map [(.text "name", .text "limit"), (.text "in", .text "query")]]),
               (.text "GET", .map [(.text "operationId", .text "listPets")])])]),
       (.text "openapi", .text "3.0.0")]
    Canonical (.part .specification) document.root root ∧
      bindDocument { document with root := root } = bindDocument document := by
  intro parameter operation item document root
  have hmissing : ∀ {field : Field} {entries : List (Value × Value)},
      field.find? entries = none → field.IsMissing entries := Field.find?_eq_none_iff.mp
  have hgiven : ∀ {field : Field} {entries : List (Value × Value)} {name : String} {value : Value},
      field.find? entries = some (name, value) → field.Gives entries name value :=
    Field.find?_eq_some_iff.mp
  have hparameter : Canonical (.part .parameter) (.map parameter)
      (.map [(.text "name", .text "limit"), (.text "in", .text "query")]) := by
    refine .part ?_ (.refl _)
    refine .given (hgiven rfl) (.other rfl) (.given (hgiven rfl) (.other rfl) ?_)
    exact .missing (hmissing rfl) (.missing (hmissing rfl) .nil)
  have hoperation : Canonical (.part .operation) (.map operation)
      (.map [(.text "operationId", .text "listPets")]) := by
    refine .part ?_ (.refl _)
    refine .given (hgiven rfl) (.other rfl) (.missing (hmissing rfl) ?_)
    exact .missing (hmissing rfl) (.missing (hmissing rfl) (.missing (hmissing rfl) .nil))
  have hpaths : Canonical .paths (.map [(.text "/pets", .map item)]) (.map
      [(.text "/pets", .map
          [(.text "Parameters", .list
              [.map [(.text "name", .text "limit"), (.text "in", .text "query")]]),
           (.text "GET", .map [(.text "operationId", .text "listPets")])])]) :=
    .paths (.cons (.pathItem (.cons (.list (.cons hparameter .nil)) (.cons hoperation .nil))) .nil)
  have hroot : Canonical (.part .specification) document.root root := by
    refine .part ?_ (.swap _ _ _)
    refine .given (hgiven rfl) (.other rfl) (.missing (hmissing rfl) ?_)
    exact .given (hgiven rfl) hpaths (.missing (hmissing rfl) .nil)
  exact ⟨hroot, (bindDocument_canonical document).2 root hroot⟩

end OpenApiClient.Binding
