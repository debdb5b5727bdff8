import OpenApiClient.Proofs.Binding.Outline
import OpenApiClient.Proofs.Generation.Relevance

/-!
# Odd Schemas

What becomes of a document when any value is put in place of one of its schemas. The type of a schema is
read from every value, and every schema has a type, but the other fields of a schema are read as strictly
as the rest of the document. So the new document is accepted exactly when what is read in place of the
schema has the shape of one. If it is, generation fails just as it did before, or not at all.

## Layers

- **Schemas**: the type is the one field of a schema that never matters (`fits_schema_of_find?`).
- **Operations**: documents with the same outline name their operations alike.
- **Main statement**: `bindDocument_replaced_iff`, and a value that is refused in place of a schema.
-/

namespace OpenApiClient.Client

open OpenApiClient.Document
open OpenApiClient.Binding

/-! ## Schemas -/

/-- A mapping that gives no field of a schema but the type has the shape of one, whatever the type is. -/
theorem fits_schema_of_find? {knots : Knots} {nesting : Nat} {entries : List (Value × Value)}
    (h : ∀ entry ∈ shapes .schema, entry.2 ≠ .anything → (entry.1.find? entries).isNone) :
    Fits knots (nesting + 1) [] (.part .schema) (.map entries) := by
  have hlevels : Part.levels .schema = 1 := rfl
  rw [← hlevels, fits_map_iff]
  intro entry hentry name value hgives
  by_cases hanything : entry.2 = .anything
  · rw [hanything]
    exact .anything
  · -- The field would have to be missing.
    have hnone := Option.isNone_iff_eq_none.mp (h entry hentry hanything)
    rw [Field.find?_of_gives hgives] at hnone
    contradiction

/-! ## Operations -/

/-- How operations are called follows from the outline of the paths. -/
theorem map_namedOperations_eq (specification : Specification) :
    (namedOperations specification).map
        (fun named => (named.path, named.method, named.name, named.operation.id)) =
      (outline specification.paths).flatMap fun item =>
        item.2.map fun entry => (item.1, entry.1, camelCase entry.2, entry.2) := by
  simp [namedOperations, outline, callIds, List.map_flatMap, List.flatMap_map, Function.comp_def]

theorem forall₂_sameCall {specification other : Specification}
    (h : outline specification.paths = outline other.paths) :
    List.Forall₂ SameCall (namedOperations specification) (namedOperations other) := by
  have hcalls := map_namedOperations_eq specification
  rw [h, ← map_namedOperations_eq other, ← List.forall₂_eq_eq_eq, List.forall₂_map_left_iff,
    List.forall₂_map_right_iff] at hcalls
  apply hcalls.imp
  intro named named' heq
  simp only [Prod.mk.injEq] at heq
  exact ⟨heq.1, congrArg Text.upper heq.2.1, heq.2.2.1, heq.2.2.2⟩

/-- Generation fails for the same reason, or for none. -/
theorem generate_eq_error_congr {specification other : Specification}
    (h : outline specification.paths = outline other.paths) (givenName : Option Text) (message : Text) :
    (generate other givenName).mapError NamingError.message = .error message ↔
      (generate specification givenName).mapError NamingError.message = .error message := by
  rcases resolveOperations_congr (forall₂_sameCall h) with
    ⟨e, e', he, he', hmessage⟩ | ⟨hok, hok'⟩
  · simp [generate, he, he', Except.mapError, hmessage]
  · simp [generate, hok, hok', Except.mapError]

/-! ## Main statement -/

/-- **Odd schemas are accepted as far as they have the shape of schemas.** When some value is put in place
of a schema of an accepted document, at any depth, then the new document is accepted exactly when what is
read at that place, if anything is, has the shape of a schema. Every schema means the type that it is
given, and generation fails with the same message as before, if it did. -/
theorem bindDocument_replaced_iff {document : Document} {specification : Specification}
    (h : bindDocument document = .ok specification) {v root : Value} {depth : Nat} {now : Option Value}
    (hreplaced : Replaced document.knots v depth (.part .specification) document.root root now) :
    ((∃ other, bindDocument { document with root } = .ok other) ↔
        ∀ value ∈ now, Fits document.knots (maxNesting - depth) [] (.part .schema) value) ∧
      (∀ schema, Means schema (schemaType schema)) ∧
      ∀ other, bindDocument { document with root } = .ok other → ∀ givenName message,
        (generate other givenName).mapError NamingError.message = .error message ↔
          (generate specification givenName).mapError NamingError.message = .error message := by
  have hfits : Fits document.knots maxNesting [] (.part .specification) document.root :=
    exists_bindDocument_iff.mp ⟨specification, h⟩
  refine ⟨?_, means_schemaType, ?_⟩
  · rw [exists_bindDocument_iff]
    exact hreplaced.fits_iff hfits
  · intro other hother givenName message
    exact generate_eq_error_congr (hreplaced.outline_eq h hother) givenName message

/-- A schema with an odd type in place of that of a shared parameter. Both documents are accepted, and the
two operations have conflicting ids in both. -/
theorem bindDocument_replaced_iff_pets :
    let schema : Value := .map [(.text "type", .text "integer")]
    let odd : Value := .map [(.text "TYPE", .bool true), (.text "x-note", .list [.null])]
    let parameter (schema : Value) : Value := .map
      [(.text "name", .text "limit"), (.text "in", .text "query"), (.text "Schema", schema)]
    let operation (id : Text) : Value := .map [(.text "operationId", .text id)]
    let item (schema : Value) : Value := .map
      [(.text "get", operation "listPets"), (.text "parameters", .list [parameter schema]),
       (.text "post", operation "ListPets")]
    let root (schema : Value) : Value := .map [(.text "paths", .map [(.text "/pets", item schema)])]
    ∃ specification other, bindDocument { root := root schema } = .ok specification ∧
      Replaced [] odd 0 (.part .specification) (root schema) (root odd) (some odd) ∧
      bindDocument { root := root odd } = .ok other ∧
      (generate specification none).isOk = false ∧
      ∀ message, (generate other none).mapError NamingError.message = .error message ↔
        (generate specification none).mapError NamingError.message = .error message := by
  intro schema odd parameter operation item root
  obtain ⟨specification, h, hgenerate⟩ : ∃ specification,
      bindDocument { root := root schema } = .ok specification ∧
        (generate specification none).isOk = false := ⟨_, rfl, rfl⟩
  have hspells : Text.lower "Schema" = Text.lower "schema" := by decide
  -- From the schema outwards: its parameter, the list on the path, the path, the paths, the document.
  have hparameter : Replaced [] odd 0 (.part .parameter) (parameter schema) (parameter odd) (some odd) :=
    @Replaced.field [] odd 0 .parameter _ ⟨"schema_def", some "schema"⟩ (.part .schema) "schema"
      [(.text "name", .text "limit"), (.text "in", .text "query")] [] (.text "Schema") schema odd _
      rfl (by simp [shapes]) (.of_find? rfl hspells rfl) .here Value.noConfusion
  have hitem : Replaced [] odd 0 .pathItem (item schema) (item odd) (some odd) :=
    @Replaced.shared [] odd 0 _ [(.text "get", operation "listPets")]
      [(.text "post", operation "ListPets")] (.text "parameters") (.list [parameter schema]) _ _
      rfl rfl (by simp [Spells]; decide) (@Replaced.element [] odd 0 _ _ [] [] _ _ _ rfl hparameter)
  have hreplaced : Replaced [] odd 0 (.part .specification) (root schema) (root odd) (some odd) :=
    @Replaced.field [] odd 0 .specification _ ⟨"paths", none⟩ (.mapping .pathItem) "paths" [] []
      (.text "paths") _ _ _ rfl (by simp [shapes]) (.of_find? rfl rfl rfl)
      (@Replaced.entry [] odd 0 _ _ [] [] (.text "/pets") _ _ _ rfl hitem) Value.noConfusion
  have hfits : ∀ value ∈ some odd, Fits [] (maxNesting - 0) [] (.part .schema) value := by
    intro value hvalue
    obtain rfl := Option.some.inj hvalue
    exact fits_schema_of_find? (by decide)
  have hspec := bindDocument_replaced_iff h hreplaced
  obtain ⟨other, hother⟩ := hspec.1.mpr hfits
  exact ⟨specification, other, h, hreplaced, hother, hgenerate, hspec.2.2 other hother none⟩

/-- The value `true` in place of a property of a schema: the document is refused. -/
theorem not_bindDocument_replaced_true :
    let pet (tag : Value) : Value := .map [(.text "properties", .map [(.text "tag", tag)])]
    let components (tag : Value) : Value := .map [(.text "schemas", .map [(.text "Pet", pet tag)])]
    let root (tag : Value) : Value := .map [(.text "components", components tag)]
    (∃ specification, bindDocument { root := root (.map []) } = .ok specification) ∧
      Replaced [] (.bool true) 1 (.part .specification) (root (.map [])) (root (.bool true))
        (some (.bool true)) ∧
      ¬ ∃ other, bindDocument { root := root (.bool true) } = .ok other := by
  intro pet components root
  have hpet : Replaced [] (.bool true) 1 (.part .schema) (pet (.map [])) (pet (.bool true)) _ :=
    @Replaced.field [] _ 0 .schema _ propertiesField (.mapping (.part .schema)) "properties" [] []
      (.text "properties") _ _ _ rfl (by simp [shapes]) (.of_find? rfl rfl rfl)
      (@Replaced.entry [] _ 0 _ _ [] [] (.text "tag") _ _ _ rfl .here) Value.noConfusion
  have hcomponents : Replaced [] (.bool true) 1 (.part .components) (components (.map []))
      (components (.bool true)) _ :=
    @Replaced.field [] _ 1 .components _ ⟨"schemas", none⟩ (.mapping (.part .schema)) "schemas" [] []
      (.text "schemas") _ _ _ rfl (by simp [shapes]) (.of_find? rfl rfl rfl)
      (@Replaced.entry [] _ 1 _ _ [] [] (.text "Pet") _ _ _ rfl hpet) Value.noConfusion
  have hreplaced : Replaced [] (.bool true) 1 (.part .specification) (root (.map []))
      (root (.bool true)) _ :=
    @Replaced.field [] _ 1 .specification _ ⟨"components", none⟩ (.part .components) "components" [] []
      (.text "components") _ _ _ rfl (by simp [shapes]) (.of_find? rfl rfl rfl) hcomponents
      Value.noConfusion
  obtain ⟨e, hrefused⟩ : ∃ e, bindDocument { root := root (.bool true) } = .error e := ⟨_, rfl⟩
  refine ⟨⟨_, rfl⟩, hreplaced, ?_⟩
  rintro ⟨other, hother⟩
  rw [hrefused] at hother
  contradiction

end OpenApiClient.Client
