import OpenApiClient.Proofs.Binding.Keys
import OpenApiClient.Proofs.Generation.Identifiers

/-!
# Declared Names

A generated source declares an interface for each named schema, the interface of the client's options,
and the client class. Their names come from three sides: from the schemas, from a fixed word, and from
the title or a given name. Nothing compares them, so two declarations can have one name.

## Layers

- **Names**: `Declaration.name`, and the names that a client's file declares.
- **The class name**: when it is that of the options (`clientName_eq_optionsName_iff`).
- **Main statement**: `declaredNames_nodup_iff`, refuted without its condition for a schema that is named
  like the class.
-/

namespace OpenApiClient.TypeScript

/-- The name that a declaration introduces. -/
def Declaration.name : Declaration → Text
  | .interface declaration => declaration.name
  | .class declaration => declaration.name

/-- The names that a source file declares at its top level, in order. -/
def SourceFile.declaredNames (file : SourceFile) : List Text :=
  file.declarations.map Declaration.name

end OpenApiClient.TypeScript

namespace OpenApiClient.Client

open OpenApiClient.TypeScript

/-! ## Names -/

/-- The names of the schemas of a specification. -/
def schemaNames (components : Components) : List Text :=
  components.schemas.map (·.1)

theorem declaredNames_clientFile (name : Text) (components : Components)
    (operations : List NamedOperation) :
    (clientFile name components operations).declaredNames =
      schemaNames components ++ [optionsName, name] := by
  unfold SourceFile.declaredNames clientFile componentInterfaces schemaNames
  rw [List.map_append, List.map_map, List.map_map]
  rfl

/-! ## The class name -/

/-- Only a given name makes the class a second declaration of the options: a name that is made from a
title ends in another word. -/
theorem clientName_eq_optionsName_iff (title : Text) (given : Option Text) :
    clientName title given = optionsName ↔ given = some optionsName := by
  cases hgiven : given.filter (!·.isEmpty) with
  | some name =>
    obtain ⟨hname, -⟩ := Option.filter_eq_some_iff.mp hgiven
    rw [clientName_of_given hgiven, hname, Option.some.injEq]
  | none =>
    have hother : given ≠ some optionsName := by
      rintro rfl
      contradiction
    simp only [hother, iff_false]
    intro hname
    rw [clientName_of_not_given hgiven] at hname
    split at hname
    case isTrue => exact absurd hname (by decide)
    case isFalse =>
      have hsuffix : ("Client" : Text) <:+ optionsName := hname ▸ List.suffix_append _ _
      exact absurd hsuffix (by decide)

/-! ## Main statement -/

/-- **Top-level declarations do not clash** exactly if the schemas have distinct names, the class is not
given the name of the options, and no schema is named like the options or the class. The first of these
holds of every specification that was read, as the names of schemas are keys of a mapping. -/
theorem declaredNames_nodup_iff {specification : Specification} {givenName : Option Text}
    {client : GeneratedClient} (h : generate specification givenName = .ok client) :
    let names := schemaNames specification.components
    let file := clientFile client.name specification.components (namedOperations specification)
    client.source = file.text ∧
      (file.declaredNames.Nodup ↔
        names.Nodup ∧ givenName ≠ some optionsName ∧ optionsName ∉ names ∧ client.name ∉ names) := by
  intro names file
  obtain ⟨rfl, -⟩ := generate_eq_ok_iff.mp h
  refine ⟨rfl, ?_⟩
  have hfixed : [optionsName, (clientFor specification givenName).name].Nodup ↔
      givenName ≠ some optionsName := by
    have hname := clientName_eq_optionsName_iff specification.info.title givenName
    simp only [clientFor, List.nodup_cons, List.mem_singleton, List.not_mem_nil, not_false_eq_true,
      List.nodup_nil, and_true, eq_comm (a := optionsName), hname]
  -- The schemas meet the fixed names in two ways.
  have hdisjoint : (∀ name ∈ names, ∀ fixed ∈ [optionsName, (clientFor specification givenName).name],
      name ≠ fixed) ↔
        optionsName ∉ names ∧ (clientFor specification givenName).name ∉ names := by
    simp only [List.mem_cons, List.not_mem_nil, or_false, forall_eq_or_imp, forall_eq]
    constructor
    · intro hne
      exact ⟨fun hmem => (hne _ hmem).1 rfl, fun hmem => (hne _ hmem).2 rfl⟩
    · rintro ⟨hoptions, hname⟩ name hmem
      exact ⟨fun heq => hoptions (heq ▸ hmem), fun heq => hname (heq ▸ hmem)⟩
  rw [declaredNames_clientFile, List.nodup_append, hfixed, hdisjoint]

/-- A document with schemas whose names are like those of the options and of the class, but for their
spelling. -/
theorem declaredNames_nodup_iff_pets :
    let document : Document :=
      { root := .map
          [(.text "info", .map [(.text "title", .text "Pet")]),
           (.text "components", .map [(.text "schemas", .map
             [(.text "Pet", .map []), (.text "clientOptions", .map []),
              (.text "PetOptions", .map []), (.text "Client", .map [])])])] }
    let specification : Specification :=
      { info := { title := "Pet" }
        components := ⟨[("Pet", {}), ("clientOptions", {}), ("PetOptions", {}), ("Client", {})]⟩ }
    let client := clientFor specification none
    bindDocument document = .ok specification ∧ generate specification none = .ok client ∧
      client.name = "PetClient" ∧
      (clientFile client.name specification.components
        (namedOperations specification)).declaredNames.Nodup := by
  intro document specification client
  have hread : bindDocument document = .ok specification := rfl
  have h : generate specification none = .ok client := rfl
  refine ⟨hread, h, by decide, (declaredNames_nodup_iff h).2.mpr ?_⟩
  exact ⟨Binding.nodup_schemaNames_of_bindDocument hread, nofun, by decide, by decide⟩

/-- A schema `PetClient` is accepted beside the title `Pet`, and the source then declares an interface and
a class of that name. -/
theorem not_nodup_declaredNames_petClient :
    let specification : Specification :=
      { info := { title := "Pet" }, components := ⟨[("PetClient", {})]⟩ }
    ∃ client, generate specification none = .ok client ∧
      client.source =
        (clientFile client.name specification.components (namedOperations specification)).text ∧
      (schemaNames specification.components).Nodup ∧
      ¬ (clientFile client.name specification.components
        (namedOperations specification)).declaredNames.Nodup := by
  intro specification
  exact ⟨clientFor specification none, rfl, rfl, by decide, by decide⟩

end OpenApiClient.Client
