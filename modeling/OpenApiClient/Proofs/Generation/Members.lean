import OpenApiClient.Proofs.Generation.Signatures

/-!
# Distinct Members

The properties of a schema have distinct names, as they are keys of a mapping. Its interface declares them
with their first character in lower case, and nothing compares what comes of that. So an interface declares
a member twice where the names of two properties differ in the case of their first character.

## Layers

- **Names**: `Interface.memberNames`, and when those of one interface are distinct
  (`nodup_memberNames_iff`).
- **Main statement**: `interfaceMembers_nodup_iff`, refuted without its condition for the properties `Name`
  and `name`.
-/

namespace OpenApiClient.TypeScript

/-- The names of the members of an interface, in order. -/
def Interface.memberNames (declaration : Interface) : List Text :=
  declaration.members.map (·.name)

end OpenApiClient.TypeScript

namespace OpenApiClient.Client

open OpenApiClient.Document
open OpenApiClient.TypeScript (Interface)

/-! ## Names -/

/-- Whether no two properties of a schema have names that differ in the case of their first character at
most. -/
def TellsPropertiesApart (schema : Schema) : Prop :=
  schema.properties.Pairwise fun property other => ¬ SameButInitial property.1 other.1

theorem memberNames_schemaInterface (name : Text) (schema : Schema) :
    (schemaInterface name schema).memberNames =
      schema.properties.map fun property => camelCase property.1 := by
  rw [Interface.memberNames, schemaInterface, List.map_map]
  rfl

theorem nodup_memberNames_iff (name : Text) (schema : Schema) :
    (schemaInterface name schema).memberNames.Nodup ↔ TellsPropertiesApart schema := by
  rw [memberNames_schemaInterface, List.Nodup, List.pairwise_map, TellsPropertiesApart]
  simp only [ne_eq, camelCase_eq_camelCase_iff]

/-! ## Main statement -/

/-- **When an interface declares no member twice.** Each named schema has one interface, in the same order,
and the members of an interface have distinct names exactly if no two properties of its schema have names
that differ in the case of their first character at most. -/
theorem interfaceMembers_nodup_iff (components : Components) :
    List.Forall₂
      (fun entry interface => interface.name = entry.1 ∧
        (interface.memberNames.Nodup ↔ TellsPropertiesApart entry.2))
      components.schemas (componentInterfaces components) := by
  rw [componentInterfaces, List.forall₂_map_right_iff, List.forall₂_same]
  exact fun entry _ => ⟨rfl, nodup_memberNames_iff entry.1 entry.2⟩

/-- A schema with the properties `Name` and `name` is accepted, and its interface declares `name` twice. -/
theorem not_nodup_interfaceMembers_name :
    let pet : Value :=
      .map [(.text "properties", .map [(.text "Name", .map []), (.text "name", .map [])])]
    let document : Document :=
      { root := .map [(.text "components", .map [(.text "schemas", .map [(.text "Pet", pet)])])] }
    ∃ specification, bindDocument document = .ok specification ∧
      (∀ entry ∈ specification.components.schemas, (entry.2.properties.map (·.1)).Nodup) ∧
      ∃ interface ∈ componentInterfaces specification.components, ¬ interface.memberNames.Nodup := by
  intro pet document
  refine ⟨_, rfl, ?_, _, List.mem_cons_self, by decide⟩
  intro entry hentry
  obtain rfl := List.mem_singleton.mp hentry
  decide

end OpenApiClient.Client
