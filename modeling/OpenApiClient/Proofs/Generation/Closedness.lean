import OpenApiClient.Proofs.Generation.Naming
import OpenApiClient.Proofs.Generation.Relevance

/-!
# Generated Types Are Closed

A type that stands in generated source is written with list brackets and union bars from types that
need no declaration and from the names that references end in. So when every reference that decides a
type ends in the name of a schema, all types of the source are built from basic types and from
interfaces that the source itself declares.

## Layers

- **Texts**: `IsBuiltFrom`, the texts that brackets and bars make from given ones.
- **Schemas**: the type that a schema means, by induction on its meaning (`Means.isBuiltFrom`).
- **Places**: `Annotates`, the schemas that give types of the source.
- **Main statement**: `annotations_isBuiltFrom`.
-/

namespace OpenApiClient.TypeScript

/-- The names of the interfaces that a source file declares, in order. -/
def SourceFile.interfaceNames (file : SourceFile) : List Text :=
  file.declarations.filterMap fun declaration =>
    match declaration with
    | .interface declaration => some declaration.name
    | .class _ => none

end OpenApiClient.TypeScript

namespace OpenApiClient.Client

open OpenApiClient.TypeScript

/-! ## Texts -/

/-- The types that need no declaration. -/
def basicTypes : List Text :=
  ["string", "number", "boolean", "unknown", "null", "void", "Record<string, unknown>"]

/-- Whether a text is made from given ones with the brackets of lists and the bars of unions. -/
inductive IsBuiltFrom (leaves : List Text) : Text → Prop
  | leaf {text : Text} : text ∈ leaves → IsBuiltFrom leaves text
  | list {element : Text} : IsBuiltFrom leaves element → IsBuiltFrom leaves (element ++ "[]")
  | union {left right : Text} :
      IsBuiltFrom leaves left → IsBuiltFrom leaves right →
        IsBuiltFrom leaves (left ++ " | " ++ right)

namespace IsBuiltFrom

variable {names : List Text}

theorem basic {text : Text} (h : text ∈ basicTypes) : IsBuiltFrom (basicTypes ++ names) text :=
  .leaf (List.mem_append_left names h)

theorem name {name : Text} (h : name ∈ names) : IsBuiltFrom (basicTypes ++ names) name :=
  .leaf (List.mem_append_right basicTypes h)

theorem mono {leaves others : List Text} (hsubset : leaves ⊆ others) {text : Text}
    (h : IsBuiltFrom leaves text) : IsBuiltFrom others text := by
  induction h with
  | leaf hleaf => exact .leaf (hsubset hleaf)
  | list _ ih => exact .list ih
  | union _ _ ihLeft ihRight => exact .union ihLeft ihRight

end IsBuiltFrom

/-! ## Types of schemas -/

/-- All type names of schemas stand for basic types, but for the name of a list without elements. -/
theorem isBuiltFrom_primitiveType (name : Text) {names : List Text} :
    IsBuiltFrom (basicTypes ++ names) (primitiveType name).text := by
  have htable : ∀ entry ∈ primitiveTypes,
      entry.2.text ∈ basicTypes ∨ entry.2 = .array .unknown := by decide
  unfold primitiveType
  cases hlookup : primitiveTypes.lookup name with
  | none => exact .basic (by decide)
  | some type =>
    obtain ⟨before, after, hsplit, -⟩ := List.lookup_eq_some_iff.mp hlookup
    rcases htable (name, type) (by simp [hsplit]) with hbasic | hlist
    · exact .basic hbasic
    · show IsBuiltFrom _ type.text
      rw [show type = .array .unknown from hlist]
      exact .list (.basic (by decide))

theorem isBuiltFrom_unionOf {members : List TypeExpr} {names : List Text}
    (h : ∀ type ∈ members, IsBuiltFrom (basicTypes ++ names) type.text) :
    IsBuiltFrom (basicTypes ++ names) (TypeExpr.unionOf members).text := by
  induction members with
  | nil => exact .basic (by decide)
  | cons member members ih =>
    rw [List.forall_mem_cons] at h
    cases members with
    | nil => exact h.1
    | cons second members => exact .union h.1 (ih h.2)

theorem isBuiltFrom_memberTypes {typeNames names : List Text} {nullable : Bool} :
    ∀ type ∈ memberTypes typeNames nullable, IsBuiltFrom (basicTypes ++ names) type.text := by
  intro type htype
  rcases List.mem_append.mp htype with hname | hnull
  · obtain ⟨name, -, rfl⟩ := List.mem_map.mp hname
    exact isBuiltFrom_primitiveType name
  · cases nullable with
    | false => contradiction
    | true =>
      obtain rfl := List.mem_singleton.mp hnull
      exact .basic (by decide)

/-- The type that a schema means is built from basic types and the names that the consulted
references end in. -/
theorem Means.isBuiltFrom {schema : Schema} {type : TypeExpr} (h : Means schema type)
    {names : List Text}
    (hnames : ∀ consulted reference, Consults schema consulted →
      consulted.target? = some reference → referenceName reference ∈ names) :
    IsBuiltFrom (basicTypes ++ names) type.text := by
  -- Induction on the meaning: what the elements of a list consult, the list consults, too.
  induction h with
  | @reference schema reference htarget =>
    exact .name (hnames schema reference (.itself schema) htarget)
  | @list schema items element htarget htype hitems _ ih =>
    have helement : elementOf? schema = some items := by simp [elementOf?, htarget, htype, hitems]
    apply IsBuiltFrom.list
    apply ih
    intro consulted reference hconsults
    exact hnames consulted reference (.element helement hconsults)
  | single => exact isBuiltFrom_primitiveType _
  | union => exact isBuiltFrom_unionOf isBuiltFrom_memberTypes
  | nothing => exact .basic (by decide)

/-! ## Places -/

/-- Whether a schema gives a type of the source: that of a property of a named schema, that of a
parameter that enters a signature, or that of the result of an operation. -/
inductive Annotates (specification : Specification) : Schema → Prop
  | property {entry property : Text × Schema} :
      entry ∈ specification.components.schemas → property ∈ entry.2.properties →
        Annotates specification property.2
  | parameter {named : NamedOperation} {parameter : Parameter} :
      named ∈ namedOperations specification → parameter ∈ named.operation.parameters →
        inSignature parameter → Annotates specification parameter.schema
  | result {named : NamedOperation} {schema : Schema} :
      named ∈ namedOperations specification → resultSchema? named.operation = some schema →
        Annotates specification schema

/-- Whether every reference that decides a type of the source ends in the name of a schema. -/
def RefersToSchemas (specification : Specification) : Prop :=
  ∀ schema consulted reference, Annotates specification schema → Consults schema consulted →
    consulted.target? = some reference →
      referenceName reference ∈ specification.components.schemas.map (·.1)

theorem RefersToSchemas.isBuiltFrom {specification : Specification}
    (h : RefersToSchemas specification) {schema : Schema} (hschema : Annotates specification schema) :
    IsBuiltFrom (basicTypes ++ specification.components.schemas.map (·.1))
      (schemaTypeText schema) := by
  apply (means_schemaType schema).isBuiltFrom
  intro consulted reference hconsults hreference
  exact h schema consulted reference hschema hconsults hreference

theorem interfaceNames_clientFile (name : Text) (components : Components)
    (operations : List NamedOperation) :
    (clientFile name components operations).interfaceNames =
      components.schemas.map (·.1) ++ [optionsName] := by
  unfold SourceFile.interfaceNames clientFile componentInterfaces
  simp only [List.filterMap_append, List.map_map, List.filterMap_map, Function.comp_def,
    List.filterMap_eq_map']
  rfl

/-! ## Main statement -/

/-- **Generated types are closed.** A source declares the interfaces of the schemas, the one of the options
and a class with a method for each operation. When every reference that decides a type ends in the name of a
schema, the types of members, of method parameters and of promised results are all built from basic types and
from interfaces that the source declares. -/
theorem annotations_isBuiltFrom {specification : Specification} {givenName : Option Text}
    {client : GeneratedClient} (h : generate specification givenName = .ok client)
    (hreferences : RefersToSchemas specification) :
    let operations := namedOperations specification
    let file := clientFile client.name specification.components operations
    client.source = file.text ∧
      (∀ declaration, .interface declaration ∈ file.declarations ↔
        declaration ∈ componentInterfaces specification.components ∨ declaration = optionsInterface) ∧
      (∀ declaration, .class declaration ∈ file.declarations ↔
        declaration = clientClass client.name operations) ∧
      (clientClass client.name operations).methods =
        constructorMethod :: requestMethod :: operations.map operationMethod ∧
      (∀ declaration ∈ componentInterfaces specification.components,
        ∀ member ∈ declaration.members,
          IsBuiltFrom (basicTypes ++ file.interfaceNames) member.annotation) ∧
      ∀ named ∈ operations,
        (∀ parameter ∈ (operationMethod named).parameters,
          IsBuiltFrom (basicTypes ++ file.interfaceNames) parameter.annotation) ∧
        ∃ result : Text, (operationMethod named).returnType = some ("Promise<" ++ result ++ ">") ∧
          IsBuiltFrom (basicTypes ++ file.interfaceNames) result := by
  intro operations file
  obtain ⟨rfl, -⟩ := generate_eq_ok_iff.mp h
  -- Every named schema has an interface of its name, so what is built from the former is closed.
  have hclosed : ∀ {text : Text},
      IsBuiltFrom (basicTypes ++ specification.components.schemas.map (·.1)) text →
        IsBuiltFrom (basicTypes ++ file.interfaceNames) text := by
    intro text htext
    apply htext.mono
    rw [interfaceNames_clientFile, ← List.append_assoc]
    exact List.subset_append_left _ _
  refine ⟨rfl, fun _ => interface_mem_clientFile_iff, fun _ => class_mem_clientFile_iff, rfl, ?_, ?_⟩
  · intro declaration hdeclaration member hmember
    obtain ⟨entry, hentry, rfl⟩ := List.mem_map.mp hdeclaration
    obtain ⟨property, hproperty, rfl⟩ := List.mem_map.mp hmember
    exact hclosed (hreferences.isBuiltFrom (.property hentry hproperty))
  · intro named hnamed
    constructor
    · intro parameter hparameter
      obtain ⟨declared, hdeclared, rfl⟩ := List.mem_map.mp hparameter
      obtain ⟨hmem, hsignature⟩ := List.mem_filter.mp hdeclared
      exact hclosed (hreferences.isBuiltFrom (.parameter hnamed hmem hsignature))
    · refine ⟨resultTypeText named.operation, rfl, ?_⟩
      unfold resultTypeText resultType
      cases hresult : (successResponse? named.operation).bind jsonSchema? with
      | none => exact .basic (by decide)
      | some schema => exact hclosed (hreferences.isBuiltFrom (.result hnamed hresult))

/-- Lists of lists of a schema that refers to itself, a choice that may be null, and a reference that
another one hides. -/
theorem annotations_isBuiltFrom_pets :
    let pet : Schema := { dollarRef := some "#/components/schemas/Pet", ref := some "Ghost" }
    let pets : Schema := { type := some (.single "array"), items := some pet }
    let litters : Schema := { type := some (.single "array"), items := some pets }
    let tag : Schema := { type := some (.union ["string", "integer"] true) }
    let specification : Specification :=
      { paths := [("/pets", [("get",
          { id := "listPets"
            parameters := [{ name := "tag", location := "query", schema := tag }]
            responses := [("200", { content := some [("application/json", ⟨litters⟩)] })] })])]
        components := ⟨[("Pet", { properties := [("litters", litters), ("tag", tag)] })]⟩ }
    let client := clientFor specification none
    let file := clientFile client.name specification.components (namedOperations specification)
    generate specification none = .ok client ∧ RefersToSchemas specification ∧
      schemaTypeText litters = "Pet[][]" ∧ schemaTypeText tag = "string | number | null" ∧
      .class (clientClass client.name (namedOperations specification)) ∈ file.declarations ∧
      (∀ declaration ∈ componentInterfaces specification.components,
        ∀ member ∈ declaration.members,
          IsBuiltFrom (basicTypes ++ file.interfaceNames) member.annotation) ∧
      ∀ named ∈ namedOperations specification,
        (∀ parameter ∈ (operationMethod named).parameters,
          IsBuiltFrom (basicTypes ++ file.interfaceNames) parameter.annotation) ∧
        ∃ result : Text, (operationMethod named).returnType = some ("Promise<" ++ result ++ ">") ∧
          IsBuiltFrom (basicTypes ++ file.interfaceNames) result := by
  intro pet pets litters tag specification client file
  have h : generate specification none = .ok client := rfl
  have hlitters : ∀ consulted reference, Consults litters consulted →
      consulted.target? = some reference → referenceName reference = "Pet" := by
    intro consulted reference hconsults hreference
    rw [consults_iff_of_elementOf? (show elementOf? litters = some pets from rfl),
      consults_iff_of_elementOf? (show elementOf? pets = some pet from rfl),
      consults_iff_of_elementOf?_eq_none (show elementOf? pet = none from rfl)] at hconsults
    rcases hconsults with rfl | rfl | rfl
    · contradiction
    · contradiction
    · obtain rfl := Option.some.inj hreference
      decide
  have htag : ∀ consulted reference, Consults tag consulted →
      consulted.target? ≠ some reference := by
    intro consulted reference hconsults
    rw [consults_iff_of_elementOf?_eq_none (show elementOf? tag = none from rfl)] at hconsults
    rw [hconsults]
    exact nofun
  have hreferences : RefersToSchemas specification := by
    intro schema consulted reference hannotates hconsults hreference
    -- All types of this client come from the two schemas.
    have hschema : schema = litters ∨ schema = tag := by
      cases hannotates with
      | property hentry hproperty =>
        obtain rfl := List.mem_singleton.mp hentry
        simp only [List.mem_cons, List.not_mem_nil, or_false] at hproperty
        rcases hproperty with rfl | rfl
        · exact .inl rfl
        · exact .inr rfl
      | parameter hnamed hparameter hsignature =>
        obtain rfl := List.mem_singleton.mp hnamed
        obtain rfl := List.mem_singleton.mp hparameter
        exact .inr rfl
      | result hnamed hresult =>
        obtain rfl := List.mem_singleton.mp hnamed
        exact .inl (Option.some.inj hresult).symm
    rcases hschema with rfl | rfl
    · rw [hlitters consulted reference hconsults hreference]
      decide
    · exact absurd hreference (htag consulted reference hconsults)
  obtain ⟨-, -, hclass, -, hclosed⟩ := annotations_isBuiltFrom h hreferences
  exact ⟨h, hreferences, by decide, by decide, (hclass _).mpr rfl, hclosed⟩

end OpenApiClient.Client
