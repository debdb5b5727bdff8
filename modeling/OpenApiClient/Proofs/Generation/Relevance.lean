import Mathlib.Data.List.Forall2
import OpenApiClient.Client.Generation
import OpenApiClient.Proofs.TypeExpression.OfSchema

/-!
# What a Client Depends On

Most of a specification never shows in the client: descriptions, tags, formats, other responses, other
media types, and whatever a reference or another type hides. Two specifications that agree on the rest
have the same client, or fail with the same wording.

## Layers

- **Schemas**: `SameAnnotation`, which the type of a schema respects (`schemaType_congr`).
- **Operations**: `SameOperation` and `SameNamed`, which methods and warnings respect.
- **Naming**: the same operations are refused (`resolveOperations_congr`), and the same ones are generated
  (`generate_congr_of_sameMember`).
- **Main statement**: `generate_congr`.
-/

namespace OpenApiClient.Client

open OpenApiClient.TypeScript (Method Statement)

/-! ## Lists in step -/

section Lists

variable {α β γ : Type} {R : α → β → Prop} {xs : List α} {ys : List β}

theorem map_eq_map_of_forall₂ {f : α → γ} {g : β → γ} (h : List.Forall₂ R xs ys)
    (hfg : ∀ x y, R x y → f x = g y) : xs.map f = ys.map g := by
  induction h with
  | nil => rfl
  | cons hxy _ ih => rw [List.map_cons, List.map_cons, hfg _ _ hxy, ih]

theorem rel_find?_of_forall₂ {p : α → Bool} {q : β → Bool} (h : List.Forall₂ R xs ys)
    (hpq : ∀ x y, R x y → p x = q y) : Option.Rel R (xs.find? p) (ys.find? q) := by
  induction h with
  | nil => exact .none
  | @cons x y _ _ hxy _ ih =>
    rw [List.find?_cons, List.find?_cons, ← hpq x y hxy]
    cases p x with
    | true => exact .some hxy
    | false => exact ih

theorem forall₂_filter {p : α → Bool} {q : β → Bool} (h : List.Forall₂ R xs ys)
    (hpq : ∀ x y, R x y → p x = q y) :
    List.Forall₂ (fun x y => R x y ∧ p x) (xs.filter p) (ys.filter q) := by
  induction h with
  | nil => exact .nil
  | @cons x y _ _ hxy _ ih =>
    rw [List.filter_cons, List.filter_cons, ← hpq x y hxy]
    cases hx : p x with
    | true => exact .cons ⟨hxy, hx⟩ ih
    | false => exact ih

end Lists

/-! ## Schemas -/

/-- Whether two schemas agree on what decides about their type: the reference, else the type, and the
elements of a list as far as these decide. -/
inductive SameAnnotation : Schema → Schema → Prop
  | reference {schema other : Schema} {reference : Text} :
      schema.target? = some reference → other.target? = some reference →
        SameAnnotation schema other
  | type {schema other : Schema} :
      schema.target? = none → other.target? = none → schema.type = other.type →
        schema.type ≠ some (.single arrayName) → SameAnnotation schema other
  | bareList {schema other : Schema} :
      schema.target? = none → other.target? = none →
        schema.type = some (.single arrayName) → other.type = some (.single arrayName) →
          schema.items = none → other.items = none → SameAnnotation schema other
  | list {schema other items otherItems : Schema} :
      schema.target? = none → other.target? = none →
        schema.type = some (.single arrayName) → other.type = some (.single arrayName) →
          schema.items = some items → other.items = some otherItems →
            SameAnnotation items otherItems → SameAnnotation schema other

/-- Schemas that agree mean the same type. -/
theorem SameAnnotation.means {schema other : Schema} (h : SameAnnotation schema other)
    {type : TypeExpr} (hmeans : Means schema type) : Means other type := by
  induction h generalizing type with
  | reference htarget hother =>
    cases hmeans with
    | reference htarget' =>
      obtain rfl := Option.some.inj (htarget.symm.trans htarget')
      exact .reference hother
    | _ => simp_all
  | type htarget hother htype hlist =>
    rw [htype] at hlist
    cases hmeans with
    | reference htarget' => simp_all
    | list _ htype' => exact absurd (htype ▸ htype') hlist
    | single _ htype' =>
      refine .single hother (htype ▸ htype') ?_
      rintro rfl
      exact absurd (htype ▸ htype') hlist
    | union _ htype' hnames => exact .union hother (htype ▸ htype') hnames
    | nothing _ htype' => exact .nothing hother (htype ▸ htype')
  | bareList htarget hother htype hother' hitems hitems' =>
    cases hmeans with
    | single _ htype' =>
      obtain rfl := SchemaType.single.inj (Option.some.inj (htype.symm.trans htype'))
      exact .single hother hother' fun _ => hitems'
    | _ => simp_all
  | list htarget hother htype hother' hitems hitems' _ ih =>
    cases hmeans with
    | list _ _ helement hmeans' =>
      obtain rfl := Option.some.inj (hitems.symm.trans helement)
      exact .list hother hother' hitems' (ih hmeans')
    | _ => simp_all

theorem schemaType_congr {schema other : Schema} (h : SameAnnotation schema other) :
    schemaType schema = schemaType other :=
  means_iff.mp (h.means (means_schemaType schema))

theorem schemaTypeText_congr {schema other : Schema} (h : SameAnnotation schema other) :
    schemaTypeText schema = schemaTypeText other := by
  rw [schemaTypeText, schemaTypeText, schemaType_congr h]

/-! ## Operations -/

/-- Whether two parameters agree on name, location and, if they enter the signature, on their type. -/
structure SameParameter (parameter other : Parameter) : Prop where
  name : parameter.name = other.name
  location : parameter.location = other.location
  schema : inSignature parameter → SameAnnotation parameter.schema other.schema

/-- The schema of an operation's result: that of the first JSON content of its success response. -/
def resultSchema? (operation : Operation) : Option Schema :=
  (successResponse? operation).bind jsonSchema?

/-- Whether two operations agree on id, parameters and the schema of their result. -/
structure SameOperation (operation other : Operation) : Prop where
  id : operation.id = other.id
  parameters : List.Forall₂ SameParameter operation.parameters other.parameters
  result : Option.Rel SameAnnotation (resultSchema? operation) (resultSchema? other)

/-- Whether two operations agree on place, name and id. Methods are shown in upper case only. -/
structure SameCall (named other : NamedOperation) : Prop where
  path : named.path = other.path
  method : Text.upper named.method = Text.upper other.method
  name : named.name = other.name
  id : named.operation.id = other.operation.id

theorem SameCall.label {named other : NamedOperation} (h : SameCall named other) :
    named.label = other.label := by
  rw [NamedOperation.label, NamedOperation.label, h.path, h.method]

/-- Whether two operations agree, and their places do. -/
structure SameNamed (named other : NamedOperation) : Prop where
  path : named.path = other.path
  method : named.method = other.method
  name : named.name = other.name
  operation : SameOperation named.operation other.operation

theorem SameParameter.inPath {parameter other : Parameter} (h : SameParameter parameter other) :
    inPath parameter = inPath other := by
  rw [Client.inPath, Client.inPath, h.location]

theorem SameParameter.inSignature {parameter other : Parameter} (h : SameParameter parameter other) :
    inSignature parameter = inSignature other := by
  rw [Client.inSignature, Client.inSignature, h.inPath, h.location]

namespace SameOperation

variable {operation other : Operation}

theorem methodParameters (h : SameOperation operation other) :
    methodParameters operation = methodParameters other := by
  apply map_eq_map_of_forall₂ (forall₂_filter h.parameters fun _ _ h => h.inSignature)
  rintro parameter parameter' ⟨hsame, hsignature⟩
  rw [methodParameter, methodParameter, hsame.name, schemaTypeText_congr (hsame.schema hsignature)]

theorem resultTypeText (h : SameOperation operation other) :
    resultTypeText operation = resultTypeText other := by
  have hresult := h.result
  unfold Client.resultTypeText resultType
  unfold resultSchema? at hresult
  generalize (successResponse? operation).bind jsonSchema? = schema? at hresult ⊢
  generalize (successResponse? other).bind jsonSchema? = otherSchema? at hresult ⊢
  cases hresult with
  | none => rfl
  | some hschema => simp only [schemaType_congr hschema]

theorem pathExpression (h : SameOperation operation other) (path : Text) :
    pathExpression path operation = pathExpression path other := by
  have hnames : pathParameterNames operation = pathParameterNames other :=
    map_eq_map_of_forall₂ (forall₂_filter h.parameters fun _ _ h => h.inPath) fun _ _ h => h.1.name
  rw [Client.pathExpression, Client.pathExpression, hnames]

end SameOperation

namespace SameNamed

variable {named other : NamedOperation}

theorem operationMethod (h : SameNamed named other) :
    operationMethod named = operationMethod other := by
  rw [Client.operationMethod, Client.operationMethod, h.path, h.method, h.name,
    h.operation.methodParameters, h.operation.resultTypeText, h.operation.pathExpression]

theorem sameCall (h : SameNamed named other) : SameCall named other :=
  ⟨h.path, congrArg Text.upper h.method, h.name, h.operation.id⟩

theorem operationWarnings (h : SameNamed named other) :
    operationWarnings named = operationWarnings other := by
  have hskipped := forall₂_filter (p := (!inSignature ·)) (q := (!inSignature ·))
    h.operation.parameters fun _ _ h => by rw [h.inSignature]
  apply map_eq_map_of_forall₂ hskipped
  rintro parameter parameter' ⟨hsame, -⟩
  rw [skippedWarning, skippedWarning, hsame.name, hsame.location, h.sameCall.label]

end SameNamed

/-! ## Naming -/

/-- Operations with the same places and ids cannot be named for the same reason. -/
theorem resolveOperations_congr {specification other : Specification}
    (h : List.Forall₂ SameCall (namedOperations specification) (namedOperations other)) :
    (∃ e e', resolveOperations specification = .error e ∧ resolveOperations other = .error e' ∧
      e.message = e'.message) ∨
    resolveOperations specification = .ok (namedOperations specification) ∧
      resolveOperations other = .ok (namedOperations other) := by
  have hnames : (namedOperations specification).map (·.name) =
      (namedOperations other).map (·.name) := map_eq_map_of_forall₂ h fun _ _ h => h.name
  have hblank := rel_find?_of_forall₂ (p := fun named => Text.isAllBlank named.operation.id)
    (q := fun named => Text.isAllBlank named.operation.id) h fun _ _ h => by rw [h.id]
  have hshared := forall₂_filter (p := sharesName (namedOperations specification))
    (q := sharesName (namedOperations other)) h fun _ _ h => by
      rw [sharesName, sharesName, hnames, h.name]
  unfold resolveOperations
  dsimp only
  generalize (namedOperations specification).find? _ = missing? at hblank ⊢
  generalize (namedOperations other).find? _ = otherMissing? at hblank ⊢
  cases hblank with
  | some hmissing =>
    refine .inl ⟨_, _, rfl, rfl, ?_⟩
    rw [NamingError.message, NamingError.message, hmissing.label]
  | none =>
    have hempty := hshared.length_eq
    dsimp only
    split
    case isTrue hnone =>
      rw [List.isEmpty_iff_length_eq_zero, hempty, ← List.isEmpty_iff_length_eq_zero] at hnone
      exact .inr ⟨rfl, if_pos hnone⟩
    case isFalse hsome =>
      rw [List.isEmpty_iff_length_eq_zero, hempty, ← List.isEmpty_iff_length_eq_zero] at hsome
      refine .inl ⟨_, _, rfl, if_neg hsome, ?_⟩
      rw [NamingError.message, NamingError.message]
      congr 2
      exact map_eq_map_of_forall₂ hshared fun _ _ h => by rw [h.1.label, h.1.id]

/-- Whether two operations are called alike, and so are their methods and warnings. -/
structure SameMember (named other : NamedOperation) : Prop where
  call : SameCall named other
  method : operationMethod named = operationMethod other
  warnings : operationWarnings named = operationWarnings other

theorem SameNamed.sameMember {named other : NamedOperation} (h : SameNamed named other) :
    SameMember named other :=
  ⟨h.sameCall, h.operationMethod, h.operationWarnings⟩

/-- Specifications with the same version, title, interfaces and members have the same client. -/
theorem generate_congr_of_sameMember {specification other : Specification}
    (hopenapi : specification.openapi = other.openapi)
    (htitle : specification.info.title = other.info.title)
    (hinterfaces : componentInterfaces specification.components = componentInterfaces other.components)
    (h : List.Forall₂ SameMember (namedOperations specification) (namedOperations other))
    (givenName : Option Text) :
    (generate specification givenName).mapError NamingError.message =
      (generate other givenName).mapError NamingError.message := by
  rcases resolveOperations_congr (h.imp fun _ _ hsame => hsame.call) with
    ⟨e, e', he, he', hmessage⟩ | ⟨hok, hok'⟩
  · simp only [generate, he, he']
    exact congrArg Except.error hmessage
  · have hmethods : (namedOperations specification).map operationMethod =
        (namedOperations other).map operationMethod :=
      map_eq_map_of_forall₂ h fun _ _ h => h.method
    have hwarnings : (namedOperations specification).map operationWarnings =
        (namedOperations other).map operationWarnings :=
      map_eq_map_of_forall₂ h fun _ _ h => h.warnings
    simp only [generate, hok, hok', hopenapi, htitle, skippedWarnings, List.flatMap_def, hwarnings,
      clientFile, hinterfaces, clientClass, hmethods]

/-! ## Main statement -/

/-- Whether two properties agree on name and type, and on whether they are listed as required. -/
structure SameProperty (required otherRequired : List Text) (property other : Text × Schema) :
    Prop where
  name : property.1 = other.1
  schema : SameAnnotation property.2 other.2
  required : property.1 ∈ required ↔ other.1 ∈ otherRequired

/-- Whether two named schemas agree on name and properties. -/
structure SameInterface (entry other : Text × Schema) : Prop where
  name : entry.1 = other.1
  properties : List.Forall₂ (SameProperty entry.2.required other.2.required)
    entry.2.properties other.2.properties

/-- Whether two specifications agree on all that a client depends on. -/
structure SameInput (specification other : Specification) : Prop where
  openapi : specification.openapi = other.openapi
  title : specification.info.title = other.info.title
  paths : List.Forall₂
    (fun item otherItem => item.1 = otherItem.1 ∧
      List.Forall₂ (fun entry otherEntry => entry.1 = otherEntry.1 ∧
        SameOperation entry.2 otherEntry.2) item.2 otherItem.2)
    specification.paths other.paths
  schemas : List.Forall₂ SameInterface specification.components.schemas other.components.schemas

theorem SameInterface.schemaInterface {entry other : Text × Schema} (h : SameInterface entry other) :
    schemaInterface entry.1 entry.2 = schemaInterface other.1 other.2 := by
  rw [Client.schemaInterface, Client.schemaInterface, h.name]
  congr 1
  apply map_eq_map_of_forall₂ h.properties
  intro property otherProperty hsame
  have hrequired := hsame.required
  rw [← List.contains_iff_mem, ← List.contains_iff_mem, ← Bool.eq_iff_iff] at hrequired
  rw [propertyMember, propertyMember, hsame.name, schemaTypeText_congr hsame.schema, ← hrequired,
    hsame.name]

theorem SameInput.namedOperations {specification other : Specification}
    (h : SameInput specification other) :
    List.Forall₂ SameNamed (namedOperations specification) (namedOperations other) := by
  apply List.rel_flatMap h.paths
  rintro ⟨path, methods⟩ ⟨otherPath, otherMethods⟩ ⟨rfl, hmethods⟩
  apply List.rel_map _ hmethods
  rintro ⟨method, operation⟩ ⟨otherMethod, otherOperation⟩ ⟨rfl, hoperation⟩
  refine ⟨rfl, rfl, ?_, hoperation⟩
  exact congrArg camelCase hoperation.id

/-- **A client depends on nothing else.** Two specifications that agree on versions, title, places, ids
and parameters of operations, on the schemas of their results, and on the named schemas, each as far as
the types go, have the same client, or fail with the same wording. -/
theorem generate_congr {specification other : Specification} (h : SameInput specification other)
    (givenName : Option Text) :
    (generate specification givenName).mapError NamingError.message =
      (generate other givenName).mapError NamingError.message := by
  apply generate_congr_of_sameMember h.openapi h.title
  · exact map_eq_map_of_forall₂ h.schemas fun _ _ h => h.schemaInterface
  · exact h.namedOperations.imp fun _ _ hsame => hsame.sameMember

/-- Two documents that differ in version, summary, tags, formats, descriptions, in the type that a
reference hides, in a failure response, in other media types and in a required name without a property. -/
theorem generate_congr_pets :
    let text (format : Option Text) : Schema := { type := some (.single "string"), format }
    let tags (format : Option Text) : Schema :=
      { type := some (.single "array"), items := some (text format) }
    let pets (version summary : Text) (format : Option Text) (required : List Text)
        (responses : List (Text × Response)) : Specification :=
      { openapi := "3.0.0", info := { title := "Pets", version }
        paths := [("/pets/\x7bid\x7d", [("get",
          { id := "getPet", summary, tags := [summary], responses
            parameters :=
              [{ name := "id", location := "path", schema := text format },
               { name := "trace", location := "header", schema := text format }] })])]
        components := ⟨[("Pet", { format, required, properties := [("tags", tags format)] })]⟩ }
    let pet (type : Option SchemaType) : MediaType := { schema := { dollarRef := some "Pet", type } }
    let specification := pets "1" "One pet" (some "uuid") ["tags", "ghost"]
      [("404", { description := "No pet" }),
       ("200", { content := some [("text/html", {}), ("application/json", pet none)] })]
    let other := pets "2" "" none ["tags"]
      [("200", { description := "A pet"
                 content := some [("text/json", pet (some (.single "object"))), ("json", {})] })]
    SameInput specification other ∧ (generate specification none).isOk ∧
      (generate specification none).mapError NamingError.message =
        (generate other none).mapError NamingError.message := by
  intro text tags pets pet specification other
  have hstring : some (SchemaType.single "string") ≠ some (.single arrayName) := by decide
  have htext : ∀ format, SameAnnotation (text (some format)) (text none) :=
    fun _ => .type rfl rfl rfl hstring
  have h : SameInput specification other := by
    refine ⟨rfl, rfl, .cons ⟨rfl, .cons ⟨rfl, rfl, ?_, ?_⟩ .nil⟩ .nil, .cons ⟨rfl, ?_⟩ .nil⟩
    · exact .cons ⟨rfl, rfl, fun _ => htext _⟩ (.cons ⟨rfl, rfl, fun _ => htext _⟩ .nil)
    · exact .some (.reference rfl rfl)
    · exact .cons ⟨rfl, .list rfl rfl rfl rfl rfl rfl (htext _), by decide⟩ .nil
  exact ⟨h, rfl, generate_congr h none⟩

end OpenApiClient.Client
