import OpenApiClient.Text.CodePoint

/-!
# API Specifications

The part of an OpenAPI document that the client generator uses, as typed data. Everything a document
may leave out has a default. Mappings are lists of pairs in document order, without repeated keys.
-/

namespace OpenApiClient

/-! ## Schemas -/

/-- The `type` of a schema: one name, or a list of names. A list keeps its names other than `null`
and records apart whether `null` was among them. -/
inductive SchemaType where
  | single (name : Text)
  | union (names : List Text) (nullable : Bool)
  deriving DecidableEq, Repr

/-- A data schema: a reference to a named schema, or a shape given in place. -/
structure Schema where
  dollarRef : Option Text := none
  ref : Option Text := none
  type : Option SchemaType := none
  format : Option Text := none
  items : Option Schema := none
  properties : List (Text × Schema) := []
  required : List Text := []
  deriving Repr, Inhabited

namespace Schema

/-- The reference as written: `$ref` where it is given, else `ref`. -/
def reference (schema : Schema) : Option Text :=
  schema.dollarRef.or schema.ref

/-- The reference that stands for a schema; an empty one stands for nothing. -/
def target? (schema : Schema) : Option Text :=
  schema.reference.filter (!·.isEmpty)

end Schema

/-! ## Operations -/

/-- A parameter of an operation. -/
structure Parameter where
  name : Text := []
  location : Text := []
  required : Bool := false
  schema : Schema := {}
  deriving Repr, Inhabited

/-- What tells parameters apart: name and location. -/
def Parameter.key (parameter : Parameter) : Text × Text :=
  (parameter.name, parameter.location)

/-- The content of a response in one media type. -/
structure MediaType where
  schema : Schema := {}
  deriving Repr, Inhabited

/-- A response of an operation. -/
structure Response where
  description : Text := []
  content : Option (List (Text × MediaType)) := none
  deriving Repr, Inhabited

/-- One HTTP method of a path. -/
structure Operation where
  id : Text := []
  summary : Text := []
  tags : List Text := []
  parameters : List Parameter := []
  responses : List (Text × Response) := []
  deriving Repr, Inhabited

namespace Operation

/-- Whether the operation declares a parameter of this name and location itself. -/
def declares (operation : Operation) (key : Text × Text) : Bool :=
  operation.parameters.any (·.key == key)

/-- The operation with the parameters of its path put in front of its own; its own ones override
those of the same name and location. -/
def withShared (operation : Operation) (shared : List Parameter) : Operation :=
  { operation with
    parameters :=
      shared.filter (fun parameter => !operation.declares parameter.key) ++ operation.parameters }

end Operation

/-! ## Documents -/

/-- Title and version of the described interface. -/
structure Info where
  title : Text := []
  version : Text := []
  deriving Repr, Inhabited

/-- The named schemas of a document. -/
structure Components where
  schemas : List (Text × Schema) := []
  deriving Repr, Inhabited

/-- A whole specification. The methods of a path keep the spelling of their keys. -/
structure Specification where
  openapi : Text := []
  info : Info := {}
  paths : List (Text × List (Text × Operation)) := []
  components : Components := {}
  deriving Repr, Inhabited

/-- The HTTP methods that a path may define. -/
def httpMethods : List Text :=
  ["get", "put", "post", "delete", "patch", "head", "options", "trace"]

end OpenApiClient
