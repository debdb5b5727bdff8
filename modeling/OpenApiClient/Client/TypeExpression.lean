import OpenApiClient.Specification
import OpenApiClient.Text.Occurrence

/-!
# Type Expressions

The TypeScript type that stands for a schema, as a tree and as text. A reference stands for the type
it names; without one the schema's type decides, and what cannot be expressed is `unknown`.

The text puts nothing in parentheses: an array writes its element and then `[]`, a union writes its
members with `|` between them.
-/

namespace OpenApiClient.Client

/-! ## Trees -/

/-- A type expression. -/
inductive TypeExpr where
  | name (name : Text)
  | record (key value : TypeExpr)
  | array (element : TypeExpr)
  | union (left right : TypeExpr)
  deriving DecidableEq, Repr

namespace TypeExpr

/-- The type of anything. -/
def unknown : TypeExpr := .name "unknown"

/-- The type of nothing, for a method without a result. -/
def void : TypeExpr := .name "void"

/-- The type of the null value. -/
def null : TypeExpr := .name "null"

/-- The text of a type expression. -/
def text : TypeExpr → Text
  | .name n => n
  | .record key value => "Record<" ++ key.text ++ ", " ++ value.text ++ ">"
  | .array element => element.text ++ "[]"
  | .union left right => left.text ++ " | " ++ right.text

/-- The union of several types: of one it is that type itself, of none it is unknown. -/
def unionOf : List TypeExpr → TypeExpr
  | [] => unknown
  | [member] => member
  | member :: members => .union member (unionOf members)

end TypeExpr

/-! ## Types of schemas -/

/-- The type name of a list. -/
def arrayName : Text := "array"

/-- The type names that schemas use, each with the type that it stands for by itself. -/
def primitiveTypes : List (Text × TypeExpr) :=
  [("string", .name "string"), ("integer", .name "number"), ("number", .name "number"),
   ("boolean", .name "boolean"), ("object", .record (.name "string") .unknown),
   (arrayName, .array .unknown)]

/-- The type that a type name of a schema stands for by itself; other names say nothing. -/
def primitiveType (name : Text) : TypeExpr :=
  (primitiveTypes.lookup name).getD .unknown

/-- The name that a reference points to: its last segment. -/
def referenceName (reference : Text) : Text :=
  Text.afterLast '/' reference

/-- The type of a list of type names: their union, with null when the list is nullable. A list
without names says nothing. -/
def unionType (names : List Text) (nullable : Bool) : TypeExpr :=
  if names.isEmpty then .unknown
  else .unionOf (names.map primitiveType ++ if nullable then [.null] else [])

/-- The type that stands for a schema. -/
def schemaType (schema : Schema) : TypeExpr :=
  match schema.target? with
  | some reference => .name (referenceName reference)
  | none =>
    match schema with
    | { type := some (.single name), items := some items, .. } =>
      if name == arrayName then .array (schemaType items) else primitiveType name
    | { type := some (.single name), items := none, .. } => primitiveType name
    | { type := some (.union names nullable), .. } => unionType names nullable
    | { type := none, .. } => .unknown
termination_by structural schema

/-- The text of the type that stands for a schema. -/
def schemaTypeText (schema : Schema) : Text :=
  (schemaType schema).text

end OpenApiClient.Client
