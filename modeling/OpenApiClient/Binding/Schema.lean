import OpenApiClient.Binding.Field
import OpenApiClient.Specification

/-!
# Binding Schemas

Reading schemas, to a bounded depth. A schema that contains itself is refused at the place where it
occurs again.
-/

namespace OpenApiClient.Binding

open OpenApiClient.Document

/-! ## Types -/

/-- The name of the type that marks a list of types as nullable. -/
def nullName : Text := "null"

/-- The name that an entry of a type list gives; entries of other kinds are ignored. -/
def typeEntry? : Value → Option Text
  | .text s => if s == nullName then none else some s
  | _ => none

/-- Whether a value is the text `null`. -/
def isNullName : Value → Bool
  | .text s => s == nullName
  | _ => false

/-- The type of a schema: a name, or a list whose texts are names. A value of any other kind gives no
type. -/
def schemaType (knots : Knots) (value : Value) : Option SchemaType :=
  match knots.content value with
  | .text name => some (.single name)
  | .list entries => some (.union (entries.filterMap typeEntry?) (entries.any isNullName))
  | _ => none

/-! ## Schemas -/

/-- The fields of a schema. -/
def dollarRefField : Field := ⟨"dollar_ref", some "$ref"⟩
def refField : Field := ⟨"ref", none⟩
def typeField : Field := ⟨"schema_type", some "type"⟩
def formatField : Field := ⟨"format", none⟩
def itemsField : Field := ⟨"items", none⟩
def propertiesField : Field := ⟨"properties", none⟩
def requiredField : Field := ⟨"required", none⟩

/-- The most schemas that may be nested. -/
def maxNesting : Nat := 254

/-- Whether a value is one of the knots that are being read. -/
def isActive (active : List Nat) : Value → Bool
  | .knot id => active.contains id
  | _ => false

/-- The knots that are being read inside a value. -/
def activate (active : List Nat) : Value → List Nat
  | .knot id => id :: active
  | _ => active

/-- Reads a schema with at most `nesting` schemas nested, itself included; `active` lists the knots
that enclose it. -/
def schema (knots : Knots) : (nesting : Nat) → (active : List Nat) → Value → Checked Schema
  | 0, active, value => if isActive active value then .fail .loop else .fail .tooDeep
  | nesting + 1, active, value =>
    if isActive active value then .fail .loop
    else
      let inner := schema knots nesting (activate active value)
      part knots "Schema" (fun entries =>
        Schema.mk
          <$> dollarRefField.read? entries text
          <*> refField.read? entries text
          <*> typeField.read entries none (fun type => .valid (schemaType knots type))
          <*> formatField.read? entries text
          <*> itemsField.read? entries inner
          <*> propertiesField.read entries [] (mapping knots inner)
          <*> requiredField.read entries [] (list knots text)) value

/-- Reads a schema inside another part of the specification. -/
def nestedSchema (knots : Knots) (value : Value) : Checked Schema :=
  schema knots maxNesting [] value

/-- Reads a schema that stands alone; it does not count as nested itself. -/
def rootSchema (knots : Knots) (value : Value) : Checked Schema :=
  schema knots (maxNesting + 1) [] value

end OpenApiClient.Binding
