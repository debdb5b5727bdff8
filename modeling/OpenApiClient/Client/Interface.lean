import OpenApiClient.Client.Naming
import OpenApiClient.Client.TypeExpression
import OpenApiClient.TypeScript.Declaration

/-!
# Interfaces

One interface for each named schema, with a member for each of its properties, and the interface of
the options that the client takes.
-/

namespace OpenApiClient.Client

open OpenApiClient.TypeScript (Interface Member)

/-- The member for a property; it is optional unless the property is listed as required. -/
def propertyMember (required : List Text) (property : Text × Schema) : Member :=
  ⟨camelCase property.1, schemaTypeText property.2, !required.contains property.1⟩

/-- The interface for a named schema. -/
def schemaInterface (name : Text) (schema : Schema) : Interface :=
  ⟨name, schema.properties.map (propertyMember schema.required)⟩

/-- The interfaces for all named schemas, in document order. -/
def componentInterfaces (components : Components) : List Interface :=
  components.schemas.map fun (name, schema) => schemaInterface name schema

/-- The name of the options interface. -/
def optionsName : Text := "ClientOptions"

/-- The type of a set of headers. -/
def headersType : Text := "Record<string, string>"

/-- The interface of the client's options: a base address, and perhaps headers. -/
def optionsInterface : Interface :=
  ⟨optionsName, [⟨"baseUrl", "string", false⟩, ⟨"headers", headersType, true⟩]⟩

end OpenApiClient.Client
