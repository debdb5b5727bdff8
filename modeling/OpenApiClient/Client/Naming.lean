import OpenApiClient.Specification
import OpenApiClient.Text.Blank
import OpenApiClient.Text.LowerCase
import OpenApiClient.Text.UpperCase

/-!
# Naming

The names that generated code takes from a specification: identifiers, the class name, and one method
name per operation. Every operation needs an id, and no two operations may share a method name.
-/

namespace OpenApiClient.Client

/-! ## Identifiers -/

/-- A name whose first character is in lower case; the rest is kept as it is. -/
def camelCase : Text → Text
  | [] => []
  | first :: rest => Text.lowerPoint first ++ rest

/-! ## The class name -/

/-- The class name for a document without a usable title. -/
def defaultClientName : Text := "ApiClient"

/-- Whether a character is left out of the class name wherever it stands in the title. -/
def isTitleSeparator (c : Char) : Bool :=
  c == ' ' || c == '|' || c == '-'

/-- The class name: a non-empty given name, else one made from the title. -/
def clientName (title : Text) (given : Option Text) : Text :=
  match given.filter (!·.isEmpty) with
  | some name => name
  | none =>
    let cleaned := Text.trim (title.filter (!·.is isTitleSeparator))
    if cleaned.isEmpty then defaultClientName else cleaned ++ "Client"

/-! ## Method names -/

/-- An operation with its place in the specification and its method name. -/
structure NamedOperation where
  path : Text
  method : Text
  name : Text
  operation : Operation
  deriving Repr

/-- The HTTP method in upper case, a space, and the path. -/
def NamedOperation.label (named : NamedOperation) : Text :=
  Text.upper named.method ++ " " ++ named.path

/-- Why operations cannot be given method names. -/
inductive NamingError where
  /-- An operation has no id. -/
  | missingId (operation : NamedOperation)
  /-- Operations share a method name; all that share one are listed. -/
  | conflict (operations : List NamedOperation)
  deriving Repr

/-- The wording of a naming error. -/
def NamingError.message : NamingError → Text
  | .missingId named => "Operation " ++ named.label ++ " has no operationId"
  | .conflict operations =>
    "Conflicting operationId values map to the same method name: " ++
      Text.join ", " (operations.map fun named =>
        named.label ++ " (" ++ named.operation.id ++ ")")

/-- The operations of a specification in document order, each with the name made from its id. -/
def namedOperations (specification : Specification) : List NamedOperation :=
  specification.paths.flatMap fun (path, methods) =>
    methods.map fun (method, operation) => ⟨path, method, camelCase operation.id, operation⟩

/-- Whether an operation shares its method name with another one of the list. -/
def sharesName (operations : List NamedOperation) (named : NamedOperation) : Bool :=
  1 < (operations.map (·.name)).count named.name

/-- The operations of a specification with their method names. The first missing id is reported
before any shared name. -/
def resolveOperations (specification : Specification) : Except NamingError (List NamedOperation) :=
  let operations := namedOperations specification
  match operations.find? fun named => Text.isAllBlank named.operation.id with
  | some named => .error (.missingId named)
  | none =>
    let conflicting := operations.filter (sharesName operations)
    if conflicting.isEmpty then .ok operations else .error (.conflict conflicting)

end OpenApiClient.Client
