import OpenApiClient.Client.Interface

/-!
# Client Methods

The method for an operation: its parameters, its result type, and the request path that it computes
from them. Only path and query parameters enter the signature; a warning is due for each other one.
-/

namespace OpenApiClient.Client

open OpenApiClient.TypeScript (Method MethodParameter Statement)

/-! ## Parameters -/

/-- Whether a parameter is part of the request path. -/
def inPath (parameter : Parameter) : Bool :=
  parameter.location == "path"

/-- Whether a parameter is part of the method signature. -/
def inSignature (parameter : Parameter) : Bool :=
  inPath parameter || parameter.location == "query"

/-- The method parameter for a parameter of the operation. -/
def methodParameter (parameter : Parameter) : MethodParameter :=
  { name := camelCase parameter.name, annotation := schemaTypeText parameter.schema }

/-- The parameters of the method, all of them required. -/
def methodParameters (operation : Operation) : List MethodParameter :=
  (operation.parameters.filter inSignature).map methodParameter

/-- The warning for a parameter that is left out. -/
def skippedWarning (named : NamedOperation) (parameter : Parameter) : Text :=
  let location : Text :=
    if parameter.location.isEmpty then "unlocated" else parameter.location
  "Skipping " ++ location ++ " parameter '" ++ parameter.name ++ "' of " ++ named.label

/-- The warnings for the parameters that an operation leaves out. -/
def operationWarnings (named : NamedOperation) : List Text :=
  (named.operation.parameters.filter (!inSignature ·)).map (skippedWarning named)

/-- The warnings for the parameters that all operations leave out. -/
def skippedWarnings (operations : List NamedOperation) : List Text :=
  operations.flatMap operationWarnings

/-! ## Results -/

/-- The response that describes success: status 200, else status 201. -/
def successResponse? (operation : Operation) : Option Response :=
  let withStatus (status : Text) := operation.responses.lookup status
  (withStatus "200").or (withStatus "201")

/-- Whether the name of a media type speaks of JSON. -/
def isJson (mediaType : Text) : Bool :=
  Text.occursIn ("json" : Text) mediaType

/-- The schema of the first JSON content of a response. -/
def jsonSchema? (response : Response) : Option Schema :=
  ((response.content.getD []).find? fun (name, _) => isJson name).map fun (_, media) => media.schema

/-- The type of the method's result; without JSON content there is none. -/
def resultType (operation : Operation) : TypeExpr :=
  match (successResponse? operation).bind jsonSchema? with
  | some schema => schemaType schema
  | none => .void

/-- The text of the result type. -/
def resultTypeText (operation : Operation) : Text :=
  (resultType operation).text

/-! ## The request path -/

/-- A placeholder of a path template. -/
def placeholder (name : Text) : Text :=
  "\x7b" ++ name ++ "\x7d"

/-- The interpolation of a method parameter in a template literal. -/
def interpolation (name : Text) : Text :=
  "$\x7b" ++ camelCase name ++ "\x7d"

/-- A path template with the placeholders of one parameter replaced. -/
def fillPlaceholder (path name : Text) : Text :=
  Text.replaceAll (placeholder name) (interpolation name) path

/-- The names of the path parameters of an operation. -/
def pathParameterNames (operation : Operation) : List Text :=
  (operation.parameters.filter inPath).map (·.name)

/-- The expression for the request path: the path between single quotes when the operation has no
path parameters, otherwise a template literal. -/
def pathExpression (path : Text) (operation : Operation) : Text :=
  let names := pathParameterNames operation
  if names.isEmpty then "'" ++ path ++ "'"
  else "`" ++ names.foldl fillPlaceholder path ++ "`"

/-! ## The method -/

/-- The method for an operation. -/
def operationMethod (named : NamedOperation) : Method Statement :=
  let result := resultTypeText named.operation
  { name := named.name
    parameters := methodParameters named.operation
    returnType := some ("Promise<" ++ result ++ ">")
    modifiers := ["async"]
    body :=
      [.block
        ("return this.request<" ++ result ++ ">(" ++ pathExpression named.path named.operation ++
          ", \x7b")
        [.line ("method: '" ++ Text.upper named.method ++ "',")]
        "\x7d);"] }

end OpenApiClient.Client
