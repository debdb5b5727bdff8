import OpenApiClient.Client.Method
import OpenApiClient.Client.Version
import OpenApiClient.TypeScript.Layout

/-!
# Client Generation

The generated client: a class with a constructor, a request helper and one method per operation, and
the source file that holds it together with the interfaces.
-/

namespace OpenApiClient.Client

open OpenApiClient.TypeScript

/-! ## Fixed members -/

/-- The constructor of the client class. -/
def constructorMethod : Method Statement :=
  { name := "constructor"
    parameters := [{ name := "options", annotation := optionsName }]
    returnType := none
    body :=
      [.line "this.baseUrl = options.baseUrl.replace(/\\/$/, '');",
       .line "this.headers = options.headers ?? \x7b\x7d;"] }

/-- The helper through which all methods send their requests. -/
def requestMethod : Method Statement :=
  { name := "request"
    parameters :=
      [{ name := "path", annotation := "string" },
       { name := "options", annotation := "RequestInit", default? := some "\x7b\x7d" }]
    returnType := some "Promise<T>"
    modifiers := ["private", "async"]
    typeParameters := ["T"]
    body :=
      [.block "const response = await fetch(`$\x7bthis.baseUrl\x7d$\x7bpath\x7d`, \x7b"
        [.line "...options,",
         .block "headers: \x7b"
          [.line "'Content-Type': 'application/json',",
           .line "...this.headers,",
           .line "...options.headers,"]
          "\x7d,"]
        "\x7d);",
       .blank,
       .block "if (!response.ok) \x7b"
        [.line
          "throw new Error(`HTTP $\x7bresponse.status\x7d: $\x7bresponse.statusText\x7d`);"]
        "\x7d",
       .blank,
       .block "if (response.status === 204) \x7b" [.line "return undefined as T;"] "\x7d",
       .blank,
       .line "return response.json();"] }

/-- The fields of the client class. -/
def clientFields : List ClassField :=
  [{ name := "baseUrl", annotation := "string", modifiers := ["private"] },
   { name := "headers", annotation := headersType, modifiers := ["private"] }]

/-- The client class for a list of operations. -/
def clientClass (name : Text) (operations : List NamedOperation) : ClassDeclaration :=
  ⟨name, clientFields, constructorMethod :: requestMethod :: operations.map operationMethod⟩

/-! ## The source file -/

/-- The comment lines of every generated file. -/
def headerComments : List Text :=
  ["Auto-generated TypeScript client", "Generated from OpenAPI specification"]

/-- The source file of a client. -/
def clientFile (name : Text) (components : Components) (operations : List NamedOperation) :
    SourceFile :=
  ⟨headerComments,
   (componentInterfaces components).map .interface ++
    [.interface optionsInterface, .class (clientClass name operations)]⟩

/-- A generated client: its class name, what to warn about, and its source. -/
structure GeneratedClient where
  name : Text
  warnings : List Text
  source : Text
  deriving DecidableEq, Repr

/-- The client for a specification, under a given class name or one made from the title. -/
def generate (specification : Specification) (givenName : Option Text) :
    Except NamingError GeneratedClient :=
  match resolveOperations specification with
  | .error e => .error e
  | .ok operations =>
    let name := clientName specification.info.title givenName
    .ok
      { name
        warnings :=
          (versionWarning specification.openapi).toList ++ skippedWarnings operations
        source := (clientFile name specification.components operations).text }

end OpenApiClient.Client
