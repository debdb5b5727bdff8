import OpenApiClient.Accident
import OpenApiClient.Binding.Document
import OpenApiClient.Document.Json
import OpenApiClient.Document.Yaml
import OpenApiClient.Text.LineEnd
import OpenApiClient.Text.LowerCase

/-!
# Input

Taking a specification from a file: finding the file, reading it as JSON or as YAML by the ending of
its name, and binding the document to the model.
-/

namespace OpenApiClient

/-! ## Errors -/

/-- Why no specification can be taken from a file. -/
inductive InputError where
  | notFound (place : PathName)
  | unreadable (path : PathName) (cause : AccessError)
  | notJson (path : PathName) (text : List Char) (fault : Document.Json.Fault)
  | notYaml (path : PathName) (failure : Document.Yaml.Failure)
  /-- The document is of another kind than a mapping. -/
  | notMapping (kind : String)
  /-- The document does not fit the model. -/
  | misfit (issues : List Issue)

/-- The wording of an input error. -/
def InputError.message : InputError → String
  | .notFound place => "Input file not found: " ++ place.text
  | .unreadable path cause => "Failed to read OpenAPI file " ++ path.text ++ ": " ++ cause.message
  | .notJson path text fault =>
    "Failed to parse JSON in " ++ path.text ++ ": " ++ fault.message text
  | .notYaml path _ => "Failed to parse YAML in " ++ path.text
  | .notMapping kind =>
    "OpenAPI document must deserialize to a mapping, got <class '" ++ kind ++ "'>"
  | .misfit issues =>
    "OpenAPI document does not fit the expected model: " ++ issuesHeadline "Specification" issues

/-! ## Documents -/

/-- The ending of the names of JSON files, in lower case. -/
def jsonSuffix : String := ".json"

/-- Whether a file is read as JSON. -/
def PathName.isJson (path : PathName) : Bool :=
  Text.lower path.suffix == Text.ofString jsonSuffix

/-- Reads the content of a JSON file. -/
def readJson (path : PathName) (bytes : List UInt8) : Except (Stop InputError) Document :=
  match Text.Utf8.decode bytes with
  | .error fault => .error (.accident (.undecodable fault))
  | .ok chars =>
    let text := Text.unifyLineEnds chars
    match Document.Json.read text with
    | .ok value => .ok { root := value }
    | .error (.fault fault) => .error (.error (.notJson path text fault))
    | .error (.numeral e literal) => .error (.accident (.scalar (.integer 10 literal e)))

/-- Reads the content of a YAML file. -/
def readYaml (path : PathName) (bytes : List UInt8) : Except (Stop InputError) Document :=
  match Document.Yaml.read bytes with
  | .ok document => .ok document
  | .error (.undecodable fault) => .error (.accident (.undecodable fault))
  | .error (.scalar e) => .error (.accident (.scalar e))
  | .error failure => .error (.error (.notYaml path failure))

/-- The bytes of an input file. -/
def inputBytes (fs : FileSystem) (path : PathName) : Except (Stop InputError) (List UInt8) :=
  if path.hasNul then .error (.accident .nulByte)
  else match fs.isFile path with
    | .error e => .error (.accident (.access e))
    | .ok false => .error (.error (.notFound (fs.resolve path)))
    | .ok true => (fs.bytesOf path).mapError fun e => .error (.unreadable path e)

/-- The document that a file holds. It must be a mapping. -/
def loadDocument (fs : FileSystem) (path : PathName) : Except (Stop InputError) Document := do
  let bytes ← inputBytes fs path
  let document ← if path.isJson then readJson path bytes else readYaml path bytes
  match document.knots.content document.root with
  | .map _ => return document
  | other => throw (.error (.notMapping other.kindName))

/-! ## Specifications -/

/-- The specification that a document describes. -/
def bindDocument (document : Document) : Except (Stop InputError) Specification :=
  match Binding.specification document with
  | .valid specification => .ok specification
  | .invalid issues => .error (.error (.misfit issues))
  | .abandoned => .error (.accident .unwritable)

/-- The specification that a file holds. -/
def loadSpecification (fs : FileSystem) (path : PathName) :
    Except (Stop InputError) Specification := do
  bindDocument (← loadDocument fs path)

end OpenApiClient
