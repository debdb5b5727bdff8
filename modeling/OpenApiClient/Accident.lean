import OpenApiClient.Document.Yaml.Failure
import OpenApiClient.FileTree.Access

/-!
# Accidents

Failures that are not foreseen as errors of the program: they end it. The errors that are foreseen
belong to the stage at which they occur.
-/

namespace OpenApiClient

/-- A failure that no stage declares as an error. -/
inductive Accident where
  /-- A file is no text. -/
  | undecodable (fault : Text.Utf8.Fault)
  /-- A scalar denotes no value, though it has the form of one or a tag that says so. -/
  | scalar (error : Document.Yaml.ScalarError)
  /-- The operating system refuses to tell whether there is a file. -/
  | access (error : AccessError)
  /-- A path contains the character `U+0000`. -/
  | nulByte
  /-- A number stands where text is expected and is too long to be written out. -/
  | unwritable
  /-- A text has surrogates and was to be written to a file. -/
  | unencodable (fault : Text.Utf8.Unencodable)
  /-- The log level is given as no value at all. -/
  | noLevel
  /-- A path is given as no value at all. -/
  | noPath
  deriving DecidableEq, Repr

/-- The wording of an accident. -/
def Accident.message : Accident → String
  | .undecodable fault => fault.message
  | .scalar error => error.message
  | .access error => error.message
  | .nulByte => "embedded null byte"
  | .unwritable => Text.unwritableMessage
  | .unencodable fault => fault.message
  | .noLevel => "Level not an integer or a valid string: []"
  | .noPath => "expected str, bytes or os.PathLike object, not list"

/-- Why a stage gives no result: a declared error, or an accident. -/
inductive Stop (ε : Type) where
  | error (error : ε)
  | accident (accident : Accident)
  deriving Repr

/-- The same stop, with the error seen as one of another kind. -/
def Stop.map {ε φ : Type} (f : ε → φ) : Stop ε → Stop φ
  | .error e => .error (f e)
  | .accident a => .accident a

end OpenApiClient
