import OpenApiClient.Text.CodePoint

/-!
# Tokens

The tokens of a YAML text. Collections in block style are marked by tokens that stand for changes of
indentation.
-/

namespace OpenApiClient.Document.Yaml

/-- A token. -/
inductive Token where
  | streamEnd
  | versionDirective (major : Int)
  | tagDirective (handle expansion : String)
  | otherDirective
  | documentStart
  | documentEnd
  | blockSequenceStart
  | blockMappingStart
  | blockEnd
  | flowSequenceStart
  | flowSequenceEnd
  | flowMappingStart
  | flowMappingEnd
  | blockEntry
  | flowEntry
  | key
  | value
  | reference (name : String)
  | anchor (name : String)
  /-- A tag, written with a handle or, without one, in full. -/
  | tag (handle : Option String) (suffix : String)
  /-- A scalar; `plain` tells whether it stands without quotes. -/
  | scalar (text : Text) (plain : Bool)
  deriving DecidableEq, Repr

end OpenApiClient.Document.Yaml
