import OpenApiClient.Document.Calendar
import OpenApiClient.Text.Numeral
import OpenApiClient.Text.Utf8

/-!
# YAML Failures

Why a YAML text is no document, by the stage that finds out. Reading is incremental: a failure counts
only if no earlier stage fails on an earlier part of the text.
-/

namespace OpenApiClient.Document.Yaml

/-- Why a mapping that stands for a scalar gives it no text. -/
inductive MappingFault where
  /-- A timestamp may not be written as a mapping. -/
  | timestamp
  /-- The scalar is looked for in one mapping after the other, without end. -/
  | endless
  deriving DecidableEq, Repr

/-- The wording of a fault of a mapping. -/
def MappingFault.message : MappingFault → String
  | .timestamp => "expected string or bytes-like object, got 'list'"
  | .endless => "maximum recursion depth exceeded"

/-- Why a scalar denotes no value, though its tag or its look says which kind of value. -/
inductive ScalarError where
  | integer (base : Nat) (text : Text) (error : Text.NumeralError)
  | float (text : Text)
  /-- A number has no characters at all, or a whole number none behind its sign. -/
  | emptyNumber
  /-- A part of a number of base sixty has a place value beyond all floating-point numbers. -/
  | floatOverflow
  /-- A word for no truth value. -/
  | truthValue (word : Text)
  | calendar (error : CalendarError)
  /-- A text of another form than a timestamp. -/
  | notTimestamp
  /-- A mapping is written where the scalar should stand. -/
  | mapping (fault : MappingFault)
  /-- An escape names a code point beyond the last one. -/
  | codePoint
  /-- An escape names a code point that does not even fit into 31 bits. -/
  | codePointSize
  deriving DecidableEq, Repr

/-- The error of a mapping in the place of a scalar, whatever its fault. -/
@[match_pattern]
abbrev ScalarError.timestampMapping {fault : MappingFault} : ScalarError :=
  .mapping fault

/-- The wording of a scalar error. -/
def ScalarError.message : ScalarError → String
  | .integer base text e => e.message base text
  | .float text => "could not convert string to float: " ++ Text.quoted text
  | .emptyNumber => "string index out of range"
  | .floatOverflow => "int too large to convert to float"
  | .truthValue word => Text.quoted word
  | .calendar e => e.message
  | .notTimestamp => "'NoneType' object has no attribute 'groupdict'"
  | .mapping fault => fault.message
  | .codePoint => "chr() arg not in range(0x110000)"
  | .codePointSize => "Python int too large to convert to C int"

/-- Why a text is no document. -/
inductive Failure where
  /-- The bytes are no text. -/
  | undecodable (fault : Text.Utf8.Fault)
  /-- A character that no document may hold. -/
  | unacceptable
  /-- A stretch of text that is no token. -/
  | malformed
  /-- A token where the grammar calls for another. -/
  | misplaced
  /-- An alias without its anchor, an anchor set twice, or a second document. -/
  | reference
  /-- A node that denotes no value. -/
  | unconstructible
  /-- A scalar whose text does not fit its tag. -/
  | scalar (error : ScalarError)
  deriving DecidableEq, Repr

end OpenApiClient.Document.Yaml
