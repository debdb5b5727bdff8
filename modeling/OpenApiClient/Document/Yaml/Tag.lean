import OpenApiClient.Document.Yaml.Timestamp

/-!
# Tags

The tags of the standard kinds of nodes, and the kind that a plain scalar without a tag is taken for
by its look: truth values, numbers, null, timestamps, the merge, the value and other indicators; text
otherwise.
-/

namespace OpenApiClient.Document.Yaml

open OpenApiClient.Text (isPlainDigit)

/-! ## Names -/

/-- What all standard tags begin with. -/
def tagBase : String := "tag:yaml.org,2002:"

def textTag : String := tagBase ++ "str"
def nullTag : String := tagBase ++ "null"
def boolTag : String := tagBase ++ "bool"
def intTag : String := tagBase ++ "int"
def floatTag : String := tagBase ++ "float"
def binaryTag : String := tagBase ++ "binary"
def timestampTag : String := tagBase ++ "timestamp"
def sequenceTag : String := tagBase ++ "seq"
def mappingTag : String := tagBase ++ "map"
def setTag : String := tagBase ++ "set"
def orderedMapTag : String := tagBase ++ "omap"
def pairsTag : String := tagBase ++ "pairs"
def mergeTag : String := tagBase ++ "merge"
def valueTag : String := tagBase ++ "value"
def indicatorTag : String := tagBase ++ "yaml"

/-- The tag handles that every document knows. -/
def standardHandles : List (String × String) :=
  [("!", "!"), ("!!", tagBase)]

/-! ## Words -/

/-- The words for truth values. -/
def boolWords : List String :=
  ["yes", "Yes", "YES", "no", "No", "NO", "true", "True", "TRUE", "false", "False", "FALSE",
   "on", "On", "ON", "off", "Off", "OFF"]

/-- The words for null. -/
def nullWords : List String :=
  ["~", "null", "Null", "NULL", ""]

/-- The words for infinity, without a sign. -/
def infinityWords : List String :=
  [".inf", ".Inf", ".INF"]

/-- The words for not-a-number. -/
def nanWords : List String :=
  [".nan", ".NaN", ".NAN"]

/-- Indicators that no plain scalar begins with. On its own, such an indicator denotes no value. -/
def indicatorWords : List String :=
  ["!", "&", "*"]

/-! ## Numbers -/

/-- A text without a leading sign. -/
def unsigned : List Char → List Char
  | '-' :: cs => cs
  | '+' :: cs => cs
  | cs => cs

/-- Whether a character is a digit or an underscore. -/
def isSpacedDigit (c : Char) : Bool :=
  isPlainDigit c || c == '_'

/-- Whether a text is a digit followed by digits and underscores. -/
def isSpacedNumber : List Char → Bool
  | [] => false
  | c :: cs => isPlainDigit c && cs.all isSpacedDigit

/-- Whether a text is a part of a number of base sixty after the first: at most 59. -/
def isSixtieth : List Char → Bool
  | [d] => isPlainDigit d
  | [t, d] => isPlainDigit t && t ≤ '5' && isPlainDigit d
  | _ => false

/-- Whether a text is a number of base sixty of at least two parts, the first of which satisfies
`isFirst`. -/
def isBaseSixty (isFirst : List Char → Bool) (cs : List Char) : Bool :=
  match cs.splitOn ':' with
  | first :: second :: rest => isFirst first && (second :: rest).all isSixtieth
  | _ => false

/-- Whether a text is not empty and all its characters belong to a class. -/
def isRunOf (belongs : Char → Bool) (cs : List Char) : Bool :=
  !cs.isEmpty && cs.all belongs

/-- Whether a text is a whole number that does not begin with zero. -/
def isPositiveNumber (cs : List Char) : Bool :=
  isSpacedNumber cs && cs.headD '0' != '0'

/-- Whether a plain scalar is taken for a whole number. -/
def isInteger (cs : List Char) : Bool :=
  match unsigned cs with
  | ['0'] => true
  | '0' :: 'b' :: digits => isRunOf (fun c => c == '0' || c == '1' || c == '_') digits
  | '0' :: 'x' :: digits =>
    isRunOf (fun c => isPlainDigit c || ('a' ≤ c && c ≤ 'f') || ('A' ≤ c && c ≤ 'F') || c == '_')
      digits
  | '0' :: digits => isRunOf (fun c => ('0' ≤ c && c ≤ '7') || c == '_') digits
  | digits => isPositiveNumber digits || isBaseSixty isPositiveNumber digits

/-- Whether a text is an exponent with a sign, or nothing. -/
def isExponentOrNone : List Char → Bool
  | [] => true
  | mark :: sign :: digits =>
    (mark == 'e' || mark == 'E') && (sign == '-' || sign == '+') && isRunOf isPlainDigit digits
  | _ => false

/-- Whether a plain scalar is taken for a floating-point number. -/
def isFloat (cs : List Char) : Bool :=
  let body := unsigned cs
  let whole := body.takeWhile (· != '.')
  match body.drop whole.length with
  | [] => false
  | _ :: afterPoint =>
    let afterFraction := afterPoint.dropWhile isSpacedDigit
    (isSpacedNumber whole && isExponentOrNone afterFraction) ||
      (cs.headD ' ' == '.' && (afterPoint.headD ' ' |> isPlainDigit) &&
        isExponentOrNone afterFraction) ||
      (isBaseSixty isSpacedNumber whole && afterFraction.isEmpty) ||
      infinityWords.contains (String.ofList body) || nanWords.contains (String.ofList cs)

/-! ## The look of a scalar -/

/-- The tag of a plain scalar without a tag. A line end at the end does not count. -/
def implicitTag (cs : List Char) : String :=
  let look := if cs.length > 1 && cs.getLast? == some '\n' then cs.dropLast else cs
  let word := String.ofList look
  if boolWords.contains word then boolTag
  else if isFloat look then floatTag
  else if isInteger look then intTag
  else if word == "<<" then mergeTag
  else if nullWords.contains word then nullTag
  else if isTimestamp look then timestampTag
  else if word == "=" then valueTag
  else if indicatorWords.contains word then indicatorTag
  else textTag

end OpenApiClient.Document.Yaml
