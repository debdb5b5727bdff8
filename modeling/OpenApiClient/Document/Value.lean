import OpenApiClient.Decimal.Notation
import OpenApiClient.Document.Calendar
import OpenApiClient.Text.Quoted

/-!
# Document Values

The tree that a document file denotes, before anything is known about its meaning. It covers what
both file formats can write: JSON has text, numbers, lists and mappings with text keys; YAML adds
bytes, dates, sets, ordered pairs, keys of any scalar kind, and containers that contain themselves.

A container that contains itself is a *knot*: the tree refers to it by number, and the document
keeps its content apart. Every other container stands in the tree where it occurs.
-/

namespace OpenApiClient.Document

open OpenApiClient.Decimal (Binary64 Layout)

/-! ## Values and knots -/

/-- A document value. -/
inductive Value where
  | null
  | bool (value : Bool)
  | int (value : Int)
  | float (value : Binary64)
  | text (value : Text)
  | bytes (value : List UInt8)
  | date (value : Date)
  | dateTime (value : DateTime)
  | list (items : List Value)
  /-- An entry of an ordered mapping. -/
  | pair (key value : Value)
  /-- The members stand in the order in which they are written. A set itself has no order. -/
  | set (members : List Value)
  | map (entries : List (Value × Value))
  /-- A container that contains itself. -/
  | knot (id : Nat)
  deriving Repr, Inhabited

/-- The contents of the containers that contain themselves, by number. -/
abbrev Knots := List Value

/-- The content of a value: a knot is replaced by what it contains. -/
def Knots.content (knots : Knots) : Value → Value
  | .knot id => knots.getD id .null
  | value => value

namespace Value

/-! ## Numbers -/

/-- How numbers are written: positionally from `0.0001` up to sixteen digits, otherwise with an
exponent of at least two digits. -/
def numberLayout : Layout :=
  ⟨-4, 15, 2, "inf", "nan"⟩

/-- The text of a floating-point number. -/
def floatText (x : Binary64) : String :=
  numberLayout.render x

/-- Whether a value is not-a-number. -/
def isNan (value : Value) : Bool :=
  match value with
  | .float .nan => true
  | _ => false

/-- The whole number that a boolean, whole or integral floating-point value equals. -/
def toInt? : Value → Option Int
  | .bool b => some (if b then 1 else 0)
  | .int n => some n
  | .float x => x.toInt?
  | _ => none

/-! ## Equal keys -/

/-- Whether two scalars are one key of a mapping. Numbers are compared by value, so `1`, `true` and
`1.0` are one key. Containers are never keys. -/
def sameKey (a b : Value) : Bool :=
  match a.toInt?, b.toInt? with
  | some m, some n => m == n
  | some _, none => false
  | none, some _ => false
  | none, none =>
    match a, b with
    | .null, .null => true
    | .float x, .float y => x == y
    | .text s, .text t => s == t
    | .bytes s, .bytes t => s == t
    | .date s, .date t => s == t
    | .dateTime s, .dateTime t => s.same t
    | _, _ => false

/-- A mapping with one more entry, where `same` tells which keys are one. A key that is already there
keeps its place and its spelling and takes the new value. -/
def put {κ α : Type} (same : κ → κ → Bool) (key : κ) (value : α) : List (κ × α) → List (κ × α)
  | [] => [(key, value)]
  | entry :: entries =>
    if same entry.1 key then (entry.1, value) :: entries
    else entry :: put same key value entries

/-- The mapping that a sequence of entries writes. -/
def putAll {κ α : Type} (same : κ → κ → Bool) (entries : List (κ × α)) : List (κ × α) :=
  entries.foldl (fun mapping entry => put same entry.1 entry.2 mapping) []

/-! ## Kinds and descriptions -/

/-- Whether a value is a container. -/
def isContainer : Value → Bool
  | .list _ | .pair .. | .set _ | .map _ | .knot _ => true
  | _ => false

/-- Whether a value counts as nothing: null, false, zero and empty values do. -/
def isEmpty : Value → Bool
  | .null => true
  | .bool b => !b
  | .int n => n == 0
  | .float x => x.isZero
  | .text s => s.isEmpty
  | .bytes octets => octets.isEmpty
  | .list items => items.isEmpty
  | .set members => members.isEmpty
  | .map entries => entries.isEmpty
  | .date _ | .dateTime _ | .pair .. | .knot _ => false

/-- The name of a value's kind. -/
def kindName : Value → String
  | .null => "NoneType"
  | .bool _ => "bool"
  | .int _ => "int"
  | .float _ => "float"
  | .text _ => "str"
  | .bytes _ => "bytes"
  | .date _ => "datetime.date"
  | .dateTime _ => "datetime.datetime"
  | .list _ => "list"
  | .pair .. => "tuple"
  | .set _ => "set"
  | .map _ | .knot _ => "dict"

/-- A scalar as messages name it. -/
def description : Value → String
  | .null => "None"
  | .bool b => if b then "True" else "False"
  | .int n => toString n
  | .float x => floatText x
  | .text s => s.shown
  | .bytes octets => Text.quotedBytes octets
  | .date d => d.description
  | .dateTime t => t.description
  | _ => ""

end Value

end OpenApiClient.Document

/-- A whole document. -/
structure OpenApiClient.Document where
  root : OpenApiClient.Document.Value
  knots : OpenApiClient.Document.Knots := []
  deriving Repr, Inhabited
