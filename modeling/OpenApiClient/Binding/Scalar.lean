import OpenApiClient.Binding.Issue
import OpenApiClient.Document.Value
import OpenApiClient.Text.LowerCase
import OpenApiClient.Text.Utf8

/-!
# Binding Scalars and Containers

How document values are read where the specification expects text, a truth value, a list or a
mapping. Numbers stand for their text; words and numbers stand for truth values.
-/

namespace OpenApiClient.Binding

open OpenApiClient.Document

/-! ## Text -/

/-- Reads text: text itself, a number as it is written out, or bytes that decode. -/
def text : Value → Checked Text
  | .text s => .valid s
  | .int n =>
    match Text.writeInteger? n with
    | some digits => .valid digits
    | none => .abandoned
  | .float x => .valid (Value.floatText x)
  | .bytes octets =>
    match Text.Utf8.decode octets with
    | .ok cs => .valid (.ofChars cs)
    | .error _ => .fail .undecodableText
  | _ => .fail .notText

/-! ## Truth values -/

/-- The words for a truth value, in lower case. -/
def booleanWords : List (String × Bool) :=
  [("0", false), ("off", false), ("f", false), ("false", false), ("n", false), ("no", false),
   ("1", true), ("on", true), ("t", true), ("true", true), ("y", true), ("yes", true)]

/-- Reads a word as a truth value; the case of plain letters does not matter. -/
def booleanWord (cs : List Char) : Checked Bool :=
  match booleanWords.lookup (String.ofList (cs.map Char.toLower)) with
  | some value => .valid value
  | none => .fail .unreadableBoolean

/-- Reads a number as a truth value. -/
def booleanNumber (n : Int) : Checked Bool :=
  if n == 0 then .valid false
  else if n == 1 then .valid true
  else .fail .unreadableBoolean

/-- The least number above those that fit into 64 bits. -/
def wordLimit : Int := 0x8000000000000000

/-- Whether a number fits into 64 bits. -/
def fitsWord (n : Int) : Bool :=
  -wordLimit ≤ n && n < wordLimit

/-- Reads a truth value: a boolean, a word for one, zero or one. -/
def boolean : Value → Checked Bool
  | .bool b => .valid b
  | .text s =>
    match s.chars? with
    | some cs => booleanWord cs
    | none => .fail .undecodableText
  | .bytes octets =>
    match Text.Utf8.decode octets with
    | .ok cs => booleanWord cs
    | .error _ => .fail .unreadableBoolean
  | .int n => if fitsWord n then booleanNumber n else .fail .notBoolean
  | .float x =>
    match x.toInt? with
    | some n => if fitsWord n && n != -wordLimit then booleanNumber n else .fail .notBoolean
    | none => .fail .notBoolean
  | _ => .fail .notBoolean

/-! ## Containers -/

/-- The elements of a list, a set or a pair. Those of a set are taken as they are written, though nothing
fixes the order in which a set is gone over. -/
def elements? : Value → Option (List Value)
  | .list items => some items
  | .set members => some members
  | .pair key value => some [key, value]
  | _ => none

/-- Reads a list, each element by `element`. -/
def list {α : Type} (knots : Knots) (element : Value → Checked α) (value : Value) :
    Checked (List α) :=
  match elements? (knots.content value) with
  | none => .fail .notList
  | some items =>
    Checked.collect <| items.zipIdx.map fun (item, index) =>
      (element item).under (.index (Int.ofNat index))

/-- The step that a key takes into a mapping. -/
def keyStep : Value → Step
  | .text s => .key s.shown
  | .bool b => .index (if b then 1 else 0)
  | .int n => if fitsWord n then .index n else .key (toString n)
  | key => .key key.description

/-- Sets the value of a key: a key that is already there keeps its place. -/
def setKey {α : Type} (name : Text) (value : α) : List (Text × α) → List (Text × α)
  | [] => [(name, value)]
  | entry :: entries =>
    if entry.1 == name then (name, value) :: entries else entry :: setKey name value entries

/-- The mapping that a sequence of entries writes. -/
def setKeys {α : Type} (entries : List (Text × α)) : List (Text × α) :=
  entries.foldl (fun mapping entry => setKey entry.1 entry.2 mapping) []

/-- Reads one entry of a mapping; its value is read even when its key is at fault. -/
def entry {α : Type} (key : Value) (value : Checked α) : Checked (Text × α) :=
  (Prod.mk <$> (text key).under (.key "[key]") <*> value).under (keyStep key)

/-- Reads a mapping with text keys, each value by `element`. -/
def mapping {α : Type} (knots : Knots) (element : Value → Checked α) (value : Value) :
    Checked (List (Text × α)) :=
  match knots.content value with
  | .map entries =>
    (Checked.collect (entries.map fun (key, value) => entry key (element value))).map setKeys
  | _ => .fail .notMapping

end OpenApiClient.Binding
