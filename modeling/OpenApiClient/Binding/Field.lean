import OpenApiClient.Binding.Scalar

/-!
# Fields

Finding the fields of a part of the specification in a mapping. Keys match whatever their letter
case, entries with a null value count as absent, and of several matching entries the first one wins.
A field may have a second name, the one that documents normally use (its *wire name*); an entry
under that name wins over one under the own name.
-/

namespace OpenApiClient.Binding

open OpenApiClient.Document

/-- A field of a part: its own name, and perhaps the name that documents use. -/
structure Field where
  name : String
  wireName : Option String := none
  deriving DecidableEq, Repr

/-- The value of an entry, if it is present and its key spells `name` in some letter case. -/
def entryNamed? (name : String) (entry : Value × Value) : Option Value :=
  match entry with
  | (_, .null) => none
  | (.text key, value) => if Text.lower key == Text.lower name then some value else none
  | _ => none

namespace Field

/-- The value given for a field, with the name it was given by. -/
def find? (field : Field) (entries : List (Value × Value)) : Option (String × Value) :=
  let given (name : String) : Option (String × Value) :=
    (entries.findSome? (entryNamed? name)).map (name, ·)
  (field.wireName.bind given).or (given field.name)

/-- Reads a field, or takes its default when it is not given. -/
def read {α : Type} (field : Field) (entries : List (Value × Value)) (absent : α)
    (reader : Value → Checked α) : Checked α :=
  match field.find? entries with
  | none => .valid absent
  | some (name, value) => (reader value).under (.key name)

/-- Reads a field that may be absent. -/
def read? {α : Type} (field : Field) (entries : List (Value × Value))
    (reader : Value → Checked α) : Checked (Option α) :=
  field.read entries none fun value => (reader value).map some

end Field

/-- Reads a part of the specification from the entries of its mapping. -/
def part {α : Type} (knots : Knots) (name : String)
    (reader : List (Value × Value) → Checked α) (value : Value) : Checked α :=
  match knots.content value with
  | .map entries => reader entries
  | _ => .fail (.notPart name)

end OpenApiClient.Binding
