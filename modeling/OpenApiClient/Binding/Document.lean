import OpenApiClient.Binding.Schema

/-!
# Binding Documents

Reading the parts of a specification around the schemas, up to the whole document.

All issues of a part are collected, with one exception: the operations of a path are read one after
the other, and the first path-level parameter list or operation with an issue ends the reading of
all paths. Its issues are placed relative to that list or operation, and where its reading was given
up, that is an issue, too.
-/

namespace OpenApiClient.Binding

open OpenApiClient.Document

/-! ## Operations -/

/-- Reads a parameter. -/
def parameter (knots : Knots) : Value → Checked Parameter :=
  part knots "Parameter" fun entries =>
    Parameter.mk
      <$> Field.read ⟨"name", none⟩ entries "" text
      <*> Field.read ⟨"location", some "in"⟩ entries "" text
      <*> Field.read ⟨"required", none⟩ entries false boolean
      <*> Field.read ⟨"schema_def", some "schema"⟩ entries {} (nestedSchema knots)

/-- Reads the content of a response in one media type. -/
def mediaType (knots : Knots) : Value → Checked MediaType :=
  part knots "MediaType" fun entries =>
    MediaType.mk
      <$> Field.read ⟨"schema_def", some "schema"⟩ entries {} (nestedSchema knots)

/-- Reads a response. -/
def response (knots : Knots) : Value → Checked Response :=
  part knots "Response" fun entries =>
    Response.mk
      <$> Field.read ⟨"description", none⟩ entries "" text
      <*> Field.read? ⟨"content", none⟩ entries (mapping knots (mediaType knots))

/-- Reads an operation. -/
def operation (knots : Knots) : Value → Checked Operation :=
  part knots "Operation" fun entries =>
    Operation.mk
      <$> Field.read ⟨"operation_id", some "operationId"⟩ entries "" text
      <*> Field.read ⟨"summary", none⟩ entries "" text
      <*> Field.read ⟨"tags", none⟩ entries [] (list knots text)
      <*> Field.read ⟨"parameters", none⟩ entries [] (list knots (parameter knots))
      <*> Field.read ⟨"responses", none⟩ entries [] (mapping knots (response knots))

/-! ## Paths -/

/-- A value, or an empty container of the kind expected when the value counts as nothing. -/
def orEmpty (empty value : Value) : Value :=
  if value.isEmpty then empty else value

/-- The value of the first entry whose key spells `name` in some letter case, even a null one. -/
def firstNamed (name : String) (entries : List (Value × Value)) : Value :=
  (entries.findSome? fun entry =>
    match entry with
    | (.text key, value) => if Text.lower key == name then some value else none
    | _ => none).getD .null

/-- The parameters that a path declares for all its operations. -/
def sharedParameters (knots : Knots) (entries : List (Value × Value)) : Checked (List Parameter) :=
  list knots (parameter knots) (orEmpty (.list []) (firstNamed "parameters" entries))

/-- The method that a key names, in its own spelling. -/
def methodKey? : Value → Option Text
  | .text key => if httpMethods.contains (Text.lower key) then some key else none
  | _ => none

/-- The operations of a path, with the parameters of the path merged in. -/
def pathOperations (knots : Knots) (entries : List (Value × Value)) :
    Checked (List (Text × Operation)) :=
  (sharedParameters knots entries).andThen fun shared =>
    Checked.upToFirst <| entries.filterMap fun (key, value) =>
      (methodKey? key).map fun method =>
        (operation knots (orEmpty (.map []) value)).map fun own => (method, own.withShared shared)

/-- Reads one path, if it is a mapping. -/
def pathItem? (knots : Knots) (value : Value) : Checked (Option (List (Text × Operation))) :=
  match knots.content value with
  | .map entries => (pathOperations knots entries).map some
  | _ => .valid none

/-- Reads all paths. Paths that are no mappings are reported after everything else was read. -/
def paths (knots : Knots) (value : Value) :
    Checked (List (Text × List (Text × Operation))) :=
  match knots.content value with
  | .map entries =>
    let items := Checked.upToFirst (entries.map fun (_, item) => pathItem? knots item)
    items.settled.andThen fun items =>
      (Checked.collect <| (entries.zip items).map fun ((key, _), item) =>
        entry key (match item with
          | some operations => .valid operations
          | none => .fail .notMapping)).map setKeys
  | _ => .fail .notMapping

/-! ## Documents -/

/-- Reads the metadata of a document. -/
def info (knots : Knots) : Value → Checked Info :=
  part knots "Info" fun entries =>
    Info.mk
      <$> Field.read ⟨"title", none⟩ entries "" text
      <*> Field.read ⟨"version", none⟩ entries "" text

/-- Reads the named schemas of a document. -/
def components (knots : Knots) : Value → Checked Components :=
  part knots "Components" fun entries =>
    Components.mk
      <$> Field.read ⟨"schemas", none⟩ entries [] (mapping knots (nestedSchema knots))

/-- Reads a whole specification. -/
def specification (document : Document) : Checked Specification :=
  let knots := document.knots
  part knots "Specification" (fun entries =>
    Specification.mk
      <$> Field.read ⟨"openapi", none⟩ entries "" text
      <*> Field.read ⟨"info", none⟩ entries {} (info knots)
      <*> Field.read ⟨"paths", none⟩ entries [] (paths knots)
      <*> Field.read ⟨"components", none⟩ entries {} (components knots)) document.root

end OpenApiClient.Binding
