import OpenApiClient.Proofs.Binding.Methods
import OpenApiClient.Proofs.Binding.Fields

/-!
# The Shape of Accepted Documents

Which documents are accepted: those in which everything that is looked at has the shape that is expected
at its place. What a field expects is strict at all places but one, the type of a schema, where anything
may stand. Schemas may be nested to a bounded depth, and none may contain itself.

## Layers

- **Results**: `IsValid`, and when a result that is put together from others is valid.
- **Shapes**: `shapes`, what the fields of each part expect, and `Fits`, what has a shape.
- **Readers**: `Reads`, a reader accepts what fits; from scalars over containers and schemas to parts.
- **Main statement**: `exists_bindDocument_iff`.
-/

namespace OpenApiClient

/-! ## Results -/

namespace Checked

variable {α β : Type}

/-- Whether a result has a value. -/
def IsValid (x : Checked α) : Prop :=
  ∃ value, x = .valid value

@[simp] theorem isValid_valid (value : α) : (valid value).IsValid :=
  ⟨value, rfl⟩

@[simp] theorem not_isValid_fail (kind : IssueKind) : ¬ (fail kind : Checked α).IsValid := by
  rintro ⟨value, h⟩
  contradiction

theorem isValid_map {f : α → β} {x : Checked α} : (x.map f).IsValid ↔ x.IsValid := by
  cases x <;> simp [IsValid, map]

theorem isValid_fmap {f : α → β} {x : Checked α} : (f <$> x).IsValid ↔ x.IsValid :=
  isValid_map

theorem isValid_ap {f : Checked (α → β)} {x : Checked α} :
    (f.ap x).IsValid ↔ f.IsValid ∧ x.IsValid := by
  cases f <;> cases x <;> simp [IsValid, ap]

theorem isValid_seq {f : Checked (α → β)} {x : Checked α} :
    (f <*> x).IsValid ↔ f.IsValid ∧ x.IsValid :=
  isValid_ap

theorem isValid_andThen {x : Checked α} {next : α → Checked β} :
    (x.andThen next).IsValid ↔ ∃ value, x = .valid value ∧ (next value).IsValid := by
  cases x <;> simp [IsValid, andThen]

theorem isValid_under {step : Step} {x : Checked α} : (x.under step).IsValid ↔ x.IsValid := by
  simp [IsValid, under_eq_valid_iff]

theorem isValid_collect {results : List (Checked α)} :
    (collect results).IsValid ↔ ∀ result ∈ results, result.IsValid := by
  induction results with
  | nil => simp [collect]
  | cons result results ih => rw [collect, isValid_ap, isValid_map, ih, List.forall_mem_cons]

theorem isValid_upToFirst {results : List (Checked α)} :
    (upToFirst results).IsValid ↔ ∀ result ∈ results, result.IsValid := by
  simp only [IsValid, upToFirst_eq_valid_iff, ← collect_eq_valid_iff]
  exact isValid_collect

end Checked

namespace Binding

open OpenApiClient.Document
open OpenApiClient.Checked

/-! ## Shapes -/

/-- What is expected at a place of a document. -/
inductive Shape where
  | text
  | truth
  | anything
  | part (part : Part)
  | list (element : Shape)
  | mapping (element : Shape)
  | pathItem
  deriving DecidableEq, Repr

/-- The fields of a part, each with what it expects. -/
def shapes : Part → List (Field × Shape)
  | .schema =>
    [(dollarRefField, .text), (refField, .text), (typeField, .anything), (formatField, .text),
     (itemsField, .part .schema), (propertiesField, .mapping (.part .schema)),
     (requiredField, .list .text)]
  | .parameter =>
    [(⟨"name", none⟩, .text), (⟨"location", some "in"⟩, .text), (⟨"required", none⟩, .truth),
     (⟨"schema_def", some "schema"⟩, .part .schema)]
  | .mediaType => [(⟨"schema_def", some "schema"⟩, .part .schema)]
  | .response => [(⟨"description", none⟩, .text), (⟨"content", none⟩, .mapping (.part .mediaType))]
  | .operation =>
    [(⟨"operation_id", some "operationId"⟩, .text), (⟨"summary", none⟩, .text),
     (⟨"tags", none⟩, .list .text), (⟨"parameters", none⟩, .list (.part .parameter)),
     (⟨"responses", none⟩, .mapping (.part .response))]
  | .info => [(⟨"title", none⟩, .text), (⟨"version", none⟩, .text)]
  | .components => [(⟨"schemas", none⟩, .mapping (.part .schema))]
  | .specification =>
    [(⟨"openapi", none⟩, .text), (⟨"info", none⟩, .part .info),
     (⟨"paths", none⟩, .mapping .pathItem), (⟨"components", none⟩, .part .components)]

/-- Whether a value can be read as text. -/
def IsTextual : Value → Prop
  | .text _ | .float _ => True
  | .int n => (Text.writeInteger? n).isSome
  | .bytes octets => ∃ cs, Text.Utf8.decode octets = .ok cs
  | _ => False

/-- Whether what is given for fields is as they expect. -/
def FieldsHold (holds : Shape → Value → Prop) (fields : List (Field × Shape))
    (entries : List (Value × Value)) : Prop :=
  ∀ entry ∈ fields, ∀ name value, entry.1.Gives entries name value → holds entry.2 value

theorem fieldsHold_nil {holds : Shape → Value → Prop} {entries : List (Value × Value)} :
    FieldsHold holds [] entries :=
  nofun

theorem fieldsHold_cons {holds : Shape → Value → Prop} {field : Field} {shape : Shape}
    {fields : List (Field × Shape)} {entries : List (Value × Value)} :
    FieldsHold holds ((field, shape) :: fields) entries ↔
      (∀ name value, field.Gives entries name value → holds shape value) ∧
        FieldsHold holds fields entries :=
  List.forall_mem_cons

/-- Whether a value has the shape that a place expects. At most `nesting` schemas may be nested in it, and
`active` lists the knots of the schemas around it. -/
inductive Fits (knots : Knots) : (nesting : Nat) → (active : List Nat) → Shape → Value → Prop
  | text {nesting : Nat} {active : List Nat} {value : Value} :
      IsTextual value → Fits knots nesting active .text value
  | truth {nesting : Nat} {active : List Nat} {value : Value} :
      (boolean value).IsValid → Fits knots nesting active .truth value
  | anything {nesting : Nat} {active : List Nat} {value : Value} :
      Fits knots nesting active .anything value
  | schema {nesting : Nat} {active : List Nat} {value : Value} {entries : List (Value × Value)} :
      isActive active value = false → knots.content value = .map entries →
        (∀ entry ∈ shapes .schema, ∀ name given, entry.1.Gives entries name given →
          Fits knots nesting (activate active value) entry.2 given) →
        Fits knots (nesting + 1) active (.part .schema) value
  | part {nesting : Nat} {active : List Nat} {part : Part} {value : Value}
      {entries : List (Value × Value)} :
      part ≠ .schema → knots.content value = .map entries →
        (∀ entry ∈ shapes part, ∀ name given, entry.1.Gives entries name given →
          Fits knots nesting active entry.2 given) →
        Fits knots nesting active (.part part) value
  | list {nesting : Nat} {active : List Nat} {element : Shape} {value : Value} {items : List Value} :
      elements? (knots.content value) = some items →
        (∀ item ∈ items, Fits knots nesting active element item) →
        Fits knots nesting active (.list element) value
  | mapping {nesting : Nat} {active : List Nat} {element : Shape} {value : Value}
      {entries : List (Value × Value)} :
      knots.content value = .map entries → (∀ entry ∈ entries, IsTextual entry.1) →
        (∀ entry ∈ entries, Fits knots nesting active element entry.2) →
        Fits knots nesting active (.mapping element) value
  | pathItem {nesting : Nat} {active : List Nat} {value : Value} {entries : List (Value × Value)} :
      knots.content value = .map entries →
        Fits knots nesting active (.list (.part .parameter))
          (orEmpty (.list []) (firstNamed "parameters" entries)) →
        (∀ entry ∈ entries, (methodKey? entry.1).isSome →
          Fits knots nesting active (.part .operation) (orEmpty (.map []) entry.2)) →
        Fits knots nesting active .pathItem value

theorem isActive_eq_false_of_subset {active others : List Nat} (hsubset : others ⊆ active)
    {value : Value} (h : isActive active value = false) : isActive others value = false := by
  cases value with
  | knot id =>
    simp only [isActive, List.contains_eq_mem, decide_eq_false_iff_not] at h ⊢
    exact fun hid => h (hsubset hid)
  | _ => rfl

theorem activate_subset {active others : List Nat} (hsubset : others ⊆ active) (value : Value) :
    activate others value ⊆ activate active value := by
  cases value with
  | knot id => exact List.cons_subset_cons id hsubset
  | _ => exact hsubset

/-- What fits within some schemas fits within fewer of them. -/
theorem Fits.mono {knots : Knots} {nesting : Nat} {active others : List Nat} {shape : Shape}
    {value : Value} (h : Fits knots nesting active shape value) (hsubset : others ⊆ active) :
    Fits knots nesting others shape value := by
  induction h generalizing others with
  | text htext => exact .text htext
  | truth htruth => exact .truth htruth
  | anything => exact .anything
  | schema hactive hentries _ ih =>
    refine .schema (isActive_eq_false_of_subset hsubset hactive) hentries ?_
    intro entry hentry name given hgives
    exact ih entry hentry name given hgives (activate_subset hsubset _)
  | part hne hentries _ ih =>
    exact .part hne hentries fun entry hentry name given hgives =>
      ih entry hentry name given hgives hsubset
  | list hitems _ ih => exact .list hitems fun item hitem => ih item hitem hsubset
  | mapping hentries hkeys _ ih =>
    exact .mapping hentries hkeys fun entry hentry => ih entry hentry hsubset
  | pathItem hentries _ _ ihShared ihOperations =>
    exact .pathItem hentries (ihShared hsubset) fun entry hentry hmethod =>
      ihOperations entry hentry hmethod hsubset

section

variable {knots : Knots} {nesting : Nat} {active : List Nat} {value : Value}

theorem fits_text_iff : Fits knots nesting active .text value ↔ IsTextual value := by
  constructor
  · intro h
    cases h with
    | text htext => exact htext
  · exact .text

theorem fits_truth_iff : Fits knots nesting active .truth value ↔ (boolean value).IsValid := by
  constructor
  · intro h
    cases h with
    | truth htruth => exact htruth
  · exact .truth

/-- No schema may be nested where none is left; else its fields are nested one deeper. -/
theorem fits_schema_succ_iff :
    Fits knots (nesting + 1) active (.part .schema) value ↔
      isActive active value = false ∧ ∃ entries, knots.content value = .map entries ∧
        FieldsHold (Fits knots nesting (activate active value)) (shapes .schema) entries := by
  constructor
  · intro h
    cases h with
    | schema hactive hentries hfields => exact ⟨hactive, _, hentries, hfields⟩
    | part hne => exact absurd rfl hne
  · rintro ⟨hactive, entries, hentries, hfields⟩
    exact .schema hactive hentries hfields

theorem not_fits_schema_zero : ¬ Fits knots 0 active (.part .schema) value := by
  intro h
  cases h with
  | part hne => exact absurd rfl hne

theorem fits_part_iff {part : Part} (hne : part ≠ .schema) :
    Fits knots nesting active (.part part) value ↔
      ∃ entries, knots.content value = .map entries ∧
        FieldsHold (Fits knots nesting active) (shapes part) entries := by
  constructor
  · intro h
    cases h with
    | schema => exact absurd rfl hne
    | part _ hentries hfields => exact ⟨_, hentries, hfields⟩
  · rintro ⟨entries, hentries, hfields⟩
    exact .part hne hentries hfields

theorem fits_list_iff {element : Shape} :
    Fits knots nesting active (.list element) value ↔
      ∃ items, elements? (knots.content value) = some items ∧
        ∀ item ∈ items, Fits knots nesting active element item := by
  constructor
  · intro h
    cases h with
    | list hitems hall => exact ⟨_, hitems, hall⟩
  · rintro ⟨items, hitems, hall⟩
    exact .list hitems hall

theorem fits_mapping_iff {element : Shape} :
    Fits knots nesting active (.mapping element) value ↔
      ∃ entries, knots.content value = .map entries ∧
        ∀ entry ∈ entries, IsTextual entry.1 ∧ Fits knots nesting active element entry.2 := by
  constructor
  · intro h
    cases h with
    | mapping hentries hkeys hvalues =>
      exact ⟨_, hentries, fun entry hentry => ⟨hkeys entry hentry, hvalues entry hentry⟩⟩
  · rintro ⟨entries, hentries, hall⟩
    exact .mapping hentries (fun entry hentry => (hall entry hentry).1)
      fun entry hentry => (hall entry hentry).2

theorem fits_pathItem_iff :
    Fits knots nesting active .pathItem value ↔
      ∃ entries, knots.content value = .map entries ∧
        Fits knots nesting active (.list (.part .parameter))
          (orEmpty (.list []) (firstNamed "parameters" entries)) ∧
        ∀ entry ∈ entries, (methodKey? entry.1).isSome →
          Fits knots nesting active (.part .operation) (orEmpty (.map []) entry.2) := by
  constructor
  · intro h
    cases h with
    | pathItem hentries hshared hoperations => exact ⟨_, hentries, hshared, hoperations⟩
  · rintro ⟨entries, hentries, hshared, hoperations⟩
    exact .pathItem hentries hshared hoperations

end

/-! ## Readers of scalars, fields and containers -/

/-- Whether a reader accepts exactly what fits. -/
def Reads {α : Type} (knots : Knots) (nesting : Nat) (active : List Nat) (shape : Shape)
    (reader : Value → Checked α) : Prop :=
  ∀ value, (reader value).IsValid ↔ Fits knots nesting active shape value

section

variable {α : Type} {knots : Knots} {nesting : Nat} {active : List Nat} {shape : Shape}
  {reader : Value → Checked α} {entries : List (Value × Value)}

theorem isValid_text_iff (value : Value) : (text value).IsValid ↔ IsTextual value := by
  unfold text IsTextual
  split
  case h_2 n =>
    split
    case h_1 digits hdigits => simp [hdigits]
    case h_2 hnone => simp [hnone, IsValid]
  case h_4 octets =>
    split
    case h_1 cs hcs => simp [hcs]
    case h_2 fault hfault => simp [hfault]
  all_goals simp_all

theorem reads_text : Reads knots nesting active .text text :=
  fun value => (isValid_text_iff value).trans fits_text_iff.symm

theorem reads_truth : Reads knots nesting active .truth boolean :=
  fun _ => fits_truth_iff.symm

theorem reads_anything {result : Value → α} :
    Reads knots nesting active .anything fun value => .valid (result value) :=
  fun value => ⟨fun _ => .anything, fun _ => isValid_valid (result value)⟩

theorem isValid_read_iff {field : Field} {absent : α} :
    (field.read entries absent reader).IsValid ↔
      ∀ name value, field.Gives entries name value → (reader value).IsValid := by
  unfold Field.read
  split
  case h_1 hnone =>
    have hmissing := Field.find?_eq_none_iff.mp hnone
    simp only [isValid_valid, true_iff]
    exact fun name value hgives => absurd hmissing hgives.not_isMissing
  case h_2 name value hsome =>
    have hgives := Field.find?_eq_some_iff.mp hsome
    rw [isValid_under]
    constructor
    · intro h name' value' hgives'
      rwa [(hgives.unique hgives').2] at h
    · exact fun h => h name value hgives

theorem Reads.read_iff (h : Reads knots nesting active shape reader) {field : Field} {absent : α} :
    (field.read entries absent reader).IsValid ↔
      ∀ name value, field.Gives entries name value → Fits knots nesting active shape value := by
  simp only [isValid_read_iff, h _]

theorem Reads.read?_iff (h : Reads knots nesting active shape reader) {field : Field} :
    (field.read? entries reader).IsValid ↔
      ∀ name value, field.Gives entries name value → Fits knots nesting active shape value := by
  simp only [Field.read?, isValid_read_iff, isValid_map, h _]

theorem Reads.list (h : Reads knots nesting active shape reader) :
    Reads knots nesting active (.list shape) (list knots reader) := by
  have hall : ∀ items : List Value, (∃ values : List α, items.map reader = values.map .valid) ↔
      ∀ item ∈ items, Fits knots nesting active shape item := by
    intro items
    simp only [← collect_eq_valid_iff, ← h _]
    exact isValid_collect.trans List.forall_mem_map
  intro value
  simp only [fits_list_iff, IsValid, list_eq_valid_iff, ← hall]
  constructor
  · rintro ⟨values, items, hitems, hvalues⟩
    exact ⟨items, hitems, values, hvalues⟩
  · rintro ⟨items, hitems, values, hvalues⟩
    exact ⟨values, items, hitems, hvalues⟩

theorem isValid_entry_iff {key : Value} {value : Checked α} :
    (entry key value).IsValid ↔ IsTextual key ∧ value.IsValid := by
  rw [entry, isValid_under, isValid_seq, isValid_fmap, isValid_under, isValid_text_iff]

theorem Reads.mapping (h : Reads knots nesting active shape reader) :
    Reads knots nesting active (.mapping shape) (mapping knots reader) := by
  intro value
  rw [fits_mapping_iff]
  unfold Binding.mapping
  split
  case h_1 entries hentries =>
    simp only [hentries, Value.map.injEq, exists_eq_left', isValid_map, isValid_collect,
      List.forall_mem_map, isValid_entry_iff, h _]
  case h_2 hother =>
    simp only [not_isValid_fail, false_iff]
    rintro ⟨entries, hentries, -⟩
    exact hother entries hentries

theorem isValid_part_iff {name : String} {partReader : List (Value × Value) → Checked α}
    {value : Value} :
    (part knots name partReader value).IsValid ↔
      ∃ entries, knots.content value = .map entries ∧ (partReader entries).IsValid := by
  simp only [IsValid, part_eq_valid_iff]
  constructor
  · rintro ⟨result, entries, hentries, hresult⟩
    exact ⟨entries, hentries, result, hresult⟩
  · rintro ⟨entries, hentries, result, hresult⟩
    exact ⟨result, entries, hentries, hresult⟩

/-- A part is accepted when its reader accepts what its fields should give. -/
theorem reads_part {target : Part} (hne : target ≠ .schema) {name : String}
    {partReader : List (Value × Value) → Checked α}
    (hreader : ∀ entries, (partReader entries).IsValid ↔
      FieldsHold (Fits knots nesting active) (shapes target) entries) :
    Reads knots nesting active (.part target) (part knots name partReader) := by
  intro value
  simp only [isValid_part_iff, hreader, fits_part_iff hne]

end

/-! ## Readers of schemas -/

section

variable {knots : Knots}

/-- A schema is accepted when it fits, however many schemas may be nested in it. -/
theorem reads_schema (nesting : Nat) (active : List Nat) :
    Reads knots nesting active (.part .schema) (schema knots nesting active) := by
  induction nesting generalizing active with
  | zero =>
    intro value
    unfold schema
    simp only [not_fits_schema_zero, iff_false]
    split
    · exact not_isValid_fail .loop
    · exact not_isValid_fail .tooDeep
  | succ nesting ih =>
    intro value
    rw [fits_schema_succ_iff]
    unfold schema
    split
    case isTrue hactive => simp [hactive]
    case isFalse hactive =>
      have htext : Reads knots nesting (activate active value) .text text := reads_text
      have htype : Reads knots nesting (activate active value) .anything
          fun type => .valid (schemaType knots type) := reads_anything
      have hinner := ih (activate active value)
      simp only [hactive, true_and, isValid_part_iff, isValid_seq, isValid_fmap, htext.read?_iff,
        htype.read_iff, hinner.read?_iff, hinner.mapping.read_iff, htext.list.read_iff, shapes,
        fieldsHold_cons, fieldsHold_nil, and_true, and_assoc]

theorem reads_nestedSchema : Reads knots maxNesting [] (.part .schema) (nestedSchema knots) :=
  reads_schema maxNesting []

/-! ## Readers of parts -/

theorem reads_parameter : Reads knots maxNesting [] (.part .parameter) (parameter knots) := by
  have htext : Reads knots maxNesting [] .text text := reads_text
  have htruth : Reads knots maxNesting [] .truth boolean := reads_truth
  apply reads_part (by decide)
  intro entries
  simp only [isValid_seq, isValid_fmap, htext.read_iff, htruth.read_iff, reads_nestedSchema.read_iff,
    shapes, fieldsHold_cons, fieldsHold_nil, and_true, and_assoc]

theorem reads_mediaType : Reads knots maxNesting [] (.part .mediaType) (mediaType knots) := by
  apply reads_part (by decide)
  intro entries
  simp only [isValid_fmap, reads_nestedSchema.read_iff, shapes, fieldsHold_cons, fieldsHold_nil,
    and_true]

theorem reads_response : Reads knots maxNesting [] (.part .response) (response knots) := by
  have htext : Reads knots maxNesting [] .text text := reads_text
  apply reads_part (by decide)
  intro entries
  simp only [isValid_seq, isValid_fmap, htext.read_iff, reads_mediaType.mapping.read?_iff, shapes,
    fieldsHold_cons, fieldsHold_nil, and_true]

theorem reads_operation : Reads knots maxNesting [] (.part .operation) (operation knots) := by
  have htext : Reads knots maxNesting [] .text text := reads_text
  apply reads_part (by decide)
  intro entries
  simp only [isValid_seq, isValid_fmap, htext.read_iff, htext.list.read_iff,
    reads_parameter.list.read_iff, reads_response.mapping.read_iff, shapes, fieldsHold_cons,
    fieldsHold_nil, and_true, and_assoc]

theorem reads_info : Reads knots maxNesting [] (.part .info) (info knots) := by
  have htext : Reads knots maxNesting [] .text text := reads_text
  apply reads_part (by decide)
  intro entries
  simp only [isValid_seq, isValid_fmap, htext.read_iff, shapes, fieldsHold_cons, fieldsHold_nil,
    and_true]

theorem reads_components : Reads knots maxNesting [] (.part .components) (components knots) := by
  apply reads_part (by decide)
  intro entries
  simp only [isValid_fmap, reads_nestedSchema.mapping.read_iff, shapes, fieldsHold_cons,
    fieldsHold_nil, and_true]

/-! ## Paths -/

theorem isValid_pathOperations_iff {entries : List (Value × Value)} :
    (pathOperations knots entries).IsValid ↔
      Fits knots maxNesting [] (.list (.part .parameter))
          (orEmpty (.list []) (firstNamed "parameters" entries)) ∧
        ∀ entry ∈ entries, (methodKey? entry.1).isSome →
          Fits knots maxNesting [] (.part .operation) (orEmpty (.map []) entry.2) := by
  have hshared : (sharedParameters knots entries).IsValid ↔
      Fits knots maxNesting [] (.list (.part .parameter))
        (orEmpty (.list []) (firstNamed "parameters" entries)) := reads_parameter.list _
  -- Whether an operation is accepted does not depend on the parameters that are shared.
  have hoperations : ∀ shared, (Checked.upToFirst <| entries.filterMap fun entry =>
      (methodKey? entry.1).map fun method =>
        (operation knots (orEmpty (.map []) entry.2)).map fun own =>
          (method, own.withShared shared)).IsValid ↔
      ∀ entry ∈ entries, (methodKey? entry.1).isSome →
        Fits knots maxNesting [] (.part .operation) (orEmpty (.map []) entry.2) := by
    intro shared
    rw [isValid_upToFirst]
    constructor
    · intro h entry hentry hmethod
      obtain ⟨method, hmethod⟩ := Option.isSome_iff_exists.mp hmethod
      have hread := h _ (List.mem_filterMap.mpr
        ⟨entry, hentry, Option.map_eq_some_iff.mpr ⟨method, hmethod, rfl⟩⟩)
      rwa [isValid_map, reads_operation] at hread
    · intro h result hresult
      obtain ⟨entry, hentry, hread⟩ := List.mem_filterMap.mp hresult
      obtain ⟨method, hmethod, rfl⟩ := Option.map_eq_some_iff.mp hread
      rw [isValid_map, reads_operation]
      exact h entry hentry (by simp [hmethod])
  rw [pathOperations, isValid_andThen, ← hshared]
  constructor
  · rintro ⟨shared, hread, hvalid⟩
    exact ⟨⟨shared, hread⟩, (hoperations shared).mp hvalid⟩
  · rintro ⟨⟨shared, hread⟩, hfits⟩
    exact ⟨shared, hread, (hoperations shared).mpr hfits⟩

/-- A path is accepted when it is a mapping whose parameters and operations are accepted. -/
theorem reads_pathItem : Reads knots maxNesting [] .pathItem (pathItem knots) := by
  intro value
  simp only [IsValid, pathItem_eq_valid_iff, pathItem?_eq_some_iff, fits_pathItem_iff,
    ← isValid_pathOperations_iff]
  constructor
  · rintro ⟨operations, entries, hentries, hread⟩
    exact ⟨entries, hentries, operations, hread⟩
  · rintro ⟨entries, hentries, operations, hread⟩
    exact ⟨operations, entries, hentries, hread⟩

theorem reads_paths : Reads knots maxNesting [] (.mapping .pathItem) (paths knots) := by
  intro value
  simp only [IsValid, paths_eq_valid_iff]
  exact reads_pathItem.mapping value

end

/-! ## Documents -/

/-- **What is accepted.** A document is accepted exactly when it has the shape of a specification. -/
theorem exists_bindDocument_iff {document : Document} :
    (∃ specification, bindDocument document = .ok specification) ↔
      Fits document.knots maxNesting [] (.part .specification) document.root := by
  have htext : Reads document.knots maxNesting [] .text text := reads_text
  have hroot : (specification document).IsValid ↔
      Fits document.knots maxNesting [] (.part .specification) document.root := by
    apply reads_part (by decide)
    intro entries
    simp only [isValid_seq, isValid_fmap, htext.read_iff, reads_info.read_iff, reads_paths.read_iff,
      reads_components.read_iff, shapes, fieldsHold_cons, fieldsHold_nil, and_true, and_assoc]
  simp only [bindDocument_eq_ok_iff]
  exact hroot

end Binding

end OpenApiClient
