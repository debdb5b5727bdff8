import OpenApiClient.Binding.Document

/-!
# Canonical Documents

A document can name the fields of a part in any letter case and order, beside unknown keys and null
values. Its canonical form names each given field once, in the spelling that documents use. What is
a part is decided from the root down: each field has a position that says what may stand there.

## Layers

- **Spelling**: `FirstSpelled` and `Unspelled`, what a name finds among entries.
- **Positions**: `fields`, the fields of each part and what may stand there.
- **Canonical forms**: `Canonical`, by position. The order of the entries that a part keeps is free,
  so that a document has many canonical forms.
- **Existence**: `exists_canonical`, every document has one.
-/

namespace OpenApiClient.Binding

open OpenApiClient.Document

/-! ## Spelling -/

/-- Whether a key spells a name in some letter case. -/
def Spells (name : String) : Value → Prop
  | .text key => Text.lower key = Text.lower name
  | _ => False

instance (name : String) : DecidablePred (Spells name)
  | .text key => decEq (Text.lower key) (Text.lower name)
  | .null | .bool _ | .int _ | .float _ | .bytes _ | .date _ | .dateTime _ | .list _ | .pair _ _
  | .set _ | .map _ | .knot _ => isFalse not_false

/-- Whether no entry gives a value under a name: every key that spells it has a null value. -/
def Unspelled (name : String) (entries : List (Value × Value)) : Prop :=
  ∀ entry ∈ entries, Spells name entry.1 → entry.2 = .null

/-- Whether a value is that of the first entry that gives one under a name. -/
def FirstSpelled (name : String) (entries : List (Value × Value)) (value : Value) : Prop :=
  ∃ before key after, entries = before ++ (key, value) :: after ∧ Unspelled name before ∧
    Spells name key ∧ value ≠ .null

theorem exists_firstSpelled_or_unspelled (name : String) (entries : List (Value × Value)) :
    (∃ value, FirstSpelled name entries value) ∨ Unspelled name entries := by
  induction entries with
  | nil => exact .inr (by simp [Unspelled])
  | cons entry entries ih =>
    by_cases hentry : Spells name entry.1 ∧ entry.2 ≠ .null
    · exact .inl ⟨entry.2, [], entry.1, entries, rfl, by simp [Unspelled], hentry⟩
    · have hnull : Spells name entry.1 → entry.2 = .null :=
        fun hspells => Classical.byContradiction fun hvalue => hentry ⟨hspells, hvalue⟩
      rcases ih with ⟨value, before, key, after, rfl, hbefore, hkey⟩ | hunspelled
      · exact .inl ⟨value, entry :: before, key, after, rfl,
          List.forall_mem_cons.mpr ⟨hnull, hbefore⟩, hkey⟩
      · exact .inr (List.forall_mem_cons.mpr ⟨hnull, hunspelled⟩)

theorem FirstSpelled.exists_mem {name : String} {entries : List (Value × Value)} {value : Value}
    (h : FirstSpelled name entries value) :
    ∃ key, (key, value) ∈ entries ∧ Spells name key ∧ value ≠ .null := by
  obtain ⟨before, key, after, rfl, -, hkey, hvalue⟩ := h
  exact ⟨key, by simp, hkey, hvalue⟩

theorem FirstSpelled.not_unspelled {name : String} {entries : List (Value × Value)} {value : Value}
    (h : FirstSpelled name entries value) : ¬ Unspelled name entries := by
  obtain ⟨key, hmem, hkey, hvalue⟩ := h.exists_mem
  exact fun hunspelled => hvalue (hunspelled (key, value) hmem hkey)

namespace Field

/-- Whether a field has a value among entries, and under which of its names: the name that documents
use comes before the own one. -/
def Gives (field : Field) (entries : List (Value × Value)) (name : String) (value : Value) : Prop :=
  (field.wireName = some name ∧ FirstSpelled name entries value) ∨
    (∀ wire, field.wireName = some wire → Unspelled wire entries) ∧
      name = field.name ∧ FirstSpelled name entries value

/-- Whether a field has no value among entries. -/
def IsMissing (field : Field) (entries : List (Value × Value)) : Prop :=
  (∀ wire, field.wireName = some wire → Unspelled wire entries) ∧ Unspelled field.name entries

theorem exists_gives_or_isMissing (field : Field) (entries : List (Value × Value)) :
    (∃ name value, field.Gives entries name value) ∨ field.IsMissing entries := by
  have hown : (∀ wire, field.wireName = some wire → Unspelled wire entries) →
      (∃ name value, field.Gives entries name value) ∨ field.IsMissing entries := by
    intro hwire
    rcases exists_firstSpelled_or_unspelled field.name entries with ⟨value, hfirst⟩ | hname
    · exact .inl ⟨field.name, value, .inr ⟨hwire, rfl, hfirst⟩⟩
    · exact .inr ⟨hwire, hname⟩
  cases hwireName : field.wireName with
  | none => exact hown (by simp [hwireName])
  | some wire =>
    rcases exists_firstSpelled_or_unspelled wire entries with ⟨value, hfirst⟩ | hunspelled
    · exact .inl ⟨wire, value, .inl ⟨hwireName, hfirst⟩⟩
    · refine hown fun other hother => ?_
      obtain rfl := Option.some.inj (hwireName.symm.trans hother)
      exact hunspelled

theorem Gives.firstSpelled {field : Field} {entries : List (Value × Value)} {name : String}
    {value : Value} (h : field.Gives entries name value) : FirstSpelled name entries value := by
  rcases h with ⟨-, h⟩ | ⟨-, -, h⟩
  · exact h
  · exact h

end Field

/-! ## Positions -/

/-- The parts of a specification. -/
inductive Part where
  | schema
  | parameter
  | mediaType
  | response
  | operation
  | info
  | components
  | specification
  deriving DecidableEq, Repr

/-- What may stand at a place of a document: a part, a list of parts, a mapping of names to parts,
the paths, one path, or anything else. -/
inductive Position where
  | data
  | part (part : Part)
  | list (element : Part)
  | mapping (element : Part)
  | paths
  | pathItem
  deriving DecidableEq, Repr

/-- The fields of a part, each with what may stand there. -/
def fields : Part → List (Field × Position)
  | .schema =>
    [(dollarRefField, .data), (refField, .data), (typeField, .data), (formatField, .data),
     (itemsField, .part .schema), (propertiesField, .mapping .schema), (requiredField, .data)]
  | .parameter =>
    [(⟨"name", none⟩, .data), (⟨"location", some "in"⟩, .data), (⟨"required", none⟩, .data),
     (⟨"schema_def", some "schema"⟩, .part .schema)]
  | .mediaType => [(⟨"schema_def", some "schema"⟩, .part .schema)]
  | .response => [(⟨"description", none⟩, .data), (⟨"content", none⟩, .mapping .mediaType)]
  | .operation =>
    [(⟨"operation_id", some "operationId"⟩, .data), (⟨"summary", none⟩, .data),
     (⟨"tags", none⟩, .data), (⟨"parameters", none⟩, .list .parameter),
     (⟨"responses", none⟩, .mapping .response)]
  | .info => [(⟨"title", none⟩, .data), (⟨"version", none⟩, .data)]
  | .components => [(⟨"schemas", none⟩, .mapping .schema)]
  | .specification =>
    [(⟨"openapi", none⟩, .data), (⟨"info", none⟩, .part .info), (⟨"paths", none⟩, .paths),
     (⟨"components", none⟩, .part .components)]

/-- What may stand under a key of a path: an operation under a method, in whatever letter case, and
the parameters that its operations share. -/
def pathItemPosition : Value → Position
  | .text key =>
    if Text.lower key ∈ httpMethods then .part .operation
    else if Text.lower key = Text.ofString "parameters" then .list .parameter
    else .data
  | _ => .data

/-- Whether a value is of the kind of container that a position expects. -/
def Position.takes : Position → Value → Bool
  | .part _, .map _ | .mapping _, .map _ | .paths, .map _ | .pathItem, .map _ => true
  | .list _, .list _ => true
  | _, _ => false

/-! ## Canonical forms -/

section

variable (R : Position → Value → Value → Prop)

/-- The entries that a canonical form keeps of a part, in the order of its fields: each given field
under the name that it was found by. -/
inductive Kept : List (Field × Position) → List (Value × Value) → List (Value × Value) → Prop
  | nil {entries : List (Value × Value)} : Kept [] entries []
  | given {field : Field} {position : Position} {fields : List (Field × Position)}
      {entries kept : List (Value × Value)} {name : String} {value value' : Value} :
      field.Gives entries name value → R position value value' → Kept fields entries kept →
        Kept ((field, position) :: fields) entries ((.text name, value') :: kept)
  | missing {field : Field} {position : Position} {fields : List (Field × Position)}
      {entries kept : List (Value × Value)} :
      field.IsMissing entries → Kept fields entries kept →
        Kept ((field, position) :: fields) entries kept

/-- Lists whose elements are related one by one, each at its position. -/
inductive EachItem : List (Position × Value) → List Value → Prop
  | nil : EachItem [] []
  | cons {position : Position} {value value' : Value} {items : List (Position × Value)}
      {items' : List Value} :
      R position value value' → EachItem items items' →
        EachItem ((position, value) :: items) (value' :: items')

/-- Mappings with the same keys in the same order, whose values are related one by one. -/
inductive EachEntry : List (Position × Value × Value) → List (Value × Value) → Prop
  | nil : EachEntry [] []
  | cons {position : Position} {key value value' : Value}
      {entries : List (Position × Value × Value)} {entries' : List (Value × Value)} :
      R position value value' → EachEntry entries entries' →
        EachEntry ((position, key, value) :: entries) ((key, value') :: entries')

end

/-- Elements of a list that all have one position. -/
def itemsAt (position : Position) (items : List Value) : List (Position × Value) :=
  items.map fun item => (position, item)

/-- Entries of a mapping whose keys decide their positions. -/
def entriesAt (position : Value → Position) (entries : List (Value × Value)) :
    List (Position × Value × Value) :=
  entries.map fun entry => (position entry.1, entry)

/-- Whether a value is a canonical form of another one, at a position. What is not the container that
the position expects stays as it is. -/
inductive Canonical : Position → Value → Value → Prop
  | part {part : Part} {entries kept result : List (Value × Value)} :
      Kept Canonical (fields part) entries kept → result.Perm kept →
        Canonical (.part part) (.map entries) (.map result)
  | list {element : Part} {items items' : List Value} :
      EachItem Canonical (itemsAt (.part element) items) items' →
        Canonical (.list element) (.list items) (.list items')
  | mapping {element : Part} {entries entries' : List (Value × Value)} :
      EachEntry Canonical (entriesAt (fun _ => .part element) entries) entries' →
        Canonical (.mapping element) (.map entries) (.map entries')
  | paths {entries entries' : List (Value × Value)} :
      EachEntry Canonical (entriesAt (fun _ => .pathItem) entries) entries' →
        Canonical .paths (.map entries) (.map entries')
  | pathItem {entries entries' : List (Value × Value)} :
      EachEntry Canonical (entriesAt pathItemPosition entries) entries' →
        Canonical .pathItem (.map entries) (.map entries')
  | other {position : Position} {value : Value} :
      position.takes value = false → Canonical position value value

theorem Canonical.eq_of_data {value value' : Value} (h : Canonical .data value value') :
    value' = value := by
  cases h
  rfl

/-- A value that is given stays given. -/
theorem Canonical.ne_null {position : Position} {value value' : Value}
    (h : Canonical position value value') (hvalue : value ≠ .null) : value' ≠ .null := by
  cases h with
  | other => exact hvalue
  | _ => exact Value.noConfusion

/-! ## Existence -/

theorem exists_kept {R : Position → Value → Value → Prop} {entries : List (Value × Value)}
    (h : ∀ entry ∈ entries, ∀ position, ∃ value', R position entry.2 value')
    (fields : List (Field × Position)) : ∃ kept, Kept R fields entries kept := by
  induction fields with
  | nil => exact ⟨[], .nil⟩
  | cons first fields ih =>
    obtain ⟨field, position⟩ := first
    obtain ⟨kept, hkept⟩ := ih
    -- What a field gives is the value of an entry.
    rcases field.exists_gives_or_isMissing entries with ⟨name, value, hgives⟩ | hmissing
    · obtain ⟨key, hmem, -⟩ := hgives.firstSpelled.exists_mem
      obtain ⟨value', hvalue'⟩ := h (key, value) hmem position
      exact ⟨_, .given hgives hvalue' hkept⟩
    · exact ⟨kept, .missing hmissing hkept⟩

theorem exists_eachItem {R : Position → Value → Value → Prop} {position : Position}
    {items : List Value} (h : ∀ item ∈ items, ∃ item', R position item item') :
    ∃ items', EachItem R (itemsAt position items) items' := by
  induction items with
  | nil => exact ⟨[], .nil⟩
  | cons item items ih =>
    rw [List.forall_mem_cons] at h
    obtain ⟨item', hitem'⟩ := h.1
    obtain ⟨items', hitems'⟩ := ih h.2
    exact ⟨item' :: items', .cons hitem' hitems'⟩

theorem exists_eachEntry {R : Position → Value → Value → Prop} {position : Value → Position}
    {entries : List (Value × Value)}
    (h : ∀ entry ∈ entries, ∃ value', R (position entry.1) entry.2 value') :
    ∃ entries', EachEntry R (entriesAt position entries) entries' := by
  induction entries with
  | nil => exact ⟨[], .nil⟩
  | cons entry entries ih =>
    rw [List.forall_mem_cons] at h
    obtain ⟨value', hvalue'⟩ := h.1
    obtain ⟨entries', hentries'⟩ := ih h.2
    exact ⟨(entry.1, value') :: entries', .cons hvalue' hentries'⟩

/-- Every value has a canonical form at every position. -/
theorem exists_canonical (value : Value) (position : Position) :
    ∃ value', Canonical position value value' := by
  induction hsize : sizeOf value using Nat.strongRecOn generalizing value position with
  | _ size ih =>
    -- What a container holds is smaller, so it has canonical forms at every position.
    have hitem : ∀ {items : List Value}, value = .list items → ∀ item ∈ items, ∀ position,
        ∃ item', Canonical position item item' := by
      rintro items rfl item hmem position
      have hlt := List.sizeOf_lt_of_mem hmem
      exact ih (sizeOf item) (by simp only [Value.list.sizeOf_spec] at hsize; omega) item position rfl
    have hentry : ∀ {entries : List (Value × Value)}, value = .map entries → ∀ entry ∈ entries,
        ∀ position, ∃ value', Canonical position entry.2 value' := by
      rintro entries rfl entry hmem position
      have hlt := List.sizeOf_lt_of_mem hmem
      have hvalue : sizeOf entry.2 < sizeOf entry := by
        cases entry
        simp only [Prod.mk.sizeOf_spec]
        omega
      exact ih (sizeOf entry.2) (by simp only [Value.map.sizeOf_spec] at hsize; omega) entry.2
        position rfl
    cases htakes : position.takes value with
    | false => exact ⟨value, .other htakes⟩
    | true =>
      unfold Position.takes at htakes
      split at htakes
      case h_1 part entries =>
        obtain ⟨kept, hkept⟩ := exists_kept (hentry rfl) (fields part)
        exact ⟨.map kept, .part hkept (.refl kept)⟩
      case h_2 element entries =>
        obtain ⟨entries', hentries'⟩ := exists_eachEntry fun entry hmem => hentry rfl entry hmem _
        exact ⟨.map entries', .mapping hentries'⟩
      case h_3 entries =>
        obtain ⟨entries', hentries'⟩ := exists_eachEntry fun entry hmem => hentry rfl entry hmem _
        exact ⟨.map entries', .paths hentries'⟩
      case h_4 entries =>
        obtain ⟨entries', hentries'⟩ := exists_eachEntry fun entry hmem => hentry rfl entry hmem _
        exact ⟨.map entries', .pathItem hentries'⟩
      case h_5 element items =>
        obtain ⟨items', hitems'⟩ := exists_eachItem fun item hmem => hitem rfl item hmem _
        exact ⟨.list items', .list hitems'⟩
      case h_6 => contradiction

end OpenApiClient.Binding
