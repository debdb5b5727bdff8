import Mathlib.Logic.Relation
import OpenApiClient.Proofs.Binding.Replacement
import OpenApiClient.Proofs.TypeExpression.OfSchema

/-!
# Lists of Types

What the type of a schema becomes when the document gives a list. Of the list its texts count, and `null`
among them only for whether it is there. So entries that are no text come and go without a trace, and so
does a second `null`.

## Layers

- **Lists**: the names in a list, and the changes that leave them alone, `TypeListChange`.
- **Binding**: a list is read as its names and whether `null` is there.
- **Texts**: a union is written name by name.
- **Occurrences**: what holds of each schema that is read holds of all schemas in it.
- **Main statement**: `typeLists_decide`.
-/

namespace OpenApiClient.Client

open OpenApiClient.Document
open OpenApiClient.Binding
open OpenApiClient.Checked
open Relation (EqvGen)

/-! ## Lists -/

/-- The text that a value is. -/
def textOf? : Value → Option Text
  | .text s => some s
  | _ => none

/-- The type names in a list: its texts other than `null`, in order. -/
def typeNames (listed : List Value) : List Text :=
  (listed.filterMap textOf?).filter (· ≠ nullName)

/-- Whether a list has the text `null`. -/
def ListsNull (listed : List Value) : Prop :=
  .text nullName ∈ listed

/-- A change in a list of types: an entry more or less that is no text, or another `null`. An entry that
moves is one less at one place and one more at another. -/
inductive TypeListChange : List Value → List Value → Prop
  | other {before after : List Value} {entry : Value} :
      textOf? entry = none → TypeListChange (before ++ after) (before ++ entry :: after)
  | null {before after : List Value} :
      ListsNull (before ++ after) →
        TypeListChange (before ++ after) (before ++ .text nullName :: after)

/-- Whether two lists have the same names, and agree on whether `null` is there. -/
def SameTypes (listed others : List Value) : Prop :=
  typeNames listed = typeNames others ∧ (ListsNull listed ↔ ListsNull others)

theorem TypeListChange.sameTypes {listed others : List Value} (h : TypeListChange listed others) :
    SameTypes listed others := by
  cases h with
  | @other before after entry hentry =>
    have hne : Value.text nullName ≠ entry := by
      rintro rfl
      simp [textOf?] at hentry
    constructor
    · simp [typeNames, hentry]
    · simp [ListsNull, hne]
  | null hnull =>
    constructor
    · simp [typeNames, textOf?]
    · apply iff_of_true hnull
      simp [ListsNull]

/-- Any number of changes, forth and back, leaves the names alone. -/
theorem sameTypes_of_eqvGen {listed others : List Value} (h : EqvGen TypeListChange listed others) :
    SameTypes listed others := by
  induction h with
  | rel _ _ hchange => exact hchange.sameTypes
  | refl => exact ⟨rfl, .rfl⟩
  | symm _ _ _ ih => exact ⟨ih.1.symm, ih.2.symm⟩
  | trans _ _ _ _ _ ih ih' => exact ⟨ih.1.trans ih'.1, ih.2.trans ih'.2⟩

/-! ## Binding -/

theorem typeEntry?_eq (entry : Value) :
    typeEntry? entry = (textOf? entry).filter (· ≠ nullName) := by
  cases entry with
  | text name => by_cases hname : name = nullName <;> simp [ typeEntry?, textOf?, Option.filter, hname]
  | _ => rfl

theorem filterMap_eq_typeNames (listed : List Value) : listed.filterMap typeEntry? = typeNames listed := by
  rw [typeNames, List.filter_filterMap, funext typeEntry?_eq]

theorem any_isNullName_iff {listed : List Value} : listed.any isNullName = true ↔ ListsNull listed := by
  simp only [List.any_eq_true, ListsNull]
  constructor
  · rintro ⟨entry, hentry, hnull⟩
    cases entry with
    | text name =>
      obtain rfl : name = nullName := by simpa [isNullName] using hnull
      exact hentry
    | _ => contradiction
  · exact fun hnull => ⟨_, hnull, by simp [isNullName]⟩

/-- A list is read as its names, and whether `null` is there. -/
theorem bound_typeList {knots : Knots} {given : Value} {listed : List Value}
    (hlist : knots.content given = .list listed) :
    Binding.schemaType knots given = some (.union (typeNames listed) (listed.any isNullName)) := by
  rw [Binding.schemaType, hlist, ← filterMap_eq_typeNames]

/-- Lists with the same names are read alike. -/
theorem bound_typeList_congr {knots : Knots} {given given' : Value} {listed listed' : List Value}
    (hlist : knots.content given = .list listed) (hlist' : knots.content given' = .list listed')
    (h : SameTypes listed listed') : Binding.schemaType knots given = Binding.schemaType knots given' := by
  have hnull : listed.any isNullName = listed'.any isNullName := by
    rw [Bool.eq_iff_iff, any_isNullName_iff, any_isNullName_iff]
    exact h.2
  rw [bound_typeList hlist, bound_typeList hlist', h.1, hnull]

/-- No name of a list that was read is `null`. -/
theorem nullName_not_mem_of_bound {knots : Knots} {given : Value} {names : List Text} {nullable : Bool}
    (h : Binding.schemaType knots given = some (.union names nullable)) : nullName ∉ names := by
  unfold Binding.schemaType at h
  split at h
  case h_1 => simp at h
  case h_2 listed _ =>
    obtain ⟨rfl, -⟩ := SchemaType.union.inj (Option.some.inj h)
    rw [filterMap_eq_typeNames]
    simp [typeNames]
  case h_3 => contradiction

section

variable {knots : Knots} {nesting : Nat} {active : List Nat}

/-- The type that a schema has for what its field takes. -/
theorem type_of_bound {value given : Value} {entries : List (Value × Value)} {name : String}
    {bound : Schema} (hentries : knots.content value = .map entries)
    (hgives : typeField.Gives entries name given)
    (hbound : schema knots nesting active value = .valid bound) :
    bound.type = Binding.schemaType knots given := by
  cases nesting with
  | zero => exact absurd hbound not_schema_zero_eq_valid
  | succ nesting =>
    obtain ⟨-, entries', hentries', -, -, htype, -⟩ := schema_succ_eq_valid_iff.mp hbound
    obtain rfl := Value.map.inj (hentries.symm.trans hentries')
    rw [Field.read, Field.find?_of_gives hgives] at htype
    exact (valid.inj (under_eq_valid_iff.mp htype)).symm

/-- A schema is read alike when its type is, whatever is given for it. -/
theorem schema_exchange_type {before after : List (Value × Value)} {key given given' : Value}
    {name : String} (htaken : typeField.TakenFrom name before key given after) (hnull : given' ≠ .null)
    (htype : Binding.schemaType knots given' = Binding.schemaType knots given) :
    schema knots nesting active (.map (before ++ (key, given') :: after)) =
      schema knots nesting active (.map (before ++ (key, given) :: after)) := by
  have hread : typeField.read (before ++ (key, given') :: after) none
        (fun type => .valid (Binding.schemaType knots type)) =
      typeField.read (before ++ (key, given) :: after) none
        (fun type => .valid (Binding.schemaType knots type)) := by
    rw [Field.read, Field.read, Field.find?_of_gives (htaken.exchange hnull),
      Field.find?_of_gives htaken.gives]
    simp only [htype]
  -- The key names no other field, so the others find what they found.
  have hother : ∀ field shape, (field, shape) ∈ shapes .schema →
      ((field, shape) : Field × Shape) ≠ (typeField, .anything) →
        ∀ name ∈ field.names, ¬ Spells name key := by
    intro field shape hfield hne
    exact htaken.not_spells (by simp [shapes]) hfield hne
  cases nesting with
  | zero => rfl
  | succ nesting =>
    simp only [schema, isActive, activate, part, Knots.content, Field.read?, hread]
    rw [Field.read_exchange (hother dollarRefField .text (by simp [shapes]) (by simp)) given' given,
      Field.read_exchange (hother refField .text (by simp [shapes]) (by simp)) given' given,
      Field.read_exchange (hother formatField .text (by simp [shapes]) (by simp)) given' given,
      Field.read_exchange (hother itemsField (.part .schema) (by simp [shapes]) (by simp)) given' given,
      Field.read_exchange (hother propertiesField (.mapping (.part .schema)) (by simp [shapes])
        (by simp)) given' given,
      Field.read_exchange (hother requiredField (.list .text) (by simp [shapes]) (by simp)) given' given]
    rfl

end

/-! ## Texts -/

/-- The types of some names, with `|` between them. -/
def namesText (names : List Text) : Text :=
  Text.join " | " (names.map fun name => (primitiveType name).text)

/-- Whether a text is the one for a list of types. -/
structure IsTextFor (listed : List Value) (text : Text) : Prop where
  unnamed : typeNames listed = [] → text = "unknown"
  plain : typeNames listed ≠ [] → ¬ ListsNull listed → text = namesText (typeNames listed)
  nullable : typeNames listed ≠ [] → ListsNull listed →
    text = namesText (typeNames listed) ++ " | null"

/-- A union is written member by member. -/
theorem text_unionOf {members : List TypeExpr} (h : members ≠ []) :
    (TypeExpr.unionOf members).text = Text.join " | " (members.map TypeExpr.text) := by
  induction members with
  | nil => contradiction
  | cons member members ih =>
    cases members with
    | nil => simp [TypeExpr.unionOf, Text.join]
    | cons next members =>
      have hnext := ih (by simp)
      simp only [TypeExpr.unionOf, TypeExpr.text, Text.join, List.map_cons,
        List.intercalate_cons_cons] at hnext ⊢
      rw [hnext]

theorem join_concat {separator last : Text} {texts : List Text} (h : texts ≠ []) :
    Text.join separator (texts ++ [last]) = Text.join separator texts ++ (separator ++ last) := by
  induction texts with
  | nil => contradiction
  | cons first texts ih =>
    cases texts with
    | nil => simp [Text.join, List.intercalate_cons_cons]
    | cons next texts =>
      have hnext := ih (by simp)
      simp only [Text.join, List.cons_append, List.intercalate_cons_cons] at hnext ⊢
      rw [hnext]
      simp

/-- The text for names: those of their types in a row, and `null` behind them. -/
theorem text_unionType {names : List Text} (h : names ≠ []) (nullable : Bool) :
    (unionType names nullable).text =
      if nullable then namesText names ++ " | null" else namesText names := by
  have hmembers : names.map primitiveType ++ (if nullable then [.null] else []) ≠ [] := by
    simp [h]
  rw [unionType, if_neg (by simpa using h), text_unionOf hmembers, List.map_append, List.map_map]
  cases nullable with
  | false => simp [namesText, Function.comp_def]
  | true =>
    have htexts : names.map (TypeExpr.text ∘ primitiveType) ≠ [] := by simp [h]
    exact join_concat htexts

theorem schemaType_of_union {schema : Schema} {names : List Text} {nullable : Bool}
    (htarget : schema.target? = none) (htype : schema.type = some (.union names nullable)) :
    schemaType schema = unionType names nullable := by
  symm
  apply means_iff.mp
  unfold unionType
  split
  case isTrue hnames =>
    exact .nothing htarget (.inr ⟨nullable, by rw [htype, List.isEmpty_iff.mp hnames]⟩)
  case isFalse hnames => exact .union htarget htype (mt List.isEmpty_iff.mpr hnames)

/-- The text for a schema whose type is read from a list. -/
theorem isTextFor_schemaTypeText {schema : Schema} {listed : List Value} (htarget : schema.target? = none)
    (htype : schema.type = some (.union (typeNames listed) (listed.any isNullName))) :
    IsTextFor listed (schemaTypeText schema) := by
  rw [schemaTypeText, schemaType_of_union htarget htype]
  constructor
  · intro hnames
    simp [unionType, hnames, TypeExpr.unknown, TypeExpr.text]
  · intro hnames hnull
    rw [← any_isNullName_iff] at hnull
    simp [text_unionType hnames, hnull]
  · intro hnames hnull
    rw [← any_isNullName_iff] at hnull
    simp [text_unionType hnames, hnull]

/-! ## Occurrences -/

/-- Whether a schema occurs in another one, at whatever depth. -/
inductive Occurs (inner : Schema) : Schema → Prop
  | itself : Occurs inner inner
  | items {outer element : Schema} :
      outer.items = some element → Occurs inner element → Occurs inner outer
  | property {outer own : Schema} {name : Text} :
      (name, own) ∈ outer.properties → Occurs inner own → Occurs inner outer

/-- A schema in a schema that was read was read itself. -/
theorem exists_bound_of_occurs {knots : Knots} {nesting : Nat} {active : List Nat} {value : Value}
    {bound inner : Schema} (h : Occurs inner bound)
    (hbound : schema knots nesting active value = .valid bound) :
    ∃ depth around raw, schema knots depth around raw = .valid inner := by
  induction h generalizing nesting active value with
  | itself => exact ⟨nesting, active, value, hbound⟩
  | items hitems _ ih =>
    cases nesting with
    | zero => exact absurd hbound not_schema_zero_eq_valid
    | succ nesting =>
      obtain ⟨-, entries, -, -, -, -, -, hread, -⟩ := schema_succ_eq_valid_iff.mp hbound
      rw [hitems, Field.read?, Field.read] at hread
      split at hread
      case h_1 => simp at hread
      case h_2 name given _ =>
        obtain ⟨own, hown, hsome⟩ := map_eq_valid_iff.mp (under_eq_valid_iff.mp hread)
        obtain rfl := Option.some.inj hsome
        exact ih hown
  | property hmem _ ih =>
    cases nesting with
    | zero => exact absurd hbound not_schema_zero_eq_valid
    | succ nesting =>
      obtain ⟨-, entries, -, -, -, -, -, -, hread, -⟩ := schema_succ_eq_valid_iff.mp hbound
      rw [Field.read] at hread
      split at hread
      case h_1 =>
        rw [← valid.inj hread] at hmem
        simp at hmem
      case h_2 name given _ =>
        have hmapping := under_eq_valid_iff.mp hread
        obtain ⟨raws, hraws, -⟩ := mapping_eq_valid_iff.mp hmapping
        obtain ⟨raw, -, -, hown⟩ := (mem_mapping_iff hmapping hraws).mp hmem
        exact ih hown

/-- The names of a union that was read do not have `null` among them. -/
theorem nullName_not_mem_of_schema {knots : Knots} {nesting : Nat} {active : List Nat} {value : Value}
    {bound : Schema} (hbound : schema knots nesting active value = .valid bound) {names : List Text}
    {nullable : Bool} (htype : bound.type = some (.union names nullable)) : nullName ∉ names := by
  cases nesting with
  | zero => exact absurd hbound not_schema_zero_eq_valid
  | succ nesting =>
    obtain ⟨-, entries, -, -, -, hread, -⟩ := schema_succ_eq_valid_iff.mp hbound
    rw [htype, Field.read] at hread
    split at hread
    case h_1 => simp at hread
    case h_2 name given _ =>
      exact nullName_not_mem_of_bound (valid.inj (under_eq_valid_iff.mp hread))

/-! ## Main statement -/

/-- **Names and null decide.** When the type of a schema without a reference is given as a list, its text
is that of the names in the list, with `null` behind them if it is there, and `unknown` without names. A
schema is read alike after any changes in the list that leave these alone. And nowhere in a schema that
was read is `null` one of the names of a union. -/
theorem typeLists_decide (knots : Knots) (nesting : Nat) (active : List Nat) :
    (∀ value entries name given listed bound, knots.content value = .map entries →
        typeField.Gives entries name given → knots.content given = .list listed →
          schema knots nesting active value = .valid bound → bound.target? = none →
            IsTextFor listed (schemaTypeText bound)) ∧
      (∀ name before key given after given' listed listed',
        typeField.TakenFrom name before key given after → knots.content given = .list listed →
          knots.content given' = .list listed' → EqvGen TypeListChange listed listed' →
            schema knots nesting active (.map (before ++ (key, given') :: after)) =
              schema knots nesting active (.map (before ++ (key, given) :: after))) ∧
      ∀ value bound, schema knots nesting active value = .valid bound → ∀ inner, Occurs inner bound →
        ∀ names nullable, inner.type = some (.union names nullable) → nullName ∉ names := by
  refine ⟨?_, ?_, ?_⟩
  · intro value entries name given listed bound hentries hgives hlist hbound htarget
    apply isTextFor_schemaTypeText htarget
    rw [type_of_bound hentries hgives hbound, bound_typeList hlist]
  · intro name before key given after given' listed listed' htaken hlist hlist' hchange
    apply schema_exchange_type htaken
    · rintro rfl
      contradiction
    · exact (bound_typeList_congr hlist hlist' (sameTypes_of_eqvGen hchange)).symm
  · intro value bound hbound inner hoccurs names nullable htype
    obtain ⟨depth, around, raw, hinner⟩ := exists_bound_of_occurs hoccurs hbound
    exact nullName_not_mem_of_schema hinner htype

/-- What is no text does not count, and `null` counts once: in a property of a schema, two lists of types
that come to the same. -/
theorem typeLists_decide_pets :
    let listed : List Value := [.int 1, .text "null", .text "string", .null, .text "Pet", .text "null"]
    let plain : List Value := [.text "null", .text "string", .text "Pet"]
    let tag : Schema := { type := some (.union ["string", "Pet"] true) }
    let pet : Schema := { properties := [("tag", tag)] }
    let properties : Value := .map [(.text "tag", .map [(.text "Type", .list listed)])]
    schemaTypeText tag = "string | unknown | null" ∧ IsTextFor listed (schemaTypeText tag) ∧
      schema [] 2 [] (.map [(.text "Type", .list plain)]) =
        schema [] 2 [] (.map [(.text "Type", .list listed)]) ∧
      schema [] 2 [] (.map [(.text "properties", properties)]) = .valid pet ∧
      nullName ∉ (["string", "Pet"] : List Text) := by
  intro listed plain tag pet properties
  obtain ⟨htext, halike, hnull⟩ := typeLists_decide [] 2 []
  have htaken : typeField.TakenFrom "type" [] (.text "Type") (.list listed) [] :=
    .of_find? rfl (by decide) rfl
  have hchanges : EqvGen TypeListChange plain listed := by
    have hnumber : TypeListChange plain (.int 1 :: plain) :=
      @TypeListChange.other [] plain (.int 1) rfl
    have hblank : TypeListChange (.int 1 :: plain)
        [.int 1, .text "null", .text "string", .null, .text "Pet"] :=
      @TypeListChange.other [.int 1, .text "null", .text "string"] [.text "Pet"] .null rfl
    have hagain : TypeListChange [.int 1, .text "null", .text "string", .null, .text "Pet"] listed :=
      @TypeListChange.null [.int 1, .text "null", .text "string", .null, .text "Pet"] []
        (List.mem_cons_of_mem _ List.mem_cons_self)
    exact (EqvGen.rel _ _ hnumber).trans _ _ _ ((EqvGen.rel _ _ hblank).trans _ _ _ (.rel _ _ hagain))
  have hpet : schema [] 2 [] (.map [(.text "properties", properties)]) = .valid pet := rfl
  refine ⟨by decide, ?_, ?_, hpet, ?_⟩
  · exact htext (.map [(.text "Type", .list listed)]) _ "type" _ listed tag rfl htaken.gives rfl rfl rfl
  · exact halike "type" [] (.text "Type") (.list listed) [] (.list plain) listed plain htaken rfl rfl
      (.symm _ _ hchanges)
  · exact hnull _ pet hpet tag (.property List.mem_cons_self .itself) _ true rfl

end OpenApiClient.Client
