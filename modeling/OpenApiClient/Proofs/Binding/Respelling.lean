import Mathlib.Data.List.Forall2
import OpenApiClient.Client.Generation
import OpenApiClient.Proofs.Binding.Shape

/-!
# Numbers and Their Texts

Where a document should have text, a number stands for its text. So a document is read as before when some
of these numbers are put in quotes: versions, status codes, names of properties and parameters, and the
entries of lists of names, at any depth. This includes the keys of mappings, although the paths of a document
are read in a way of their own.

## Layers

- **Results**: `CarriesOver`, when one result has the value of another one.
- **Respelling**: `Spelled`, a number and its text; `Respelled`, values that differ in such numbers only, by the
  shape that their place expects.
- **Readers**: `ReadsAlike`, from scalars over containers and fields to schemas, parts and paths.
- **Main statement**: `bindDocument_respelled`.
-/

namespace OpenApiClient

/-! ## Results -/

namespace Checked

variable {α β : Type}

/-- Whether the value of a result, if it has one, is the value of another result, too. -/
def CarriesOver (x y : Checked α) : Prop :=
  ∀ value, x = .valid value → y = .valid value

theorem CarriesOver.refl (x : Checked α) : x.CarriesOver x :=
  fun _ h => h

theorem CarriesOver.map {x y : Checked α} (h : x.CarriesOver y) (f : α → β) :
    (x.map f).CarriesOver (y.map f) := by
  intro value hvalue
  obtain ⟨own, hown, rfl⟩ := map_eq_valid_iff.mp hvalue
  exact map_eq_valid_iff.mpr ⟨own, h own hown, rfl⟩

theorem CarriesOver.fmap {x y : Checked α} (h : x.CarriesOver y) {f : α → β} :
    (f <$> x).CarriesOver (f <$> y) :=
  h.map f

theorem CarriesOver.seq {f g : Checked (α → β)} {x y : Checked α} (hf : f.CarriesOver g)
    (hx : x.CarriesOver y) : (f <*> x).CarriesOver (g <*> y) := by
  intro value hvalue
  obtain ⟨function, hfunction, own, hown, rfl⟩ := seq_eq_valid_iff.mp hvalue
  exact seq_eq_valid_iff.mpr ⟨function, hf function hfunction, own, hx own hown, rfl⟩

theorem CarriesOver.under {x y : Checked α} (h : x.CarriesOver y) (step step' : Step) :
    (x.under step).CarriesOver (y.under step') := by
  intro value hvalue
  exact under_eq_valid_iff.mpr (h value (under_eq_valid_iff.mp hvalue))

theorem CarriesOver.andThen {x y : Checked α} {next next' : α → Checked β} (h : x.CarriesOver y)
    (hnext : ∀ value, (next value).CarriesOver (next' value)) :
    (x.andThen next).CarriesOver (y.andThen next') := by
  intro result hresult
  obtain ⟨value, hvalue, hown⟩ := andThen_eq_valid_iff.mp hresult
  exact andThen_eq_valid_iff.mpr ⟨value, h value hvalue, hnext value result hown⟩

theorem eq_map_valid_of_carriesOver {results results' : List (Checked α)} {values : List α}
    (h : List.Forall₂ CarriesOver results results') (hvalues : results = values.map .valid) :
    results' = values.map .valid := by
  induction h generalizing values with
  | nil => exact hvalues
  | cons hfirst _ ih =>
    cases values with
    | nil => contradiction
    | cons value values =>
      obtain ⟨hvalue, hvalues⟩ := List.cons.inj hvalues
      rw [hfirst value hvalue, ih hvalues, List.map_cons]

theorem carriesOver_collect {results results' : List (Checked α)}
    (h : List.Forall₂ CarriesOver results results') :
    (collect results).CarriesOver (collect results') := by
  intro values hvalues
  rw [collect_eq_valid_iff] at hvalues ⊢
  exact eq_map_valid_of_carriesOver h hvalues

theorem carriesOver_upToFirst {results results' : List (Checked α)}
    (h : List.Forall₂ CarriesOver results results') :
    (upToFirst results).CarriesOver (upToFirst results') := by
  intro values hvalues
  rw [upToFirst_eq_valid_iff] at hvalues ⊢
  exact eq_map_valid_of_carriesOver h hvalues

end Checked

namespace Binding

open OpenApiClient.Document
open OpenApiClient.Checked

/-! ## Respelling -/

/-- Whether a value is another one, or the text of the number that this is. -/
inductive Spelled : Value → Value → Prop
  | same {value : Value} : Spelled value value
  | int {n : Int} {digits : String} :
      Text.writeInteger? n = some digits → Spelled (.int n) (.text digits)
  | float {x : Decimal.Binary64} : Spelled (.float x) (.text (Value.floatText x))

theorem Spelled.text_carriesOver {value value' : Value} (h : Spelled value value') :
    (text value).CarriesOver (text value') := by
  cases h with
  | same => exact .refl _
  | int hdigits =>
    rw [text_int hdigits]
    exact .refl _
  | float => exact .refl _

/-- Whether two lists of entries have the same keys, and null values under the same ones. -/
def SameKeys (entries entries' : List (Value × Value)) : Prop :=
  List.Forall₂ (fun entry entry' => entry'.1 = entry.1 ∧ (entry'.2 = .null ↔ entry.2 = .null))
    entries entries'

/-- Whether one value is another in which numbers at places for text may be replaced by their texts, where
the value itself is at a place of the shape. The keys of parts and of single paths stay as they are, and what
no field takes is not looked at. The first value is in a document with the knots `knots`, the second in one
with `knots'`, and a part that contains itself is the same knot in both. -/
inductive Respelled (knots knots' : Knots) : Shape → Value → Value → Prop
  | text {value value' : Value} :
      Spelled value value' → Respelled knots knots' .text value value'
  | truth {value : Value} : Respelled knots knots' .truth value value
  /-- The value for a type is no text, even if it is the name of one: no number in it is replaced. -/
  | anything {value value' : Value} :
      schemaType knots' value' = schemaType knots value → Respelled knots knots' .anything value value'
  | part {part : Part} {value value' : Value} {entries entries' : List (Value × Value)} :
      (∀ id, value' = .knot id ↔ value = .knot id) →
        knots.content value = .map entries → knots'.content value' = .map entries' →
          SameKeys entries entries' →
            (∀ field ∈ shapes part, ∀ name given given', field.1.Gives entries name given →
              field.1.Gives entries' name given' → Respelled knots knots' field.2 given given') →
                Respelled knots knots' (.part part) value value'
  /-- A set stays as it is: how its members follow each other depends on what they are, so a number among
  them and its text may come in different places. -/
  | list {element : Shape} {value value' : Value} {items items' : List Value} :
      elements? (knots.content value) = some items → elements? (knots'.content value') = some items' →
        (∀ members, knots.content value = .set members ∨ knots'.content value' = .set members →
          knots'.content value' = knots.content value) →
          items.length = items'.length →
            (∀ pair ∈ items.zip items', Respelled knots knots' element pair.1 pair.2) →
              Respelled knots knots' (.list element) value value'
  /-- The keys of a mapping may be numbers, too. It does not matter if two keys become the same. -/
  | mapping {element : Shape} {value value' : Value} {entries entries' : List (Value × Value)} :
      knots.content value = .map entries → knots'.content value' = .map entries' →
        List.Forall₂ (fun entry entry' => Spelled entry.1 entry'.1) entries entries' →
          (∀ pair ∈ entries.zip entries', Respelled knots knots' element pair.1.2 pair.2.2) →
            Respelled knots knots' (.mapping element) value value'
  /-- Only the parameters and the operations of a path are looked at. -/
  | pathItem {value value' : Value} {entries entries' : List (Value × Value)} :
      knots.content value = .map entries → knots'.content value' = .map entries' →
        List.Forall₂ (fun entry entry' => entry'.1 = entry.1) entries entries' →
          (∀ pair ∈ entries.zip entries', (methodKey? pair.1.1).isSome →
            Respelled knots knots' (.part .operation) (orEmpty (.map []) pair.1.2)
              (orEmpty (.map []) pair.2.2)) →
            Respelled knots knots' (.list (.part .parameter))
              (orEmpty (.list []) (firstNamed "parameters" entries))
              (orEmpty (.list []) (firstNamed "parameters" entries')) →
                Respelled knots knots' .pathItem value value'

theorem forall_mem_zip_self {α : Type} {items : List α} {holds : α × α → Prop}
    (h : ∀ item ∈ items, holds (item, item)) : ∀ pair ∈ items.zip items, holds pair := by
  have hsame : List.Forall₂ (fun item item' => holds (item, item')) items items :=
    List.forall₂_same.mpr h
  exact fun pair hpair => List.forall₂_zip hsame hpair

/-- A document that fits is a respelling of itself, in which no number is replaced. -/
theorem Fits.respelled_self {knots : Knots} {nesting : Nat} {active : List Nat} {shape : Shape}
    {value : Value} (h : Fits knots nesting active shape value) :
    Respelled knots knots shape value value := by
  induction h with
  | text => exact .text .same
  | truth => exact .truth
  | anything => exact .anything rfl
  | schema _ hentries _ ih | part _ hentries _ ih =>
    refine .part (fun _ => Iff.rfl) hentries hentries ?_ ?_
    · exact List.forall₂_same.mpr fun _ _ => ⟨rfl, Iff.rfl⟩
    · intro field hfield name given given' hgives hgives'
      obtain rfl := (hgives.unique hgives').2
      exact ih field hfield name given hgives
  | list hitems _ ih => exact .list hitems hitems (fun _ _ => rfl) rfl (forall_mem_zip_self ih)
  | mapping hentries _ _ ih =>
    refine .mapping hentries hentries ?_ (forall_mem_zip_self ih)
    exact List.forall₂_same.mpr fun _ _ => .same
  | pathItem hentries _ _ hshared ih =>
    refine .pathItem hentries hentries ?_ (forall_mem_zip_self ih) hshared
    exact List.forall₂_same.mpr fun _ _ => rfl

section

variable {knots knots' : Knots} {field : Field} {shape : Shape} {entries entries' : List (Value × Value)}

/-- What a field takes is respelled when it is so for the entries that it finds. -/
theorem respelled_of_found {name name' : String} {given given' : Value}
    (hfound : field.find? entries = some (name, given))
    (hfound' : field.find? entries' = some (name', given')) (h : Respelled knots knots' shape given given') :
    ∀ other value value', field.Gives entries other value → field.Gives entries' other value' →
      Respelled knots knots' shape value value' := by
  intro other value value' hgives hgives'
  obtain ⟨-, rfl⟩ := (Field.find?_eq_some_iff.mp hfound).unique hgives
  obtain ⟨-, rfl⟩ := (Field.find?_eq_some_iff.mp hfound').unique hgives'
  exact h

theorem respelled_of_missing (h : field.find? entries = none) :
    ∀ other value value', field.Gives entries other value → field.Gives entries' other value' →
      Respelled knots knots' shape value value' := by
  intro other value value' hgives
  exact absurd (Field.find?_eq_none_iff.mp h) hgives.not_isMissing

end

/-! ## Readers of scalars, containers and fields -/

/-- Whether two readers, each for one of two documents, read as the same what is respelled. -/
def ReadsAlike {α : Type} (knots knots' : Knots) (shape : Shape) (reader reader' : Value → Checked α) :
    Prop :=
  ∀ value value', Respelled knots knots' shape value value' →
    (reader value).CarriesOver (reader' value')

section

variable {α : Type} {knots knots' : Knots} {shape : Shape} {reader reader' : Value → Checked α}
  {entries entries' : List (Value × Value)}

theorem readsAlike_text : ReadsAlike knots knots' .text text text := by
  intro value value' h
  cases h with
  | text hspelled => exact hspelled.text_carriesOver

theorem readsAlike_truth : ReadsAlike knots knots' .truth boolean boolean := by
  intro value value' h
  cases h with
  | truth => exact .refl _

theorem readsAlike_type :
    ReadsAlike knots knots' .anything (fun value => .valid (schemaType knots value))
      fun value => .valid (schemaType knots' value) := by
  intro value value' h
  cases h with
  | anything htype =>
    show (valid (schemaType knots value)).CarriesOver (valid (schemaType knots' value'))
    rw [htype]
    exact .refl _

theorem ReadsAlike.list (h : ReadsAlike knots knots' shape reader reader') :
    ReadsAlike knots knots' (.list shape) (list knots reader) (list knots' reader') := by
  intro value value' hvalue values hread
  cases hvalue with
  | list hitems hitems' _ hlength hall =>
    rw [list_eq_valid_iff] at hread ⊢
    obtain ⟨items, hown, hvalues⟩ := hread
    obtain rfl := Option.some.inj (hown.symm.trans hitems)
    refine ⟨_, hitems', ?_⟩
    apply eq_map_valid_of_carriesOver _ hvalues
    simp only [List.forall₂_map_left_iff, List.forall₂_map_right_iff]
    exact List.forall₂_iff_zip.mpr ⟨hlength, fun hpair => h _ _ (hall _ hpair)⟩

theorem carriesOver_entry {key key' : Value} {result result' : Checked α} (hkey : Spelled key key')
    (h : result.CarriesOver result') : (entry key result).CarriesOver (entry key' result') := by
  apply CarriesOver.under
  apply CarriesOver.seq
  · exact (hkey.text_carriesOver.under _ _).fmap
  · exact h

theorem ReadsAlike.mapping (h : ReadsAlike knots knots' shape reader reader') :
    ReadsAlike knots knots' (.mapping shape) (mapping knots reader) (mapping knots' reader') := by
  intro value value' hvalue
  cases hvalue with
  | mapping hentries hentries' hkeys hall =>
    simp only [Binding.mapping, hentries, hentries']
    apply CarriesOver.map
    apply carriesOver_collect
    simp only [List.forall₂_map_left_iff, List.forall₂_map_right_iff]
    obtain ⟨hlength, hkeys⟩ := List.forall₂_iff_zip.mp hkeys
    exact List.forall₂_iff_zip.mpr
      ⟨hlength, fun hpair => carriesOver_entry (hkeys hpair) (h _ _ (hall _ hpair))⟩

theorem SameKeys.isSome_findSome? (h : SameKeys entries entries') (name : String) :
    (entries'.findSome? (entryNamed? name)).isSome = (entries.findSome? (entryNamed? name)).isSome := by
  induction h with
  | nil => rfl
  | @cons entry entry' entries entries' hfirst _ ih =>
    obtain ⟨hkey, hnull⟩ := hfirst
    -- Whether an entry counts for the name is seen from its key and from whether it is null.
    have hnone : entryNamed? name entry' = none ↔ entryNamed? name entry = none := by
      rw [entryNamed?_eq_none_iff, entryNamed?_eq_none_iff, hkey, hnull]
    rw [List.findSome?_cons, List.findSome?_cons]
    cases hfound : entryNamed? name entry with
    | none => rw [hnone.mpr hfound, ih]
    | some given =>
      -- Both searches end here.
      cases hfound' : entryNamed? name entry' with
      | none => simp [hnone.mp hfound'] at hfound
      | some given' => rfl

/-- A field takes the entry at the same place, under the same name. -/
theorem SameKeys.map_find? (h : SameKeys entries entries') (field : Field) :
    (field.find? entries').map (·.1) = (field.find? entries).map (·.1) := by
  have hgiven : ∀ name : String,
      ((entries'.findSome? (entryNamed? name)).map (name, ·)).map (·.1) =
        ((entries.findSome? (entryNamed? name)).map (name, ·)).map (·.1) := by
    intro name
    have hsome := h.isSome_findSome? name
    cases hown : entries.findSome? (entryNamed? name) <;>
      cases hown' : entries'.findSome? (entryNamed? name) <;> simp_all
  unfold Field.find?
  cases field.wireName with
  | none => simpa using hgiven field.name
  | some wire => simp only [Option.bind_some, Option.map_or, hgiven]

/-- Whether the entries of two parts have the same keys, and what fields take from them is respelled. -/
def RespelledFields (knots knots' : Knots) (part : Part) (entries entries' : List (Value × Value)) :
    Prop :=
  SameKeys entries entries' ∧
    ∀ field ∈ shapes part, ∀ name given given', field.1.Gives entries name given →
      field.1.Gives entries' name given' → Respelled knots knots' field.2 given given'

theorem RespelledFields.read {part : Part} (h : RespelledFields knots knots' part entries entries')
    {field : Field} (hfield : (field, shape) ∈ shapes part)
    (hreader : ReadsAlike knots knots' shape reader reader') {absent : α} :
    (field.read entries absent reader).CarriesOver (field.read entries' absent reader') := by
  have hname := h.1.map_find? field
  unfold Field.read
  cases hfound : field.find? entries with
  | none =>
    -- Both parts take the default.
    rw [hfound, Option.map_none, Option.map_eq_none_iff] at hname
    rw [hname]
    exact .refl _
  | some found =>
    obtain ⟨name, given⟩ := found
    rw [hfound, Option.map_some, Option.map_eq_some_iff] at hname
    obtain ⟨⟨name', given'⟩, hfound', hsame⟩ := hname
    obtain rfl : name' = name := hsame
    rw [hfound']
    apply CarriesOver.under
    apply hreader
    exact h.2 (field, shape) hfield name' given given' (Field.find?_eq_some_iff.mp hfound)
      (Field.find?_eq_some_iff.mp hfound')

theorem RespelledFields.read? {part : Part} (h : RespelledFields knots knots' part entries entries')
    {field : Field} (hfield : (field, shape) ∈ shapes part)
    (hreader : ReadsAlike knots knots' shape reader reader') :
    (field.read? entries reader).CarriesOver (field.read? entries' reader') :=
  h.read hfield fun value value' hvalue => (hreader value value' hvalue).map some

theorem readsAlike_part {target : Part} {name : String}
    {partReader partReader' : List (Value × Value) → Checked α}
    (h : ∀ entries entries', RespelledFields knots knots' target entries entries' →
      (partReader entries).CarriesOver (partReader' entries')) :
    ReadsAlike knots knots' (.part target) (part knots name partReader)
      (part knots' name partReader') := by
  intro value value' hvalue
  cases hvalue with
  | part _ hentries hentries' hkeys hfields =>
    simp only [Binding.part, hentries, hentries']
    exact h _ _ ⟨hkeys, hfields⟩

end

/-! ## Readers of schemas -/

section

variable {value value' : Value}

theorem isActive_of_forall_ne (h : ∀ id, value ≠ .knot id) (active : List Nat) :
    isActive active value = false := by
  cases value with
  | knot id => exact absurd rfl (h id)
  | _ => rfl

theorem activate_of_forall_ne (h : ∀ id, value ≠ .knot id) (active : List Nat) :
    activate active value = active := by
  cases value with
  | knot id => exact absurd rfl (h id)
  | _ => rfl

/-- Which schemas are around a value depends on nothing but the knot that it is, if it is one. -/
theorem active_eq_of_same_knot (h : ∀ id, value' = .knot id ↔ value = .knot id) (active : List Nat) :
    isActive active value' = isActive active value ∧ activate active value' = activate active value := by
  by_cases hknot : ∃ id, value = .knot id
  · obtain ⟨id, rfl⟩ := hknot
    rw [(h id).mpr rfl]
    exact ⟨rfl, rfl⟩
  · have hvalue : ∀ id, value ≠ .knot id := fun id hid => hknot ⟨id, hid⟩
    have hvalue' : ∀ id, value' ≠ .knot id := fun id hid => hvalue id ((h id).mp hid)
    rw [isActive_of_forall_ne hvalue, isActive_of_forall_ne hvalue', activate_of_forall_ne hvalue,
      activate_of_forall_ne hvalue']
    exact ⟨rfl, rfl⟩

end

section

variable {knots knots' : Knots}

/-- Schemas are read alike, however many may be nested and whichever are around them. -/
theorem readsAlike_schema (nesting : Nat) (active : List Nat) :
    ReadsAlike knots knots' (.part .schema) (schema knots nesting active)
      (schema knots' nesting active) := by
  induction nesting generalizing active with
  | zero => exact fun _ _ _ result hread => absurd hread not_schema_zero_eq_valid
  | succ nesting ih =>
    intro value value' hvalue result hread
    cases hvalue with
    | part hknot hcontent hcontent' hkeys hfields =>
      rw [schema_succ_eq_valid_iff] at hread
      obtain ⟨hactive, entries, hentries, hdollarRef, href, htype, hformat, hitems, hproperties,
        hrequired⟩ := hread
      obtain rfl := Value.map.inj (hentries.symm.trans hcontent)
      have h : RespelledFields knots knots' .schema _ _ := ⟨hkeys, hfields⟩
      -- The schemas inside are read with the same schemas around them.
      obtain ⟨hsame, hinside⟩ := active_eq_of_same_knot hknot active
      have hinner := ih (activate active value)
      rw [schema_succ_eq_valid_iff, hsame, hinside]
      exact ⟨hactive, _, hcontent',
        h.read? (by simp [shapes]) readsAlike_text _ hdollarRef,
        h.read? (by simp [shapes]) readsAlike_text _ href,
        h.read (by simp [shapes]) readsAlike_type _ htype,
        h.read? (by simp [shapes]) readsAlike_text _ hformat,
        h.read? (by simp [shapes]) hinner _ hitems,
        h.read (by simp [shapes]) hinner.mapping _ hproperties,
        h.read (by simp [shapes]) readsAlike_text.list _ hrequired⟩

theorem readsAlike_nestedSchema :
    ReadsAlike knots knots' (.part .schema) (nestedSchema knots) (nestedSchema knots') :=
  readsAlike_schema maxNesting []

/-! ## Readers of parts -/

theorem readsAlike_parameter :
    ReadsAlike knots knots' (.part .parameter) (parameter knots) (parameter knots') := by
  apply readsAlike_part
  intro entries entries' h
  apply CarriesOver.seq
  · apply CarriesOver.seq
    · apply CarriesOver.seq
      · exact (h.read (by simp [shapes]) readsAlike_text).fmap
      · exact h.read (by simp [shapes]) readsAlike_text
    · exact h.read (by simp [shapes]) readsAlike_truth
  · exact h.read (by simp [shapes]) readsAlike_nestedSchema

theorem readsAlike_mediaType :
    ReadsAlike knots knots' (.part .mediaType) (mediaType knots) (mediaType knots') := by
  apply readsAlike_part
  intro entries entries' h
  exact (h.read (by simp [shapes]) readsAlike_nestedSchema).fmap

theorem readsAlike_response :
    ReadsAlike knots knots' (.part .response) (response knots) (response knots') := by
  apply readsAlike_part
  intro entries entries' h
  apply CarriesOver.seq
  · exact (h.read (by simp [shapes]) readsAlike_text).fmap
  · exact h.read? (by simp [shapes]) readsAlike_mediaType.mapping

theorem readsAlike_operation :
    ReadsAlike knots knots' (.part .operation) (operation knots) (operation knots') := by
  apply readsAlike_part
  intro entries entries' h
  apply CarriesOver.seq
  · apply CarriesOver.seq
    · apply CarriesOver.seq
      · apply CarriesOver.seq
        · exact (h.read (by simp [shapes]) readsAlike_text).fmap
        · exact h.read (by simp [shapes]) readsAlike_text
      · exact h.read (by simp [shapes]) readsAlike_text.list
    · exact h.read (by simp [shapes]) readsAlike_parameter.list
  · exact h.read (by simp [shapes]) readsAlike_response.mapping

theorem readsAlike_info : ReadsAlike knots knots' (.part .info) (info knots) (info knots') := by
  apply readsAlike_part
  intro entries entries' h
  apply CarriesOver.seq
  · exact (h.read (by simp [shapes]) readsAlike_text).fmap
  · exact h.read (by simp [shapes]) readsAlike_text

theorem readsAlike_components :
    ReadsAlike knots knots' (.part .components) (components knots) (components knots') := by
  apply readsAlike_part
  intro entries entries' h
  exact (h.read (by simp [shapes]) readsAlike_nestedSchema.mapping).fmap

/-! ## Paths -/

/-- The operations of paths with the same keys are read one by one. -/
theorem readsAlike_pathItem :
    ReadsAlike knots knots' .pathItem (pathItem knots) (pathItem knots') := by
  intro value value' hvalue operations hread
  cases hvalue with
  | @pathItem _ _ entries entries' hcontent hcontent' hkeys hoperations hshared =>
    rw [pathItem_eq_valid_iff, pathItem?_eq_some_iff] at hread ⊢
    obtain ⟨own, hown, hread⟩ := hread
    obtain rfl := Value.map.inj (hown.symm.trans hcontent)
    refine ⟨entries', hcontent', ?_⟩
    have hpath : (pathOperations knots own).CarriesOver (pathOperations knots' entries') := by
      apply CarriesOver.andThen
      · exact readsAlike_parameter.list _ _ hshared
      · intro shared
        apply carriesOver_upToFirst
        -- The same entries give operations, since the keys are the same.
        have hpairs : List.Forall₂ (fun entry entry' => entry'.1 = entry.1 ∧
            ((methodKey? entry.1).isSome → Respelled knots knots' (.part .operation)
              (orEmpty (.map []) entry.2) (orEmpty (.map []) entry'.2))) own entries' := by
          obtain ⟨hlength, hkeys⟩ := List.forall₂_iff_zip.mp hkeys
          exact List.forall₂_iff_zip.mpr ⟨hlength, fun hpair => ⟨hkeys hpair, hoperations _ hpair⟩⟩
        refine List.rel_filterMap ?_ hpairs
        rintro ⟨key, own⟩ ⟨key', own'⟩ ⟨hkey, hoperation⟩
        obtain rfl : key' = key := hkey
        cases hmethod : methodKey? key' with
        | none => simp [hmethod]
        | some method =>
          simp only [hmethod, Option.map_some]
          apply Option.Rel.some
          apply CarriesOver.map
          apply readsAlike_operation
          exact hoperation (by simp [hmethod])
    exact hpath operations hread

theorem readsAlike_paths :
    ReadsAlike knots knots' (.mapping .pathItem) (paths knots) (paths knots') := by
  intro value value' hvalue result hread
  rw [paths_eq_valid_iff] at hread ⊢
  exact readsAlike_pathItem.mapping value value' hvalue result hread

end

/-! ## Documents -/

theorem specification_carriesOver {document document' : Document}
    (h : Respelled document.knots document'.knots (.part .specification) document.root document'.root) :
    (specification document).CarriesOver (specification document') := by
  apply readsAlike_part _ _ _ h
  intro entries entries' h
  apply CarriesOver.seq
  · apply CarriesOver.seq
    · apply CarriesOver.seq
      · exact (h.read (by simp [shapes]) readsAlike_text).fmap
      · exact h.read (by simp [shapes]) readsAlike_info
    · exact h.read (by simp [shapes]) readsAlike_paths
  · exact h.read (by simp [shapes]) readsAlike_components

/-- **Numbers stand for their texts.** An accepted document is a respelling of itself, and every respelling
of it, in which numbers at places for text are replaced by their texts, is accepted with the same
specification. What is generated from them is the same, then. -/
theorem bindDocument_respelled {document : Document} {result : Specification}
    (hresult : bindDocument document = .ok result) :
    Respelled document.knots document.knots (.part .specification) document.root document.root ∧
      ∀ document' : Document,
        Respelled document.knots document'.knots (.part .specification) document.root document'.root →
          bindDocument document' = .ok result ∧
            ∀ other, bindDocument document' = .ok other →
              ∀ givenName, Client.generate other givenName = Client.generate result givenName := by
  refine ⟨(exists_bindDocument_iff.mp ⟨result, hresult⟩).respelled_self, ?_⟩
  intro document' h
  have hsame : bindDocument document' = .ok result := by
    rw [bindDocument_eq_ok_iff] at hresult ⊢
    exact specification_carriesOver h result hresult
  refine ⟨hsame, ?_⟩
  intro other hother givenName
  rw [hsame] at hother
  rw [Except.ok.inj hother]

/-- A document with numbers for its version, a path, a status code and the name of a property, which is
listed as required: all but the last are put in quotes. -/
theorem bindDocument_respelled_quoted :
    let operation (status : Value) : Value := .map
      [(.text "responses", .map [(status, .map [])])]
    let pet (property : Value) : Value := .map
      [(.text "properties", .map [(property, .map [])]), (.text "required", .list [.int 7])]
    let document (version path status property : Value) : Document :=
      { root := .map
          [(.text "openapi", version),
           (.text "paths", .map [(path, .map [(.text "get", operation status)])]),
           (.text "components", .map [(.text "schemas", .map [(.text "Pet", pet property)])])] }
    let version : Decimal.Binary64 := .finite false 6755399441055744 (-51)
    ∃ result, bindDocument (document (.float version) (.int 404) (.int 200) (.int 7)) = .ok result ∧
      bindDocument (document (.text "3.0") (.text "404") (.text "200") (.text "7")) = .ok result := by
  intro operation pet document version
  have hversion : Spelled (.float version) (.text "3.0") := .float
  have hpath : Spelled (.int 404) (.text "404") := .int (by decide +kernel)
  have hstatus : Spelled (.int 200) (.text "200") := .int (by decide +kernel)
  have hproperty : Spelled (.int 7) (.text "7") := .int (by decide +kernel)
  -- Empty parts are respelled as empty parts; then one part around the other.
  have hempty : ∀ part, Respelled [] [] (.part part) (.map []) (.map []) := by
    intro part
    refine .part (by simp) rfl rfl .nil ?_
    intro field _
    exact respelled_of_missing (by simp [Field.find?])
  have hoperation : Respelled [] [] (.part .operation) (operation (.int 200)) (operation (.text "200")) := by
    refine .part (by simp [operation]) rfl rfl (by simp [SameKeys]) ?_
    simp only [shapes, List.forall_mem_cons]
    refine ⟨respelled_of_missing rfl, respelled_of_missing rfl, respelled_of_missing rfl,
      respelled_of_missing rfl, respelled_of_found rfl rfl ?_, List.forall_mem_nil _⟩
    refine .mapping rfl rfl (.cons hstatus .nil) ?_
    simpa using hempty .response
  have hpet : Respelled [] [] (.part .schema) (pet (.int 7)) (pet (.text "7")) := by
    refine .part (by simp [pet]) rfl rfl (by simp [SameKeys]) ?_
    simp only [shapes, List.forall_mem_cons]
    refine ⟨respelled_of_missing rfl, respelled_of_missing rfl, respelled_of_missing rfl,
      respelled_of_missing rfl, respelled_of_missing rfl, respelled_of_found rfl rfl ?_,
      respelled_of_found rfl rfl ?_, List.forall_mem_nil _⟩
    · refine .mapping rfl rfl (.cons hproperty .nil) ?_
      simpa using hempty .schema
    · refine .list rfl rfl (fun _ _ => rfl) rfl ?_
      simpa using .text .same
  have hpathItem : Respelled [] [] .pathItem (.map [(.text "get", operation (.int 200))])
      (.map [(.text "get", operation (.text "200"))]) := by
    refine .pathItem rfl rfl (.cons rfl .nil) ?_ ?_
    · simp only [List.zip_cons_cons, List.zip_nil_left, List.forall_mem_singleton]
      exact fun _ => hoperation
    · refine .list rfl rfl (fun _ _ => rfl) rfl ?_
      exact List.forall_mem_nil _
  have hcomponents : Respelled [] [] (.part .components)
      (.map [(.text "schemas", .map [(.text "Pet", pet (.int 7))])])
      (.map [(.text "schemas", .map [(.text "Pet", pet (.text "7"))])]) := by
    refine .part (by simp) rfl rfl (by simp [SameKeys]) ?_
    simp only [shapes, List.forall_mem_singleton]
    refine respelled_of_found rfl rfl ?_
    refine .mapping rfl rfl (.cons .same .nil) ?_
    simpa using hpet
  have hroot : Respelled [] [] (.part .specification)
      (document (.float version) (.int 404) (.int 200) (.int 7)).root
      (document (.text "3.0") (.text "404") (.text "200") (.text "7")).root := by
    refine .part (by simp [document]) rfl rfl (by simp [SameKeys]) ?_
    simp only [shapes, List.forall_mem_cons]
    refine ⟨respelled_of_found rfl rfl (.text hversion), respelled_of_missing rfl,
      respelled_of_found rfl rfl ?_, respelled_of_found rfl rfl hcomponents, List.forall_mem_nil _⟩
    refine .mapping rfl rfl (.cons hpath .nil) ?_
    simpa using hpathItem
  -- The numbers are short enough to be written, so the document is accepted.
  have haccepted : (bindDocument (document (.float version) (.int 404) (.int 200) (.int 7))).isOk := by
    decide +kernel
  cases hresult : bindDocument (document (.float version) (.int 404) (.int 200) (.int 7)) with
  | error fault =>
    rw [hresult] at haccepted
    exact Bool.noConfusion haccepted
  | ok result => exact ⟨result, rfl, ((bindDocument_respelled hresult).2 _ hroot).1⟩

end Binding

end OpenApiClient
