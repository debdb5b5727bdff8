import OpenApiClient.Proofs.Binding.Shape

/-!
# Replacing a Schema

What happens to a document when some value is put in place of one of its schemas. The rest of the document
fits as before, so the new document is accepted exactly when what is now read at the place of the schema
fits there. A null value is read as no value where the schema is that of a field, and then another entry
may give the field.

## Layers

- **Entries**: `TakenFrom`, the entry that gives a field, and what the fields of a part find when its value
  is exchanged.
- **Replacement**: `Replaced`, a value in which another one is put in place of a schema.
- **Fitting**: `Replaced.fits_iff`, by induction on where the schema is.
-/

namespace OpenApiClient.Binding

open OpenApiClient.Document
open OpenApiClient.Checked

/-! ## Entries -/

/-- Whether a field takes its value, under a name, from the entry between others. -/
structure Field.TakenFrom (field : Field) (name : String) (before : List (Value × Value))
    (key given : Value) (after : List (Value × Value)) : Prop where
  gives : field.Gives (before ++ (key, given) :: after) name given
  spells : Spells name key
  unspelled : Unspelled name before

section

variable {field : Field} {name : String} {before after : List (Value × Value)} {key given : Value}

theorem Field.TakenFrom.of_find? (hfound : field.find? (before ++ (key, given) :: after) = some (name, given))
    (hspells : Spells name key) (hbefore : before.findSome? (entryNamed? name) = none) :
    field.TakenFrom name before key given after :=
  ⟨Field.find?_eq_some_iff.mp hfound, hspells, findSome?_entryNamed?_eq_none_iff.mp hbefore⟩

theorem lower_eq_of_spells {other : String} (h : Spells name key) (hother : Spells other key) :
    Text.lower name = Text.lower other := by
  cases key with
  | text key => exact h.symm.trans hother
  | _ => exact absurd h not_false

/-- Exchanging the value of a key does not matter for a field that the key does not name. -/
theorem Field.find?_exchange (h : ∀ name ∈ field.names, ¬ Spells name key) (value value' : Value) :
    field.find? (before ++ (key, value) :: after) = field.find? (before ++ (key, value') :: after) := by
  apply Field.find?_eq_of_findSome?_eq
  intro name hname
  have hnone : ∀ value, entryNamed? name (key, value) = none :=
    fun value => entryNamed?_eq_none_iff.mpr fun hspells => absurd hspells (h name hname)
  simp [List.findSome?_append, hnone]

theorem Field.read_exchange {α : Type} (h : ∀ name ∈ field.names, ¬ Spells name key)
    (value value' : Value) (absent : α) (reader : Value → Checked α) :
    field.read (before ++ (key, value) :: after) absent reader =
      field.read (before ++ (key, value') :: after) absent reader := by
  rw [Field.read, Field.read, Field.find?_exchange h value value']

/-- The field takes whatever is put in place of its value, unless it is null. -/
theorem Field.TakenFrom.exchange (h : field.TakenFrom name before key given after) {value : Value}
    (hvalue : value ≠ .null) : field.Gives (before ++ (key, value) :: after) name value := by
  have hfirst : FirstSpelled name (before ++ (key, value) :: after) value :=
    ⟨before, key, after, rfl, h.unspelled, h.spells, hvalue⟩
  rcases h.gives with ⟨hwire, -⟩ | ⟨hwire, hname, hgiven⟩
  · exact .inl ⟨hwire, hfirst⟩
  · refine .inr ⟨fun wire hwireName entry hentry hspells => ?_, hname, hfirst⟩
    have hunspelled := hwire wire hwireName
    -- The key does not spell the other name of the field, since its value was given.
    have hkey : ¬ Spells wire key := by
      intro hkey
      obtain ⟨-, -, -, hgivenValue⟩ := hgiven.exists_mem
      exact hgivenValue (hunspelled (key, given) (by simp) hkey)
    simp only [List.mem_append, List.mem_cons] at hentry
    rcases hentry with hentry | rfl | hentry
    · exact hunspelled entry (by simp [hentry]) hspells
    · exact absurd hspells hkey
    · exact hunspelled entry (by simp [hentry]) hspells

/-- The fields of a part have names that differ in more than letter case. -/
theorem shapes_distinct (part : Part) :
    ∀ first ∈ shapes part, ∀ second ∈ shapes part,
      ∀ name ∈ first.1.names, ∀ other ∈ second.1.names,
        Text.lower name = Text.lower other → first = second := by
  cases part <;> decide

theorem Field.TakenFrom.not_spells {part : Part} {shape : Shape} (hfield : (field, shape) ∈ shapes part)
    (h : field.TakenFrom name before key given after) {other : Field × Shape}
    (hother : other ∈ shapes part) (hne : other ≠ (field, shape)) :
    ∀ otherName ∈ other.1.names, ¬ Spells otherName key := by
  intro otherName hotherName hspells
  apply hne
  exact shapes_distinct part other hother (field, shape) hfield otherName hotherName name
    h.gives.mem_names (lower_eq_of_spells hspells h.spells)

/-- When the value of one field of a part is exchanged, the others hold what they held. -/
theorem Field.TakenFrom.fieldsHold_exchange {holds : Shape → Value → Prop} {part : Part} {shape : Shape}
    (hfield : (field, shape) ∈ shapes part) (h : field.TakenFrom name before key given after)
    (hold : FieldsHold holds (shapes part) (before ++ (key, given) :: after)) (value : Value) :
    FieldsHold holds (shapes part) (before ++ (key, value) :: after) ↔
      ∀ found ∈ field.find? (before ++ (key, value) :: after), holds shape found.2 := by
  constructor
  · rintro hnew ⟨foundName, found⟩ hfound
    exact hnew (field, shape) hfield foundName found (Field.find?_eq_some_iff.mp hfound)
  · intro hnew other hother foundName found hfound
    by_cases hsame : other = (field, shape)
    · subst hsame
      exact hnew (foundName, found) (Field.find?_of_gives hfound)
    · apply hold other hother foundName found
      rw [← Field.find?_eq_some_iff, ← Field.find?_of_gives hfound]
      exact Field.find?_exchange (h.not_spells hfield hother hsame) given value

end

/-! ## Replacement -/

/-- How many schemas a part adds to those around its fields. -/
def Part.levels : Part → Nat
  | .schema => 1
  | _ => 0

theorem Part.levels_of_ne {part : Part} (h : part ≠ .schema) : part.levels = 0 := by
  cases part with
  | schema => exact absurd rfl h
  | _ => rfl

/-- Whether a value is another one with `v` in place of a schema, which stands within `depth` schemas.
What is read at its place afterwards is `now`: the value, or for a null value what another entry gives
for the field, if any does. Knots on the way to the schema are unfolded. -/
inductive Replaced (knots : Knots) (v : Value) :
    (depth : Nat) → Shape → (old new : Value) → (now : Option Value) → Prop
  /-- The schema itself. -/
  | here {old : Value} : Replaced knots v 0 (.part .schema) old v (some v)
  /-- In the value of a field of a part, which is not null afterwards. -/
  | field {depth : Nat} {part : Part} {old : Value} {field : Field} {shape : Shape} {name : String}
      {before after : List (Value × Value)} {key given new : Value} {now : Option Value} :
      knots.content old = .map (before ++ (key, given) :: after) → (field, shape) ∈ shapes part →
        field.TakenFrom name before key given after → Replaced knots v depth shape given new now →
          new ≠ .null →
            Replaced knots v (depth + part.levels) (.part part) old (.map (before ++ (key, new) :: after))
              now
  /-- A field of a part whose schema is replaced by null, so that the entry counts for nothing. -/
  | cleared {part : Part} {old : Value} {field : Field} {name : String}
      {before after : List (Value × Value)} {key given : Value} :
      knots.content old = .map (before ++ (key, given) :: after) → (field, .part .schema) ∈ shapes part →
        field.TakenFrom name before key given after → v = .null →
          Replaced knots v part.levels (.part part) old (.map (before ++ (key, .null) :: after))
            ((field.find? (before ++ (key, .null) :: after)).map (·.2))
  /-- In an element of a list. -/
  | element {depth : Nat} {shape : Shape} {old : Value} {before after : List Value} {given new : Value}
      {now : Option Value} :
      elements? (knots.content old) = some (before ++ given :: after) →
        Replaced knots v depth shape given new now →
          Replaced knots v depth (.list shape) old (.list (before ++ new :: after)) now
  /-- In a value of a mapping. -/
  | entry {depth : Nat} {shape : Shape} {old : Value} {before after : List (Value × Value)}
      {key given new : Value} {now : Option Value} :
      knots.content old = .map (before ++ (key, given) :: after) →
        Replaced knots v depth shape given new now →
          Replaced knots v depth (.mapping shape) old (.map (before ++ (key, new) :: after)) now
  /-- In the parameters that a path shares. -/
  | shared {depth : Nat} {old : Value} {before after : List (Value × Value)} {key given new : Value}
      {now : Option Value} :
      knots.content old = .map (before ++ (key, given) :: after) → Spells "parameters" key →
        (∀ entry ∈ before, ¬ Spells "parameters" entry.1) →
          Replaced knots v depth (.list (.part .parameter)) given new now →
            Replaced knots v depth .pathItem old (.map (before ++ (key, new) :: after)) now
  /-- In an operation of a path. -/
  | operation {depth : Nat} {old : Value} {before after : List (Value × Value)} {key given new : Value}
      {now : Option Value} :
      knots.content old = .map (before ++ (key, given) :: after) → (methodKey? key).isSome →
        Replaced knots v depth (.part .operation) given new now →
          Replaced knots v depth .pathItem old (.map (before ++ (key, new) :: after)) now

section

variable {knots : Knots} {v : Value} {depth : Nat} {shape : Shape} {old new : Value} {now : Option Value}

/-- A value is not empty if its content is not. -/
theorem isEmpty_eq_false_of_content {value content : Value} (h : knots.content value = content)
    (hcontent : content.isEmpty = false) : value.isEmpty = false := by
  subst h
  cases value with
  | knot => rfl
  | _ => exact hcontent

theorem isEmpty_append_cons {before after : List (Value × Value)} {entry : Value × Value} :
    (Value.map (before ++ entry :: after)).isEmpty = false := by
  cases before <;> rfl

theorem isEmpty_of_elements? {value : Value} {before after : List Value} {item : Value}
    (h : elements? value = some (before ++ item :: after)) : value.isEmpty = false := by
  cases value with
  | list | set =>
    obtain rfl := Option.some.inj h
    cases before <;> rfl
  | pair => rfl
  | _ => contradiction

/-- The containers around a schema are not empty, neither before nor afterwards. -/
theorem Replaced.isEmpty_eq_false (h : Replaced knots v depth shape old new now)
    (hshape : shape ≠ .part .schema) : old.isEmpty = false ∧ new.isEmpty = false := by
  cases h with
  | here => exact absurd rfl hshape
  | element hitems =>
    exact ⟨isEmpty_eq_false_of_content rfl (isEmpty_of_elements? hitems), isEmpty_of_elements? rfl⟩
  | field hcontent | cleared hcontent | entry hcontent | shared hcontent | operation hcontent =>
    exact ⟨isEmpty_eq_false_of_content hcontent isEmpty_append_cons, isEmpty_append_cons⟩

/-- A part that is no schema itself has the value of one field exchanged. -/
theorem Replaced.exists_field {part : Part} (h : Replaced knots v depth (.part part) old new now)
    (hpart : part ≠ .schema) :
    ∃ field shape name before key given after value,
      knots.content old = .map (before ++ (key, given) :: after) ∧
        new = .map (before ++ (key, value) :: after) ∧ (field, shape) ∈ shapes part ∧
        field.TakenFrom name before key given after ∧
        (shape = .part .schema ∨
          value ≠ .null ∧ ∃ inner, Replaced knots v inner shape given value now) := by
  generalize hshape : Shape.part part = shape at h
  cases h with
  | here => exact absurd (Shape.part.inj hshape) hpart
  | field hcontent hfield htaken hreplaced hnull =>
    obtain rfl := Shape.part.inj hshape
    exact ⟨_, _, _, _, _, _, _, _, hcontent, rfl, hfield, htaken, .inr ⟨hnull, _, hreplaced⟩⟩
  | cleared hcontent hfield htaken =>
    obtain rfl := Shape.part.inj hshape
    exact ⟨_, _, _, _, _, _, _, _, hcontent, rfl, hfield, htaken, .inl rfl⟩
  | _ => contradiction

/-! ## Fitting -/

/-- The fields of a part in a document are within as many schemas as the part adds. -/
theorem fits_map_iff {nesting : Nat} {part : Part} {entries : List (Value × Value)} :
    Fits knots (nesting + part.levels) [] (.part part) (.map entries) ↔
      FieldsHold (Fits knots nesting []) (shapes part) entries := by
  by_cases hschema : part = .schema
  · subst hschema
    show Fits knots (nesting + 1) [] (.part .schema) (.map entries) ↔ _
    simp [fits_schema_succ_iff, isActive, activate, Knots.content]
  · simp [Part.levels_of_ne hschema, fits_part_iff hschema, Knots.content]

theorem Fits.exists_fieldsHold {nesting : Nat} {part : Part} {entries : List (Value × Value)}
    (h : Fits knots nesting [] (.part part) old) (hcontent : knots.content old = .map entries) :
    ∃ inner, nesting = inner + part.levels ∧ FieldsHold (Fits knots inner []) (shapes part) entries := by
  cases h with
  | schema hactive hentries hfields =>
    obtain rfl := Value.map.inj (hcontent.symm.trans hentries)
    refine ⟨_, rfl, ?_⟩
    intro field hfield name given hgives
    exact (hfields field hfield name given hgives).mono (List.nil_subset _)
  | part hschema hentries hfields =>
    obtain rfl := Value.map.inj (hcontent.symm.trans hentries)
    exact ⟨nesting, by simp [Part.levels_of_ne hschema], hfields⟩

/-- Parts keep fitting as far as the field does whose value is exchanged. -/
theorem Fits.exchange_iff {nesting : Nat} {part : Part} {field : Field} {name : String}
    {before after : List (Value × Value)} {key given : Value}
    (h : Fits knots nesting [] (.part part) old)
    (hcontent : knots.content old = .map (before ++ (key, given) :: after))
    (hfield : (field, shape) ∈ shapes part) (htaken : field.TakenFrom name before key given after)
    (value : Value) :
    ∃ inner, nesting = inner + part.levels ∧ Fits knots inner [] shape given ∧
      (Fits knots nesting [] (.part part) (.map (before ++ (key, value) :: after)) ↔
        ∀ found ∈ field.find? (before ++ (key, value) :: after),
          Fits knots inner [] shape found.2) := by
  obtain ⟨inner, rfl, hfields⟩ := h.exists_fieldsHold hcontent
  refine ⟨inner, rfl, hfields _ hfield _ _ htaken.gives, ?_⟩
  rw [fits_map_iff]
  exact htaken.fieldsHold_exchange hfield hfields value

/-- The value of a key that spells the name, even a null one, if no key does before it. -/
theorem firstNamed_of_first {before after : List (Value × Value)} {key value : Value}
    (hkey : Spells "parameters" key) (hbefore : ∀ entry ∈ before, ¬ Spells "parameters" entry.1) :
    firstNamed "parameters" (before ++ (key, value) :: after) = value := by
  induction before with
  | nil => rw [List.nil_append, firstNamed_cons, if_pos hkey]
  | cons entry before ih =>
    obtain ⟨hentry, hbefore⟩ := List.forall_mem_cons.mp hbefore
    rw [List.cons_append, firstNamed_cons, if_neg hentry, ih hbefore]

theorem firstNamed_exchange {before after : List (Value × Value)} {key : Value}
    (hkey : ¬ Spells "parameters" key) (value value' : Value) :
    firstNamed "parameters" (before ++ (key, value) :: after) =
      firstNamed "parameters" (before ++ (key, value') :: after) := by
  induction before with
  | nil => rw [List.nil_append, List.nil_append, firstNamed_cons, firstNamed_cons, if_neg hkey, if_neg hkey]
  | cons entry before ih =>
    rw [List.cons_append, List.cons_append, firstNamed_cons, firstNamed_cons, ih]

theorem orEmpty_of_isEmpty {empty value : Value} (h : value.isEmpty = false) :
    orEmpty empty value = value := by
  simp [orEmpty, h]

/-- When one element is exchanged, only the new one is in question. -/
theorem forall_mem_exchange {α : Type} {holds : α → Prop} {before after : List α} {given new : α}
    (h : ∀ item ∈ before ++ given :: after, holds item) :
    (∀ item ∈ before ++ new :: after, holds item) ↔ holds new := by
  rw [List.forall_mem_append, List.forall_mem_cons] at h ⊢
  exact ⟨fun hall => hall.2.1, fun hnew => ⟨h.1, hnew, h.2.2⟩⟩

theorem fits_pathItem_map_iff {nesting : Nat} {entries : List (Value × Value)} :
    Fits knots nesting [] .pathItem (.map entries) ↔
      Fits knots nesting [] (.list (.part .parameter))
          (orEmpty (.list []) (firstNamed "parameters" entries)) ∧
        ∀ entry ∈ entries, (methodKey? entry.1).isSome →
          Fits knots nesting [] (.part .operation) (orEmpty (.map []) entry.2) := by
  simp [fits_pathItem_iff, Knots.content]

/-- **The rest fits as before.** When a value that fits has another one put in place of a schema, the
result fits exactly when what is read at the place of the schema does, if anything is. -/
theorem Replaced.fits_iff (h : Replaced knots v depth shape old new now) {nesting : Nat}
    (hold : Fits knots nesting [] shape old) :
    Fits knots nesting [] shape new ↔
      ∀ value ∈ now, Fits knots (nesting - depth) [] (.part .schema) value := by
  -- Induction on where the schema is: each container around it fits as far as the place does that leads
  -- on to the schema.
  induction h generalizing nesting with
  | here => simp
  | @field depth part old field shape name before after key given new now hcontent hfield htaken _ hnull
      ih =>
    obtain ⟨inner, rfl, hgiven, hexchange⟩ := hold.exchange_iff hcontent hfield htaken new
    have hfound := Field.find?_of_gives (htaken.exchange hnull)
    rw [hexchange, hfound, Nat.add_sub_add_right, ← ih hgiven]
    simp
  | @cleared part old field name before after key given hcontent hfield htaken _ =>
    -- The entry is passed over now, so the field takes what another entry gives, if any does.
    obtain ⟨inner, rfl, -, hexchange⟩ := hold.exchange_iff hcontent hfield htaken .null
    rw [hexchange, Nat.add_sub_cancel]
    simp only [Option.mem_def, Prod.forall, Option.map_eq_some_iff, Prod.exists, exists_eq_right,
      forall_exists_index]
    exact forall_comm
  | @element depth shape old before after given new now hitems _ ih =>
    obtain ⟨items, hitems', hall⟩ := fits_list_iff.mp hold
    obtain rfl := Option.some.inj (hitems.symm.trans hitems')
    have hnew : Fits knots nesting [] (.list shape) (.list (before ++ new :: after)) ↔
        ∀ item ∈ before ++ new :: after, Fits knots nesting [] shape item := by
      simp [fits_list_iff, Knots.content, elements?]
    rw [hnew, forall_mem_exchange hall]
    exact ih (hall given (by simp))
  | @entry depth shape old before after key given new now hcontent _ ih =>
    obtain ⟨entries, hcontent', hall⟩ := fits_mapping_iff.mp hold
    obtain rfl := Value.map.inj (hcontent.symm.trans hcontent')
    obtain ⟨hkey, hgiven⟩ := hall (key, given) (by simp)
    have hnew : Fits knots nesting [] (.mapping shape) (.map (before ++ (key, new) :: after)) ↔
        ∀ entry ∈ before ++ (key, new) :: after,
          IsTextual entry.1 ∧ Fits knots nesting [] shape entry.2 := by
      simp [fits_mapping_iff, Knots.content]
    rw [hnew, forall_mem_exchange hall, ← ih hgiven]
    simp [hkey]
  | @shared depth old before after key given new now hcontent hkey hbefore hreplaced ih =>
    obtain ⟨entries, hcontent', hshared, hoperations⟩ := fits_pathItem_iff.mp hold
    obtain rfl := Value.map.inj (hcontent.symm.trans hcontent')
    -- The list was not empty and is not now, so it is the list itself that is read.
    obtain ⟨hgivenEmpty, hnewEmpty⟩ := hreplaced.isEmpty_eq_false (by simp)
    rw [firstNamed_of_first hkey hbefore, orEmpty_of_isEmpty hgivenEmpty] at hshared
    rw [fits_pathItem_map_iff, firstNamed_of_first hkey hbefore, orEmpty_of_isEmpty hnewEmpty,
      forall_mem_exchange hoperations, ← ih hshared]
    -- The key names no method, so nothing is asked of its value as an operation.
    have hnone : methodKey? key = none := by
      cases hmethod : methodKey? key with
      | none => rfl
      | some method => exact absurd hkey (not_spells_of_methodKey? hmethod)
    simp [hnone]
  | @operation depth old before after key given new now hcontent hmethod hreplaced ih =>
    obtain ⟨entries, hcontent', hshared, hoperations⟩ := fits_pathItem_iff.mp hold
    obtain rfl := Value.map.inj (hcontent.symm.trans hcontent')
    obtain ⟨hgivenEmpty, hnewEmpty⟩ := hreplaced.isEmpty_eq_false (by simp)
    obtain ⟨method, hsome⟩ := Option.isSome_iff_exists.mp hmethod
    have hgiven := hoperations (key, given) (by simp) hmethod
    rw [orEmpty_of_isEmpty hgivenEmpty] at hgiven
    rw [firstNamed_exchange (not_spells_of_methodKey? hsome) given new] at hshared
    rw [fits_pathItem_map_iff, forall_mem_exchange hoperations, ← ih hgiven,
      orEmpty_of_isEmpty hnewEmpty]
    simp [hshared, hmethod]

end

end OpenApiClient.Binding
