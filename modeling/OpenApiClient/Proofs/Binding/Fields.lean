import OpenApiClient.Proofs.Binding.Canonical

/-!
# Fields of Canonical Forms

A field is found in the entries that a canonical form keeps of a part as it is found in all entries:
under the same name, with the canonical form of its value. The names of the fields of a part differ
in more than letter case, so no field takes the entry of another one, whatever the order.

## Layers

- **Finding fields**: `Field.find?` finds what is spelled first (`find?_eq_some_iff`), `firstNamed` even a null value
  (`firstNamed_cons`).
- **Distinct names**: `fields_distinct`.
- **Kept entries**: what a field finds in them (`gives_of_kept`, `isMissing_of_kept`).
- **Main statement**: `KeptOf.read`, reading a field in them.
-/

namespace OpenApiClient.Binding

open OpenApiClient.Document

/-! ## Finding fields -/

theorem entryNamed?_eq_some_iff {name : String} {entry : Value × Value} {value : Value} :
    entryNamed? name entry = some value ↔
      Spells name entry.1 ∧ entry.2 = value ∧ value ≠ .null := by
  obtain ⟨key, own⟩ := entry
  unfold entryNamed?
  split
  case h_1 key' heq =>
    simp only [reduceCtorEq, false_iff]
    rintro ⟨-, rfl, hvalue⟩
    exact hvalue (Prod.mk.inj heq).2
  case h_2 key own hnull heq =>
    obtain ⟨rfl, rfl⟩ := Prod.mk.inj heq
    simp only [Spells, Option.ite_none_right_eq_some, Option.some.injEq, beq_iff_eq]
    constructor
    · rintro ⟨hkey, rfl⟩
      exact ⟨hkey, rfl, hnull⟩
    · rintro ⟨hkey, rfl, -⟩
      exact ⟨hkey, rfl⟩
  case h_3 hnull htext =>
    -- Keys that are no text spell nothing.
    simp only [reduceCtorEq, false_iff]
    rintro ⟨hkey, -⟩
    cases key with
    | text key => exact htext _ _ rfl
    | _ => exact hkey

theorem entryNamed?_eq_none_iff {name : String} {entry : Value × Value} :
    entryNamed? name entry = none ↔ (Spells name entry.1 → entry.2 = .null) := by
  constructor
  · intro hnone hkey
    by_cases hnull : entry.2 = .null
    · exact hnull
    · rw [entryNamed?_eq_some_iff.mpr ⟨hkey, rfl, hnull⟩] at hnone
      contradiction
  · intro h
    cases hfound : entryNamed? name entry with
    | none => rfl
    | some value =>
      obtain ⟨hkey, rfl, hvalue⟩ := entryNamed?_eq_some_iff.mp hfound
      exact absurd (h hkey) hvalue

theorem findSome?_entryNamed?_eq_none_iff {name : String} {entries : List (Value × Value)} :
    entries.findSome? (entryNamed? name) = none ↔ Unspelled name entries := by
  simp only [List.findSome?_eq_none_iff, entryNamed?_eq_none_iff, Unspelled]

theorem findSome?_entryNamed?_eq_some_iff {name : String} {entries : List (Value × Value)}
    {value : Value} :
    entries.findSome? (entryNamed? name) = some value ↔ FirstSpelled name entries value := by
  rw [List.findSome?_eq_some_iff]
  constructor
  · rintro ⟨before, ⟨key, own⟩, after, rfl, hfound, hbefore⟩
    obtain ⟨hkey, rfl, hvalue⟩ := entryNamed?_eq_some_iff.mp hfound
    exact ⟨before, key, after, rfl,
      fun entry hmem => entryNamed?_eq_none_iff.mp (hbefore entry hmem), hkey, hvalue⟩
  · rintro ⟨before, key, after, rfl, hbefore, hkey, hvalue⟩
    exact ⟨before, (key, value), after, rfl, entryNamed?_eq_some_iff.mpr ⟨hkey, rfl, hvalue⟩,
      fun entry hmem => entryNamed?_eq_none_iff.mpr (hbefore entry hmem)⟩

/-- An entry is seen under one name only. -/
theorem entryNamed?_eq_none_of_spells {name other : String} {entry : Value × Value}
    (hne : Text.lower name ≠ Text.lower other) (hspells : Spells other entry.1) :
    entryNamed? name entry = none := by
  rw [entryNamed?_eq_none_iff]
  intro hname
  obtain ⟨key, value⟩ := entry
  cases key with
  | text key => exact absurd (hname.symm.trans hspells) hne
  | _ => exact absurd hspells not_false

theorem firstNamed_cons (entry : Value × Value) (entries : List (Value × Value)) :
    firstNamed "parameters" (entry :: entries) =
      if Spells "parameters" entry.1 then entry.2 else firstNamed "parameters" entries := by
  obtain ⟨key, value⟩ := entry
  cases key with
  | text key =>
    by_cases hkey : Text.lower key = Text.ofString "parameters"
    · have hspells : Spells "parameters" (.text key) := hkey
      simp [firstNamed, hkey, hspells]
    · have hspells : ¬ Spells "parameters" (.text key) := hkey
      simp [firstNamed, hkey, hspells]
  | _ => simp [firstNamed, Spells]

theorem firstNamed_eq_null_of_unspelled {entries : List (Value × Value)}
    (h : Unspelled "parameters" entries) :
    firstNamed "parameters" entries = .null := by
  induction entries with
  | nil => rfl
  | cons entry entries ih =>
    obtain ⟨hentry, hentries⟩ := List.forall_mem_cons.mp h
    rw [firstNamed_cons]
    split
    case isTrue hspells => exact hentry hspells
    case isFalse => exact ih hentries

namespace Field

variable {field : Field} {entries : List (Value × Value)}

theorem find?_of_gives {name : String} {value : Value} (h : field.Gives entries name value) :
    field.find? entries = some (name, value) := by
  have hfirst := findSome?_entryNamed?_eq_some_iff.mpr h.firstSpelled
  unfold find?
  rcases h with ⟨hwire, -⟩ | ⟨hwire, rfl, -⟩
  · simp only [hwire, Option.bind_some, hfirst, Option.map_some, Option.some_or]
  · cases hname : field.wireName with
    | none => simp only [Option.bind_none, hfirst, Option.map_some, Option.none_or]
    | some wire =>
      have hnone := findSome?_entryNamed?_eq_none_iff.mpr (hwire wire hname)
      simp only [Option.bind_some, hnone, hfirst, Option.map_none, Option.map_some, Option.none_or]

theorem find?_of_isMissing (h : field.IsMissing entries) : field.find? entries = none := by
  have hnone := findSome?_entryNamed?_eq_none_iff.mpr h.2
  unfold find?
  cases hname : field.wireName with
  | none => simp only [Option.bind_none, hnone, Option.map_none, Option.none_or]
  | some wire =>
    have hwire := findSome?_entryNamed?_eq_none_iff.mpr (h.1 wire hname)
    simp only [Option.bind_some, hwire, hnone, Option.map_none, Option.none_or]

theorem find?_eq_some_iff {name : String} {value : Value} :
    field.find? entries = some (name, value) ↔ field.Gives entries name value := by
  constructor
  · intro hfound
    rcases field.exists_gives_or_isMissing entries with ⟨own, given, hgives⟩ | hmissing
    · obtain ⟨rfl, rfl⟩ := Prod.mk.inj (Option.some.inj ((find?_of_gives hgives).symm.trans hfound))
      exact hgives
    · rw [find?_of_isMissing hmissing] at hfound
      contradiction
  · exact find?_of_gives

theorem find?_eq_none_iff : field.find? entries = none ↔ field.IsMissing entries := by
  constructor
  · intro hnone
    rcases field.exists_gives_or_isMissing entries with ⟨own, given, hgives⟩ | hmissing
    · rw [find?_of_gives hgives] at hnone
      contradiction
    · exact hmissing
  · exact find?_of_isMissing

theorem Gives.unique {name other : String} {value value' : Value}
    (h : field.Gives entries name value) (hother : field.Gives entries other value') :
    name = other ∧ value = value' :=
  Prod.mk.inj (Option.some.inj ((find?_of_gives h).symm.trans (find?_of_gives hother)))

theorem Gives.not_isMissing {name : String} {value : Value} (h : field.Gives entries name value) :
    ¬ field.IsMissing entries := by
  intro hmissing
  have hnone := find?_of_isMissing hmissing
  rw [find?_of_gives h] at hnone
  contradiction

/-- The names of a field. -/
def names (field : Field) : List String :=
  field.wireName.toList ++ [field.name]

theorem find?_eq_of_findSome?_eq {others : List (Value × Value)}
    (h : ∀ name ∈ field.names,
      others.findSome? (entryNamed? name) = entries.findSome? (entryNamed? name)) :
    field.find? others = field.find? entries := by
  unfold find?
  dsimp only
  rw [h field.name (by simp [names])]
  cases hwire : field.wireName with
  | none => rfl
  | some wire => simp only [Option.bind_some, h wire (by simp [names, hwire])]

theorem Gives.mem_names {name : String} {value : Value} (h : field.Gives entries name value) :
    name ∈ field.names := by
  rcases h with ⟨hwire, -⟩ | ⟨-, rfl, -⟩
  · simp [names, hwire]
  · simp [names]

end Field

/-! ## Distinct names -/

/-- Whether the names of fields tell them apart in whatever letter case they are written. -/
def Distinct (fields : List (Field × Position)) : Prop :=
  ∀ first ∈ fields, ∀ second ∈ fields, ∀ name ∈ first.1.names, ∀ other ∈ second.1.names,
    Text.lower name = Text.lower other → first = second ∧ name = other

instance (fields : List (Field × Position)) : Decidable (Distinct fields) := by
  unfold Distinct
  infer_instance

theorem fields_distinct (part : Part) : Distinct (fields part) := by
  cases part <;> decide

/-! ## Kept entries -/

section

variable {R : Position → Value → Value → Prop} {fields : List (Field × Position)}
  {entries kept result : List (Value × Value)} {field : Field} {position : Position}

/-- Every kept entry is that of a field, under the name that the field was found by. -/
theorem exists_gives_of_mem_kept (h : Kept R fields entries kept) {entry : Value × Value}
    (hmem : entry ∈ kept) :
    ∃ field position name value, (field, position) ∈ fields ∧ entry.1 = .text (Text.ofString name) ∧
      field.Gives entries name value ∧ R position value entry.2 := by
  induction h with
  | nil => contradiction
  | given hgives hvalue _ ih =>
    rcases List.mem_cons.mp hmem with rfl | hmem
    · exact ⟨_, _, _, _, List.mem_cons_self .., rfl, hgives, hvalue⟩
    · obtain ⟨field, position, name, value, hfield, hentry⟩ := ih hmem
      exact ⟨field, position, name, value, List.mem_cons_of_mem _ hfield, hentry⟩
  | missing _ _ ih =>
    obtain ⟨field, position, name, value, hfield, hentry⟩ := ih hmem
    exact ⟨field, position, name, value, List.mem_cons_of_mem _ hfield, hentry⟩

/-- What a field gives is kept. -/
theorem exists_mem_kept_of_gives (h : Kept R fields entries kept)
    (hfield : (field, position) ∈ fields) {name : String} {value : Value}
    (hgives : field.Gives entries name value) :
    ∃ value', (Value.text (Text.ofString name), value') ∈ kept ∧ R position value value' := by
  induction h with
  | nil => contradiction
  | given hgives' hvalue _ ih =>
    rcases List.mem_cons.mp hfield with heq | hfield
    · obtain ⟨rfl, rfl⟩ := Prod.mk.inj heq
      obtain ⟨rfl, rfl⟩ := hgives'.unique hgives
      exact ⟨_, List.mem_cons_self .., hvalue⟩
    · obtain ⟨value', hmem, hrelated⟩ := ih hfield hgives
      exact ⟨value', List.mem_cons_of_mem _ hmem, hrelated⟩
  | missing hmissing _ ih =>
    rcases List.mem_cons.mp hfield with heq | hfield
    · obtain ⟨rfl, rfl⟩ := Prod.mk.inj heq
      exact absurd hmissing hgives.not_isMissing
    · exact ih hfield hgives

/-- An entry that is kept under a spelling of a name of a field is that of the field. -/
theorem gives_of_mem_result (h : Kept R fields entries kept) (hperm : result.Perm kept)
    (hdistinct : Distinct fields) (hfield : (field, position) ∈ fields) {entry : Value × Value}
    (hmem : entry ∈ result) {name : String} (hname : name ∈ field.names)
    (hspells : Spells name entry.1) :
    ∃ value, field.Gives entries name value ∧ R position value entry.2 := by
  obtain ⟨other, position', name', value, hother, hkey, hgives, hrelated⟩ :=
    exists_gives_of_mem_kept h (hperm.mem_iff.mp hmem)
  -- Names that differ only in letter case are those of one field, and the same.
  rw [hkey] at hspells
  obtain ⟨heq, rfl⟩ := hdistinct _ hother _ hfield name' hgives.mem_names name hname hspells
  obtain ⟨rfl, rfl⟩ := Prod.mk.inj heq
  exact ⟨value, hgives, hrelated⟩

/-- What is not given among all entries is not given among the kept ones. -/
theorem unspelled_result (h : Kept R fields entries kept) (hperm : result.Perm kept)
    (hdistinct : Distinct fields) (hfield : (field, position) ∈ fields) {name : String}
    (hname : name ∈ field.names) (hunspelled : Unspelled name entries) :
    Unspelled name result := by
  intro entry hmem hspells
  obtain ⟨value, hgives, -⟩ := gives_of_mem_result h hperm hdistinct hfield hmem hname hspells
  exact absurd hunspelled hgives.firstSpelled.not_unspelled

theorem isMissing_of_kept (h : Kept R fields entries kept) (hperm : result.Perm kept)
    (hdistinct : Distinct fields) (hfield : (field, position) ∈ fields)
    (hmissing : field.IsMissing entries) : field.IsMissing result := by
  constructor
  · intro wire hwire
    exact unspelled_result h hperm hdistinct hfield (by simp [Field.names, hwire])
      (hmissing.1 wire hwire)
  · exact unspelled_result h hperm hdistinct hfield (by simp [Field.names]) hmissing.2

/-- What is given among all entries is given among the kept ones by the same name. -/
theorem gives_of_kept (hnull : ∀ position value value', R position value value' →
      value ≠ .null → value' ≠ .null)
    (h : Kept R fields entries kept) (hperm : result.Perm kept) (hdistinct : Distinct fields)
    (hfield : (field, position) ∈ fields) {name : String} {value : Value}
    (hgives : field.Gives entries name value) :
    ∃ value', field.Gives result name value' ∧ R position value value' := by
  have hname := hgives.mem_names
  -- Some kept entry gives the field, so some entry of the result is the first to do so.
  obtain ⟨value', hfirst⟩ : ∃ value', FirstSpelled name result value' := by
    rcases exists_firstSpelled_or_unspelled name result with hfirst | hunspelled
    · exact hfirst
    · obtain ⟨given, hmem, hrelated⟩ := exists_mem_kept_of_gives h hfield hgives
      obtain ⟨-, -, -, hvalue⟩ := hgives.firstSpelled.exists_mem
      exact absurd (hunspelled _ (hperm.mem_iff.mpr hmem) rfl) (hnull _ _ _ hrelated hvalue)
  obtain ⟨key, hmem, hspells, -⟩ := hfirst.exists_mem
  obtain ⟨own, hown, hrelated⟩ :=
    gives_of_mem_result h hperm hdistinct hfield hmem hname hspells
  obtain ⟨-, rfl⟩ := hown.unique hgives
  refine ⟨value', ?_, hrelated⟩
  rcases hgives with ⟨hwire, -⟩ | ⟨hwire, hsame, -⟩
  · exact .inl ⟨hwire, hfirst⟩
  · refine .inr ⟨fun wire hwireName => ?_, hsame, hfirst⟩
    exact unspelled_result h hperm hdistinct hfield (by simp [Field.names, hwireName])
      (hwire wire hwireName)

end

/-! ## Reading fields -/

/-- Whether entries are what a canonical form keeps of a part. -/
def KeptOf (part : Part) (entries result : List (Value × Value)) : Prop :=
  ∃ kept, Kept Canonical (fields part) entries kept ∧ result.Perm kept

/-- Whether a reader does not tell a value from its canonical forms. -/
def Respects {α : Type} (position : Position) (reader : Value → Checked α) : Prop :=
  ∀ value value', Canonical position value value' → reader value' = reader value

theorem respects_data {α : Type} (reader : Value → Checked α) : Respects .data reader := by
  intro value value' h
  rw [h.eq_of_data]

/-- A field is read alike in the entries that a canonical form keeps. -/
theorem KeptOf.read {α : Type} {part : Part} {entries result : List (Value × Value)}
    (h : KeptOf part entries result) {field : Field} {position : Position}
    (hfield : (field, position) ∈ fields part) {reader : Value → Checked α}
    (hreader : Respects position reader) (absent : α) :
    field.read result absent reader = field.read entries absent reader := by
  obtain ⟨kept, hkept, hperm⟩ := h
  have hdistinct := fields_distinct part
  unfold Field.read
  rcases field.exists_gives_or_isMissing entries with ⟨name, value, hgives⟩ | hmissing
  · obtain ⟨value', hgives', hrelated⟩ :=
      gives_of_kept (fun _ _ _ hcanonical => hcanonical.ne_null) hkept hperm hdistinct hfield hgives
    simp only [Field.find?_of_gives hgives, Field.find?_of_gives hgives',
      hreader value value' hrelated]
  · have hmissing' := isMissing_of_kept hkept hperm hdistinct hfield hmissing
    simp only [Field.find?_of_isMissing hmissing, Field.find?_of_isMissing hmissing']

theorem KeptOf.read? {α : Type} {part : Part} {entries result : List (Value × Value)}
    (h : KeptOf part entries result) {field : Field} {position : Position}
    (hfield : (field, position) ∈ fields part) {reader : Value → Checked α}
    (hreader : Respects position reader) :
    field.read? result reader = field.read? entries reader := by
  unfold Field.read?
  apply h.read hfield
  intro value value' hcanonical
  exact congrArg (Checked.map some) (hreader value value' hcanonical)

end OpenApiClient.Binding
