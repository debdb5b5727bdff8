import OpenApiClient.Proofs.TypeExpression.OfSchema

/-!
# Nested Lists

The text for a list of lists is the text for the innermost elements, with one pair of brackets for each
list around them. Nothing else of the lists shows, and of the innermost elements only their reference and
their type do.

## Layers

- **Descending**: `Descends`, from a list to its elements some levels down.
- **Full descents**: `DescendsFully`, the longest one; every schema has exactly one, and it ends where
  there are no elements to go on to.
- **Types**: what a level adds to the text, and what decides where there are no levels.
- **Main statement**: `schemaTypeText_nesting`.
-/

namespace OpenApiClient.Client

/-! ## Descending -/

theorem elementOf?_eq_some_iff {schema element : Schema} :
    elementOf? schema = some element ↔ schema.target? = none ∧
      schema.type = some (.single arrayName) ∧ schema.items = some element := by
  unfold elementOf?
  split
  case isTrue hlist => simp [hlist]
  case isFalse hlist =>
    simp only [reduceCtorEq, false_iff]
    rintro ⟨htarget, htype, -⟩
    exact hlist ⟨htarget, htype⟩

/-- Whether some levels of lists lead from one schema down to another. A level leads from a schema for
which no reference stands, and which has the type of a list and a schema for its items, to that schema. -/
inductive Descends : (levels : Nat) → Schema → Schema → Prop
  | here (schema : Schema) : Descends 0 schema schema
  | down {levels : Nat} {schema element inner : Schema} :
      schema.target? = none → schema.type = some (.single arrayName) →
        schema.items = some element → Descends levels element inner →
          Descends (levels + 1) schema inner

/-- Whether a descent is the longest one. -/
structure DescendsFully (levels : Nat) (schema core : Schema) : Prop where
  descends : Descends levels schema core
  longest : ∀ others inner, Descends others schema inner → others ≤ levels

/-! ## Full descents -/

theorem Descends.snoc {levels : Nat} {schema inner element : Schema} (h : Descends levels schema inner)
    (helement : elementOf? inner = some element) : Descends (levels + 1) schema element := by
  induction h with
  | here schema =>
    obtain ⟨htarget, htype, hitems⟩ := elementOf?_eq_some_iff.mp helement
    exact .down htarget htype hitems (.here element)
  | down htarget htype hitems _ ih => exact .down htarget htype hitems (ih helement)

/-- There is one way down only: no descent passes a schema without elements. -/
theorem Descends.le_of_elementOf?_eq_none {levels others : Nat} {schema core inner : Schema}
    (h : Descends levels schema core) (hcore : elementOf? core = none)
    (hother : Descends others schema inner) : others ≤ levels ∧ (others = levels → inner = core) := by
  induction h generalizing others with
  | here schema =>
    cases hother with
    | here => simp
    | down htarget htype hitems =>
      rw [elementOf?_eq_some_iff.mpr ⟨htarget, htype, hitems⟩] at hcore
      contradiction
  | down _ _ hitems _ ih =>
    cases hother with
    | here => simp
    | down _ _ hitems' hother =>
      obtain rfl := Option.some.inj (hitems.symm.trans hitems')
      simpa using ih hcore hother

/-- The longest descent is the one that ends without elements. -/
theorem descendsFully_iff {levels : Nat} {schema core : Schema} :
    DescendsFully levels schema core ↔ Descends levels schema core ∧ elementOf? core = none := by
  constructor
  · intro h
    refine ⟨h.descends, ?_⟩
    cases helement : elementOf? core with
    | none => rfl
    | some element =>
      -- One more level would make it longer.
      have hle := h.longest _ _ (h.descends.snoc helement)
      omega
  · rintro ⟨hdescends, hcore⟩
    exact ⟨hdescends, fun others inner hother =>
      (hdescends.le_of_elementOf?_eq_none hcore hother).1⟩

theorem DescendsFully.unique {levels others : Nat} {schema core inner : Schema}
    (h : DescendsFully levels schema core) (hother : DescendsFully others schema inner) :
    others = levels ∧ inner = core := by
  have hlevels : others = levels :=
    Nat.le_antisymm (h.longest _ _ hother.descends) (hother.longest _ _ h.descends)
  obtain ⟨hdescends, hcore⟩ := descendsFully_iff.mp h
  exact ⟨hlevels, (hdescends.le_of_elementOf?_eq_none hcore hother.descends).2 hlevels⟩

theorem exists_descendsFully (schema : Schema) : ∃ levels core, DescendsFully levels schema core := by
  simp only [descendsFully_iff]
  -- The elements of a list are a smaller schema.
  induction hsize : sizeOf schema using Nat.strongRecOn generalizing schema with
  | _ size ih =>
    cases helement : elementOf? schema with
    | none => exact ⟨0, schema, .here schema, helement⟩
    | some element =>
      obtain ⟨htarget, htype, hitems⟩ := elementOf?_eq_some_iff.mp helement
      have hlt : sizeOf element < size := hsize ▸ sizeOf_items_lt hitems
      obtain ⟨levels, core, hdescends, hcore⟩ := ih (sizeOf element) hlt element rfl
      exact ⟨levels + 1, core, .down htarget htype hitems hdescends, hcore⟩

/-! ## Types -/

/-- Some pairs of brackets, one after the other. -/
def brackets (count : Nat) : Text :=
  (List.replicate count ("[]" : Text)).flatten

/-- A level of lists writes its brackets behind what is written for its elements. -/
theorem schemaTypeText_of_descends {levels : Nat} {schema inner : Schema}
    (h : Descends levels schema inner) :
    schemaTypeText schema = schemaTypeText inner ++ brackets levels := by
  induction h with
  | here schema => simp [brackets]
  | @down levels schema element inner htarget htype hitems _ ih =>
    have hmeans : Means schema (.array (schemaType element)) :=
      .list htarget htype hitems (means_schemaType element)
    calc schemaTypeText schema
        = (TypeExpr.array (schemaType element)).text := by rw [schemaTypeText, means_iff.mp hmeans]
      _ = schemaTypeText element ++ "[]" := rfl
      _ = schemaTypeText inner ++ brackets levels ++ "[]" := by rw [ih]
      _ = schemaTypeText inner ++ brackets (levels + 1) := by
        simp [brackets, List.replicate_succ']

/-- Where there are no elements, the reference and the type decide. -/
theorem schemaType_eq_of_elementOf?_eq_none {core other : Schema} (hcore : elementOf? core = none)
    (hother : elementOf? other = none) (htarget : other.target? = core.target?)
    (htype : other.type = core.type) : schemaType other = schemaType core := by
  have hmeans := means_schemaType core
  symm
  apply means_iff.mp
  -- By the rule that gives the type of the one, the other means the same type.
  generalize schemaType core = type at hmeans ⊢
  cases hmeans with
  | reference hreference => exact .reference (htarget.trans hreference)
  | list hnone hlist hitems =>
    rw [elementOf?_eq_some_iff.mpr ⟨hnone, hlist, hitems⟩] at hcore
    contradiction
  | single hnone hsingle =>
    refine .single (htarget.trans hnone) (htype.trans hsingle) ?_
    rintro rfl
    -- The other schema has no items either, or it would have elements.
    cases hitems : other.items with
    | none => rfl
    | some element =>
      rw [elementOf?_eq_some_iff.mpr ⟨htarget.trans hnone, htype.trans hsingle, hitems⟩] at hother
      contradiction
  | union hnone hunion hnames => exact .union (htarget.trans hnone) (htype.trans hunion) hnames
  | nothing hnone hnothing => exact .nothing (htarget.trans hnone) (htype ▸ hnothing)

/-- **Nesting is exact.** Every schema has one longest descent through lists, and its text is that of the
schema at the end of the descent followed by one pair of brackets for each level. What is written for the
schema at the end is decided by its reference and its type: wherever another full descent ends in a schema
that agrees with it on these, the same text stands in front of the brackets. -/
theorem schemaTypeText_nesting (schema : Schema) :
    ∃ levels core, DescendsFully levels schema core ∧
      (∀ others inner, DescendsFully others schema inner → others = levels ∧ inner = core) ∧
      schemaTypeText schema = schemaTypeText core ++ brackets levels ∧
      ∀ others other inner, DescendsFully others other inner → inner.target? = core.target? →
        inner.type = core.type →
          schemaTypeText inner = schemaTypeText core ∧
            schemaTypeText other = schemaTypeText core ++ brackets others := by
  obtain ⟨levels, core, hfull⟩ := exists_descendsFully schema
  have hcore := (descendsFully_iff.mp hfull).2
  refine ⟨levels, core, hfull, fun others inner => hfull.unique,
    schemaTypeText_of_descends hfull.descends, ?_⟩
  intro others other inner hother htarget htype
  have hinner : schemaTypeText inner = schemaTypeText core := by
    rw [schemaTypeText, schemaTypeText,
      schemaType_eq_of_elementOf?_eq_none hcore (descendsFully_iff.mp hother).2 htarget htype]
  refine ⟨hinner, ?_⟩
  rw [schemaTypeText_of_descends hother.descends, hinner]

/-- Lists of lists of pets, and a list of schemas that refer to pets and have properties beside that. -/
theorem schemaTypeText_nesting_pets :
    let pet : Schema := { dollarRef := some "#/components/schemas/Pet" }
    let named : Schema := { pet with properties := [("name", {})] }
    let litter : Schema := { type := some (.single "array"), items := some pet }
    let litters : Schema := { type := some (.single "array"), items := some litter }
    let pack : Schema := { type := some (.single "array"), items := some named }
    DescendsFully 2 litters pet ∧ DescendsFully 1 pack named ∧
      named.target? = pet.target? ∧ named.type = pet.type ∧ schemaTypeText pet = "Pet" ∧
      schemaTypeText litters = schemaTypeText pet ++ brackets 2 ∧
      schemaTypeText pack = schemaTypeText pet ++ brackets 1 := by
  intro pet named litter litters pack
  have hlitters : DescendsFully 2 litters pet :=
    descendsFully_iff.mpr ⟨.down rfl rfl rfl (.down rfl rfl rfl (.here pet)), rfl⟩
  have hpack : DescendsFully 1 pack named :=
    descendsFully_iff.mpr ⟨.down rfl rfl rfl (.here named), rfl⟩
  obtain ⟨levels, core, -, hunique, htext, hdecided⟩ := schemaTypeText_nesting litters
  obtain ⟨rfl, rfl⟩ := hunique 2 pet hlitters
  exact ⟨hlitters, hpack, rfl, rfl, by decide, htext, (hdecided 1 pack named hpack rfl rfl).2⟩

/-- A reference ends the descent, also where a list with items is given beside it. -/
example :
    schemaTypeText
      { type := some (.single "array"),
        items := some
          { dollarRef := some "#/components/schemas/Pet", type := some (.single "array"), items := some {} } } =
      "Pet[]" := by
  decide

end OpenApiClient.Client
