import OpenApiClient.Proofs.TypeExpression.Reading

/-!
# The Type That a Schema Means

What type a schema stands for, as rules over schemas, and whether the text for the schema is read as
that type. Reading the text goes wrong in two ways: the element of a list can be a union, which would
have to stand in parentheses, and a reference can name a type by a word that is a type operator.

## Layers

- **Meaning**: `Means`, one rule for each kind of schema; it is what `schemaType` computes.
- **Consulted schemas**: `Consults`, the chain from a list to its elements.
- **Shape and names**: what the type of a schema is like, by induction on its meaning.
- **Main statement**: `denotes_schemaTypeText_iff`, refuted without its condition for a list of
  nullable texts.
-/

namespace OpenApiClient.Client

open OpenApiClient.TypeScript (Alphabet)

/-! ## Meaning -/

/-- The types of the members of a union of type names. -/
def memberTypes (names : List Text) (nullable : Bool) : List TypeExpr :=
  names.map primitiveType ++ if nullable then [.null] else []

/-- The type that a schema means. -/
inductive Means : Schema → TypeExpr → Prop
  | reference {schema : Schema} {reference : Text} :
      schema.target? = some reference → Means schema (.name (referenceName reference))
  | list {schema items : Schema} {element : TypeExpr} :
      schema.target? = none → schema.type = some (.single arrayName) → schema.items = some items →
        Means items element → Means schema (.array element)
  | single {schema : Schema} {name : Text} :
      schema.target? = none → schema.type = some (.single name) →
        (name = arrayName → schema.items = none) → Means schema (primitiveType name)
  | union {schema : Schema} {names : List Text} {nullable : Bool} :
      schema.target? = none → schema.type = some (.union names nullable) → names ≠ [] →
        Means schema (.unionOf (memberTypes names nullable))
  | nothing {schema : Schema} :
      schema.target? = none →
        (schema.type = none ∨ ∃ nullable, schema.type = some (.union [] nullable)) →
        Means schema .unknown

theorem sizeOf_items_lt {schema items : Schema} (h : schema.items = some items) :
    sizeOf items < sizeOf schema := by
  cases schema
  simp only at h
  subst h
  simp only [Schema.mk.sizeOf_spec, Option.some.sizeOf_spec]
  omega

/-- Every schema means the type that is computed for it. -/
theorem means_schemaType (schema : Schema) : Means schema (schemaType schema) := by
  -- The elements of a list are a smaller schema.
  induction hsize : sizeOf schema using Nat.strongRecOn generalizing schema with
  | _ size ih =>
    cases htarget : schema.target? with
    | some reference =>
      unfold schemaType
      rw [htarget]
      exact .reference htarget
    | none =>
      rcases schema with ⟨dollarRef, ref, type, format, items, properties, required⟩
      cases type with
      | none =>
        unfold schemaType
        rw [htarget]
        exact .nothing htarget (.inl rfl)
      | some type =>
        cases type with
        | single name =>
          cases items with
          | none =>
            unfold schemaType
            rw [htarget]
            exact .single htarget rfl fun _ => rfl
          | some items =>
            have hmeans := ih (sizeOf items) (hsize ▸ sizeOf_items_lt rfl) items rfl
            unfold schemaType
            rw [htarget]
            dsimp only
            split
            case isTrue hname => exact .list htarget (by rw [eq_of_beq hname]) rfl hmeans
            case isFalse hname => exact .single htarget rfl fun h => absurd (beq_iff_eq.mpr h) hname
        | union names nullable =>
          unfold schemaType
          rw [htarget]
          dsimp only [unionType]
          split
          case isTrue hnames =>
            obtain rfl := List.isEmpty_iff.mp hnames
            exact .nothing htarget (.inr ⟨nullable, rfl⟩)
          case isFalse hnames =>
            exact .union htarget rfl (mt List.isEmpty_iff.mpr hnames)

/-- A schema means one type at most: of its rules one fits. -/
theorem Means.unique {schema : Schema} {type other : TypeExpr} (h : Means schema type)
    (hother : Means schema other) : type = other := by
  induction h generalizing other with
  | reference htarget => cases hother <;> simp_all
  | list htarget htype hitems _ ih =>
    cases hother with
    | list _ _ hitems' hmeans' =>
      obtain rfl := Option.some.inj (hitems.symm.trans hitems')
      rw [ih hmeans']
    | _ => simp_all
  | single htarget htype hitems => cases hother <;> simp_all
  | union htarget htype hnames => cases hother <;> simp_all
  | nothing htarget htype => cases hother <;> simp_all

theorem means_iff {schema : Schema} {type : TypeExpr} :
    Means schema type ↔ type = schemaType schema := by
  constructor
  · exact fun h => h.unique (means_schemaType schema)
  · rintro rfl
    exact means_schemaType schema

/-! ## Consulted schemas -/

/-- The schema of the elements of a list. -/
def elementOf? (schema : Schema) : Option Schema :=
  if schema.target? = none ∧ schema.type = some (.single arrayName) then schema.items else none

/-- The schemas that decide the type of a schema. -/
inductive Consults : Schema → Schema → Prop
  | itself (schema : Schema) : Consults schema schema
  | element {schema element consulted : Schema} :
      elementOf? schema = some element → Consults element consulted → Consults schema consulted

/-- Whether a schema is a choice between two or more types. -/
def IsChoice (schema : Schema) : Prop :=
  schema.target? = none ∧ ∃ names nullable, schema.type = some (.union names nullable) ∧
    names ≠ [] ∧ 2 ≤ (memberTypes names nullable).length

theorem consults_iff_of_elementOf?_eq_none {schema consulted : Schema}
    (h : elementOf? schema = none) : Consults schema consulted ↔ consulted = schema := by
  constructor
  · intro hconsults
    cases hconsults with
    | itself => rfl
    | element helement => simp [h] at helement
  · rintro rfl
    exact .itself consulted

theorem consults_iff_of_elementOf? {schema element consulted : Schema}
    (h : elementOf? schema = some element) :
    Consults schema consulted ↔ consulted = schema ∨ Consults element consulted := by
  constructor
  · intro hconsults
    cases hconsults with
    | itself => exact .inl rfl
    | element helement hconsults =>
      obtain rfl := Option.some.inj (h.symm.trans helement)
      exact .inr hconsults
  · rintro (rfl | hconsults)
    · exact .itself consulted
    · exact .element h hconsults

/-! ## Types of type names -/

/-- What the types of type names are like: operands of unions, with names of types. -/
def IsPlainOperand (type : TypeExpr) : Prop :=
  type.IsOperand ∧ ∀ name ∈ type.names, Alphabet.plain.isTypeName name

theorem isPlainOperand_primitiveType (name : Text) : IsPlainOperand (primitiveType name) := by
  have hunknown : IsPlainOperand .unknown := ⟨⟨id, trivial⟩, by decide⟩
  have htable : ∀ entry ∈ primitiveTypes, IsPlainOperand entry.2 := by
    simp only [primitiveTypes, List.forall_mem_cons]
    refine ⟨⟨⟨id, trivial⟩, by decide⟩, ⟨⟨id, trivial⟩, by decide⟩, ⟨⟨id, trivial⟩, by decide⟩,
      ⟨⟨id, trivial⟩, by decide⟩, ⟨⟨id, trivial, trivial⟩, by decide⟩,
      ⟨⟨id, id, trivial⟩, by decide⟩, by simp⟩
  rw [primitiveType]
  cases hlookup : primitiveTypes.lookup name with
  | none => exact hunknown
  | some type =>
    obtain ⟨before, after, hsplit, -⟩ := List.lookup_eq_some_iff.mp hlookup
    exact htable (name, type) (by simp [hsplit])

theorem isPlainOperand_memberTypes (names : List Text) (nullable : Bool) :
    ∀ type ∈ memberTypes names nullable, IsPlainOperand type := by
  intro type htype
  rcases List.mem_append.mp htype with hname | hnull
  · obtain ⟨name, -, rfl⟩ := List.mem_map.mp hname
    exact isPlainOperand_primitiveType name
  · cases nullable with
    | false => contradiction
    | true =>
      obtain rfl := List.mem_singleton.mp hnull
      exact ⟨⟨id, trivial⟩, by decide⟩

/-- The union of operands is grouped, and a union if there are two or more of them. -/
theorem unionOf_spec {members : List TypeExpr} (h : ∀ type ∈ members, IsPlainOperand type) :
    (TypeExpr.unionOf members).IsGrouped ∧
      ((TypeExpr.unionOf members).IsUnion ↔ 2 ≤ members.length) ∧
      ∀ name ∈ (TypeExpr.unionOf members).names, Alphabet.plain.isTypeName name := by
  induction members with
  | nil => exact ⟨trivial, by simp [TypeExpr.unionOf, TypeExpr.unknown, TypeExpr.IsUnion], by decide⟩
  | cons member members ih =>
    rw [List.forall_mem_cons] at h
    cases members with
    | nil =>
      refine ⟨h.1.1.2, ?_, h.1.2⟩
      have hunion : ¬ (TypeExpr.unionOf [member]).IsUnion := h.1.1.1
      simp [hunion]
    | cons second members =>
      obtain ⟨hgrouped, -, hnames⟩ := ih h.2
      refine ⟨⟨h.1.1, hgrouped⟩, by simp [TypeExpr.unionOf, TypeExpr.IsUnion], ?_⟩
      simp only [TypeExpr.unionOf, TypeExpr.names, List.forall_mem_append]
      exact ⟨h.1.2, hnames⟩

/-! ## The shape of the type of a schema -/

/-- The type of a schema is a union exactly for a choice. -/
theorem Means.isUnion_iff {schema : Schema} {type : TypeExpr} (h : Means schema type) :
    type.IsUnion ↔ IsChoice schema := by
  unfold IsChoice
  cases h with
  | reference htarget => simp [TypeExpr.IsUnion, htarget]
  | list htarget htype hitems hmeans => simp [TypeExpr.IsUnion, htype]
  | @single _ name htarget htype hitems =>
    have hoperand : ¬ (primitiveType name).IsUnion := (isPlainOperand_primitiveType name).1.1
    simp [hoperand, htype]
  | @union _ names nullable htarget htype hnames =>
    rw [(unionOf_spec (isPlainOperand_memberTypes names nullable)).2.1]
    constructor
    · exact fun hlength => ⟨htarget, names, nullable, htype, hnames, hlength⟩
    · rintro ⟨-, names', nullable', htype', -, hlength⟩
      obtain ⟨rfl, rfl⟩ := SchemaType.union.inj (Option.some.inj (htype.symm.trans htype'))
      exact hlength
  | nothing htarget htype =>
    rcases htype with htype | ⟨nullable, htype⟩ <;>
      simp +contextual [TypeExpr.IsUnion, TypeExpr.unknown, htype]

/-- What the type of a schema without elements is like: grouped, and apart from plain names it has
the name that a reference points to. -/
structure IsLeaf (schema : Schema) (type : TypeExpr) : Prop where
  elementOf?_eq_none : elementOf? schema = none
  isGrouped : type.IsGrouped
  names : ∀ name ∈ type.names, Alphabet.plain.isTypeName name ∨
    ∃ reference, schema.target? = some reference ∧ referenceName reference = name
  target : ∀ reference, schema.target? = some reference → referenceName reference ∈ type.names

theorem isLeaf_of_plain {schema : Schema} {type : TypeExpr} (htarget : schema.target? = none)
    (hnone : elementOf? schema = none) (hgrouped : type.IsGrouped)
    (hnames : ∀ name ∈ type.names, Alphabet.plain.isTypeName name) : IsLeaf schema type where
  elementOf?_eq_none := hnone
  isGrouped := hgrouped
  names name hname := .inl (hnames name hname)
  target reference hreference := by simp [htarget] at hreference

/-- Induction along the elements of a list. -/
@[elab_as_elim]
theorem Means.elementInduction
    {motive : (schema : Schema) → (type : TypeExpr) → Means schema type → Prop}
    (leaf : ∀ schema type (h : Means schema type), IsLeaf schema type → motive schema type h)
    (list : ∀ schema items element (h : Means schema (.array element)) (hitems : Means items element),
      schema.target? = none → elementOf? schema = some items → motive items element hitems →
        motive schema (.array element) h)
    {schema : Schema} {type : TypeExpr} (h : Means schema type) : motive schema type h := by
  induction h with
  | @reference schema reference htarget =>
    refine leaf _ _ _ ⟨by simp [elementOf?, htarget], trivial, fun name hname => .inr ?_, ?_⟩
    · exact ⟨reference, htarget, (List.mem_singleton.mp hname).symm⟩
    · intro reference' hreference
      obtain rfl := Option.some.inj (htarget.symm.trans hreference)
      exact List.mem_singleton.mpr rfl
  | @list schema items element htarget htype hitems hmeans ih =>
    exact list _ _ _ _ hmeans htarget (by simp [elementOf?, htarget, htype, hitems]) ih
  | @single schema name htarget htype hitems =>
    obtain ⟨hoperand, hnames⟩ := isPlainOperand_primitiveType name
    refine leaf _ _ _ (isLeaf_of_plain htarget ?_ hoperand.2 hnames)
    by_cases hname : name = arrayName
    · simp [elementOf?, hitems hname]
    · simp [elementOf?, htype, hname]
  | @union schema names nullable htarget htype hnames =>
    obtain ⟨hgrouped, -, hplain⟩ := 
      unionOf_spec (isPlainOperand_memberTypes names nullable)
    exact leaf _ _ _ (isLeaf_of_plain htarget (by simp [elementOf?, htype]) hgrouped hplain)
  | nothing htarget htype =>
    refine leaf _ _ _ (isLeaf_of_plain htarget ?_ trivial (by decide))
    rcases htype with htype | ⟨nullable, htype⟩ <;> simp [elementOf?, htype]

/-- The type of a schema is grouped exactly when no consulted list has a choice for its elements. -/
theorem Means.isGrouped_iff {schema : Schema} {type : TypeExpr} (h : Means schema type) :
    type.IsGrouped ↔ ∀ consulted element, Consults schema consulted →
      elementOf? consulted = some element → ¬ IsChoice element := by
  induction h using Means.elementInduction with
  | leaf schema type h hleaf =>
    simp only [hleaf.isGrouped, true_iff]
    intro consulted element hconsults helement
    obtain rfl := (consults_iff_of_elementOf?_eq_none hleaf.elementOf?_eq_none).mp hconsults
    simp [hleaf.elementOf?_eq_none] at helement
  | list schema items element h hitems htarget helement ih =>
    -- The list itself consults its elements first; what they consult is left to the induction.
    have hunion := hitems.isUnion_iff
    constructor
    · rintro ⟨hnot, hgrouped⟩ consulted element' hconsults helement'
      rcases (consults_iff_of_elementOf? helement).mp hconsults with rfl | hconsults
      · obtain rfl := Option.some.inj (helement.symm.trans helement')
        exact mt hunion.mpr hnot
      · exact ih.mp hgrouped consulted element' hconsults helement'
    · intro hall
      exact ⟨mt hunion.mp (hall schema items (.itself schema) helement),
        ih.mpr fun consulted element' hconsults =>
          hall consulted element' (.element helement hconsults)⟩

/-- The names in the type of a schema are those of consulted references, and plain ones. -/
theorem Means.names_spec {schema : Schema} {type : TypeExpr} (h : Means schema type) :
    (∀ name ∈ type.names, Alphabet.plain.isTypeName name ∨
      ∃ consulted reference, Consults schema consulted ∧ consulted.target? = some reference ∧
        referenceName reference = name) ∧
      ∀ consulted reference, Consults schema consulted → consulted.target? = some reference →
        referenceName reference ∈ type.names := by
  induction h using Means.elementInduction with
  | leaf schema type h hleaf =>
    constructor
    · intro name hname
      rcases hleaf.names name hname with hplain | ⟨reference, hreference⟩
      · exact .inl hplain
      · exact .inr ⟨schema, reference, .itself schema, hreference⟩
    · intro consulted reference hconsults hreference
      obtain rfl := (consults_iff_of_elementOf?_eq_none hleaf.elementOf?_eq_none).mp hconsults
      exact hleaf.target reference hreference
  | list schema items element h hitems htarget helement ih =>
    constructor
    · intro name hname
      rcases ih.1 name hname with hplain | ⟨consulted, reference, hconsults, hreference⟩
      · exact .inl hplain
      · exact .inr ⟨consulted, reference, .element helement hconsults, hreference⟩
    · intro consulted reference hconsults hreference
      rcases (consults_iff_of_elementOf? helement).mp hconsults with rfl | hconsults
      · simp [htarget] at hreference
      · exact ih.2 consulted reference hconsults hreference

/-! ## Reading the text for a schema -/

section

variable {alphabet : Alphabet} {schema : Schema} {type : TypeExpr}

/-- When references name types by identifiers, all names in the type of a schema are words. -/
theorem Means.isWord_of_mem_names (h : Means schema type)
    (hidentifiers : ∀ consulted reference, Consults schema consulted →
      consulted.target? = some reference → alphabet.isIdentifier (referenceName reference)) :
    ∀ name ∈ type.names, alphabet.isWord name := by
  intro name hname
  rcases h.names_spec.1 name hname with hplain | ⟨consulted, reference, hconsults, hreference, rfl⟩
  · exact Alphabet.isWord_of_isTypeName (alphabet.isTypeName_of_plain hplain)
  · exact Alphabet.isWord_of_isIdentifier (hidentifiers consulted reference hconsults hreference)

/-- Then they are the names of types unless a reference names one by a type operator. -/
theorem Means.isTypeName_names_iff (h : Means schema type)
    (hidentifiers : ∀ consulted reference, Consults schema consulted →
      consulted.target? = some reference → alphabet.isIdentifier (referenceName reference)) :
    (∀ name ∈ type.names, alphabet.isTypeName name) ↔
      ∀ consulted reference, Consults schema consulted → consulted.target? = some reference →
        referenceName reference ∉ Alphabet.typeOperators := by
  obtain ⟨hnames, hmem⟩ := h.names_spec
  constructor
  · intro hall consulted reference hconsults hreference
    rw [← Alphabet.isTypeName_iff_of_isIdentifier
      (hidentifiers consulted reference hconsults hreference)]
    exact hall _ (hmem consulted reference hconsults hreference)
  · intro hall name hname
    rcases hnames name hname with hplain | ⟨consulted, reference, hconsults, hreference, rfl⟩
    · exact alphabet.isTypeName_of_plain hplain
    · rw [Alphabet.isTypeName_iff_of_isIdentifier
        (hidentifiers consulted reference hconsults hreference)]
      exact hall consulted reference hconsults hreference

end

/-- **The text for a schema.** When the consulted references name types by identifiers, the text for
a schema is read as the type that the schema means, and as no other, exactly when no consulted list
has a choice for its elements and no consulted reference names a type by a type operator. -/
theorem denotes_schemaTypeText_iff (alphabet : Alphabet) (schema : Schema)
    (hidentifiers : ∀ consulted reference, Consults schema consulted →
      consulted.target? = some reference → alphabet.isIdentifier (referenceName reference)) :
    (∀ type, Denotes alphabet (schemaTypeText schema) type ↔ Means schema type) ↔
      (∀ consulted element, Consults schema consulted → elementOf? consulted = some element →
        ¬ IsChoice element) ∧
      ∀ consulted reference, Consults schema consulted → consulted.target? = some reference →
        referenceName reference ∉ Alphabet.typeOperators := by
  have hmeans := means_schemaType schema
  simp only [means_iff]
  rw [schemaTypeText, denotes_text_iff (hmeans.isWord_of_mem_names hidentifiers),
    hmeans.isGrouped_iff, hmeans.isTypeName_names_iff hidentifiers]

/-- Lists of lists of a referenced type. -/
theorem denotes_schemaTypeText_iff_pets :
    let pet : Schema := { dollarRef := some "#/components/schemas/Pet" }
    let pets : Schema := { type := some (.single "array"), items := some pet }
    let schema : Schema := { type := some (.single "array"), items := some pets }
    (∀ consulted reference, Consults schema consulted → consulted.target? = some reference →
        Alphabet.plain.isIdentifier (referenceName reference)) ∧
      (∀ type, Denotes .plain (schemaTypeText schema) type ↔ Means schema type) ∧
      schemaTypeText schema = "Pet[][]" := by
  intro pet pets schema
  have hconsults : ∀ consulted, Consults schema consulted →
      consulted = schema ∨ consulted = pets ∨ consulted = pet := by
    intro consulted hconsulted
    rwa [consults_iff_of_elementOf? (show elementOf? schema = some pets from rfl),
      consults_iff_of_elementOf? (show elementOf? pets = some pet from rfl),
      consults_iff_of_elementOf?_eq_none (show elementOf? pet = none from rfl)] at hconsulted
  have hreferences : ∀ consulted reference, Consults schema consulted →
      consulted.target? = some reference → referenceName reference = "Pet" := by
    intro consulted reference hconsulted hreference
    rcases hconsults consulted hconsulted with rfl | rfl | rfl
    · contradiction
    · contradiction
    · obtain rfl := Option.some.inj hreference
      decide
  have hidentifiers : ∀ consulted reference, Consults schema consulted →
      consulted.target? = some reference →
        Alphabet.plain.isIdentifier (referenceName reference) := by
    intro consulted reference hconsulted hreference
    rw [hreferences consulted reference hconsulted hreference]
    decide
  refine ⟨hidentifiers,
    (denotes_schemaTypeText_iff .plain schema hidentifiers).mpr ⟨?_, ?_⟩, by decide⟩
  · intro consulted element hconsulted helement
    rcases hconsults consulted hconsulted with rfl | rfl | rfl
    · obtain rfl := Option.some.inj (show some pets = some element from helement)
      rintro ⟨-, names, nullable, htype, -⟩
      exact nomatch htype
    · obtain rfl := Option.some.inj (show some pet = some element from helement)
      rintro ⟨htarget, -⟩
      contradiction
    · contradiction
  · intro consulted reference hconsulted hreference
    rw [hreferences consulted reference hconsulted hreference]
    decide

/-- The text for a list of nullable texts is read as a text or a list of nulls. -/
theorem not_denotes_nullable_elements :
    let schema : Schema :=
      { type := some (.single "array"), items := some { type := some (.union ["string"] true) } }
    (∀ consulted reference, Consults schema consulted → consulted.target? ≠ some reference) ∧
      schemaTypeText schema = "string | null[]" ∧
      Denotes .plain (schemaTypeText schema) (.union (.name "string") (.array .null)) ∧
      Means schema (.array (.union (.name "string") .null)) ∧
      ¬ Denotes .plain (schemaTypeText schema) (.array (.union (.name "string") .null)) := by
  intro schema
  have hdenotes : Denotes .plain (schemaTypeText schema) (.union (.name "string") (.array .null)) :=
    denotes_text_regroup (by decide)
  refine ⟨?_, by decide, hdenotes, means_schemaType schema, ?_⟩
  · intro consulted reference hconsults
    rw [consults_iff_of_elementOf? rfl, consults_iff_of_elementOf?_eq_none rfl] at hconsults
    rcases hconsults with rfl | rfl <;> simp [schema, Schema.target?, Schema.reference]
  · intro hother
    exact absurd (hdenotes.unique hother) (by decide)

end OpenApiClient.Client
