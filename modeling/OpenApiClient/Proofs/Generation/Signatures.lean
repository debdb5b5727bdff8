import Mathlib.Data.List.Nodup
import OpenApiClient.Proofs.Binding.Inlining
import OpenApiClient.Proofs.Binding.Methods
import OpenApiClient.Proofs.Generation.Identifiers
import OpenApiClient.Proofs.SharedParameters

/-!
# Distinct Parameters

The parameters of an operation are told apart by name and location: a path may share a list of them,
and an operation overrides those of the same name and location. The signature of the method keeps the
names only, with their first character in lower case. So a method can declare a parameter twice although
the document does not: where one name is used in the path and in the query, and where two names differ in
the case of their first character.

## Layers

- **Names**: which names become the same one (`camelCase_eq_camelCase_iff`).
- **Signatures**: when their names tell parameters apart (`nodup_methodParameters_iff`).
- **Documents**: lists whose parameters are told apart, and what is read from them.
- **Main statement**: `methodParameters_nodup_iff`, refuted without its condition for a name that is used in
  the path and in the query.
-/

namespace OpenApiClient.Client

open OpenApiClient.Document
open OpenApiClient.Binding

/-! ## Names -/

/-- Whether two names differ in the case of their first character at most. Only the capital I with a dot
has two characters as its lower-case form. -/
inductive SameButInitial : Text → Text → Prop
  | nil : SameButInitial [] []
  | cons {first second : CodePoint} (rest : Text) :
      Text.lowerPoint first = Text.lowerPoint second →
        SameButInitial (first :: rest) (second :: rest)
  | dotted {letter : Char} (rest : Text) : letter = 'i' ∨ letter = 'I' →
      SameButInitial (.char '\u0130' :: rest) (.char letter :: .char '\u0307' :: rest)
  | undotted {letter : Char} (rest : Text) : letter = 'i' ∨ letter = 'I' →
      SameButInitial (.char letter :: .char '\u0307' :: rest) (.char '\u0130' :: rest)

theorem lowerPoint_dotted :
    Text.lowerPoint (.char '\u0130') = [.char 'i', .char '\u0307'] := by
  rw [Text.lowerPoint, Text.lowerChar_dotted rfl]
  rfl

theorem lowerPoint_cases (point : CodePoint) :
    point = .char '\u0130' ∨ ∃ image, Text.lowerPoint point = [image] := by
  cases point with
  | surrogate offset => exact .inr ⟨_, rfl⟩
  | char c =>
    by_cases hdotted : c.toNat = 0x130
    · have hc : c = '\u0130' := by
        rw [← Char.ofNat_toNat c, hdotted]
      exact .inl (by rw [hc])
    · obtain ⟨d, hd⟩ := Text.exists_lowerChar_eq_singleton hdotted
      exact .inr ⟨.char d, by rw [Text.lowerPoint, hd]; rfl⟩

/-- The letter `i` is the lower-case form of itself and of its capital without a dot. -/
theorem lowerPoint_eq_i_iff {point : CodePoint} :
    Text.lowerPoint point = [.char 'i'] ↔ ∃ letter, (letter = 'i' ∨ letter = 'I') ∧
      point = .char letter := by
  cases point with
  | surrogate offset => simp [Text.lowerPoint]
  | char c =>
    have hi : Text.lowerChar c = ['i'] ↔ c = 'i' ∨ c = 'I' :=
      lowerChar_eq_singleton_iff (by decide) (by decide) (by decide)
    have hmap : Text.lowerPoint (.char c) = [.char 'i'] ↔ Text.lowerChar c = ['i'] := by
      simp [Text.lowerPoint, Text.ofChars, List.map_eq_singleton_iff]
    rw [hmap, hi]
    simp

theorem camelCase_eq_camelCase_iff (name other : Text) :
    camelCase name = camelCase other ↔ SameButInitial name other := by
  constructor
  · intro h
    cases name with
    | nil =>
      cases other with
      | nil => exact .nil
      | cons second rest => exact absurd (List.append_eq_nil_iff.mp h.symm).1 (lowerPoint_ne_nil second)
    | cons first rest =>
      cases other with
      | nil => exact absurd (List.append_eq_nil_iff.mp h).1 (lowerPoint_ne_nil first)
      | cons second others =>
        simp only [camelCase] at h
        -- The lower-case forms have the same length, unless one of them is that of the dotted I.
        rcases lowerPoint_cases first with rfl | ⟨image, himage⟩ <;>
          rcases lowerPoint_cases second with rfl | ⟨image', himage'⟩
        · rw [List.append_cancel_left h]
          exact .cons others rfl
        · rw [lowerPoint_dotted, himage'] at h
          obtain ⟨rfl, rfl⟩ := List.cons.inj h
          obtain ⟨letter, hletter, rfl⟩ := lowerPoint_eq_i_iff.mp himage'
          exact .dotted rest hletter
        · rw [lowerPoint_dotted, himage] at h
          obtain ⟨rfl, rfl⟩ := List.cons.inj h
          obtain ⟨letter, hletter, rfl⟩ := lowerPoint_eq_i_iff.mp himage
          exact .undotted others hletter
        · rw [himage, himage'] at h
          obtain ⟨rfl, rfl⟩ := List.cons.inj h
          exact .cons rest (himage.trans himage'.symm)
  · intro h
    have hi : ∀ letter rest, letter = 'i' ∨ letter = 'I' →
        camelCase (.char letter :: .char '\u0307' :: rest) =
          camelCase (.char '\u0130' :: rest) := by
      intro letter rest hletter
      simp only [camelCase, lowerPoint_dotted, lowerPoint_eq_i_iff.mpr ⟨letter, hletter, rfl⟩]
      rfl
    cases h with
    | nil => rfl
    | cons rest hpoints => rw [camelCase, camelCase, hpoints]
    | dotted rest hletter => exact (hi _ rest hletter).symm
    | undotted rest hletter => exact hi _ rest hletter

/-! ## Signatures -/

/-- Whether the signature of an operation's method tells its parameters apart. -/
structure TellsParametersApart (operation : Operation) : Prop where
  /-- No name is used in the path and in the query. -/
  locations : ∀ parameter ∈ operation.parameters, ∀ other ∈ operation.parameters,
    inSignature parameter → inSignature other → parameter.name = other.name →
      parameter.location = other.location
  /-- No two names differ in the case of their first character only. -/
  initials : ∀ parameter ∈ operation.parameters, ∀ other ∈ operation.parameters,
    inSignature parameter → inSignature other → SameButInitial parameter.name other.name →
      parameter.name = other.name

/-- When name and location tell parameters apart, so do the names that the signature makes of them, if
none of them is made from two names or two locations. -/
theorem nodup_methodParameters_iff {operation : Operation}
    (h : (operation.parameters.map (·.key)).Nodup) :
    ((methodParameters operation).map (·.name)).Nodup ↔ TellsParametersApart operation := by
  have hsignature : ((operation.parameters.filter inSignature).map (·.key)).Nodup :=
    h.sublist (List.filter_sublist.map _)
  have hnames : (methodParameters operation).map (·.name) =
      (operation.parameters.filter inSignature).map fun parameter => camelCase parameter.name := by
    rw [methodParameters, List.map_map]
    rfl
  rw [hnames, List.nodup_map_iff_inj_on hsignature.of_map]
  simp only [List.mem_filter, and_imp]
  constructor
  · intro hinjective
    constructor
    · intro parameter hmem other hmem' hin hin' hname
      rw [hinjective parameter hmem hin other hmem' hin' (by rw [hname])]
    · intro parameter hmem other hmem' hin hin' hname
      rw [hinjective parameter hmem hin other hmem' hin'
        ((camelCase_eq_camelCase_iff _ _).mpr hname)]
  · intro hapart parameter hmem hin other hmem' hin' hcamel
    have hname := hapart.initials parameter hmem other hmem' hin hin'
      ((camelCase_eq_camelCase_iff _ _).mp hcamel)
    have hlocation := hapart.locations parameter hmem other hmem' hin hin' hname
    exact List.inj_on_of_nodup_map h hmem hmem' (Prod.ext hname hlocation)

/-! ## Documents -/

/-- The paths that a document lists, each with its item. -/
def listedPaths (document : Document) : List (Value × Value) :=
  match Field.find? ⟨"paths", none⟩ (rawEntries document.knots document.root) with
  | some (_, value) => rawEntries document.knots value
  | none => []

/-- Whether the item of a path declares no parameter twice: neither does the list that its operations
share, nor does the own list of any operation. -/
structure DeclaresDistinctly (knots : Knots) (item : Value) : Prop where
  shared : ((rawElements knots (firstNamed "parameters" (rawEntries knots item))).map
    (boundKey? knots)).Nodup
  own : ∀ entry ∈ rawEntries knots item, (methodKey? entry.1).isSome →
    ((ownParameters knots (rawEntries knots entry.2)).map (boundKey? knots)).Nodup

theorem nodup_keys_of_nodup_boundKey? {knots : Knots} {raws : List Value} {parameters : List Parameter}
    (hread : raws.map (parameter knots) = parameters.map .valid)
    (h : (raws.map (boundKey? knots)).Nodup) : (parameters.map (·.key)).Nodup := by
  rw [map_boundKey?_eq hread, ← Function.comp_def some, ← List.map_map] at h
  exact h.of_map

/-- The operations of a path have the parameters that its item lists, shared and own ones. -/
theorem exists_lists_of_pathItem? {knots : Knots} {item : Value} {operations : List (Text × Operation)}
    (h : pathItem? knots item = .valid (some operations)) :
    ∃ shared,
      (rawElements knots (firstNamed "parameters" (rawEntries knots item))).map (parameter knots) =
        shared.map .valid ∧
      ∀ entry ∈ operations, ∃ raw ∈ rawEntries knots item, methodKey? raw.1 = some entry.1 ∧
        ∃ own : Operation,
          (ownParameters knots (rawEntries knots raw.2)).map (parameter knots) =
            own.parameters.map .valid ∧
          entry.2 = own.withShared shared := by
  obtain ⟨entries, hentries, hoperations⟩ := pathItem?_eq_some_iff.mp h
  obtain ⟨shared, hshared, hall⟩ := exists_own_of_pathOperations hoperations
  have hraw : rawEntries knots item = entries := by rw [rawEntries, hentries]
  have hlisted := rawElements_of_list hshared
  rw [rawElements_orEmpty] at hlisted
  rw [hraw]
  refine ⟨shared, hlisted, ?_⟩
  intro entry hentry
  obtain ⟨raw, hmem, hmethod, own, hown, hmerged⟩ := hall entry hentry
  obtain ⟨fields, hfields, -, -, -, hparameters, -⟩ := operation_eq_valid_iff.mp hown
  have hrawOwn : rawEntries knots raw.2 = fields := by
    rw [← rawEntries_orEmpty, rawEntries, hfields]
  refine ⟨raw, hmem, hmethod, own, ?_, hmerged⟩
  rw [hrawOwn]
  exact map_ownParameters hparameters

theorem DeclaresDistinctly.nodup_keys {knots : Knots} {item : Value}
    {operations : List (Text × Operation)} (h : DeclaresDistinctly knots item)
    (hread : pathItem? knots item = .valid (some operations)) :
    ∀ entry ∈ operations, (entry.2.parameters.map (·.key)).Nodup := by
  obtain ⟨shared, hshared, hall⟩ := exists_lists_of_pathItem? hread
  intro entry hentry
  obtain ⟨raw, hraw, hmethod, own, hown, hmerged⟩ := hall entry hentry
  have hnames : (methodKey? raw.1).isSome := by rw [hmethod, Option.isSome_some]
  rw [hmerged]
  apply Operation.nodup_keys_withShared
  · exact nodup_keys_of_nodup_boundKey? hshared h.shared
  · exact nodup_keys_of_nodup_boundKey? hown (h.own raw hraw hnames)

/-- The paths of a document that was read are the mapping that it lists; no paths are an empty one. -/
theorem mapping_listedPaths {document : Document} {result : Specification}
    (h : bindDocument document = .ok result) :
    mapping document.knots (pathItem document.knots) (.map (listedPaths document)) =
      .valid result.paths := by
  obtain ⟨entries, hentries, -, -, hpaths, -⟩ :=
    specification_eq_valid_iff.mp (bindDocument_eq_ok_iff.mp h)
  have hraw : rawEntries document.knots document.root = entries := by rw [rawEntries, hentries]
  unfold listedPaths
  unfold Field.read at hpaths
  rw [hraw]
  split at hpaths
  case h_1 hmissing =>
    rw [hmissing, ← hpaths]
    rfl
  case h_2 name value hfound =>
    obtain ⟨listed, hlisted, hread⟩ := mapping_eq_valid_iff.mp
      (paths_eq_valid_iff.mp (Checked.under_eq_valid_iff.mp hpaths))
    simp only [hfound, rawEntries, hlisted]
    exact mapping_eq_valid_iff.mpr ⟨listed, rfl, hread⟩

theorem exists_listed_of_bindDocument {document : Document} {result : Specification}
    (h : bindDocument document = .ok result) :
    ∀ item ∈ result.paths, ∃ listed ∈ listedPaths document,
      pathItem? document.knots listed.2 = .valid (some item.2) := by
  obtain ⟨listed, hlisted, hread⟩ :=
    exists_pathItem?_of_paths (paths_eq_valid_iff.mpr (mapping_listedPaths h))
  rwa [Value.map.inj (hlisted : Value.map _ = .map listed)]

/-! ## Main statement -/

/-- **When a method declares no parameter twice.** In a document whose lists of parameters declare none
twice, the parameters of the method for an operation have distinct names exactly if no name is used in
the path and in the query, and no two names differ in the case of their first character only. -/
theorem methodParameters_nodup_iff {document : Document} {result : Specification}
    (h : bindDocument document = .ok result)
    (hdistinct : ∀ listed ∈ listedPaths document, DeclaresDistinctly document.knots listed.2) :
    ∀ item ∈ result.paths, ∀ entry ∈ item.2,
      ((methodParameters entry.2).map (·.name)).Nodup ↔ TellsParametersApart entry.2 := by
  intro item hitem entry hentry
  obtain ⟨listed, hlisted, hread⟩ := exists_listed_of_bindDocument h item hitem
  exact nodup_methodParameters_iff ((hdistinct listed hlisted).nodup_keys hread entry hentry)

/-- A parameter in the raw form of a document. -/
def rawParameter (name location : Text) : Value :=
  .map [(.text "name", .text name), (.text "in", .text location)]

/-- A path that shares two parameters, one of which its operation overrides, beside a header parameter
whose name differs from that of another one in its first letter. -/
theorem methodParameters_nodup_iff_pets :
    let shared : List Value := [rawParameter "petId" "path", rawParameter "limit" "query"]
    let own : List Value := [rawParameter "limit" "query", rawParameter "PetId" "header"]
    let item : Value := .map
      [(.text "parameters", .list shared),
       (.text "get", .map [(.text "operationId", .text "getPet"), (.text "parameters", .list own)])]
    let document : Document := { root := .map [(.text "paths", .map [(.text "/pets", item)])] }
    let operation : Operation :=
      { id := "getPet"
        parameters :=
          [{ name := "petId", location := "path" }, { name := "limit", location := "query" },
           { name := "PetId", location := "header" }] }
    let specification : Specification := { paths := [("/pets", [("get", operation)])] }
    bindDocument document = .ok specification ∧
      (∀ listed ∈ listedPaths document, DeclaresDistinctly document.knots listed.2) ∧
      TellsParametersApart operation ∧ ((methodParameters operation).map (·.name)).Nodup := by
  intro shared own item document operation specification
  have h : bindDocument document = .ok specification := rfl
  have hdistinct : ∀ listed ∈ listedPaths document, DeclaresDistinctly document.knots listed.2 := by
    intro listed hlisted
    obtain rfl : listed = (.text "/pets", item) := List.mem_singleton.mp hlisted
    refine ⟨by decide, ?_⟩
    intro entry hentry hmethod
    have hentries : entry ∈ rawEntries [] item := hentry
    simp only [rawEntries, Knots.content, item, List.mem_cons, List.not_mem_nil, or_false] at hentries
    rcases hentries with rfl | rfl
    · exact absurd hmethod (by decide)
    · decide
  have hiff := methodParameters_nodup_iff h hdistinct _ List.mem_cons_self _ List.mem_cons_self
  have hnodup : ((methodParameters operation).map (·.name)).Nodup := by decide
  exact ⟨h, hdistinct, hiff.mp hnodup, hnodup⟩

/-- A name that is used in the path and in the query is accepted, and the method declares it twice. -/
theorem not_nodup_methodParameters_id :
    let own : List Value := [rawParameter "id" "path", rawParameter "id" "query"]
    let item : Value := .map
      [(.text "get", .map [(.text "operationId", .text "getPet"), (.text "parameters", .list own)])]
    let document : Document := { root := .map [(.text "paths", .map [(.text "/pets", item)])] }
    ∃ specification, bindDocument document = .ok specification ∧
      (∀ listed ∈ listedPaths document, DeclaresDistinctly document.knots listed.2) ∧
      ∃ path ∈ specification.paths, ∃ entry ∈ path.2,
        ¬ ((methodParameters entry.2).map (·.name)).Nodup := by
  intro own item document
  refine ⟨_, rfl, ?_, _, List.mem_cons_self, _, List.mem_cons_self, by decide⟩
  intro listed hlisted
  obtain rfl : listed = (.text "/pets", item) := List.mem_singleton.mp hlisted
  refine ⟨by decide, ?_⟩
  intro entry hentry _
  obtain rfl := List.mem_singleton.mp hentry
  decide

end OpenApiClient.Client
