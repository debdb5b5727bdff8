import OpenApiClient.Proofs.Binding.Inlining
import OpenApiClient.Proofs.Binding.Surroundings

/-!
# Parameters of Paths and of Operations

The same entries can list parameters for a path, which its operations share, or for one operation alone. An
operation takes the first entry that is not null, and insists on a list. A path takes the first entry, even a
null one, and takes anything that counts as nothing for an empty list. So the same entries can be read
differently in both places: a null entry hides those behind it from a path only, and `false` is an empty list
to a path, and no list to an operation.

## Layers

- **Readings**: `sharedParameters` and `operationParameters`, which agree where `CountsAlike` holds
  (`sharedParameters_iff_operationParameters`).
- **Mixed entries**: `Mixes`, entries with those of a parameter list among them, and what is read from them.
- **Documents**: the document with the entries in either place (`bindsTo_shared`, `bindsTo_own`).
- **Main statement**: `bindAlike_iff`, refuted without its condition for a null entry before a list.
-/

namespace OpenApiClient.Binding

open OpenApiClient.Document
open OpenApiClient.Checked

/-! ## Readings -/

/-- The parameters that an operation lists itself. -/
def operationParameters (knots : Knots) (entries : List (Value × Value)) : Checked (List Parameter) :=
  parametersField.read entries [] (list knots (parameter knots))

/-- Whether entries whose first one counts as nothing give an operation no parameters, either: none of
them gives anything but an empty list. -/
def CountsAlike (knots : Knots) (entries : List (Value × Value)) : Prop :=
  (firstNamed "parameters" entries).isEmpty →
    ∀ value, FirstSpelled "parameters" entries value → elements? (knots.content value) = some []

section

variable {knots : Knots} {entries : List (Value × Value)}

/-- The first entry is that which gives a value, or a null one before it. -/
theorem firstNamed_cases {value : Value} (h : FirstSpelled "parameters" entries value) :
    firstNamed "parameters" entries = value ∨ firstNamed "parameters" entries = .null := by
  obtain ⟨before, key, after, rfl, hbefore, hkey, -⟩ := h
  induction before with
  | nil => exact .inl (by rw [List.nil_append, firstNamed_cons, if_pos hkey])
  | cons entry before ih =>
    obtain ⟨hentry, hbefore⟩ := List.forall_mem_cons.mp hbefore
    rw [List.cons_append, firstNamed_cons]
    split
    case isTrue hspells => exact .inr (hentry hspells)
    case isFalse => exact ih hbefore

theorem operationParameters_of_unspelled (h : Unspelled "parameters" entries) :
    operationParameters knots entries = .valid [] := by
  have hmissing : parametersField.IsMissing entries := ⟨nofun, h⟩
  rw [operationParameters, Field.read, Field.find?_of_isMissing hmissing]

theorem operationParameters_eq_valid_iff {value : Value} (h : FirstSpelled "parameters" entries value)
    {result : List Parameter} :
    operationParameters knots entries = .valid result ↔
      list knots (parameter knots) value = .valid result := by
  have hgives : parametersField.Gives entries "parameters" value := .inr ⟨nofun, rfl, h⟩
  rw [operationParameters, Field.read, Field.find?_of_gives hgives]
  exact under_eq_valid_iff

theorem list_eq_valid_nil_iff {value : Value} :
    list knots (parameter knots) value = .valid [] ↔ elements? (knots.content value) = some [] := by
  simp [list_eq_valid_iff]

/-- Entries give a path and an operation the same parameters exactly if they count alike. -/
theorem sharedParameters_iff_operationParameters :
    (∀ result, sharedParameters knots entries = .valid result ↔
        operationParameters knots entries = .valid result) ↔ CountsAlike knots entries := by
  have hnothing : (firstNamed "parameters" entries).isEmpty →
      sharedParameters knots entries = .valid [] := by
    intro hempty
    rw [sharedParameters, orEmpty, if_pos hempty]
    rfl
  constructor
  · intro h hempty value hvalue
    have hown := (h []).mp (hnothing hempty)
    exact list_eq_valid_nil_iff.mp ((operationParameters_eq_valid_iff hvalue).mp hown)
  · intro h result
    rcases exists_firstSpelled_or_unspelled "parameters" entries with ⟨value, hvalue⟩ | hunspelled
    · rw [operationParameters_eq_valid_iff hvalue]
      by_cases hempty : (firstNamed "parameters" entries).isEmpty
      · rw [hnothing hempty, list_eq_valid_nil_iff.mpr (h hempty value hvalue)]
      · -- The first entry is not null, so an operation takes the same one.
        rcases firstNamed_cases hvalue with hfirst | hnull
        · rw [sharedParameters, hfirst, orEmpty_of_isEmpty (by simpa [hfirst] using hempty)]
        · exact absurd rfl (hnull ▸ hempty)
    · have hnull := firstNamed_eq_null_of_unspelled hunspelled
      rw [operationParameters_of_unspelled hunspelled, hnothing (by rw [hnull]; rfl)]

end

/-! ## Mixed entries -/

/-- Whether entries are those of a parameter list among others, both in their order. -/
structure Mixes (others parameters entries : List (Value × Value)) : Prop where
  others : entries.filter (¬ Spells "parameters" ·.1) = others
  parameters : entries.filter (Spells "parameters" ·.1) = parameters

namespace Mixes

variable {knots : Knots} {others parameters entries : List (Value × Value)}

theorem mem_iff (h : Mixes others parameters entries) {entry : Value × Value} :
    entry ∈ others ↔ entry ∈ entries ∧ ¬ Spells "parameters" entry.1 := by
  rw [← h.others, List.mem_filter, decide_eq_true_iff]

theorem not_spells (h : Mixes others parameters entries) :
    ∀ entry ∈ others, ¬ Spells "parameters" entry.1 :=
  fun _ hentry => (h.mem_iff.mp hentry).2

theorem firstNamed_eq (h : Mixes others parameters entries) :
    firstNamed "parameters" entries = firstNamed "parameters" parameters := by
  rw [← h.parameters, firstNamed_filter]

theorem sharedParameters_eq (h : Mixes others parameters entries) :
    sharedParameters knots entries = sharedParameters knots parameters := by
  rw [sharedParameters, sharedParameters, h.firstNamed_eq]

theorem operationParameters_eq (h : Mixes others parameters entries) :
    operationParameters knots entries = operationParameters knots parameters := by
  have hfind : parametersField.find? entries = parametersField.find? parameters := by
    apply Field.find?_eq_of_findSome?_eq
    intro name hname
    obtain rfl : name = "parameters" := by simpa [parametersField, Field.names] using hname
    rw [← h.parameters, findSome?_filter_of_eq_none]
    rintro entry - hspells
    exact entryNamed?_eq_none_iff.mpr fun hkey => absurd hkey (by simpa using hspells)
  rw [operationParameters, operationParameters, Field.read, Field.read, hfind]

/-- Fields of other names take nothing from the parameter list. -/
theorem find?_other (h : Mixes others parameters entries) {field : Field}
    (hne : ∀ name ∈ field.names, Text.lower name ≠ Text.lower "parameters") :
    field.find? entries = field.find? others := by
  apply Field.find?_eq_of_findSome?_eq
  intro name hname
  rw [← h.others, findSome?_filter_of_eq_none]
  rintro entry - hspells
  exact entryNamed?_eq_none_of_spells (hne name hname) (by simpa using hspells)

/-- An operation with a parameter list is read as it is without one, and the list beside it. -/
theorem operation_iff (h : Mixes others parameters entries) {own : Operation} :
    operation knots (.map entries) = .valid own ↔
      ∃ bare, operation knots (.map others) = .valid bare ∧
        ∃ result, operationParameters knots parameters = .valid result ∧
          { bare with parameters := result } = own := by
  have hother : ∀ {α : Type} (field : Field) (absent : α) (reader : Value → Checked α),
      (∀ name ∈ field.names, Text.lower name ≠ Text.lower "parameters") →
        field.read entries absent reader = field.read others absent reader := by
    intro α field absent reader hne
    rw [Field.read, Field.read, h.find?_other hne]
  have hnone : operationParameters knots others = .valid [] := by
    apply operationParameters_of_unspelled
    exact fun entry hentry hspells => absurd hspells (h.not_spells entry hentry)
  rw [← h.operationParameters_eq]
  constructor
  · intro hown
    obtain ⟨_, hentries, hid, hsummary, htags, hparameters, hresponses⟩ :=
      operation_eq_valid_iff.mp hown
    obtain rfl := Value.map.inj hentries
    rw [hother _ _ _ (by decide)] at hid hsummary htags hresponses
    refine ⟨{ own with parameters := [] }, ?_, own.parameters, hparameters, rfl⟩
    exact operation_eq_valid_iff.mpr ⟨_, rfl, hid, hsummary, htags, hnone, hresponses⟩
  · rintro ⟨bare, hbare, result, hparameters, rfl⟩
    obtain ⟨_, hentries, hid, hsummary, htags, -, hresponses⟩ :=
      operation_eq_valid_iff.mp hbare
    obtain rfl := Value.map.inj hentries
    rw [← hother _ _ _ (by decide)] at hid hsummary htags hresponses
    exact operation_eq_valid_iff.mpr
      ⟨_, rfl, hid, hsummary, htags, hparameters, hresponses⟩

theorem isValid_operation_iff (h : Mixes others parameters entries) :
    (operation knots (.map entries)).IsValid ↔
      (operation knots (.map others)).IsValid ∧
        (operationParameters knots parameters).IsValid := by
  simp only [IsValid, h.operation_iff]
  constructor
  · rintro ⟨own, bare, hbare, result, hresult, -⟩
    exact ⟨⟨bare, hbare⟩, result, hresult⟩
  · rintro ⟨⟨bare, hbare⟩, result, hresult⟩
    exact ⟨_, bare, hbare, result, hresult, rfl⟩

end Mixes

/-! ## Items -/

section

variable {knots : Knots} {entries : List (Value × Value)}

theorem isValid_pathItem_map_iff :
    (pathItem knots (.map entries)).IsValid ↔
      (sharedParameters knots entries).IsValid ∧ ∀ entry ∈ entries, (methodKey? entry.1).isSome →
        (operation knots (orEmpty (.map []) entry.2)).IsValid := by
  simp only [reads_pathItem (.map entries), fits_pathItem_map_iff, reads_operation _]
  rw [← reads_parameter.list]
  rfl

/-- A path that names no parameters shares none. -/
theorem sharedParameters_of_not_spells (h : ∀ entry ∈ entries, ¬ Spells "parameters" entry.1) :
    sharedParameters knots entries = .valid [] := by
  have hunspelled : Unspelled "parameters" entries := fun entry hentry hspells =>
    absurd hspells (h entry hentry)
  rw [sharedParameters, firstNamed_eq_null_of_unspelled hunspelled]
  rfl

theorem Mixes.isValid_pathItem_iff {others parameters : List (Value × Value)}
    (h : Mixes others parameters entries) :
    (pathItem knots (.map entries)).IsValid ↔
      (pathItem knots (.map others)).IsValid ∧ (sharedParameters knots parameters).IsValid := by
  have hoperations : (∀ entry ∈ entries, (methodKey? entry.1).isSome →
      (operation knots (orEmpty (.map []) entry.2)).IsValid) ↔
        ∀ entry ∈ others, (methodKey? entry.1).isSome →
          (operation knots (orEmpty (.map []) entry.2)).IsValid := by
    constructor
    · exact fun hall entry hentry => hall entry (h.mem_iff.mp hentry).1
    · intro hall entry hentry hmethod
      -- The key of an operation is not that of the list.
      obtain ⟨method, hkey⟩ := Option.isSome_iff_exists.mp hmethod
      exact hall entry (h.mem_iff.mpr ⟨hentry, not_spells_of_methodKey? hkey⟩) hmethod
  rw [isValid_pathItem_map_iff, isValid_pathItem_map_iff, hoperations, h.sharedParameters_eq,
    sharedParameters_of_not_spells h.not_spells]
  simp only [isValid_valid, true_and, and_comm]

/-- The operation under a key that occurs once. -/
theorem lookup_operations {operations : List (Text × Operation)} {method : Text} {value : Value}
    (h : pathItem knots (.map entries) = .valid operations)
    (hmethod : methodKey? (.text method) = some method)
    (hmem : (.text method, value) ∈ entries)
    (honly : ∀ entry ∈ entries, entry.1 = .text method → entry.2 = value) :
    ∃ shared own, sharedParameters knots entries = .valid shared ∧
      operation knots (orEmpty (.map []) value) = .valid own ∧
      operations.lookup method = some (own.withShared shared) := by
  obtain ⟨_, hentries, hread⟩ := pathItem?_eq_some_iff.mp (pathItem_eq_valid_iff.mp h)
  obtain rfl := Value.map.inj hentries
  obtain ⟨shared, hshared, hall⟩ := exists_own_of_pathOperations hread
  cases hfound : operations.lookup method with
  | none =>
    have hlisted : method ∈ operations.map (·.1) := by
      rw [map_fst_of_pathOperations hread]
      exact List.mem_filterMap.mpr ⟨_, hmem, hmethod⟩
    obtain ⟨entry, hentry, rfl⟩ := List.mem_map.mp hlisted
    exact absurd (List.lookup_eq_none_iff.mp hfound entry hentry) (by simp)
  | some found =>
    obtain ⟨before, after, rfl, -⟩ := List.lookup_eq_some_iff.mp hfound
    obtain ⟨raw, hraw, hrawKey, own, hown, hmerged⟩ := hall (method, found) (by simp)
    have hvalue := honly raw hraw (methodKey?_eq_some_iff.mp hrawKey).1
    refine ⟨shared, own, hshared, hvalue ▸ hown, congrArg some hmerged⟩

end

/-! ## Documents -/

/-- The parameters of an operation of a specification, by its path and the key of its method. -/
def parametersAt (specification : Specification) (path method : Text) : Option (List Parameter) :=
  (specification.paths.lookup path).bind fun operations =>
    (operations.lookup method).map (·.parameters)

/-- Whether a document is accepted exactly if the rest of it is and a list of parameters can be read, and
an operation has these parameters then. -/
structure BindsTo (rest : Prop) (reading : Checked (List Parameter)) (path method : Text)
    (document : Document) : Prop where
  isAccepted : rest → reading.IsValid → IsAccepted document
  parameters : ∀ specification, bindDocument document = .ok specification →
    rest ∧ ∃ result, reading = .valid result ∧ parametersAt specification path method = some result

/-- Whether two documents are both rejected, or both accepted with the same parameters for an
operation. -/
def BindAlike (path method : Text) (document other : Document) : Prop :=
  (¬ IsAccepted document ∧ ¬ IsAccepted other) ∨
    ∃ specification otherSpecification, bindDocument document = .ok specification ∧
      bindDocument other = .ok otherSpecification ∧ ∃ result,
        parametersAt specification path method = some result ∧
          parametersAt otherSpecification path method = some result

theorem BindsTo.bindAlike_iff_forall {rest : Prop} {reading otherReading : Checked (List Parameter)}
    {path method : Text} {document other : Document} (h : BindsTo rest reading path method document)
    (hother : BindsTo rest otherReading path method other) :
    BindAlike path method document other ↔
      (rest → ∀ result, reading = .valid result ↔ otherReading = .valid result) := by
  constructor
  · rintro (⟨hnone, hnone'⟩ | ⟨specification, specification', hbound, hbound', result, hat, hat'⟩)
    · intro hrest result
      constructor
      · exact fun hread => absurd (h.isAccepted hrest ⟨result, hread⟩) hnone
      · exact fun hread => absurd (hother.isAccepted hrest ⟨result, hread⟩) hnone'
    · intro _ other
      obtain ⟨-, own, hread, hown⟩ := h.parameters _ hbound
      obtain ⟨-, own', hread', hown'⟩ := hother.parameters _ hbound'
      obtain rfl := Option.some.inj (hat.symm.trans hown)
      obtain rfl := Option.some.inj (hat'.symm.trans hown')
      rw [hread, hread']
  · intro hsame
    by_cases haccepted : IsAccepted document
    · obtain ⟨specification, hbound⟩ := haccepted
      obtain ⟨hrest, result, hread, hat⟩ := h.parameters _ hbound
      have hread' := (hsame hrest result).mp hread
      obtain ⟨specification', hbound'⟩ := hother.isAccepted hrest ⟨result, hread'⟩
      obtain ⟨-, result', hread'', hat'⟩ := hother.parameters _ hbound'
      obtain rfl := valid.inj (hread'.symm.trans hread'')
      exact .inr ⟨_, _, hbound, hbound', result, hat, hat'⟩
    · refine .inl ⟨haccepted, ?_⟩
      rintro ⟨specification', hbound'⟩
      obtain ⟨hrest, result, hread, -⟩ := hother.parameters _ hbound'
      exact haccepted (h.isAccepted hrest ⟨result, (hsame hrest result).mpr hread⟩)

section

variable {around : Surroundings} {before after fields parameters : List (Value × Value)}
  {method : Text}

/-- The entries of a path with an operation among others. -/
def withOperation (before after : List (Value × Value)) (method : Text)
    (fields : List (Value × Value)) : List (Value × Value) :=
  before ++ (.text method, .map fields) :: after

theorem forall_mem_withOperation_iff {holds : Value × Value → Prop} :
    (∀ entry ∈ withOperation before after method fields, holds entry) ↔
      holds (.text method, .map fields) ∧ ∀ entry ∈ before ++ after, holds entry := by
  simp only [withOperation, List.forall_mem_append, List.forall_mem_cons]
  exact and_left_comm

theorem eq_of_mem_withOperation (honly : ∀ entry ∈ before ++ after, entry.1 ≠ .text method) :
    ∀ entry ∈ withOperation before after method fields, entry.1 = .text method →
      entry.2 = .map fields :=
  forall_mem_withOperation_iff.mpr
    ⟨fun _ => rfl, fun entry hentry hkey => absurd hkey (honly entry hentry)⟩

/-- An operation that lists no parameters has those that its path shares. -/
theorem parameters_withShared {knots : Knots} {own : Operation}
    (h : ∀ entry ∈ fields, ¬ Spells "parameters" entry.1)
    (hown : operation knots (.map fields) = .valid own) (shared : List Parameter) :
    (own.withShared shared).parameters = shared := by
  obtain ⟨_, hentries, -, -, -, hparameters, -⟩ := operation_eq_valid_iff.mp hown
  obtain rfl := Value.map.inj hentries
  have hnone : operationParameters knots fields = .valid [] :=
    operationParameters_of_unspelled fun entry hentry hspells => absurd hspells (h entry hentry)
  have hnil : own.parameters = [] := valid.inj (hparameters.symm.trans hnone)
  simp [Operation.withShared, Operation.declares, hnil]

/-- With the entries among those of the path, the parameters are the ones that the path shares. -/
theorem bindsTo_shared {item : List (Value × Value)} (hcounts : around.Counts)
    (hmethod : methodKey? (.text method) = some method)
    (honly : ∀ entry ∈ before ++ after, entry.1 ≠ .text method)
    (hfields : ∀ entry ∈ fields, ¬ Spells "parameters" entry.1)
    (hitem : Mixes (withOperation before after method fields) parameters item) :
    BindsTo (IsAccepted (around.document (.map (withOperation before after method fields))))
      (sharedParameters around.knots parameters) around.path method (around.document (.map item)) := by
  constructor
  · intro hrest hread
    rw [isAccepted_document_iff hcounts hrest, hitem.isValid_pathItem_iff]
    exact ⟨(isAccepted_document_iff hcounts hrest).mp hrest, hread⟩
  · intro specification hbound
    have haccepted : IsAccepted (around.document (.map item)) := ⟨specification, hbound⟩
    have hvalid := (isAccepted_document_iff hcounts haccepted).mp haccepted
    have hrest := (hitem.isValid_pathItem_iff.mp hvalid).1
    refine ⟨(isAccepted_document_iff hcounts haccepted).mpr hrest, ?_⟩
    obtain ⟨operations, hread, hpath⟩ := lookup_paths hcounts hbound
    -- The operation is still the only one under its key.
    have hmem : (.text method, .map fields) ∈ item := (hitem.mem_iff.mp (by simp [withOperation])).1
    have hunique : ∀ entry ∈ item, entry.1 = .text method → entry.2 = .map fields := by
      intro entry hentry hkey
      apply eq_of_mem_withOperation honly entry (hitem.mem_iff.mpr ⟨hentry, ?_⟩) hkey
      rw [hkey]
      exact not_spells_of_methodKey? hmethod
    obtain ⟨shared, own, hshared, hown, hfound⟩ := lookup_operations hread hmethod hmem hunique
    rw [orEmpty_map] at hown
    refine ⟨shared, hitem.sharedParameters_eq ▸ hshared, ?_⟩
    simp [parametersAt, hpath, hfound, parameters_withShared hfields hown]

theorem isValid_withOperation_iff {knots : Knots} (hmethod : methodKey? (.text method) = some method)
    (hnone : ∀ entry ∈ withOperation before after method fields, ¬ Spells "parameters" entry.1) :
    (pathItem knots (.map (withOperation before after method fields))).IsValid ↔
      (operation knots (.map fields)).IsValid ∧ ∀ entry ∈ before ++ after,
        (methodKey? entry.1).isSome → (operation knots (orEmpty (.map []) entry.2)).IsValid := by
  rw [isValid_pathItem_map_iff, sharedParameters_of_not_spells hnone, forall_mem_withOperation_iff]
  simp [hmethod]

/-- With the entries among its own, the parameters are the ones that the operation lists itself. -/
theorem bindsTo_own {own : List (Value × Value)} (hcounts : around.Counts)
    (hmethod : methodKey? (.text method) = some method)
    (honly : ∀ entry ∈ before ++ after, entry.1 ≠ .text method)
    (hnone : ∀ entry ∈ before ++ after, ¬ Spells "parameters" entry.1)
    (hown : Mixes fields parameters own) :
    BindsTo (IsAccepted (around.document (.map (withOperation before after method fields))))
      (operationParameters around.knots parameters) around.path method
      (around.document (.map (withOperation before after method own))) := by
  have hplain : ∀ fields, ∀ entry ∈ withOperation before after method fields,
      ¬ Spells "parameters" entry.1 :=
    fun _ => forall_mem_withOperation_iff.mpr ⟨not_spells_of_methodKey? hmethod, hnone⟩
  constructor
  · intro hrest hread
    have hvalid := (isAccepted_document_iff hcounts hrest).mp hrest
    rw [isValid_withOperation_iff hmethod (hplain fields)] at hvalid
    rw [isAccepted_document_iff hcounts hrest, isValid_withOperation_iff hmethod (hplain own),
      hown.isValid_operation_iff]
    exact ⟨⟨hvalid.1, hread⟩, hvalid.2⟩
  · intro specification hbound
    have haccepted : IsAccepted
        (around.document (.map (withOperation before after method own))) := ⟨specification, hbound⟩
    have hvalid := (isAccepted_document_iff hcounts haccepted).mp haccepted
    rw [isValid_withOperation_iff hmethod (hplain own), hown.isValid_operation_iff] at hvalid
    constructor
    · rw [isAccepted_document_iff hcounts haccepted, isValid_withOperation_iff hmethod (hplain fields)]
      exact ⟨hvalid.1.1, hvalid.2⟩
    · obtain ⟨operations, hread, hpath⟩ := lookup_paths hcounts hbound
      obtain ⟨shared, found, hshared, hfound, hlookup⟩ := lookup_operations hread hmethod
        (by simp [withOperation]) (eq_of_mem_withOperation honly)
      -- The path shares nothing.
      rw [sharedParameters_of_not_spells (hplain own)] at hshared
      obtain rfl := valid.inj hshared
      rw [orEmpty_map, hown.operation_iff] at hfound
      obtain ⟨bare, -, result, hresult, rfl⟩ := hfound
      refine ⟨result, hresult, ?_⟩
      simp [parametersAt, hpath, hlookup, Operation.withShared_nil]

/-! ## Main statement -/

/-- **When it does not matter where parameters stand.** Put entries that list parameters among those of a
path, or among those of an operation of the path, where neither lists any otherwise. Both documents are
rejected, or both are accepted and the operation has the same parameters, exactly if the entries count alike
in both places, or the document is rejected without them already. -/
theorem bindAlike_iff {item own : List (Value × Value)} (hcounts : around.Counts)
    (hmethod : methodKey? (.text method) = some method)
    (honly : ∀ entry ∈ before ++ after, entry.1 ≠ .text method)
    (hitem : Mixes (withOperation before after method fields) parameters item)
    (hown : Mixes fields parameters own) :
    BindAlike around.path method (around.document (.map item))
        (around.document (.map (withOperation before after method own))) ↔
      (IsAccepted (around.document (.map (withOperation before after method fields))) →
        CountsAlike around.knots parameters) := by
  have hnone : ∀ entry ∈ before ++ after, ¬ Spells "parameters" entry.1 := by
    intro entry hentry
    apply hitem.not_spells entry
    simp only [withOperation, List.mem_append, List.mem_cons] at hentry ⊢
    exact hentry.imp_right .inr
  have hshared := bindsTo_shared hcounts hmethod honly hown.not_spells hitem
  have hlisted := bindsTo_own hcounts hmethod honly hnone hown
  rw [hshared.bindAlike_iff_forall hlisted, sharedParameters_iff_operationParameters]

end

/-- A list of parameters in two spellings, of which the first one counts in both places. -/
theorem bindAlike_iff_pets :
    let limit : Value := .map [(.text "name", .text "limit"), (.text "in", .text "query")]
    let parameters : List (Value × Value) :=
      [(.text "PARAMETERS", .list [limit]), (.text "parameters", .bool true)]
    let fields : List (Value × Value) := [(.text "operationId", .text "listPets")]
    let after : List (Value × Value) := [(.text "POST", .null)]
    let around : Surroundings := { path := "/pets" }
    let item : List (Value × Value) := parameters ++ withOperation [] after "get" fields
    let own : List (Value × Value) := fields ++ parameters
    around.Counts ∧ Mixes (withOperation [] after "get" fields) parameters item ∧
      Mixes fields parameters own ∧ CountsAlike around.knots parameters ∧
      BindAlike "/pets" "get" (around.document (.map item))
        (around.document (.map (withOperation [] after "get" own))) := by
  intro limit parameters fields after around item own
  have hcounts : around.Counts := ⟨rfl, nofun, nofun⟩
  have honly : ∀ entry ∈ [] ++ after, entry.1 ≠ .text "get" := by
    intro entry hentry
    rw [List.mem_singleton.mp hentry]
    simp only [ne_eq, Value.text.injEq]
    decide
  have hitem : Mixes (withOperation [] after "get" fields) parameters item := ⟨rfl, rfl⟩
  have hown : Mixes fields parameters own := ⟨rfl, rfl⟩
  have halike : CountsAlike around.knots parameters := fun hempty => Bool.noConfusion hempty
  exact ⟨hcounts, hitem, hown, halike,
    (bindAlike_iff hcounts rfl honly hitem hown).mpr fun _ => halike⟩

/-- A null entry hides the list behind it from the path, and not from the operation. -/
theorem not_bindAlike_null :
    let limit : Value := .map [(.text "name", .text "limit"), (.text "in", .text "query")]
    let parameters : List (Value × Value) :=
      [(.text "parameters", .null), (.text "Parameters", .list [limit])]
    let fields : List (Value × Value) := [(.text "operationId", .text "listPets")]
    let around : Surroundings := { path := "/pets" }
    ¬ BindAlike "/pets" "get"
        (around.document (.map (parameters ++ withOperation [] [] "get" fields)))
        (around.document (.map (withOperation [] [] "get" (parameters ++ fields)))) := by
  intro limit parameters fields around
  rintro (⟨hnone, -⟩ | ⟨specification, other, hbound, hother, result, hat, hat'⟩)
  · exact hnone ⟨_, rfl⟩
  · obtain rfl := Except.ok.inj hbound
    obtain rfl := Except.ok.inj hother
    have hshared : result = [] := (Option.some.inj hat).symm
    have hown : result.length = 1 := congrArg List.length (Option.some.inj hat').symm
    rw [hshared] at hown
    contradiction

end OpenApiClient.Binding
