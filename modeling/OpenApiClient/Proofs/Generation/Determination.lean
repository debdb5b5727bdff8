import OpenApiClient.Proofs.Binding.Methods
import OpenApiClient.Proofs.Generation.Blocks
import OpenApiClient.Proofs.Generation.Naming
import OpenApiClient.Proofs.TypeExpression.OfSchema

/-!
# The Source Determines the Client

Where all names are plain words, a client can be told from its source: two specifications with the same
source have the same client name, the same interfaces and the same methods.

## Layers

- **Texts**: names stay plain (`isPlainWord_camelCase`), types have no colons
  (`isTypeText_schemaType`), request paths have no line feeds.
- **Plain specifications**: `IsPlain`, and what it makes of interfaces and methods.
- **Main statement**: `emitted_eq_of_source_eq`.
-/

namespace OpenApiClient.Client

open OpenApiClient.TypeScript

/-! ## Names and types -/

theorem continues_toLower {c : Char} (h : Alphabet.plain.continues c) :
    Alphabet.plain.continues c.toLower := by
  have hplain : c.toNat < 0x80 := Alphabet.toNat_lt_of_continues h
  revert h
  revert hplain
  apply Text.forall_plain
  decide

theorem isPlainWord_camelCase {name : Text} (h : IsPlainWord name) :
    IsPlainWord (camelCase name) := by
  cases name with
  | nil => exact h
  | cons first rest =>
    obtain ⟨hfirst, hrest⟩ := List.forall_mem_cons.mp h
    cases first with
    | surrogate offset => exact absurd hfirst Bool.false_ne_true
    | char c =>
      have hplain : c.toNat < 0x80 := Alphabet.toNat_lt_of_continues hfirst
      have hcamel : camelCase (.char c :: rest) = .char c.toLower :: rest := by
        simp only [camelCase, Text.lowerPoint, Text.lowerChar, hplain, if_true, Text.ofChars,
          List.map_cons, List.map_nil, List.cons_append, List.nil_append]
      rw [hcamel]
      exact List.forall_mem_cons.mpr ⟨continues_toLower hfirst, hrest⟩

theorem isTypeText_append {text other : Text} :
    IsTypeText (text ++ other) ↔ IsTypeText text ∧ IsTypeText other :=
  List.forall_mem_append

theorem isTypeText_of_isPlainWord {text : Text} (h : IsPlainWord text) : IsTypeText text :=
  fun point hpoint => .inl (h point hpoint)

theorem TypeExpr.isTypeText_text {type : TypeExpr} (h : ∀ name ∈ type.names, IsPlainWord name) :
    IsTypeText type.text := by
  have hmarks : ∀ text ∈ (["Record<", ", ", ">", "[]", " | "] : List String),
      IsTypeText (text : Text) := by
    unfold IsTypeText
    decide
  simp only [List.forall_mem_cons] at hmarks
  induction type with
  | name name => exact isTypeText_of_isPlainWord (h name (List.mem_singleton.mpr rfl))
  | record key value ihKey ihValue =>
    simp only [TypeExpr.names, List.forall_mem_append] at h
    simp only [TypeExpr.text, isTypeText_append, hmarks, ihKey h.1, ihValue h.2, and_self]
  | array element ih =>
    simp only [TypeExpr.text, isTypeText_append, hmarks, ih h, and_self]
  | union left right ihLeft ihRight =>
    simp only [TypeExpr.names, List.forall_mem_append] at h
    simp only [TypeExpr.text, isTypeText_append, hmarks, ihLeft h.1, ihRight h.2, and_self]

/-- Whether the references that decide the type of a schema name types by plain words. -/
def PlainReferences (schema : Schema) : Prop :=
  ∀ consulted reference, Consults schema consulted → consulted.target? = some reference →
    Alphabet.plain.isWord (referenceName reference)

theorem plainReferences_of_leaf {schema : Schema} (hleaf : elementOf? schema = none)
    (h : ∀ reference ∈ schema.target?, Alphabet.plain.isWord (referenceName reference)) :
    PlainReferences schema := by
  intro consulted reference hconsults hreference
  obtain rfl := (consults_iff_of_elementOf?_eq_none hleaf).mp hconsults
  exact h reference hreference

theorem isTypeText_schemaType {schema : Schema} (h : PlainReferences schema) :
    IsTypeText (schemaType schema).text := by
  apply TypeExpr.isTypeText_text
  intro name hname
  apply Alphabet.continues_of_isWord
  rcases (means_schemaType schema).names_spec.1 name hname with
    hplain | ⟨consulted, reference, hconsults, hreference, rfl⟩
  · exact Alphabet.isWord_of_isTypeName hplain
  · exact h consulted reference hconsults hreference

/-! ## Request paths -/

theorem mem_replaceFrom {α : Type} [BEq α] {pattern replacement xs : List α} {x : α} {skip : Nat}
    (h : x ∈ Text.replaceFrom pattern replacement skip xs) : x ∈ replacement ∨ x ∈ xs := by
  induction xs generalizing skip with
  | nil => cases skip <;> exact absurd h List.not_mem_nil
  | cons first xs ih =>
    cases skip with
    | succ skip => exact (ih h).imp_right (List.mem_cons_of_mem _)
    | zero =>
      rw [Text.replaceFrom] at h
      split at h
      · rcases List.mem_append.mp h with hnew | hrest
        · exact .inl hnew
        · exact (ih hrest).imp_right (List.mem_cons_of_mem _)
      · rcases List.mem_cons.mp h with rfl | hrest
        · exact .inr List.mem_cons_self
        · exact (ih hrest).imp_right (List.mem_cons_of_mem _)

/-- Filling placeholders brings in the names of parameters only. -/
theorem lineFeed_notMem_foldl {names : List Text} {path : Text} (hpath : lineFeed ∉ path)
    (hnames : ∀ name ∈ names, IsPlainWord name) :
    lineFeed ∉ names.foldl fillPlaceholder path := by
  induction names generalizing path with
  | nil => exact hpath
  | cons name names ih =>
    rw [List.forall_mem_cons] at hnames
    refine ih (fun hmem => ?_) hnames.2
    rcases mem_replaceFrom hmem with hnew | hold
    · have hname := (isPlainWord_camelCase hnames.1).notMem lineFeed (by decide)
      have hmarks : lineFeed ∉ ("$\x7b" : Text) ∧ lineFeed ∉ ("\x7d" : Text) := by decide
      simp [interpolation, hname, hmarks] at hnew
    · exact hpath hold

theorem lineFeed_notMem_pathExpression {path : Text} {operation : Operation}
    (hpath : lineFeed ∉ path)
    (hnames : ∀ name ∈ pathParameterNames operation, IsPlainWord name) :
    lineFeed ∉ pathExpression path operation := by
  have hfilled := lineFeed_notMem_foldl hpath hnames
  have hmarks : lineFeed ∉ ("'" : Text) ∧ lineFeed ∉ ("`" : Text) := by decide
  rw [pathExpression]
  split
  · simp [hpath, hmarks]
  · simp [hfilled, hmarks]

/-! ## Plain specifications -/

/-- Whether the names in an operation are plain words, and its path has no line feed. -/
structure NamedOperation.IsPlain (named : NamedOperation) : Prop where
  id : Alphabet.plain.isWord named.operation.id
  parameters : ∀ parameter ∈ named.operation.parameters, inSignature parameter →
    Alphabet.plain.isWord parameter.name ∧ PlainReferences parameter.schema
  result : ∀ schema, (successResponse? named.operation).bind jsonSchema? = some schema →
    PlainReferences schema
  path : lineFeed ∉ named.path

/-- Whether the names in a schema and its own name are plain words. -/
structure IsPlainSchema (entry : Text × Schema) : Prop where
  name : Alphabet.plain.isWord entry.1
  properties : ∀ property ∈ entry.2.properties,
    Alphabet.plain.isWord property.1 ∧ PlainReferences property.2

/-- Whether all names in a client for a specification are plain words. The methods of its paths are
known, as they are in every specification that was read (`Binding.hasKnownMethods_of_bindDocument`). -/
structure IsPlain (specification : Specification) (name : Text) : Prop where
  name : Alphabet.plain.isWord name
  schemas : ∀ entry ∈ specification.components.schemas, IsPlainSchema entry
  operations : ∀ named ∈ namedOperations specification, named.IsPlain
  methods : ∀ item ∈ specification.paths, HasKnownMethods item.2

theorem IsPlainSchema.isPlain_schemaInterface {entry : Text × Schema} (h : IsPlainSchema entry) :
    (schemaInterface entry.1 entry.2).IsPlain where
  name := Alphabet.continues_of_isWord h.name
  members member hmember := by
    obtain ⟨property, hproperty, rfl⟩ := List.mem_map.mp hmember
    obtain ⟨hname, hreferences⟩ := h.properties property hproperty
    exact ⟨isPlainWord_camelCase (Alphabet.continues_of_isWord hname),
      isTypeText_schemaType hreferences⟩

theorem isTypeText_resultTypeText {operation : Operation}
    (h : ∀ schema, (successResponse? operation).bind jsonSchema? = some schema →
      PlainReferences schema) : IsTypeText (resultTypeText operation) := by
  rw [resultTypeText, resultType]
  split
  case h_1 schema hschema => exact isTypeText_schemaType (h schema hschema)
  case h_2 =>
    have hvoid : IsPlainWord TypeExpr.void.text := by
      unfold IsPlainWord
      decide
    exact isTypeText_of_isPlainWord hvoid

theorem IsPlain.isPlain_methodData {specification : Specification} {name : Text}
    (h : IsPlain specification name) {named : NamedOperation}
    (hnamed : named ∈ namedOperations specification) : (methodData named).IsPlain := by
  obtain ⟨hname, item, hitem, hentry⟩ := mem_namedOperations hnamed
  have hplain := h.operations named hnamed
  refine ⟨?_, ?_, isTypeText_resultTypeText hplain.result, ?_, ?_⟩
  · -- The method name is made from the id.
    rw [methodData, hname]
    exact isPlainWord_camelCase (Alphabet.continues_of_isWord hplain.id)
  · intro parameter hparameter
    obtain ⟨own, hown, rfl⟩ := List.mem_map.mp hparameter
    obtain ⟨hmem, hsignature⟩ := List.mem_filter.mp hown
    obtain ⟨hword, hreferences⟩ := hplain.parameters own hmem hsignature
    exact ⟨isPlainWord_camelCase (Alphabet.continues_of_isWord hword),
      isTypeText_schemaType hreferences, rfl⟩
  · -- Only names of path parameters are filled in, and these are in the signature.
    apply lineFeed_notMem_pathExpression hplain.path
    intro name hname
    obtain ⟨parameter, hparameter, rfl⟩ := List.mem_map.mp hname
    obtain ⟨hmem, hpath⟩ := List.mem_filter.mp hparameter
    have hsignature : inSignature parameter := by simp [inSignature, hpath]
    exact Alphabet.continues_of_isWord (hplain.parameters parameter hmem hsignature).1
  · -- A known method is one of eight words in upper case.
    have hknown : ∀ method ∈ httpMethods.map Text.upper, lineFeed ∉ method := by decide
    exact hknown _ (upper_mem_of_lower_mem (h.methods item hitem _ hentry))

theorem IsPlain.isPlain_interfaces {specification : Specification} {name : Text}
    (h : IsPlain specification name) :
    ∀ declaration ∈ componentInterfaces specification.components ++ [optionsInterface],
      declaration.IsPlain := by
  intro declaration hdeclaration
  rcases List.mem_append.mp hdeclaration with hschema | hoptions
  · obtain ⟨entry, hentry, rfl⟩ := List.mem_map.mp hschema
    exact (h.schemas entry hentry).isPlain_schemaInterface
  · obtain rfl := List.mem_singleton.mp hoptions
    refine ⟨?_, ?_⟩
    · unfold IsPlainWord
      decide
    · intro member hmember
      have hall : ∀ member ∈ optionsInterface.members,
          IsPlainWord member.name ∧ IsTypeText member.annotation := by
        unfold IsPlainWord IsTypeText
        decide
      exact ⟨(hall member hmember).1, (hall member hmember).2⟩

/-! ## Lines of the source -/

/-- The lines of a client's file, as a row of interfaces and a row of methods. -/
theorem clientFile_lines_eq (name : Text) (components : Components)
    (operations : List NamedOperation) :
    (clientFile name components operations).lines =
      (headerComments.map (fun (comment : Text) => "// " ++ comment) ++ [emptyLine]) ++
        ((componentInterfaces components ++ [optionsInterface]).flatMap
            (fun declaration => declaration.lines ++ [emptyLine]) ++
          (classOpeningLines name ++
            ((operations.map methodData).flatMap MethodData.lines ++ [closingLine]))) := by
  have hmethods : (operations.flatMap fun named => (operationMethod named).memberLines) =
      (operations.map methodData).flatMap MethodData.lines := by
    simp only [memberLines_operationMethod, List.flatMap_map]
  rw [clientFile_lines, hmethods]
  simp only [List.flatMap_append, List.flatMap_cons, List.flatMap_nil, List.append_nil,
    List.append_assoc]

theorem lineFeed_notMem_classOpeningLines {name : Text} (h : IsPlainWord name) :
    ∀ line ∈ classOpeningLines name, lineFeed ∉ line := by
  have hfixed : ∀ line ∈ clientFields.map ClassField.line ++ [emptyLine] ++
      constructorMethod.memberLines ++ requestMethod.memberLines, lineFeed ∉ line := by
    decide +kernel
  have hmarks : lineFeed ∉ ("export class " : Text) ∧ lineFeed ∉ (" \x7b" : Text) := by decide
  have hname := h.notMem lineFeed (by decide)
  intro line hline
  rcases List.mem_cons.mp hline with rfl | hrest
  · simp [hname, hmarks]
  · exact hfixed line hrest

theorem IsPlain.lineFeed_notMem {specification : Specification} {name : Text}
    (h : IsPlain specification name) :
    ∀ line ∈ (clientFile name specification.components (namedOperations specification)).lines,
      lineFeed ∉ line := by
  have hopening : ∀ line ∈ headerComments.map (fun (comment : Text) => "// " ++ comment) ++
      [emptyLine], lineFeed ∉ line := by decide
  have hempty : lineFeed ∉ emptyLine := by decide
  have hclosing : lineFeed ∉ closingLine := by decide
  intro line hline
  rw [clientFile_lines_eq] at hline
  rcases List.mem_append.mp hline with hline | hline
  · exact hopening line hline
  rcases List.mem_append.mp hline with hline | hline
  · obtain ⟨declaration, hdeclaration, hline⟩ := List.mem_flatMap.mp hline
    rcases List.mem_append.mp hline with hline | hline
    · exact (h.isPlain_interfaces declaration hdeclaration).lineFeed_notMem line hline
    · exact List.mem_singleton.mp hline ▸ hempty
  rcases List.mem_append.mp hline with hline | hline
  · exact lineFeed_notMem_classOpeningLines (Alphabet.continues_of_isWord h.name) line hline
  rcases List.mem_append.mp hline with hline | hline
  · obtain ⟨data, hdata, hline⟩ := List.mem_flatMap.mp hline
    obtain ⟨named, hnamed, rfl⟩ := List.mem_map.mp hdata
    exact (h.isPlain_methodData hnamed).lineFeed_notMem line hline
  · exact List.mem_singleton.mp hline ▸ hclosing

/-! ## Main statement -/

/-- The class is told from an interface by its first line. -/
theorem beginsNone_class (name : Text) (rest : List Text) :
    BeginsNone Interface.IsPlain (fun declaration => declaration.lines ++ [emptyLine])
      (classOpeningLines name ++ rest) := by
  intro declaration after _ h
  have hfirst := (List.cons.inj h).1
  have hletter : some (CodePoint.char 'i') = some (CodePoint.char 'c') :=
    congrArg (fun line : Text => (line.drop 7).head?) hfirst
  exact absurd hletter (by decide)

/-- The end of the class is told from a method by its first character. -/
theorem beginsNone_closing : BeginsNone MethodData.IsPlain MethodData.lines [closingLine] := by
  intro data after _ h
  have hfirst : data.headerLine = closingLine := (List.cons.inj h).1
  have hblank : some (CodePoint.char ' ') = some (CodePoint.char '\x7d') :=
    congrArg List.head? hfirst
  exact absurd hblank (by decide)

/-- **The source determines the client.** Where the names in two clients are plain words and their
sources are the same, so are their names, their interfaces for named schemas, and what their methods
show: names, parameters, results, request paths and HTTP methods, all in the same order. -/
theorem emitted_eq_of_source_eq {specification other : Specification}
    {givenName otherName : Option Text} {client otherClient : GeneratedClient}
    (h : generate specification givenName = .ok client)
    (hother : generate other otherName = .ok otherClient)
    (hplain : IsPlain specification client.name) (hplain' : IsPlain other otherClient.name)
    (hsource : client.source = otherClient.source) :
    client.name = otherClient.name ∧
      componentInterfaces specification.components = componentInterfaces other.components ∧
      (namedOperations specification).map methodData = (namedOperations other).map methodData := by
  obtain ⟨rfl, -⟩ := generate_eq_ok_iff.mp h
  obtain ⟨rfl, -⟩ := generate_eq_ok_iff.mp hother
  simp only [clientFor] at hsource hplain hplain' ⊢
  rw [SourceFile.text_eq, SourceFile.text_eq] at hsource
  have hlines := linesText_inj hplain.lineFeed_notMem hplain'.lineFeed_notMem hsource
  rw [clientFile_lines_eq, clientFile_lines_eq] at hlines
  -- First the interfaces are read, up to the class.
  obtain ⟨hinterfaces, hclass⟩ := Interface.selfDelimiting.flatMap_append_inj
    hplain.isPlain_interfaces hplain'.isPlain_interfaces (beginsNone_class _ _)
    (beginsNone_class _ _) (List.append_cancel_left hlines)
  have hname := List.append_cancel_left (List.append_cancel_right (List.cons.inj hclass).1)
  -- Then, behind the fixed members of the class, the methods up to its end.
  rw [hname] at hclass
  obtain ⟨hmethods, -⟩ := MethodData.selfDelimiting.flatMap_append_inj
    (by simpa using fun named => hplain.isPlain_methodData)
    (by simpa using fun named => hplain'.isPlain_methodData) beginsNone_closing beginsNone_closing
    (List.append_cancel_left hclass)
  exact ⟨hname, List.append_cancel_right hinterfaces, hmethods⟩

/-- Two documents that differ in their title, in the case of an id and a method, and in where a reference
leads, have the same source. -/
theorem emitted_eq_of_source_eq_pets :
    let pets (title id method reference : Text) : Specification :=
      { info := { title }
        paths := [("/pets/\x7bId\x7d", [(method,
          { id, parameters := [{ name := "Id", location := "path" }]
            responses := [("200", { content := some [("application/json",
              { schema := { dollarRef := some reference } })] })] })])]
        components := ⟨[("Pet", { properties := [("Tag", { type := some (.single "object") })] })]⟩ }
    let specification := pets "Pets" "GetPet" "get" "#/components/schemas/Pet"
    let other := pets "My pets" "getPet" "GET" "Pet"
    let client := clientFor specification none
    let otherClient := clientFor other (some "PetsClient")
    generate specification none = .ok client ∧ generate other (some "PetsClient") = .ok otherClient ∧
      client.source = otherClient.source ∧
      (namedOperations specification).map methodData = (namedOperations other).map methodData := by
  intro pets specification other client otherClient
  have h : generate specification none = .ok client := rfl
  have hother : generate other (some "PetsClient") = .ok otherClient := rfl
  have hsource : client.source = otherClient.source := by
    have hname : clientName specification.info.title none =
        clientName other.info.title (some "PetsClient") := rfl
    simp only [client, otherClient, clientFor, clientFile_text, hname]
    rfl
  have hplain : ∀ title id method reference : Text, Alphabet.plain.isWord id →
      Text.lower method ∈ httpMethods → Alphabet.plain.isWord (referenceName reference) →
        IsPlain (pets title id method reference) "PetsClient" := by
    intro title id method reference hid hmethod hreference
    have hnothing : ∀ schema : Schema, elementOf? schema = none → schema.target? = none →
        PlainReferences schema := by
      intro schema hleaf htarget
      exact plainReferences_of_leaf hleaf (by simp [htarget])
    have hresult : PlainReferences { dollarRef := some reference } := by
      apply plainReferences_of_leaf (by simp [elementOf?])
      intro target htarget
      obtain rfl := Option.some.inj (Option.eq_some_of_filter_eq_some htarget)
      exact hreference
    refine ⟨rfl, ?_, ?_, ?_⟩
    · intro entry hentry
      obtain rfl := List.mem_singleton.mp hentry
      refine ⟨rfl, ?_⟩
      intro property hproperty
      obtain rfl := List.mem_singleton.mp hproperty
      exact ⟨rfl, hnothing _ rfl rfl⟩
    · intro named hnamed
      obtain rfl := List.mem_singleton.mp hnamed
      have hpath : lineFeed ∉ ("/pets/\x7bId\x7d" : Text) := by decide
      refine ⟨hid, ?_, ?_, hpath⟩
      · intro parameter hparameter _
        obtain rfl := List.mem_singleton.mp hparameter
        exact ⟨rfl, hnothing _ rfl rfl⟩
      · intro schema hschema
        obtain rfl := Option.some.inj hschema
        exact hresult
    · intro item hitem
      obtain rfl := List.mem_singleton.mp hitem
      intro entry hentry
      obtain rfl := List.mem_singleton.mp hentry
      exact hmethod
  have hemitted := emitted_eq_of_source_eq h hother (hplain _ _ _ _ rfl (by decide) rfl)
    (hplain _ _ _ _ rfl (by decide) rfl) hsource
  exact ⟨h, hother, hsource, hemitted.2.2⟩

end OpenApiClient.Client
