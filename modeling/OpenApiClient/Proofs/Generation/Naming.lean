import OpenApiClient.Client.Generation
import OpenApiClient.Proofs.LowerCase

/-!
# Named Operations and Class Members

A client is generated exactly when its operations can be named: every id says something, and the
method names made from the ids are distinct. Nothing is checked against the members that the class
has anyway, its fields, its constructor and its request helper. So a class declares no member twice
exactly when no id makes one of their names.

## Layers

- **Success**: `resolveOperations_eq_ok_iff` and `generate_eq_ok_iff`.
- **Declarations**: the interfaces and the class of a source.
- **First letters**: which names become a given one (`camelCase_eq_cons_iff`).
- **Main statement**: `memberNames_nodup_iff`, refuted without its condition for the id `request`.
-/

namespace OpenApiClient.Client

open OpenApiClient.TypeScript (ClassDeclaration Declaration Interface)

/-! ## Success -/

theorem mem_namedOperations {specification : Specification} {named : NamedOperation}
    (h : named ∈ namedOperations specification) :
    named.name = camelCase named.operation.id ∧
      ∃ item ∈ specification.paths, (named.method, named.operation) ∈ item.2 := by
  simp only [namedOperations, List.mem_flatMap, List.mem_map] at h
  obtain ⟨item, hitem, entry, hentry, rfl⟩ := h
  exact ⟨rfl, item, hitem, hentry⟩

/-- Whether operations can be given method names. -/
structure Nameable (operations : List NamedOperation) : Prop where
  not_blank : ∀ named ∈ operations, Text.isAllBlank named.operation.id = false
  nodup : (operations.map (·.name)).Nodup

theorem filter_sharesName_eq_nil_iff (operations : List NamedOperation) :
    operations.filter (sharesName operations) = [] ↔ (operations.map (·.name)).Nodup := by
  rw [List.filter_eq_nil_iff, List.nodup_iff_count]
  simp only [sharesName, decide_eq_true_eq, Nat.not_lt]
  constructor
  · intro h name
    by_cases hname : name ∈ operations.map (·.name)
    · obtain ⟨named, hnamed, rfl⟩ := List.mem_map.mp hname
      exact h named hnamed
    · rw [List.count_eq_zero_of_not_mem hname]
      exact Nat.zero_le 1
  · exact fun h named _ => h named.name

theorem resolveOperations_eq_ok_iff {specification : Specification}
    {operations : List NamedOperation} :
    resolveOperations specification = .ok operations ↔
      operations = namedOperations specification ∧ Nameable operations := by
  unfold resolveOperations
  dsimp only
  split
  case h_1 named hfound =>
    -- The operation that was found has a blank id.
    have hblank := List.find?_some hfound
    simp only [reduceCtorEq, false_iff]
    rintro ⟨rfl, hnameable⟩
    rw [hnameable.not_blank named (List.mem_of_find?_eq_some hfound)] at hblank
    contradiction
  case h_2 hfound =>
    have hblank : ∀ named ∈ namedOperations specification,
        Text.isAllBlank named.operation.id = false := by
      simpa only [Bool.not_eq_true] using List.find?_eq_none.mp hfound
    have hshared := filter_sharesName_eq_nil_iff (namedOperations specification)
    split
    case isTrue hnone =>
      have hnodup := hshared.mp (List.isEmpty_iff.mp hnone)
      rw [Except.ok.injEq]
      constructor
      · rintro rfl
        exact ⟨rfl, hblank, hnodup⟩
      · exact fun h => h.1.symm
    case isFalse hsome =>
      simp only [reduceCtorEq, false_iff]
      rintro ⟨rfl, hnameable⟩
      exact hsome (List.isEmpty_iff.mpr (hshared.mpr hnameable.nodup))

/-- The client of a specification whose operations can be named. -/
def clientFor (specification : Specification) (givenName : Option Text) : GeneratedClient :=
  let operations := namedOperations specification
  let name := clientName specification.info.title givenName
  { name
    warnings := (versionWarning specification.openapi).toList ++ skippedWarnings operations
    source := (clientFile name specification.components operations).text }

theorem generate_eq_ok_iff {specification : Specification} {givenName : Option Text}
    {client : GeneratedClient} :
    generate specification givenName = .ok client ↔
      client = clientFor specification givenName ∧ Nameable (namedOperations specification) := by
  unfold generate
  split
  case h_1 e hresolved =>
    simp only [reduceCtorEq, false_iff]
    rintro ⟨-, hnameable⟩
    rw [resolveOperations_eq_ok_iff.mpr ⟨rfl, hnameable⟩] at hresolved
    contradiction
  case h_2 operations hresolved =>
    obtain ⟨rfl, hnameable⟩ := resolveOperations_eq_ok_iff.mp hresolved
    rw [Except.ok.injEq]
    constructor
    · rintro rfl
      exact ⟨rfl, hnameable⟩
    · exact fun h => h.1.symm

/-! ## Declarations -/

section

variable {name : Text} {components : Components} {operations : List NamedOperation}

/-- A source declares the interfaces of the schemas and the one of the options. -/
theorem interface_mem_clientFile_iff {declaration : Interface} :
    Declaration.interface declaration ∈ (clientFile name components operations).declarations ↔
      declaration ∈ componentInterfaces components ∨ declaration = optionsInterface := by
  simp [clientFile]

/-- A source declares one class. -/
theorem class_mem_clientFile_iff {declaration : ClassDeclaration} :
    Declaration.class declaration ∈ (clientFile name components operations).declarations ↔
      declaration = clientClass name operations := by
  simp [clientFile]

end

/-! ## First letters -/

/-- What case does to the plain characters. -/
theorem plain_case {c : Char} (hplain : c.toNat < 0x80) :
    (c.toLower.isLower → c = c.toLower ∨ c = c.toLower.toUpper) ∧
      (c.isLower → c.toLower = c ∧ c.toUpper.toLower = c ∧ c.toUpper.toNat < 0x80) := by
  revert hplain
  apply Text.forall_plain
  decide

/-- A plain small letter is the lower-case form of itself and of its capital, and the letter `k` that of
the kelvin sign, too. -/
theorem lowerChar_eq_singleton_iff {c letter : Char} (hplain : letter.toNat < 0x80)
    (hsmall : letter.isLower) (hk : letter ≠ 'k') :
    Text.lowerChar c = [letter] ↔ c = letter ∨ c = letter.toUpper := by
  obtain ⟨hself, hcapital, hcapitalPlain⟩ := (plain_case hplain).2 hsmall
  constructor
  · intro h
    have hdotted : c.toNat ≠ 0x130 := by
      intro hdotted
      have hlength := congrArg List.length (Text.lowerChar_dotted hdotted)
      rw [h] at hlength
      exact absurd hlength (by simp)
    have hc : c.toNat < 0x80 :=
      Text.toNat_lt_of_mem_lowerChar (h ▸ List.mem_singleton_self letter) hplain hk hdotted
    rw [Text.lowerChar, if_pos hc, List.singleton_inj] at h
    subst h
    exact (plain_case hc).1 hsmall
  · rintro (rfl | rfl)
    · rw [Text.lowerChar, if_pos hplain, hself]
    · rw [Text.lowerChar, if_pos hcapitalPlain, hcapital]

/-- The names whose first letter becomes a given one: besides its capital, the kelvin sign becomes the
letter `k`, and the dotted I the letter `i` with a dot behind it. -/
theorem camelCase_eq_cons_iff {letter : Char} {rest name : Text} (hplain : letter.toNat < 0x80)
    (hsmall : letter.isLower) (hi : letter = 'i' → rest.head? ≠ some (.char '\u0307'))
    (hk : letter ≠ 'k') :
    camelCase name = .char letter :: rest ↔
      name = .char letter :: rest ∨ name = .char letter.toUpper :: rest := by
  cases name with
  | nil => simp [camelCase]
  | cons first tail =>
    cases first with
    | surrogate offset => simp [camelCase, Text.lowerPoint]
    | char c =>
      have hc := lowerChar_eq_singleton_iff (c := c) hplain hsmall hk
      by_cases hdotted : c.toNat = 0x130
      · -- The dotted I becomes an `i` with a dot, which no plain letter does.
        rw [Text.lowerChar_dotted hdotted] at hc
        have hne : ¬ (c = letter ∨ c = letter.toUpper) := by simp [← hc]
        rw [not_or] at hne
        simp only [camelCase, Text.lowerPoint, Text.ofChars, Text.lowerChar_dotted hdotted,
          List.map_cons, List.map_nil, List.cons_append, List.nil_append, List.cons.injEq,
          CodePoint.char.injEq, hne, false_and, or_self, iff_false]
        rintro ⟨rfl, rfl⟩
        exact hi rfl rfl
      · obtain ⟨d, hd⟩ := Text.exists_lowerChar_eq_singleton hdotted
        rw [hd, List.singleton_inj] at hc
        simp only [camelCase, Text.lowerPoint, Text.ofChars, hd, List.map_cons, List.map_nil,
          List.cons_append, List.nil_append, List.cons.injEq, CodePoint.char.injEq, hc]
        exact or_and_right

/-! ## Members of the class -/

/-- The names of the members of a class, fields before methods. -/
def memberNames (declaration : ClassDeclaration) : List Text :=
  declaration.fields.map (·.name) ++ declaration.methods.map (·.name)

/-- The names of the members that every client class has. -/
def fixedMemberNames : List Text :=
  ["baseUrl", "headers", "constructor", "request"]

/-- The operation ids that make one of these names. -/
def fixedMemberIds : List Text :=
  ["baseUrl", "BaseUrl", "headers", "Headers", "constructor", "Constructor", "request", "Request"]

theorem memberNames_clientClass (name : Text) (operations : List NamedOperation) :
    memberNames (clientClass name operations) = fixedMemberNames ++ operations.map (·.name) := by
  have hmethods : (operations.map operationMethod).map (·.name) = operations.map (·.name) := by
    rw [List.map_map]
    rfl
  rw [← hmethods]
  rfl

theorem camelCase_mem_fixedMemberNames_iff (id : Text) :
    camelCase id ∈ fixedMemberNames ↔ id ∈ fixedMemberIds := by
  have hfirst : ∀ first ∈ ['b', 'h', 'c', 'r'], ∀ rest,
      camelCase id = .char first :: rest ↔
        id = .char first :: rest ∨ id = .char first.toUpper :: rest := by
    intro first hmem rest
    have hletter : first.toNat < 0x80 ∧ first.isLower ∧ first ≠ 'i' ∧ first ≠ 'k' := by
      simp only [List.mem_cons, List.not_mem_nil, or_false] at hmem
      rcases hmem with rfl | rfl | rfl | rfl <;> decide
    exact camelCase_eq_cons_iff hletter.1 hletter.2.1 (absurd · hletter.2.2.1) hletter.2.2.2
  have hbaseUrl : camelCase id = "baseUrl" ↔ id = "baseUrl" ∨ id = "BaseUrl" :=
    hfirst 'b' (by simp) "aseUrl"
  have hheaders : camelCase id = "headers" ↔ id = "headers" ∨ id = "Headers" :=
    hfirst 'h' (by simp) "eaders"
  have hconstructor : camelCase id = "constructor" ↔ id = "constructor" ∨ id = "Constructor" :=
    hfirst 'c' (by simp) "onstructor"
  have hrequest : camelCase id = "request" ↔ id = "request" ∨ id = "Request" :=
    hfirst 'r' (by simp) "equest"
  simp only [fixedMemberNames, fixedMemberIds, List.mem_cons, List.not_mem_nil, or_false, hbaseUrl,
    hheaders, hconstructor, hrequest, or_assoc]

/-- **No member is declared twice** in a generated class, unless an operation id makes the name of a
field, of the constructor or of the request helper. -/
theorem memberNames_nodup_iff {specification : Specification} {givenName : Option Text}
    {client : GeneratedClient} (h : generate specification givenName = .ok client) :
    let operations := namedOperations specification
    client.source = (clientFile client.name specification.components operations).text ∧
      ((memberNames (clientClass client.name operations)).Nodup ↔
        ∀ named ∈ operations, named.operation.id ∉ fixedMemberIds) := by
  intro operations
  obtain ⟨rfl, hnameable⟩ := generate_eq_ok_iff.mp h
  refine ⟨rfl, ?_⟩
  -- The fixed names are distinct and so are those of the methods: only a common one can repeat.
  have hfixed : fixedMemberNames.Nodup := by decide
  have hname : ∀ named ∈ operations, named.name = camelCase named.operation.id := by
    intro named hnamed
    simp only [operations, namedOperations, List.mem_flatMap, List.mem_map] at hnamed
    obtain ⟨item, -, entry, -, rfl⟩ := hnamed
    rfl
  rw [memberNames_clientClass, List.nodup_append]
  constructor
  · rintro ⟨-, -, hdisjoint⟩ named hnamed hid
    rw [← camelCase_mem_fixedMemberNames_iff, ← hname named hnamed] at hid
    exact hdisjoint _ hid _ (List.mem_map_of_mem hnamed) rfl
  · intro hids
    refine ⟨hfixed, hnameable.nodup, ?_⟩
    rintro fixed hmem name hmethod rfl
    obtain ⟨named, hnamed, rfl⟩ := List.mem_map.mp hmethod
    rw [hname named hnamed, camelCase_mem_fixedMemberNames_iff] at hmem
    exact hids named hnamed hmem

/-- A class with two methods, one of them named like a header field but for its spelling. -/
theorem memberNames_nodup_iff_pets :
    let specification : Specification :=
      { paths := [("/pets", [("get", { id := "ListPets" }), ("post", { id := "header" })])] }
    let client := clientFor specification (some "Pets")
    generate specification (some "Pets") = .ok client ∧
      (memberNames (clientClass client.name (namedOperations specification))).Nodup := by
  intro specification client
  have h : generate specification (some "Pets") = .ok client := rfl
  exact ⟨h, (memberNames_nodup_iff h).2.mpr (by decide)⟩

/-- The id `request` is accepted, and the class then declares `request` twice. -/
theorem not_nodup_memberNames_request :
    let specification : Specification := { paths := [("/pets", [("get", { id := "request" })])] }
    ∃ client, generate specification none = .ok client ∧
      client.source =
        (clientFile client.name specification.components (namedOperations specification)).text ∧
      ¬ (memberNames (clientClass client.name (namedOperations specification))).Nodup := by
  intro specification
  exact ⟨clientFor specification none, rfl, rfl, by decide⟩

end OpenApiClient.Client
