import Mathlib.Data.List.Forall2
import OpenApiClient.Proofs.Generation.Endpoints

/-!
# Accounting for Parameters

Nothing that a document says about parameters gets lost. Of the parameters that a path shares and those that
an operation lists itself, each is overridden, or enters the signature of the method, or is reported by one
warning, and all of this keeps their order. The warnings of a client are one about the version, if it is
due, and those of one operation after the other.

## Layers

- **Accounts**: `Accounts`, one rule per parameter, and what the rules make of a list (`accounts_filter`).
- **Documents**: what a document lists for an operation (`ListsParameters`), and that these are the
  parameters that it has (`exists_listsParameters`).
- **Operations**: `AccountsFor`, and that the method and the warnings of an operation account for its
  parameters (`accountsFor_of_mem`).
- **Main statement**: `parameters_accountedFor`.
-/

namespace OpenApiClient.Client

open OpenApiClient.Document
open OpenApiClient.Binding
open OpenApiClient.TypeScript (Method MethodParameter Statement)

/-! ## Accounts -/

/-- What becomes of a list of parameters when `own` ones override those of the same name and location: which
method parameters are made of them, and which warnings. -/
inductive Accounts (named : NamedOperation) (own : List Parameter) :
    List Parameter → List MethodParameter → List Text → Prop
  | nil : Accounts named own [] [] []
  | overridden {parameter : Parameter} {rest : List Parameter} {entered : List MethodParameter}
      {reported : List Text} : parameter.key ∈ own.map (·.key) →
      Accounts named own rest entered reported →
      Accounts named own (parameter :: rest) entered reported
  | entered {parameter : Parameter} {rest : List Parameter} {entered : List MethodParameter}
      {reported : List Text} : parameter.key ∉ own.map (·.key) →
      parameter.location = "path" ∨ parameter.location = "query" →
      Accounts named own rest entered reported →
      Accounts named own (parameter :: rest)
        ({ name := camelCase parameter.name, annotation := schemaTypeText parameter.schema } :: entered)
        reported
  | reported {parameter : Parameter} {rest : List Parameter} {entered : List MethodParameter}
      {reported : List Text} : parameter.key ∉ own.map (·.key) →
      ¬ (parameter.location = "path" ∨ parameter.location = "query") →
      Accounts named own rest entered reported →
      Accounts named own (parameter :: rest) entered (skippedWarning named parameter :: reported)

theorem inSignature_iff {parameter : Parameter} :
    inSignature parameter ↔ parameter.location = "path" ∨ parameter.location = "query" := by
  simp [inSignature, inPath]

/-- The method parameters that are made of some parameters of an operation, in order. -/
def enteredOf (parameters : List Parameter) : List MethodParameter :=
  (parameters.filter inSignature).map methodParameter

/-- The warnings about some parameters of an operation, in order. -/
def reportOf (named : NamedOperation) (parameters : List Parameter) : List Text :=
  (parameters.filter (!inSignature ·)).map (skippedWarning named)

/-- The rules make method parameters and warnings of all that is not overridden. -/
theorem accounts_filter (named : NamedOperation) (own parameters : List Parameter) :
    let kept := parameters.filter fun parameter => parameter.key ∉ own.map (·.key)
    Accounts named own parameters (enteredOf kept) (reportOf named kept) := by
  induction parameters with
  | nil => exact .nil
  | cons parameter rest ih =>
    by_cases hown : parameter.key ∈ own.map (·.key)
    · rw [List.filter_cons_of_neg (by simpa using hown)]
      exact .overridden hown ih
    · rw [List.filter_cons_of_pos (by simpa using hown)]
      by_cases hsignature : inSignature parameter
      · simp only [enteredOf, reportOf, List.filter_cons, hsignature, if_true, Bool.not_true]
        exact .entered hown (inSignature_iff.mp hsignature) ih
      · simp only [enteredOf, reportOf, List.filter_cons, hsignature, Bool.not_false, if_true]
        exact .reported hown (fun h => hsignature (inSignature_iff.mpr h)) ih

theorem accounts_all (named : NamedOperation) (parameters : List Parameter) :
    Accounts named [] parameters (enteredOf parameters) (reportOf named parameters) := by
  simpa using accounts_filter named [] parameters

/-! ## Documents -/

/-- Whether a document lists some parameters for the path of an operation and some for the operation itself.
Of paths whose keys are read as the same text the last one counts. -/
def ListsParameters (document : Document) (named : NamedOperation) (shared own : List Parameter) : Prop :=
  ∃ listed, Prevails (fun listed => text listed.1) (listedPaths document) listed ∧
    text listed.1 = .valid named.path ∧
    (rawElements document.knots (firstNamed "parameters" (rawEntries document.knots listed.2))).map
      (parameter document.knots) = shared.map .valid ∧
    ∃ entry ∈ rawEntries document.knots listed.2, methodKey? entry.1 = some named.method ∧
      (ownParameters document.knots (rawEntries document.knots entry.2)).map
        (parameter document.knots) = own.map .valid

/-- An operation has the parameters that the document lists for it, those of the path where it does not
override them. -/
theorem exists_listsParameters {document : Document} {specification : Specification}
    (h : bindDocument document = .ok specification) :
    ∀ named ∈ namedOperations specification, ∃ shared, ∃ own : Operation,
      ListsParameters document named shared own.parameters ∧
        named.operation = own.withShared shared := by
  intro named hnamed
  simp only [namedOperations, List.mem_flatMap, List.mem_map] at hnamed
  obtain ⟨item, hitem, entry, hentry, rfl⟩ := hnamed
  obtain ⟨listed, hprevails, hpath, hread⟩ := (mem_paths_iff h).mp hitem
  obtain ⟨shared, hshared, hall⟩ := exists_lists_of_pathItem? (pathItem_eq_valid_iff.mp hread)
  obtain ⟨raw, hraw, hmethod, own, hown, hmerged⟩ := hall entry hentry
  exact ⟨shared, own, ⟨listed, hprevails, hpath, hshared, raw, hraw, hmethod, hown⟩, hmerged⟩

/-! ## Operations -/

/-- Whether a method and some warnings account for the parameters of an operation. -/
structure AccountsFor (document : Document) (named : NamedOperation) (method : Method Statement)
    (warnings : List Text) : Prop where
  name : method.name = named.name
  /-- The parameters that the operation has enter the signature or are reported. -/
  merged : Accounts named [] named.operation.parameters method.parameters warnings
  /-- What the document lists for the path comes first, then what it lists for the operation. -/
  listed : ∃ shared own sharedEntered ownEntered sharedWarnings ownWarnings,
    ListsParameters document named shared own ∧
    method.parameters = sharedEntered ++ ownEntered ∧ warnings = sharedWarnings ++ ownWarnings ∧
    Accounts named own shared sharedEntered sharedWarnings ∧ Accounts named [] own ownEntered ownWarnings

theorem methodParameters_withShared (own : Operation) (shared : List Parameter) :
    methodParameters (own.withShared shared) =
      enteredOf (own.inherited shared) ++ enteredOf own.parameters := by
  simp only [methodParameters, Operation.withShared_eq, enteredOf, List.filter_append, List.map_append]

theorem operationWarnings_withShared {named : NamedOperation} {own : Operation}
    {shared : List Parameter} (h : named.operation = own.withShared shared) :
    operationWarnings named =
      reportOf named (own.inherited shared) ++ reportOf named own.parameters := by
  simp only [operationWarnings, h, Operation.withShared_eq, reportOf, List.filter_append,
    List.map_append]

theorem accountsFor_of_mem {document : Document} {specification : Specification}
    (h : bindDocument document = .ok specification) :
    ∀ named ∈ namedOperations specification,
      AccountsFor document named (operationMethod named) (operationWarnings named) := by
  intro named hnamed
  obtain ⟨shared, own, hlists, hmerged⟩ := exists_listsParameters h named hnamed
  have hshared : Accounts named own.parameters shared (enteredOf (own.inherited shared))
      (reportOf named (own.inherited shared)) := by
    rw [Operation.inherited_eq_filter]
    exact accounts_filter named own.parameters shared
  have hentered : (operationMethod named).parameters =
      enteredOf (own.inherited shared) ++ enteredOf own.parameters := by
    rw [← methodParameters_withShared, ← hmerged]
    rfl
  exact
    { name := rfl
      merged := accounts_all named named.operation.parameters
      listed := ⟨shared, own.parameters, _, _, _, _, hlists, hentered,
        operationWarnings_withShared hmerged, hshared, accounts_all named own.parameters⟩ }

/-! ## Main statement -/

/-- **Every parameter is accounted for.** The only class of a client has a method for each operation, behind
its fixed ones, and the client has warnings for each operation, behind the one about the version, both in the order of the operations. The
parameters of an operation, which are those that its path lists and it does not override, and then its own
ones, enter the signature of its method or are reported by its warnings, each of them once and in order. -/
theorem parameters_accountedFor {document : Document} {specification : Specification}
    {givenName : Option Text} {client : GeneratedClient}
    (hread : bindDocument document = .ok specification)
    (h : generate specification givenName = .ok client) :
    let operations := namedOperations specification
    let file := clientFile client.name specification.components operations
    client.source = file.text ∧
    (∀ declaration, .class declaration ∈ file.declarations ↔
      declaration = clientClass client.name operations) ∧
    ∃ accounts : List (Method Statement × List Text),
      (clientClass client.name operations).methods =
        constructorMethod :: requestMethod :: accounts.map (·.1) ∧
      client.warnings = (versionWarning specification.openapi).toList ++ accounts.flatMap (·.2) ∧
      List.Forall₂ (fun named account => AccountsFor document named account.1 account.2)
        operations accounts := by
  intro operations file
  obtain ⟨rfl, -⟩ := generate_eq_ok_iff.mp h
  refine ⟨rfl, fun _ => class_mem_clientFile_iff,
    operations.map fun named => (operationMethod named, operationWarnings named), ?_, ?_, ?_⟩
  · rw [List.map_map]
    rfl
  · rw [List.flatMap_map]
    rfl
  · rw [List.forall₂_map_right_iff, List.forall₂_same]
    exact accountsFor_of_mem hread

/-- A path that shares two parameters, one of which an operation overrides, and a location in another letter
case. The shared header parameter is reported for the operation that inherits it, the overriding one for its
own operation. -/
theorem parameters_accountedFor_pets :
    let shared : List Value := [rawParameter "trace" "header", rawParameter "limit" "query"]
    let own : List Value := [rawParameter "tag" "Query", rawParameter "trace" "header"]
    let item : Value := .map
      [(.text "parameters", .list shared),
       (.text "get", .map [(.text "operationId", .text "listPets")]),
       (.text "post", .map [(.text "operationId", .text "addPet"), (.text "parameters", .list own)])]
    let document : Document :=
      { root := .map [(.text "openapi", .text "2.0"), (.text "paths", .map [(.text "/pets", item)])] }
    let trace : Parameter := { name := "trace", location := "header" }
    let limit : Parameter := { name := "limit", location := "query" }
    let tag : Parameter := { name := "tag", location := "Query" }
    let specification : Specification :=
      { openapi := "2.0"
        paths := [("/pets",
          [("get", { id := "listPets", parameters := [trace, limit] }),
           ("post", { id := "addPet", parameters := [limit, tag, trace] })])] }
    let client := clientFor specification none
    let operations := namedOperations specification
    bindDocument document = .ok specification ∧ generate specification none = .ok client ∧
      .class (clientClass client.name operations) ∈
        (clientFile client.name specification.components operations).declarations ∧
      client.warnings =
        (["OpenAPI version 2.0 is not 3.x; output may be incomplete",
          "Skipping header parameter 'trace' of GET /pets",
          "Skipping Query parameter 'tag' of POST /pets",
          "Skipping header parameter 'trace' of POST /pets"] : List Text) ∧
      ∃ accounts : List (Method Statement × List Text),
        accounts.map (·.1.parameters.map (·.name)) = ([["limit"], ["limit"]] : List (List Text)) ∧
        client.warnings = (versionWarning "2.0").toList ++ accounts.flatMap (·.2) ∧
        List.Forall₂ (fun named account => AccountsFor document named account.1 account.2)
          operations accounts := by
  intro shared own item document trace limit tag specification client operations
  have hread : bindDocument document = .ok specification := rfl
  have h : generate specification none = .ok client := rfl
  obtain ⟨-, hclass, accounts, hmethods, hwarnings, haccounts⟩ := parameters_accountedFor hread h
  have hmade : accounts.map (·.1) = operations.map operationMethod :=
    (congrArg (List.drop 2) hmethods).symm
  refine ⟨hread, h, (hclass _).mpr rfl, by decide +kernel, accounts, ?_, hwarnings, haccounts⟩
  rw [← Function.comp_def (fun method : Method Statement => method.parameters.map (·.name)),
    ← List.map_map, hmade]
  decide

end OpenApiClient.Client
