import OpenApiClient.Proofs.Binding.MethodSpelling
import OpenApiClient.Proofs.Generation.Naming
import OpenApiClient.Proofs.Generation.Relevance

/-!
# Spelling and Clients

How the keys of a path are spelled never shows in what is generated. A specification keeps the spelling of
methods, but every text that is made of a method shows it in upper case: the request, the warnings and the
errors. So a document and the one in which a path is written plainly have the same outcome: the same client,
the same naming error, or the same issues.
-/

namespace OpenApiClient.Client

open OpenApiClient.Document
open OpenApiClient.Binding

/-! ## Specifications -/

/-- A named operation whose method is in lower case. -/
def NamedOperation.lowered (named : NamedOperation) : NamedOperation :=
  { named with method := Text.lower named.method }

theorem NamedOperation.sameMember_lowered {named : NamedOperation}
    (h : Text.lower named.method ∈ httpMethods) : SameMember named named.lowered := by
  have hmethod := upper_lower_of_lower_mem h
  have hcall : SameCall named named.lowered := ⟨rfl, hmethod.symm, rfl, rfl⟩
  refine ⟨hcall, ?_, ?_⟩
  · simp only [operationMethod, NamedOperation.lowered, hmethod]
  · have hskipped : skippedWarning named = skippedWarning named.lowered := by
      funext parameter
      rw [skippedWarning, skippedWarning, hcall.label]
    rw [operationWarnings, operationWarnings, hskipped]
    rfl

theorem namedOperations_lowered (specification : Specification) :
    namedOperations specification.lowered =
      (namedOperations specification).map NamedOperation.lowered := by
  simp only [namedOperations, Specification.lowered, lowerMethods, List.flatMap_map, List.map_flatMap,
    List.map_map]
  rfl

/-- What is generated from a specification with known methods is generated from it in lower case. -/
theorem generate_lowered {specification : Specification}
    (h : ∀ item ∈ specification.paths, HasKnownMethods item.2) (givenName : Option Text) :
    (generate specification givenName).mapError NamingError.message =
      (generate specification.lowered givenName).mapError NamingError.message := by
  have hmembers : List.Forall₂ SameMember (namedOperations specification)
      (namedOperations specification.lowered) := by
    rw [namedOperations_lowered, List.forall₂_map_right_iff, List.forall₂_same]
    intro named hnamed
    obtain ⟨-, item, hitem, hentry⟩ := mem_namedOperations hnamed
    exact NamedOperation.sameMember_lowered (h item hitem _ hentry)
  -- Version, title and named schemas are left alone.
  refine generate_congr_of_sameMember ?_ ?_ ?_ hmembers givenName
  · rfl
  · rfl
  · rfl

/-! ## Main statement -/

/-- What comes of a document: a client or the wording of a naming error, if the document is accepted. -/
def outcome (document : Document) (givenName : Option Text) :
    Except (Stop InputError) (Except Text GeneratedClient) :=
  (bindDocument document).map fun specification =>
    (generate specification givenName).mapError NamingError.message

/-- The spelling of methods is not needed for what comes of a document. -/
theorem outcome_eq (document : Document) (givenName : Option Text) :
    outcome document givenName =
      ((bindDocument document).map Specification.lowered).map fun specification =>
        (generate specification givenName).mapError NamingError.message := by
  unfold outcome
  cases hbound : bindDocument document with
  | error stop => rfl
  | ok specification =>
    have hlowered := generate_lowered (hasKnownMethods_of_bindDocument hbound) givenName
    exact congrArg Except.ok hlowered

/-- **Spelling never shows.** When the item of a path is written plainly, with its methods in lower case, its
parameters under their own name and anywhere among them, and nothing else, the same comes of the document:
the same client, the same naming error, or the same issues. -/
theorem outcome_of_plainlySpells {around : Surroundings} {entries result : List (Value × Value)}
    (hkey : Spells "paths" around.key) (h : PlainlySpells entries result) (givenName : Option Text) :
    outcome (around.document (.map result)) givenName =
      outcome (around.document (.map entries)) givenName := by
  rw [outcome_eq, outcome_eq, map_bindDocument_of_plainlySpells hkey h]

/-- Two operations with conflicting ids in odd spellings, beside an unknown key, and the same operations
written plainly, with the parameters between them. -/
theorem outcome_of_plainlySpells_pets :
    let parameters : Value := .list
      [.map [(.text "name", .text "trace"), (.text "in", .text "header")]]
    let operation (id : Text) : Value := .map [(.text "operationId", .text id)]
    let entries (id : Text) : List (Value × Value) :=
      [(.text "Parameters", parameters), (.text "GET", operation "listPets"),
       (.text "x-note", .bool true), (.text "Post", operation id)]
    let plain (id : Text) : List (Value × Value) :=
      [(.text "get", operation "listPets"), (.text "parameters", parameters),
       (.text "post", operation id)]
    let around : Surroundings := { key := .text "Paths", path := "/pets" }
    let conflict : Text :=
      "Conflicting operationId values map to the same method name: " ++
        "GET /pets (listPets), POST /pets (ListPets)"
    Spells "paths" around.key ∧ (∀ id, PlainlySpells (entries id) (plain id)) ∧
      outcome (around.document (.map (entries "ListPets"))) none = .ok (.error conflict) ∧
      outcome (around.document (.map (plain "ListPets"))) none = .ok (.error conflict) ∧
      (∃ client, outcome (around.document (.map (entries "addPet"))) none = .ok (.ok client) ∧
        outcome (around.document (.map (plain "addPet"))) none = .ok (.ok client)) := by
  intro parameters operation entries plain around conflict
  have hkey : Spells "paths" around.key := by decide
  have hplain : ∀ id, PlainlySpells (entries id) (plain id) := fun _ => ⟨rfl, rfl⟩
  have hconflict : outcome (around.document (.map (entries "ListPets"))) none =
      .ok (.error conflict) := rfl
  have hclient : ∃ client, outcome (around.document (.map (entries "addPet"))) none =
      .ok (.ok client) := ⟨_, rfl⟩
  obtain ⟨client, hclient⟩ := hclient
  refine ⟨hkey, hplain, hconflict, ?_, client, hclient, ?_⟩
  · rw [outcome_of_plainlySpells hkey (hplain _), hconflict]
  · rw [outcome_of_plainlySpells hkey (hplain _), hclient]

end OpenApiClient.Client
