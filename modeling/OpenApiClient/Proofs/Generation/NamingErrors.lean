import Mathlib.Data.List.TakeWhile
import OpenApiClient.Proofs.Generation.Naming

/-!
# Naming Errors

Operations are named, or it is said which of them cannot be. The first operation with a blank id is blamed
alone, whatever other names clash. Where no id is blank, all operations are blamed whose method name another
one has, in their order, each of them once.

## Layers

- **Declared operations**: `declaredOperations`, path after path and method after method.
- **Blank ids**: `isAllBlank_iff`, blank text has nothing left when it is trimmed.
- **Shared names**: `ListsShared`, one rule per operation, and what it lists (`listsShared_iff`).
- **Main statement**: `resolveOperations_accepts_or_blames`.
-/

namespace OpenApiClient.Client

/-! ## Declared operations -/

/-- An operation as a specification declares it, under a path and the key of its method. -/
structure DeclaredOperation where
  path : Text
  method : Text
  operation : Operation

namespace DeclaredOperation

/-- The method name that the id of an operation makes. -/
def methodName (declared : DeclaredOperation) : Text :=
  camelCase declared.operation.id

/-- The operation with its method name. -/
def named (declared : DeclaredOperation) : NamedOperation :=
  ⟨declared.path, declared.method, declared.methodName, declared.operation⟩

/-- Whether nothing is left of the id of an operation when it is trimmed. -/
def IsBlank (declared : DeclaredOperation) : Prop :=
  Text.trim declared.operation.id = []

end DeclaredOperation

/-- The operations of a specification, path after path and on each path method after method. -/
def declaredOperations (specification : Specification) : List DeclaredOperation :=
  specification.paths.flatMap fun (path, methods) =>
    methods.map fun (method, operation) => ⟨path, method, operation⟩

theorem namedOperations_eq_map (specification : Specification) :
    namedOperations specification = (declaredOperations specification).map (·.named) := by
  simp only [namedOperations, declaredOperations, List.map_flatMap, List.map_map]
  rfl

theorem map_name_map_named (declared : List DeclaredOperation) :
    (declared.map (·.named)).map (·.name) = declared.map (·.methodName) := by
  rw [List.map_map]
  rfl

/-! ## Blank ids -/

theorem trimBy_eq_nil_iff {α : Type} {drops : α → Bool} {items : List α} :
    Text.trimBy drops items = [] ↔ ∀ item ∈ items, drops item := by
  rw [Text.trimBy, List.reverse_eq_nil_iff, List.dropWhile_eq_nil_iff]
  constructor
  · intro hrest item hitem
    rw [← List.takeWhile_append_dropWhile (p := drops) (l := items), List.mem_append] at hitem
    rcases hitem with htaken | hdropped
    · exact List.mem_takeWhile_imp htaken
    · exact hrest item (List.mem_reverse.mpr hdropped)
  · intro hall item hitem
    rw [List.dropWhile_eq_nil_iff.mpr hall] at hitem
    contradiction

theorem isAllBlank_iff {declared : DeclaredOperation} :
    Text.isAllBlank declared.named.operation.id ↔ declared.IsBlank := by
  rw [DeclaredOperation.IsBlank, Text.trim, trimBy_eq_nil_iff, Text.isAllBlank, List.all_eq_true]
  rfl

theorem find?_named_eq_some_iff {declared : List DeclaredOperation} {named : NamedOperation} :
    (declared.map (·.named)).find? (fun named => Text.isAllBlank named.operation.id) = some named ↔
      ∃ before first after, declared = before ++ first :: after ∧ first.IsBlank ∧
        (∀ other ∈ before, ¬ other.IsBlank) ∧ first.named = named := by
  rw [List.find?_map, Option.map_eq_some_iff]
  simp only [List.find?_eq_some_iff_append, Function.comp_apply, Bool.not_eq_true',
    ← Bool.not_eq_true, isAllBlank_iff]
  constructor
  · rintro ⟨first, ⟨hblank, before, after, rfl, hbefore⟩, rfl⟩
    exact ⟨before, first, after, rfl, hblank, hbefore, rfl⟩
  · rintro ⟨before, first, after, rfl, hblank, hbefore, rfl⟩
    exact ⟨first, ⟨hblank, before, after, rfl, hbefore⟩, rfl⟩

theorem find?_named_eq_none_iff {declared : List DeclaredOperation} :
    (declared.map (·.named)).find? (fun named => Text.isAllBlank named.operation.id) = none ↔
      ∀ other ∈ declared, ¬ other.IsBlank := by
  rw [List.find?_map, Option.map_eq_none_iff, List.find?_eq_none]
  simp only [Function.comp_apply, isAllBlank_iff]

theorem nameable_map_named_iff {declared : List DeclaredOperation} :
    Nameable (declared.map (·.named)) ↔
      (∀ other ∈ declared, ¬ other.IsBlank) ∧ (declared.map (·.methodName)).Nodup := by
  have hblank : (∀ named ∈ declared.map (·.named), Text.isAllBlank named.operation.id = false) ↔
      ∀ other ∈ declared, ¬ other.IsBlank := by
    simp only [List.forall_mem_map, ← Bool.not_eq_true, isAllBlank_iff]
  rw [← hblank, ← map_name_map_named]
  exact ⟨fun h => ⟨h.not_blank, h.nodup⟩, fun h => ⟨h.1, h.2⟩⟩

/-! ## Shared names -/

/-- Whether of the operations from a place on those are listed, in order, whose method name another
operation has, in front of them or behind. -/
inductive ListsShared : List DeclaredOperation → List DeclaredOperation → List DeclaredOperation → Prop
  | nil (before : List DeclaredOperation) : ListsShared before [] []
  | shared {before after listed : List DeclaredOperation} {declared : DeclaredOperation} :
      declared.methodName ∈ (before ++ after).map (·.methodName) →
      ListsShared (before ++ [declared]) after listed →
      ListsShared before (declared :: after) (declared :: listed)
  | alone {before after listed : List DeclaredOperation} {declared : DeclaredOperation} :
      declared.methodName ∉ (before ++ after).map (·.methodName) →
      ListsShared (before ++ [declared]) after listed →
      ListsShared before (declared :: after) listed

theorem sharesName_iff {before after : List DeclaredOperation} {declared : DeclaredOperation} :
    sharesName ((before ++ declared :: after).map (·.named)) declared.named ↔
      declared.methodName ∈ (before ++ after).map (·.methodName) := by
  rw [sharesName, map_name_map_named, decide_eq_true_iff, List.map_append, List.map_append,
    List.map_cons, List.count_append, List.mem_append, ← List.count_pos_iff, ← List.count_pos_iff]
  have hself : ((declared.methodName :: after.map (·.methodName)).count declared.methodName) =
      (after.map (·.methodName)).count declared.methodName + 1 := List.count_cons_self
  show 1 < List.count declared.methodName _ + List.count declared.methodName _ ↔ _
  rw [hself]
  omega

/-- What is listed are the operations that share their name with another one of the whole list. -/
theorem listsShared_iff {before after listed : List DeclaredOperation} :
    ListsShared before after listed ↔
      after.filter (fun declared => sharesName ((before ++ after).map (·.named)) declared.named) =
        listed := by
  induction after generalizing before listed with
  | nil =>
    constructor
    · rintro ⟨⟩
      rfl
    · rintro rfl
      exact .nil before
  | cons declared after ih =>
    have hrest := @ih (before ++ [declared])
    rw [List.append_assoc, List.singleton_append] at hrest
    by_cases hshared : sharesName ((before ++ declared :: after).map (·.named)) declared.named
    · simp only [List.filter_cons, hshared, if_true]
      constructor
      · rintro (_ | ⟨-, htail⟩ | ⟨halone, -⟩)
        · rw [hrest.mp htail]
        · exact absurd (sharesName_iff.mp hshared) halone
      · rintro rfl
        exact .shared (sharesName_iff.mp hshared) (hrest.mpr rfl)
    · simp only [List.filter_cons, hshared]
      constructor
      · rintro (_ | ⟨hname, -⟩ | ⟨-, htail⟩)
        · exact absurd (sharesName_iff.mpr hname) hshared
        · exact hrest.mp htail
      · rintro rfl
        exact .alone (fun hname => hshared (sharesName_iff.mpr hname)) (hrest.mpr rfl)

/-! ## Errors -/

/-- Whether an error, worded by a text, blames the operations that cannot be named: the first one with a
blank id, or else all that share their method name. -/
inductive Blames (declared : List DeclaredOperation) : NamingError → Text → Prop
  | missingId {before after : List DeclaredOperation} {first : DeclaredOperation} :
      declared = before ++ first :: after → (∀ other ∈ before, ¬ other.IsBlank) → first.IsBlank →
      Blames declared (.missingId first.named)
        ("Operation " ++ (Text.upper first.method ++ " " ++ first.path) ++ " has no operationId")
  | conflict {listed : List DeclaredOperation} :
      (∀ other ∈ declared, ¬ other.IsBlank) → ListsShared [] declared listed → listed ≠ [] →
      Blames declared (.conflict (listed.map (·.named)))
        ("Conflicting operationId values map to the same method name: " ++
          Text.join ", " (listed.map fun other =>
            Text.upper other.method ++ " " ++ other.path ++ " (" ++ other.operation.id ++ ")"))

theorem message_conflict (listed : List DeclaredOperation) :
    (NamingError.conflict (listed.map (·.named))).message =
      "Conflicting operationId values map to the same method name: " ++
        Text.join ", " (listed.map fun other =>
          Text.upper other.method ++ " " ++ other.path ++ " (" ++ other.operation.id ++ ")") := by
  rw [NamingError.message, List.map_map]
  rfl

/-- An error that is raised blames the operations that cannot be named. -/
theorem blames_of_error {specification : Specification} {error : NamingError}
    (h : resolveOperations specification = .error error) :
    Blames (declaredOperations specification) error error.message := by
  unfold resolveOperations at h
  dsimp only at h
  rw [namedOperations_eq_map] at h
  split at h
  case h_1 named hfound =>
    obtain ⟨before, first, after, hsplit, hblank, hbefore, rfl⟩ := find?_named_eq_some_iff.mp hfound
    obtain rfl := Except.error.inj h
    exact .missingId hsplit hbefore hblank
  case h_2 hnone =>
    have hidentified := find?_named_eq_none_iff.mp hnone
    split at h
    case isTrue => contradiction
    case isFalse hsome =>
      obtain rfl := Except.error.inj h
      rw [List.filter_map] at hsome ⊢
      rw [message_conflict]
      refine .conflict hidentified (listsShared_iff.mpr rfl) ?_
      simpa using hsome

/-- What can be blamed is. -/
theorem error_of_blames {specification : Specification} {error : NamingError} {message : Text}
    (h : Blames (declaredOperations specification) error message) :
    resolveOperations specification = .error error := by
  unfold resolveOperations
  dsimp only
  rw [namedOperations_eq_map]
  cases h with
  | missingId hsplit hbefore hblank =>
    rw [find?_named_eq_some_iff.mpr ⟨_, _, _, hsplit, hblank, hbefore, rfl⟩]
  | conflict hidentified hlisted hne =>
    have hshared : (declaredOperations specification).filter
        (sharesName ((declaredOperations specification).map (·.named)) ∘ (·.named)) = _ :=
      listsShared_iff.mp hlisted
    rw [find?_named_eq_none_iff.mpr hidentified, List.filter_map, hshared]
    exact if_neg (by simpa using hne)

/-! ## Main statement -/

/-- **Operations are named, or the right ones are blamed.** Naming succeeds exactly if every id has more
than blanks and no two make the same method name. Then each declared operation is returned once, in order,
under its name. An error is raised exactly if it blames the first operation with a blank id or, where no id
is blank, all operations that share their method name, and so its text says. -/
theorem resolveOperations_accepts_or_blames (specification : Specification) :
    let declared := declaredOperations specification
    ((∃ operations, resolveOperations specification = .ok operations) ↔
      (∀ operation ∈ declared, ¬ operation.IsBlank) ∧ (declared.map (·.methodName)).Nodup) ∧
    (∀ operations, resolveOperations specification = .ok operations →
      operations = declared.map (·.named) ∧ (operations.map (·.name)).Nodup) ∧
    ∀ error, resolveOperations specification = .error error ↔ Blames declared error error.message := by
  intro declared
  have hnamed : namedOperations specification = declared.map (·.named) :=
    namedOperations_eq_map specification
  refine ⟨?_, ?_, fun error => ⟨blames_of_error, error_of_blames⟩⟩
  · rw [← nameable_map_named_iff, ← hnamed]
    constructor
    · rintro ⟨operations, h⟩
      obtain ⟨rfl, hnameable⟩ := resolveOperations_eq_ok_iff.mp h
      exact hnameable
    · exact fun hnameable => ⟨_, resolveOperations_eq_ok_iff.mpr ⟨rfl, hnameable⟩⟩
  · intro operations h
    obtain ⟨rfl, hnameable⟩ := resolveOperations_eq_ok_iff.mp h
    exact ⟨hnamed, hnameable.nodup⟩

/-- Two names that are shared across two paths, one of them three times. An operation with a blank id that
comes after them is blamed in their place, and without those that share their names all is well. -/
theorem resolveOperations_accepts_or_blames_pets :
    let pets : Text × List (Text × Operation) :=
      ("/pets", [("get", { id := "listPets" }), ("post", { id := "addPet" })])
    let animals : Text × List (Text × Operation) :=
      ("/animals", [("get", { id := "ListPets" }), ("put", { id := "AddPet" }),
        ("head", { id := "peek" }), ("patch", { id := "listPets" })])
    let blank : Text × List (Text × Operation) := ("/", [("Get", { id := " \t" })])
    (∃ operations, resolveOperations { paths := [pets] } = .ok operations ∧
      (operations.map (·.name)).Nodup) ∧
    (∃ listed, resolveOperations { paths := [pets, animals] } = .error (.conflict listed) ∧
      listed.map (·.method) = (["get", "post", "get", "put", "patch"] : List Text) ∧
      Blames (declaredOperations { paths := [pets, animals] }) (.conflict listed)
        (NamingError.conflict listed).message) ∧
    ∃ error, resolveOperations { paths := [pets, animals, blank] } = .error error ∧
      error.message = "Operation GET / has no operationId" ∧
      Blames (declaredOperations { paths := [pets, animals, blank] }) error error.message := by
  intro pets animals blank
  obtain ⟨-, hnamed, -⟩ := resolveOperations_accepts_or_blames { paths := [pets] }
  obtain ⟨-, -, hshared⟩ := resolveOperations_accepts_or_blames { paths := [pets, animals] }
  obtain ⟨-, -, hblank⟩ := resolveOperations_accepts_or_blames { paths := [pets, animals, blank] }
  exact ⟨⟨_, rfl, (hnamed _ rfl).2⟩, ⟨_, rfl, rfl, (hshared _).mp rfl⟩,
    ⟨_, rfl, by decide +kernel, (hblank _).mp rfl⟩⟩

end OpenApiClient.Client
