import OpenApiClient.Specification

/-!
# Shared Parameters

The parameters that a path shares with its operations are defaults. Of every name and location an
operation has its own parameters, if it declares any, and otherwise the shared ones. Sharing a list again
adds nothing, and a list that is shared later gives way to one that was shared before.

## Layers

- **Keys**: what an operation declares once a list is shared (`declares_withShared`).
- **One key**: `carrying`, and the parameters of one key (`carrying_withShared`).
- **Several lists**: `withShared_withShared`, and from it `withShared_idem`.
- **Main statement**: `withShared_overrides`.
-/

namespace OpenApiClient.Operation

variable {operation : Operation} {shared : List Parameter} {key : Text × Text}

/-! ## Keys -/

theorem declares_iff : operation.declares key ↔ key ∈ operation.parameters.map (·.key) := by
  simp [declares]

/-- The shared parameters that an operation does not override. -/
def inherited (operation : Operation) (shared : List Parameter) : List Parameter :=
  shared.filter fun parameter => !operation.declares parameter.key

theorem withShared_eq : operation.withShared shared =
    { operation with parameters := operation.inherited shared ++ operation.parameters } :=
  rfl

theorem withShared_nil (operation : Operation) : operation.withShared [] = operation :=
  rfl

theorem inherited_eq_filter : operation.inherited shared =
    shared.filter fun parameter => parameter.key ∉ operation.parameters.map (·.key) := by
  apply List.filter_congr
  intro parameter _
  rw [Bool.eq_iff_iff, Bool.not_eq_true', ← Bool.not_eq_true, declares_iff, decide_eq_true_iff]

theorem mem_inherited_iff {parameter : Parameter} :
    parameter ∈ operation.inherited shared ↔
      parameter ∈ shared ∧ ¬ operation.declares parameter.key := by
  simp [inherited]

theorem declares_withShared :
    (operation.withShared shared).declares key ↔
      key ∈ shared.map (·.key) ∨ operation.declares key := by
  simp only [declares_iff, withShared_eq, List.map_append, List.mem_append, List.mem_map,
    mem_inherited_iff]
  constructor
  · rintro (⟨parameter, ⟨hmem, -⟩, rfl⟩ | hown)
    · exact .inl ⟨parameter, hmem, rfl⟩
    · exact .inr hown
  · rintro (⟨parameter, hmem, rfl⟩ | hown)
    · by_cases hdeclares : operation.declares parameter.key
      · exact .inr (List.mem_map.mp (declares_iff.mp hdeclares))
      · exact .inl ⟨parameter, ⟨hmem, by simpa [declares] using hdeclares⟩, rfl⟩
    · exact .inr hown

/-- Inherited parameters have other keys than the own ones, so that keys stay distinct. -/
theorem nodup_keys_withShared (hshared : (shared.map (·.key)).Nodup)
    (hown : (operation.parameters.map (·.key)).Nodup) :
    ((operation.withShared shared).parameters.map (·.key)).Nodup := by
  rw [withShared_eq, List.map_append]
  refine List.nodup_append.mpr ⟨hshared.sublist (List.filter_sublist.map _), hown, ?_⟩
  rintro key hkey _ hmem rfl
  obtain ⟨parameter, hparameter, rfl⟩ := List.mem_map.mp hkey
  exact (mem_inherited_iff.mp hparameter).2 (declares_iff.mpr hmem)

/-! ## One key -/

/-- The parameters of a name and location, in order. -/
def carrying (key : Text × Text) (parameters : List Parameter) : List Parameter :=
  parameters.filter (·.key = key)

theorem carrying_eq_nil_iff : carrying key operation.parameters = [] ↔ ¬ operation.declares key := by
  simp [carrying, declares]

/-- Of every key an operation has its own parameters if there are any, and else the shared ones. -/
theorem carrying_withShared (operation : Operation) (shared : List Parameter) (key : Text × Text) :
    carrying key (operation.withShared shared).parameters =
      if carrying key operation.parameters = [] then carrying key shared
      else carrying key operation.parameters := by
  have hsplit : carrying key (operation.withShared shared).parameters =
      carrying key (operation.inherited shared) ++ carrying key operation.parameters :=
    List.filter_append ..
  rw [hsplit]
  split
  case isTrue hnone =>
    -- Nothing of this key is overridden.
    have hkept : carrying key (operation.inherited shared) = carrying key shared := by
      rw [carrying, inherited, List.filter_filter]
      apply List.filter_congr
      rintro parameter -
      by_cases hkey : parameter.key = key
      · simpa [hkey] using carrying_eq_nil_iff.mp hnone
      · simp [hkey]
    rw [hkept, hnone, List.append_nil]
  case isFalse hsome =>
    -- Everything of this key is.
    have hdropped : carrying key (operation.inherited shared) = [] := by
      rw [carrying, List.filter_eq_nil_iff]
      intro parameter hmem
      rw [decide_eq_true_iff]
      rintro rfl
      exact hsome (carrying_eq_nil_iff.mpr (mem_inherited_iff.mp hmem).2)
    rw [hdropped, List.nil_append]

/-! ## Several lists -/

/-- What is shared after another list gives way to it as it does to the own parameters. -/
theorem withShared_withShared (operation : Operation) (first second : List Parameter) :
    (operation.withShared first).withShared second =
      operation.withShared
        (second.filter (fun parameter => parameter.key ∉ first.map (·.key)) ++ first) := by
  have hinherited : (operation.withShared first).inherited second =
      operation.inherited (second.filter fun parameter => parameter.key ∉ first.map (·.key)) := by
    rw [inherited, inherited, List.filter_filter]
    apply List.filter_congr
    intro parameter _
    rw [Bool.eq_iff_iff, Bool.and_eq_true, Bool.not_eq_true', Bool.not_eq_true', decide_eq_true_iff,
      ← Bool.not_eq_true, ← Bool.not_eq_true, declares_withShared, not_or, and_comm]
  rw [withShared_eq, hinherited]
  simp only [withShared_eq, inherited, List.filter_append, List.append_assoc]

theorem withShared_idem (operation : Operation) (shared : List Parameter) :
    (operation.withShared shared).withShared shared = operation.withShared shared := by
  have hnone : shared.filter (fun parameter => parameter.key ∉ shared.map (·.key)) = [] := by
    rw [List.filter_eq_nil_iff]
    intro parameter hmem
    simpa using ⟨parameter, hmem, rfl⟩
  rw [withShared_withShared, hnone, List.nil_append]

/-! ## Main statement -/

/-- **Sharing parameters is an override by key.** Of every key an operation has its own parameters or else
the shared ones. Its own parameters come last, unchanged, behind those of the shared list that it takes,
in their order. Nothing else about it changes, distinct keys stay distinct, sharing the same list again
changes nothing, and sharing one list after the other is sharing what is new in the second in front of the
first. -/
theorem withShared_overrides (operation : Operation) (shared : List Parameter) :
    (∀ key, carrying key (operation.withShared shared).parameters =
      if carrying key operation.parameters = [] then carrying key shared
      else carrying key operation.parameters) ∧
    (∃ taken, (operation.withShared shared).parameters = taken ++ operation.parameters ∧
      taken.Sublist shared) ∧
    { operation.withShared shared with parameters := operation.parameters } = operation ∧
    ((shared.map (·.key)).Nodup → (operation.parameters.map (·.key)).Nodup →
      ((operation.withShared shared).parameters.map (·.key)).Nodup) ∧
    (operation.withShared shared).withShared shared = operation.withShared shared ∧
    ∀ others, (operation.withShared shared).withShared others =
      operation.withShared
        (others.filter (fun parameter => parameter.key ∉ shared.map (·.key)) ++ shared) := by
  refine ⟨carrying_withShared operation shared, ?_, rfl, nodup_keys_withShared,
    withShared_idem operation shared, withShared_withShared operation shared⟩
  exact ⟨operation.inherited shared, rfl, List.filter_sublist⟩

/-- An operation that overrides one of two shared parameters, and a list that is shared after them and
gives way to both sides. -/
theorem withShared_overrides_pets :
    let petId : Parameter := { name := "petId", location := "path" }
    let limit : Parameter := { name := "limit", location := "query" }
    let ownLimit : Parameter := { name := "limit", location := "query", required := true }
    let headerLimit : Parameter := { name := "limit", location := "header" }
    let operation : Operation := { id := "getPet", parameters := [ownLimit] }
    let shared : List Parameter := [petId, limit]
    let others : List Parameter := [limit, headerLimit, petId]
    (operation.withShared shared).parameters = [petId, ownLimit] ∧
      (shared.map (·.key)).Nodup ∧ (operation.parameters.map (·.key)).Nodup ∧
      ((operation.withShared shared).parameters.map (·.key)).Nodup ∧
      (operation.withShared shared).withShared others =
        operation.withShared [headerLimit, petId, limit] := by
  intro petId limit ownLimit headerLimit operation shared others
  have hshared : (shared.map (·.key)).Nodup := by decide
  have hown : (operation.parameters.map (·.key)).Nodup := by decide
  obtain ⟨-, -, -, hnodup, -, hothers⟩ := withShared_overrides operation shared
  exact ⟨rfl, hshared, hown, hnodup hshared hown, hothers others⟩

end OpenApiClient.Operation
