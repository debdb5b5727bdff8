import OpenApiClient.Proofs.Binding.Keys

/-!
# Images of Results

A function of the values can be applied to results before they are put together, or to what they are put
together to: the issues are the same, in the same order. This holds up to the paths of a document, which are
put together from their keys and from what is read from their items.
-/

namespace OpenApiClient

namespace Checked

variable {α β γ : Type}

/-! ## Combined results -/

theorem map_map (x : Checked α) (f : α → β) (g : β → γ) : (x.map f).map g = x.map (g ∘ f) := by
  cases x <;> rfl

theorem map_andThen (x : Checked α) (next : α → Checked β) (f : β → γ) :
    (x.andThen next).map f = x.andThen fun value => (next value).map f := by
  cases x <;> rfl

theorem andThen_map (x : Checked α) (f : α → β) (next : β → Checked γ) :
    (x.map f).andThen next = x.andThen (next ∘ f) := by
  cases x <;> rfl

theorem map_under (x : Checked α) (step : Step) (f : α → β) :
    (x.under step).map f = (x.map f).under step := by
  cases x <;> rfl

theorem map_settled (x : Checked α) (f : α → β) : x.settled.map f = (x.map f).settled := by
  cases x <;> rfl

theorem map_collect (results : List (Checked α)) (f : α → β) :
    (collect results).map (List.map f) = collect (results.map (map f)) := by
  induction results with
  | nil => rfl
  | cons result results ih =>
    rw [List.map_cons, collect, collect, ← ih]
    cases result <;> cases collect results <;> rfl

theorem map_upToFirst (results : List (Checked α)) (f : α → β) :
    (upToFirst results).map (List.map f) = upToFirst (results.map (map f)) := by
  induction results with
  | nil => rfl
  | cons result results ih =>
    rw [List.map_cons, upToFirst, upToFirst, ← ih, map_andThen, andThen_map]
    congr 1
    funext value
    simp only [map_map, Function.comp_def, List.map_cons]

end Checked

namespace Binding

open OpenApiClient.Document
open OpenApiClient.Checked

variable {α β : Type}

/-! ## Paths -/

theorem map_entry (key : Value) (value : Checked α) (f : α → β) :
    (entry key value).map (fun pair => (pair.1, f pair.2)) = entry key (value.map f) := by
  unfold entry
  rw [map_under]
  congr 1
  cases (text key).under (.key "[key]") <;> cases value <;> rfl

/-- What was read from an item, if that is a mapping. -/
def mappingOnly (item : Option α) : Checked α :=
  match item with
  | some value => .valid value
  | none => .fail .notMapping

/-- Puts paths together from their keys and what was read from their items. -/
def assemblePaths (keys : List Value) (readings : List (Checked (Option α))) :
    Checked (List (Text × α)) :=
  (upToFirst readings).settled.andThen fun items =>
    (collect <| (keys.zip items).map fun (key, item) => entry key (mappingOnly item)).map setKeys

theorem paths_map (knots : Knots) (entries : List (Value × Value)) :
    paths knots (.map entries) =
      assemblePaths (entries.map (·.1)) (entries.map fun raw => pathItem? knots raw.2) := by
  unfold assemblePaths
  simp only [paths, Knots.content, List.zip_map_left, List.map_map]
  congr 1
  funext items
  congr 3
  funext ⟨raw, item⟩
  cases item <;> rfl

theorem map_assemblePaths (keys : List Value) (readings : List (Checked (Option α))) (f : α → β) :
    (assemblePaths keys readings).map (List.map fun pair => (pair.1, f pair.2)) =
      assemblePaths keys (readings.map (Checked.map (Option.map f))) := by
  unfold assemblePaths
  rw [← map_upToFirst, ← map_settled, map_andThen, andThen_map]
  congr 1
  funext items
  -- Keys are set as before, and every entry has its image.
  have hset : List.map (fun pair => (pair.1, f pair.2)) ∘ setKeys =
      setKeys ∘ List.map fun pair : Text × α => (pair.1, f pair.2) := by
    funext pairs
    exact map_setKeys f pairs
  rw [map_map, hset, ← map_map, map_collect, List.map_map, Function.comp_apply, List.zip_map_right,
    List.map_map]
  congr 3
  funext ⟨key, item⟩
  simp only [Function.comp_apply, Prod.map, map_entry]
  cases item <;> rfl

end Binding

end OpenApiClient
