import Mathlib.Data.List.Forall2
import OpenApiClient.Proofs.Binding.Keys
import OpenApiClient.Proofs.Binding.Replacement

/-!
# Operations Around a Replaced Schema

Whatever is put in place of a schema of a document, the operations stay: their paths, methods and ids are
read from other places.

## Layers

- **Outlines**: `outline`, the paths with their methods and ids.
- **Readings**: `Agree`, and lists of readings that agree one by one (`map_eq_map_of_agree`).
- **Places**: an operation keeps its id, a path its methods, and so on to the whole document.
- **Main statement**: `Replaced.outline_eq`.
-/

namespace OpenApiClient.Binding

open OpenApiClient.Document
open OpenApiClient.Checked

/-! ## Outlines -/

/-- The methods of a path with the ids of their operations. -/
def callIds (operations : List (Text × Operation)) : List (Text × Text) :=
  operations.map fun entry => (entry.1, entry.2.id)

/-- The paths with their methods and ids. -/
def outline (paths : List (Text × List (Text × Operation))) : List (Text × List (Text × Text)) :=
  paths.map fun item => (item.1, callIds item.2)

/-! ## Readings -/

/-- Whether two results have the same image under a function if both are valid. -/
def Agree {α β : Type} (f : α → β) (reading other : Checked α) : Prop :=
  ∀ value otherValue, reading = .valid value → other = .valid otherValue → f value = f otherValue

theorem Agree.refl {α β : Type} {f : α → β} (reading : Checked α) : Agree f reading reading := by
  intro value otherValue hvalue hother
  rw [valid.inj (hvalue.symm.trans hother)]

/-- Values that are read one by one agree where their readings do. -/
theorem map_eq_map_of_agree {α β : Type} {f : α → β} {readings others : List (Checked α)}
    {values otherValues : List α} (h : List.Forall₂ (Agree f) readings others)
    (hvalues : readings = values.map .valid) (hothers : others = otherValues.map .valid) :
    values.map f = otherValues.map f := by
  subst hvalues hothers
  rw [List.forall₂_map_left_iff, List.forall₂_map_right_iff] at h
  induction h with
  | nil => rfl
  | cons hsame _ ih => rw [List.map_cons, List.map_cons, ih, hsame _ _ rfl rfl]

theorem forall₂_exchange {α : Type} {R : α → α → Prop} {before after : List α} {given new : α}
    (hrefl : ∀ item, R item item) (h : R given new) :
    List.Forall₂ R (before ++ given :: after) (before ++ new :: after) := by
  apply List.rel_append
  · exact List.forall₂_same.mpr fun item _ => hrefl item
  · exact .cons h (List.forall₂_same.mpr fun item _ => hrefl item)

/-! ## Places -/

section

variable {knots : Knots} {v : Value} {depth : Nat} {old new : Value} {now : Option Value}

/-- An operation keeps its id, because no schema stands there. -/
theorem Replaced.agree_operation (h : Replaced knots v depth (.part .operation) old new now) :
    Agree Operation.id (Binding.operation knots old) (Binding.operation knots new) := by
  intro own other hown hother
  obtain ⟨entries, hentries, hid, -⟩ := operation_eq_valid_iff.mp hown
  obtain ⟨entries', hentries', hid', -⟩ := operation_eq_valid_iff.mp hother
  obtain ⟨field, shape, name, before, key, given, after, value, hcontent, rfl, hfield, htaken, hinner⟩ :=
    h.exists_field (by simp)
  obtain rfl := Value.map.inj (hcontent.symm.trans hentries)
  obtain rfl := Value.map.inj hentries'
  -- The exchanged field is not the id: that expects text, and no schema stands in text.
  have hne : ((⟨"operation_id", some "operationId"⟩, .text) : Field × Shape) ≠ (field, shape) := by
    rintro ⟨⟩
    rcases hinner with hschema | ⟨-, _, hreplaced⟩
    · contradiction
    · nomatch hreplaced
  have hkey := htaken.not_spells hfield (by simp [shapes]) hne
  rw [Field.read_exchange hkey value given] at hid'
  exact valid.inj (hid.symm.trans hid')

theorem pathItem_eq_valid_iff_exists {value : Value} {operations : List (Text × Operation)} :
    pathItem knots value = .valid operations ↔
      ∃ entries, knots.content value = .map entries ∧
        ∃ shared, sharedParameters knots entries = .valid shared ∧
          (entries.filterMap fun raw => (methodKey? raw.1).map fun method =>
            (Binding.operation knots (orEmpty (.map []) raw.2)).map fun own =>
              (method, own.withShared shared)) = operations.map .valid := by
  simp only [pathItem_eq_valid_iff, pathItem?_eq_some_iff, pathOperations, andThen_eq_valid_iff,
    upToFirst_eq_valid_iff]

/-- Whether two entries of a path agree as far as its methods and the ids of its operations go. -/
def CallAgrees (knots : Knots) (raw other : Value × Value) : Prop :=
  raw.1 = other.1 ∧
    ((methodKey? raw.1).isSome → Agree Operation.id (Binding.operation knots (orEmpty (.map []) raw.2))
      (Binding.operation knots (orEmpty (.map []) other.2)))

/-- The entries of a path are the same but for one, which is no operation or keeps its id. -/
theorem Replaced.forall₂_callAgrees (h : Replaced knots v depth .pathItem old new now)
    {entries others : List (Value × Value)} (hentries : knots.content old = .map entries)
    (hothers : knots.content new = .map others) :
    List.Forall₂ (CallAgrees knots) entries others := by
  have hrefl : ∀ raw, CallAgrees knots raw raw := fun raw => ⟨rfl, fun _ => .refl _⟩
  cases h with
  | shared hcontent hkey =>
    obtain rfl := Value.map.inj (hcontent.symm.trans hentries)
    obtain rfl := Value.map.inj hothers
    apply forall₂_exchange hrefl
    refine ⟨rfl, fun hmethod => ?_⟩
    obtain ⟨method, hmethod⟩ := Option.isSome_iff_exists.mp hmethod
    exact absurd hkey (not_spells_of_methodKey? hmethod)
  | operation hcontent _ hreplaced =>
    obtain rfl := Value.map.inj (hcontent.symm.trans hentries)
    obtain rfl := Value.map.inj hothers
    apply forall₂_exchange hrefl
    obtain ⟨hgiven, hnew⟩ := hreplaced.isEmpty_eq_false (by simp)
    refine ⟨rfl, fun _ => ?_⟩
    show Agree _ (Binding.operation knots (orEmpty _ _)) (Binding.operation knots (orEmpty _ _))
    rw [orEmpty_of_isEmpty hgiven, orEmpty_of_isEmpty hnew]
    exact hreplaced.agree_operation

/-- A path keeps its methods and the ids of its operations. -/
theorem Replaced.agree_pathItem (h : Replaced knots v depth .pathItem old new now) :
    Agree callIds (pathItem knots old) (pathItem knots new) := by
  intro operations others hoperations hothers
  obtain ⟨entries, hentries, shared, -, hread⟩ := pathItem_eq_valid_iff_exists.mp hoperations
  obtain ⟨entries', hentries', shared', -, hread'⟩ := pathItem_eq_valid_iff_exists.mp hothers
  have hagree := h.forall₂_callAgrees hentries hentries'
  refine map_eq_map_of_agree (List.rel_filterMap ?_ hagree) hread hread'
  intro raw raw' ⟨hkey, hid⟩
  dsimp only
  rw [← hkey]
  cases hmethod : methodKey? raw.1 with
  | none => exact .none
  | some method =>
    apply Option.Rel.some
    intro entry entry' hentry hentry'
    obtain ⟨own, hown, rfl⟩ := map_eq_valid_iff.mp hentry
    obtain ⟨own', hown', rfl⟩ := map_eq_valid_iff.mp hentry'
    -- Merging the shared parameters in leaves the id alone.
    show (method, own.id) = (method, own'.id)
    rw [hid (by simp [hmethod]) own own' hown hown']

/-- Paths keep their places, methods and the ids of their operations. -/
theorem Replaced.agree_paths (h : Replaced knots v depth (.mapping .pathItem) old new now) :
    Agree outline (paths knots old) (paths knots new) := by
  intro result other hresult hother
  rw [paths_eq_valid_iff, mapping_eq_valid_iff] at hresult hother
  obtain ⟨entries, hentries, pairs, hpairs, rfl⟩ := hresult
  obtain ⟨entries', hentries', pairs', hpairs', rfl⟩ := hother
  cases h with
  | entry hcontent hreplaced =>
    obtain rfl := Value.map.inj (hcontent.symm.trans hentries)
    obtain rfl := Value.map.inj hentries'
    unfold outline
    rw [map_setKeys, map_setKeys]
    congr 1
    refine map_eq_map_of_agree ?_ hpairs hpairs'
    rw [List.map_append, List.map_append, List.map_cons, List.map_cons]
    apply forall₂_exchange Agree.refl
    intro item item' hitem hitem'
    obtain ⟨hkey, hoperations⟩ := entry_eq_valid_iff.mp hitem
    obtain ⟨hkey', hoperations'⟩ := entry_eq_valid_iff.mp hitem'
    show (item.1, callIds item.2) = (item'.1, callIds item'.2)
    rw [valid.inj (hkey.symm.trans hkey'), hreplaced.agree_pathItem _ _ hoperations hoperations']

/-! ## Main statement -/

/-- **Operations stay.** Documents that differ in a schema have the same operations as far as their paths,
methods and ids go, if both are accepted. -/
theorem Replaced.outline_eq {document : Document} {root : Value}
    (h : Replaced document.knots v depth (.part .specification) document.root root now)
    {specification other : Specification} (hspecification : bindDocument document = .ok specification)
    (hother : bindDocument { document with root } = .ok other) :
    outline specification.paths = outline other.paths := by
  rw [bindDocument_eq_ok_iff, specification_eq_valid_iff] at hspecification hother
  obtain ⟨entries, hentries, -, -, hpaths, -⟩ := hspecification
  obtain ⟨entries', hentries', -, -, hpaths', -⟩ := hother
  obtain ⟨field, shape, name, before, key, given, after, value, hcontent, rfl, hfield, htaken, hinner⟩ :=
    h.exists_field (by simp)
  obtain rfl := Value.map.inj (hcontent.symm.trans hentries)
  obtain rfl := Value.map.inj hentries'
  by_cases hsame : ((⟨"paths", none⟩, .mapping .pathItem) : Field × Shape) = (field, shape)
  · obtain ⟨rfl, rfl⟩ := Prod.mk.inj hsame
    rcases hinner with hschema | ⟨hnull, _, hreplaced⟩
    · contradiction
    · rw [Field.read, Field.find?_of_gives htaken.gives] at hpaths
      rw [Field.read, Field.find?_of_gives (htaken.exchange hnull)] at hpaths'
      exact hreplaced.agree_paths _ _ (under_eq_valid_iff.mp hpaths) (under_eq_valid_iff.mp hpaths')
  · have hkey := htaken.not_spells hfield (by simp [shapes]) hsame
    rw [Field.read_exchange hkey value given] at hpaths'
    rw [valid.inj (hpaths.symm.trans hpaths')]

end

end OpenApiClient.Binding
