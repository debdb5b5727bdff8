import OpenApiClient.Proofs.Binding.Images
import OpenApiClient.Proofs.Binding.ParameterLists

/-!
# Spelling of Methods

The item of a path can be written plainly: the methods in lower case and in their order, the parameters under
their own name anywhere among them, and nothing else. A document with an item written plainly is read as
before, but for the spelling that methods keep: it has the same issues, or specifications that are the same
once all methods are in lower case.

## Layers

- **Plain items**: `PlainlySpells`.
- **Operations**: the same parameters are shared (`firstNamed_parameterEntries`), and the same operations are
  read in the same order (`map_pathItem?_of_plainlySpells`).
- **Documents**: from the item to the paths and the whole document.
- **Main statement**: `map_bindDocument_of_plainlySpells`.
-/

namespace OpenApiClient

/-! ## Methods in lower case -/

/-- Methods in lower case. -/
def lowerMethods (operations : List (Text × Operation)) : List (Text × Operation) :=
  operations.map fun entry => (Text.lower entry.1, entry.2)

/-- A specification with all methods in lower case. -/
def Specification.lowered (specification : Specification) : Specification :=
  { specification with
    paths := specification.paths.map fun item => (item.1, lowerMethods item.2) }

namespace Binding

open OpenApiClient.Document
open OpenApiClient.Checked

/-- The known methods are in lower case. -/
theorem lower_of_mem_httpMethods : ∀ method ∈ httpMethods, Text.lower method = method := by
  decide

theorem methodKey?_lower {key : Value} {method : Text} (h : methodKey? key = some method) :
    methodKey? (.text (Text.lower method)) = some (Text.lower method) := by
  have hknown := (methodKey?_eq_some_iff.mp h).2
  exact methodKey?_eq_some_iff.mpr ⟨rfl, by rwa [lower_of_mem_httpMethods _ hknown]⟩

/-! ## Plain items -/

/-- The operations that the entries of a path list, with their methods in lower case. -/
def methodEntries (entries : List (Value × Value)) : List (Value × Value) :=
  entries.filterMap fun raw => (methodKey? raw.1).map fun method => (.text (Text.lower method), raw.2)

/-- The parameters that the entries of a path list, under their own name. -/
def parameterEntries (entries : List (Value × Value)) : List (Value × Value) :=
  (entries.filter (Spells "parameters" ·.1)).map fun raw => (.text "parameters", raw.2)

/-- Whether the second entries are a plain spelling of the first ones: the same operations in their order,
and among them, anywhere, the same parameters. -/
def PlainlySpells (entries result : List (Value × Value)) : Prop :=
  Mixes (methodEntries entries) (parameterEntries entries) result

theorem firstNamed_parameterEntries (entries : List (Value × Value)) :
    firstNamed "parameters" (parameterEntries entries) = firstNamed "parameters" entries := by
  induction entries with
  | nil => rfl
  | cons entry entries ih =>
    unfold parameterEntries at ih ⊢
    by_cases hspells : Spells "parameters" entry.1
    · have hname : Spells "parameters" (.text "parameters") := rfl
      rw [List.filter_cons_of_pos (by simpa using hspells), List.map_cons, firstNamed_cons,
        firstNamed_cons]
      simp only [hname, hspells, if_true]
    · rw [List.filter_cons_of_neg (by simpa using hspells), ih, firstNamed_cons, if_neg hspells]

section

variable {knots : Knots} {entries result : List (Value × Value)}

/-! ## Operations -/

/-- What is read from the entries of a path that name methods. -/
def operationReadings (knots : Knots) (shared : List Parameter) (entries : List (Value × Value)) :
    List (Checked (Text × Operation)) :=
  entries.filterMap fun (key, value) =>
    (methodKey? key).map fun method =>
      (operation knots (orEmpty (.map []) value)).map fun own => (method, own.withShared shared)

/-- A parameter list among the entries is no operation. -/
theorem Mixes.operationReadings_eq {others parameters : List (Value × Value)}
    (h : Mixes others parameters entries) (shared : List Parameter) :
    operationReadings knots shared entries = operationReadings knots shared others := by
  rw [← h.others]
  unfold operationReadings
  rw [List.filterMap_filter]
  congr 1
  funext ⟨key, value⟩
  cases hmethod : methodKey? key with
  | none => simp [hmethod]
  | some method => simp [not_spells_of_methodKey? hmethod]

/-- In lower case the methods are the same. -/
theorem map_operationReadings_methodEntries (shared : List Parameter) :
    (operationReadings knots shared (methodEntries entries)).map
        (Checked.map fun entry => (Text.lower entry.1, entry.2)) =
      (operationReadings knots shared entries).map
        (Checked.map fun entry => (Text.lower entry.1, entry.2)) := by
  unfold operationReadings methodEntries
  rw [List.filterMap_filterMap, List.map_filterMap, List.map_filterMap]
  congr 1
  funext ⟨key, value⟩
  cases hmethod : methodKey? key with
  | none => simp [hmethod]
  | some method =>
    have hknown := (methodKey?_eq_some_iff.mp hmethod).2
    simp only [hmethod, Option.map_some, Option.bind_some, methodKey?_lower hmethod, map_map,
      Function.comp_def, lower_of_mem_httpMethods _ hknown]

theorem map_pathOperations_of_plainlySpells (h : PlainlySpells entries result) :
    (pathOperations knots result).map lowerMethods =
      (pathOperations knots entries).map lowerMethods := by
  have hoperations : ∀ entries, pathOperations knots entries =
      (sharedParameters knots entries).andThen fun shared =>
        upToFirst (operationReadings knots shared entries) := fun _ => rfl
  have hshared : sharedParameters knots result = sharedParameters knots entries := by
    rw [sharedParameters, sharedParameters, h.firstNamed_eq, firstNamed_parameterEntries]
  rw [hoperations, hoperations, hshared, map_andThen, map_andThen]
  congr 1
  funext shared
  unfold lowerMethods
  rw [map_upToFirst, map_upToFirst, h.operationReadings_eq, map_operationReadings_methodEntries]

theorem map_pathItem?_of_plainlySpells (h : PlainlySpells entries result) :
    (pathItem? knots (.map result)).map (Option.map lowerMethods) =
      (pathItem? knots (.map entries)).map (Option.map lowerMethods) := by
  have hitem : ∀ entries, (pathItem? knots (.map entries)).map (Option.map lowerMethods) =
      ((pathOperations knots entries).map lowerMethods).map some := by
    intro entries
    simp only [pathItem?, Knots.content, map_map]
    rfl
  rw [hitem, hitem, map_pathOperations_of_plainlySpells h]

end

/-! ## Documents -/

section

variable {around : Surroundings} {entries result : List (Value × Value)}

/-- The paths of a document are read as before, but for the spelling of methods. -/
theorem map_paths_of_plainlySpells (h : PlainlySpells entries result) :
    (paths around.knots (around.paths (.map result))).map
        (List.map fun item => (item.1, lowerMethods item.2)) =
      (paths around.knots (around.paths (.map entries))).map
        (List.map fun item => (item.1, lowerMethods item.2)) := by
  unfold Surroundings.paths
  rw [paths_map, paths_map, map_assemblePaths, map_assemblePaths]
  simp only [List.map_append, List.map_cons, map_pathItem?_of_plainlySpells h]

/-- A field with one name gives the same image when the value of a key is exchanged for one that is read
with the same image. -/
theorem map_read_exchange {α β : Type} {name : String} {before after : List (Value × Value)}
    {key value value' : Value} {absent : α} {reader : Value → Checked α} {f : α → β}
    (hvalue : value ≠ .null) (hvalue' : value' ≠ .null)
    (h : (reader value').map f = (reader value).map f) :
    (Field.read ⟨name, none⟩ (before ++ (key, value') :: after) absent reader).map f =
      (Field.read ⟨name, none⟩ (before ++ (key, value) :: after) absent reader).map f := by
  cases hbefore : before.findSome? (entryNamed? name) with
  | some given =>
    -- An earlier entry gives the field.
    simp only [Field.read, Field.find?, Option.bind_none, Option.none_or, List.findSome?_append, hbefore,
      Option.some_or, Option.map_some]
  | none =>
    simp only [Field.read, Field.find?, Option.bind_none, Option.none_or, List.findSome?_append, hbefore,
      List.findSome?_cons]
    by_cases hspells : Spells name key
    · have hgiven : ∀ value ≠ Value.null, entryNamed? name (key, value) = some value :=
        fun value hvalue => entryNamed?_eq_some_iff.mpr ⟨hspells, rfl, hvalue⟩
      simp only [hgiven _ hvalue, hgiven _ hvalue', Option.map_some, map_under, h]
    · have hother : ∀ value, entryNamed? name (key, value) = none :=
        fun value => entryNamed?_eq_none_iff.mpr fun h => absurd h hspells
      simp only [hother]

/-- The document is read as before, but for the spelling of methods. -/
theorem map_specification_of_plainlySpells (hkey : Spells "paths" around.key)
    (h : PlainlySpells entries result) :
    (specification (around.document (.map result))).map Specification.lowered =
      (specification (around.document (.map entries))).map Specification.lowered := by
  have hfields : ∀ (openapi : Checked Text) (info : Checked Info)
      (paths : Checked (List (Text × List (Text × Operation)))) (components : Checked Components),
      (Specification.mk <$> openapi <*> info <*> paths <*> components).map Specification.lowered =
        Specification.mk <$> openapi <*> info <*>
          paths.map (List.map fun item => (item.1, lowerMethods item.2)) <*> components := by
    intro openapi info paths components
    cases openapi <;> cases info <;> cases paths <;> cases components <;> rfl
  have hother : ∀ {α : Type} (name : String) (absent : α) (reader : Value → Checked α),
      Text.lower name ≠ Text.lower "paths" →
        Field.read ⟨name, none⟩
            (around.before ++ (around.key, around.paths (.map result)) :: around.after) absent reader =
          Field.read ⟨name, none⟩
            (around.before ++ (around.key, around.paths (.map entries)) :: around.after) absent reader := by
    intro α name absent reader hne
    apply Field.read_exchange
    intro name' hname' hspells
    obtain rfl : name' = name := by simpa [Field.names] using hname'
    exact hne (lower_eq_of_spells hspells hkey)
  simp only [specification, Surroundings.document, part, Knots.content]
  rw [hfields, hfields, hother "openapi" _ _ (by decide), hother "info" _ _ (by decide),
    hother "components" _ _ (by decide)]
  -- What is left are the paths.
  congr 2
  funext _
  apply map_read_exchange Value.noConfusion Value.noConfusion
  exact map_paths_of_plainlySpells h

/-- **Spelling shows in methods only.** When an item is written plainly, the document has the same issues, or
the same specification once all methods are in lower case. -/
theorem map_bindDocument_of_plainlySpells (hkey : Spells "paths" around.key)
    (h : PlainlySpells entries result) :
    (bindDocument (around.document (.map result))).map Specification.lowered =
      (bindDocument (around.document (.map entries))).map Specification.lowered := by
  have hspecification := map_specification_of_plainlySpells hkey h
  unfold bindDocument
  generalize specification (around.document (.map result)) = plain at hspecification ⊢
  generalize specification (around.document (.map entries)) = spelled at hspecification ⊢
  cases plain with
  | valid plain =>
    cases spelled with
    | valid spelled => exact congrArg Except.ok (valid.inj hspecification)
    | _ => contradiction
  | invalid issues =>
    cases spelled with
    | invalid issues' => rw [invalid.inj hspecification]
    | _ => contradiction
  | abandoned =>
    cases spelled with
    | abandoned => rfl
    | _ => contradiction

end

end Binding

end OpenApiClient
