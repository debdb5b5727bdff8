import OpenApiClient.Proofs.Generation.Naming
import OpenApiClient.Proofs.Generation.Source

/-!
# Insertion

Generation is local. One more operation with an id of its own adds its method and its warnings at the
place that the number of operations in front of it gives, one more schema adds its interface, and
nothing else of the client changes.

## Layers

- **Inserted operations**: `InsertsOperation`, and what it does to the list of all operations
  (`InsertsOperation.flatMap_namedOnPath`).
- **Names**: when the longer list can be named (`nameable_insert_iff`).
- **Main statement**: `generate_insert`.
-/

namespace OpenApiClient.Client

open OpenApiClient.TypeScript

/-! ## Inserted operations -/

/-- An operation with its place and the method name that its id makes. -/
def nameOperation (path method : Text) (operation : Operation) : NamedOperation :=
  ⟨path, method, camelCase operation.id, operation⟩

/-- The operations of one path, each with its method name. -/
def namedOnPath (item : Text × List (Text × Operation)) : List NamedOperation :=
  item.2.map fun (method, operation) => nameOperation item.1 method operation

/-- Paths before and after one operation is inserted, on a path of its own or between others of its path,
with the number of operations in front of it. -/
inductive InsertsOperation (path method : Text) (operation : Operation) :
    Nat → List (Text × List (Text × Operation)) → List (Text × List (Text × Operation)) → Prop
  | newPath (before after : List (Text × List (Text × Operation))) :
    InsertsOperation path method operation (before.flatMap (·.2)).length
      (before ++ after) (before ++ (path, [(method, operation)]) :: after)
  | onPath (before after : List (Text × List (Text × Operation)))
      (ahead behind : List (Text × Operation)) :
    InsertsOperation path method operation ((before.flatMap (·.2)).length + ahead.length)
      (before ++ (path, ahead ++ behind) :: after)
      (before ++ (path, ahead ++ (method, operation) :: behind) :: after)

theorem length_flatMap_namedOnPath (paths : List (Text × List (Text × Operation))) :
    (paths.flatMap namedOnPath).length = (paths.flatMap (·.2)).length := by
  simp only [List.length_flatMap, namedOnPath, List.length_map]

/-- Among all operations the inserted one comes after as many as are in front of it. -/
theorem InsertsOperation.flatMap_namedOnPath {path method : Text} {operation : Operation} {count : Nat}
    {paths longer : List (Text × List (Text × Operation))}
    (h : InsertsOperation path method operation count paths longer) :
    longer.flatMap namedOnPath =
      (paths.flatMap namedOnPath).take count ++
        nameOperation path method operation :: (paths.flatMap namedOnPath).drop count := by
  cases h with
  | newPath before after =>
    have hcount := length_flatMap_namedOnPath before
    rw [List.flatMap_append, List.flatMap_append, List.flatMap_cons,
      List.take_left' hcount, List.drop_left' hcount]
    rfl
  | onPath before after ahead behind =>
    have hcount : (before.flatMap namedOnPath ++ namedOnPath (path, ahead)).length =
        (before.flatMap (·.2)).length + ahead.length := by
      rw [List.length_append, length_flatMap_namedOnPath, namedOnPath, List.length_map]
    -- The cut goes through the operations of the path.
    have hshorter : (before ++ (path, ahead ++ behind) :: after).flatMap namedOnPath =
        (before.flatMap namedOnPath ++ namedOnPath (path, ahead)) ++
          (namedOnPath (path, behind) ++ after.flatMap namedOnPath) := by
      simp only [List.flatMap_append, List.flatMap_cons, namedOnPath, List.map_append,
        List.append_assoc]
    rw [hshorter, List.take_left' hcount, List.drop_left' hcount]
    simp only [List.flatMap_append, List.flatMap_cons, namedOnPath, List.map_append, List.map_cons,
      List.append_assoc, List.cons_append]

theorem namedOperations_eq (specification : Specification) :
    namedOperations specification = specification.paths.flatMap namedOnPath :=
  rfl

/-! ## Names -/

/-- One more operation can be named exactly when its id says something and makes a name that no other
operation has. -/
theorem nameable_insert_iff {before after : List NamedOperation} {named : NamedOperation} :
    Nameable (before ++ named :: after) ↔
      Nameable (before ++ after) ∧ Text.isAllBlank named.operation.id = false ∧
        named.name ∉ (before ++ after).map (·.name) := by
  have hperm : (before ++ named :: after).Perm (named :: (before ++ after)) := List.perm_middle
  have hnames := (hperm.map (·.name)).nodup_iff
  rw [List.map_cons, List.nodup_cons] at hnames
  constructor
  · rintro ⟨hblank, hnodup⟩
    obtain ⟨hfresh, hrest⟩ := hnames.mp hnodup
    refine ⟨⟨?_, hrest⟩, hblank named (hperm.mem_iff.mpr List.mem_cons_self), hfresh⟩
    exact fun other hother => hblank other (hperm.mem_iff.mpr (List.mem_cons_of_mem _ hother))
  · rintro ⟨⟨hblank, hrest⟩, hid, hfresh⟩
    refine ⟨?_, hnames.mpr ⟨hfresh, hrest⟩⟩
    intro other hother
    rcases List.mem_cons.mp (hperm.mem_iff.mp hother) with rfl | hmem
    · exact hid
    · exact hblank other hmem

/-! ## Main statement -/

/-- The text of the interface for a named schema with the empty line that follows it. -/
def schemaText (entry : Text × Schema) : Text :=
  interfaceText (schemaInterface entry.1 entry.2)

theorem flatMap_interfaceText (components : Components) :
    (componentInterfaces components).flatMap interfaceText = components.schemas.flatMap schemaText := by
  rw [componentInterfaces, List.flatMap_map]
  rfl

/-- **Generation is local.** An operation that is inserted with an id of its own adds its method to the
source and its warnings to the others, after those of the operations in front of it. A schema that is
inserted adds its interface after those of the schemas in front of it. Nothing else changes. -/
theorem generate_insert {specification : Specification} {givenName : Option Text}
    {client : GeneratedClient} (h : generate specification givenName = .ok client) :
    (∀ path method operation count paths,
      InsertsOperation path method operation count specification.paths paths →
      Text.isAllBlank operation.id = false →
      camelCase operation.id ∉ (namedOperations specification).map (·.name) →
      let named := nameOperation path method operation
      let before := (namedOperations specification).take count
      let after := (namedOperations specification).drop count
      let version := (versionWarning specification.openapi).toList
      let opening := fileOpening ++ specification.components.schemas.flatMap schemaText ++
        classOpening client.name
      client.source =
          opening ++ before.flatMap methodText ++ (after.flatMap methodText ++ fileClosing) ∧
        client.warnings = version ++ skippedWarnings before ++ skippedWarnings after ∧
        generate { specification with paths } givenName = .ok
          { name := client.name
            warnings := version ++ skippedWarnings before ++ operationWarnings named ++
              skippedWarnings after
            source := opening ++ before.flatMap methodText ++ methodText named ++
              (after.flatMap methodText ++ fileClosing) }) ∧
    (∀ name schema before after, specification.components.schemas = before ++ after →
      let opening := fileOpening ++ before.flatMap schemaText
      let rest := after.flatMap schemaText ++ classOpening client.name ++
        (namedOperations specification).flatMap methodText ++ fileClosing
      client.source = opening ++ rest ∧
        generate { specification with components := ⟨before ++ (name, schema) :: after⟩ } givenName =
          .ok { client with source := opening ++ schemaText (name, schema) ++ rest }) := by
  obtain ⟨rfl, hnameable⟩ := generate_eq_ok_iff.mp h
  constructor
  · intro path method operation count paths hinserts hid hname named before after version opening
    -- With the inserted operation between them, the two parts are the operations of the longer paths.
    have hoperations : namedOperations specification = before ++ after :=
      (List.take_append_drop count _).symm
    have hlonger : namedOperations { specification with paths } = before ++ named :: after :=
      hinserts.flatMap_namedOnPath
    rw [hoperations] at hnameable hname
    refine ⟨?_, ?_, ?_⟩
    · simp only [clientFor, clientFile_text, flatMap_interfaceText, hoperations, opening,
        List.flatMap_append, List.append_assoc]
    · simp only [clientFor, skippedWarnings, hoperations, version, List.flatMap_append,
        List.append_assoc]
    · rw [generate_eq_ok_iff, hlonger]
      refine ⟨?_, nameable_insert_iff.mpr ⟨hnameable, hid, hname⟩⟩
      simp only [clientFor, clientFile_text, flatMap_interfaceText, hlonger, opening, version,
        skippedWarnings, List.flatMap_append, List.flatMap_cons, List.append_assoc]
  · intro name schema before after hschemas opening rest
    refine ⟨?_, ?_⟩
    · simp only [clientFor, clientFile_text, flatMap_interfaceText, hschemas, opening, rest,
        List.flatMap_append, List.append_assoc]
    · rw [generate_eq_ok_iff]
      refine ⟨?_, hnameable⟩
      simp only [clientFor, clientFile_text, flatMap_interfaceText, namedOperations_eq, opening, rest,
        List.flatMap_append, List.flatMap_cons, List.append_assoc]

/-- A method between two others of its path, with a parameter that it leaves out, and an interface in
front of another one. -/
theorem generate_insert_pets :
    let list : Operation := { id := "ListPets" }
    let add : Operation := { id := "addPet", parameters := [{ name := "trace", location := "header" }] }
    let specification : Specification :=
      { openapi := "3.0.0", paths := [("/pets", [("get", list), ("delete", { id := "dropPets" })])]
        components := ⟨[("Pet", {})]⟩ }
    let client := clientFor specification (some "Pets")
    let longer : List (Text × List (Text × Operation)) :=
      [("/pets", [("get", list), ("post", add), ("delete", { id := "dropPets" })])]
    generate specification (some "Pets") = .ok client ∧ client.warnings = [] ∧
      (∃ head tail, client.source = head ++ tail ∧
        generate { specification with paths := longer } (some "Pets") = .ok
          { name := "Pets"
            warnings := ["Skipping header parameter 'trace' of POST /pets"]
            source := head ++ methodText (nameOperation "/pets" "post" add) ++ tail }) ∧
      ∃ head tail, client.source = head ++ tail ∧
        generate { specification with components := ⟨[("Owner", {}), ("Pet", {})]⟩ } (some "Pets") =
          .ok { client with source := head ++ schemaText ("Owner", {}) ++ tail } := by
  intro list add specification client longer
  have h : generate specification (some "Pets") = .ok client := rfl
  obtain ⟨hsource, -, hgenerate⟩ := (generate_insert h).1 "/pets" "post" add 1 longer
    (.onPath [] [] [("get", list)] [("delete", { id := "dropPets" })]) (by decide) (by decide)
  obtain ⟨hsource', hgenerate'⟩ := (generate_insert h).2 "Owner" {} [] [("Pet", {})] rfl
  exact ⟨h, rfl, ⟨_, _, hsource, hgenerate⟩, _, _, hsource', hgenerate'⟩

end OpenApiClient.Client
