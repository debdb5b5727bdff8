import OpenApiClient.Input

/-!
# Valid Results

When a result that is put together from others is valid: all of them are, and the value is made from
theirs. From this, when lists, parts, operations and whole documents are read, and as what.
-/

namespace OpenApiClient

namespace Checked

variable {α β : Type}

/-! ## Combined results -/

theorem map_eq_valid_iff {f : α → β} {x : Checked α} {result : β} :
    x.map f = .valid result ↔ ∃ value, x = .valid value ∧ f value = result := by
  cases x <;> simp [map]

theorem fmap_eq_valid_iff {f : α → β} {x : Checked α} {result : β} :
    f <$> x = .valid result ↔ ∃ value, x = .valid value ∧ f value = result :=
  map_eq_valid_iff

theorem ap_eq_valid_iff {f : Checked (α → β)} {x : Checked α} {result : β} :
    ap f x = .valid result ↔
      ∃ function, f = .valid function ∧ ∃ value, x = .valid value ∧ function value = result := by
  cases f <;> cases x <;> simp [ap]

theorem seq_eq_valid_iff {f : Checked (α → β)} {x : Checked α} {result : β} :
    f <*> x = .valid result ↔
      ∃ function, f = .valid function ∧ ∃ value, x = .valid value ∧ function value = result :=
  ap_eq_valid_iff

theorem andThen_eq_valid_iff {x : Checked α} {next : α → Checked β} {result : β} :
    x.andThen next = .valid result ↔ ∃ value, x = .valid value ∧ next value = .valid result := by
  cases x <;> simp [andThen]

theorem under_eq_valid_iff {step : Step} {x : Checked α} {value : α} :
    x.under step = .valid value ↔ x = .valid value := by
  cases x <;> simp [under]

theorem settled_eq_valid_iff {x : Checked α} {value : α} :
    x.settled = .valid value ↔ x = .valid value := by
  cases x <;> simp [settled, fail]

theorem collect_eq_valid_iff {results : List (Checked α)} {values : List α} :
    collect results = .valid values ↔ results = values.map .valid := by
  induction results generalizing values with
  | nil => cases values <;> simp [collect]
  | cons result results ih =>
    simp only [collect, ap_eq_valid_iff, map_eq_valid_iff, ih]
    cases values with
    | nil => simp
    | cons value values =>
      simp only [List.map_cons, List.cons.injEq]
      constructor
      · rintro ⟨_, ⟨first, rfl, rfl⟩, rest, rfl, hvalues⟩
        obtain ⟨rfl, rfl⟩ := List.cons.inj hvalues
        exact ⟨rfl, rfl⟩
      · rintro ⟨rfl, rfl⟩
        exact ⟨_, ⟨value, rfl, rfl⟩, values, rfl, rfl⟩

theorem upToFirst_eq_valid_iff {results : List (Checked α)} {values : List α} :
    upToFirst results = .valid values ↔ results = values.map .valid := by
  induction results generalizing values with
  | nil => cases values <;> simp [upToFirst]
  | cons result results ih =>
    simp only [upToFirst, andThen_eq_valid_iff, map_eq_valid_iff, ih]
    cases values with
    | nil => simp
    | cons value values => simp

end Checked

namespace Binding

open OpenApiClient.Document
open OpenApiClient.Checked

variable {α : Type} {knots : Knots}

/-! ## Text -/

/-- A number is read as its digits. -/
theorem text_int {n : Int} {digits : String} (h : Text.writeInteger? n = some digits) :
    text (.int n) = .valid digits := by
  unfold text
  dsimp only
  generalize Text.writeInteger? n = digits? at h ⊢
  subst h
  rfl

/-! ## Containers -/

theorem map_zipIdx_under_eq_iff {element : Value → Checked α} {items : List Value}
    {values : List α} (first : Nat) :
    ((items.zipIdx first).map fun (item, index) =>
        (element item).under (.index (Int.ofNat index))) = values.map .valid ↔
      items.map element = values.map .valid := by
  induction items generalizing values first with
  | nil => simp
  | cons item items ih =>
    cases values with
    | nil => simp
    | cons value values =>
      simp only [List.zipIdx_cons, List.map_cons, List.cons.injEq, under_eq_valid_iff, ih]

theorem list_eq_valid_iff {element : Value → Checked α} {value : Value} {values : List α} :
    list knots element value = .valid values ↔
      ∃ items, elements? (knots.content value) = some items ∧
        items.map element = values.map .valid := by
  unfold list
  split
  case h_1 hnone => simp [hnone, fail]
  case h_2 items hitems =>
    simp only [collect_eq_valid_iff, map_zipIdx_under_eq_iff, hitems, Option.some.injEq,
      exists_eq_left']

theorem part_eq_valid_iff {name : String} {reader : List (Value × Value) → Checked α}
    {value : Value} {result : α} :
    part knots name reader value = .valid result ↔
      ∃ entries, knots.content value = .map entries ∧ reader entries = .valid result := by
  unfold part
  split
  case h_1 entries hentries => simp [hentries]
  case h_2 hother =>
    simp only [fail, reduceCtorEq, false_iff]
    rintro ⟨entries, hentries, -⟩
    exact hother entries hentries

theorem entry_eq_valid_iff {key : Value} {value : Checked α} {result : Text × α} :
    entry key value = .valid result ↔ text key = .valid result.1 ∧ value = .valid result.2 := by
  simp only [entry, under_eq_valid_iff, seq_eq_valid_iff, fmap_eq_valid_iff]
  constructor
  · rintro ⟨_, ⟨name, hname, rfl⟩, own, hown, rfl⟩
    exact ⟨hname, hown⟩
  · rintro ⟨hname, hown⟩
    exact ⟨_, ⟨result.1, hname, rfl⟩, result.2, hown, rfl⟩

theorem mapping_eq_valid_iff {element : Value → Checked α} {value : Value}
    {result : List (Text × α)} :
    mapping knots element value = .valid result ↔
      ∃ entries, knots.content value = .map entries ∧
        ∃ pairs, (entries.map fun raw => entry raw.1 (element raw.2)) = pairs.map .valid ∧
          setKeys pairs = result := by
  unfold mapping
  split
  case h_1 entries hentries =>
    simp only [map_eq_valid_iff, collect_eq_valid_iff, hentries, Value.map.injEq, exists_eq_left']
  case h_2 hother =>
    simp only [fail, reduceCtorEq, false_iff]
    rintro ⟨entries, hentries, -⟩
    exact hother entries hentries

/-! ## Schemas -/

/-- A schema is read when the schemas in it are, with one level of nesting less. -/
theorem schema_succ_eq_valid_iff {nesting : Nat} {active : List Nat} {value : Value} {result : Schema} :
    schema knots (nesting + 1) active value = .valid result ↔
      isActive active value = false ∧ ∃ entries, knots.content value = .map entries ∧
        dollarRefField.read? entries text = .valid result.dollarRef ∧
        refField.read? entries text = .valid result.ref ∧
        typeField.read entries none (fun type => .valid (schemaType knots type)) =
          .valid result.type ∧
        formatField.read? entries text = .valid result.format ∧
        itemsField.read? entries (schema knots nesting (activate active value)) =
          .valid result.items ∧
        propertiesField.read entries []
            (mapping knots (schema knots nesting (activate active value))) =
          .valid result.properties ∧
        requiredField.read entries [] (list knots text) = .valid result.required := by
  unfold schema
  cases hactive : isActive active value with
  | true => simp [fail]
  | false =>
    simp only [Bool.false_eq_true, if_false, true_and, part_eq_valid_iff, seq_eq_valid_iff,
      fmap_eq_valid_iff]
    constructor
    · rintro ⟨entries, hentries, _, ⟨_, ⟨_, ⟨_, ⟨_, ⟨_, ⟨dollarRef, hdollarRef, rfl⟩, ref, href, rfl⟩,
        type, htype, rfl⟩, format, hformat, rfl⟩, items, hitems, rfl⟩, properties, hproperties, rfl⟩,
        required, hrequired, rfl⟩
      exact ⟨entries, hentries, hdollarRef, href, htype, hformat, hitems, hproperties, hrequired⟩
    · rintro ⟨entries, hentries, hdollarRef, href, htype, hformat, hitems, hproperties, hrequired⟩
      cases result
      exact ⟨entries, hentries, _, ⟨_, ⟨_, ⟨_, ⟨_, ⟨_, ⟨_, hdollarRef, rfl⟩, _, href, rfl⟩,
        _, htype, rfl⟩, _, hformat, rfl⟩, _, hitems, rfl⟩, _, hproperties, rfl⟩, _, hrequired, rfl⟩

theorem not_schema_zero_eq_valid {active : List Nat} {value : Value} {result : Schema} :
    schema knots 0 active value ≠ .valid result := by
  unfold schema
  split <;> simp [fail]

/-! ## Operations -/

theorem response_eq_valid_iff {value : Value} {result : Response} :
    response knots value = .valid result ↔
      ∃ entries, knots.content value = .map entries ∧
        Field.read ⟨"description", none⟩ entries ("" : Text) text = .valid result.description ∧
        Field.read? ⟨"content", none⟩ entries (mapping knots (mediaType knots)) =
          .valid result.content := by
  unfold response
  simp only [part_eq_valid_iff, seq_eq_valid_iff, fmap_eq_valid_iff]
  constructor
  · rintro ⟨entries, hentries, _, ⟨description, hdescription, rfl⟩, content, hcontent, rfl⟩
    exact ⟨entries, hentries, hdescription, hcontent⟩
  · rintro ⟨entries, hentries, hdescription, hcontent⟩
    exact ⟨entries, hentries, _, ⟨_, hdescription, rfl⟩, _, hcontent, rfl⟩

theorem operation_eq_valid_iff {value : Value} {result : Operation} :
    operation knots value = .valid result ↔
      ∃ entries, knots.content value = .map entries ∧
        Field.read ⟨"operation_id", some "operationId"⟩ entries ("" : Text) text = .valid result.id ∧
        Field.read ⟨"summary", none⟩ entries ("" : Text) text = .valid result.summary ∧
        Field.read ⟨"tags", none⟩ entries [] (list knots text) = .valid result.tags ∧
        Field.read ⟨"parameters", none⟩ entries [] (list knots (parameter knots)) =
          .valid result.parameters ∧
        Field.read ⟨"responses", none⟩ entries [] (mapping knots (response knots)) =
          .valid result.responses := by
  unfold operation
  simp only [part_eq_valid_iff, seq_eq_valid_iff, fmap_eq_valid_iff]
  constructor
  · rintro ⟨entries, hentries, _, ⟨_, ⟨_, ⟨_, ⟨id, hid, rfl⟩, summary, hsummary, rfl⟩, tags, htags, rfl⟩,
      parameters, hparameters, rfl⟩, responses, hresponses, rfl⟩
    exact ⟨entries, hentries, hid, hsummary, htags, hparameters, hresponses⟩
  · rintro ⟨entries, hentries, hid, hsummary, htags, hparameters, hresponses⟩
    exact ⟨entries, hentries, _, ⟨_, ⟨_, ⟨_, ⟨_, hid, rfl⟩, _, hsummary, rfl⟩, _, htags, rfl⟩,
      _, hparameters, rfl⟩, _, hresponses, rfl⟩

/-! ## Paths -/

theorem pathItem?_eq_some_iff {value : Value} {operations : List (Text × Operation)} :
    pathItem? knots value = .valid (some operations) ↔
      ∃ entries, knots.content value = .map entries ∧
        pathOperations knots entries = .valid operations := by
  unfold pathItem?
  split
  case h_1 entries hentries => simp [hentries, Checked.map_eq_valid_iff]
  case h_2 hother =>
    simp only [Checked.valid.injEq, reduceCtorEq, false_iff]
    rintro ⟨entries, hentries, -⟩
    exact hother entries hentries

/-- Reads one path, which has to be a mapping. -/
def pathItem (knots : Knots) (value : Value) : Checked (List (Text × Operation)) :=
  (pathItem? knots value).andThen fun item =>
    match item with
    | some operations => .valid operations
    | none => .fail .notMapping

theorem pathItem_eq_valid_iff {value : Value} {operations : List (Text × Operation)} :
    pathItem knots value = .valid operations ↔ pathItem? knots value = .valid (some operations) := by
  rw [pathItem, andThen_eq_valid_iff]
  constructor
  · rintro ⟨item, hitem, hread⟩
    cases item with
    | none => exact absurd hread (by simp [fail])
    | some own => rwa [← valid.inj hread]
  · exact fun h => ⟨_, h, rfl⟩

/-- Reading the items of paths first and their keys after that is reading path by path. -/
theorem exists_map_pathItem?_eq_iff {entries : List (Value × Value)}
    {pairs : List (Text × List (Text × Operation))} :
    (∃ items, (entries.map fun (_, item) => pathItem? knots item) = items.map .valid ∧
        ((entries.zip items).map fun ((key, _), item) => entry key (match item with
          | some operations => .valid operations
          | none => .fail .notMapping)) = pairs.map .valid) ↔
      (entries.map fun raw => entry raw.1 (pathItem knots raw.2)) = pairs.map .valid := by
  induction entries generalizing pairs with
  | nil =>
    constructor
    · rintro ⟨items, -, hpairs⟩
      exact hpairs
    · exact fun h => ⟨[], rfl, h⟩
  | cons raw entries ih =>
    cases pairs with
    | nil =>
      constructor
      · rintro ⟨items, hitems, hpairs⟩
        cases items with
        | nil => contradiction
        | cons => contradiction
      · exact fun h => absurd h (List.cons_ne_nil _ _)
    | cons pair pairs =>
      show _ ↔ entry raw.1 (pathItem knots raw.2) :: _ = .valid pair :: _
      rw [List.cons.injEq, ← ih]
      constructor
      · rintro ⟨items, hitems, hpairs⟩
        cases items with
        | nil => contradiction
        | cons item items =>
          obtain ⟨hitem, hitems⟩ := List.cons.inj hitems
          obtain ⟨hpair, hpairs⟩ := List.cons.inj hpairs
          refine ⟨?_, items, hitems, hpairs⟩
          rw [pathItem, show pathItem? knots raw.2 = .valid item from hitem]
          exact hpair
      · rintro ⟨hpair, items, hitems, hpairs⟩
        have hitem := pathItem_eq_valid_iff.mp (entry_eq_valid_iff.mp hpair).2
        rw [pathItem, hitem] at hpair
        exact ⟨some pair.2 :: items, List.cons_eq_cons.mpr ⟨hitem, hitems⟩,
          List.cons_eq_cons.mpr ⟨hpair, hpairs⟩⟩

/-- Paths are accepted when each of them is, although the items are read before the keys. -/
theorem paths_eq_valid_iff {value : Value} {result : List (Text × List (Text × Operation))} :
    paths knots value = .valid result ↔ mapping knots (pathItem knots) value = .valid result := by
  rw [mapping_eq_valid_iff]
  unfold paths
  split
  case h_1 entries hentries =>
    simp only [hentries, Value.map.injEq, exists_eq_left', andThen_eq_valid_iff, settled_eq_valid_iff,
      upToFirst_eq_valid_iff, map_eq_valid_iff, collect_eq_valid_iff]
    simp only [← exists_map_pathItem?_eq_iff]
    constructor
    · rintro ⟨items, hitems, pairs, hpairs, hresult⟩
      exact ⟨pairs, ⟨items, hitems, hpairs⟩, hresult⟩
    · rintro ⟨pairs, ⟨items, hitems, hpairs⟩, hresult⟩
      exact ⟨items, hitems, pairs, hpairs, hresult⟩
  case h_2 hother =>
    simp only [fail, reduceCtorEq, false_iff]
    rintro ⟨entries, hentries, -⟩
    exact hother entries hentries

/-! ## Documents -/

theorem specification_eq_valid_iff {document : Document} {result : Specification} :
    specification document = .valid result ↔
      ∃ entries, document.knots.content document.root = .map entries ∧
        Field.read ⟨"openapi", none⟩ entries ("" : Text) text = .valid result.openapi ∧
        Field.read ⟨"info", none⟩ entries {} (info document.knots) = .valid result.info ∧
        Field.read ⟨"paths", none⟩ entries [] (paths document.knots) = .valid result.paths ∧
        Field.read ⟨"components", none⟩ entries {} (components document.knots) =
          .valid result.components := by
  unfold specification
  simp only [part_eq_valid_iff, seq_eq_valid_iff, fmap_eq_valid_iff]
  constructor
  · rintro ⟨entries, hentries, _, ⟨_, ⟨_, ⟨openapi, hopenapi, rfl⟩, info, hinfo, rfl⟩, paths, hpaths,
      rfl⟩, components, hcomponents, rfl⟩
    exact ⟨entries, hentries, hopenapi, hinfo, hpaths, hcomponents⟩
  · rintro ⟨entries, hentries, hopenapi, hinfo, hpaths, hcomponents⟩
    exact ⟨entries, hentries, _, ⟨_, ⟨_, ⟨_, hopenapi, rfl⟩, _, hinfo, rfl⟩, _, hpaths, rfl⟩,
      _, hcomponents, rfl⟩

theorem bindDocument_eq_ok_iff {document : Document} {result : Specification} :
    bindDocument document = .ok result ↔ specification document = .valid result := by
  unfold bindDocument
  split
  case h_1 hvalid => simp [hvalid]
  case h_2 hinvalid => simp [hinvalid]
  case h_3 habandoned => simp [habandoned]

end Binding

end OpenApiClient
