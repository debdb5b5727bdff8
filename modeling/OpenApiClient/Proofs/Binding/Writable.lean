import OpenApiClient.Proofs.Binding.Fields

/-!
# Documents Whose Numbers Can Be Written

Reading a document is given up only at a whole number that is too long to be written out. So a document
without such numbers is read to the end: it gives a specification, or issues.

## Layers

- **Values**: `IsWritable`, for a value and everything in it.
- **Results**: when a result that is put together from others is given up.
- **Readers**: `Concludes`, from scalars over containers and parts to schemas.
- **Main statement**: `specification_ne_abandoned`.
-/

namespace OpenApiClient

/-! ## Values -/

namespace Document

/-- Whether every whole number in a value can be written out; what knots contain is not asked. -/
inductive Value.IsWritable : Value → Prop where
  | scalar {value : Value} (hscalar : value.isContainer = false)
      (hint : ∀ n, value = .int n → (Text.writeInteger? n).isSome) : IsWritable value
  | list {items : List Value} (hitems : ∀ item ∈ items, IsWritable item) : IsWritable (.list items)
  | pair {key value : Value} (hkey : IsWritable key) (hvalue : IsWritable value) :
      IsWritable (.pair key value)
  | set {members : List Value} (hmembers : ∀ member ∈ members, IsWritable member) :
      IsWritable (.set members)
  | map {entries : List (Value × Value)} (hkeys : ∀ entry ∈ entries, IsWritable entry.1)
      (hvalues : ∀ entry ∈ entries, IsWritable entry.2) : IsWritable (.map entries)
  | knot (id : Nat) : IsWritable (.knot id)

namespace Value.IsWritable

theorem null : Value.null.IsWritable :=
  scalar rfl fun _ h => nomatch h

theorem of_map {entries : List (Value × Value)} (h : (Value.map entries).IsWritable) :
    ∀ entry ∈ entries, entry.1.IsWritable ∧ entry.2.IsWritable := by
  cases h with
  | scalar hscalar => contradiction
  | map hkeys hvalues => exact fun entry hentry => ⟨hkeys entry hentry, hvalues entry hentry⟩

/-- What a writable value stands for is writable if the knots are. -/
theorem content {knots : Knots} (hknots : ∀ value ∈ knots, value.IsWritable) {value : Value}
    (h : value.IsWritable) : (knots.content value).IsWritable := by
  by_cases hknot : ∃ id, value = .knot id
  · obtain ⟨id, rfl⟩ := hknot
    rw [Knots.content, List.getD_eq_getElem?_getD]
    cases hcontent : knots[id]? with
    | none => exact null
    | some content => exact hknots content (List.mem_of_getElem? hcontent)
  · have hself : knots.content value = value := by
      cases value <;> first | rfl | exact absurd ⟨_, rfl⟩ hknot
    rwa [hself]

theorem of_elements? {value : Value} {items : List Value} (h : value.IsWritable)
    (hitems : Binding.elements? value = some items) : ∀ item ∈ items, item.IsWritable := by
  cases h with
  | scalar hscalar => cases value <;> contradiction
  | list hmembers => rwa [← Option.some.inj hitems]
  | set hmembers => rwa [← Option.some.inj hitems]
  | pair hkey hvalue => simp [← Option.some.inj hitems, hkey, hvalue]
  | map => contradiction
  | knot => contradiction

end Value.IsWritable

end Document

/-- Whether every whole number in a document can be written out. -/
structure Document.IsWritable (document : Document) : Prop where
  root : document.root.IsWritable
  knots : ∀ value ∈ document.knots, value.IsWritable

/-! ## Results -/

namespace Checked

variable {α β : Type}

theorem map_eq_abandoned_iff {f : α → β} {x : Checked α} : x.map f = .abandoned ↔ x = .abandoned := by
  cases x <;> simp [map]

theorem fmap_eq_abandoned_iff {f : α → β} {x : Checked α} : f <$> x = .abandoned ↔ x = .abandoned :=
  map_eq_abandoned_iff

theorem ap_eq_abandoned_iff {f : Checked (α → β)} {x : Checked α} :
    f.ap x = .abandoned ↔ f = .abandoned ∨ x = .abandoned := by
  cases f <;> cases x <;> simp [ap]

theorem seq_eq_abandoned_iff {f : Checked (α → β)} {x : Checked α} :
    f <*> x = .abandoned ↔ f = .abandoned ∨ x = .abandoned :=
  ap_eq_abandoned_iff

theorem andThen_eq_abandoned_iff {x : Checked α} {next : α → Checked β} :
    x.andThen next = .abandoned ↔
      x = .abandoned ∨ ∃ value, x = .valid value ∧ next value = .abandoned := by
  cases x <;> simp [andThen]

theorem under_eq_abandoned_iff {step : Step} {x : Checked α} :
    x.under step = .abandoned ↔ x = .abandoned := by
  cases x <;> simp [under]

theorem settled_ne_abandoned (x : Checked α) : x.settled ≠ .abandoned := by
  cases x <;> simp [settled, fail]

theorem collect_eq_abandoned_iff {results : List (Checked α)} :
    collect results = .abandoned ↔ .abandoned ∈ results := by
  induction results with
  | nil => simp [collect]
  | cons x xs ih =>
    rw [collect, ap_eq_abandoned_iff, map_eq_abandoned_iff, ih, List.mem_cons, eq_comm]

end Checked

/-! ## Scalars and fields -/

namespace Binding

open OpenApiClient.Document
open OpenApiClient.Checked

variable {α : Type} {knots : Knots} {element : Value → Checked α}

/-- Whether a reader comes to a result on every writable value. -/
def Concludes (reader : Value → Checked α) : Prop :=
  ∀ value, value.IsWritable → reader value ≠ .abandoned

theorem concludes_text : Concludes text := by
  intro value h
  unfold text
  split
  case h_2 n =>
    cases h with
    | scalar hscalar hint =>
      obtain ⟨digits, hdigits⟩ := Option.isSome_iff_exists.mp (hint n rfl)
      simp [hdigits]
  case h_4 => split <;> simp [fail]
  all_goals simp [fail]

theorem entry_ne_abandoned {key : Value} {value : Checked α} (hkey : key.IsWritable)
    (hvalue : value ≠ .abandoned) : entry key value ≠ .abandoned := by
  rw [entry, Ne, under_eq_abandoned_iff, seq_eq_abandoned_iff, fmap_eq_abandoned_iff,
    under_eq_abandoned_iff]
  exact not_or.mpr ⟨concludes_text key hkey, hvalue⟩

/-- Whether every key and every value of some entries is writable. -/
def AreWritable (entries : List (Value × Value)) : Prop :=
  ∀ entry ∈ entries, entry.1.IsWritable ∧ entry.2.IsWritable

theorem read_ne_abandoned {entries : List (Value × Value)} (hentries : AreWritable entries)
    {field : Field} {absent : α} (helement : Concludes element) :
    field.read entries absent element ≠ .abandoned := by
  unfold Field.read
  split
  case h_1 => simp
  case h_2 name value hfind =>
    obtain ⟨key, hmem, -⟩ := (Field.find?_eq_some_iff.mp hfind).firstSpelled.exists_mem
    exact mt under_eq_abandoned_iff.mp (helement value (hentries (key, value) hmem).2)

theorem read?_ne_abandoned {entries : List (Value × Value)} (hentries : AreWritable entries)
    {field : Field} (helement : Concludes element) : field.read? entries element ≠ .abandoned :=
  read_ne_abandoned hentries fun value h => mt map_eq_abandoned_iff.mp (helement value h)

/-! ## Containers and parts -/

section

variable (hknots : ∀ value ∈ knots, value.IsWritable)
include hknots

theorem concludes_list (helement : Concludes element) : Concludes (list knots element) := by
  intro value h
  unfold list
  split
  case h_1 => simp [fail]
  case h_2 items hitems =>
    have hwritable := (h.content hknots).of_elements? hitems
    rw [Ne, collect_eq_abandoned_iff, List.mem_map]
    rintro ⟨⟨item, index⟩, hmem, habandoned⟩
    have hitem : item ∈ items := List.fst_mem_of_mem_zipIdx hmem
    exact helement item (hwritable item hitem) (under_eq_abandoned_iff.mp habandoned)

theorem concludes_mapping (helement : Concludes element) : Concludes (mapping knots element) := by
  intro value h
  have hcontent := h.content hknots
  unfold mapping
  split
  case h_1 entries hentries =>
    rw [hentries] at hcontent
    rw [Ne, map_eq_abandoned_iff, collect_eq_abandoned_iff, List.mem_map]
    rintro ⟨⟨key, value⟩, hmem, habandoned⟩
    obtain ⟨hkey, hvalue⟩ := hcontent.of_map _ hmem
    exact entry_ne_abandoned hkey (helement value hvalue) habandoned
  case h_2 => simp [fail]

/-- A part is read to the end when its reader comes to a result on writable entries. -/
theorem concludes_part {name : String} {reader : List (Value × Value) → Checked α}
    (hreader : ∀ entries, AreWritable entries → reader entries ≠ .abandoned) :
    Concludes (part knots name reader) := by
  intro value h
  have hcontent := h.content hknots
  unfold part
  split
  case h_1 entries hentries =>
    rw [hentries] at hcontent
    exact hreader entries hcontent.of_map
  case h_2 => simp [fail]

theorem concludes_schema (nesting : Nat) (active : List Nat) :
    Concludes (schema knots nesting active) := by
  induction nesting generalizing active with
  | zero =>
    intro value h
    unfold schema
    split <;> simp [fail]
  | succ nesting ih =>
    intro value h
    unfold schema
    split
    case isTrue => simp [fail]
    case isFalse =>
      refine concludes_part hknots (fun entries hentries => ?_) value h
      have hinner := ih (activate active value)
      simp only [ne_eq, seq_eq_abandoned_iff, fmap_eq_abandoned_iff, not_or]
      refine ⟨⟨⟨⟨⟨⟨?_, ?_⟩, ?_⟩, ?_⟩, ?_⟩, ?_⟩, ?_⟩
      · exact read?_ne_abandoned hentries concludes_text
      · exact read?_ne_abandoned hentries concludes_text
      · exact read_ne_abandoned hentries fun _ _ => nofun
      · exact read?_ne_abandoned hentries concludes_text
      · exact read?_ne_abandoned hentries hinner
      · exact read_ne_abandoned hentries (concludes_mapping hknots hinner)
      · exact read_ne_abandoned hentries (concludes_list hknots concludes_text)

theorem concludes_nestedSchema : Concludes (nestedSchema knots) :=
  concludes_schema hknots maxNesting []

theorem concludes_info : Concludes (info knots) := by
  refine concludes_part hknots fun entries hentries => ?_
  simp only [ne_eq, seq_eq_abandoned_iff, fmap_eq_abandoned_iff, not_or]
  exact ⟨read_ne_abandoned hentries concludes_text, read_ne_abandoned hentries concludes_text⟩

theorem concludes_components : Concludes (components knots) := by
  refine concludes_part hknots fun entries hentries => ?_
  rw [ne_eq, fmap_eq_abandoned_iff]
  exact read_ne_abandoned hentries (concludes_mapping hknots (concludes_nestedSchema hknots))

/-- Whatever is given up below a path counts as an issue, so only the keys of the paths matter. -/
theorem concludes_paths : Concludes (paths knots) := by
  intro value h
  have hcontent := h.content hknots
  unfold paths
  split
  case h_1 entries hentries =>
    rw [hentries] at hcontent
    dsimp only
    rw [ne_eq, andThen_eq_abandoned_iff]
    rintro (hitems | ⟨items, -, habandoned⟩)
    · exact settled_ne_abandoned _ hitems
    · rw [map_eq_abandoned_iff, collect_eq_abandoned_iff, List.mem_map] at habandoned
      obtain ⟨⟨⟨key, value⟩, item⟩, hmem, habandoned⟩ := habandoned
      have hkey := (hcontent.of_map _ (List.of_mem_zip hmem).1).1
      refine entry_ne_abandoned hkey ?_ habandoned
      cases item <;> simp [fail]
  case h_2 => simp [fail]

end

/-! ## Main statement -/

/-- **A document whose whole numbers can all be written is read to the end.** -/
theorem specification_ne_abandoned {document : Document} (h : document.IsWritable) :
    specification document ≠ .abandoned := by
  have hknots := h.knots
  unfold specification
  refine concludes_part hknots (fun entries hentries => ?_) document.root h.root
  simp only [ne_eq, seq_eq_abandoned_iff, fmap_eq_abandoned_iff, not_or]
  refine ⟨⟨⟨?_, ?_⟩, ?_⟩, ?_⟩
  · exact read_ne_abandoned hentries concludes_text
  · exact read_ne_abandoned hentries (concludes_info hknots)
  · exact read_ne_abandoned hentries (concludes_paths hknots)
  · exact read_ne_abandoned hentries (concludes_components hknots)

end Binding

end OpenApiClient
