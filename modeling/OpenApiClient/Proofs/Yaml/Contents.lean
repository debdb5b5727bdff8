import OpenApiClient.Document.Yaml
import OpenApiClient.Proofs.JsonNumerals
import OpenApiClient.Proofs.Portion
import OpenApiClient.Proofs.Yaml.Nodes

/-!
# What Harmless Nodes Denote

A scalar that calls for a word, a number or a time may have a text that is none, and a mapping may stand for
a scalar without end. If no node of a graph does that, nodes denote values whose whole numbers can be written
out, or the graph breaks a rule of what nodes may denote.

## Layers

- **Scalars**: `FitsTag`, and the values of scalars that fit their tags.
- **Nodes**: `Node.IsHarmless`, and the keys that harmless nodes denote.
- **Merging**: merging keeps a graph harmless.
- **Filling**: by step, the state of filling stays sound (`Filling.IsSound`).
-/

namespace OpenApiClient.Document.Yaml

open Std.Do

set_option mvcgen.warning false

/-! ## Scalars -/

/-- The words for truth values, in lower case. -/
def truthWords : List Text :=
  ["yes", "true", "on", "no", "false", "off"]

/-- Whether a text is what its tag calls for, if its tag calls for a word, a number or a time; a whole number
must not be too long to be written out. -/
@[mk_iff]
structure FitsTag (tag : String) (text : Text) : Prop where
  truth : tag = boolTag → truthWords.contains (Text.lower text)
  whole : tag = intTag → ∃ n ∈ (integerValue text).toOption, (Text.writeInteger? n).isSome
  float : tag = floatTag → (floatValue text).isOk
  time : tag = timestampTag → (timestampValue text).isOk

instance (tag : String) (text : Text) : Decidable (FitsTag tag text) :=
  decidable_of_iff _ (fitsTag_iff tag text).symm

/-- A stage gives a good result, or fails because a node denotes nothing. -/
abbrev Denotes {α : Type} (good : α → Prop) : PostCond α (.except Failure .pure) :=
  post⟨fun a => ⌜good a⌝, fun e => ⌜e.IsGrammatical⌝⟩

section

variable {tag : String} {text : Text}

theorem exists_boolValue (h : truthWords.contains (Text.lower text) = true) :
    ∃ b, boolValue text = .ok b := by
  unfold boolValue
  generalize Text.lower text = word at h
  dsimp only
  split_ifs with hyes hno
  · exact ⟨true, rfl⟩
  · exact ⟨false, rfl⟩
  · simp only [truthWords, List.contains_eq_mem, List.mem_cons, List.not_mem_nil, or_false,
      decide_eq_true_eq] at h hyes hno
    tauto

theorem exists_of_isOk {ε α : Type} {x : Except ε α} (h : x.isOk = true) : ∃ a, x = .ok a := by
  cases x with
  | error => contradiction
  | ok a => exact ⟨a, rfl⟩

theorem eq_ok_of_mem_toOption {ε α : Type} {x : Except ε α} {a : α} (h : a ∈ x.toOption) : x = .ok a := by
  cases x with
  | error => contradiction
  | ok b => exact congrArg Except.ok (Option.some.inj h)

theorem exists_of_mapError_map {ε φ α β : Type} {x : Except ε α} {f : α → β} {g : ε → φ} {b : β}
    (h : (x.map f).mapError g = .ok b) : ∃ a, f a = b := by
  cases x with
  | error => contradiction
  | ok a => exact ⟨a, Except.ok.inj h⟩

/-- A time is no number. -/
theorem isWritable_of_timestampValue {value : Value} (h : timestampValue text = .ok value) :
    value.IsWritable := by
  unfold timestampValue at h
  dsimp only at h
  split at h
  case h_1 => contradiction
  case h_2 =>
    split at h
    case h_1 =>
      obtain ⟨date, rfl⟩ := exists_of_mapError_map h
      exact .scalar rfl nofun
    case h_2 =>
      obtain ⟨time, rfl⟩ := exists_of_mapError_map h
      exact .scalar rfl nofun

/-- A text that fits its tag has a value that can be written, unless its tag is for none. -/
theorem scalarValue_spec (h : FitsTag tag text) :
    ⦃⌜True⌝⦄ scalarValue tag text ⦃Denotes Value.IsWritable⦄ := by
  unfold scalarValue
  simp only [beq_iff_eq]
  -- One case for each tag that is tried, and one for tags without a value.
  split_ifs with htext hnull hbool hint hfloat hbytes htime
  · exact fun _ => .scalar rfl nofun
  · exact fun _ => .null
  · obtain ⟨b, hb⟩ := exists_boolValue (h.truth hbool)
    rw [hb]
    exact fun _ => .scalar rfl nofun
  · obtain ⟨n, hn, hwritable⟩ := h.whole hint
    rw [eq_ok_of_mem_toOption hn]
    exact fun _ => .scalar rfl fun m hm => Value.int.inj hm ▸ hwritable
  · obtain ⟨x, hx⟩ := exists_of_isOk (h.float hfloat)
    rw [hx]
    exact fun _ => .scalar rfl nofun
  · unfold bytesValue
    split
    · exact fun _ => .scalar rfl nofun
    · exact fun _ => trivial
  · obtain ⟨value, hvalue⟩ := exists_of_isOk (h.time htime)
    rw [hvalue]
    exact fun _ => isWritable_of_timestampValue hvalue
  · exact fun _ => trivial

end

/-! ## Nodes -/

/-- The text of a node that is written as a scalar. -/
def Node.text? (node : Node) : Option Text :=
  match node.body with
  | .scalar text => some text
  | .sequence _ | .mapping _ => none

/-- Whether a node does not mark another one as its scalar, and has what its tag calls for. -/
@[mk_iff]
structure Node.IsHarmless (node : Node) : Prop where
  tag : node.tag ≠ valueTag
  text : ∀ text ∈ node.text?, FitsTag node.tag text

instance (node : Node) : Decidable node.IsHarmless :=
  decidable_of_iff _ (Node.isHarmless_iff node).symm

/-- Whether all nodes of a graph are harmless. -/
def Graph.IsHarmless (graph : Graph) : Prop :=
  ∀ node ∈ graph, node.IsHarmless

instance (graph : Graph) : Decidable graph.IsHarmless :=
  inferInstanceAs (Decidable (∀ node ∈ graph, node.IsHarmless))

namespace Graph

variable {graph : Graph} {id : NodeId} {fuel : Nat}

theorem isHarmless_default : (default : Node).IsHarmless := by
  decide

theorem IsHarmless.node (h : graph.IsHarmless) (id : NodeId) : (graph.node id).IsHarmless := by
  unfold Graph.node
  rw [Array.getD_eq_getD_getElem?]
  cases hnode : graph[id]? with
  | none => exact isHarmless_default
  | some node => exact h node (Array.mem_of_getElem? hnode)

theorem IsHarmless.put (h : graph.IsHarmless) {node : Node} (hnode : node.IsHarmless) :
    (graph.put id node).IsHarmless := by
  intro other hother
  obtain hother | rfl := Array.mem_or_eq_of_mem_setIfInBounds hother
  · exact h other hother
  · exact hnode

theorem IsHarmless.putEntries (h : graph.IsHarmless) (entries : List (NodeId × NodeId)) :
    (graph.putEntries id entries).IsHarmless :=
  h.put ⟨(h.node id).tag, nofun⟩

theorem IsHarmless.plainKey (h : graph.IsHarmless) (entry : NodeId × NodeId) :
    graph.plainKey entry = graph := by
  unfold Graph.plainKey
  exact if_neg (by simpa using (h.node entry.1).tag)

theorem IsHarmless.foldl_plainKey (h : graph.IsHarmless) (entries : List (NodeId × NodeId)) :
    entries.foldl Graph.plainKey graph = graph := by
  induction entries with
  | nil => rfl
  | cons entry entries ih => rw [List.foldl_cons, h.plainKey, ih]

/-- No mapping stands for a scalar. -/
theorem IsHarmless.scalarText (h : graph.IsHarmless) :
    graph.scalarText (fuel + 1) id =
      match (graph.node id).body with
      | .scalar text => .ok text
      | _ => .error .unconstructible := by
  unfold Graph.scalarText
  cases hbody : (graph.node id).body with
  | scalar => rfl
  | sequence => rfl
  | mapping entries =>
    have hnone : (entries.find? fun entry => (graph.node entry.1).tag == valueTag) = none := by
      rw [List.find?_eq_none]
      intro entry _
      simpa using (h.node entry.1).tag
    simp [hnone]

theorem scalarKey_of_harmless (h : graph.IsHarmless) :
    ⦃⌜True⌝⦄ graph.scalarKey id ⦃Denotes fun key => key.value.IsWritable⦄ := by
  unfold scalarKey
  rw [h.scalarText]
  cases hbody : (graph.node id).body with
  | sequence => mvcgen
  | mapping => mvcgen
  | scalar text =>
    -- Only here there is a text, and it fits the tag.
    have htext : text ∈ (graph.node id).text? := by simp [Node.text?, hbody]
    have hvalue := scalarValue_spec ((h.node id).text text htext)
    mvcgen [hvalue]
    case vc1 hmapping => simp [isMapping, hbody] at hmapping

@[spec]
theorem scalarKey_spec :
    ⦃⌜graph.IsHarmless⌝⦄ graph.scalarKey id ⦃Denotes fun key => key.value.IsWritable⦄ :=
  fun h => scalarKey_of_harmless h trivial

@[spec]
theorem mergeSources_spec : ⦃⌜True⌝⦄ mergeSources graph id ⦃Denotes fun _ => True⦄ := by
  mvcgen [mergeSources]

end Graph

/-! ## Merging -/

section

variable {graph : Graph} {id : NodeId} {fuel : Nat}

/-- A step of merging leaves the graph harmless. -/
abbrev KeepsHarmless {α : Type} (step : Merging α) : Prop :=
  ⦃fun graph => ⌜graph.IsHarmless⌝⦄ step
  ⦃post⟨fun _ graph => ⌜graph.IsHarmless⌝, fun e => ⌜e.IsGrammatical⌝⟩⦄

@[spec]
theorem mapM_merging_spec {α β : Type} {step : α → Merging β} (hstep : ∀ a, KeepsHarmless (step a))
    (as : List α) : KeepsHarmless (as.mapM step) := by
  induction as with
  | nil => mvcgen [List.mapM_nil]
  | cons a as ih => mvcgen [List.mapM_cons, hstep, ih]

theorem mergeInto_spec {merged : List (NodeId × NodeId)} : KeepsHarmless (mergeInto fuel merged id) := by
  induction fuel generalizing merged id with
  | zero => mvcgen [mergeInto]
  | succ fuel ih =>
    mvcgen [mergeInto, ih]
    case vc1 graph h entries _ =>
      -- No key is the value indicator, so none becomes text.
      rw [h.foldl_plainKey]
      exact h.putEntries _
    case vc3 graph h entries place _ value _ => exact h.putEntries _

@[spec]
theorem mergeInto_run_spec {merged : List (NodeId × NodeId)} :
    ⦃⌜graph.IsHarmless⌝⦄ (mergeInto fuel merged id graph : Except Failure (Unit × Graph))
    ⦃Denotes fun merged => merged.2.IsHarmless⦄ :=
  fun h => mergeInto_spec graph h

end

/-! ## Filling -/

/-- Whether the keys of a mapping can be written. -/
def HasWritableKeys (entries : List (Key × NodeId)) : Prop :=
  ∀ entry ∈ entries, entry.1.value.IsWritable

theorem HasWritableKeys.mappingOf {entries : List (Key × NodeId)} (h : HasWritableKeys entries) :
    HasWritableKeys (Filler.mappingOf entries) := by
  have hput : ∀ entry ∈ Filler.mappingOf entries, entry.1.value.IsWritable ∧ True :=
    @Json.forall_putAll NodeId Key Key.same (fun key => key.value.IsWritable) (fun _ => True) entries
      fun entry hentry => ⟨h entry hentry, trivial⟩
  exact fun entry hentry => (hput entry hentry).1

/-- Whether the scalars in a content can be written. -/
def Content.IsWritable : Content → Prop
  | .scalar value => value.IsWritable
  | .list _ | .pairs _ => True
  | .set members => ∀ member ∈ members, member.value.IsWritable
  | .map entries => HasWritableKeys entries

theorem Content.isWritable_set {entries : List (Key × NodeId)} (h : HasWritableKeys entries) :
    (Content.set (entries.map (·.1))).IsWritable := by
  intro member hmember
  obtain ⟨entry, hentry, rfl⟩ := List.mem_map.mp hmember
  exact h entry hentry

/-- Whether the graph is harmless and the contents so far can be written. -/
@[mk_iff]
structure Filling.IsSound (filling : Filling) : Prop where
  graph : filling.graph.IsHarmless
  contents : ∀ content, some content ∈ filling.contents → content.IsWritable

attribute [grind =] Filling.isSound_iff

namespace Filler

/-- A step of filling keeps the state sound, and gives a good result. -/
abbrev Keeps {α : Type} (good : α → Prop) (step : Filler α) : Prop :=
  ⦃fun filling => ⌜filling.IsSound⌝⦄ step
  ⦃post⟨fun a filling => ⌜filling.IsSound ∧ good a⌝, fun e => ⌜e.IsGrammatical⌝⟩⦄

variable {id : NodeId}

@[spec]
theorem fail_spec {α : Type} :
    ⦃fun _ => ⌜True⌝⦄ (fail : Filler α) ⦃post⟨fun _ _ => ⌜False⌝, fun e => ⌜e.IsGrammatical⌝⟩⦄ :=
  fun _ _ => trivial

@[spec]
theorem note_spec {content : Content} :
    ⦃fun filling => ⌜filling.IsSound ∧ content.IsWritable⌝⦄ note id content
    ⦃post⟨fun _ filling => ⌜filling.IsSound⌝, fun e => ⌜e.IsGrammatical⌝⟩⦄ := by
  mvcgen [note]
  case vc1 filling h _ =>
    refine ⟨h.1.graph, fun other hother => ?_⟩
    -- A content was there before, or it is the one that is noted.
    obtain hother | hsame := Array.mem_or_eq_of_mem_setIfInBounds hother
    · exact h.1.contents other hother
    · exact Option.some.inj hsame ▸ h.2

@[spec]
theorem meet_spec : Keeps (fun key => ∀ found, key = some found → found.value.IsWritable) (meet id) := by
  mvcgen [meet] with grind [Content.IsWritable]

theorem mapM_filler_spec {α β : Type} {P : β → Prop} {step : α → Filler β}
    (hstep : ∀ a, Keeps P (step a)) (as : List α) :
    Keeps (fun bs => ∀ b ∈ bs, P b) (as.mapM step) := by
  induction as with
  | nil =>
    mvcgen [List.mapM_nil]
    all_goals grind
  | cons a as ih =>
    mvcgen [List.mapM_cons, hstep, ih]
    all_goals grind

@[spec]
theorem entries_spec : Keeps HasWritableKeys (entries id) := by
  have hmapM := @mapM_filler_spec (NodeId × NodeId) (Key × NodeId) fun entry => entry.1.value.IsWritable
  mvcgen [entries, hmapM]
  all_goals grind [HasWritableKeys]

@[spec]
theorem pairs_spec : Keeps (fun _ => True) (pairs id) := by
  have hmapM := @mapM_filler_spec NodeId (NodeId × NodeId) fun _ => True
  mvcgen [pairs, hmapM]
  all_goals grind

@[spec]
theorem items_spec : Keeps (fun _ => True) (items id) := by
  mvcgen [items]
  case inv1 => exact post⟨fun _ filling => ⌜filling.IsSound⌝, fun e => ⌜e.IsGrammatical⌝⟩
  all_goals grind

@[spec]
theorem fill_spec : Keeps (fun _ => True) (fill id) := by
  mvcgen [fill]
  all_goals grind [Content.IsWritable, HasWritableKeys.mappingOf, Content.isWritable_set]

@[spec]
theorem fillAll_spec {rounds : Nat} : Keeps (fun _ => True) (fillAll rounds) := by
  induction rounds with
  | zero => mvcgen [fillAll]
  | succ rounds ih =>
    mvcgen [fillAll, ih]
    -- The containers that wait are filled one after the other, from a sound state each.
    case inv1 => exact post⟨fun _ filling => ⌜filling.IsSound⌝, fun e => ⌜e.IsGrammatical⌝⟩
    all_goals grind

end Filler

namespace Graph

variable {graph : Graph} {id : NodeId}

@[spec]
theorem contentsFrom_spec :
    ⦃⌜graph.IsHarmless⌝⦄ graph.contentsFrom id
    ⦃Denotes fun contents => ∀ content, some content ∈ contents → content.IsWritable⦄ := by
  mvcgen [contentsFrom]
  case vc1 start work h =>
    have hwork : ⦃fun filling => ⌜filling.IsSound⌝⦄ work
        ⦃post⟨fun _ filling => ⌜∀ content, some content ∈ filling.contents → content.IsWritable⌝,
          fun e => ⌜e.IsGrammatical⌝⟩⦄ := by
      mvcgen [work]
      all_goals grind
    exact hwork start ⟨h, by simp [start]⟩

end Graph

end OpenApiClient.Document.Yaml
