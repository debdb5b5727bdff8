import OpenApiClient.Document.Yaml
import OpenApiClient.Proofs.Portion
import OpenApiClient.Proofs.Yaml.Contents

/-!
# Harmless YAML Files

A file that is made of characters, without oversized numbers, in whose document every node is harmless,
is a document whose numbers can be written out, or it is refused because it breaks a rule: of the grammar, of
what nodes may denote, or of which characters a document may hold.

## Layers

- **Trees**: the trees that contents grow into can be written.
- **Files**: `ending_ofBytes_cases`, why a file breaks off.
- **Harmless files**: `isWritable_of_read` and `isGrammatical_of_read`.
-/

namespace OpenApiClient.Document.Yaml

open Std.Do

set_option mvcgen.warning false

/-! ## Trees -/

/-- Whether all contents that there are can be written. -/
def AreWritable (contents : Array (Option Content)) : Prop :=
  ∀ content, some content ∈ contents → content.IsWritable

/-- Whether all trees that are known can be written. -/
def Trees.AreWritable (trees : Trees) : Prop :=
  ∀ value, some value ∈ trees → value.IsWritable

section

variable {contents : Array (Option Content)} {trees : Trees} {id : NodeId}

theorem Content.IsWritable.toValue {content : Content} {valueOf : NodeId → Value}
    (h : content.IsWritable) (hvalueOf : ∀ id, (valueOf id).IsWritable) :
    (content.toValue valueOf).IsWritable := by
  cases content with
  | scalar value => exact h
  | list items => exact .list (List.forall_mem_map.mpr fun item _ => hvalueOf item)
  | pairs entries =>
    exact .list (List.forall_mem_map.mpr fun entry _ => .pair (hvalueOf entry.1) (hvalueOf entry.2))
  | set members => exact .set (List.forall_mem_map.mpr h)
  | map entries =>
    exact .map (List.forall_mem_map.mpr h) (List.forall_mem_map.mpr fun entry _ => hvalueOf entry.2)

theorem AreWritable.content (h : AreWritable contents) {content : Content}
    (hcontent : contents.getD id none = some content) : content.IsWritable := by
  rw [Array.getD_eq_getD_getElem?] at hcontent
  cases hfound : contents[id]? with
  | none => simp [hfound] at hcontent
  | some found =>
    obtain rfl : found = some content := by simpa [hfound] using hcontent
    exact h content (Array.mem_of_getElem? hfound)

theorem Trees.AreWritable.valueOf (h : trees.AreWritable) (id : NodeId) :
    (trees.valueOf id).IsWritable := by
  unfold Trees.valueOf
  rw [Array.getD_eq_getD_getElem?]
  rcases hfound : trees[id]? with - | - | value
  · exact .null
  · exact .null
  · exact h value (Array.mem_of_getElem? hfound)

theorem Trees.AreWritable.grow (h : trees.AreWritable) (hcontents : Yaml.AreWritable contents) :
    (trees.grow contents id).AreWritable := by
  unfold Trees.grow
  split
  case isTrue => exact h
  case isFalse =>
    split
    case h_1 => exact h
    case h_2 content hcontent =>
      split
      case isFalse => exact h
      case isTrue =>
        intro value hvalue
        obtain hvalue | hsame := Array.mem_or_eq_of_mem_setIfInBounds hvalue
        · exact h value hvalue
        · exact Option.some.inj hsame ▸ (hcontents.content hcontent).toValue h.valueOf

theorem Trees.AreWritable.growAll (h : trees.AreWritable) (hcontents : Yaml.AreWritable contents)
    (rounds : Nat) : (trees.growAll contents rounds).AreWritable := by
  induction rounds generalizing trees with
  | zero => exact h
  | succ rounds ih =>
    -- One round goes over all nodes, and each of them adds a tree at most.
    have hround : ((List.range contents.size).reverse.foldl (Trees.grow contents) trees).AreWritable :=
      List.foldlRecOn _ _ h fun _ htrees _ _ => Trees.AreWritable.grow htrees hcontents
    unfold Trees.growAll
    dsimp only
    split
    · exact hround
    · exact ih hround

theorem isWritable_documentOf (h : AreWritable contents) (root : NodeId) :
    (documentOf contents root).IsWritable := by
  unfold documentOf
  extract_lets trees tied valueOf
  have htrees : trees.AreWritable :=
    Trees.AreWritable.growAll (fun value hvalue => by simp at hvalue) h _
  have hvalueOf (id : NodeId) : (valueOf id).IsWritable := by
    unfold valueOf
    split
    · exact htrees.valueOf id
    · exact .knot _
  refine ⟨hvalueOf root, List.forall_mem_map.mpr fun id _ => ?_⟩
  cases hcontent : contents.getD id none with
  | none => exact .null
  | some content => exact (h.content hcontent).toValue hvalueOf

end

/-! ## Files -/

variable {bytes : List UInt8}

/-- A file breaks off at a fault of its bytes or at an unacceptable character. -/
theorem ending_ofBytes_cases {e : Failure} (h : (ReadableText.ofBytes bytes).ending = some e) :
    (∃ fault, (Text.decodeFile bytes).2 = some fault ∧ e = .undecodable fault) ∨ e = .unacceptable := by
  unfold ReadableText.ofBytes at h
  generalize Text.decodeFile bytes = decoded at h ⊢
  obtain ⟨chars, fault⟩ := decoded
  -- Of two troubles, the one in the earlier portion counts.
  cases hindex : chars.findIdx? fun c => !isAcceptable c with
  | none =>
    cases fault with
    | none => simp [hindex] at h
    | some fault => exact .inl ⟨fault, rfl, by simpa [hindex] using h.symm⟩
  | some index =>
    cases fault with
    | none => exact .inr (by simpa [hindex] using h.symm)
    | some fault =>
      simp only [hindex, Option.map_some] at h
      split_ifs at h
      · exact .inl ⟨fault, rfl, (Option.some.inj h).symm⟩
      · exact .inr (Option.some.inj h).symm

theorem chars_ofBytes_prefix (bytes : List UInt8) :
    (ReadableText.ofBytes bytes).chars <+: (Text.decodeFile bytes).1 := by
  unfold ReadableText.ofBytes
  dsimp only
  split
  · exact List.take_prefix _ _
  · exact List.prefix_rfl

/-- A file is refused while its nodes are read because of what its readable part says, or for what ends that
part. -/
theorem isDueTo_of_compose {e : Failure} (h : compose bytes = .error e) :
    e.IsDueTo { rest := (ReadableText.ofBytes bytes).chars, ending := (ReadableText.ofBytes bytes).ending } := by
  unfold compose at h
  extract_lets text at h
  have hspec := @RootedGraph.ofTokens_spec (TokenStream.ofChars text.chars text.ending)
  rw [h] at hspec
  obtain hgrammatical | hfailure := hspec trivial
  · exact .grammar hgrammatical
  · exact TokenStream.isDueTo_of_failure_eq hfailure

/-! ## Harmless files -/

/-- Whether bytes are a text without oversized numbers whose document, if it has one, has harmless nodes. -/
structure IsHarmless (bytes : List UInt8) : Prop where
  text : ∃ cs : List Char, bytes = cs.flatMap String.utf8EncodeChar ∧ ¬ Text.HasOversize cs
  nodes : ∀ rooted, compose bytes = .ok rooted → rooted.graph.IsHarmless

/-- For a short text without escapes it can be computed whether it is harmless. -/
theorem isHarmless_of_all {cs : List Char} (hshort : cs.length ≤ Text.digitLimit) (hplain : '\\' ∉ cs)
    (hnodes : (compose (cs.flatMap String.utf8EncodeChar)).toOption.all
      (fun rooted => decide rooted.graph.IsHarmless) = true) :
    IsHarmless (cs.flatMap String.utf8EncodeChar) := by
  refine ⟨⟨cs, rfl, Text.not_hasOversize hshort hplain⟩, fun rooted hcompose => ?_⟩
  simpa [hcompose, Except.toOption] using hnodes

theorem compose_spec (h : IsHarmless bytes) :
    ⦃⌜True⌝⦄ compose bytes
    ⦃post⟨fun rooted => ⌜rooted.graph.IsHarmless⌝, fun e => ⌜e.IsGrammatical ∨ e = .unacceptable⌝⟩⦄ := by
  intro
  cases hcompose : compose bytes with
  | ok rooted => exact h.nodes rooted hcompose
  | error e =>
    obtain ⟨cs, hbytes, hoversize⟩ := h.text
    have hdecoded : Text.decodeFile bytes = (Text.unifyLineEnds cs, none) := by
      rw [hbytes, Text.decodeFile_flatMap]
    show e.IsGrammatical ∨ e = .unacceptable
    -- Of what a failure may be due to, oversized numbers and undecodable bytes are not there.
    cases isDueTo_of_compose hcompose with
    | grammar hgrammatical => exact .inl hgrammatical
    | oversize hrest =>
      have hchars := chars_ofBytes_prefix bytes
      rw [hdecoded] at hchars
      exact absurd (hrest.of_part hchars.isInfix).of_unifyLineEnds hoversize
    | ending hending =>
      obtain ⟨fault, hfault, -⟩ | hunacceptable := ending_ofBytes_cases hending
      · simp [hdecoded] at hfault
      · exact .inr hunacceptable

theorem read_spec (h : IsHarmless bytes) :
    ⦃⌜True⌝⦄ read bytes
    ⦃post⟨fun document => ⌜document.IsWritable⌝, fun e => ⌜e.IsGrammatical ∨ e = .unacceptable⌝⟩⦄ := by
  have hcompose := compose_spec h
  mvcgen [read, hcompose]
  case vc1 => exact ⟨.null, nofun⟩
  case vc3 rooted root hroot hgraph contents hcontents => exact isWritable_documentOf hcontents root
  case vc4 => exact .inl

/-- **What is read from a harmless file has only numbers that can be written out.** -/
theorem IsHarmless.isWritable_of_read (h : IsHarmless bytes) {document : Document}
    (hread : read bytes = .ok document) : document.IsWritable := by
  have hspec := read_spec h
  rw [hread] at hspec
  exact hspec trivial

/-- **A harmless file is refused only for breaking a rule.** -/
theorem IsHarmless.isGrammatical_of_read (h : IsHarmless bytes) {e : Failure}
    (hread : read bytes = .error e) : e.IsGrammatical ∨ e = .unacceptable := by
  have hspec := read_spec h
  rw [hread] at hspec
  exact hspec trivial

end OpenApiClient.Document.Yaml
