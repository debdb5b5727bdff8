import OpenApiClient.Document.Yaml.NodeReader
import OpenApiClient.Proofs.Yaml.Scanning

/-!
# Failures of the Node Reader

Reading nodes fails because a token is wrong, or because the tokens end; then the failure is the one that
ended them. No step of reading replaces that failure by another.

## Layers

- **Failures**: `IsPassedOn`.
- **Steps**: what a step passes on (`Passes`), for the basic ones.
- **Nodes**: the readers that call each other, by one induction on their common bound (`nodesPass`).
- **Documents**: `RootedGraph.ofTokens_spec`.
-/

namespace OpenApiClient.Document.Yaml

open Std.Do

set_option mvcgen.warning false

/-! ## Failures -/

/-- Whether a failure comes from the tokens or is the one that ended them. -/
def Failure.IsPassedOn (ended : Option Failure) (failure : Failure) : Prop :=
  failure.IsGrammatical ∨ ended = some failure

section

variable {ended : Option Failure}

@[simp] theorem isPassedOn_malformed : Failure.malformed.IsPassedOn ended := .inl trivial

@[simp] theorem isPassedOn_misplaced : Failure.misplaced.IsPassedOn ended := .inl trivial

@[simp] theorem isPassedOn_reference : Failure.reference.IsPassedOn ended := .inl trivial

end

namespace Reader

/-! ## Steps -/

/-- Whether a step of reading keeps what ends the tokens, and fails because of them or of that. -/
abbrev Passes {α : Type} (failure : Option Failure) (step : Reader α) : Prop :=
  ⦃fun reading => ⌜reading.failure = failure⌝⦄ step
  ⦃post⟨fun _ reading => ⌜reading.failure = failure⌝, fun e => ⌜e.IsPassedOn failure⌝⟩⦄

variable {failure : Option Failure} {anchor : Option String} {tag : String} {id : NodeId}
  {fuel : Nat}

@[spec]
theorem fail_spec {α : Type} {e : Failure}
    {Q : PostCond α (.arg Reading (.except Failure .pure))} :
    ⦃fun _ => Q.2.1 e⦄ (fail e : Reader α) ⦃Q⦄ :=
  fun _ h => h

@[spec]
theorem peek_spec : Passes failure peek := by
  rintro ⟨tokens, found, _, _, _⟩ (rfl : found = failure)
  cases tokens with
  | cons => exact rfl
  | nil =>
    cases found with
    | none => exact isPassedOn_misplaced
    | some e => exact Or.inr rfl

@[spec]
theorem skip_spec : Passes failure skip := by
  mvcgen [skip]

@[spec]
theorem add_spec {node : Node} : Passes failure (add node) :=
  fun _ h => h

@[spec]
theorem complete_spec {node : Node} : Passes failure (complete id node) := by
  mvcgen [complete]

@[spec]
theorem nameNode_spec : Passes failure (nameNode anchor id) := by
  mvcgen [nameNode]

@[spec]
theorem addEmpty_spec : Passes failure addEmpty :=
  add_spec

@[spec]
theorem properties_spec : Passes failure properties := by
  mvcgen [properties]
  all_goals simp_all

@[spec]
theorem fullTag_spec {given : Option (Option String × String)} :
    Passes failure (fullTag given) := by
  mvcgen [fullTag]
  all_goals simp_all

@[spec]
theorem isTaken_spec : Passes failure (isTaken anchor) := by
  mvcgen [isTaken]

@[spec]
theorem scalar_spec {text : Text} : Passes failure (scalar anchor tag text) := by
  mvcgen [scalar]
  all_goals simp_all

@[spec]
theorem collection_spec {parts : Reader NodeBody} (hparts : Passes failure parts) :
    Passes failure (collection anchor tag parts) := by
  mvcgen [collection, hparts]
  all_goals simp_all

/-! ## Nodes -/

/-- All readers of nodes and parts of nodes with the same bound pass failures on. They call each other
with the bound before, so this is the induction hypothesis for all of them. -/
structure NodesPass (failure : Option Failure) (fuel : Nat) : Prop where
  node : ∀ place, Passes failure (Reader.node fuel place)
  blockItems : ∀ items, Passes failure (Reader.blockItems fuel items)
  indentlessItems : ∀ items, Passes failure (Reader.indentlessItems fuel items)
  blockEntries : ∀ entries, Passes failure (Reader.blockEntries fuel entries)
  flowValue : ∀ closer, Passes failure (Reader.flowValue fuel closer)
  flowPair : ∀ closer, Passes failure (Reader.flowPair fuel closer)
  flowItems : ∀ first items, Passes failure (Reader.flowItems fuel first items)
  flowEntries : ∀ first entries, Passes failure (Reader.flowEntries fuel first entries)

theorem nodesPass_zero : NodesPass failure 0 := by
  constructor <;> intros <;> exact fun _ _ => isPassedOn_misplaced

section

variable (h : NodesPass failure fuel)
include h

theorem NodesPass.node_succ (place : Place) : Passes failure (Reader.node (fuel + 1) place) := by
  have hblockItems := h.blockItems
  have hindentless := h.indentlessItems
  have hblockEntries := h.blockEntries
  have hflowItems := h.flowItems
  have hflowEntries := h.flowEntries
  mvcgen [Reader.node, hblockItems, hindentless, hblockEntries, hflowItems, hflowEntries]
  all_goals simp_all

theorem NodesPass.blockItems_succ (items : List NodeId) :
    Passes failure (Reader.blockItems (fuel + 1) items) := by
  have hnode := h.node
  have hitems := h.blockItems
  mvcgen [Reader.blockItems, hnode, hitems]
  all_goals simp_all

theorem NodesPass.indentlessItems_succ (items : List NodeId) :
    Passes failure (Reader.indentlessItems (fuel + 1) items) := by
  have hnode := h.node
  have hitems := h.indentlessItems
  mvcgen [Reader.indentlessItems, hnode, hitems]
  all_goals simp_all

theorem NodesPass.blockEntries_succ (entries : List (NodeId × NodeId)) :
    Passes failure (Reader.blockEntries (fuel + 1) entries) := by
  have hnode := h.node
  have hentries := h.blockEntries
  mvcgen [Reader.blockEntries, hnode, hentries]
  all_goals simp_all

theorem NodesPass.flowValue_succ (closer : Token) :
    Passes failure (Reader.flowValue (fuel + 1) closer) := by
  have hnode := h.node
  mvcgen [Reader.flowValue, hnode]
  all_goals simp_all

theorem NodesPass.flowPair_succ (closer : Token) :
    Passes failure (Reader.flowPair (fuel + 1) closer) := by
  have hnode := h.node
  have hvalue := h.flowValue
  mvcgen [Reader.flowPair, hnode, hvalue]
  all_goals simp_all

theorem NodesPass.flowItems_succ (first : Bool) (items : List NodeId) :
    Passes failure (Reader.flowItems (fuel + 1) first items) := by
  have hnode := h.node
  have hpair := h.flowPair
  have hitems := h.flowItems
  mvcgen [Reader.flowItems, hnode, hpair, hitems]
  all_goals simp_all

theorem NodesPass.flowEntries_succ (first : Bool) (entries : List (NodeId × NodeId)) :
    Passes failure (Reader.flowEntries (fuel + 1) first entries) := by
  have hnode := h.node
  have hpair := h.flowPair
  have hentries := h.flowEntries
  mvcgen [Reader.flowEntries, hnode, hpair, hentries]
  all_goals simp_all

end

/-- The readers of nodes pass failures on, whatever their bound. -/
theorem nodesPass (failure : Option Failure) (fuel : Nat) : NodesPass failure fuel := by
  induction fuel with
  | zero => exact nodesPass_zero
  | succ fuel h =>
    exact ⟨h.node_succ, h.blockItems_succ, h.indentlessItems_succ, h.blockEntries_succ,
      h.flowValue_succ, h.flowPair_succ, h.flowItems_succ, h.flowEntries_succ⟩

@[spec]
theorem node_spec {place : Place} : Passes failure (node fuel place) :=
  (nodesPass failure fuel).node place

/-! ## Documents -/

@[spec]
theorem skipDocumentEnds_spec : Passes failure (skipDocumentEnds fuel) := by
  induction fuel with
  | zero => mvcgen [skipDocumentEnds]
  | succ fuel ih =>
    mvcgen [skipDocumentEnds, ih]
    all_goals simp_all

@[spec]
theorem directives_spec {versioned : Bool} {handles : List (String × String)} :
    Passes failure (directives fuel versioned handles) := by
  induction fuel generalizing versioned handles with
  | zero => mvcgen [directives]
  | succ fuel ih =>
    mvcgen [directives, ih]
    all_goals simp_all

@[spec]
theorem documentHead_spec : Passes failure (documentHead fuel) := by
  mvcgen [documentHead]
  all_goals simp_all +zetaDelta

@[spec]
theorem documentContent_spec : Passes failure (documentContent fuel) := by
  mvcgen [documentContent]
  all_goals simp_all

@[spec]
theorem onlyDocument_spec : Passes failure (onlyDocument fuel) := by
  mvcgen [onlyDocument]
  all_goals simp_all

theorem Passes.isPassedOn {α : Type} {step : Reader α} (h : Passes failure step) {reading : Reading}
    {e : Failure} (hreading : reading.failure = failure) (herror : step reading = .error e) :
    e.IsPassedOn failure := by
  have hrun : (wp⟦step reading⟧
      (fun a => ⌜a.2.failure = failure⌝, fun e => ⌜e.IsPassedOn failure⌝, ())).down :=
    h reading hreading
  rw [herror] at hrun
  exact hrun

end Reader

/-- **Reading nodes fails because of the tokens or with the failure that ended them.** -/
@[spec]
theorem RootedGraph.ofTokens_spec {stream : TokenStream} :
    ⦃⌜True⌝⦄ RootedGraph.ofTokens stream
    ⦃post⟨fun _ => ⌜True⌝, fun e => ⌜e.IsPassedOn stream.failure⌝⟩⦄ := by
  unfold RootedGraph.ofTokens
  dsimp only
  split
  case h_1 => exact fun _ => trivial
  case h_2 failure hfailure => exact fun _ => Reader.onlyDocument_spec.isPassedOn rfl hfailure

end OpenApiClient.Document.Yaml
