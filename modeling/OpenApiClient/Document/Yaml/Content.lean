import OpenApiClient.Document.Yaml.Merge
import OpenApiClient.Document.Yaml.ScalarValue

/-!
# Node Contents

What the nodes of a graph denote: scalars become values, containers become lists, sets, mappings and
ordered pairs of what their parts denote. Containers are filled one after the other, those that were
met first come first, so a container may occur in itself. The first node that denotes nothing decides
about the failure.

## Layers

- Contents
- The state: the graph, the contents so far, and the containers that wait to be filled
- Filling one container, and all of them
-/

namespace OpenApiClient.Document.Yaml

/-! ## Contents -/

/-- A key of a mapping, or a member of a set. -/
structure Key where
  value : Value
  /-- The node that wrote not-a-number in another way than by its word: such keys differ. -/
  origin : Option NodeId := none
  deriving Repr, Inhabited

/-- Whether two keys are one. -/
def Key.same (a b : Key) : Bool :=
  a.origin == b.origin && a.value.sameKey b.value

/-- What a node denotes, with references to the nodes of its parts. Keys and members of sets are
always scalars. -/
inductive Content where
  | scalar (value : Value)
  | list (items : List NodeId)
  | pairs (entries : List (NodeId × NodeId))
  | set (members : List Key)
  | map (entries : List (Key × NodeId))
  deriving Repr, Inhabited

/-- The tags of containers. -/
def containerTags : List String :=
  [sequenceTag, mappingTag, setTag, orderedMapTag, pairsTag]

/-- The text of a scalar. A mapping with the value indicator as a key stands for the scalar beside it;
every round goes one mapping deeper. A path that is longer than there are nodes never ends. -/
def Graph.scalarText (graph : Graph) : (fuel : Nat) → NodeId → Except Failure Text
  | 0, _ => .error (.scalar (.mapping .endless))
  | fuel + 1, id =>
    match (graph.node id).body with
    | .scalar text => .ok text
    | .sequence _ => .error .unconstructible
    | .mapping entries =>
      match entries.find? fun entry => (graph.node entry.1).tag == valueTag with
      | some entry => graph.scalarText fuel entry.2
      | none => .error .unconstructible

/-- The key that a scalar denotes. A timestamp may not be written as a mapping. -/
def Graph.scalarKey (graph : Graph) (id : NodeId) : Except Failure Key := do
  let tag := (graph.node id).tag
  let text ← graph.scalarText (graph.size + 1) id
  if tag == timestampTag && graph.isMapping id then throw (.scalar (.mapping .timestamp))
  let value ← scalarValue tag text
  let isNamed := (floatParts text).2 == nanWord
  return ⟨value, if value.isNan && !isNamed then some id else none⟩

/-! ## The state -/

/-- The state of filling containers. -/
structure Filling where
  graph : Graph
  /-- The number of merge indicators in the graph and one more. -/
  mergeFuel : Nat
  /-- The contents so far, by node. -/
  contents : Array (Option Content)
  /-- Whether a container was met, by node. -/
  met : Array Bool
  /-- The containers that wait to be filled, last one first. -/
  waiting : List NodeId := []

/-- A step of filling containers. -/
abbrev Filler (α : Type) := StateT Filling (Except Failure) α

namespace Filler

/-- Fails because a node denotes nothing. -/
def fail {α : Type} : Filler α :=
  fun _ => .error .unconstructible

/-- Notes the content of a node. -/
def note (id : NodeId) (content : Content) : Filler Unit :=
  modify fun filling =>
    { filling with contents := filling.contents.setIfInBounds id (some content) }

/-- Goes over a part of a container: a scalar gives its key; a container waits until it is filled. -/
def meet (id : NodeId) : Filler (Option Key) := do
  let filling ← get
  let tag := (filling.graph.node id).tag
  if containerTags.contains tag then
    if !filling.met.getD id false then
      modify fun filling =>
        { filling with
          met := filling.met.setIfInBounds id true
          waiting := id :: filling.waiting }
    return none
  else
    let key ← (filling.graph.scalarKey id : Except Failure Key)
    note id (.scalar key.value)
    return some key

/-! ## Filling -/

/-- The entries of a mapping after merging, in the order in which they are written; a key must be a
scalar. -/
def entries (id : NodeId) : Filler (List (Key × NodeId)) := do
  let filling ← get
  if !filling.graph.isMapping id then fail
  let ((), graph) ←
    (mergeInto filling.mergeFuel [] id filling.graph : Except Failure (Unit × Graph))
  set { filling with graph }
  (graph.entries id).mapM fun (key, value) => do
    match ← meet key with
    | none => fail
    | some keyValue =>
      let _ ← meet value
      return (keyValue, value)

/-- The pairs of a sequence of mappings with one entry each. -/
def pairs (id : NodeId) : Filler (List (NodeId × NodeId)) := do
  match ((← get).graph.node id).body with
  | .sequence items =>
    items.mapM fun item => do
      match ((← get).graph.node item).body with
      | .mapping [(key, value)] =>
        let _ ← meet key
        let _ ← meet value
        return (key, value)
      | _ => fail
  | _ => fail

/-- The items of a sequence. -/
def items (id : NodeId) : Filler (List NodeId) := do
  match ((← get).graph.node id).body with
  | .sequence items =>
    for item in items do
      let _ ← meet item
    return items
  | _ => fail

/-- The mapping that entries write: a repeated key keeps its place and takes the last value. -/
def mappingOf (entries : List (Key × NodeId)) : List (Key × NodeId) :=
  Value.putAll Key.same entries

/-- Fills a container. -/
def fill (id : NodeId) : Filler Unit := do
  let tag := ((← get).graph.node id).tag
  if tag == sequenceTag then note id (.list (← items id))
  else if tag == mappingTag then note id (.map (mappingOf (← entries id)))
  else if tag == setTag then note id (.set ((mappingOf (← entries id)).map (·.1)))
  else note id (.pairs (← pairs id))

/-- Fills the containers that wait, and those that are met on the way, in rounds. -/
def fillAll : (rounds : Nat) → Filler Unit
  | 0 => pure ()
  | rounds + 1 => do
    let filling ← get
    if filling.waiting.isEmpty then return
    set { filling with waiting := [] }
    for id in filling.waiting.reverse do
      fill id
    fillAll rounds

end Filler

/-- The contents of the nodes that a root leads to, by number. -/
def Graph.contentsFrom (graph : Graph) (root : NodeId) :
    Except Failure (Array (Option Content)) :=
  let start : Filling :=
    { graph, mergeFuel := graph.mergeCount + 1
      contents := Array.replicate graph.size none
      met := Array.replicate graph.size false }
  let work : Filler Unit := do
    let _ ← Filler.meet root
    Filler.fillAll (graph.size + 1)
  (work start).map fun (_, filling) => filling.contents

end OpenApiClient.Document.Yaml
