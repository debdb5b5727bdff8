import OpenApiClient.Document.Yaml.Failure
import OpenApiClient.Document.Yaml.Node
import OpenApiClient.Document.Yaml.Tag

/-!
# Merge Keys

An entry of a mapping whose key is the merge indicator stands for the entries of other mappings: of
one, or of several in a sequence, where an earlier one takes precedence. The entries that come in are
put in front of the mapping's own ones, so the latter override them.

Merging changes the graph, and a merged mapping may itself have to be merged first. Every round takes
one merge indicator out of the graph, so their number bounds the work, also where mappings merge each
other in circles.
-/

namespace OpenApiClient.Document.Yaml

/-- A step of merging. -/
abbrev Merging (α : Type) := StateT Graph (Except Failure) α

/-- The entries of a mapping; anything else has none. -/
def Graph.entries (graph : Graph) (id : NodeId) : List (NodeId × NodeId) :=
  match (graph.node id).body with
  | .mapping entries => entries
  | _ => []

/-- Whether a node is a mapping. -/
def Graph.isMapping (graph : Graph) (id : NodeId) : Bool :=
  match (graph.node id).body with
  | .mapping _ => true
  | _ => false

/-- The graph with other entries of a mapping. -/
def Graph.putEntries (graph : Graph) (id : NodeId) (entries : List (NodeId × NodeId)) : Graph :=
  graph.put id { graph.node id with body := .mapping entries }

/-- Whether the key of an entry is the merge indicator. -/
def Graph.isMerge (graph : Graph) (entry : NodeId × NodeId) : Bool :=
  (graph.node entry.1).tag == mergeTag

/-- The number of merge indicators in a graph. -/
def Graph.mergeCount (graph : Graph) : Nat :=
  ((List.range graph.size).flatMap graph.entries).countP graph.isMerge

/-- The graph in which a key that is the value indicator has become text. -/
def Graph.plainKey (graph : Graph) (entry : NodeId × NodeId) : Graph :=
  let key := graph.node entry.1
  if key.tag == valueTag then graph.put entry.1 { key with tag := textTag } else graph

/-- The mappings that the value of a merge indicator names. -/
def mergeSources (graph : Graph) (value : NodeId) : Except Failure (List NodeId) :=
  match (graph.node value).body with
  | .mapping _ => .ok [value]
  | .sequence items => if items.all graph.isMapping then .ok items else .error .unconstructible
  | .scalar _ => .error .unconstructible

/-- Replaces the merge indicators of a mapping by the entries that they stand for; `merged` holds the
entries that came in so far. The number of merge indicators in the graph and one more is fuel
enough. -/
def mergeInto : (fuel : Nat) → (merged : List (NodeId × NodeId)) → NodeId → Merging Unit
  | 0, _, _ => pure ()
  | fuel + 1, merged, id => do
    let graph ← get
    let entries := graph.entries id
    match entries.findIdx? graph.isMerge with
    | none => set ((entries.foldl Graph.plainKey graph).putEntries id (merged ++ entries))
    | some place =>
      set (graph.putEntries id (entries.eraseIdx place))
      let value := (entries.getD place (0, 0)).2
      let sources ← (mergeSources graph value : Except Failure (List NodeId))
      let parts ← sources.mapM fun source => do
        mergeInto fuel [] source
        return (← get).entries source
      mergeInto fuel (merged ++ parts.reverse.flatten) id

end OpenApiClient.Document.Yaml
