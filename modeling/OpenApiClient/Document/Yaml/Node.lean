import OpenApiClient.Document.Value

/-!
# Node Graphs

The nodes of a YAML document, before their tags are acted upon. Nodes are numbered, and containers
refer to their parts by number, so an alias is one more reference to a node, and a node may be a part
of itself.
-/

namespace OpenApiClient.Document.Yaml

/-- The number of a node. -/
abbrev NodeId := Nat

/-- What a node consists of. -/
inductive NodeBody where
  | scalar (text : Text)
  | sequence (items : List NodeId)
  | mapping (entries : List (NodeId × NodeId))
  deriving DecidableEq, Repr, Inhabited

/-- A node: its tag in full, and what it consists of. -/
structure Node where
  tag : String
  body : NodeBody
  deriving DecidableEq, Repr, Inhabited

/-- The nodes of a document, by number. -/
abbrev Graph := Array Node

/-- The node of a number. -/
def Graph.node (graph : Graph) (id : NodeId) : Node :=
  graph.getD id default

/-- The graph with another node of a number. -/
def Graph.put (graph : Graph) (id : NodeId) (node : Node) : Graph :=
  graph.setIfInBounds id node

end OpenApiClient.Document.Yaml
