import OpenApiClient.Document.Yaml.Content

/-!
# From Contents to Documents

Turning the contents of nodes into a document: a container stands in the tree wherever it is referred
to. Containers from which a circle of references can be reached have no finite tree; they become the
knots of the document.
-/

namespace OpenApiClient.Document.Yaml

/-! ## Contents as values -/

/-- The containers and scalars that a content refers to. -/
def Content.parts : Content → List NodeId
  | .scalar _ => []
  | .set _ => []
  | .list items => items
  | .pairs entries => entries.flatMap fun (key, value) => [key, value]
  | .map entries => entries.map (·.2)

/-- A content as a value, given the values of its parts. -/
def Content.toValue (valueOf : NodeId → Value) : Content → Value
  | .scalar value => value
  | .set members => .set (members.map (·.value))
  | .list items => .list (items.map valueOf)
  | .pairs entries => .list (entries.map fun (key, value) => .pair (valueOf key) (valueOf value))
  | .map entries => .map (entries.map fun (key, value) => (key.value, valueOf value))

/-! ## Trees -/

/-- The values of the nodes whose trees are known, by number. -/
abbrev Trees := Array (Option Value)

/-- The value of a node whose tree is known. -/
def Trees.valueOf (trees : Trees) (id : NodeId) : Value :=
  (trees.getD id none).getD .null

/-- Whether the tree of a node is known. -/
def Trees.knows (trees : Trees) (id : NodeId) : Bool :=
  (trees.getD id none).isSome

/-- Adds the tree of a node if those of all its parts are known. -/
def Trees.grow (contents : Array (Option Content)) (trees : Trees) (id : NodeId) : Trees :=
  if trees.knows id then trees
  else match contents.getD id none with
    | none => trees
    | some content =>
      if content.parts.all trees.knows then
        trees.setIfInBounds id (some (content.toValue trees.valueOf))
      else trees

/-- The number of nodes whose trees are known. -/
def Trees.count (trees : Trees) : Nat :=
  trees.countP Option.isSome

/-- Adds trees, from the last node to the first, until nothing changes; parts come mostly after the
containers that they belong to. -/
def Trees.growAll (contents : Array (Option Content)) : (rounds : Nat) → Trees → Trees
  | 0, trees => trees
  | rounds + 1, trees =>
    let before := trees.count
    let grown := (List.range contents.size).reverse.foldl (Trees.grow contents) trees
    if grown.count == before then grown else growAll contents rounds grown

/-! ## Documents -/

/-- The document whose nodes have the given contents. -/
def documentOf (contents : Array (Option Content)) (root : NodeId) : Document :=
  let trees := Trees.growAll contents contents.size (Array.replicate contents.size none)
  let tied := (List.range contents.size).filter fun id =>
    (contents.getD id none).isSome && !trees.knows id
  let valueOf (id : NodeId) : Value :=
    if trees.knows id then trees.valueOf id else .knot (tied.idxOf id)
  { root := valueOf root
    knots := tied.map fun id => ((contents.getD id none).map (·.toValue valueOf)).getD .null }

end OpenApiClient.Document.Yaml
