import OpenApiClient.Document.Yaml.Node
import OpenApiClient.Document.Yaml.Tag
import OpenApiClient.Document.Yaml.TokenStream

/-!
# Reading Nodes

Building the node graph of a document from its tokens. Reading follows the grammar of the tokens and
resolves tags and aliases as it goes, so the first token that is wrong in any way decides about the
failure.

## Layers

- The state: tokens, nodes, anchors, tag handles
- Node properties
- Nodes and collections, by recursion on a bound for the number of tokens
- Documents
-/

namespace OpenApiClient.Document.Yaml

/-! ## The state -/

/-- The state of reading nodes. -/
structure Reading where
  tokens : List Token
  /-- What ends the tokens. -/
  failure : Option Failure
  graph : Graph := #[]
  anchors : List (String × NodeId) := []
  handles : List (String × String) := standardHandles

/-- A step of reading nodes. -/
abbrev Reader (α : Type) := StateT Reading (Except Failure) α

namespace Reader

/-- Fails. -/
def fail {α : Type} (failure : Failure) : Reader α :=
  fun _ => .error failure

/-- The next token; behind the last one waits the failure that ended the stream. -/
def peek : Reader Token := fun reading =>
  match reading.tokens with
  | token :: _ => .ok (token, reading)
  | [] => .error (reading.failure.getD .misplaced)

/-- Skips the next token. -/
def skip : Reader Unit :=
  modify fun reading => { reading with tokens := reading.tokens.drop 1 }

/-- Adds a node and gives its number. -/
def add (node : Node) : Reader NodeId := fun reading =>
  .ok (reading.graph.size, { reading with graph := reading.graph.push node })

/-- Replaces a node that was added before its parts were known. -/
def complete (id : NodeId) (node : Node) : Reader Unit :=
  modify fun reading => { reading with graph := reading.graph.put id node }

/-- Names a node. -/
def nameNode (anchor : Option String) (id : NodeId) : Reader Unit :=
  match anchor with
  | none => pure ()
  | some name => modify fun reading => { reading with anchors := (name, id) :: reading.anchors }

/-- Adds the scalar that stands where nothing is written. -/
def addEmpty : Reader NodeId :=
  add ⟨nullTag, .scalar []⟩

/-! ## Node properties -/

/-- The anchor and the tag in front of a node. -/
structure Properties where
  anchor : Option String := none
  tag : Option (Option String × String) := none

/-- Reads an anchor and a tag in either order; both may be absent. -/
def properties : Reader Properties := do
  match ← peek with
  | .anchor name =>
    skip
    match ← peek with
    | .tag handle suffix =>
      skip
      return ⟨some name, some (handle, suffix)⟩
    | _ => return ⟨some name, none⟩
  | .tag handle suffix =>
    skip
    match ← peek with
    | .anchor name =>
      skip
      return ⟨some name, some (handle, suffix)⟩
    | _ => return ⟨none, some (handle, suffix)⟩
  | _ => return {}

/-- A tag in full. -/
def fullTag (tag : Option (Option String × String)) : Reader (Option String) := do
  match tag with
  | none => return none
  | some (none, suffix) => return some suffix
  | some (some handle, suffix) =>
    match (← get).handles.lookup handle with
    | none => fail .misplaced
    | some expansion => return some (expansion ++ suffix)

/-- The tag of a collection: a missing one, and the mark of an unspecific one, give the default. -/
def collectionTag (tag : Option String) (byDefault : String) : String :=
  match tag with
  | none => byDefault
  | some "!" => byDefault
  | some tag => tag

/-- The tag of a scalar: its look decides where it is plain, or marked as unspecific. -/
def scalarTag (tag : Option String) (plain : Bool) (text : Text) : String :=
  let look := (text.chars?.map implicitTag).getD textTag
  match tag with
  | none => if plain then look else textTag
  | some "!" => look
  | some tag => tag

/-- Whether an anchor is already in use. -/
def isTaken (anchor : Option String) : Reader Bool := do
  let reading ← get
  return anchor.any fun name => reading.anchors.any (·.1 == name)

/-! ## Nodes -/

/-- Where a node stands: this decides which collections it may be. -/
inductive Place where
  | flow
  | block
  /-- A key or a value of a block mapping, where a sequence needs no indentation. -/
  | mappingPart
  deriving DecidableEq, Repr

/-- Whether a token ends a part of a block mapping. -/
def endsBlockPart : Token → Bool
  | .key | .value | .blockEnd => true
  | _ => false

/-- Adds a collection, names it, and lets `parts` read what it consists of. -/
def collection (anchor : Option String) (tag : String) (parts : Reader NodeBody) :
    Reader NodeId := do
  if ← isTaken anchor then fail .reference
  let id ← add ⟨tag, .sequence []⟩
  nameNode anchor id
  skip
  complete id ⟨tag, ← parts⟩
  return id

/-- Adds a scalar and names it. -/
def scalar (anchor : Option String) (tag : String) (text : Text) : Reader NodeId := do
  if ← isTaken anchor then fail .reference
  let id ← add ⟨tag, .scalar text⟩
  nameNode anchor id
  return id

mutual

/-- Reads a node. -/
def node : (fuel : Nat) → Place → Reader NodeId
  | 0, _ => fail .misplaced
  | fuel + 1, place => do
    match ← peek with
    | .reference name =>
      skip
      match (← get).anchors.lookup name with
      | some id => return id
      | none => fail .reference
    | _ =>
      let given ← properties
      let tag ← fullTag given.tag
      let anchor := given.anchor
      match ← peek, place with
      | .blockEntry, .mappingPart =>
        if ← isTaken anchor then fail .reference
        let tag := collectionTag tag sequenceTag
        let id ← add ⟨tag, .sequence []⟩
        nameNode anchor id
        complete id ⟨tag, .sequence (← indentlessItems fuel [])⟩
        return id
      | .scalar text plain, _ =>
        skip
        scalar anchor (scalarTag tag plain text) text
      | .flowSequenceStart, _ =>
        collection anchor (collectionTag tag sequenceTag)
          (.sequence <$> flowItems fuel true [])
      | .flowMappingStart, _ =>
        collection anchor (collectionTag tag mappingTag)
          (.mapping <$> flowEntries fuel true [])
      | token, place =>
        if token == .blockSequenceStart && place != .flow then
          collection anchor (collectionTag tag sequenceTag)
            (.sequence <$> blockItems fuel [])
        else if token == .blockMappingStart && place != .flow then
          collection anchor (collectionTag tag mappingTag)
            (.mapping <$> blockEntries fuel [])
        else if anchor.isSome || tag.isSome then scalar anchor (scalarTag tag true []) []
        else fail .misplaced
termination_by structural fuel => fuel

/-- Reads the items of a block sequence; `items` holds those so far, last one first. -/
def blockItems : (fuel : Nat) → (items : List NodeId) → Reader (List NodeId)
  | 0, _ => fail .misplaced
  | fuel + 1, items => do
    match ← peek with
    | .blockEntry =>
      skip
      let item ← match ← peek with
        | .blockEntry | .blockEnd => addEmpty
        | _ => node fuel .block
      blockItems fuel (item :: items)
    | .blockEnd =>
      skip
      return items.reverse
    | _ => fail .misplaced
termination_by structural fuel => fuel

/-- Reads the items of a sequence that is not indented inside its mapping. -/
def indentlessItems : (fuel : Nat) → (items : List NodeId) → Reader (List NodeId)
  | 0, _ => fail .misplaced
  | fuel + 1, items => do
    match ← peek with
    | .blockEntry =>
      skip
      let token ← peek
      let item ←
        if token == .blockEntry || endsBlockPart token then addEmpty else node fuel .block
      indentlessItems fuel (item :: items)
    | _ => return items.reverse
termination_by structural fuel => fuel

/-- Reads the entries of a block mapping; `entries` holds those so far, last one first. -/
def blockEntries : (fuel : Nat) → (entries : List (NodeId × NodeId)) →
    Reader (List (NodeId × NodeId))
  | 0, _ => fail .misplaced
  | fuel + 1, entries => do
    match ← peek with
    | .key =>
      skip
      let key ← if endsBlockPart (← peek) then addEmpty else node fuel .mappingPart
      let value ← match ← peek with
        | .value => do
          skip
          if endsBlockPart (← peek) then addEmpty else node fuel .mappingPart
        | _ => addEmpty
      blockEntries fuel ((key, value) :: entries)
    | .blockEnd =>
      skip
      return entries.reverse
    | _ => fail .misplaced
termination_by structural fuel => fuel

/-- Reads the value of an entry of a flow collection that `closer` closes; it may be absent. -/
def flowValue : (fuel : Nat) → (closer : Token) → Reader NodeId
  | 0, _ => fail .misplaced
  | fuel + 1, closer => do
    match ← peek with
    | .value =>
      skip
      let token ← peek
      if token == .flowEntry || token == closer then addEmpty else node fuel .flow
    | _ => addEmpty
termination_by structural fuel => fuel

/-- Reads an entry of a flow collection after the mark of a key. -/
def flowPair : (fuel : Nat) → (closer : Token) → Reader (NodeId × NodeId)
  | 0, _ => fail .misplaced
  | fuel + 1, closer => do
    let token ← peek
    let key ←
      if token == .value || token == .flowEntry || token == closer then addEmpty
      else node fuel .flow
    return (key, ← flowValue fuel closer)
termination_by structural fuel => fuel

/-- Reads the items of a flow sequence; an item may be a single entry of a mapping. -/
def flowItems : (fuel : Nat) → (first : Bool) → (items : List NodeId) → Reader (List NodeId)
  | 0, _, _ => fail .misplaced
  | fuel + 1, first, items => do
    match ← peek with
    | .flowSequenceEnd =>
      skip
      return items.reverse
    | token =>
      if !first then
        if token == .flowEntry then skip else fail .misplaced
      match ← peek with
      | .key =>
        skip
        let id ← add ⟨mappingTag, .mapping []⟩
        let pair ← flowPair fuel .flowSequenceEnd
        complete id ⟨mappingTag, .mapping [pair]⟩
        flowItems fuel false (id :: items)
      | .flowSequenceEnd =>
        skip
        return items.reverse
      | _ =>
        let item ← node fuel .flow
        flowItems fuel false (item :: items)
termination_by structural fuel => fuel

/-- Reads the entries of a flow mapping. -/
def flowEntries : (fuel : Nat) → (first : Bool) → (entries : List (NodeId × NodeId)) →
    Reader (List (NodeId × NodeId))
  | 0, _, _ => fail .misplaced
  | fuel + 1, first, entries => do
    match ← peek with
    | .flowMappingEnd =>
      skip
      return entries.reverse
    | token =>
      if !first then
        if token == .flowEntry then skip else fail .misplaced
      match ← peek with
      | .key =>
        skip
        let pair ← flowPair fuel .flowMappingEnd
        flowEntries fuel false (pair :: entries)
      | .flowMappingEnd =>
        skip
        return entries.reverse
      | _ =>
        let key ← node fuel .flow
        flowEntries fuel false ((key, ← addEmpty) :: entries)
termination_by structural fuel => fuel

end

/-! ## Documents -/

/-- Skips the marks of ends of documents. -/
def skipDocumentEnds : (fuel : Nat) → Reader Unit
  | 0 => pure ()
  | fuel + 1 => do
    match ← peek with
    | .documentEnd =>
      skip
      skipDocumentEnds fuel
    | _ => pure ()

/-- Reads directives: at most one version, which must be 1, and no tag handle twice. -/
def directives : (fuel : Nat) → (versioned : Bool) → (handles : List (String × String)) →
    Reader (List (String × String))
  | 0, _, handles => return handles
  | fuel + 1, versioned, handles => do
    match ← peek with
    | .versionDirective major =>
      skip
      if versioned || major != 1 then fail .misplaced
      directives fuel true handles
    | .tagDirective handle expansion =>
      skip
      if handles.any (·.1 == handle) then fail .misplaced
      directives fuel versioned ((handle, expansion) :: handles)
    | .otherDirective =>
      skip
      directives fuel versioned handles
    | _ => return handles

/-- Reads the head of a document up to its start mark. -/
def documentHead (fuel : Nat) : Reader Unit := do
  let handles ← directives fuel false []
  match ← peek with
  | .documentStart =>
    skip
    modify fun reading => { reading with handles := handles ++ standardHandles }
  | _ => fail .misplaced

/-- Reads the content of a document after its start mark. -/
def documentContent (fuel : Nat) : Reader NodeId := do
  match ← peek with
  | .versionDirective _ | .tagDirective .. | .otherDirective | .documentStart | .documentEnd
  | .streamEnd => addEmpty
  | _ => node fuel .block

/-- Reads the only document of a stream, if there is one. -/
def onlyDocument (fuel : Nat) : Reader (Option NodeId) := do
  match ← peek with
  | .streamEnd => return none
  | token =>
    let root ← match token with
      | .versionDirective _ | .tagDirective .. | .otherDirective | .documentStart => do
        documentHead fuel
        documentContent fuel
      | _ => node fuel .block
    skipDocumentEnds fuel
    match ← peek with
    | .streamEnd => return some root
    | _ =>
      documentHead fuel
      fail .reference

end Reader

/-- The nodes of a document with its root; a stream may hold no document at all. -/
structure RootedGraph where
  graph : Graph
  root : Option NodeId

/-- Reads the nodes of the only document of a stream. -/
def RootedGraph.ofTokens (stream : TokenStream) : Except Failure RootedGraph :=
  let fuel := 4 * stream.tokens.length + 16
  match Reader.onlyDocument fuel { tokens := stream.tokens, failure := stream.failure } with
  | .ok (root, reading) => .ok ⟨reading.graph, root⟩
  | .error failure => .error failure

end OpenApiClient.Document.Yaml
