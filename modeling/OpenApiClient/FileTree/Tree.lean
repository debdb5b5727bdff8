/-!
# File Trees

Directories and files without links. A tree is known by what stands at each place; every place is a
name inside a directory, up to the root.
-/

namespace OpenApiClient

/-- A place in a file tree: the names that lead to it, the last one first. The root has none. -/
abbrev Location := List String

/-- What stands at a place. -/
inductive Entry where
  | directory
  | file (bytes : List UInt8)
  /-- A file that gives no bytes when it is read. -/
  | unreadable
  deriving DecidableEq, Repr

/-- A file tree. The newest entry of a place counts. -/
structure FileTree where
  entries : List (Location × Entry)
  /-- The root is a directory. -/
  rooted : entries.lookup [] = some .directory
  /-- What stands at a place stands inside a directory. -/
  closed : ∀ name place, (entries.lookup (name :: place)).isSome →
    entries.lookup place = some .directory

namespace FileTree

/-- The tree that has only a root. -/
def empty : FileTree where
  entries := [([], .directory)]
  rooted := rfl
  closed := by
    intro name place h
    simp [List.lookup_cons] at h

/-- What stands at a place. -/
def entry? (tree : FileTree) (place : Location) : Option Entry :=
  tree.entries.lookup place

/-- Whether a directory stands at a place. -/
def isDirectory (tree : FileTree) (place : Location) : Bool :=
  tree.entry? place == some .directory

/-- The tree with an entry of the given name in a directory. It stays as it is if there is no such
directory, or if the entry would take the place of a directory. -/
def put (tree : FileTree) (name : String) (place : Location) (entry : Entry) : FileTree :=
  if h : tree.entry? place = some .directory ∧ tree.entry? (name :: place) ≠ some .directory then
    { entries := (name :: place, entry) :: tree.entries
      rooted := by
        rw [List.lookup_cons]
        simpa using tree.rooted
      closed := by
        have ne_self : ∀ p : Location, (p == name :: p) = false := fun p => by simp
        intro other parent some_
        rw [List.lookup_cons] at some_ ⊢
        by_cases same : other :: parent = name :: place
        · obtain ⟨rfl, rfl⟩ := List.cons.inj same
          rw [ne_self]
          exact h.1
        · have differs : ((other :: parent) == (name :: place)) = false := by simpa using same
          rw [differs] at some_
          have above := tree.closed other parent some_
          by_cases under : parent = name :: place
          · subst under
            exact absurd above h.2
          · have : (parent == (name :: place)) = false := by simpa using under
            rw [this]
            exact above }
  else tree

/-- The places of a tree, each one once. -/
def places (tree : FileTree) : List Location :=
  (tree.entries.map (·.1)).eraseDups

end FileTree

end OpenApiClient
