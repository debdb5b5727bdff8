import OpenApiClient.FileTree.PathName
import OpenApiClient.FileTree.Tree
import OpenApiClient.Text.Quoted

/-!
# Access to Files

Looking up, reading, creating and writing by path, as an operating system does it: a path is followed
name by name from the root or from the working directory, and the first name that does not lead on
decides about the error.

## Layers

- Errors
- Following a path
- Reading
- Creating directories and writing files
-/

namespace OpenApiClient

/-! ## Errors -/

/-- Why the operating system refuses an access. -/
inductive AccessFault where
  | missing
  | inputOutput
  | occupied
  | notDirectory
  | isDirectory
  | nameTooLong
  deriving DecidableEq, Repr

/-- The number of a fault. -/
def AccessFault.number : AccessFault → Nat
  | .missing => 2
  | .inputOutput => 5
  | .occupied => 17
  | .notDirectory => 20
  | .isDirectory => 21
  | .nameTooLong => 36

/-- The name of a fault. -/
def AccessFault.text : AccessFault → String
  | .missing => "No such file or directory"
  | .inputOutput => "Input/output error"
  | .occupied => "File exists"
  | .notDirectory => "Not a directory"
  | .isDirectory => "Is a directory"
  | .nameTooLong => "File name too long"

/-- A refused access; the path is left out where the file was open already. -/
structure AccessError where
  fault : AccessFault
  path : Option PathName
  deriving DecidableEq, Repr

/-- The wording of a refused access. -/
def AccessError.message (e : AccessError) : String :=
  "[Errno " ++ toString e.fault.number ++ "] " ++ e.fault.text ++
    (e.path.map fun path => ": " ++ Text.quoted path.text).getD ""

/-! ## Following a path -/

/-- A file tree with a working directory. -/
structure FileSystem where
  tree : FileTree
  here : Location
  /-- The working directory is a directory. -/
  here_directory : tree.entry? here = some .directory

namespace FileSystem

/-- The most bytes that a name may have. -/
def nameLimit : Nat := 255

/-- The most bytes that a path may have. -/
def pathLimit : Nat := 4095

/-- Where a path starts. -/
def start (fs : FileSystem) (path : PathName) : Location :=
  if path.isAbsolute then [] else fs.here

/-- Goes from a place to a name in it, which need not exist: `..` leads to the place above. -/
def nameAt (fs : FileSystem) (place : Location) (name : String) : Except AccessFault Location :=
  match fs.tree.entry? place with
  | none => .error .missing
  | some .directory =>
    if name == ".." then .ok place.tail
    else if nameLimit < name.utf8ByteSize then .error .nameTooLong
    else .ok (name :: place)
  | some _ => .error .notDirectory

/-- Follows names, of which the last one comes first. -/
def follow (fs : FileSystem) (start : Location) : List String → Except AccessFault Location
  | [] => .ok start
  | name :: outer => do
    let place ← fs.nameAt (← fs.follow start outer) name
    if (fs.tree.entry? place).isSome then .ok place else .error .missing

/-- The place that a path leads to. -/
def locate (fs : FileSystem) (path : PathName) : Except AccessFault Location :=
  if pathLimit < path.text.utf8ByteSize then .error .nameTooLong
  else fs.follow (fs.start path) path.names

/-- The place of an entry that a path names and that may be yet to create: absent if the path names a
directory by its form alone. -/
def target (fs : FileSystem) (path : PathName) : Except AccessFault (Option (String × Location)) :=
  if pathLimit < path.text.utf8ByteSize then .error .nameTooLong
  else match path.names with
    | [] => .ok none
    | name :: outer => do
      let place ← fs.follow (fs.start path) outer
      let _ ← fs.nameAt place name
      return if name == ".." then none else some (name, place)

/-- What a path leads to. -/
def entryOf (fs : FileSystem) (path : PathName) : Except AccessFault Entry := do
  let place ← fs.locate path
  match fs.tree.entry? place with
  | some entry => .ok entry
  | none => .error .missing

/-- The absolute path of a path, found without looking at the tree: `..` takes the last name away. -/
def resolve (fs : FileSystem) (path : PathName) : PathName :=
  { slashes := "/"
    names := path.names.foldr (fun name place => if name == ".." then place.tail else name :: place)
      (fs.start path) }

/-! ## Reading -/

/-- Whether a path leads to a file. -/
def isFile (fs : FileSystem) (path : PathName) : Except AccessError Bool :=
  match fs.entryOf path with
  | .ok .directory => .ok false
  | .ok _ => .ok true
  | .error .nameTooLong => .error ⟨.nameTooLong, some path⟩
  | .error _ => .ok false

/-- The bytes of a file. -/
def bytesOf (fs : FileSystem) (path : PathName) : Except AccessError (List UInt8) :=
  match fs.entryOf path with
  | .ok (.file bytes) => .ok bytes
  | .ok .unreadable => .error ⟨.inputOutput, none⟩
  | .ok .directory => .error ⟨.isDirectory, some path⟩
  | .error fault => .error ⟨fault, some path⟩

/-! ## Creating and writing -/

/-- The file system with an entry of the given name at a place. -/
def put (fs : FileSystem) (name : String) (place : Location) (entry : Entry) : FileSystem where
  tree := fs.tree.put name place entry
  here := fs.here
  here_directory := by
    have old := fs.here_directory
    unfold FileTree.put
    split
    · rename_i h
      unfold FileTree.entry? at old ⊢
      rw [List.lookup_cons]
      by_cases same : fs.here = name :: place
      · rw [same] at old
        exact absurd old h.2
      · have : (fs.here == (name :: place)) = false := by simpa using same
        rw [this]
        exact old
    · exact old

/-- Creates one directory. -/
def makeDirectory (fs : FileSystem) (path : PathName) : Except AccessFault FileSystem :=
  match fs.target path with
  | .error fault => .error fault
  | .ok none => .error .occupied
  | .ok (some (name, place)) =>
    match fs.tree.entry? (name :: place) with
    | some _ => .error .occupied
    | none => .ok (fs.put name place .directory)

/-- Creates a directory unless there is one already. -/
def haveDirectory (fs : FileSystem) (path : PathName) : Except AccessFault FileSystem :=
  match fs.makeDirectory path with
  | .ok made => .ok made
  | .error .missing => .error .missing
  | .error fault =>
    match fs.entryOf path with
    | .ok .directory => .ok fs
    | _ => .error fault

/-- Creates the directory of the given names (the last one first) and those around it, as far as they
are missing. The directories that were created before a refusal remain. -/
def haveDirectories (slashes : String) (fs : FileSystem) :
    List String → FileSystem × Except AccessError Unit
  | [] =>
    match fs.haveDirectory ⟨slashes, []⟩ with
    | .ok made => (made, .ok ())
    | .error fault => (fs, .error ⟨fault, some ⟨slashes, []⟩⟩)
  | name :: outer =>
    let path : PathName := ⟨slashes, name :: outer⟩
    match fs.haveDirectory path with
    | .ok made => (made, .ok ())
    | .error .missing =>
      match haveDirectories slashes fs outer with
      | (after, .error e) => (after, .error e)
      | (after, .ok ()) =>
        match after.haveDirectory path with
        | .ok made => (made, .ok ())
        | .error fault => (after, .error ⟨fault, some path⟩)
    | .error fault => (fs, .error ⟨fault, some path⟩)

/-- Writes a file; its directory must exist. -/
def write (fs : FileSystem) (path : PathName) (bytes : List UInt8) :
    Except AccessError FileSystem :=
  match fs.target path with
  | .error fault => .error ⟨fault, some path⟩
  | .ok none => .error ⟨.isDirectory, some path⟩
  | .ok (some (name, place)) =>
    if fs.tree.isDirectory (name :: place) then .error ⟨.isDirectory, some path⟩
    else .ok (fs.put name place (.file bytes))

end FileSystem

end OpenApiClient
