import OpenApiClient.CommandLine
import Std.Time.Format

/-!
# The Program

The outer layer: it takes a picture of the part of the machine's file system that the arguments name,
lets the command line answer, and carries out what the answer says.
-/

namespace OpenApiClient.Program

open OpenApiClient.CommandLine

/-- The text of a place. -/
def placeText (place : Location) : String :=
  "/" ++ "/".intercalate place.reverse

/-- What stands at a place of the machine's file system. -/
def entryAt (place : Location) : IO (Option Entry) := do
  try
    return some (.file (← IO.FS.readBinFile (placeText place)).toList)
  catch
    | .noFileOrDirectory .. => return none
    | .inappropriateType _ code _ =>
      return if code.toNat == AccessFault.isDirectory.number then some .directory else none
    | _ => return some .unreadable

/-- The places that following a path passes, the first one first. -/
def passed (start : Location) (names : List String) : List Location :=
  names.foldr (fun name places =>
    let place := places.getLastD start
    places ++ [if name == ".." then place.tail else name :: place]) []

/-- The tree with what stands at a place of the machine's file system. -/
def look (tree : FileTree) (place : Location) : IO FileTree := do
  match place with
  | [] => return tree
  | name :: parent =>
    if (tree.entry? place).isSome then return tree
    match ← entryAt place with
    | some entry => return tree.put name parent entry
    | none => return tree

/-- A picture of the machine's file system along paths. -/
def picture (paths : List PathName) : IO FileSystem := do
  let here := (PathName.ofText (toString (← IO.currentDir))).names
  let tree ← (passed [] here).foldlM look FileTree.empty
  let places := paths.flatMap fun path =>
    passed (if path.isAbsolute then [] else here) path.names
  let tree ← places.foldlM look tree
  if here_directory : tree.entry? here = some .directory then return ⟨tree, here, here_directory⟩
  else throw (IO.userError "the working directory cannot be read")

/-- Carries out the changes of a tree. -/
def carryOut (before after : FileTree) : IO Unit := do
  let changes := after.entries.take (after.entries.length - before.entries.length)
  for (place, entry) in changes.reverse do
    match entry with
    | .directory => IO.FS.createDir (placeText place)
    | .file bytes => IO.FS.writeBinFile (placeText place) ⟨bytes.toArray⟩
    | .unreadable => pure ()

/-- The paths that the arguments name. -/
def namedPaths (arguments : List Text) : List PathName :=
  match readArguments arguments with
  | .ok (.generate settings) =>
    [settings.input, settings.output].filterMap fun value => (pathOf value).toOption
  | _ => []

/-- The time stamp of log lines. -/
def timeStamp : IO String := do
  let now ← Std.Time.PlainDateTime.now
  return now.format "uuuu-MM-dd HH:mm:ss,SSS"

/-- Answers the arguments, and gives the exit status. -/
def answer (arguments : List Text) : IO UInt32 := do
  let before ← picture (namedPaths arguments)
  let response := respond (← timeStamp) before arguments .file
  carryOut before.tree response.after.tree
  IO.print (textOf response.output).shown
  IO.eprint (textOf response.errors).shown
  match response.ending with
  | .ok status => return UInt32.ofNat status
  | .error accident =>
    IO.eprintln accident.message
    return 1

end OpenApiClient.Program

/-- The program. -/
def main (arguments : List String) : IO UInt32 :=
  OpenApiClient.Program.answer (arguments.map OpenApiClient.Text.ofString)
