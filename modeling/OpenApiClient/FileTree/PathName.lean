/-!
# Path Names

Paths as people write them: empty names and single dots do not count, and `..` is kept as it stands.
-/

namespace OpenApiClient

/-- A path: what stands in front of its names (nothing, or the slashes of a path from the root), and
the names, the last one first. -/
structure PathName where
  slashes : String := ""
  names : List String
  deriving DecidableEq, Repr

namespace PathName

/-- The slashes that begin a text: exactly two are kept, more count as one. -/
def leadingSlashes (text : String) : String :=
  match (text.toList.takeWhile (· == '/')).length with
  | 0 => ""
  | 2 => "//"
  | _ => "/"

/-- The path that a text denotes. -/
def ofText (text : String) : PathName :=
  let names := (text.toList.splitOn '/').map String.ofList
  { slashes := leadingSlashes text
    names := (names.filter fun name => name != "" && name != ".").reverse }

/-- The text of a path; the empty path is a dot. -/
def text (path : PathName) : String :=
  if path.slashes == "" && path.names.isEmpty then "."
  else path.slashes ++ "/".intercalate path.names.reverse

/-- The path without its last name. -/
def parent (path : PathName) : PathName :=
  { path with names := path.names.tail }

/-- Whether the path starts at the root. -/
def isAbsolute (path : PathName) : Bool :=
  path.slashes != ""

/-- The ending of the last name, from its last dot on. A dot that begins or ends the name does not
count. -/
def suffix (path : PathName) : String :=
  let name := (path.names.headD "").toList
  let ending := (name.reverse.takeWhile (· != '.')).reverse
  if ending.isEmpty || name.length ≤ ending.length + 1 then ""
  else "." ++ String.ofList ending

/-- Whether a name contains the character `U+0000`, which no path may contain. -/
def hasNul (path : PathName) : Bool :=
  path.names.any fun name => name.toList.contains '\x00'

end PathName

end OpenApiClient
