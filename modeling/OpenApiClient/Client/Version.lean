import OpenApiClient.Text.Numeral
import OpenApiClient.Text.Occurrence

/-!
# Specification Versions

The generator knows version 3 of the specification format. A document of another version, or of a
version that cannot be read, is processed all the same, with a warning.
-/

namespace OpenApiClient.Client

/-- The major version that the generator knows. -/
def supportedMajor : Int := 3

/-- The major part of a version: what stands before the first point, blanks around the whole
version left out. -/
def majorText (version : Text) : Text :=
  Text.beforeFirst '.' (Text.trim version)

/-- The warning for a document of the given version, if one is due. -/
def versionWarning (version : Text) : Option Text :=
  match Text.readInteger 10 (majorText version) with
  | .error _ =>
    some ("Unable to parse OpenAPI version " ++ Text.quoted version ++
      "; assuming 3.x semantics")
  | .ok major =>
    if major == supportedMajor then none
    else some ("OpenAPI version " ++ version ++ " is not 3.x; output may be incomplete")

end OpenApiClient.Client
