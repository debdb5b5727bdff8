import OpenApiClient.Accident

/-!
# Output

Writing a source file, together with the directories around it that are missing. The file is opened
before the text becomes bytes, so a text that has none leaves an empty file.
-/

namespace OpenApiClient

/-- Why a file cannot be written. -/
inductive OutputError where
  | directory (path : PathName) (cause : AccessError)
  | file (path : PathName) (cause : AccessError)
  deriving DecidableEq, Repr

/-- The wording of an output error. -/
def OutputError.message : OutputError → String
  | .directory path cause =>
    "Failed to create output directory " ++ path.text ++ ": " ++ cause.message
  | .file path cause => "Failed to write file " ++ path.text ++ ": " ++ cause.message

/-- Writes a text to a file and gives its absolute path. Directories that were created remain when
the writing itself fails, and so does the emptied file. -/
def writeSource (fs : FileSystem) (path : PathName) (text : Text) :
    FileSystem × Except (Stop OutputError) PathName :=
  let parent := path.parent
  if parent.hasNul then (fs, .error (.accident .nulByte))
  else match fs.haveDirectories parent.slashes parent.names with
    | (after, .error e) => (after, .error (.error (.directory parent e)))
    | (after, .ok ()) =>
      if path.hasNul then (after, .error (.accident .nulByte))
      else
        let encoded := Text.Utf8.encode text
        match after.write path (encoded.toOption.getD []), encoded with
        | .error e, _ => (after, .error (.error (.file path e)))
        | .ok emptied, .error fault => (emptied, .error (.accident (.unencodable fault)))
        | .ok written, .ok _ => (written, .ok (written.resolve path))

end OpenApiClient
