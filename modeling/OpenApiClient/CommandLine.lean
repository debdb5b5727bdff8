import OpenApiClient.CommandLine.Help
import OpenApiClient.CommandLine.Options

/-!
# The Command Line

What the program answers to its arguments: what it prints, its exit status, and what it does to the
file system.
-/

namespace OpenApiClient.CommandLine

/-- The answer to a command. An accident leaves no exit status. -/
structure Response where
  after : FileSystem
  /-- What goes to standard output. -/
  output : List Text := []
  /-- What goes to standard error. -/
  errors : List Text := []
  ending : Except Accident Nat

/-- The answer to arguments that are no request. -/
def usageResponse (fs : FileSystem) (e : UsageError) : Response :=
  { after := fs
    errors := usageLines ++ [programName ++ ": error: " ++ e.message]
    ending := .ok 2 }

/-- The lines of the log entries that weigh at least as much as a level. -/
def shownLog (time : String) (level : LogLevel) (log : List LogEntry) : List Text :=
  (log.filter fun entry => level.weight ≤ entry.level.weight).map (·.line time)

/-- The line of a warning. -/
def warningLine (warning : Text) : Text :=
  "Warning: " ++ warning

/-- What standard output leads to. -/
inductive OutputStream where
  /-- A text in memory, to which any line can be added. -/
  | memory
  /-- A file, to which the bytes of a line are written. -/
  | file
  deriving DecidableEq, Repr

/-- Why a line cannot be printed to a stream, if it cannot. -/
def OutputStream.fault? (stream : OutputStream) (line : Text) : Option Text.Utf8.Unencodable :=
  match stream with
  | .memory => none
  | .file => Text.Utf8.firstSurrogates? line

/-- Prints lines to a stream, up to the first one that cannot be printed. Gives the lines that were
printed. -/
def OutputStream.print (stream : OutputStream) : List Text → List Text × Except Accident Unit
  | [] => ([], .ok ())
  | line :: lines =>
    match stream.fault? line with
    | some fault => ([], .error (.unencodable fault))
    | none =>
      let (printed, ending) := stream.print lines
      (line :: printed, ending)

/-- The answer to a run with the given outcome. -/
def runResponse (time : String) (level : LogLevel) (run : Run) (stream : OutputStream) : Response :=
  let log := shownLog time level run.log
  match run.outcome with
  | .ok report =>
    let (printed, ending) := stream.print
      (report.client.warnings.map warningLine ++ [↑("Generated: " ++ report.path.text)])
    { after := run.after, output := printed, errors := log, ending := ending.map fun _ => 0 }
  | .error (.error e) =>
    { after := run.after, errors := log ++ ["Error: " ++ e.message], ending := .ok 1 }
  | .error (.accident accident) =>
    { after := run.after, errors := log, ending := .error accident }

/-- The path that an option gives. The names of files are made of characters, so a path with surrogates
names none. -/
def pathOf (value : Option Text) : Except Accident PathName :=
  match value with
  | some text =>
    match Text.Utf8.firstSurrogates? text with
    | some fault => .error (.unencodable fault)
    | none => .ok (.ofText text.shown)
  | none => .error .noPath

/-- The log level and the paths of a request, each of which needs a value. -/
def requirements (settings : Settings) : Except Accident (LogLevel × PathName × PathName) := do
  let level ← match settings.logLevel with
    | some level => .ok level
    | none => .error .noLevel
  return (level, ← pathOf settings.input, ← pathOf settings.output)

/-- Answers a command; `time` stamps the log, and `stream` is standard output. -/
def respond (time : String) (fs : FileSystem) (arguments : List Text)
    (stream : OutputStream := .memory) : Response :=
  match readArguments arguments with
  | .error e => usageResponse fs e
  | .ok .help => { after := fs, output := helpLines, ending := .ok 0 }
  | .ok (.generate settings) =>
    match requirements settings with
    | .error accident => { after := fs, ending := .error accident }
    | .ok (level, input, output) =>
      runResponse time level (run fs input output settings.clientName) stream

/-- Lines as text, each with its end. -/
def textOf (lines : List Text) : Text :=
  lines.flatMap fun line => line ++ "\n"

end OpenApiClient.CommandLine
