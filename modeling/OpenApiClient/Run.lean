import OpenApiClient.Client.Generation
import OpenApiClient.Input
import OpenApiClient.Output

/-!
# Runs

One run of the program: it loads a specification, generates the client and writes it, and keeps a log
of these steps. Nothing is written unless loading and generating succeed.
-/

namespace OpenApiClient

/-! ## The log -/

/-- How much a log entry matters, and how much one must matter to be shown. -/
inductive LogLevel where
  | debug
  | info
  | warning
  | error
  deriving DecidableEq, Repr

/-- The levels, in the order of their weight. -/
def LogLevel.all : List LogLevel :=
  [.debug, .info, .warning, .error]

/-- The weight of a level. -/
def LogLevel.weight (level : LogLevel) : Nat :=
  LogLevel.all.idxOf level

/-- The name of a level. -/
def LogLevel.name : LogLevel → String
  | .debug => "DEBUG"
  | .info => "INFO"
  | .warning => "WARNING"
  | .error => "ERROR"

/-- The level of a name. -/
def LogLevel.ofName? (name : Text) : Option LogLevel :=
  LogLevel.all.find? fun level => Text.ofString level.name == name

/-- A log entry. -/
structure LogEntry where
  level : LogLevel
  message : Text
  deriving DecidableEq, Repr

/-- What the log calls this program. -/
def loggerName : String := "openapi_to_typescript_generator.generator"

/-- The line of a log entry with the given time stamp. -/
def LogEntry.line (time : String) (entry : LogEntry) : Text :=
  (time ++ " " ++ entry.level.name ++ " " ++ loggerName ++ " ") ++ entry.message

/-! ## Errors -/

/-- Why a run fails. -/
inductive RunError where
  | input (error : InputError)
  | naming (error : Client.NamingError)
  | output (error : OutputError)

/-- The wording of a run error. -/
def RunError.message : RunError → Text
  | .input e => e.message
  | .naming e => e.message
  | .output e => e.message

/-! ## Running -/

/-- What a run leaves: the generated client and the absolute path of its file. -/
structure RunReport where
  client : Client.GeneratedClient
  path : PathName
  deriving DecidableEq, Repr

/-- The effects and the outcome of a run. -/
structure Run where
  after : FileSystem
  log : List LogEntry
  outcome : Except (Stop RunError) RunReport

/-- The log entry for loading. -/
def loadingEntry (input : PathName) : LogEntry :=
  ⟨.debug, "Loading OpenAPI document from " ++ input.text⟩

/-- The log entry for building a client. -/
def buildingEntry (specification : Specification) (client : Client.GeneratedClient) : LogEntry :=
  ⟨.debug, "Building " ++ client.name ++ " with " ++
    toString (Client.componentInterfaces specification.components).length ++ " interfaces and " ++
    toString (Client.namedOperations specification).length ++ " operations"⟩

/-- The log entry for a file that was written. -/
def writtenEntry (client : Client.GeneratedClient) (path : PathName) : LogEntry :=
  ⟨.info, "Wrote " ++ client.name ++ " to " ++ path.text⟩

/-- Loads a specification and generates its client. -/
def loadAndGenerate (fs : FileSystem) (input : PathName) (givenName : Option Text) :
    Except (Stop RunError) (Specification × Client.GeneratedClient) :=
  match loadSpecification fs input with
  | .error stop => .error (stop.map .input)
  | .ok specification =>
    match Client.generate specification givenName with
    | .error e => .error (.error (.naming e))
    | .ok client => .ok (specification, client)

/-- Generates the client for the specification in one file and writes it to another one. -/
def run (fs : FileSystem) (input output : PathName) (givenName : Option Text) : Run :=
  match loadAndGenerate fs input givenName with
  | .error stop => ⟨fs, [loadingEntry input], .error stop⟩
  | .ok (specification, client) =>
    let log := [loadingEntry input, buildingEntry specification client]
    match writeSource fs output client.source with
    | (after, .error stop) => ⟨after, log, .error (stop.map .output)⟩
    | (after, .ok path) => ⟨after, log ++ [writtenEntry client path], .ok ⟨client, path⟩⟩

end OpenApiClient
