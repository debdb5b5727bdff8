import OpenApiClient.Run

/-!
# Command Line Options

The options of the program, and reading them from its arguments. An option may be shortened as long
as it stays unique; its value stands in the next argument, or in the same one: after an equals sign,
or right behind a one-letter option. The separator, put behind an option in the same argument, stands
for no value.

## Layers

- Options and errors
- Classifying an argument
- Going through the arguments
-/

namespace OpenApiClient.CommandLine

/-! ## Options -/

/-- The options of the program. -/
inductive OptionKind where
  | help
  | input
  | output
  | clientName
  | logLevel
  deriving DecidableEq, Repr

/-- The spellings of the options, in the order in which candidates are listed. -/
def spellings : List (Text × OptionKind) :=
  [("-h", .help), ("--help", .help), ("--input", .input), ("-i", .input), ("--output", .output),
   ("-o", .output), ("--client-name", .clientName), ("--log-level", .logLevel)]

/-- How messages name an option: all its spellings. -/
def OptionKind.label (option : OptionKind) : Text :=
  Text.join "/" ((spellings.filter (·.2 == option)).map (·.1))

/-- The output file unless another one is given. -/
def defaultOutput : Text := "generated.ts"

/-- The values of the options. A value that the separator stands for is absent. -/
structure Settings where
  input : Option Text := none
  output : Option Text := some defaultOutput
  clientName : Option Text := none
  logLevel : Option LogLevel := some .warning
  deriving DecidableEq, Repr

/-- A request to the program. -/
inductive Request where
  | help
  | generate (settings : Settings)
  deriving DecidableEq, Repr

/-- Why arguments are no request. -/
inductive UsageError where
  | ambiguous (argument : Text) (candidates : List Text)
  | missingValue (option : OptionKind)
  | needlessValue (option : OptionKind) (value : Text)
  | invalidLevel (value : Text)
  | missingInput
  | unrecognized (arguments : List Text)
  deriving DecidableEq, Repr

/-- The wording of a usage error. -/
def UsageError.message : UsageError → Text
  | .ambiguous argument candidates =>
    "ambiguous option: " ++ argument ++ " could match " ++ Text.join ", " candidates
  | .missingValue option => "argument " ++ option.label ++ ": expected one argument"
  | .needlessValue option value =>
    "argument " ++ option.label ++ ": ignored explicit argument " ++ Text.quoted value
  | .invalidLevel value =>
    "argument " ++ OptionKind.logLevel.label ++ ": invalid choice: " ++ Text.quoted value ++
      " (choose from " ++ ", ".intercalate (LogLevel.all.map fun l => Text.quoted l.name) ++ ")"
  | .missingInput => "the following arguments are required: " ++ OptionKind.input.label
  | .unrecognized arguments => "unrecognized arguments: " ++ Text.join " " arguments

/-! ## Classifying an argument -/

/-- The mark behind which no argument is an option. -/
def separatorText : Text := "--"

/-- What an argument is by its form; an option may have a value attached. -/
inductive Argument where
  | plain (text : Text)
  | separator
  | option (option : OptionKind) (long : Bool) (attached : Option Text)
  | unknown (text : Text)
  deriving DecidableEq, Repr

/-- The option with exactly this spelling. -/
def optionOf? (text : Text) : Option OptionKind :=
  spellings.lookup text

/-- Whether a text begins like the long spellings. -/
def isLong (text : Text) : Bool :=
  separatorText.isPrefixOf text

/-- The mark between an option and the value attached to it. -/
def equalsSign : CodePoint := '='

/-- Splits a text at its first equals sign. -/
def splitAtEquals (text : Text) : Text × Option Text :=
  match text.dropWhile (· != equalsSign) with
  | [] => (text, none)
  | _ :: value => (text.takeWhile (· != equalsSign), some value)

/-- Whether a text is a negative number. A line end at the end does not count. -/
def isNegativeNumber (text : Text) : Bool :=
  let isDigit (c : CodePoint) : Bool := c.is fun c => (Text.digitValue? c).isSome
  let body := if text.getLast? == some '\n' then text.dropLast else text
  match body with
  | .char '-' :: number =>
    match number.dropWhile isDigit with
    | [] => !number.isEmpty
    | .char '.' :: fraction => !fraction.isEmpty && fraction.all isDigit
    | _ => false
  | _ => false

/-- The options that an argument may stand for, with their spellings. -/
def candidates (text : Text) : List (Text × OptionKind × Option Text) :=
  if isLong text then
    let (name, attached) := splitAtEquals text
    (spellings.filter fun spelling => name.isPrefixOf spelling.1).map
      fun (spelling, option) => (spelling, option, attached)
  else
    (spellings.filter fun spelling => spelling.1 == text.take 2).map
      fun (spelling, option) => (spelling, option, some (text.drop 2))

/-- Classifies an argument in front of the separator. -/
def classify (text : Text) : Except UsageError Argument :=
  let (name, attached) := splitAtEquals text
  match optionOf? text, optionOf? name with
  | some option, _ => .ok (.option option (isLong text) none)
  | none, some option => .ok (.option option (isLong text) attached)
  | none, none =>
    if text.head? != some '-' || text.length == 1 then .ok (.plain text)
    else match candidates text with
      | [(_, option, attached)] => .ok (.option option (isLong text) attached)
      | [] =>
        if isNegativeNumber text || text.contains ' ' then .ok (.plain text)
        else .ok (.unknown text)
      | several => .error (.ambiguous text (several.map (·.1)))

/-- Classifies all arguments. -/
def classifyAll : List Text → Except UsageError (List Argument)
  | [] => .ok []
  | text :: texts =>
    if text == separatorText then .ok (.separator :: texts.map .plain)
    else do
      let argument ← classify text
      return argument :: (← classifyAll texts)

/-! ## Going through the arguments -/

/-- The values so far, whether an input is among them, and the arguments that belong to no option,
last one first. -/
structure Given where
  settings : Settings := {}
  hasInput : Bool := false
  extra : List Text := []

/-- The level that an option value names. -/
def levelOf (value : Text) : Except UsageError LogLevel :=
  match LogLevel.ofName? value with
  | some level => .ok level
  | none => .error (.invalidLevel value)

/-- Takes a value for an option. -/
def Given.take (given : Given) (option : OptionKind) (text : Text) : Except UsageError Given :=
  let value := if text == separatorText then none else some text
  let settings := given.settings
  match option with
  | .help => .ok given
  | .input => .ok { given with settings := { settings with input := value }, hasInput := true }
  | .output => .ok { given with settings := { settings with output := value } }
  | .clientName => .ok { given with settings := { settings with clientName := value } }
  | .logLevel => do
    return { given with settings := { settings with logLevel := ← value.mapM levelOf } }

/-- The request that the values make up. -/
def Given.request (given : Given) : Except UsageError Request :=
  if !given.hasInput then .error .missingInput
  else if given.extra.isEmpty then .ok (.generate given.settings)
  else .error (.unrecognized given.extra.reverse)

/-- Goes through what is attached to a one-letter request for help: it must consist of further
one-letter options, of which the last may need the next argument. -/
def checkLetters (valueFollows : Bool) : Text → Except UsageError Unit
  | [] => .error (.needlessValue .help [])
  | letter :: letters =>
    match optionOf? ['-', letter], letters with
    | none, _ => .error (.needlessValue .help (letter :: letters))
    | some .help, [] => .ok ()
    | some .help, letters => checkLetters valueFollows letters
    | some option, [] => if valueFollows then .ok () else .error (.missingValue option)
    | some _, _ => .ok ()

/-- Whether the first argument can be the value of the option before it. -/
def startsPlain : List Argument → Bool
  | .plain _ :: _ => true
  | _ => false

/-- Goes through classified arguments. -/
def collect (given : Given) : List Argument → Except UsageError Request
  | [] => given.request
  | .plain text :: rest => collect { given with extra := text :: given.extra } rest
  | .separator :: rest => collect { given with extra := separatorText :: given.extra } rest
  | .unknown text :: rest => collect { given with extra := text :: given.extra } rest
  | .option .help _ none :: _ => .ok .help
  | .option .help true (some value) :: _ => .error (.needlessValue .help value)
  | .option .help false (some letters) :: rest => do
    checkLetters (startsPlain rest) letters
    return .help
  | .option option _ (some value) :: rest => do
    collect (← given.take option value) rest
  | .option option _ none :: .plain value :: rest => do
    collect (← given.take option value) rest
  | .option option _ none :: _ => .error (.missingValue option)

/-- Reads the arguments of the program. -/
def readArguments (arguments : List Text) : Except UsageError Request := do
  collect {} (← classifyAll arguments)

end OpenApiClient.CommandLine
