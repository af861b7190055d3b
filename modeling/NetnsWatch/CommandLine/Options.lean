import NetnsWatch.Time.Reader

/-!
# The options of the command line

There are four options with a value, each given at most once, and a request for help. Arguments are
read from left to right. The value of an option may follow as an argument of its own; it is then
looked at only when the next known option comes, so an unknown argument right behind it is
complained about first. Every complaint has its full text.
-/

namespace NetnsWatch

/-- Where events come from. -/
inductive ChannelMode where
  | kernel
  | selftest
  deriving DecidableEq, Repr

/-- The name of a mode. -/
def ChannelMode.name : ChannelMode → String
  | kernel => "kernel"
  | selftest => "selftest"

/-- The mode with a given name. -/
def ChannelMode.ofName? (name : String) : Option ChannelMode :=
  [kernel, selftest].find? (·.name = name)

/-- The settings of a run. -/
structure Options where
  channel : ChannelMode := .kernel
  window : Duration := .ofMillis 50
  pollTimeout : Duration := .ofMillis 250
  time : Option Duration := none
  deriving DecidableEq, Repr

/-- An option that takes a value. -/
inductive Setting where
  | channel
  | window
  | pollTimeout
  | time
  deriving DecidableEq, Repr

namespace Setting

/-- The name of an option, without its dashes. -/
def name : Setting → String
  | channel => "channel"
  | window => "window"
  | pollTimeout => "poll-timeout"
  | time => "time"

/-- The option with a given name. -/
def ofName? (name : String) : Option Setting :=
  [channel, window, pollTimeout, time].find? (·.name = name)

/-- An option with the place of its value, as it stands in texts. -/
def usage : Setting → String
  | channel => "--channel <CHANNEL>"
  | window => "--window <WINDOW>"
  | pollTimeout => "--poll-timeout <POLL_TIMEOUT>"
  | time => "--time <TIME>"

end Setting

/-- Why the arguments were refused. -/
inductive UsageError where
  /-- The value of an option is not a duration. -/
  | invalidDuration (setting : Setting) (value : String) (error : SpanError)
  /-- The value of the channel option is not a mode. -/
  | invalidChannel (value : String)
  /-- An option came without its value. -/
  | missingValue (setting : Setting)
  /-- An option came twice. -/
  | repeated (setting : Setting)
  /-- No option has this long name; the options given so far. -/
  | unknownOption (name : String) (given : List Setting)
  /-- Nothing takes this argument. -/
  | unexpected (argument : String)
  /-- The request for help takes no value; whether an option was given before it. -/
  | valueForHelp (value : String) (afterOption : Bool)
  deriving DecidableEq, Repr

/-- What the arguments ask for. -/
inductive Request where
  | run (options : Options)
  | help (long : Bool)
  deriving DecidableEq, Repr

namespace UsageError

/-- The line of possible modes. -/
def possibleModes : String :=
  "\n  [possible values: kernel, selftest]"

/-- The place of any of the options. -/
def anyOption : String :=
  "<" ++ "|".intercalate ([.channel, .window, .pollTimeout, .time].map Setting.usage) ++ ">"

/-- A usage line that names the options given so far. -/
def usageOf (given : List String) : String :=
  "\n\nUsage: nsmon " ++ (if given.isEmpty then "[OPTIONS]" else " ".intercalate given)

/-- The complaint without its frame. -/
def body : UsageError → String
  | invalidDuration setting value error =>
    "invalid value '" ++ value ++ "' for '" ++ setting.usage ++ "': " ++ error.message
  | invalidChannel value =>
    if value.isEmpty then
      "a value is required for '" ++ Setting.channel.usage ++ "' but none was supplied" ++
        possibleModes
    else "invalid value '" ++ value ++ "' for '" ++ Setting.channel.usage ++ "'" ++ possibleModes
  | missingValue setting =>
    "a value is required for '" ++ setting.usage ++ "' but none was supplied" ++
      (if setting = .channel then possibleModes else "")
  | repeated setting =>
    "the argument '" ++ setting.usage ++ "' cannot be used multiple times" ++ usageOf []
  | unknownOption name given =>
    "unexpected argument '--" ++ name ++ "' found" ++ usageOf (given.map Setting.usage)
  | unexpected argument => "unexpected argument '" ++ argument ++ "' found" ++ usageOf []
  | valueForHelp value afterOption =>
    "unexpected value '" ++ value ++ "' for '--help' found; no more were expected" ++
      usageOf (if afterOption then ["--help", anyOption] else ["--help"])

/-- The full text of a complaint. -/
def message (e : UsageError) : String :=
  "error: " ++ e.body ++ "\n\nFor more information, try '--help'.\n"

end UsageError

namespace CommandLine

/-- What has been read: the options given so far in order, their values, and an option whose value
has not been looked at yet. -/
structure Progress where
  given : List Setting := []
  options : Options := {}
  pending : Option (Setting × Option String) := none

/-- A value that is a duration. -/
def readDuration (setting : Setting) (value : String) : Except UsageError Duration :=
  match Duration.read value with
  | .ok d => .ok d
  | .error error => .error (.invalidDuration setting value error)

/-- Set an option to a value. -/
def assign (setting : Setting) (value : String) (options : Options) : Except UsageError Options :=
  match setting with
  | .channel =>
    match ChannelMode.ofName? value with
    | some channel => .ok { options with channel }
    | none => .error (.invalidChannel value)
  | .window => do return { options with window := ← readDuration setting value }
  | .pollTimeout => do return { options with pollTimeout := ← readDuration setting value }
  | .time => do return { options with time := some (← readDuration setting value) }

/-- Give an option its value. -/
def give (setting : Setting) (value : String) (p : Progress) : Except UsageError Progress :=
  if setting ∈ p.given then .error (.repeated setting)
  else do
    return { p with
      given := p.given ++ [setting]
      options := ← assign setting value p.options }

/-- Look at the value of the option that waits for that. -/
def resolve (p : Progress) : Except UsageError Progress :=
  match p.pending with
  | none => .ok p
  | some (setting, none) => .error (.missingValue setting)
  | some (setting, some value) => give setting value { p with pending := none }

/-- The options given so far, for a complaint about what follows.

An option that waits for its value to be looked at counts once it has a value, whatever that is; if
it came for the second time, it does not count any more. -/
def givenSoFar (p : Progress) : List Setting :=
  match p.pending with
  | some (setting, some _) =>
    if setting ∈ p.given then p.given.erase setting else p.given ++ [setting]
  | some (_, none) | none => p.given

/-- Split an argument at its first equals sign. -/
def splitAtEquals : List Char → List Char × Option (List Char)
  | [] => ([], none)
  | '=' :: rest => ([], some rest)
  | c :: rest =>
    let (name, value) := splitAtEquals rest
    (c :: name, value)

/-- Read a long option, with a value if it has an equals sign. -/
def readLong (name : String) (value : Option String) (p : Progress) :
    Except UsageError (Progress ⊕ Request) :=
  if name = "help" then
    match value with
    | some value => .error (.valueForHelp value !p.given.isEmpty)
    | none => do
      let _ ← resolve p
      return .inr (.help true)
  else
    match Setting.ofName? name with
    | none => .error (.unknownOption name (givenSoFar p))
    | some setting => do
      let p ← resolve p
      match value with
      | some value => return .inl (← give setting value p)
      | none => return .inl { p with pending := some (setting, none) }

/-- Read short options: the first letter decides. -/
def readShort (letter : Char) (p : Progress) : Except UsageError (Progress ⊕ Request) :=
  if letter = 'h' then do
    let _ ← resolve p
    return .inr (.help false)
  else .error (.unexpected (String.ofList ['-', letter]))

/-- Read an argument that is no option: the value of the option before it, if that has none yet. -/
def readValue (argument : String) (p : Progress) : Except UsageError (Progress ⊕ Request) :=
  match p.pending with
  | some (setting, none) => .ok (.inl { p with pending := some (setting, some argument) })
  | some (_, some _) | none => .error (.unexpected argument)

/-- Read one argument. -/
def readArgument (argument : String) (p : Progress) : Except UsageError (Progress ⊕ Request) :=
  match argument.toList with
  | '-' :: '-' :: long =>
    let (name, value) := splitAtEquals long
    readLong (String.ofList name) (value.map String.ofList) p
  | '-' :: letter :: _ => readShort letter p
  | _ => readValue argument p

/-- Read the remaining arguments; after a lone pair of dashes nothing is expected. -/
def readFrom (p : Progress) : List String → Except UsageError Request
  | [] => do return .run (← resolve p).options
  | "--" :: [] => do return .run (← resolve p).options
  | "--" :: argument :: _ => .error (.unexpected argument)
  | argument :: rest => do
    match ← readArgument argument p with
    | .inl p => readFrom p rest
    | .inr request => return request

/-- What the arguments ask for. -/
def read (arguments : List String) : Except UsageError Request :=
  readFrom {} arguments

end CommandLine

end NetnsWatch
