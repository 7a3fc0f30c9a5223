import ServiceWatch.CommandLine.Grammar

/-!
# Reading the command line

The arguments are read in order.  Each place on the way, from the program's name to the last
command, has the options that stood there; no option may stand twice at one place.  An option's
value comes with it behind `=`, or is the next argument, which must not look like an option.

A value that is an argument of its own is looked at only when the next option of the same place
comes or the place is left for good.  So what is said behind a command, a call for help or for the
version as well, comes before a fault of the option right in front of the command.

A setting is taken from the innermost place that has it, and from the environment if no place
does.  A variable of the environment is looked at for every place where its option does not stand,
and a value that the option refuses is refused there too.
-/

namespace ServiceWatch.CommandLine

/-- Why reading the command line ends without something to do. -/
inductive Stop where
  /-- The arguments are refused. -/
  | misuse
  /-- The version is asked for. -/
  | version (place : Place)
  /-- Help is asked for. -/
  | help
  /-- A command is missing where nothing else was said either. -/
  | noCommand
deriving DecidableEq, Repr, Inhabited

/-- A place on the way with the options that stood there. -/
structure Level where
  place : Place
  values : List (String × String) := []
  flags : List Flag := []
  /-- The last option here, with its value, if it has not been looked at yet. -/
  pending : Option (Valued × String) := none
deriving Inhabited

namespace Level

/-- Adds the value of an option. -/
def addValue (level : Level) (option : Valued) (value : String) : Except Stop Level :=
  if (level.values.lookup option.name).isSome then .error .misuse
  else
    match option.set {} value with
    | none => .error .misuse
    | some _ => .ok { level with values := (option.name, value) :: level.values }

/-- Adds the option that has not been looked at yet. -/
def settle (level : Level) : Except Stop Level :=
  match level.pending with
  | none => .ok level
  | some (option, value) => { level with pending := none }.addValue option value

/-- Adds an option without a value. -/
def addFlag (level : Level) (flag : Flag) : Except Stop Level :=
  match flag with
  | .version => .error (.version level.place)
  | .help => .error .help
  | flag =>
    if level.flags.contains flag then .error .misuse
    else .ok { level with flags := flag :: level.flags }

/-- The option with this name. -/
def option? (level : Level) (name : String) : Option Valued :=
  (valuedAt level.place).find? fun option => option.name == name

/-- The option with this letter. -/
def lettered? (level : Level) (letter : Char) : Option Valued :=
  (valuedAt level.place).find? fun option => option.letter == some letter

/-- The flag with this name. -/
def flag? (level : Level) (name : String) : Option Flag :=
  ((flagsAt level.place).find? fun entry => entry.1 == name).map (·.2.2)

/-- The flag with this letter. -/
def letteredFlag? (level : Level) (letter : Char) : Option Flag :=
  ((flagsAt level.place).find? fun entry => entry.2.1 == some letter).map (·.2.2)

end Level

/-! ### Single arguments -/

/-- What an argument that looks like an option came to. -/
inductive Reading where
  /-- All of it was read. -/
  | whole (level : Level)
  /-- It is an option that still lacks its value. -/
  | open (option : Valued) (level : Level)

/-- Cuts a text at the first `=`. -/
def cutAtEquals (cs : List Char) : List Char × Option (List Char) :=
  match cs.dropWhile (· ≠ '=') with
  | _ :: value => (cs.takeWhile (· ≠ '='), some value)
  | [] => (cs, none)

/-- Reads an option that is written by its name. -/
def readNamed (level : Level) (cs : List Char) : Except Stop Reading := do
  let (name, value) := cutAtEquals cs
  let name := String.ofList name
  match level.option? name, level.flag? name, value with
  | some option, _, some value => return .whole (← level.addValue option (String.ofList value))
  | some option, _, none => return .open option level
  | none, some flag, none => return .whole (← level.addFlag flag)
  | _, _, _ => .error .misuse

/-- Reads options that are written by their letters; the rest of the argument behind a valued one
is its value. -/
def readLetters : Level → List Char → Except Stop Reading
  | level, [] => .ok (.whole level)
  | level, c :: cs =>
    match level.letteredFlag? c, level.lettered? c with
    | some flag, _ =>
      match level.addFlag flag with
      | .ok level => readLetters level cs
      | .error stop => .error stop
    | none, some option =>
      match cs with
      | [] => .ok (.open option level)
      | '=' :: value => (level.addValue option (String.ofList value)).map .whole
      | value => (level.addValue option (String.ofList value)).map .whole
    | none, none => .error .misuse

/-- Whether an argument looks like an option, so that it cannot be a value. -/
def looksLikeOption (argument : String) : Bool :=
  match argument.toList with
  | '-' :: _ :: _ => true
  | _ => false

/-- Whether these are commands, each of the one before it. -/
def areCommands : Place → List String → Bool
  | _, [] => true
  | place, name :: names =>
    match place.commands.lookup name with
    | some inner => areCommands inner names
    | none => name == "help" && !place.commands.isEmpty && names.isEmpty

/-! ### All arguments -/

/-- Reads arguments at a level, the innermost one, with the levels around it.  `waiting` is an
option that takes the next argument as its value. -/
def readFrom (outer : List Level) :
    (level : Level) → (waiting : Option Valued) → List String → Except Stop (List Level)
  | level, none, [] => .ok (level :: outer)
  | _, some _, [] => .error .misuse
  | level, some option, value :: rest =>
    if looksLikeOption value then .error .misuse
    else readFrom outer { level with pending := some (option, value) } none rest
  | level, none, argument :: rest =>
    match level.place.commands.lookup argument with
    | some place => readFrom (level :: outer) { place := place } none rest
    | none =>
      if argument = "help" ∧ level.place.commands ≠ [] then
        .error (if areCommands level.place rest then .help else .misuse)
      else
        let reading : Except Stop Reading := do
          let level ← level.settle
          match argument.toList with
          | '-' :: '-' :: [] => if rest = [] then .ok (.whole level) else .error .misuse
          | '-' :: '-' :: name => readNamed level name
          | '-' :: letter :: letters => readLetters level (letter :: letters)
          | _ => .error .misuse
        match reading with
        | .error stop => .error stop
        | .ok (.whole level) => readFrom outer level none rest
        | .ok (.open option level) => readFrom outer level (some option) rest

/-- Reads the arguments of the program: the levels from the innermost to the outermost. -/
def readLevels (arguments : List String) : Except Stop (List Level) :=
  readFrom [] { place := .program } none arguments

/-! ### The environment -/

/-- The value that the environment gives to an option. -/
def environmentValue? (environment : String → Option String) (option : Valued) : Option String :=
  option.environment.bind environment

/-- The values that the environment gives at a level. -/
def Level.fromEnvironment (level : Level) (environment : String → Option String) :
    List (Valued × String) :=
  (valuedAt level.place).filterMap fun option =>
    if (level.values.lookup option.name).isSome then none
    else (environmentValue? environment option).map fun value => (option, value)

/-- Leaves a level for good: its last option is looked at, and it is refused if the environment
gives a bad value or a command is missing. -/
def Level.leave (level : Level) (environment : String → Option String) (hasCommand : Bool) :
    Except Stop Level := do
  let level ← level.settle
  let given := level.fromEnvironment environment
  if given.any fun (option, value) => (option.set {} value).isNone then .error .misuse
  else if level.place = .memory ∧ !hasCommand then
    .error
      (if level.values.isEmpty && level.flags.isEmpty && given.isEmpty then .noCommand else .misuse)
  else .ok level

/-- Leaves levels from the innermost to the outermost. -/
def leaveAll (environment : String → Option String) :
    (hasCommand : Bool) → List Level → Except Stop (List Level)
  | _, [] => .ok []
  | hasCommand, level :: outer =>
    match level.leave environment hasCommand with
    | .ok level => (leaveAll environment true outer).map (level :: ·)
    | .error stop => .error stop

/-! ### The outcome -/

/-- The value of an option: that of the innermost level that has it, or that of the
environment. -/
def valueOf? (environment : String → Option String) (levels : List Level) (option : Valued) :
    Option String :=
  (levels.findSome? fun level => level.values.lookup option.name).or
    (environmentValue? environment option)

/-- The choices with the value of an option, if it has one. -/
def choose (environment : String → Option String) (levels : List Level) (choices : Choices)
    (option : Valued) : Choices :=
  match valueOf? environment levels option with
  | some value => (option.set choices value).getD choices
  | none => choices

/-- What the program is to do. -/
inductive Order where
  /-- Run the probe, write a report in this form and pass it on if that is wanted. -/
  | check (form : Form) (sendsAlert : Bool)
  /-- Write what is remembered. -/
  | showMemory
  /-- Forget what is remembered. -/
  | resetMemory
deriving DecidableEq, Repr, Inhabited

/-- What the command line asks for: what to do, and where the settings come from. -/
structure Wish where
  order : Order
  settingsFile : Option String
  layer : Settings.Layer
deriving DecidableEq, Repr, Inhabited

/-- What to do at the innermost place. -/
def orderAt (level : Level) (choices : Choices) : Order :=
  match level.place with
  | .memoryShow => .showMemory
  | .memoryReset => .resetMemory
  | .check => .check choices.form (!level.flags.contains .noAlert)
  | _ => .check .text true

/-- Reads the command line. -/
def read (arguments : List String) (environment : String → Option String) : Except Stop Wish := do
  let levels ← leaveAll environment false (← readLevels arguments)
  match levels with
  | [] => .error .misuse
  | level :: _ =>
    let choices := (valuedAt level.place).foldl (choose environment levels) {}
    .ok ⟨orderAt level choices, choices.settingsFile, choices.layer⟩

end ServiceWatch.CommandLine
