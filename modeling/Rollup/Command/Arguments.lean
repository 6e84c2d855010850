import Rollup.Configuration

/-!
The command line: what the program is asked to do, and with which settings. Settings can stand
before or after the names of commands, and can come from the environment.
-/
namespace Rollup

inductive ShowFormat
  | debug
  | yaml
  deriving DecidableEq, Repr

inductive Action
  | run (once : Bool)
  | init (overwrite : Bool)
  | show (format : ShowFormat)
  | check (quiet : Bool)
  deriving DecidableEq, Repr

structure Invocation where
  folder : String
  /-- The folder was named, and has to be there. -/
  folderGiven : Bool
  overrides : Overrides
  action : Action
  deriving DecidableEq, Repr

inductive Request
  | invoke (i : Invocation)
  | version
  | help
  | misuse
  deriving DecidableEq, Repr

inductive CommandLevel
  | top
  | run
  | config
  | init
  | show
  | check
  deriving DecidableEq, Repr

inductive OptionName
  | config
  | logLevel
  | periodMs
  | statsd
  | format
  | once
  | overwrite
  | quiet
  | help
  | version
  deriving DecidableEq, Repr

namespace OptionName

def takesValue : OptionName → Bool
  | config => true
  | logLevel => true
  | periodMs => true
  | statsd => true
  | format => true
  | _ => false

def isGlobal : OptionName → Bool
  | config => true
  | logLevel => true
  | periodMs => true
  | statsd => true
  | help => true
  | _ => false

def isAt (level : CommandLevel) (name : OptionName) : Bool :=
  name.isGlobal || match name, level with
    | version, .top => true
    | once, .run => true
    | overwrite, .init => true
    | format, .show => true
    | quiet, .check => true
    | _, _ => false

def ofLong? : String → Option OptionName
  | "config" => some config
  | "log-level" => some logLevel
  | "period-ms" => some periodMs
  | "statsd" => some statsd
  | "format" => some format
  | "once" => some once
  | "overwrite" => some overwrite
  | "quiet" => some quiet
  | "help" => some help
  | "version" => some version
  | _ => none

def ofShort? : Char → Option OptionName
  | 'c' => some config
  | 'f' => some format
  | 'q' => some quiet
  | 'h' => some help
  | 'V' => some version
  | _ => none

/-- The variable that stands in for an option. -/
def envName? : OptionName → Option String
  | config => some "TALLY_CONFIG"
  | logLevel => some "TALLY_LOG_LEVEL"
  | periodMs => some "TALLY_PERIOD_MS"
  | statsd => some "TALLY_STATSD"
  | _ => none

def envNames : List String := [config, logLevel, periodMs, statsd].filterMap envName?

def accepts : OptionName → String → Bool
  | format, value => value == "debug" || value == "yaml"
  | _, _ => true

end OptionName

def CommandLevel.next? : CommandLevel → String → Option CommandLevel
  | .top, "run" => some .run
  | .top, "config" => some .config
  | .config, "init" => some .init
  | .config, "show" => some .show
  | .config, "check" => some .check
  | _, _ => none

structure Setting where
  name : OptionName
  value : String
  /-- Where it stood: inner commands have the last word. -/
  level : CommandLevel
  deriving DecidableEq, Repr

structure ArgumentState where
  level : CommandLevel := .top
  /-- Newest first. -/
  settings : List Setting := []

namespace ArgumentState

def set (name : OptionName) (value : String) (s : ArgumentState) : Option ArgumentState :=
  if !name.isAt s.level || !name.accepts value then none
  else if s.settings.any fun x => x.name == name && x.level == s.level then none
  else some { s with settings := ⟨name, value, s.level⟩ :: s.settings }

def valueOf? (name : OptionName) (s : ArgumentState) : Option String :=
  (s.settings.find? (·.name == name)).map (·.value)

def has (name : OptionName) (s : ArgumentState) : Bool := s.settings.any (·.name == name)

def ofEnvironment (env : String → Option String) (name : OptionName) (s : ArgumentState) :
    Option String :=
  s.valueOf? name <|> name.envName?.bind env

def finish (env : String → Option String) (s : ArgumentState) : Request :=
  let action := match s.level with
    | .top => none
    | .config => none
    | .run => some (.run (s.has .once))
    | .init => some (.init (s.has .overwrite))
    | .show => some (.show (if s.valueOf? .format = some "debug" then .debug else .yaml))
    | .check => some (.check (s.has .quiet))
  match action with
  | none => .misuse
  | some action =>
    let folder := s.ofEnvironment env .config
    .invoke {
      folder := folder.getD ".tally"
      folderGiven := folder.isSome
      overrides := {
        logLevel := s.ofEnvironment env .logLevel
        periodMs := s.ofEnvironment env .periodMs
        statsd := s.ofEnvironment env .statsd }
      action := action }

end ArgumentState

def OptionName.answer? : OptionName → Option Request
  | help => some .help
  | version => some .version
  | _ => none

inductive ArgumentStep
  | answer (r : Request)
  | next (s : ArgumentState)
  | wants (name : OptionName) (s : ArgumentState)

def readOption (name : OptionName) (attached : Option String) (s : ArgumentState) : ArgumentStep :=
  if !name.isAt s.level then .answer .misuse
  else match name.takesValue, attached with
    | true, some value => match s.set name value with
      | some s => .next s
      | none => .answer .misuse
    | true, none => .wants name s
    | false, some _ => .answer .misuse
    | false, none => match name.answer? with
      | some r => .answer r
      | none => match s.set name "" with
        | some s => .next s
        | none => .answer .misuse

/-- Reads letters behind a single dash: flags, and perhaps one option whose value is the rest. -/
def readLetters : List Char → ArgumentState → ArgumentStep
  | [], s => .next s
  | c :: rest, s => match OptionName.ofShort? c with
    | none => .answer .misuse
    | some name =>
      if name.takesValue then
        let value := match rest with
          | '=' :: value => some (String.ofList value)
          | [] => none
          | value => some (String.ofList value)
        readOption name value s
      else match readOption name none s with
        | .next s => readLetters rest s
        | other => other

def readArgument (text : String) (s : ArgumentState) : ArgumentStep :=
  match text.toList with
  | '-' :: '-' :: long =>
    let name := long.takeWhile (· != '=')
    let attached := match long.drop name.length with
      | '=' :: value => some (String.ofList value)
      | _ => none
    match OptionName.ofLong? (String.ofList name) with
    | none => .answer .misuse
    | some name => readOption name attached s
  | '-' :: c :: rest => readLetters (c :: rest) s
  | _ => match s.level.next? text with
    | some level => .next { s with level := level }
    | none => .answer .misuse

/-- A value cannot look like an option; a dash alone does not. -/
def looksLikeOption (text : String) : Bool :=
  match text.toList with
  | '-' :: _ :: _ => true
  | _ => false

/-- Reads the arguments in turn; `pending` is the option that wants the next one. Two dashes end the
options, and no command takes anything else. -/
def readArguments (env : String → Option String) :
    (pending : Option OptionName) → ArgumentState → List String → Request
  | none, s, [] => s.finish env
  | some _, _, [] => .misuse
  | some name, s, text :: rest =>
    if looksLikeOption text then .misuse
    else match s.set name text with
      | some s => readArguments env none s rest
      | none => .misuse
  | none, s, ["--"] => s.finish env
  | none, s, text :: rest => match readArgument text s with
    | .answer r => r
    | .next s => readArguments env none s rest
    | .wants name s => readArguments env (some name) s rest

def directivesVariable : String := "RUST_LOG"

def Request.ofArguments (env : String → Option String) (args : List String) : Request :=
  if args.isEmpty then .misuse else readArguments env none {} args

end Rollup
