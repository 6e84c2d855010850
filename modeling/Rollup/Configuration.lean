import Rollup.Config.Engine
import Rollup.Log.Level
import Rollup.Text.Causes

/-!
The whole configuration, as it is loaded from a folder, and what can override parts of it.
-/
namespace Rollup

inductive LogFormat
  /-- Pretty on a terminal, and simplified otherwise. -/
  | auto
  | pretty
  | simplified
  | json
  deriving DecidableEq, Repr

namespace LogFormat

def all : List LogFormat := [auto, pretty, simplified, json]

def name : LogFormat → String
  | auto => "auto"
  | pretty => "pretty"
  | simplified => "simplified"
  | json => "json"

def label : LogFormat → String
  | auto => "Auto"
  | pretty => "Pretty"
  | simplified => "Simplified"
  | json => "Json"

end LogFormat

structure LogConfig where
  level : Level := .info
  format : LogFormat := .auto
  backtraces : Bool := false
  deriving DecidableEq, Repr

structure MetricsConfig where
  statsd : Option String := none
  namePrefix : String := "tally"
  /-- Sorted by name, each name once. -/
  defaultTags : List (String × String) := []
  hostnameTag : Option String := none
  deriving DecidableEq, Repr

structure Configuration where
  logging : LogConfig := {}
  metrics : MetricsConfig := {}
  engine : EngineConfig := {}
  folder : String := ".tally"
  deriving DecidableEq, Repr

inductive Trouble
  | couldNotOpen
  | couldNotWrite
  | badYaml
  | invalidValue
  deriving DecidableEq, Repr

def Trouble.message : Trouble → String
  | .couldNotOpen => "could not open config file"
  | .couldNotWrite => "could not write config file"
  | .badYaml => "could not parse yaml config file"
  | .invalidValue => "invalid config value"

inductive TroublePlace
  | somewhere
  | file (path : String)
  | field (name : String)
  deriving DecidableEq, Repr

def TroublePlace.text : TroublePlace → String
  | .somewhere => ""
  | .file path => " (file " ++ path ++ ")"
  | .field name => " (field " ++ name ++ ")"

structure ConfigurationError where
  trouble : Trouble
  place : TroublePlace
  cause : Explained
  deriving DecidableEq, Repr

def ConfigurationError.explain (e : ConfigurationError) : Explained :=
  .because (e.trouble.message ++ e.place.text) e.cause

def ConfigError.explain (e : ConfigError) : Explained := ⟨e.message, e.causes⟩

structure Overrides where
  logLevel : Option String := none
  periodMs : Option String := none
  statsd : Option String := none
  deriving DecidableEq, Repr

namespace Configuration

def invalidField (name : String) (cause : Explained) : ConfigurationError :=
  ⟨.invalidValue, .field name, cause⟩

/-- What is wrong with an override, if anything, and the configuration as it is then. -/
abbrev Overridden := Except ConfigurationError Unit × Configuration

def overrideLevel (text : String) (c : Configuration) : Overridden :=
  match Level.ofName? text with
  | some level => (.ok (), { c with logging := { c.logging with level := level } })
  | none => (.error (invalidField "log_level" ⟨Level.unknownMessage text, []⟩), c)

/-- A period that is a number is taken over before it is checked with the rest. -/
def overridePeriod (text : String) (c : Configuration) : Overridden :=
  match readNat maxWord (trim text.toList) with
  | .error cause => (.error (invalidField "period_ms" ⟨cause.message, []⟩), c)
  | .ok period =>
    let c := { c with engine := { c.engine with periodMs := period } }
    match c.engine.validate with
    | .ok () => (.ok (), c)
    | .error cause => (.error (invalidField "period_ms" cause.explain), c)

/-- An empty text unsets the collector. -/
def overrideStatsd (text : String) (c : Configuration) : Overridden :=
  (.ok (), { c with metrics := { c.metrics with
    statsd := if text.isEmpty then none else some text } })

def andThen (step : String → Configuration → Overridden) (text : Option String) :
    Overridden → Overridden
  | (.ok (), c) => match text with
    | some text => step text c
    | none => (.ok (), c)
  | failed => failed

/-- Applies the overrides in turn. A fault ends that, and what came before it stays. -/
def override (o : Overrides) (c : Configuration) : Overridden :=
  andThen overrideStatsd o.statsd
    (andThen overridePeriod o.periodMs (andThen overrideLevel o.logLevel (.ok (), c)))

end Configuration

end Rollup
