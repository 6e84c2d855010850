import Rollup.Config.Engine
import Rollup.Pattern.Reader

/-!
Selections of paths: a whitelist and a blacklist of patterns, ready to be asked.
-/
namespace Rollup

/-- A pattern of a list. A negated one selects the paths in which it does not occur. -/
structure PathPattern where
  regex : Pattern.Regex
  negated : Bool
  deriving Repr

namespace PathPattern

/-- An exclamation mark negates and is not part of the pattern. -/
def read (text : String) : Except ConfigError PathPattern :=
  let (negated, source) := match text.toList with
    | '!' :: rest => (true, String.ofList rest)
    | _ => (false, text)
  match Pattern.Regex.read source with
  | .ok regex => .ok ⟨regex, negated⟩
  | .error cause => .error (.invalidRegex text cause)

def selects (p : PathPattern) (path : String) : Bool := p.regex.occursIn path != p.negated

end PathPattern

abbrev PathPatterns := List PathPattern

def PathPatterns.read (texts : List String) : Except ConfigError PathPatterns :=
  texts.mapM PathPattern.read

def PathPatterns.select (patterns : PathPatterns) (path : String) : Bool :=
  patterns.any (·.selects path)

structure Selection where
  whitelist : PathPatterns
  blacklist : PathPatterns
  fallback : Bool
  deriving Repr

namespace Selection

def everything : Selection := ⟨[], [], true⟩

def ofConfig (c : SelectionConfig) : Except ConfigError Selection := do
  let whitelist ← PathPatterns.read c.whitelist
  let blacklist ← PathPatterns.read c.blacklist
  return ⟨whitelist, blacklist, c.fallback⟩

/-- The blacklist wins. An empty whitelist selects whatever is not blacklisted, but without any
pattern the fallback decides. -/
def selects (s : Selection) (path : String) : Bool :=
  if s.whitelist.isEmpty && s.blacklist.isEmpty then s.fallback
  else if s.blacklist.select path then false
  else s.whitelist.isEmpty || s.whitelist.select path

end Selection

inductive Check
  /-- Deviation, skewness and kurtosis in stats reports. -/
  | moments
  /-- The most frequent sample in stats reports. -/
  | mode
  /-- A predictor of adder values. -/
  | predict
  deriving DecidableEq, Repr

def Check.label : Check → String
  | moments => "Moments"
  | mode => "Mode"
  | predict => "Predict"

structure CheckSelections where
  moments : Option Selection
  mode : Option Selection
  predict : Option Selection

namespace CheckSelections

def ofConfig (c : EngineConfig) : Except ConfigError CheckSelections := do
  let compile (enable : Bool) (selection : SelectionConfig) :
      Except ConfigError (Option Selection) :=
    if enable then (Selection.ofConfig selection).map some else return none
  let moments ← compile c.moments.enable c.moments.selection
  let mode ← compile c.mode.enable c.mode.selection
  let predict ← compile c.predict.enable c.predict.selection
  return ⟨moments, mode, predict⟩

/-- The features of a path, in a fixed order. Each is offered by one kind only. -/
def resolve (s : CheckSelections) (kind : Kind) (path : String) : List Check :=
  let chosen (selection : Option Selection) (check : Check) : List Check :=
    if selection.any (·.selects path) then [check] else []
  match kind with
  | .stats => chosen s.moments .moments ++ chosen s.mode .mode
  | .adder => chosen s.predict .predict
  | .gauge => []
  | .histogram => []

end CheckSelections

end Rollup
