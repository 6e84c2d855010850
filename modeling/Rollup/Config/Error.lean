import Rollup.Pattern.Error
import Rollup.Text.Quoted

/-!
Why a configuration cannot be used.
-/
namespace Rollup

inductive ThresholdFault
  | notANumber
  | outOfRange
  | median
  deriving DecidableEq, Repr

def ThresholdFault.message : ThresholdFault → String
  | .notANumber => "not a number"
  | .outOfRange => "must be between zero and the top"
  | .median => "the median is always reported"

inductive LayoutFault
  | noBounds
  | tooManyBounds
  | nonFiniteBound
  | duplicateBounds
  | secondDefault
  | noneEnabled
  deriving DecidableEq, Repr

def LayoutFault.message : LayoutFault → String
  | .noBounds => "no bounds"
  | .tooManyBounds => "more than 10 bounds"
  | .nonFiniteBound => "bounds must be finite"
  | .duplicateBounds => "duplicate bounds"
  | .secondDefault => "more than one default block"
  | .noneEnabled => "no enabled block"

inductive SyntheticField
  | target
  | operation
  | source
  deriving DecidableEq, Repr

def SyntheticField.name : SyntheticField → String
  | .target => "target"
  | .operation => "operation"
  | .source => "source"

inductive ConfigError
  | invalidRegex (pattern : String) (cause : Pattern.Error)
  | incompleteSynthetic (index : Nat) (field : SyntheticField)
  | unknownOperation (target operation : String)
  | tooFewSources (target : String) (least parts : Nat)
  | tooManySources (target : String) (parts : Nat)
  | invalidThreshold (threshold : String) (fault : ThresholdFault)
  | tooManyThresholds (count : Nat)
  | invalidHistogram (name : String) (fault : LayoutFault)
  | tooManyHistograms (count : Nat)
  | predictSize (size : Nat)
  | zeroPeriod
  deriving DecidableEq, Repr

namespace ConfigError

def message : ConfigError → String
  | invalidRegex pattern _ => "invalid regex " ++ quoted pattern
  | incompleteSynthetic index field =>
    "synthetic definition #" ++ toString index ++ " has no " ++ field.name
  | unknownOperation target operation =>
    "synthetic " ++ target ++ ": unknown operation " ++ quoted operation
  | tooFewSources target least parts =>
    "synthetic " ++ target ++ " does not have enough sources (needs " ++ toString least ++
      ", has " ++ toString parts ++ ")"
  | tooManySources target parts =>
    "synthetic " ++ target ++ " has " ++ toString parts ++ " sources, at most 32 are supported"
  | invalidThreshold threshold fault =>
    "invalid threshold " ++ quoted threshold ++ ": " ++ fault.message
  | tooManyThresholds count => toString count ++ " thresholds configured, at most 20 are allowed"
  | invalidHistogram name fault => "histogram block " ++ quoted name ++ ": " ++ fault.message
  | tooManyHistograms count =>
    toString count ++ " histogram blocks configured, at most 64 are allowed"
  | predictSize size => "prediction size " ++ toString size ++ " is outside of 10..=500"
  | zeroPeriod => "the tick period must be positive"

def causes : ConfigError → List String
  | invalidRegex pattern cause =>
    [cause.message (if pattern.startsWith "!" then (pattern.drop 1).toString else pattern)]
  | _ => []

end ConfigError

end Rollup
