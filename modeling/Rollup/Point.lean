import Rollup.Kind
import Rollup.Text.Quoted

/-!
Data points, and why a text is not one.
-/
namespace Rollup

/-- How a value applies to a gauge. Points of the other kinds always set. -/
inductive Adjustment
  | set
  | add
  | subtract
  deriving DecidableEq, Repr, Inhabited

structure Point where
  path : String
  kind : Kind
  /-- Already scaled by the sample rate. -/
  value : Float
  adjustment : Adjustment
  deriving Repr

/-- Why a line is not a point; texts are quoted as they stand in the line. -/
inductive LineError
  | missingValue
  | emptyPath
  | missingType
  | unknownType (type : String)
  | invalidValue (value : String)
  | nonFinite (value : String)
  | invalidRate (rate : String)
  deriving DecidableEq, Repr

def LineError.message : LineError → String
  | .missingValue => "missing value separator"
  | .emptyPath => "empty metric path"
  | .missingType => "missing metric type"
  | .unknownType type => "unknown metric type " ++ quoted type
  | .invalidValue value => "invalid value " ++ quoted value
  | .nonFinite value => "value " ++ quoted value ++ " is not finite"
  | .invalidRate rate => "invalid sample rate " ++ quoted rate

end Rollup
