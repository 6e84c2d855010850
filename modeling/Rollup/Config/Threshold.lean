import Rollup.Config.Error
import Rollup.Number.Reading
import Rollup.Text.Blank
import Rollup.Text.Fields

/-!
Percentiles to report: percent, or per mille when an `m` follows the number.
-/
namespace Rollup

structure Threshold where
  value : Nat
  /-- A hundred or a thousand. -/
  top : Nat
  label : String
  deriving DecidableEq, Repr

namespace Threshold

def limit : Nat := 20

def percent : Nat := 100

def perMille : Nat := 1000

def padded (width n : Nat) : String :=
  let digits := toString n
  String.ofList (List.replicate (width - digits.length) '0') ++ digits

/-- Reported below the median as a lower bound, above it as an upper bound. -/
def labelOf (value top : Nat) : String :=
  (if value < top / 2 then "lower_" else "upper_") ++ padded (if top = perMille then 3 else 2) value

/-- Reads one threshold. The ends and the median are reported anyway and are refused. -/
def read (text : List Char) : Except ConfigError Threshold :=
  let refuse (fault : ThresholdFault) := Except.error (.invalidThreshold (.ofList text) fault)
  let (digits, top) :=
    if text.getLast? = some 'm' then (text.dropLast, perMille) else (text, percent)
  match readNat maxWord digits with
  | .error _ => refuse .notANumber
  | .ok value =>
    if value = 0 ∨ top ≤ value then refuse .outOfRange
    else if value = top / 2 then refuse .median
    else .ok ⟨value, top, labelOf value top⟩

/-- Reads thresholds between commas; blanks around them and empty ones do not count. -/
def readAll (text : String) : Except ConfigError (List Threshold) := do
  let parts := ((fields ',' text.toList).map trim).filter fun part => !part.isEmpty
  let thresholds ← parts.mapM read
  if limit < thresholds.length then throw (.tooManyThresholds thresholds.length)
  return thresholds

end Threshold

end Rollup
