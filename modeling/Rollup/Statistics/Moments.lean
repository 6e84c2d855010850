import Rollup.Statistics.Compensated

/-!
Standardized moments of a batch taken as a whole population.
-/
namespace Rollup

structure Moments where
  deviation : Float
  skewness : Float
  /-- In excess of that of a normal distribution. -/
  kurtosis : Float
  deriving Repr

/-- Above this many samples the skewness is corrected for the size of the batch. -/
def correctedAbove : Nat := 5

def Moments.compute (values : List Float) (mean : Float) : Option Moments :=
  if values.isEmpty then none
  else
    let diffs := values.map (· - mean)
    let squares := diffs.map fun d => d * d
    let cubes := diffs.map fun d => d * d * d
    let fourths := diffs.map fun d => d * d * d * d
    let n := values.length
    let count := n.toFloat
    let variance := compensatedTotal squares / count
    let deviation := variance.sqrt
    if deviation == 0.0 then some ⟨deviation, 0.0, 0.0⟩
    else
      let third := compensatedTotal cubes
      let skew :=
        if correctedAbove < n then third * count / ((n - 1) * (n - 2)).toFloat
        else third / count
      some ⟨deviation, skew / (deviation * deviation * deviation),
        compensatedTotal fourths / count / (variance * variance) - 3.0⟩

end Rollup
