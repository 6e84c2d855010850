/-!
The least-squares line through a history of values.
-/
namespace Rollup

structure Observation where
  time : Float
  value : Float
  deriving Repr, Inhabited

structure Line where
  intercept : Float
  slope : Float
  /-- Coefficient of determination, zero for a degenerate history. -/
  fit : Float
  deriving Repr

namespace Line

/-- The sum of doubles from the left; that of none is negative zero. -/
def sum (xs : List Float) : Float := xs.foldl (· + ·) (-0.0)

/-- The mean time is the midpoint of `oldest` and `newest`, exact for evenly spaced ticks. A history
without spread in time gives a flat line. -/
def fitted (points : List Observation) (oldest newest : Float) : Line :=
  if points.isEmpty then ⟨0.0, 0.0, 0.0⟩
  else
    let meanValue := sum (points.map (·.value)) / points.length.toFloat
    let meanTime := (oldest + newest) / 2.0
    let deviations := points.map fun p => (p.time - meanTime, p.value - meanValue)
    let sxy := deviations.foldl (fun s (dx, dy) => s + dx * dy) 0.0
    let sxx := deviations.foldl (fun s (dx, _) => s + dx * dx) 0.0
    let syy := deviations.foldl (fun s (_, dy) => s + dy * dy) 0.0
    let slope := if sxx != 0.0 then sxy / sxx else 0.0
    let spread := sxx * syy
    ⟨meanValue - slope * meanTime, slope, if spread != 0.0 then sxy * sxy / spread else 0.0⟩

def eval (l : Line) (time : Float) : Float := l.intercept + l.slope * time

end Line

end Rollup
