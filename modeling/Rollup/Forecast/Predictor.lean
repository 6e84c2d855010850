import Rollup.Forecast.Line

/-!
A predictor learns from the last few ticks of a path, forecasts the next one, and stands in for a
tick without data, but not for too many in a row.
-/
namespace Rollup

structure Forecast where
  /-- The previous prediction less the observed value, if there was a valid prediction. -/
  diff : Option Float
  line : Line
  prediction : Float
  deriving Repr

structure Predictor where
  /-- The history, a ring once it is full. -/
  history : Array Observation
  size : Nat
  /-- The oldest observation once the ring has wrapped. -/
  next : Nat
  /-- Observations since creation or the last reset, while not valid. -/
  filled : Nat
  valid : Bool
  substituted : Nat
  /-- A substituted value awaits its observation. -/
  substituting : Bool
  prediction : Float
  deriving Repr

namespace Predictor

/-- A line needs two points. -/
def leastSize : Nat := 2

def empty (size : Nat) : Predictor :=
  { history := #[], size := max size leastSize, next := 0, filled := 0, valid := false,
    substituted := 0, substituting := false, prediction := 0.0 }

/-- The prediction as a stand-in for a tick without data, at most `limit` times in a row. -/
def substitute (p : Predictor) (limit : Nat) : Option Float × Predictor :=
  if !p.valid || limit ≤ p.substituted then (none, p)
  else (some p.prediction, { p with substituted := p.substituted + 1, substituting := true })

def push (p : Predictor) (o : Observation) : Predictor :=
  if p.history.size < p.size then { p with history := p.history.push o }
  else { p with history := p.history.setIfInBounds p.next o, next := (p.next + 1) % p.size }

def oldest (p : Predictor) : Option Observation := p.history[p.next]?

def newest (p : Predictor) : Option Observation :=
  p.history[(p.next + p.history.size - 1) % max p.history.size 1]?

def endRow (p : Predictor) : Predictor :=
  if p.substituting then { p with substituting := false } else { p with substituted := 0 }

def fill (p : Predictor) : Predictor :=
  if p.valid then p
  else { p with filled := p.filled + 1, valid := p.size ≤ p.filled + 1 }

def learn (p : Predictor) (time nextTime : Float) : Line × Predictor :=
  let (oldest, newest) := match p.oldest, p.newest with
    | some first, some last => (first.time, last.time)
    | _, _ => (time, time)
  let line := Line.fitted p.history.toList oldest newest
  (line, { p with prediction := line.eval nextTime })

def resetAfter (p : Predictor) (limit : Nat) : Predictor :=
  if limit ≤ p.substituted then { p with valid := false, filled := 0, substituted := 0 } else p

/-- Takes in the value of a tick; there is no forecast until the history has filled. -/
def observe (p : Predictor) (time value nextTime : Float) (limit : Nat) :
    Option Forecast × Predictor :=
  let before := p
  let p := ((p.push ⟨time, value⟩).endRow).fill
  if !p.valid then (none, p)
  else
    let diff := if before.valid then some (before.prediction - value) else none
    let (line, p) := p.learn time nextTime
    (some ⟨diff, line, p.prediction⟩, p.resetAfter limit)

end Predictor

end Rollup
