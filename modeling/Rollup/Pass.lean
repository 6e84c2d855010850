import Rollup.Record
import Rollup.Settings

/-!
What a worker does with one record in a tick. A pass takes what came in since the last tick and
turns it into readings.
-/
namespace Rollup

structure RecordReport where
  points : Nat
  readings : List Reading := []
  forecasts : Nat := 0
  deriving Repr

namespace Record

/-- Takes the input of an adder. Without any, its predictor may stand in with one point. -/
def takeAdder (limit : Nat) (r : Record) : Record :=
  let r := r.swap
  match r.body with
  | .adder sides (some predictor) =>
    if 0 < sides.processed.count then r
    else
      let (substitute, predictor) := predictor.substitute limit
      let processed := match substitute with
        | some total => ⟨total, 1⟩
        | none => sides.processed
      { r with body := .adder ⟨sides.input, processed⟩ (some predictor) }
  | _ => r

def forecastReadings (name : String) (f : Forecast) : List Reading :=
  (f.diff.toList.map (Reading.of (name ++ ".diff"))) ++
    [⟨name ++ ".lr_a", f.line.intercept, 10⟩, ⟨name ++ ".lr_b", f.line.slope, 10⟩,
      .of (name ++ ".fit") f.line.fit, .of (name ++ ".predict") f.prediction]

def reportAdder (settings : Settings) (nowMs : Nat) (r : Record) : RecordReport × Record :=
  let name := settings.reportName .adder r.path
  match r.body with
  | .adder sides (some predictor) =>
    let totals := sides.processed
    let time := nowMs.toFloat / 1000.0
    let (forecast, predictor) :=
      predictor.observe time totals.total (time + settings.periodSeconds) settings.predictLimit
    let r := { r with body := .adder sides (some predictor) }
    let input := Reading.of (name ++ ".input") totals.total
    match forecast with
    | some f => (⟨totals.count, input :: forecastReadings name f, 1⟩, r)
    | none => (⟨totals.count, [input], 0⟩, r)
  | .adder sides none =>
    (⟨sides.processed.count, [.of name sides.processed.total], 0⟩, r)
  | _ => (⟨0, [], 0⟩, r)

/-- Takes and reports a gauge. An idle gauge repeats its value. -/
def passGauge (settings : Settings) (r : Record) : RecordReport × Record :=
  let r := r.swap
  match r.body with
  | .gauge sides =>
    (⟨sides.processed.count, [.of (settings.reportName .gauge r.path) sides.processed.total], 0⟩, r)
  | _ => (⟨0, [], 0⟩, r)

def bucketReadings (name : String) (bound : Float) (count index : Nat) : List Reading :=
  let name := name ++ "." ++ toString index
  [.of (name ++ ".bound") bound, .of (name ++ ".count") count.toFloat]

def histogramReadings (name : String) (b : Buckets) : List Reading :=
  ((b.layout.bounds.zip b.counts.toList).zipIdx.flatMap fun ((bound, count), index) =>
      bucketReadings name bound count index) ++
    [.of (name ++ ".inf.count") b.overflow.toFloat, .of (name ++ ".total") b.count.toFloat]

def passHistogram (settings : Settings) (r : Record) : RecordReport × Record :=
  let r := r.swap
  match r.body with
  | .histogram sides =>
    let points := sides.processed.count
    if points = 0 then (⟨0, [], 0⟩, r)
    else
      let name := settings.reportName .histogram r.path
      (⟨points, histogramReadings name sides.processed, 0⟩, r)
  | _ => (⟨0, [], 0⟩, r)

end Record

end Rollup
