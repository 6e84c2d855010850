import Rollup.Pass
import Rollup.Statistics.Mode
import Rollup.Statistics.Moments
import Rollup.Statistics.Percentile

/-!
The report of a batch of samples: count, sum and order statistics, and perhaps moments and mode.
Everything is computed from the sorted batch.
-/
namespace Rollup

namespace Stats

def sampleAt (sorted : Array Float) (numerator denominator : Nat) : Float :=
  sorted[fractionIndex sorted.size numerator denominator]?.getD 0.0

def basicReadings (name : String) (sorted : Array Float) (sum mean : Float) : List Reading :=
  let lower := sampleAt sorted 0 1
  let upper := sampleAt sorted 1 1
  [.of (name ++ ".count") sorted.size.toFloat, .of (name ++ ".sum") sum,
    .of (name ++ ".mean") mean, .of (name ++ ".upper") upper, .of (name ++ ".lower") lower,
    .of (name ++ ".median") (sampleAt sorted 1 2), .of (name ++ ".spread") (upper - lower)]

def thresholdReading (name : String) (sorted : Array Float) (t : Threshold) : Reading :=
  .of (name ++ "." ++ t.label) (sampleAt sorted t.value t.top)

def momentReadings (name : String) (m : Moments) : List Reading :=
  [.of (name ++ ".stddev") m.deviation, .of (name ++ ".skewness") m.skewness,
    .of (name ++ ".kurtosis") m.kurtosis]

def modeReadings (name : String) (m : Mode) : List Reading :=
  [.of (name ++ ".mode") m.value, .of (name ++ ".mode_ct") m.count.toFloat]

def readings (settings : Settings) (checks : List Check) (name : String) (sorted : Array Float) :
    List Reading :=
  let count := sorted.size
  let samples := sorted.toList
  let sum := compensatedTotal samples
  let mean := sum / count.toFloat
  let moments :=
    if Check.moments ∈ checks ∧ settings.momentsLeastPoints ≤ count then
      (Moments.compute samples mean).toList.flatMap (momentReadings name)
    else []
  let mode :=
    if Check.mode ∈ checks ∧ settings.modeLeastPoints ≤ count then
      (Mode.find samples).toList.flatMap (modeReadings name)
    else []
  basicReadings name sorted sum mean ++
    settings.thresholds.map (thresholdReading name sorted) ++ moments ++ mode

end Stats

def Record.passStats (settings : Settings) (r : Record) (w : Sorting.Workspace) :
    RecordReport × Sorting.Workspace × Record :=
  let r := r.swap
  match r.body with
  | .stats sides =>
    let batch := sides.processed.flatten
    if sides.processed.count = 0 then (⟨0, [], 0⟩, w, r)
    else
      let (sorted, w) := Sorting.sortSamples settings.sortThreshold batch w
      let name := settings.reportName .stats r.path
      (⟨batch.size, Stats.readings settings r.checks name sorted, 0⟩, w, r)
  | _ => (⟨0, [], 0⟩, w, r)

end Rollup
