import Rollup.Config.Kind
import Rollup.Config.Threshold
import Rollup.Output.Dialect
import Rollup.Sorting

/-!
The configuration of the aggregation engine.
-/
namespace Rollup

structure SelectionConfig where
  /-- Paths must match one of these; a pattern after an exclamation mark is negated. -/
  whitelist : List String := []
  blacklist : List String := []
  /-- Decides for every path when both lists are empty. -/
  fallback : Bool := false
  deriving DecidableEq, Repr

structure StatsConfig where
  base : KindConfig := {}
  thresholds : String := "90,99"
  /-- Batches of at least this many samples are radix sorted. -/
  sortThreshold : Nat := Sorting.defaultThreshold
  deriving DecidableEq, Repr

structure CheckConfig where
  enable : Bool := false
  /-- The number of samples from which a tick is reported. -/
  leastPoints : Nat := 30
  selection : SelectionConfig := {}
  deriving DecidableEq, Repr

structure PredictConfig where
  enable : Bool := false
  size : Nat := 30
  selection : SelectionConfig := {}
  deriving DecidableEq, Repr

structure BlockConfig where
  name : String := ""
  enable : Bool := true
  /-- Marks the layout of paths that no layout selects. -/
  isDefault : Bool := false
  bounds : List Float := []
  selection : SelectionConfig := {}
  deriving DecidableEq, Repr

structure SyntheticConfig where
  target : String := ""
  source : List String := []
  operation : String := ""
  factor : Float := 1.0
  /-- How many sources may be without data; unset or negative leaves it to the operation. -/
  maxAbsent : Option Int := none
  enable : Bool := true
  deriving DecidableEq, Repr

structure CollectionConfig where
  enable : Bool := true
  /-- Ticks without data after which a record is removed. -/
  threshold : Nat := 8640
  gaugeThreshold : Nat := 25920
  deriving DecidableEq, Repr

structure SelfStatsConfig where
  enable : Bool := true
  pathPrefix : String := "self.tally."
  deriving DecidableEq, Repr

structure EngineConfig where
  periodMs : Nat := 10000
  offsetMs : Nat := 0
  /-- Aligns ticks to the wall clock. -/
  sync : Bool := true
  dialect : Dialect := .ministry
  /-- Output buffers are handed off from this many bytes on. -/
  bufferSize : Nat := 32768
  adder : KindConfig := {}
  gauge : KindConfig := {}
  stats : StatsConfig := {}
  histogram : KindConfig := {}
  selfStats : SelfStatsConfig := {}
  moments : CheckConfig := {}
  mode : CheckConfig := {}
  predict : PredictConfig := {}
  histograms : List BlockConfig := []
  synthetics : List SyntheticConfig := []
  collection : CollectionConfig := {}
  deriving DecidableEq, Repr

def StatsConfig.thresholdList (c : StatsConfig) : Except ConfigError (List Threshold) :=
  Threshold.readAll c.thresholds

def StatsConfig.effectiveSortThreshold (c : StatsConfig) : Nat :=
  max Sorting.leastThreshold c.sortThreshold

def PredictConfig.leastSize : Nat := 10

def PredictConfig.greatestSize : Nat := 500

def PredictConfig.sizeAllowed (c : PredictConfig) : Bool :=
  leastSize ≤ c.size && c.size ≤ greatestSize

/-- How many predictions may stand in for data in a row, as a word of thirty-two bits. -/
def PredictConfig.limit (c : PredictConfig) : Nat := c.size / 3 % 0x100000000

def CollectionConfig.thresholdFor (c : CollectionConfig) : Kind → Nat
  | .gauge => c.gaugeThreshold
  | _ => c.threshold

def SelfStatsConfig.effectivePrefix (c : SelfStatsConfig) : String := dotted c.pathPrefix

namespace EngineConfig

def kindConfig (c : EngineConfig) : Kind → KindConfig
  | .adder => c.adder
  | .gauge => c.gauge
  | .stats => c.stats.base
  | .histogram => c.histogram

def kindSettings (c : EngineConfig) (kind : Kind) : KindSettings := (c.kindConfig kind).resolve kind

/-- The period in seconds: whole seconds, and then the nanoseconds over. -/
def periodSeconds (c : EngineConfig) : Float :=
  (c.periodMs / 1000).toFloat + (c.periodMs % 1000 * 1000000).toFloat / 1e9

/-- Checks the values that building the parts of an engine does not check. -/
def validate (c : EngineConfig) : Except ConfigError Unit := do
  if c.periodMs = 0 then throw .zeroPeriod
  if c.predict.enable ∧ ¬ c.predict.sizeAllowed then throw (.predictSize c.predict.size)
  let _ ← c.stats.thresholdList

end EngineConfig

end Rollup
