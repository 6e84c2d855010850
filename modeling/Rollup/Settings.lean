import Rollup.Config.Engine

/-!
What an engine reads from its configuration once, when it is built.
-/
namespace Rollup

structure Settings where
  kinds : PerKind KindSettings
  periodMs : Nat
  offsetMs : Nat
  sync : Bool
  periodSeconds : Float
  dialect : Dialect
  bufferSize : Nat
  thresholds : List Threshold
  sortThreshold : Nat
  momentsLeastPoints : Nat
  modeLeastPoints : Nat
  predictSize : Nat
  predictLimit : Nat
  selfStats : Bool
  selfPrefix : String
  collection : CollectionConfig

namespace Settings

def ofConfig (c : EngineConfig) : Except ConfigError Settings := do
  let thresholds ← c.stats.thresholdList
  return {
    kinds := .ofFn c.kindSettings
    periodMs := c.periodMs
    offsetMs := c.offsetMs
    sync := c.sync
    periodSeconds := c.periodSeconds
    dialect := c.dialect
    bufferSize := c.bufferSize
    thresholds := thresholds
    sortThreshold := c.stats.effectiveSortThreshold
    momentsLeastPoints := c.moments.leastPoints
    modeLeastPoints := c.mode.leastPoints
    predictSize := c.predict.size
    predictLimit := c.predict.limit
    selfStats := c.selfStats.enable
    selfPrefix := c.selfStats.effectivePrefix
    collection := c.collection }

def kind (s : Settings) (kind : Kind) : KindSettings := s.kinds.get kind

def reportName (s : Settings) (kind : Kind) (path : String) : String :=
  (s.kind kind).pathPrefix ++ path

end Settings

end Rollup
