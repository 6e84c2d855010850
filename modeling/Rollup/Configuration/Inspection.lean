import Rollup.Configuration
import Rollup.Number.Shortest
import Rollup.Text.Inspection

/-!
The whole configuration written out for inspection.
-/
namespace Rollup

namespace Inspection

/-- Positional from a ten-thousandth up to sixteen digits before the point. -/
def floats : FloatNotation := ⟨-4, 15, "NaN", "inf"⟩

def float (x : Float) : Inspection := .atom (floats.write x)

def texts (items : List String) : Inspection := .list (items.map .text)

def whole (name : String) (fields : List (String × Inspection)) : Inspection :=
  .record name fields false

end Inspection

open Inspection in
def SelectionConfig.inspect (c : SelectionConfig) : Inspection :=
  whole "MatchConfig" [("whitelist", texts c.whitelist), ("blacklist", texts c.blacklist),
    ("fallback_match", bool c.fallback)]

open Inspection in
def KindConfig.inspect (c : KindConfig) : Inspection :=
  whole "TypeConfig" [("enable", bool c.enable), ("threads", optional nat c.threads),
    ("prefix", optional .text c.pathPrefix), ("hash_size", optional nat c.tableSize)]

open Inspection in
def StatsConfig.inspect (c : StatsConfig) : Inspection :=
  whole "StatsConfig" [("base", c.base.inspect), ("thresholds", .text c.thresholds),
    ("qsort_threshold", nat c.sortThreshold)]

open Inspection in
def CheckConfig.inspect (c : CheckConfig) : Inspection :=
  whole "CheckConfig" [("enable", bool c.enable), ("min_points", nat c.leastPoints),
    ("matching", c.selection.inspect)]

open Inspection in
def PredictConfig.inspect (c : PredictConfig) : Inspection :=
  whole "PredictConfig" [("enable", bool c.enable), ("size", nat c.size),
    ("matching", c.selection.inspect)]

open Inspection in
def BlockConfig.inspect (c : BlockConfig) : Inspection :=
  whole "HistogramBlockConfig" [("name", .text c.name), ("enable", bool c.enable),
    ("default", bool c.isDefault), ("bounds", .list (c.bounds.map float)),
    ("matching", c.selection.inspect)]

open Inspection in
def SyntheticConfig.inspect (c : SyntheticConfig) : Inspection :=
  whole "SynthConfig" [("target", .text c.target), ("source", texts c.source),
    ("operation", .text c.operation), ("factor", float c.factor),
    ("max_absent", optional (fun n => .atom (toString n)) c.maxAbsent), ("enable", bool c.enable)]

open Inspection in
def CollectionConfig.inspect (c : CollectionConfig) : Inspection :=
  whole "GcConfig" [("enable", bool c.enable), ("threshold", nat c.threshold),
    ("gauge_threshold", nat c.gaugeThreshold)]

open Inspection in
def SelfStatsConfig.inspect (c : SelfStatsConfig) : Inspection :=
  whole "SelfStatsConfig" [("enable", bool c.enable), ("prefix", .text c.pathPrefix)]

open Inspection in
def EngineConfig.inspect (c : EngineConfig) : Inspection :=
  whole "EngineConfig" [("period_ms", nat c.periodMs), ("offset_ms", nat c.offsetMs),
    ("sync", bool c.sync), ("dialect", .atom c.dialect.label), ("buffer_size", nat c.bufferSize),
    ("adder", c.adder.inspect), ("gauge", c.gauge.inspect), ("stats", c.stats.inspect),
    ("histo", c.histogram.inspect), ("self_stats", c.selfStats.inspect),
    ("moments", c.moments.inspect), ("mode", c.mode.inspect), ("predict", c.predict.inspect),
    ("histograms", .list (c.histograms.map (·.inspect))),
    ("synths", .list (c.synthetics.map (·.inspect))), ("gc", c.collection.inspect)]

open Inspection in
def LogConfig.inspect (c : LogConfig) : Inspection :=
  whole "LogConfig" [("level", .atom c.level.label), ("format", .atom c.format.label),
    ("enable_backtraces", bool c.backtraces)]

open Inspection in
def MetricsConfig.inspect (c : MetricsConfig) : Inspection :=
  whole "Metrics" [("statsd", optional .text c.statsd), ("prefix", .text c.namePrefix),
    ("default_tags", .map (c.defaultTags.map fun (key, value) => (key, .text value))),
    ("hostname_tag", optional .text c.hostnameTag)]

open Inspection in
def Configuration.inspect (c : Configuration) : Inspection :=
  whole "Config" [("values", whole "ConfigValues" [("logging", c.logging.inspect),
    ("metrics", c.metrics.inspect), ("engine", c.engine.inspect)]), ("path", .text c.folder)]

end Rollup
