import Rollup.Config.Engine
import Rollup.Document

/-!
How the engine configuration stands in a document: read with defaults for what is missing, and
written in full.
-/
namespace Rollup

namespace Document

def ofNat (n : Nat) : Document := .int n

def ofTexts (texts : List String) : Document := .list (texts.map .text)

end Document

def optionalEntry (key : String) (write : α → Document) (value : Option α) :
    List (String × Document) :=
  value.toList.map fun x => (key, write x)

def Dialect.all : List Dialect := [.ministry, .graphite, .statsd]

def Dialect.ofDocument : Document → Except FormError Dialect := Document.readName all name

namespace SelectionConfig

def ofSection (s : Section) : Except FormError SelectionConfig := do
  let d : SelectionConfig := {}
  return {
    whitelist := ← s.read "whitelist" d.whitelist (Document.readList Document.readText)
    blacklist := ← s.read "blacklist" d.blacklist (Document.readList Document.readText)
    fallback := ← s.read "fallback_match" d.fallback Document.readBool }

def ofDocument (doc : Document) : Except FormError SelectionConfig := do
  ofSection (← Section.ofFields ["whitelist", "blacklist", "fallback_match"] doc)

def entries (c : SelectionConfig) : List (String × Document) :=
  [("whitelist", .ofTexts c.whitelist), ("blacklist", .ofTexts c.blacklist),
    ("fallback_match", .bool c.fallback)]

end SelectionConfig

namespace KindConfig

def ofSection (s : Section) : Except FormError KindConfig := do
  let d : KindConfig := {}
  return {
    enable := ← s.read "enable" d.enable Document.readBool
    threads := ← s.read "threads" d.threads (Document.readOptional Document.readWord)
    pathPrefix := ← s.read "prefix" d.pathPrefix (Document.readOptional Document.readText)
    tableSize := ← s.read "hash_size" d.tableSize (Document.readOptional Document.readWord) }

def ofDocument (doc : Document) : Except FormError KindConfig := do
  ofSection (← Section.ofFields ["enable", "threads", "prefix", "hash_size"] doc)

def entries (c : KindConfig) : List (String × Document) :=
  [("enable", .bool c.enable)] ++ optionalEntry "threads" .ofNat c.threads ++
    optionalEntry "prefix" .text c.pathPrefix ++ optionalEntry "hash_size" .ofNat c.tableSize

def toDocument (c : KindConfig) : Document := .map c.entries

end KindConfig

namespace StatsConfig

def ofDocument (doc : Document) : Except FormError StatsConfig := do
  let s ← Section.ofDocument doc
  let d : StatsConfig := {}
  return {
    base := ← KindConfig.ofSection s.settle
    thresholds := ← s.read "thresholds" d.thresholds Document.readText
    sortThreshold := ← s.read "qsort_threshold" d.sortThreshold Document.readWord }

def entries (c : StatsConfig) : List (String × Document) :=
  c.base.entries ++
    [("thresholds", .text c.thresholds), ("qsort_threshold", .ofNat c.sortThreshold)]

def toDocument (c : StatsConfig) : Document := .map c.entries

end StatsConfig

namespace CheckConfig

def ofDocument (doc : Document) : Except FormError CheckConfig := do
  let s ← Section.ofDocument doc
  let d : CheckConfig := {}
  return {
    enable := ← s.read "enable" d.enable Document.readBool
    leastPoints := ← s.read "min_points" d.leastPoints Document.readWord
    selection := ← SelectionConfig.ofSection s.settle }

def entries (c : CheckConfig) : List (String × Document) :=
  [("enable", .bool c.enable), ("min_points", .ofNat c.leastPoints)] ++ c.selection.entries

def toDocument (c : CheckConfig) : Document := .map c.entries

end CheckConfig

namespace PredictConfig

def ofDocument (doc : Document) : Except FormError PredictConfig := do
  let s ← Section.ofDocument doc
  let d : PredictConfig := {}
  return {
    enable := ← s.read "enable" d.enable Document.readBool
    size := ← s.read "size" d.size Document.readWord
    selection := ← SelectionConfig.ofSection s.settle }

def entries (c : PredictConfig) : List (String × Document) :=
  [("enable", .bool c.enable), ("size", .ofNat c.size)] ++ c.selection.entries

def toDocument (c : PredictConfig) : Document := .map c.entries

end PredictConfig

namespace BlockConfig

def ofDocument (doc : Document) : Except FormError BlockConfig := do
  let s ← Section.ofDocument doc
  let d : BlockConfig := {}
  return {
    name := ← s.read "name" d.name Document.readText
    enable := ← s.read "enable" d.enable Document.readBool
    isDefault := ← s.read "default" d.isDefault Document.readBool
    bounds := ← s.read "bounds" d.bounds (Document.readList Document.readFloat)
    selection := ← SelectionConfig.ofSection s.settle }

def entries (c : BlockConfig) : List (String × Document) :=
  [("name", .text c.name), ("enable", .bool c.enable), ("default", .bool c.isDefault),
    ("bounds", .list (c.bounds.map .float))] ++ c.selection.entries

def toDocument (c : BlockConfig) : Document := .map c.entries

end BlockConfig

namespace SyntheticConfig

def ofDocument (doc : Document) : Except FormError SyntheticConfig := do
  let s ← Section.ofFields
    ["target", "source", "operation", "factor", "max_absent", "enable"] doc
  let d : SyntheticConfig := {}
  return {
    target := ← s.read "target" d.target Document.readText
    source := ← s.read "source" d.source (Document.readList Document.readText)
    operation := ← s.read "operation" d.operation Document.readText
    factor := ← s.read "factor" d.factor Document.readFloat
    maxAbsent := ← s.read "max_absent" d.maxAbsent
      (Document.readOptional (Document.readInt (-2147483648) 2147483647))
    enable := ← s.read "enable" d.enable Document.readBool }

def entries (c : SyntheticConfig) : List (String × Document) :=
  [("target", .text c.target), ("source", .ofTexts c.source),
    ("operation", .text c.operation), ("factor", .float c.factor)] ++
    optionalEntry "max_absent" .int c.maxAbsent ++ [("enable", .bool c.enable)]

def toDocument (c : SyntheticConfig) : Document := .map c.entries

end SyntheticConfig

namespace CollectionConfig

def ofDocument (doc : Document) : Except FormError CollectionConfig := do
  let s ← Section.ofFields ["enable", "threshold", "gauge_threshold"] doc
  let d : CollectionConfig := {}
  return {
    enable := ← s.read "enable" d.enable Document.readBool
    threshold := ← s.read "threshold" d.threshold Document.readWord
    gaugeThreshold := ← s.read "gauge_threshold" d.gaugeThreshold Document.readWord }

def entries (c : CollectionConfig) : List (String × Document) :=
  [("enable", .bool c.enable), ("threshold", .ofNat c.threshold),
    ("gauge_threshold", .ofNat c.gaugeThreshold)]

def toDocument (c : CollectionConfig) : Document := .map c.entries

end CollectionConfig

namespace SelfStatsConfig

def ofDocument (doc : Document) : Except FormError SelfStatsConfig := do
  let s ← Section.ofFields ["enable", "prefix"] doc
  let d : SelfStatsConfig := {}
  return {
    enable := ← s.read "enable" d.enable Document.readBool
    pathPrefix := ← s.read "prefix" d.pathPrefix Document.readText }

def entries (c : SelfStatsConfig) : List (String × Document) :=
  [("enable", .bool c.enable), ("prefix", .text c.pathPrefix)]

def toDocument (c : SelfStatsConfig) : Document := .map c.entries

end SelfStatsConfig

namespace EngineConfig

def ofDocument (doc : Document) : Except FormError EngineConfig := do
  let s ← Section.ofFields
    ["period_ms", "offset_ms", "sync", "dialect", "buffer_size", "adder", "gauge", "stats",
      "histo", "self_stats", "moments", "mode", "predict", "histograms", "synths", "gc"] doc
  let d : EngineConfig := {}
  return {
    periodMs := ← s.read "period_ms" d.periodMs Document.readWord
    offsetMs := ← s.read "offset_ms" d.offsetMs Document.readWord
    sync := ← s.read "sync" d.sync Document.readBool
    dialect := ← s.read "dialect" d.dialect Dialect.ofDocument
    bufferSize := ← s.read "buffer_size" d.bufferSize Document.readWord
    adder := ← s.read "adder" d.adder KindConfig.ofDocument
    gauge := ← s.read "gauge" d.gauge KindConfig.ofDocument
    stats := ← s.read "stats" d.stats StatsConfig.ofDocument
    histogram := ← s.read "histo" d.histogram KindConfig.ofDocument
    selfStats := ← s.read "self_stats" d.selfStats SelfStatsConfig.ofDocument
    moments := ← s.read "moments" d.moments CheckConfig.ofDocument
    mode := ← s.read "mode" d.mode CheckConfig.ofDocument
    predict := ← s.read "predict" d.predict PredictConfig.ofDocument
    histograms := ← s.read "histograms" d.histograms (Document.readList BlockConfig.ofDocument)
    synthetics := ← s.read "synths" d.synthetics (Document.readList SyntheticConfig.ofDocument)
    collection := ← s.read "gc" d.collection CollectionConfig.ofDocument }

def entries (c : EngineConfig) : List (String × Document) :=
  [("period_ms", .ofNat c.periodMs), ("offset_ms", .ofNat c.offsetMs), ("sync", .bool c.sync),
    ("dialect", .text c.dialect.name), ("buffer_size", .ofNat c.bufferSize),
    ("adder", c.adder.toDocument), ("gauge", c.gauge.toDocument), ("stats", c.stats.toDocument),
    ("histo", c.histogram.toDocument), ("self_stats", c.selfStats.toDocument),
    ("moments", c.moments.toDocument), ("mode", c.mode.toDocument),
    ("predict", c.predict.toDocument), ("histograms", .list (c.histograms.map (·.toDocument))),
    ("synths", .list (c.synthetics.map (·.toDocument))), ("gc", c.collection.toDocument)]

def toDocument (c : EngineConfig) : Document := .map c.entries

end EngineConfig

end Rollup
