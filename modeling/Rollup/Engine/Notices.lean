import Rollup.Engine.Tick
import Rollup.Log.Notice

/-!
What is logged while an engine is built from its configuration, up to the first fault.
-/
namespace Rollup

def StatsConfig.notices (c : StatsConfig) : List Notice :=
  if c.sortThreshold < Sorting.leastThreshold then
    [⟨.warn, "tally_metrics::config",
      "sort threshold raised to the minimum of " ++ toString Sorting.leastThreshold,
      [("configured", .nat c.sortThreshold)]⟩]
  else []

def BlockConfig.notices (c : BlockConfig) : List Notice :=
  if c.isDefault && !c.enable then
    [⟨.warn, "tally_metrics::histogram", "default histogram block is disabled, enabling it",
      [("block", .text c.name)]⟩]
  else []

def LayoutSet.notices (configs : List BlockConfig) : List Notice :=
  if Layout.maxLayouts < configs.length then []
  else heardWhile (fun some => (LayoutSet.build none some).isOk) BlockConfig.notices configs

def SyntheticConfig.notices (c : SyntheticConfig) : List Notice :=
  let parts := c.source.length
  match Operation.ofName? c.operation with
  | none => []
  | some op => match op.usedSources with
    | none => []
    | some used =>
      if used < parts then
        [⟨.warn, "tally_metrics::synth",
          "synthetic has more sources than " ++ op.name ++ " uses, only " ++ toString used ++
            " are read",
          [("target_path", .atom c.target), ("parts", .nat parts)]⟩]
      else []

def Definition.notices (configs : List SyntheticConfig) : List Notice :=
  heardWhile (fun some => (Definition.ofConfigs 0 some).isOk) SyntheticConfig.notices configs

def Definition.created (d : Definition) : Notice :=
  ⟨.info, "tally_metrics::synth", "synthetic created",
    [("target_path", .atom d.target), ("op", .atom d.operation.name)]⟩

def Definition.outcome (adders : Bool) (definitions : List Definition) : List Notice :=
  if definitions.isEmpty then []
  else if adders then definitions.map created
  else [⟨.warn, "tally_metrics::engine", "adders are disabled, ignoring synthetic definitions",
    [("count", .nat definitions.length)]⟩]

namespace Engine

def buildNotices (c : EngineConfig) : List Notice :=
  match c.validate with
  | .error _ => []
  | .ok () => c.stats.notices ++ LayoutSet.notices c.histograms ++
    match LayoutSet.ofConfig c.histograms, CheckSelections.ofConfig c with
    | .ok _, .ok _ => Definition.notices c.synthetics ++
      match Definition.ofConfigs 0 c.synthetics with
      | .ok definitions => Definition.outcome c.adder.enable definitions
      | .error _ => []
    | _, _ => []

def startedNotice (e : Engine) : Notice :=
  ⟨.info, "tally_metrics::engine", "engine started", [("threads", .nat e.threadCount)]⟩

def stoppedNotice : Notice := ⟨.info, "tally_metrics::engine", "engine stopped", []⟩

end Engine

end Rollup
