import Rollup.Histogram.Layout
import Rollup.Synthetic
import Rollup.Worker

/-!
The engine: the records of all paths, the workers that report them, and the synthetic adders.
-/
namespace Rollup

structure Engine where
  settings : Settings
  checks : CheckSelections
  layouts : LayoutSet
  store : Store
  workers : PerKind (List Worker)
  synthetics : List Synthetic
  signals : Array Signal

namespace Engine

def measure (s : Signal) (e : Engine) : Engine := { e with signals := e.signals.push s }

def measureAll (signals : List Signal) (e : Engine) : Engine := signals.foldl (flip measure) e

def modifyRecord (h : Handle) (f : Record → Record) (e : Engine) : Engine :=
  { e with store := e.store.modify h f }

/-- The layout that a new record of the path gets. Only histograms look for one. -/
def layoutFor (e : Engine) (kind : Kind) (path : String) : Layout :=
  match kind with
  | .histogram => e.layouts.resolve path
  | _ => e.layouts.fallback

def newRecord (e : Engine) (kind : Kind) (path : String) (layout : Layout) : Record :=
  let checks := e.checks.resolve kind path
  let predictor :=
    if checks.contains .predict then some (Predictor.empty e.settings.predictSize) else none
  .empty path e.store.nextId checks (.empty layout predictor kind)

def insert (kind : Kind) (path : String) (layout : Layout) (e : Engine) : Handle × Engine :=
  let r := e.newRecord kind path layout
  let (h, store) := e.store.insert r
  let e := { e with store := store }
  (h, e.measure (.counter "engine.records.created" 1 [Signal.kindTag kind]))

def getOrCreate (kind : Kind) (path : String) (e : Engine) : Handle × Engine :=
  match e.store.locate kind path with
  | some h => (h, e)
  | none => e.insert kind path (e.layoutFor kind path)

def locate (e : Engine) (kind : Kind) (path : String) : Option Handle := e.store.locate kind path

def remove (kind : Kind) (path : String) (e : Engine) : Option Handle × Engine :=
  let (h, store) := e.store.remove kind path
  (h, { e with store := store })

def bindSynthetic (definition : Definition) (e : Engine) : Synthetic × Engine :=
  let (h, e) := e.getOrCreate .adder definition.target
  (.bind definition h, e.modifyRecord h Record.exempt)

def bindSynthetics : List Definition → Engine → List Synthetic × Engine
  | [], e => ([], e)
  | definition :: rest, e =>
    let (s, e) := e.bindSynthetic definition
    let (more, e) := bindSynthetics rest e
    (s :: more, e)

/-- Without adders nothing is derived from them. -/
def activeDefinitions (settings : Settings) (definitions : List Definition) : List Definition :=
  if (settings.kind .adder).enable then definitions else []

/-- Builds an engine; the first fault counts. Targets of synthetic adders are created right away. -/
def ofConfig (c : EngineConfig) : Except ConfigError Engine := do
  c.validate
  let settings ← Settings.ofConfig c
  let layouts ← LayoutSet.ofConfig c.histograms
  let checks ← CheckSelections.ofConfig c
  let definitions ← Definition.ofConfigs 0 c.synthetics
  let e : Engine :=
    { settings := settings, checks := checks, layouts := layouts,
      store := .empty fun kind => (settings.kind kind).tableSize,
      workers := .ofFn (Worker.createAll settings), synthetics := [], signals := #[] }
  let (synthetics, e) := e.bindSynthetics (activeDefinitions settings definitions)
  return { e with synthetics := synthetics }

def setLayouts (layouts : LayoutSet) (e : Engine) : Engine := { e with layouts := layouts }

def retargetAll (e : Engine) : Engine :=
  { e with store := (e.store.valid .histogram).foldl (fun store h =>
      store.modify h fun r => r.retarget (e.layouts.resolve r.path)) e.store }

def reconfigure (blocks : List BlockConfig) (e : Engine) : Except ConfigError Engine := do
  let layouts ← LayoutSet.ofConfig blocks
  return (e.setLayouts layouts).retargetAll

def drain (e : Engine) : Array String × Engine :=
  let step (state : Array String × Engine) (kind : Kind) : Array String × Engine :=
    let (sent, e) := state
    let drained := (e.workers.get kind).map fun w => w.buffer.drain
    let sent := drained.foldl (fun sent d => sent ++ d.1) sent
    let workers := ((e.workers.get kind).zip drained).map fun (w, d) => { w with buffer := d.2 }
    (sent, { e with workers := e.workers.set kind workers })
  Kind.all.foldl step (#[], e)

def drainSignals (e : Engine) : List Signal × Engine :=
  (e.signals.toList, { e with signals := #[] })

end Engine

end Rollup
