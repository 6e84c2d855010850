import Rollup.Engine

/-!
A tick of the engine, in the steps that different threads may take: every worker on its own shard,
the synthetic adders between the two halves of the adder workers, and collection.
-/
namespace Rollup

inductive Activity
  | worker (kind : Kind) (id : Nat)
  | synthetics
  | collection
  deriving DecidableEq, Repr

namespace Engine

def onWorker (kind : Kind) (id : Nat) (act : Worker → Store → Worker × Store) (e : Engine) :
    Engine :=
  match (e.workers.get kind)[id]? with
  | none => e
  | some w =>
    let (w, store) := act w e.store
    { e with store := store, workers := e.workers.modify kind (·.set id w) }

def takeShard (nowMs id : Nat) (e : Engine) : Engine :=
  e.onWorker .adder id (Worker.takeAdders e.settings nowMs)

def reportShard (nowMs id : Nat) (e : Engine) : Engine :=
  e.onWorker .adder id (Worker.reportAdders e.settings nowMs)

def passShard (nowMs : Nat) (kind : Kind) (id : Nat) (e : Engine) : Engine :=
  e.onWorker kind id (Worker.pass e.settings nowMs)

def finishShard (took : Nat) (kind : Kind) (id : Nat) (e : Engine) : Engine :=
  let e := e.onWorker kind id fun w store => (w.finish e.settings took, store)
  match (e.workers.get kind)[id]? with
  | none => e
  | some w => e.measureAll (w.signals took)

def generate (e : Engine) : Nat × Engine :=
  let (written, synthetics, store) := Synthetic.generateAll e.synthetics e.store
  (written, { e with store := store, synthetics := synthetics })

def runSynthetics (took : Nat) (e : Engine) : Engine :=
  if e.synthetics.isEmpty then e
  else
    let (written, e) := e.generate
    (e.measure (.counter "engine.synths.generated" written [])).measure
      (.timer "engine.synths.duration" took [])

def expired (c : CollectionConfig) (kind : Kind) (r : Record) : Bool :=
  r.idle.any fun ticks => c.thresholdFor kind < ticks

def collectKind (e : Engine) (kind : Kind) : Engine :=
  let (removed, store) := e.store.collect kind (expired e.settings.collection kind)
  let e := { e with store := store }
  (e.measure (.counter "engine.records.collected" removed.length [Signal.kindTag kind])).measure
    (.gauge "engine.table.size" (e.store.table kind).length [Signal.kindTag kind])

def collect (took : Nat) (e : Engine) : Engine :=
  if e.settings.collection.enable then
    (Kind.all.foldl collectKind e).measure (.timer "engine.gc.duration" took [])
  else e

def workerIds (e : Engine) (kind : Kind) : List Nat := List.range (e.workers.get kind).length

/-- The adders take their input, synthetic adders are computed, and all adders are reported. -/
def tickAdders (nowMs : Nat) (took : Activity → Nat) (e : Engine) : Engine :=
  let ids := e.workerIds .adder
  let e := ids.foldl (fun e id => e.takeShard nowMs id) e
  let e := e.runSynthetics (took .synthetics)
  ids.foldl (fun e id =>
    (e.reportShard nowMs id).finishShard (took (.worker .adder id)) .adder id) e

def tickKind (nowMs : Nat) (took : Activity → Nat) (e : Engine) (kind : Kind) : Engine :=
  (e.workerIds kind).foldl (fun e id =>
    (e.passShard nowMs kind id).finishShard (took (.worker kind id)) kind id) e

/-- A whole tick at a time in milliseconds. The activities take as long as `took` says. -/
def tick (nowMs : Nat) (took : Activity → Nat) (e : Engine) : Engine :=
  let e := e.tickAdders nowMs took
  let e := [Kind.gauge, .stats, .histogram].foldl (tickKind nowMs took) e
  e.collect (took .collection)

/-- How many threads a running engine has: one for each worker, one for synthetic adders, and one
for collection. -/
def threadCount (e : Engine) : Nat :=
  Kind.all.foldl (fun count kind => count + (e.workers.get kind).length) 0 +
    (!e.synthetics.isEmpty && !(e.workers.get .adder).isEmpty).toNat +
    e.settings.collection.enable.toNat

def inspectRunning (e : Engine) : Inspection :=
  .record "EngineHandle" [("threads", .nat e.threadCount)] true

def inspectIngester : Inspection := .record "Ingester" [] true

end Engine

end Rollup
