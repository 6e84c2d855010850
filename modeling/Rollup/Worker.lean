import Rollup.Output.LineBuffer
import Rollup.Pass.Stats
import Rollup.Signal
import Rollup.Store

/-!
Workers. Each passes over the shard of one kind that is its own, writes what it finds into its line
buffer, and keeps count.
-/
namespace Rollup

structure WorkerCounts where
  /-- Records with data. -/
  active : Nat := 0
  points : Nat := 0
  highest : Nat := 0
  forecasts : Nat := 0
  deriving DecidableEq, Repr

def WorkerCounts.add (c : WorkerCounts) (r : RecordReport) : WorkerCounts :=
  if r.points = 0 then { c with forecasts := c.forecasts + r.forecasts }
  else
    { active := c.active + 1, points := c.points + r.points, highest := max c.highest r.points,
      forecasts := c.forecasts + r.forecasts }

structure Worker where
  kind : Kind
  id : Nat
  shards : Nat
  buffer : LineBuffer
  counts : WorkerCounts := {}
  workspace : Sorting.Workspace := {}
  /-- The size of the greatest batch sorted so far. -/
  capacity : Nat := 0

namespace Worker

def create (settings : Settings) (kind : Kind) (shards id : Nat) : Worker :=
  { kind := kind, id := id, shards := shards,
    buffer := .empty settings.dialect settings.bufferSize }

def createAll (settings : Settings) (kind : Kind) : List Worker :=
  let s := settings.kind kind
  if s.enable then (List.range s.threads).map (create settings kind s.threads) else []

def start (nowMs : Nat) (w : Worker) : Worker :=
  { w with counts := {}, buffer := w.buffer.setTimestamp (nowMs / 1000) }

def write (r : RecordReport) (w : Worker) : Worker :=
  { w with counts := w.counts.add r, buffer := w.buffer.pushAll r.readings }

def visit (step : Record → RecordReport × Record) : Worker × Store → Handle → Worker × Store
  | (w, store), h => match store.get? h with
    | none => (w, store)
    | some r =>
      let (report, r) := step r
      (w.write report, store.modify h fun _ => r)

def visitStats (settings : Settings) : Worker × Store → Handle → Worker × Store
  | (w, store), h => match store.get? h with
    | none => (w, store)
    | some r =>
      let (report, workspace, r) := r.passStats settings w.workspace
      let w := { w with workspace := workspace, capacity := max w.capacity report.points }
      (w.write report, store.modify h fun _ => r)

def takeAdders (settings : Settings) (nowMs : Nat) (w : Worker) (store : Store) : Worker × Store :=
  (w.start nowMs, (store.shard .adder w.id w.shards).foldl
    (fun store h => store.modify h (Record.takeAdder settings.predictLimit)) store)

def reportAdders (settings : Settings) (nowMs : Nat) (w : Worker) (store : Store) :
    Worker × Store :=
  (store.shard .adder w.id w.shards).foldl (visit (Record.reportAdder settings nowMs)) (w, store)

def pass (settings : Settings) (nowMs : Nat) (w : Worker) (store : Store) : Worker × Store :=
  let w := w.start nowMs
  let step := match w.kind with
    | .gauge => visit (Record.passGauge settings)
    | .stats => visitStats settings
    | .histogram => visit (Record.passHistogram settings)
    | .adder => fun state _ => state
  (store.shard w.kind w.id w.shards).foldl step (w, store)

/-- The readings of a worker about itself; `took` is in microseconds. -/
def selfReadings (settings : Settings) (took : Nat) (w : Worker) : List Reading :=
  let name := settings.selfPrefix ++ w.kind.name ++ "." ++ toString w.id
  let special := match w.kind with
    | .stats => [Reading.of (name ++ ".workspace") w.capacity.toFloat]
    | .adder => [.of (name ++ ".predictions") w.counts.forecasts.toFloat]
    | _ => []
  [.of (name ++ ".active") w.counts.active.toFloat, .of (name ++ ".points") w.counts.points.toFloat,
    .of (name ++ ".highest") w.counts.highest.toFloat] ++ special ++
    [.of (name ++ ".usec") took.toFloat]

def finish (settings : Settings) (took : Nat) (w : Worker) : Worker :=
  let buffer :=
    if settings.selfStats then w.buffer.pushAll (w.selfReadings settings took) else w.buffer
  { w with buffer := buffer.flush }

def signals (took : Nat) (w : Worker) : List Signal :=
  [.timer "engine.pass.duration" took [Signal.kindTag w.kind],
    .gauge "engine.records.active" w.counts.active
      [Signal.kindTag w.kind, ("worker", toString w.id)]]

end Worker

end Rollup
