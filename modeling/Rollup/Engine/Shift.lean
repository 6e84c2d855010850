import Rollup.Engine.Session

/-!
The adder workers of a session in steps of single records. While one is amid its shard the others go
on, and points come in for records that exist. Nobody is told to stop, and no record is made or
removed meanwhile.
-/
namespace Rollup

namespace Engine

def shardOf (id : Nat) (e : Engine) : List Handle :=
  match (e.workers.get .adder)[id]? with
  | none => []
  | some w => e.store.shard .adder w.id w.shards

def startShard (nowMs id : Nat) (e : Engine) : Engine :=
  e.onWorker .adder id fun w store => (w.start nowMs, store)

def takeRecord (h : Handle) (e : Engine) : Engine :=
  e.modifyRecord h (Record.takeAdder e.settings.predictLimit)

def reportRecord (nowMs id : Nat) (h : Handle) (e : Engine) : Engine :=
  e.onWorker .adder id fun w store =>
    Worker.visit (Record.reportAdder e.settings nowMs) (w, store) h

def leadsTo (h : Handle) (e : Engine) (p : Point) : Bool := e.locate p.kind p.path == some h

def buffers (id : Nat) (e : Engine) : List String :=
  ((e.workers.get .adder)[id]?).elim [] fun w => w.buffer.outlet.delivered.toList

def buffersSince (id : Nat) (e earlier : Engine) : List String :=
  (e.buffers id).drop (earlier.buffers id).length

end Engine

structure Rhythm where
  clock : Nat → Nat
  took : Nat → Activity → Nat

inductive Task
  | take (nowMs : Nat) (rest : List Handle)
  | report (nowMs : Nat) (released : Bool) (rest : List Handle)

structure Shift where
  session : Session
  task : Nat → Option Task
  /-- How many ticks each worker has completed. -/
  done : Nat → Nat
  /-- The points that no swap has taken yet, in the order in which they came in. -/
  pending : List Point
  /-- The points that swaps have taken, for each tick. -/
  batch : Nat → List Point
  /-- The buffers that workers have handed off, for each tick. -/
  sent : Nat → List String

inductive Move
  | worker (id : Nat)
  | synthetics (took : Nat)
  | point (p : Point)

namespace Shift

def start (e : Engine) : Shift :=
  { session := .start e, task := fun _ => none, done := fun _ => 0, pending := [],
    batch := fun _ => [], sent := fun _ => [] }

def engine (s : Shift) : Engine := s.session.engine

def assign (id : Nat) (task : Option Task) (s : Shift) : Shift :=
  { s with task := fun other => if other = id then task else s.task other }

def setPhase (id : Nat) (phase : Phase) (s : Shift) : Shift :=
  { s with session := s.session.setPhase id phase }

def setEngine (e : Engine) (s : Shift) : Shift := { s with session := { s.session with engine := e } }

def write (id : Nat) (e : Engine) (s : Shift) : Shift :=
  { s.setEngine e with
    sent := fun g => if g = s.done id then s.sent g ++ e.buffersSince id s.engine else s.sent g }

def beginTake (nowMs id : Nat) (s : Shift) : Shift :=
  (s.setEngine (s.engine.startShard nowMs id)).assign id (some (.take nowMs (s.engine.shardOf id)))

def take (nowMs id : Nat) (h : Handle) (rest : List Handle) (s : Shift) : Shift :=
  let taken :=
    { s.setEngine (s.engine.takeRecord h) with
      pending := s.pending.filter fun p => !s.engine.leadsTo h p
      batch := fun g => if g = s.done id then s.batch g ++ s.pending.filter (s.engine.leadsTo h)
        else s.batch g }
  taken.assign id (some (.take nowMs rest))

def beginReport (nowMs id : Nat) (released : Bool) (s : Shift) : Shift :=
  s.assign id (some (.report nowMs released (s.engine.shardOf id)))

/-- Without a fence to wait at, a worker reports its shard at once. -/
def endTake (nowMs id : Nat) (s : Shift) : Shift :=
  match s.session.fence with
  | some _ => (s.setPhase id (.taken nowMs)).assign id none
  | none => s.beginReport nowMs id true

def report (nowMs id : Nat) (released : Bool) (h : Handle) (rest : List Handle) (s : Shift) :
    Shift :=
  (s.write id (s.engine.reportRecord nowMs id h)).assign id (some (.report nowMs released rest))

def endReport (took id : Nat) (released : Bool) (s : Shift) : Shift :=
  let s := s.write id (s.engine.finishShard took .adder id)
  let s := (s.setPhase id (if released then .idle else .stopped)).assign id none
  { s with done := fun other => if other = id then s.done id + 1 else s.done other }

def work (t : Rhythm) (id : Nat) (s : Shift) : Shift :=
  match s.task id with
  | some (.take nowMs (h :: rest)) => s.take nowMs id h rest
  | some (.take nowMs []) => s.endTake nowMs id
  | some (.report nowMs released (h :: rest)) => s.report nowMs id released h rest
  | some (.report _ released []) => s.endReport (t.took (s.done id) (.worker .adder id)) id released
  | none => match s.session.phases[id]? with
    | some .idle => s.beginTake (t.clock (s.done id)) id
    | some (.freed nowMs released) => s.beginReport nowMs id released
    -- Arrives at the fence, or leaves it.
    | _ => { s with session := s.session.stepAdder 0 0 id }

def point (p : Point) (s : Shift) : Shift :=
  match s.engine.locate p.kind p.path, s.engine.ingest p with
  | some _, .ok e => { s.setEngine e with pending := s.pending ++ [p] }
  | _, _ => s

def step (t : Rhythm) (s : Shift) : Move → Shift
  | .worker id => s.work t id
  | .synthetics took => { s with session := s.session.stepSynthetics took }
  | .point p => s.point p

def run (t : Rhythm) (s : Shift) (moves : List Move) : Shift := moves.foldl (step t) s

def Rests (s : Shift) (g : Nat) : Prop :=
  ∀ id < s.session.phases.length,
    s.session.phases[id]? = some .idle ∧ s.task id = none ∧ s.done id = g

end Shift

namespace Engine

def receive (ps : List Point) (e : Engine) : Engine :=
  ps.foldl (fun e p => (e.ingest p).toOption.getD e) e

/-- The engine after so many ticks of its adders, one after the other, where the points of a batch
come in before each. -/
def sequel (t : Rhythm) (batch : Nat → List Point) (e : Engine) : Nat → Engine
  | 0 => e
  | g + 1 => ((e.sequel t batch g).receive (batch g)).tickAdders (t.clock g) (t.took g)

def sequelSent (t : Rhythm) (batch : Nat → List Point) (e : Engine) (g : Nat) : List String :=
  (e.workerIds .adder).flatMap fun id =>
    (e.sequel t batch (g + 1)).buffersSince id (e.sequel t batch g)

end Engine

end Rollup
