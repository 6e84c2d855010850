import Rollup.Engine.Ingest
import Rollup.Engine.Tick
import Rollup.Fence

/-!
An engine at work on threads of its own. A step is what one thread does between two points at which
it waits for others, so that a run of steps is one order in which the threads may come.
-/
namespace Rollup

inductive Phase
  /-- Waits for the next tick. -/
  | idle
  /-- Has taken its shard at this time. -/
  | taken (nowMs : Nat)
  /-- Waits at the fence for the end of a generation. -/
  | held (nowMs ticket : Nat)
  /-- Has left the fence, which says whether it was released. -/
  | freed (nowMs : Nat) (released : Bool)
  | stopped
  deriving DecidableEq, Repr

structure Session where
  engine : Engine
  /-- Holds the adder workers while synthetic adders are computed. Missing if there are none. -/
  fence : Option Fence
  phases : List Phase
  /-- The thread of the synthetic adders has ended. -/
  synthesized : Bool
  /-- Threads that wait for a tick are told to stop. -/
  stopping : Bool

namespace Session

def start (e : Engine) : Session :=
  let adders := (e.workers.get .adder).length
  { engine := e
    fence := if e.synthetics.isEmpty ∨ adders = 0 then none else some (.create adders)
    phases := List.replicate adders .idle
    synthesized := false
    stopping := false }

def setPhase (id : Nat) (phase : Phase) (s : Session) : Session :=
  { s with phases := s.phases.set id phase }

def wake (nowMs took id : Nat) (s : Session) : Session :=
  if s.stopping then s.setPhase id .stopped
  else
    let e := s.engine.takeShard nowMs id
    match s.fence with
    | some _ => { s with engine := e }.setPhase id (.taken nowMs)
    | none => { s with engine := (e.reportShard nowMs id).finishShard took .adder id }

def arrive (nowMs id : Nat) (s : Session) : Session :=
  match s.fence with
  | none => s
  | some fence => match fence.enter with
    | (some ticket, fence) => { s with fence := some fence }.setPhase id (.held nowMs ticket)
    | (none, _) => s.setPhase id (.freed nowMs false)

def leave (nowMs ticket id : Nat) (s : Session) : Session :=
  match s.fence.bind (Fence.leave? ticket) with
  | none => s
  | some released => s.setPhase id (.freed nowMs released)

/-- An adder worker reports its shard. Without a release it stops after that. -/
def report (nowMs took id : Nat) (released : Bool) (s : Session) : Session :=
  let e := (s.engine.reportShard nowMs id).finishShard took .adder id
  { s with engine := e }.setPhase id (if released then .idle else .stopped)

def stepAdder (nowMs took id : Nat) (s : Session) : Session :=
  match s.phases[id]? with
  | none => s
  | some .idle => s.wake nowMs took id
  | some (.taken now) => s.arrive now id
  | some (.held now ticket) => s.leave now ticket id
  | some (.freed now released) => s.report now took id released
  | some .stopped => s

def stepSynthetics (took : Nat) (s : Session) : Session :=
  if s.synthesized then s
  else match s.fence.bind Fence.release? with
    | none => s
    | some (false, _) => { s with synthesized := true }
    | some (true, fence) =>
      { s with fence := some fence, engine := s.engine.runSynthetics took }

def stepPass (nowMs took : Nat) (kind : Kind) (id : Nat) (s : Session) : Session :=
  if s.stopping then s
  else { s with engine := (s.engine.passShard nowMs kind id).finishShard took kind id }

def stepCollection (took : Nat) (s : Session) : Session :=
  if s.stopping then s else { s with engine := s.engine.collect took }

/-- Closing the fence lets nobody wait there any more. -/
def closeFence (s : Session) : Session := { s with fence := s.fence.map Fence.close }

/-- After that, whoever waits for a tick stops. -/
def disconnect (s : Session) : Session := { s with stopping := true }

inductive Event
  | adder (nowMs took id : Nat)
  | synthetics (took : Nat)
  | pass (nowMs took : Nat) (kind : Kind) (id : Nat)
  | collection (took : Nat)
  | text (text : List Char)
  | closeFence
  | disconnect
  deriving Repr

def step (s : Session) : Event → Session
  | .adder nowMs took id => s.stepAdder nowMs took id
  | .synthetics took => s.stepSynthetics took
  | .pass nowMs took kind id => s.stepPass nowMs took kind id
  | .collection took => s.stepCollection took
  | .text text => { s with engine := (s.engine.ingestText text).2 }
  | .closeFence => s.closeFence
  | .disconnect => s.disconnect

def run (s : Session) (events : List Event) : Session := events.foldl step s

/-- The passes of a tick: the adder workers up to the fence, the synthetic adders, the adder workers
again, and then the workers of other kinds. -/
def passes (s : Session) (nowMs : Nat) : List Event :=
  let adders := List.range s.phases.length
  let each (event : Nat → Event) : List Event := adders.map event
  let others := [Kind.gauge, .stats, .histogram].flatMap fun kind =>
    (s.engine.workerIds kind).map (Event.pass nowMs 0 kind)
  match s.fence with
  | none => each (Event.adder nowMs 0) ++ others
  | some _ => each (Event.adder nowMs 0) ++ each (Event.adder nowMs 0) ++ [.synthetics 0] ++
    each (Event.adder nowMs 0) ++ each (Event.adder nowMs 0) ++ others

def ending (s : Session) : List Event :=
  let adders := List.range s.phases.length
  let each : List Event := adders.map (Event.adder 0 0)
  [.closeFence, .disconnect] ++ each ++ each ++ each ++ each ++ [.synthetics 0]

def shutdown (s : Session) : Engine := (s.run s.ending).engine

end Session

end Rollup
