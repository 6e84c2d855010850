import Rollup.Engine.Session
import Rollup.Schedule

/-!
A session in time. Of the orders in which threads that tick together may come, this is the one in
which collection is over before the passes have got far.
-/
namespace Rollup

structure Timeline where
  session : Session
  schedule : Schedule
  /-- Milliseconds since the threads were started. -/
  now : Nat

namespace Timeline

/-- So many threads are started in a millisecond. -/
def startsPerMs : Nat := 64

/-- The steps of the adder workers that are due while later ones are still to be started. Out of
sync, each counts its period from its own start. -/
def early (s : Session) : List Session.Event :=
  let settings := s.engine.settings
  let due (id : Nat) : Nat :=
    (Schedule.start settings.periodMs settings.offsetMs false (id / startsPerMs)).next
  let ready := (List.range s.phases.length).filter fun id =>
    !settings.sync && due id ≤ s.phases.length / startsPerMs
  let each := ready.map fun id => Session.Event.adder (due id) 0 id
  match s.fence with
  | none => each
  | some _ => each ++ each

def start (e : Engine) : Timeline :=
  let session := Session.start e
  { session := session.run (early session)
    schedule := .start e.settings.periodMs e.settings.offsetMs e.settings.sync 0
    now := 0 }

def tick (t : Timeline) : Timeline :=
  let (nowMs, schedule) := t.schedule.fire
  { t with
    session := t.session.run (.collection 0 :: t.session.passes nowMs)
    schedule := schedule }

def pause (ms : Nat) (t : Timeline) : Timeline :=
  let now := t.now + ms
  (List.range (t.schedule.missed now)).foldl (fun t _ => t.tick) { t with now := now }

def ingest (text : List Char) (t : Timeline) : IngestCounts × Timeline :=
  let (counts, e) := t.session.engine.ingestText text
  (counts, { t with session := { t.session with engine := e } })

def shutdown (t : Timeline) : Engine := t.session.shutdown

end Timeline

end Rollup
