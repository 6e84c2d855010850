import Rollup.Engine

/-!
Creations of histograms and reconfigurations that go on at the same time. A creation looks its path
up, chooses a layout, and inserts a record under the lock of the path unless there is one by then. A
reconfiguration stores its layouts and then moves the valid records onto them, one after the other.
-/
namespace Rollup

namespace Changeover

inductive Order
  | create (path : String)
  | reconfigure (blocks : List BlockConfig)

inductive Stage
  | look (path : String)
  | choose (path : String)
  | enter (path : String) (layout : Layout)
  | obtained (h : Handle)
  | build (blocks : List BlockConfig)
  | publish (layouts : LayoutSet)
  | scan (layouts : LayoutSet) (bucket : Nat)
  /-- Goes on along a chain as it was when its bucket was reached. -/
  | visit (layouts : LayoutSet) (bucket : Nat) (rest : List Handle)
  | replaced
  | refused (cause : ConfigError)

def Order.first : Order → Stage
  | create path => .look path
  | reconfigure blocks => .build blocks

def Stage.finished : Stage → Bool
  | obtained _ => true
  | replaced => true
  | refused _ => true
  | _ => false

def moved (layouts : LayoutSet) (e : Engine) (h : Handle) : Engine :=
  if e.store.isValid h then e.modifyRecord h fun r => r.retarget (layouts.resolve r.path) else e

def act (e : Engine) : Stage → Engine × Stage
  | .look path =>
    match e.locate .histogram path with
    | some h => (e, .obtained h)
    | none => (e, .choose path)
  | .choose path => (e, .enter path (e.layouts.resolve path))
  | .enter path layout =>
    match e.locate .histogram path with
    | some h => (e, .obtained h)
    | none => ((e.insert .histogram path layout).2,
        .obtained (e.insert .histogram path layout).1)
  | .build blocks =>
    match LayoutSet.ofConfig blocks with
    | .ok layouts => (e, .publish layouts)
    | .error cause => (e, .refused cause)
  | .publish layouts => (e.setLayouts layouts, .scan layouts 0)
  | .scan layouts bucket =>
    (e, if bucket < (e.store.table .histogram).size
      then .visit layouts bucket ((e.store.table .histogram).chain bucket) else .replaced)
  | .visit layouts bucket [] => (e, .scan layouts (bucket + 1))
  | .visit layouts bucket (h :: rest) => (moved layouts e h, .visit layouts bucket rest)
  | .obtained h => (e, .obtained h)
  | .replaced => (e, .replaced)
  | .refused cause => (e, .refused cause)

end Changeover

structure Changeover where
  engine : Engine
  calls : List Changeover.Stage

namespace Changeover

def start (e : Engine) (orders : List Order) : Changeover := ⟨e, orders.map Order.first⟩

def step (t : Changeover) (id : Nat) : Changeover :=
  match t.calls[id]? with
  | some stage => ⟨(act t.engine stage).1, t.calls.set id (act t.engine stage).2⟩
  | none => t

def run (t : Changeover) (turns : List Nat) : Changeover := turns.foldl step t

end Changeover

end Rollup
