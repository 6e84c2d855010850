import Rollup.Engine
import Rollup.Point.Line

/-!
Points enter the engine, one by one or as lines of text.
-/
namespace Rollup

inductive Rejection
  | line (cause : LineError)
  | update (cause : UpdateError)
  deriving Repr

def Rejection.reason : Rejection → String
  | line _ => "parse"
  | update (.nonFinite _) => "non_finite"
  | update (.disabled _) => "disabled"

structure IngestCounts where
  accepted : Nat := 0
  rejected : Nat := 0
  deriving DecidableEq, Repr

instance : Add IngestCounts := ⟨fun a b => ⟨a.accepted + b.accepted, a.rejected + b.rejected⟩⟩

def UpdateError.ofValue? (value : Float) : Option UpdateError :=
  if value.isFinite then none else some (.nonFinite value)

namespace Engine

/-- Why a point of a kind is refused: the kind comes before the value. -/
def refusal? (e : Engine) (kind : Kind) (value : Float) : Option UpdateError :=
  if (e.settings.kind kind).enable then UpdateError.ofValue? value else some (.disabled kind)

def accept (p : Point) (e : Engine) : Engine :=
  let (h, e) := e.getOrCreate p.kind p.path
  e.modifyRecord h (Record.update p.value p.adjustment)

def ingest (p : Point) (e : Engine) : Except UpdateError Engine :=
  match e.refusal? p.kind p.value with
  | some cause => .error cause
  | none => .ok (e.accept p)

/-- Applies a value to a record, also to one that no path leads to any more. -/
def updateRecord (h : Handle) (value : Float) (adjustment : Adjustment) (e : Engine) :
    Except UpdateError Engine :=
  match UpdateError.ofValue? value with
  | some cause => .error cause
  | none => .ok (e.modifyRecord h (Record.update value adjustment))

def rejection? (e : Engine) : Except LineError Point → Option Rejection
  | .error cause => some (.line cause)
  | .ok p => (e.refusal? p.kind p.value).map .update

structure LineCounts where
  accepted : PerKind Nat := .ofFn fun _ => 0
  rejected : Nat := 0

def LineCounts.total (c : LineCounts) : IngestCounts :=
  ⟨c.accepted.toList.foldl (· + ·) 0, c.rejected⟩

def ingestLine : LineCounts × Engine → Except LineError Point → LineCounts × Engine
  | (counts, e), line => match line, e.rejection? line with
    | .ok p, none =>
      ({ counts with accepted := counts.accepted.modify p.kind (· + 1) }, e.accept p)
    | _, some cause =>
      ({ counts with rejected := counts.rejected + 1 },
        e.measure (.counter "engine.points.rejected" 1 [("reason", cause.reason)]))
    | .error _, none => (counts, e)

def ingestText (text : List Char) (e : Engine) : IngestCounts × Engine :=
  let (counts, e) := (Point.ofText text).foldl ingestLine ({}, e)
  let signals := Kind.all.map fun kind =>
    Signal.counter "engine.points.ingested" (counts.accepted.get kind) [Signal.kindTag kind]
  (counts.total, e.measureAll signals)

end Engine

end Rollup
