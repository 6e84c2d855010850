import Rollup.Engine.Ingest
import Rollup.Text.Utf8

/-!
Points from a stream of bytes, which comes in fills of any size. Whole lines are applied as soon as
they are there; a line that is too long or not well formed is rejected by itself.
-/
namespace Rollup

structure Intake where
  pending : Array UInt8 := #[]
  /-- The line under way was too long, and what follows of it is skipped. -/
  discarding : Bool := false

namespace Intake

def newline : UInt8 := 10

/-- The length from which on a line without its end in sight is given up. -/
def maxLine : Nat := 65536

def cut (fill : List UInt8) : List UInt8 × List UInt8 :=
  let rest := (fill.reverse.takeWhile (· != newline)).reverse
  (fill.take (fill.length - rest.length), rest)

def addLines (bytes : List UInt8) (i : Intake) : Intake :=
  let kept := if i.discarding then (bytes.dropWhile (· != newline)).drop 1 else bytes
  { pending := i.pending ++ kept, discarding := false }

def addPart (bytes : List UInt8) (i : Intake) : Intake :=
  if i.discarding then i else { i with pending := i.pending ++ bytes }

inductive Outcome
  | waiting
  | whole (bytes : List UInt8)
  | overlong

def settle (i : Intake) : Outcome × Intake :=
  if i.pending.back? = some newline then (.whole i.pending.toList, { i with pending := #[] })
  else if maxLine < i.pending.size then (.overlong, ⟨#[], true⟩)
  else (.waiting, i)

end Intake

structure StreamReport where
  counts : IngestCounts := {}
  /-- How many lines were given up; they count as rejected. -/
  overlong : Nat := 0

def wellFormedLines (bytes : List UInt8) : List (Option (List Char)) :=
  (fields Intake.newline bytes).map decodeStrict

namespace Engine

/-- Applies whole lines. Those that are not well formed are rejected, without regard to whether
they are blank. -/
def ingestBytes (bytes : List UInt8) (e : Engine) : IngestCounts × Engine :=
  match decodeStrict bytes with
  | some text => e.ingestText text
  | none =>
    let lines := wellFormedLines bytes
    let (counts, e) := e.ingestText ((lines.filterMap id).flatMap (· ++ ['\n']))
    (counts + ⟨0, lines.countP Option.isNone⟩, e)

end Engine

structure StreamState where
  intake : Intake
  report : StreamReport
  engine : Engine

namespace StreamState

def start (e : Engine) : StreamState := ⟨{}, {}, e⟩

def apply : Intake.Outcome → StreamState → StreamState
  | .waiting, s => s
  | .whole bytes, s =>
    let (counts, e) := s.engine.ingestBytes bytes
    { s with report := { s.report with counts := s.report.counts + counts }, engine := e }
  | .overlong, s =>
    { s with report := ⟨s.report.counts + ⟨0, 1⟩, s.report.overlong + 1⟩ }

def settle (s : StreamState) : StreamState :=
  let (outcome, intake) := s.intake.settle
  { s with intake := intake }.apply outcome

/-- Takes in the next fill: first what ends its lines, and then the rest. -/
def absorb (s : StreamState) (fill : List UInt8) : StreamState :=
  let (whole, rest) := Intake.cut fill
  let s := if whole.isEmpty then s else { s with intake := s.intake.addLines whole }.settle
  if rest.isEmpty then s else { s with intake := s.intake.addPart rest }.settle

/-- Ends the stream. A last line needs no line end. -/
def finish (s : StreamState) : StreamReport × Engine :=
  let s := if s.intake.pending.isEmpty then s else s.apply (.whole s.intake.pending.toList)
  (s.report, s.engine)

end StreamState

def fills (size : Nat) (bytes : List UInt8) : List (List UInt8) :=
  if _h : bytes.isEmpty then []
  else bytes.take (max 1 size) :: fills size (bytes.drop (max 1 size))
termination_by bytes.length
decreasing_by
  simp only [List.isEmpty_iff] at _h
  have := List.length_pos_iff.2 _h
  simp only [List.length_drop]; omega

def Engine.ingestStream (stream : List (List UInt8)) (e : Engine) : StreamReport × Engine :=
  (stream.foldl StreamState.absorb (.start e)).finish

end Rollup
