import Rollup.Forecast.Predictor
import Rollup.PathHash
import Rollup.Record.Buckets
import Rollup.Record.Samples
import Rollup.Record.Sides
import Rollup.Record.Totals
import Rollup.Text.Inspection

/-!
The record of a path: both sides of its accumulator, and what collection needs to know about it.
-/
namespace Rollup

/-- The accumulator of a record; its form is the kind of the record. -/
inductive Body
  | adder (sides : Sides Totals) (predictor : Option Predictor)
  | gauge (sides : Sides Totals)
  | stats (sides : Sides Samples)
  | histogram (sides : Sides Buckets)
  deriving Repr

namespace Body

def kind : Body → Kind
  | adder _ _ => .adder
  | gauge _ => .gauge
  | stats _ => .stats
  | histogram _ => .histogram

/-- An accumulator without points. The layout is that of a histogram. -/
def empty (layout : Layout) (predictor : Option Predictor) : Kind → Body
  | .adder => .adder ⟨.zero, .zero⟩ predictor
  | .gauge => .gauge ⟨.zero, .zero⟩
  | .stats => .stats ⟨.empty, .empty⟩
  | .histogram => .histogram ⟨.empty layout, .empty layout⟩

def pending : Body → Nat
  | adder sides _ => sides.input.count
  | gauge sides => sides.input.count
  | stats sides => sides.input.count
  | histogram sides => sides.input.count

def taken : Body → Nat
  | adder sides _ => sides.processed.count
  | gauge sides => sides.processed.count
  | stats sides => sides.processed.count
  | histogram sides => sides.processed.count

def update (value : Float) (adjustment : Adjustment) : Body → Body
  | adder ⟨input, processed⟩ predictor => .adder ⟨input.add value, processed⟩ predictor
  | gauge ⟨input, processed⟩ => .gauge ⟨input.adjust value adjustment, processed⟩
  | stats ⟨input, processed⟩ => .stats ⟨input.push value, processed⟩
  | histogram ⟨input, processed⟩ => .histogram ⟨input.add value, processed⟩

def swap : Body → Body
  | adder sides predictor => .adder (sides.swap Totals.restart) predictor
  | gauge sides => .gauge (sides.swap Totals.carry)
  | stats sides => .stats (sides.swap Samples.recycle)
  | histogram sides => .histogram (sides.swap Buckets.recycle)

def retarget (layout : Layout) : Body → Body
  | histogram _ => .histogram ⟨.empty layout, .empty layout⟩
  | body => body

@[simp] theorem kind_empty (layout : Layout) (predictor : Option Predictor) (kind : Kind) :
    (empty layout predictor kind).kind = kind := by cases kind <;> rfl

@[simp] theorem kind_update (value : Float) (adjustment : Adjustment) (body : Body) :
    (body.update value adjustment).kind = body.kind := by cases body <;> rfl

@[simp] theorem kind_swap (body : Body) : body.swap.kind = body.kind := by cases body <;> rfl

@[simp] theorem kind_retarget (layout : Layout) (body : Body) :
    (body.retarget layout).kind = body.kind := by cases body <;> rfl

theorem taken_swap (body : Body) : body.swap.taken = body.pending := by cases body <;> rfl

theorem pending_swap (body : Body) : body.swap.pending = 0 := by cases body <;> rfl

theorem pending_update (value : Float) (adjustment : Adjustment) (body : Body) :
    (body.update value adjustment).pending = body.pending + 1 := by
  cases body with
  | stats sides =>
    simp only [update, pending, Samples.push]
    split <;> rfl
  | gauge sides => cases adjustment <;> rfl
  | _ => rfl

end Body

/-- Ticks without data in a row, or `none` for a record that is never collected. -/
abbrev IdleTicks := Option Nat

def IdleTicks.after (count : Nat) (idle : IdleTicks) : IdleTicks :=
  idle.map fun ticks => if count = 0 then ticks + 1 else 0

structure Record where
  path : String
  hash : UInt64
  /-- Cleared once, when the record is removed. -/
  valid : Bool
  idle : IdleTicks
  id : Nat
  checks : List Check
  body : Body
  deriving Repr

inductive UpdateError
  | nonFinite (value : Float)
  | disabled (kind : Kind)
  deriving Repr

/-- A number in a message: only those that are not finite are written. -/
def UpdateError.message : UpdateError → String
  | .nonFinite value => "value " ++ fixed 0 value ++ " is not finite"
  | .disabled kind => kind.name ++ " metrics are disabled"

namespace Record

def empty (path : String) (id : Nat) (checks : List Check) (body : Body) : Record :=
  { path := path, hash := pathHash path, valid := true, idle := some 0, id := id, checks := checks,
    body := body }

def kind (r : Record) : Kind := r.body.kind

def pending (r : Record) : Nat := r.body.pending

def invalidate (r : Record) : Record := { r with valid := false }

def exempt (r : Record) : Record := { r with idle := none }

def update (value : Float) (adjustment : Adjustment) (r : Record) : Record :=
  { r with body := r.body.update value adjustment }

def swap (r : Record) : Record :=
  { r with idle := IdleTicks.after r.pending r.idle, body := r.body.swap }

def retarget (layout : Layout) (r : Record) : Record := { r with body := r.body.retarget layout }

def answersTo (path : String) (hash : UInt64) (r : Record) : Bool :=
  r.hash == hash && r.valid && r.path == path

def inspect (r : Record) : Inspection :=
  .record "Record" [("path", .text r.path), ("kind", .atom r.kind.label), ("valid", .bool r.valid),
    ("id", .wrapped "Some" (.nat r.id))] false

end Record

end Rollup
