/-!
The four ways in which a path aggregates its points.
-/
namespace Rollup

inductive Kind
  /-- Sums values and starts again every tick. -/
  | adder
  /-- Holds the last value, which points set or adjust. -/
  | gauge
  /-- Collects raw samples for order statistics. -/
  | stats
  /-- Counts samples into configured buckets. -/
  | histogram
  deriving DecidableEq, Repr, Inhabited

namespace Kind

/-- All kinds, in the order in which a tick passes over them. -/
def all : List Kind := [.adder, .gauge, .stats, .histogram]

def name : Kind → String
  | adder => "adder"
  | gauge => "gauge"
  | stats => "stats"
  | histogram => "histo"

def label : Kind → String
  | adder => "Adder"
  | gauge => "Gauge"
  | stats => "Stats"
  | histogram => "Histogram"

theorem mem_all (kind : Kind) : kind ∈ all := by cases kind <;> decide

end Kind

structure PerKind (α : Type u) where
  adder : α
  gauge : α
  stats : α
  histogram : α

namespace PerKind

def ofFn (f : Kind → α) : PerKind α := ⟨f .adder, f .gauge, f .stats, f .histogram⟩

def get (p : PerKind α) : Kind → α
  | .adder => p.adder
  | .gauge => p.gauge
  | .stats => p.stats
  | .histogram => p.histogram

def set (p : PerKind α) (kind : Kind) (x : α) : PerKind α :=
  match kind with
  | .adder => { p with adder := x }
  | .gauge => { p with gauge := x }
  | .stats => { p with stats := x }
  | .histogram => { p with histogram := x }

def modify (p : PerKind α) (kind : Kind) (f : α → α) : PerKind α :=
  match kind, p with
  | .adder, ⟨a, g, s, h⟩ => ⟨f a, g, s, h⟩
  | .gauge, ⟨a, g, s, h⟩ => ⟨a, f g, s, h⟩
  | .stats, ⟨a, g, s, h⟩ => ⟨a, g, f s, h⟩
  | .histogram, ⟨a, g, s, h⟩ => ⟨a, g, s, f h⟩

def toList (p : PerKind α) : List α := Kind.all.map p.get

@[simp] theorem get_ofFn (f : Kind → α) (kind : Kind) : (ofFn f).get kind = f kind := by
  cases kind <;> rfl

@[simp] theorem get_set_self (p : PerKind α) (kind : Kind) (x : α) :
    (p.set kind x).get kind = x := by
  cases kind <;> rfl

theorem get_set_of_ne (p : PerKind α) {kind other : Kind} (x : α) (h : other ≠ kind) :
    (p.set kind x).get other = p.get other := by
  cases kind <;> cases other <;> first | rfl | exact absurd rfl h

theorem modify_eq_set (p : PerKind α) (kind : Kind) (f : α → α) :
    p.modify kind f = p.set kind (f (p.get kind)) := by
  cases kind <;> rfl

end PerKind

end Rollup
