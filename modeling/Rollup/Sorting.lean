import Rollup.Sorting.Quick
import Rollup.Sorting.Radix

/-!
Ascending sorts of bit patterns. Two strategies give one result: order keys are sorted, and equal
keys are equal patterns.
-/
namespace Rollup

namespace Sorting

inductive Strategy
  | quick
  | radix
  deriving DecidableEq, Repr

def Strategy.name : Strategy → String
  | quick => "quick"
  | radix => "radix"

/-- The batch length at which the radix sort takes over, unless configured otherwise. -/
def defaultThreshold : Nat := 10000

def leastThreshold : Nat := 2048

def Strategy.forLength (length threshold : Nat) : Strategy :=
  if length < threshold then .quick else .radix

def Strategy.run (strategy : Strategy) (keys : Array UInt64) (w : Workspace) :
    Option (Array UInt64 × Workspace) :=
  match strategy with
  | quick => (quick? keys).map (·, w)
  | radix => radix? keys w

/-- Sorts patterns by the total order. No strategy leaves its array, so the fallback is not
reached. -/
def sortBy (strategy : Strategy) (patterns : Array DoubleBits) (w : Workspace) :
    Array DoubleBits × Workspace :=
  match strategy.run (patterns.map DoubleBits.orderKey) w with
  | some (keys, w) => (keys.map DoubleBits.ofOrderKey, w)
  | none => (patterns, w)

def sortSamples (threshold : Nat) (samples : Array Float) (w : Workspace) :
    Array Float × Workspace :=
  let (patterns, w) := sortBy (.forLength samples.size threshold) (samples.map Float.toBits) w
  (patterns.map Float.ofBits, w)

end Sorting

end Rollup
