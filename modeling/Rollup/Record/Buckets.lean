import Rollup.Histogram.Layout

/-!
Counts of the values in each bucket of a layout.
-/
namespace Rollup

structure Buckets where
  layout : Layout
  /-- One count for each bucket, the last for values above all bounds. -/
  counts : Array Nat
  count : Nat
  deriving Repr

namespace Buckets

def empty (layout : Layout) : Buckets := ⟨layout, Array.replicate layout.bucketCount 0, 0⟩

def add (b : Buckets) (value : Float) : Buckets :=
  { b with counts := b.counts.modify (b.layout.bucketIndex value) (· + 1), count := b.count + 1 }

/-- The side that was processed before takes over the layout that is processed now. -/
def recycle (_ processed : Buckets) : Buckets := empty processed.layout

def overflow (b : Buckets) : Nat := b.counts.back?.getD 0

end Buckets

end Rollup
