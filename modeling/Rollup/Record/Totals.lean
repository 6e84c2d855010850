import Rollup.Point

/-!
Sums of adders and values of gauges, with the number of updates behind them.
-/
namespace Rollup

structure Totals where
  total : Float
  count : Nat
  deriving Repr

namespace Totals

def zero : Totals := ⟨0.0, 0⟩

def add (t : Totals) (value : Float) : Totals := ⟨t.total + value, t.count + 1⟩

def adjust (t : Totals) (value : Float) : Adjustment → Totals
  | .set => ⟨value, t.count + 1⟩
  | .add => ⟨t.total + value, t.count + 1⟩
  | .subtract => ⟨t.total - value, t.count + 1⟩

def restart (_ _ : Totals) : Totals := zero

def carry (_ processed : Totals) : Totals := ⟨processed.total, 0⟩

end Totals

end Rollup
