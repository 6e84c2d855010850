/-!
The most frequent value of a batch.
-/
namespace Rollup

structure Mode where
  value : Float
  count : Nat
  deriving Repr

namespace Mode

/-- A run replaces the best one if it repeats its value and is longer. -/
def better (best : Option Mode) (run : Mode) : Option Mode :=
  if 1 < run.count && best.all (fun b => b.count < run.count) then some run else best

def findFrom (best : Option Mode) (run : Mode) : List Float → Option Mode
  | [] => better best run
  | x :: rest =>
    if x == run.value then findFrom best { run with count := run.count + 1 } rest
    else findFrom (better best run) ⟨x, 1⟩ rest

/-- The longest run of equal values, the first of several; `none` unless a value repeats. -/
def find : List Float → Option Mode
  | [] => none
  | x :: rest => findFrom none ⟨x, 1⟩ rest

end Mode

end Rollup
