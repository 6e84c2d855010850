import Rollup.Number.Double

/-!
Radix sort over order keys, from the least significant digit up. Every pass is stable, so after the
last one the keys are in order. `none` is the outcome of a pass that would write outside its target.
-/
namespace Rollup

namespace Sorting

def digitBits : Nat := 11

def radix : Nat := 1 <<< digitBits

/-- Six digits of eleven bits cover a key. -/
def passes : Nat := 6

def digit (pass : Nat) (key : UInt64) : Nat := key.toNat >>> (digitBits * pass) % radix

def digitCounts (pass : Nat) (keys : Array UInt64) : Array Nat :=
  keys.foldl (fun counts key => counts.modify (digit pass key) (· + 1)) (Array.replicate radix 0)

def startsOf (counts : Array Nat) : Array Nat :=
  (counts.foldl (fun (starts, sum) count => (starts.push sum, sum + count))
    (Array.mkEmpty counts.size, 0)).1

def scatter (pass : Nat) : List UInt64 → (starts : Array Nat) → Array UInt64 →
    Option (Array UInt64)
  | [], _, target => some target
  | key :: rest, starts, target => do
    let position ← starts[digit pass key]?
    if h : position < target.size then
      scatter pass rest (starts.modify (digit pass key) (· + 1)) (target.set position key)
    else none

/-- The starts for every pass. They are all counted before the first one, since a pass changes the
order of the keys only. -/
def startsOfAll (keys : Array UInt64) : List (Array Nat) :=
  (List.range passes).map fun pass => startsOf (digitCounts pass keys)

structure Workspace where
  scratch : Array UInt64 := #[]

/-- The scratch buffer with exactly `n` places, whatever they hold. -/
def Workspace.places (w : Workspace) (n : Nat) : Array UInt64 :=
  w.scratch.extract 0 n ++ Array.replicate (n - w.scratch.size) 0

/-- Runs the passes from `pass` on with their starts, exchanging source and target after each. What
a target holds does not matter. -/
def radixPasses : List (Array Nat) → (pass : Nat) → Array UInt64 → Array UInt64 →
    Option (Array UInt64 × Array UInt64)
  | [], _, source, target => some (source, target)
  | starts :: rest, pass, source, target => do
    radixPasses rest (pass + 1) (← scatter pass source.toList starts target) source

def radix? (keys : Array UInt64) (w : Workspace) : Option (Array UInt64 × Workspace) :=
  if keys.size < 2 then some (keys, w)
  else do
    let (sorted, scratch) ← radixPasses (startsOfAll keys) 0 keys (w.places keys.size)
    some (sorted, ⟨scratch⟩)

end Sorting

end Rollup
