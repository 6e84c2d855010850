import Rollup.Number.Double

/-!
Quicksort in place over order keys. Pivots are medians of three; small ranges are left for one
insertion pass at the end. The scans carry no bound of their own: a key that stops them is always in
the range. `none` is the outcome of a scan that would leave the array, and of any other access
outside it.
-/
namespace Rollup

namespace Sorting

/-- Ranges that span at most this many steps are left for the insertion pass. -/
def smallSpan : Nat := 4

def order (keys : Array UInt64) (i j : Nat) : Option (Array UInt64) := do
  let a ← keys[i]?
  let b ← keys[j]?
  return if b < a then keys.swapIfInBounds i j else keys

/-- Brings the median of the first, the middle and the last key to the middle, and the least and the
greatest of them to the ends. -/
def medianOfThree (keys : Array UInt64) (low middle high : Nat) : Option (Array UInt64) := do
  let keys ← order keys low middle
  let a ← keys[middle]?
  let b ← keys[high]?
  if b < a then order (keys.swapIfInBounds middle high) low middle else return keys

def scanUp (keys : Array UInt64) (pivot : UInt64) (i : Nat) : Option Nat :=
  if h : i < keys.size then
    if keys[i] < pivot then scanUp keys pivot (i + 1) else some i
  else none
termination_by keys.size - i

def scanDown (keys : Array UInt64) (pivot : UInt64) : (i : Nat) → Option Nat
  | 0 => match keys[0]? with
    | some key => if pivot < key then none else some 0
    | none => none
  | i + 1 => match keys[i + 1]? with
    | some key => if pivot < key then scanDown keys pivot i else some (i + 1)
    | none => none

def follow (middle i j : Nat) : Nat :=
  if middle = i then j else if middle = j then i else middle

/-- The outcome of a partition: no key up to `right` is above any key from `left` on. -/
structure Cut where
  keys : Array UInt64
  left : Nat
  right : Nat

/-- Closes in on the pivot from both ends, exchanging keys that are on the wrong side. Every round
moves both ends; `fuel` bounds the rounds. -/
def collapse : (fuel : Nat) → Array UInt64 → (middle left right : Nat) → Option Cut
  | 0, _, _, _, _ => none
  | fuel + 1, keys, middle, left, right => do
    let pivot ← keys[middle]?
    let left ← scanUp keys pivot left
    let right ← scanDown keys pivot right
    if left < right then
      let keys := keys.swapIfInBounds left right
      let middle := follow middle left right
      if left + 1 > right - 1 then some ⟨keys, left + 1, right - 1⟩
      else collapse fuel keys middle (left + 1) (right - 1)
    else if left = right then some ⟨keys, left + 1, right - 1⟩
    else some ⟨keys, left, right⟩

def partition (keys : Array UInt64) (low high : Nat) : Option Cut := do
  let middle := low + (high - low) / 2
  let keys ← medianOfThree keys low middle high
  collapse keys.size keys middle (low + 1) (high - 1)

/-- The parts of a cut range that are not small, the smaller of them first. -/
def pending (low left right high : Nat) : List (Nat × Nat) :=
  let lower := (low, right)
  let upper := (left, high)
  if right - low ≤ smallSpan then
    if high - left ≤ smallSpan then [] else [upper]
  else if high - left ≤ smallSpan then [lower]
  else if right - low > high - left then [upper, lower]
  else [lower, upper]

def partitionAll : (fuel : Nat) → Array UInt64 → List (Nat × Nat) → Option (Array UInt64)
  | _, keys, [] => some keys
  | 0, _, _ :: _ => none
  | fuel + 1, keys, (low, high) :: rest => do
    let cut ← partition keys low high
    partitionAll fuel cut.keys (pending low cut.left cut.right high ++ rest)

def leastUpTo (keys : Array UInt64) : (i : Nat) → Option Nat
  | 0 => some 0
  | i + 1 => do
    let least ← leastUpTo keys i
    let a ← keys[i + 1]?
    let b ← keys[least]?
    return if a < b then i + 1 else least

/-- Moves the key at `i` down past every key above it; `none` if the front is reached, where no key
is left to stop it. -/
def sink (keys : Array UInt64) : (i : Nat) → Option (Array UInt64)
  | 0 => none
  | i + 1 => match keys[i]?, keys[i + 1]? with
    | some before, some key =>
      if key < before then sink (keys.swapIfInBounds i (i + 1)) i else some keys
    | _, _ => none

def sinkAll : (count : Nat) → Array UInt64 → (i : Nat) → Option (Array UInt64)
  | 0, keys, _ => some keys
  | count + 1, keys, i => do sinkAll count (← sink keys i) (i + 1)

/-- The least of all keys is among the first few; in front it stops every other. -/
def insertionPass (keys : Array UInt64) : Option (Array UInt64) := do
  let last := keys.size - 1
  let least ← leastUpTo keys (min last smallSpan)
  sinkAll (last - 1) (keys.swapIfInBounds least 0) 2

def quick? (keys : Array UInt64) : Option (Array UInt64) :=
  if keys.size < 2 then some keys
  else do
    let work := if smallSpan < keys.size then [(0, keys.size - 1)] else []
    insertionPass (← partitionAll keys.size keys work)

end Sorting

end Rollup
