/-!
Compensated summation: the low-order part that an addition loses is kept beside the sum.
-/
namespace Rollup

structure Arithmetic (α : Type u) where
  zero : α
  add : α → α → α
  sub : α → α → α

def Arithmetic.double : Arithmetic Float := ⟨0.0, Float.add, Float.sub⟩

/-- A running sum. `low` is what the last addition put in above the term it was given. -/
structure Compensated (α : Type u) where
  sum : α
  low : α
  deriving Repr

namespace Compensated

variable {α : Type u} (ops : Arithmetic α)

def zero : Compensated α := ⟨ops.zero, ops.zero⟩

def add (s : Compensated α) (x : α) : Compensated α :=
  let y := ops.sub x s.low
  let t := ops.add s.sum y
  ⟨t, ops.sub (ops.sub t s.sum) y⟩

def total (s : Compensated α) : α := ops.add s.sum s.low

def ofList (xs : List α) : Compensated α := xs.foldl (add ops) (zero ops)

theorem ofList_append (xs ys : List α) :
    ofList ops (xs ++ ys) = ys.foldl (add ops) (ofList ops xs) := List.foldl_append

end Compensated

def compensatedTotal (xs : List Float) : Float :=
  (Compensated.ofList .double xs).total .double

end Rollup
