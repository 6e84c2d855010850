import Mathlib.Algebra.BigOperators.Group.List.Basic
import Mathlib.Data.Int.Log
import Mathlib.Data.Rat.Floor
import Mathlib.Tactic.Ring
import Rollup.Number.Fixed
import Rollup.Statistics.Compensated

/-! What a compensated sum tells of the exact sum, when nothing but the additions onto the sum is
rounded: the sum without its excess is the exact one. `Compensated.total` puts the excess on once
more, so that it is off by twice the excess before it is rounded. -/
namespace Rollup

def Arithmetic.rounded (rnd : ℚ → ℚ) : Arithmetic ℚ :=
  ⟨0, fun a b => rnd (a + b), fun a b => rnd (a - b)⟩

namespace Compensated

variable {rnd : ℚ → ℚ} {s : Compensated ℚ} {x : ℚ} {xs : List ℚ}

/-- Of the operations that put in a value, only the addition onto the sum is rounded. -/
structure RoundsOnce (rnd : ℚ → ℚ) (s : Compensated ℚ) (x : ℚ) : Prop where
  term : rnd (x - s.low) = x - s.low
  growth : rnd (rnd (s.sum + (x - s.low)) - s.sum) = rnd (s.sum + (x - s.low)) - s.sum
  excess : rnd (rnd (s.sum + (x - s.low)) - s.sum - (x - s.low)) =
    rnd (s.sum + (x - s.low)) - s.sum - (x - s.low)

instance : Decidable (RoundsOnce rnd s x) :=
  decidable_of_iff (_ ∧ _ ∧ _) ⟨fun ⟨h, h', h''⟩ => ⟨h, h', h''⟩, fun ⟨h, h', h''⟩ => ⟨h, h', h''⟩⟩

def RoundsOnceEach (rnd : ℚ → ℚ) (s : Compensated ℚ) : List ℚ → Prop
  | [] => True
  | x :: rest => RoundsOnce rnd s x ∧ RoundsOnceEach rnd (s.add (.rounded rnd) x) rest

instance decidableRoundsOnceEach (s : Compensated ℚ) :
    (xs : List ℚ) → Decidable (RoundsOnceEach rnd s xs)
  | [] => .isTrue trivial
  | x :: rest =>
    have := decidableRoundsOnceEach (s.add (.rounded rnd) x) rest
    inferInstanceAs (Decidable (_ ∧ _))

/-- The sum without what was put in above the terms. -/
def exact (s : Compensated ℚ) : ℚ := s.sum - s.low

theorem RoundsOnce.add_eq (h : RoundsOnce rnd s x) :
    s.add (.rounded rnd) x =
      ⟨rnd (s.sum + (x - s.low)), rnd (s.sum + (x - s.low)) - s.sum - (x - s.low)⟩ := by
  simp only [add, Arithmetic.rounded, h.term, h.growth, h.excess]

/-- What a rounding puts in is kept as the excess, so that nothing is lost. -/
theorem RoundsOnce.exact_add (h : RoundsOnce rnd s x) :
    (s.add (.rounded rnd) x).exact = s.exact + x := by
  rw [h.add_eq, exact, exact]
  ring

theorem exact_foldl (h : RoundsOnceEach rnd s xs) :
    (xs.foldl (add (.rounded rnd)) s).exact = s.exact + xs.sum := by
  induction xs generalizing s with
  | nil => rw [List.foldl_nil, List.sum_nil, add_zero]
  | cons x rest ih =>
    rw [List.foldl_cons, ih h.2, h.1.exact_add, List.sum_cons, add_assoc]

theorem exact_ofList (h : RoundsOnceEach rnd (zero (.rounded rnd)) xs) :
    (ofList (.rounded rnd) xs).exact = xs.sum := by
  rw [ofList, exact_foldl h, exact, zero, Arithmetic.rounded, sub_zero, zero_add]

/-- The excess, taken off, gives the rounded exact sum. The total is the rounding of the exact sum
and twice the excess, and thus right exactly if these two round alike. -/
theorem total_ofList_eq (h : RoundsOnceEach rnd (zero (.rounded rnd)) xs) :
    let s := ofList (.rounded rnd) xs
    (Arithmetic.rounded rnd).sub s.sum s.low = rnd xs.sum ∧
      s.total (.rounded rnd) = rnd (xs.sum + 2 * s.low) ∧
      (s.total (.rounded rnd) = rnd xs.sum ↔ rnd (xs.sum + 2 * s.low) = rnd xs.sum) := by
  intro s
  have hexact : s.sum - s.low = xs.sum := exact_ofList h
  have htotal : s.total (.rounded rnd) = rnd (xs.sum + 2 * s.low) := by
    have hsum : s.sum + s.low = xs.sum + 2 * s.low := by rw [← hexact]; ring
    exact congrArg rnd hsum
  exact ⟨congrArg rnd hexact, htotal, by rw [htotal]⟩

/-- The nearest number with 53 binary digits, of two equally near the one whose last digit is even. -/
def nearest (x : ℚ) : ℚ :=
  let place : ℚ := 2 ^ (Int.log 2 |x| - 52)
  let count := |x| / place
  x.num.sign * roundHalfEven count.num.natAbs count.den * place

/-- An excess that is lost in the rounding, on whichever side of the sum it is put. -/
theorem total_ofList_eq_even :
    let xs : List ℚ := [18014398509481984, 1]
    let s := ofList (.rounded nearest) xs
    RoundsOnceEach nearest (zero (.rounded nearest)) xs ∧ s.low = -1 ∧
      s.total (.rounded nearest) = nearest xs.sum := by
  intro xs s
  have h : RoundsOnceEach nearest (zero (.rounded nearest)) xs := by decide +kernel
  have hlow : s.low = -1 := by decide +kernel
  refine ⟨h, hlow, (total_ofList_eq h).2.2.mpr ?_⟩
  rw [hlow]
  decide +kernel

/-- An excess that is not: the exact sum would round to the plain sum, and the total is one less.
Doubles give the same. -/
theorem total_below_exact :
    let xs : List ℚ := [9007199254740992, 1]
    let s := ofList (.rounded nearest) xs
    RoundsOnceEach nearest (zero (.rounded nearest)) xs ∧ nearest xs.sum = 9007199254740992 ∧
      s.total (.rounded nearest) = 9007199254740991 ∧
      compensatedTotal [9007199254740992, 1] = 9007199254740991 := by
  decide +kernel

end Compensated

end Rollup
