/-!
The sample that stands at a fraction of a sorted batch.
-/
namespace Rollup

/-- The index at `numerator / denominator` of the way from the first of `count` samples to the
last, rounded down. -/
def fractionIndex (count numerator denominator : Nat) : Nat :=
  (count - 1) * numerator / denominator

theorem fractionIndex_lt {count numerator denominator : Nat} (pos : 0 < count)
    (proper : numerator ≤ denominator) : fractionIndex count numerator denominator < count := by
  have bound : (count - 1) * numerator / denominator ≤ count - 1 := by
    rcases Nat.eq_zero_or_pos denominator with rfl | h
    · simp
    · exact Nat.div_le_of_le_mul (by
        rw [Nat.mul_comm denominator]; exact Nat.mul_le_mul_left _ proper)
  unfold fractionIndex
  omega

theorem fractionIndex_mono {count a b c d : Nat} (posb : 0 < b) (posd : 0 < d)
    (le : a * d ≤ c * b) : fractionIndex count a b ≤ fractionIndex count c d := by
  unfold fractionIndex
  rw [Nat.le_div_iff_mul_le posd]
  have floor := Nat.div_mul_le_self ((count - 1) * a) b
  have step : (count - 1) * a / b * d * b ≤ (count - 1) * c * b := by
    calc (count - 1) * a / b * d * b = (count - 1) * a / b * b * d := by
          rw [Nat.mul_assoc, Nat.mul_comm d, ← Nat.mul_assoc]
      _ ≤ (count - 1) * a * d := Nat.mul_le_mul_right _ floor
      _ = (count - 1) * (a * d) := Nat.mul_assoc ..
      _ ≤ (count - 1) * (c * b) := Nat.mul_le_mul_left _ le
      _ = (count - 1) * c * b := (Nat.mul_assoc ..).symm
  exact Nat.le_of_mul_le_mul_right step posb

end Rollup
