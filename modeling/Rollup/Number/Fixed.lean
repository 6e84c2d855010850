import Rollup.Number.Double

/-!
Fixed-place notation: the exact value of a double rounded to a number of decimals, a half going to
the even neighbour.
-/
namespace Rollup

/-- The integer nearest to `num / den`, of two equally near the even one. -/
def roundHalfEven (num den : Nat) : Nat :=
  let quotient := num / den
  let twice := 2 * (num % den)
  if twice < den ∨ (twice = den ∧ quotient % 2 = 0) then quotient else quotient + 1

/-- `mantissa * 2 ^ exponent * 10 ^ places`, rounded to an integer. -/
def scaledToPlaces (places mantissa : Nat) : Int → Nat
  | .ofNat e => mantissa * Nat.pow 2 e * Nat.pow 10 places
  | .negSucc e => roundHalfEven (mantissa * Nat.pow 10 places) (Nat.pow 2 (e + 1))

/-- The digits of `n` with a point before the last `places` of them, at least one digit first. -/
def pointed (places n : Nat) : String :=
  let digits := Nat.toDigits 10 n
  let digits := List.replicate (places + 1 - digits.length) '0' ++ digits
  let whole := digits.take (digits.length - places)
  if places = 0 then String.ofList whole
  else String.ofList (whole ++ '.' :: digits.drop (digits.length - places))

/-- A value with `places` decimals. The sign of a zero is kept; NaN has none. -/
def fixed (places : Nat) (x : Float) : String :=
  let sign := if x.isSigned then "-" else ""
  match x.magnitude with
  | .nan => "NaN"
  | .infinite => sign ++ "inf"
  | .finite mantissa exponent => sign ++ pointed places (scaledToPlaces places mantissa exponent)

theorem roundHalfEven_near (num : Nat) {den : Nat} (h : 0 < den) :
    2 * num ≤ 2 * den * roundHalfEven num den + den ∧
      2 * den * roundHalfEven num den ≤ 2 * num + den := by
  have parts := Nat.div_add_mod num den
  have small := Nat.mod_lt num h
  have next : den * (num / den + 1) = den * (num / den) + den := Nat.mul_succ ..
  have assoc (n : Nat) : 2 * den * n = 2 * (den * n) := Nat.mul_assoc ..
  simp only [roundHalfEven, assoc]
  split
  · omega
  · rw [next]; omega

end Rollup
