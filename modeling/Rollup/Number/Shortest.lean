import Rollup.Number.Double

/-!
Shortest notation: the fewest decimal digits that read back as the same double, and how a text
format lays them out.
-/
namespace Rollup

/-- `digits * 10 ^ exponent`. -/
structure Decimal where
  digits : Nat
  exponent : Int
  deriving DecidableEq, Repr

/-- The non-negative rational `num / den`, `den` positive. -/
structure Ratio where
  num : Nat
  den : Nat

namespace Ratio

def binary (n : Nat) : Int → Ratio
  | .ofNat e => ⟨n * Nat.pow 2 e, 1⟩
  | .negSucc e => ⟨n, Nat.pow 2 (e + 1)⟩

def inUnits (r : Ratio) : Int → Ratio
  | .ofNat e => ⟨r.num, r.den * Nat.pow 10 e⟩
  | .negSucc e => ⟨r.num * Nat.pow 10 (e + 1), r.den⟩

def floor (r : Ratio) : Nat := r.num / r.den

end Ratio

/-- The reals that round to a double, as multiples of `2 ^ scale`: the closed interval from `low` to
`high` when the mantissa is even, the open one otherwise. -/
structure RoundingInterval where
  scale : Int
  low : Nat
  value : Nat
  high : Nat
  closed : Bool

/-- The neighbour below is nearer when the mantissa is the least of its binade. -/
def RoundingInterval.around (mantissa : Nat) (exponent : Int) : RoundingInterval where
  scale := exponent - 2
  low :=
    if mantissa = DoubleBits.leadingBit ∧ exponent ≠ Magnitude.leastExponent then 4 * mantissa - 1
    else 4 * mantissa - 2
  value := 4 * mantissa
  high := 4 * mantissa + 2
  closed := mantissa % 2 == 0

def RoundingInterval.holds (i : RoundingInterval) (n : Nat) (e : Int) : Bool :=
  let low := (Ratio.binary i.low i.scale).inUnits e
  let high := (Ratio.binary i.high i.scale).inUnits e
  if i.closed then low.num ≤ n * low.den && n * high.den ≤ high.num
  else low.num < n * low.den && n * high.den < high.num

/-- Of the two multiples of `10 ^ e` around the value, the one in the interval; of two the nearer,
of two equally near the even one. -/
def RoundingInterval.candidate (i : RoundingInterval) (e : Int) : Option Nat :=
  let value := (Ratio.binary i.value i.scale).inUnits e
  let below := value.floor
  match i.holds below e, i.holds (below + 1) e with
  | true, false => some below
  | false, true => some (below + 1)
  | false, false => none
  | true, true =>
    let twice := 2 * (value.num % value.den)
    if twice < value.den ∨ (twice = value.den ∧ below % 2 = 0) then some below
    else some (below + 1)

def Decimal.trimmed : Nat → Decimal → Decimal
  | 0, d => d
  | fuel + 1, d =>
    if d.digits ≠ 0 ∧ d.digits % 10 = 0 then trimmed fuel ⟨d.digits / 10, d.exponent + 1⟩ else d

def maxDigits : Nat := 17

/-- The shortest decimal that reads back as `mantissa * 2 ^ exponent`: the coarsest grid that has a
point in the rounding interval decides. -/
def Decimal.shortest (mantissa : Nat) (exponent : Int) : Decimal :=
  if mantissa = 0 then ⟨0, 0⟩
  else
    let interval := RoundingInterval.around mantissa exponent
    let value := Ratio.binary mantissa exponent
    -- The position after the leading digit: `10 ^ (top - 1) ≤ value < 10 ^ top`.
    let top : Int :=
      if value.den ≤ value.num then (Nat.toDigits 10 value.floor).length
      else
        let zeros := (Nat.toDigits 10 (value.den / value.num)).length
        if value.den ≤ value.num * Nat.pow 10 (zeros - 1) then 2 - (zeros : Int)
        else 1 - (zeros : Int)
    let found := (List.range maxDigits).findSome? fun k =>
      let unit := top - (k + 1 : Nat)
      (interval.candidate unit).map fun n => Decimal.mk n unit
    (found.getD ⟨0, 0⟩).trimmed (maxDigits + 1)

structure FloatNotation where
  /-- Decimal exponents of the leading digit that are written positionally. -/
  leastPositional : Int
  greatestPositional : Int
  nan : String
  infinity : String

def Decimal.scientific (d : Decimal) : String :=
  let digits := Nat.toDigits 10 d.digits
  let exponent := d.exponent + (digits.length - 1 : Nat)
  let tail := digits.drop 1
  let shown := digits.take 1 ++ if tail.isEmpty then [] else '.' :: tail
  String.ofList shown ++ "e" ++ toString exponent

def Decimal.positional (d : Decimal) : String :=
  let digits := Nat.toDigits 10 d.digits
  let point := (digits.length : Int) + d.exponent
  if point ≤ 0 then
    "0." ++ String.ofList (List.replicate point.natAbs '0' ++ digits)
  else if d.exponent < 0 then
    String.ofList (digits.take point.natAbs ++ '.' :: digits.drop point.natAbs)
  else
    String.ofList (digits ++ List.replicate d.exponent.natAbs '0') ++ ".0"

def FloatNotation.write (layout : FloatNotation) (x : Float) : String :=
  let sign := if x.isSigned then "-" else ""
  match x.magnitude with
  | .nan => layout.nan
  | .infinite => sign ++ layout.infinity
  | .finite mantissa exponent =>
    let d := Decimal.shortest mantissa exponent
    let leading := d.exponent + ((Nat.toDigits 10 d.digits).length - 1 : Nat)
    if mantissa = 0 ∨ (layout.leastPositional ≤ leading ∧ leading ≤ layout.greatestPositional) then
      sign ++ d.positional
    else sign ++ d.scientific

end Rollup
