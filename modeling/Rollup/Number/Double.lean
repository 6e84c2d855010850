/-!
The anatomy of a double: what a bit pattern denotes exactly, and the order of bit patterns that
puts negative before positive and every NaN at one of the ends.
-/
namespace Rollup

/-- The bit pattern of a double. Patterns keep what arithmetic forgets: the payload of a NaN. -/
abbrev DoubleBits := UInt64

namespace DoubleBits

def isNegative (bits : DoubleBits) : Bool := bits >>> 63 == 1

def exponentField (bits : DoubleBits) : Nat := (bits >>> 52).toNat % 2048

def leadingBit : Nat := 0x10000000000000

def fraction (bits : DoubleBits) : Nat := bits.toNat % leadingBit

def isFinite (bits : DoubleBits) : Bool := bits.exponentField != 2047

/-- Unsigned comparison of keys is the total order of patterns: a negative pattern has all its bits
inverted, any other only its sign. -/
def orderKey (bits : DoubleBits) : UInt64 :=
  if bits.isNegative then bits ^^^ 0xFFFFFFFFFFFFFFFF else bits ^^^ 0x8000000000000000

def ofOrderKey (key : UInt64) : DoubleBits :=
  if key >>> 63 == 1 then key ^^^ 0x8000000000000000 else key ^^^ 0xFFFFFFFFFFFFFFFF

end DoubleBits

/-- What a double denotes: a finite one is `mantissa * 2 ^ exponent` with a sign. -/
inductive Magnitude
  | nan
  | infinite
  | finite (mantissa : Nat) (exponent : Int)
  deriving DecidableEq, Repr

/-- The exponent of the last bit of a subnormal double. -/
def Magnitude.leastExponent : Int := -1074

def Magnitude.ofBits (bits : DoubleBits) : Magnitude :=
  let exponent := bits.exponentField
  if exponent == 2047 then
    if bits.fraction == 0 then .infinite else .nan
  else if exponent == 0 then
    .finite bits.fraction Magnitude.leastExponent
  else
    .finite (bits.fraction + DoubleBits.leadingBit) (Magnitude.leastExponent + (exponent - 1 : Nat))

end Rollup

namespace Float

def magnitude (x : Float) : Rollup.Magnitude := .ofBits x.toBits

def isSigned (x : Float) : Bool := Rollup.DoubleBits.isNegative x.toBits

end Float
