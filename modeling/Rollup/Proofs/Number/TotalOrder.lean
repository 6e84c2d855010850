import Mathlib.Data.Nat.Bitwise
import Rollup.Number.Double

/-! The total order of doubles, which has NaNs at both ends and the negative zero below the other
one, and its keys: unsigned comparison of keys is comparison in this order, and every key is that of
one pattern. -/
namespace Rollup.DoubleBits

/-- The place of a pattern in the total order. Patterns without the sign bit count up from zero, and
those with it count down from minus one. -/
def rank (bits : DoubleBits) : Int :=
  if bits.isNegative then 2 ^ 63 - 1 - bits.toNat else bits.toNat

/-- NaN, infinity, one and zero, each with the sign bit and then without it. -/
example : [0xFFF8000000000000, 0xFFF0000000000000, 0xBFF0000000000000, 0x8000000000000000,
    0x0000000000000000, 0x3FF0000000000000, 0x7FF0000000000000, 0x7FF8000000000000].Pairwise
      fun a b : DoubleBits => a.rank < b.rank := by
  decide

variable {bits : DoubleBits}

theorem topBit_iff {word : UInt64} : (word >>> 63 == 1) = true ↔ 2 ^ 63 ≤ word.toNat := by
  have hword : word.toNat < 2 ^ 64 := word.toNat_lt
  have hshift : (word >>> 63).toNat = word.toNat / 2 ^ 63 := by
    rw [UInt64.toNat_shiftRight, Nat.shiftRight_eq_div_pow]
    rfl
  rw [beq_iff_eq, ← UInt64.toNat_inj, hshift, UInt64.toNat_one]
  omega

theorem isNegative_iff : bits.isNegative = true ↔ 2 ^ 63 ≤ bits.toNat := topBit_iff

theorem toNat_xor_sign (h : bits.toNat < 2 ^ 63) :
    (bits ^^^ 0x8000000000000000).toNat = 2 ^ 63 + bits.toNat := by
  have hxor : (bits ^^^ 0x8000000000000000).toNat = bits.toNat ^^^ 2 ^ 63 := UInt64.toNat_xor ..
  have hquotient : (bits.toNat ^^^ 2 ^ 63) / 2 ^ 63 = 1 := by
    rw [Nat.xor_div_two_pow, Nat.div_eq_of_lt h, Nat.div_self (Nat.two_pow_pos 63), Nat.zero_xor]
  have hremainder : (bits.toNat ^^^ 2 ^ 63) % 2 ^ 63 = bits.toNat := by
    rw [Nat.xor_mod_two_pow, Nat.mod_eq_of_lt h, Nat.mod_self, Nat.xor_zero]
  rw [hxor, ← Nat.div_add_mod (bits.toNat ^^^ 2 ^ 63) (2 ^ 63), hquotient, hremainder, Nat.mul_one]

theorem toNat_xor_all (bits : DoubleBits) :
    (bits ^^^ 0xFFFFFFFFFFFFFFFF).toNat = 2 ^ 64 - 1 - bits.toNat := by
  rw [← UInt64.toNat_toBitVec, UInt64.toBitVec_xor, ← UInt64.toNat_toBitVec]
  exact (congrArg BitVec.toNat BitVec.xor_allOnes).trans BitVec.toNat_not

theorem toNat_orderKey (bits : DoubleBits) : (bits.orderKey.toNat : Int) = 2 ^ 63 + bits.rank := by
  have hbits : bits.toNat < 2 ^ 64 := bits.toNat_lt
  rw [orderKey, rank]
  split_ifs with hsign
  · rw [toNat_xor_all]
    omega
  · rw [toNat_xor_sign (Nat.lt_of_not_le fun hle => hsign (isNegative_iff.mpr hle))]
    omega

theorem orderKey_le_iff {a b : DoubleBits} : a.orderKey ≤ b.orderKey ↔ a.rank ≤ b.rank := by
  have ha := toNat_orderKey a
  have hb := toNat_orderKey b
  rw [UInt64.le_iff_toNat_le]
  omega

@[simp] theorem ofOrderKey_orderKey (bits : DoubleBits) : ofOrderKey bits.orderKey = bits := by
  have hkey := toNat_orderKey bits
  have hbits : bits.toNat < 2 ^ 64 := bits.toNat_lt
  have htop : (bits.orderKey >>> 63 == 1) = !bits.isNegative := by
    rw [Bool.eq_iff_iff, topBit_iff, Bool.not_eq_true', ← Bool.not_eq_true, isNegative_iff]
    rw [rank] at hkey
    split_ifs at hkey with hsign
    · rw [isNegative_iff] at hsign
      omega
    · rw [isNegative_iff] at hsign
      omega
  rw [ofOrderKey, htop, orderKey]
  cases bits.isNegative
  · exact (UInt64.xor_assoc ..).trans UInt64.xor_zero
  · exact (UInt64.xor_assoc ..).trans UInt64.xor_zero

theorem rank_injective {a b : DoubleBits} (h : a.rank = b.rank) : a = b := by
  have hkeys : a.orderKey = b.orderKey :=
    UInt64.le_antisymm (orderKey_le_iff.mpr (Int.le_of_eq h))
      (orderKey_le_iff.mpr (Int.le_of_eq h.symm))
  rw [← ofOrderKey_orderKey a, hkeys, ofOrderKey_orderKey]

end Rollup.DoubleBits
