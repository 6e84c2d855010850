import Mathlib
import Rollup.Proofs.Number.TotalOrder

/-! Finite doubles as a sign, a mantissa and an exponent: what the arithmetic of doubles makes of a
bit pattern, and when it can put such parts back into one. -/
namespace Rollup

open Float.Model UnpackedFloat

namespace DoubleBits

variable (bits : DoubleBits)

theorem toNat_unpackMantissa :
    (@unpackMantissa .binary64 bits.toBitVec).toNat = bits.fraction := by
  simp [unpackMantissa, fraction, leadingBit]

theorem toNat_unpackExponent :
    (@unpackExponent .binary64 bits.toBitVec).toNat = bits.exponentField := by
  simp [unpackExponent, exponentField]

theorem toNat_unpackSign :
    (@unpackSign .binary64 bits.toBitVec).toNat = if bits.isNegative then 1 else 0 := by
  have hbits : bits.toNat < 2 ^ 64 := bits.toNat_lt
  have hsign : (@unpackSign .binary64 bits.toBitVec).toNat =
      bits.toNat / 2 ^ 63 % 2 := by
    simp [unpackSign, Nat.shiftRight_eq_div_pow]
  rw [hsign]
  split_ifs with h
  · rw [isNegative_iff] at h
    omega
  · rw [isNegative_iff] at h
    omega

def sign : Sign := if bits.isNegative then .negative else .positive

theorem ofBitVec_unpackSign :
    Sign.ofBitVec (@unpackSign .binary64 bits.toBitVec) = bits.sign := by
  have hzero : @unpackSign .binary64 bits.toBitVec = 0#1 ↔ ¬ bits.isNegative := by
    rw [← BitVec.toNat_inj, toNat_unpackSign]
    simp
  rw [Sign.ofBitVec, sign]
  split_ifs with h hnegative hnegative
  · exact absurd hnegative (hzero.mp h)
  · rfl
  · rfl
  · exact absurd (hzero.mpr hnegative) h

end DoubleBits

namespace Magnitude

/-- The mantissas and exponents of finite doubles. A mantissa is full unless the exponent is the
least one. -/
structure Canonical (mantissa : Nat) (exponent : Int) : Prop where
  fits : mantissa < 2 ^ 53
  least : leastExponent ≤ exponent
  greatest : exponent ≤ 971
  full : exponent ≠ leastExponent → 2 ^ 52 ≤ mantissa

theorem canonical_of_finite {bits : DoubleBits} {m : Nat} {e : Int}
    (h : ofBits bits = .finite m e) :
    Canonical m e ∧ (e + 1074) * 2 ^ 52 + m = (bits.toNat % 2 ^ 63 : Nat) := by
  have hexponent : bits.exponentField = bits.toNat / 2 ^ 52 % 2048 := by
    simp [DoubleBits.exponentField, Nat.shiftRight_eq_div_pow]
  have hfraction : bits.fraction = bits.toNat % 2 ^ 52 := rfl
  simp only [ofBits, beq_iff_eq] at h
  split_ifs at h with hall hfield hnone
  · cases h
    exact ⟨⟨by omega, by simp, by simp [leastExponent], fun hne => absurd rfl hne⟩,
      by simp only [leastExponent]; omega⟩
  · cases h
    simp only [leastExponent, DoubleBits.leadingBit]
    exact ⟨⟨by omega, by simp only [leastExponent]; omega, by omega, fun _ => by omega⟩, by omega⟩

theorem exists_finite {bits : DoubleBits} (h : bits.exponentField ≠ 2047) :
    ∃ m e, ofBits bits = .finite m e := by
  simp only [ofBits, beq_iff_eq, if_neg h]
  split_ifs
  · exact ⟨_, _, rfl⟩
  · exact ⟨_, _, rfl⟩

end Magnitude

def assembled (sign : Sign) (mantissa : Nat) (exponent : Int) : UnpackedFloat :=
  if h : 0 < mantissa then .finite sign mantissa exponent h else .zero sign

theorem unpackExponent_eq_neg_one_iff (bits : DoubleBits) :
    @unpackExponent .binary64 bits.toBitVec = -1#_ ↔ bits.exponentField = 2047 := by
  rw [← BitVec.toNat_inj, bits.toNat_unpackExponent]
  rfl

theorem unpackExponent_eq_zero_iff (bits : DoubleBits) :
    @unpackExponent .binary64 bits.toBitVec = 0#_ ↔ bits.exponentField = 0 := by
  rw [← BitVec.toNat_inj, bits.toNat_unpackExponent]
  rfl

theorem unpackMantissa_eq_zero_iff (bits : DoubleBits) :
    @unpackMantissa .binary64 bits.toBitVec = 0#_ ↔ bits.fraction = 0 := by
  rw [← BitVec.toNat_inj, bits.toNat_unpackMantissa]
  rfl

theorem toNat_append_unpackMantissa (bits : DoubleBits) :
    (1#1 ++ @unpackMantissa .binary64 bits.toBitVec).toNat =
      bits.fraction + DoubleBits.leadingBit := by
  have hlt : bits.fraction < 2 ^ 52 := Nat.mod_lt _ (by decide)
  rw [BitVec.toNat_append, bits.toNat_unpackMantissa, ← Nat.shiftLeft_add_eq_or_of_lt hlt]
  exact Nat.add_comm ..

theorem unpack_finite {bits : DoubleBits} {m : Nat} {e : Int}
    (h : .ofBits bits = Magnitude.finite m e) :
    UnpackedFloat.unpack .binary64 bits.toBitVec = assembled bits.sign m e := by
  have hbias : ((Format.binary64.exponentBias : Nat) : Int) = 1023 := rfl
  simp only [Magnitude.ofBits, beq_iff_eq] at h
  by_cases hall : bits.exponentField = 2047
  · rw [if_pos hall] at h
    split at h <;> cases h
  rw [if_neg hall] at h
  rw [UnpackedFloat.unpack, if_neg (mt (unpackExponent_eq_neg_one_iff bits).mp hall)]
  by_cases hnone : bits.exponentField = 0
  · rw [if_pos hnone] at h
    cases h
    rw [if_pos ((unpackExponent_eq_zero_iff bits).mpr hnone)]
    by_cases hzero : bits.fraction = 0
    · rw [dif_pos ((unpackMantissa_eq_zero_iff bits).mpr hzero), assembled, dif_neg (by omega),
        bits.ofBitVec_unpackSign]
    · rw [dif_neg (mt (unpackMantissa_eq_zero_iff bits).mp hzero), assembled, dif_pos (by omega)]
      simp only [bits.ofBitVec_unpackSign, bits.toNat_unpackMantissa, bits.toNat_unpackExponent,
        hnone]
      rfl
  · rw [if_neg hnone] at h
    cases h
    rw [if_neg (mt (unpackExponent_eq_zero_iff bits).mp hnone), assembled,
      dif_pos (by simp [DoubleBits.leadingBit])]
    simp only [bits.ofBitVec_unpackSign, bits.toNat_unpackExponent, hbias, Magnitude.leastExponent]
    congr 1
    · exact toNat_append_unpackMantissa bits
    · omega

theorem isFinite_unpack_iff (bits : BitVec 64) :
    (UnpackedFloat.unpack .binary64 bits).isFinite ↔
      @unpackExponent .binary64 bits ≠ -1#_ := by
  rw [UnpackedFloat.unpack]
  split_ifs with hall hnone hzero hzero
  · exact iff_of_false (fun h => nomatch h) (not_not.mpr hall)
  · exact iff_of_false (fun h => nomatch h) (not_not.mpr hall)
  · exact iff_of_true rfl hall
  · exact iff_of_true rfl hall
  · exact iff_of_true rfl hall

theorem isFinite_pack_iff (s : Sign) {m : Nat} {e : Int} (hm : 0 < m)
    (he : Magnitude.leastExponent ≤ e) :
    (Float.ofModel (Float.Model.pack (.finite s m e hm))).isFinite ↔ e ≤ 971 := by
  simp only [Magnitude.leastExponent] at he
  obtain ⟨field, hfield⟩ := Int.eq_ofNat_of_zero_le (show 0 ≤ e + 1023 + 52 by omega)
  have hbiased : (e + Format.binary64.exponentBias + (52 : Nat)).toNat = field :=
    congrArg Int.toNat hfield
  refine (isFinite_unpack_iff (UnpackedFloat.pack .binary64 (.finite s m e hm))).trans ?_
  simp only [UnpackedFloat.pack, hbiased]
  split_ifs with hgreat hfull
  · exact iff_of_false (by simp [packedInfinity]) (by omega)
  · refine iff_of_true ?_ (by omega)
    rw [unpackExponent_packComponents, ne_eq, ← BitVec.toNat_inj, BitVec.toNat_ofNat]
    change field % 2048 ≠ 2047
    omega
  · refine iff_of_true ?_ (by omega)
    rw [unpackExponent_packComponents]
    decide

theorem unpack_magnitude {x : Float} {m : Nat} {e : Int} (h : x.magnitude = .finite m e) :
    x.toModel.unpack = assembled (DoubleBits.sign x.toBits) m e := unpack_finite h

theorem isFinite_iff {x : Float} : x.isFinite ↔ ∃ m e, x.magnitude = .finite m e := by
  refine (isFinite_unpack_iff x.toBits.toBitVec).trans ?_
  rw [ne_eq, unpackExponent_eq_neg_one_iff]
  refine ⟨Magnitude.exists_finite, fun ⟨m, e, h⟩ hall => ?_⟩
  simp only [Float.magnitude, Magnitude.ofBits, hall, beq_self_eq_true, if_true] at h
  split at h <;> cases h

end Rollup
