import Rollup.Proofs.Number.Parts

/-! The numeric order of finite doubles. It is the order of their places on a line on which the
doubles are evenly spaced and both zeros stand at the origin, so that it is total and transitive,
and the total order of patterns refines it. -/
namespace Rollup

open Float.Model UnpackedFloat

namespace DoubleBits

/-- The number of steps from zero, along the doubles without or with the sign bit. -/
def place (bits : DoubleBits) : Int :=
  if bits.isNegative then 2 ^ 63 - bits.toNat else bits.toNat

theorem place_le_of_rank_le {a b : DoubleBits} (h : a.rank ≤ b.rank) : a.place ≤ b.place := by
  have ha : a.toNat < 2 ^ 64 := a.toNat_lt
  have hb : b.toNat < 2 ^ 64 := b.toNat_lt
  simp only [rank, place] at h ⊢
  split_ifs at h ⊢ with hna hnb
  · omega
  · rw [isNegative_iff] at hna
    omega
  · omega
  · omega

theorem place_eq (bits : DoubleBits) :
    bits.place = bits.sign.apply (bits.toNat % 2 ^ 63 : Nat) := by
  have hbits : bits.toNat < 2 ^ 64 := bits.toNat_lt
  simp only [place, sign]
  split_ifs with hnegative
  · rw [isNegative_iff] at hnegative
    simp only [Sign.apply]
    omega
  · rw [isNegative_iff] at hnegative
    simp only [Sign.apply]
    omega

end DoubleBits

namespace Magnitude

def steps (mantissa : Nat) (exponent : Int) : Int := (exponent + 1074) * 2 ^ 52 + mantissa

variable {m n : Nat} {e f : Int}

theorem Canonical.steps_pos (h : Canonical m e) (hm : 0 < m) : 0 < steps m e := by
  have := h.least
  simp only [leastExponent, steps] at this ⊢
  omega

theorem Canonical.steps_lt (h : Canonical m e) (h' : Canonical n f) (hlt : e < f) :
    steps m e < steps n f := by
  have hfits := h.fits
  have hleast := h.least
  have hfull := h'.full (by omega)
  simp only [steps]
  omega

theorem Canonical.compare_eq (h : Canonical m e) (h' : Canonical n f) :
    (compare e f).then (compare m n) = compare (steps m e) (steps n f) := by
  obtain hlt | rfl | hgt := lt_trichotomy e f
  · rw [compare_lt_iff_lt.mpr hlt, compare_lt_iff_lt.mpr (h.steps_lt h' hlt)]
    rfl
  · have hsame : compare (steps m e) (steps n e) = compare m n := by
      simp only [steps]
      obtain hlt | rfl | hgt := lt_trichotomy m n
      · rw [compare_lt_iff_lt.mpr hlt, compare_lt_iff_lt]
        omega
      · rw [compare_eq_iff_eq.mpr rfl, compare_eq_iff_eq.mpr rfl]
      · rw [compare_gt_iff_gt.mpr hgt, compare_gt_iff_gt]
        omega
    rw [compare_eq_iff_eq.mpr rfl, hsame]
    rfl
  · rw [compare_gt_iff_gt.mpr hgt, compare_gt_iff_gt.mpr (h'.steps_lt h hgt)]
    rfl

theorem Canonical.steps_zero (h : Canonical 0 e) : steps 0 e = 0 := by
  have hleast : e = leastExponent := by_contra fun hne => absurd (h.full hne) (by decide)
  rw [hleast]
  rfl

theorem sign_apply_zero (s : Sign) : s.apply 0 = 0 := by cases s <;> rfl

/-- Mantissas are compared after exponents, and the other way round below zero. -/
theorem Canonical.compare_assembled (h : Canonical m e) (h' : Canonical n f) (s t : Sign) :
    (assembled s m e).compare (assembled t n f) =
      some (compare (s.apply (steps m e)) (t.apply (steps n f))) := by
  have hlt : ∀ {a b : Int}, a < b → some .lt = some (compare a b) :=
    fun hab => congrArg some (compare_lt_iff_lt.mpr hab).symm
  have hgt : ∀ {a b : Int}, b < a → some .gt = some (compare a b) :=
    fun hab => congrArg some (compare_gt_iff_gt.mpr hab).symm
  obtain rfl | hm := m.eq_zero_or_pos
  · rw [h.steps_zero, sign_apply_zero]
    obtain rfl | hn := n.eq_zero_or_pos
    · rw [h'.steps_zero, sign_apply_zero]
      rfl
    · have hpos := h'.steps_pos hn
      simp only [assembled, dif_neg (Nat.lt_irrefl 0), dif_pos hn]
      cases t with
      | negative => exact hgt (Int.neg_neg_of_pos hpos)
      | positive => exact hlt hpos
  · have hpos := h.steps_pos hm
    obtain rfl | hn := n.eq_zero_or_pos
    · rw [h'.steps_zero, sign_apply_zero]
      simp only [assembled, dif_neg (Nat.lt_irrefl 0), dif_pos hm]
      cases s with
      | negative => exact hlt (Int.neg_neg_of_pos hpos)
      | positive => exact hgt hpos
    · have hpos' := h'.steps_pos hn
      simp only [assembled, dif_pos hm, dif_pos hn]
      cases s <;> cases t
      case negative.negative =>
        have hflip : compare (steps n f) (steps m e) = compare (-steps m e) (-steps n f) := by
          simp only [compare, compareOfLessAndEq, Int.neg_lt_neg_iff, Int.neg_inj, eq_comm]
        refine congrArg some ?_
        rw [h.compare_eq h', Int.compare_swap, hflip]
        rfl
      case negative.positive => exact hlt (by simp only [Sign.apply]; omega)
      case positive.negative => exact hgt (by simp only [Sign.apply]; omega)
      case positive.positive => exact congrArg some (h.compare_eq h')

end Magnitude

end Rollup

namespace Float

open Rollup

def place (x : Float) : Int := DoubleBits.place x.toBits

variable {x y : Float}

theorem compare_unpack (hx : x.isFinite) (hy : y.isFinite) :
    x.toModel.unpack.compare y.toModel.unpack = some (compare x.place y.place) := by
  obtain ⟨m, e, hm⟩ := isFinite_iff.mp hx
  obtain ⟨n, f, hn⟩ := isFinite_iff.mp hy
  obtain ⟨hcanonical, hsteps⟩ := Magnitude.canonical_of_finite hm
  obtain ⟨hcanonical', hsteps'⟩ := Magnitude.canonical_of_finite hn
  rw [unpack_magnitude hm, unpack_magnitude hn, hcanonical.compare_assembled hcanonical', place,
    place, DoubleBits.place_eq, DoubleBits.place_eq, ← hsteps, ← hsteps']
  rfl

theorem lt_iff_place (hx : x.isFinite) (hy : y.isFinite) : x < y ↔ x.place < y.place := by
  have hlt : x < y ↔ (x.toModel.unpack.compare y.toModel.unpack == some .lt) = true :=
    decide_eq_true_iff
  rw [hlt, compare_unpack hx hy, ← compare_lt_iff_lt]
  simp

theorem le_iff_place (hx : x.isFinite) (hy : y.isFinite) : x ≤ y ↔ x.place ≤ y.place := by
  have hle : x ≤ y ↔ (x.toModel.unpack.compare y.toModel.unpack).any (·.isLE) = true :=
    decide_eq_true_iff
  rw [hle, compare_unpack hx hy, Option.any_some, Int.isLE_compare]

theorem beq_iff_place (hx : x.isFinite) (hy : y.isFinite) : x == y ↔ x.place = y.place := by
  have hbeq : (x == y) = (x.toModel.unpack.compare y.toModel.unpack == some .eq) := rfl
  rw [hbeq, compare_unpack hx hy, ← compare_eq_iff_eq]
  simp

theorem not_le_iff_lt (hx : x.isFinite) (hy : y.isFinite) : ¬ x ≤ y ↔ y < x := by
  rw [le_iff_place hx hy, lt_iff_place hy hx, not_le]

theorem lt_trans {z : Float} (hx : x.isFinite) (hy : y.isFinite) (hz : z.isFinite) (hxy : x < y)
    (hyz : y < z) : x < z := by
  rw [lt_iff_place hx hy] at hxy
  rw [lt_iff_place hy hz] at hyz
  exact (lt_iff_place hx hz).mpr (hxy.trans hyz)

/-- In the total order of patterns only equal neighbours are out of numeric order. -/
theorem lt_of_orderKey_le (hx : x.isFinite) (hy : y.isFinite)
    (h : DoubleBits.orderKey x.toBits ≤ DoubleBits.orderKey y.toBits) (hne : ¬ x == y) : x < y := by
  have hplace := DoubleBits.place_le_of_rank_le (DoubleBits.orderKey_le_iff.mp h)
  rw [beq_iff_place hx hy] at hne
  exact (lt_iff_place hx hy).mpr (lt_of_le_of_ne hplace hne)

end Float
