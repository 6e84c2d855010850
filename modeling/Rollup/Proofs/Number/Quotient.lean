import Rollup.Proofs.Number.Comparison

/-! When a quotient of doubles is finite. The exact quotient is cut off to a mantissa with what its
last bits say about the rest, and rounded to the nearest double, which is one if the quotient is
below the midpoint between the greatest double and the next power of two. -/
namespace Rollup

open Float.Model UnpackedFloat

def Magnitude.value : Magnitude → ℚ
  | .finite m e => m * 2 ^ e
  | _ => 0

/-- The midpoint between the greatest double and the next power of two. -/
def overflowThreshold : ℚ := (2 ^ 54 - 1) * 2 ^ 970

/-- A mantissa with residual bits stands for a number: the first bit for a half, the second for
what is below that. -/
def Describes (em : ExtendedMantissa) (x : ℚ) : Prop :=
  ∃ rest : ℚ, 0 ≤ rest ∧ rest < 1 / 2 ∧ (em.stickyBit = true ↔ 0 < rest) ∧
    x = em.mantissa + (if em.roundBit then 1 / 2 else 0) + rest

namespace Describes

variable {em : ExtendedMantissa} {x : ℚ}

theorem shiftRightOne (h : Describes em x) : Describes em.shiftRightOne (x / 2) := by
  obtain ⟨rest, hnonneg, hhalf, hsticky, rfl⟩ := h
  have hmantissa : (em.mantissa : ℚ) = 2 * (em.mantissa / 2 : Nat) + (em.mantissa % 2 : Nat) := by
    exact_mod_cast (Nat.div_add_mod em.mantissa 2).symm
  refine ⟨(if em.roundBit then 1 / 4 else 0) + rest / 2, ?_, ?_, ?_, ?_⟩
  · split <;> linarith
  · split <;> linarith
  · cases hround : em.roundBit with
    | true => simpa [ExtendedMantissa.shiftRightOne, hround] using by positivity
    | false => simp [ExtendedMantissa.shiftRightOne, hround, hsticky]
  · rcases Nat.mod_two_eq_zero_or_one em.mantissa with hbit | hbit <;>
      simp only [ExtendedMantissa.shiftRightOne, hbit, hmantissa] <;> split <;> norm_num <;> ring

theorem shiftRight (h : Describes em x) (n : Nat) : Describes (em >>> n) (x / 2 ^ n) := by
  change Describes (n.repeat ExtendedMantissa.shiftRightOne em) _
  induction n with
  | zero => simpa [Nat.repeat] using h
  | succ n ih =>
    rw [pow_succ, ← div_div]
    exact ih.shiftRightOne

theorem mantissa_le (h : Describes em x) : (em.mantissa : ℚ) ≤ x := by
  obtain ⟨rest, hnonneg, -, -, rfl⟩ := h
  split <;> linarith

theorem lt_mantissa (h : Describes em x) : x < em.mantissa + 1 := by
  obtain ⟨rest, -, hhalf, -, rfl⟩ := h
  split <;> linarith

/-- A half is rounded to an even mantissa, so that an even bound is reached from half below it. -/
theorem le_roundedMantissa_iff (h : Describes em x) (bound : Nat) (heven : bound % 2 = 0) :
    bound ≤ em.roundedMantissa ↔ (bound : ℚ) - 1 / 2 ≤ x := by
  obtain ⟨rest, hnonneg, hhalf, hsticky, rfl⟩ := h
  obtain ⟨m, round, sticky⟩ := em
  cases round with
  | false =>
    have hrounded : ExtendedMantissa.roundedMantissa ⟨m, false, sticky⟩ = m := by
      cases sticky <;> rfl
    rw [hrounded]
    refine ⟨fun hle => ?_, fun hle => ?_⟩
    · have : (bound : ℚ) ≤ m := by exact_mod_cast hle
      simp only [Bool.false_eq_true, if_false]
      linarith
    · by_contra hlt
      have : (m : ℚ) + 1 ≤ bound := by exact_mod_cast Nat.lt_of_not_le hlt
      simp only [Bool.false_eq_true, if_false] at hle
      linarith
  | true =>
    cases sticky with
    | false =>
      have hrest : rest = 0 := le_antisymm (not_lt.mp fun h => nomatch hsticky.mpr h) hnonneg
      simp only [hrest, if_true]
      change bound ≤ m + m % 2 ↔ _
      refine ⟨fun hle => ?_, fun hle => ?_⟩
      · have : (bound : ℚ) ≤ m + 1 := by exact_mod_cast (show bound ≤ m + 1 by omega)
        linarith
      · have : bound ≤ m + 1 := by exact_mod_cast (show (bound : ℚ) ≤ m + 1 by linarith)
        omega
    | true =>
      simp only [if_true]
      change bound ≤ m + 1 ↔ _
      refine ⟨fun hle => ?_, fun hle => ?_⟩
      · have : (bound : ℚ) ≤ m + 1 := by exact_mod_cast hle
        linarith
      · by_contra hlt
        have : (m : ℚ) + 1 + 1 ≤ bound := by exact_mod_cast Nat.lt_of_not_le hlt
        linarith

end Describes

theorem le_roundedMantissa (em : ExtendedMantissa) : em.mantissa ≤ em.roundedMantissa := by
  obtain ⟨m, round, sticky⟩ := em
  cases round <;> cases sticky <;>
    simp [ExtendedMantissa.roundedMantissa, ExtendedMantissa.accuracy, Accuracy.roundToNearestEven]

theorem roundedMantissa_le (em : ExtendedMantissa) : em.roundedMantissa ≤ em.mantissa + 1 := by
  obtain ⟨m, round, sticky⟩ := em
  cases round <;> cases sticky <;>
    simp [ExtendedMantissa.roundedMantissa, ExtendedMantissa.accuracy, Accuracy.roundToNearestEven]
  omega

theorem mantissa_ofMantissaAndAccuracy (m : Nat) (accuracy : Accuracy) :
    (ExtendedMantissa.ofMantissaAndAccuracy m accuracy).mantissa = m := by
  unfold ExtendedMantissa.ofMantissaAndAccuracy
  split <;> rfl

theorem describes_fraction (q : Nat) {r d : Nat} (h : r < d) :
    Describes (.ofMantissaAndAccuracy q (accuracyOfFraction r d)) (q + r / d : ℚ) := by
  have hd : (0 : ℚ) < d := by exact_mod_cast Nat.zero_lt_of_lt h
  unfold accuracyOfFraction
  split_ifs with hzero
  · exact ⟨0, le_refl _, by norm_num, iff_of_false nofun (lt_irrefl _),
      by simp [hzero, ExtendedMantissa.ofMantissaAndAccuracy]⟩
  have hr : (0 : ℚ) < r / d := div_pos (by exact_mod_cast Nat.pos_of_ne_zero hzero) hd
  obtain hbelow | heq | habove := lt_trichotomy (2 * r) d
  · rw [compare_lt_iff_lt.mpr hbelow]
    have hhalf : (r / d : ℚ) < 1 / 2 := by
      rw [div_lt_div_iff₀ hd two_pos]
      exact_mod_cast (by omega : r * 2 < 1 * d)
    exact ⟨r / d, hr.le, hhalf, iff_of_true rfl hr,
      by simp [ExtendedMantissa.ofMantissaAndAccuracy]⟩
  · rw [compare_eq_iff_eq.mpr heq]
    have hhalf : (r / d : ℚ) = 1 / 2 := by
      rw [div_eq_div_iff hd.ne' two_ne_zero]
      exact_mod_cast (by omega : r * 2 = 1 * d)
    exact ⟨0, le_refl _, by norm_num, iff_of_false nofun (lt_irrefl _),
      by simp [hhalf, ExtendedMantissa.ofMantissaAndAccuracy]⟩
  · rw [compare_gt_iff_gt.mpr habove]
    have hhalf : (1 / 2 : ℚ) < r / d := by
      rw [div_lt_div_iff₀ two_pos hd]
      exact_mod_cast (by omega : 1 * d < r * 2)
    have hone : (r / d : ℚ) < 1 := (div_lt_one hd).mpr (by exact_mod_cast h)
    exact ⟨r / d - 1 / 2, by linarith, by linarith, iff_of_true rfl (by linarith),
      by simp [ExtendedMantissa.ofMantissaAndAccuracy]⟩

theorem describes_div (m : Nat) {d : Nat} (hd : 0 < d) :
    Describes (.ofMantissaAndAccuracy (m / d) (accuracyOfFraction (m % d) d)) (m / d : ℚ) := by
  have hparts : (m / d : ℚ) = (m / d : Nat) + (m % d : Nat) / d := by
    have : (m : ℚ) = d * (m / d : Nat) + (m % d : Nat) := by
      exact_mod_cast (Nat.div_add_mod m d).symm
    field_simp
    linarith
  rw [hparts]
  exact describes_fraction _ (Nat.mod_lt m hd)

theorem isFinite_pack_zero (s : Sign) : (Float.ofModel (Float.Model.pack (.zero s))).isFinite := by
  cases s <;> decide

theorem shiftToTargetExponent_eq (m : Nat) (e : Int) (accuracy : Accuracy) {n : Nat}
    (hn : (max (m.log2 + 1 + e - 53) (-1074) - e).toNat = n) :
    shiftToTargetExponent .binary64 m e accuracy =
      (ExtendedMantissa.ofMantissaAndAccuracy m accuracy >>> n, e + n) := by
  subst hn
  rfl

/-- Rounding can make a mantissa one bit too long. -/
theorem isFinite_shifted_iff (s : Sign) {m : Nat} (hm : m ≤ 2 ^ 53) {e : Int}
    (he : Magnitude.leastExponent ≤ e) (hzero : m = 0 → e = Magnitude.leastExponent) :
    (Float.ofModel (Float.Model.pack
      (let (em, e') := shiftToTargetExponent .binary64 m e .exact
       if h : em.mantissa = 0 then .zero s
       else .finite s em.mantissa e' (Nat.pos_of_ne_zero h)))).isFinite ↔
      e ≤ 971 ∧ (m = 2 ^ 53 → e ≤ 970) := by
  have hleast : -1074 ≤ e := he
  rcases Nat.lt_or_eq_of_le hm with hlt | rfl
  · have hlog : m.log2 < 53 := by
      rcases Nat.eq_zero_or_pos m with rfl | hpos
      · decide
      · exact (Nat.log2_lt hpos.ne').mpr hlt
    have hsame : ExtendedMantissa.ofMantissaAndAccuracy m .exact >>> 0 = ⟨m, false, false⟩ := rfl
    have hshift := shiftToTargetExponent_eq m e .exact (n := 0) (by omega)
    rw [hsame, Int.natCast_zero, Int.add_zero] at hshift
    simp only [hshift]
    split
    · rename_i hnone
      refine iff_of_true (isFinite_pack_zero s) ⟨?_, fun heq => absurd heq hlt.ne⟩
      rw [hzero hnone]
      decide
    · rw [isFinite_pack_iff s _ he]
      exact ⟨fun h => ⟨h, fun heq => absurd heq hlt.ne⟩, And.left⟩
  · have hlog : (2 ^ 53).log2 = 53 := Nat.log2_two_pow
    have hhalf : ExtendedMantissa.ofMantissaAndAccuracy (2 ^ 53) .exact >>> 1 =
        ⟨2 ^ 52, false, false⟩ := rfl
    have hshift := shiftToTargetExponent_eq (2 ^ 53) e .exact (n := 1) (by omega)
    rw [hhalf] at hshift
    simp only [hshift]
    rw [dif_neg (by decide), isFinite_pack_iff s _ (he.trans (by omega))]
    exact ⟨fun h => ⟨by omega, fun _ => by omega⟩, fun h => by have := h.2 trivial; omega⟩

/-- With an exponent up to 970 every mantissa stays below the threshold, and from 972 on no full one
does. -/
theorem lt_overflowThreshold_iff {y : ℚ} {e : Int} (hfits : y < 2 ^ 53)
    (hfull : e = Magnitude.leastExponent ∨ 2 ^ 52 ≤ y) :
    y * 2 ^ e < overflowThreshold ↔ e ≤ 971 ∧ ((2 ^ 53 : ℚ) - 1 / 2 ≤ y → e ≤ 970) := by
  have hpos : (0 : ℚ) < 2 ^ e := zpow_pos two_pos e
  have hunit : (0 : ℚ) < 2 ^ 970 := pow_pos two_pos 970
  unfold overflowThreshold
  obtain hless | rfl | hmore : e ≤ 970 ∨ e = 971 ∨ 972 ≤ e := by omega
  · refine iff_of_true ?_ ⟨by omega, fun _ => hless⟩
    have hpower : (2 : ℚ) ^ e ≤ 2 ^ 970 := zpow_le_zpow_right₀ one_le_two hless
    calc y * 2 ^ e < 2 ^ 53 * 2 ^ e := mul_lt_mul_of_pos_right hfits hpos
      _ ≤ 2 ^ 53 * 2 ^ 970 := mul_le_mul_of_nonneg_left hpower (by norm_num)
      _ < (2 ^ 54 - 1) * 2 ^ 970 := mul_lt_mul_of_pos_right (by norm_num) hunit
  · have hpower : (2 : ℚ) ^ (971 : Int) = 2 * 2 ^ 970 := zpow_one_add₀ two_ne_zero 970
    have hmidpoint : y * (2 * 2 ^ 970) < (2 ^ 54 - 1) * 2 ^ 970 ↔ y < 2 ^ 53 - 1 / 2 := by
      rw [← mul_assoc, mul_lt_mul_iff_left₀ hunit]
      constructor <;> intro h <;> linarith
    rw [hpower, hmidpoint, ← not_le]
    exact ⟨fun h => ⟨le_refl _, fun h' => absurd h' h⟩, fun h h' => absurd (h.2 h') (by decide)⟩
  · refine iff_of_false (not_lt.mpr ?_) fun h => absurd h.1 (by omega)
    have hlarge : (2 : ℚ) ^ 52 ≤ y :=
      hfull.resolve_left (by simp only [Magnitude.leastExponent]; omega)
    have hpower : (2 : ℚ) ^ (972 : Int) ≤ 2 ^ e := zpow_le_zpow_right₀ one_le_two hmore
    have hunits : (2 : ℚ) ^ (972 : Int) = 4 * 2 ^ 970 := by
      rw [show (972 : Int) = 2 + (970 : Nat) from rfl, zpow_add₀ two_ne_zero]
      norm_num
    rw [hunits] at hpower
    generalize (2 : ℚ) ^ 970 = unit at hunit hpower ⊢
    calc (2 ^ 54 - 1) * unit ≤ 2 ^ 52 * (4 * unit) := by linarith
      _ ≤ y * 2 ^ e := mul_le_mul hlarge hpower (by linarith) (by linarith)

section Cut

variable {q n : Nat} {x : ℚ}

theorem shifted_lt (hx : x < q + 1) (hlong : q.log2 + 1 ≤ 53 + n) : x / 2 ^ n < 2 ^ 53 := by
  have hq : q + 1 ≤ 2 ^ (53 + n) :=
    (Nat.lt_log2_self (n := q)).trans_le (Nat.pow_le_pow_right two_pos hlong)
  rw [div_lt_iff₀ (by positivity), ← pow_add]
  exact hx.trans_le (by exact_mod_cast hq)

theorem le_shifted (hx : q ≤ x) (hlong : q.log2 = 52 + n) : 2 ^ 52 ≤ x / 2 ^ n := by
  have hne : q ≠ 0 := fun hzero => by
    rw [hzero, Nat.log2_zero] at hlong
    omega
  have hq : 2 ^ (52 + n) ≤ q := hlong ▸ Nat.log2_self_le hne
  rw [le_div_iff₀ (by positivity), ← pow_add]
  exact (by exact_mod_cast hq : (2 : ℚ) ^ (52 + n) ≤ q).trans hx

theorem isFinite_roundWithAccuracy_iff (s : Sign) {t : Int} {accuracy : Accuracy}
    (h : Describes (.ofMantissaAndAccuracy q accuracy) x)
    (hbits : t ≤ max (q.log2 + 1 + t - 53) Magnitude.leastExponent) :
    (Float.ofModel (Float.Model.pack (roundWithAccuracy .binary64 s q t accuracy))).isFinite ↔
      x * 2 ^ t < overflowThreshold := by
  have hfloor : (q : ℚ) ≤ x := mantissa_ofMantissaAndAccuracy q accuracy ▸ h.mantissa_le
  have hceiling : x < q + 1 := mantissa_ofMantissaAndAccuracy q accuracy ▸ h.lt_mantissa
  obtain ⟨n, hn⟩ : ∃ n : Nat, max (q.log2 + 1 + t - 53) (-1074) - t = n :=
    Int.eq_ofNat_of_zero_le (sub_nonneg.mpr hbits)
  have hshift := shiftToTargetExponent_eq q t accuracy (n := n) (by omega)
  have hcut := h.shiftRight n
  have hexponent : x * 2 ^ t = x / 2 ^ n * 2 ^ (t + n) := by
    rw [zpow_add₀ two_ne_zero, zpow_natCast]
    field_simp
  have hleast : Magnitude.leastExponent ≤ t + n := by simp only [Magnitude.leastExponent]; omega
  have hfits : x / 2 ^ n < 2 ^ 53 := shifted_lt hceiling (by omega)
  -- only what lies below all normal doubles is left with fewer bits
  have hfull : t + n = Magnitude.leastExponent ∨ 2 ^ 52 ≤ x / 2 ^ n := by
    rcases eq_or_lt_of_le hleast with heq | hlt
    · exact .inl heq.symm
    · simp only [Magnitude.leastExponent] at hlt
      exact .inr (le_shifted hfloor (by omega))
  rw [hexponent, lt_overflowThreshold_iff hfits hfull]
  generalize ExtendedMantissa.ofMantissaAndAccuracy q accuracy >>> n = em at hshift hcut
  have hlong : em.roundedMantissa ≤ 2 ^ 53 := by
    have : em.mantissa < 2 ^ 53 := by exact_mod_cast hcut.mantissa_le.trans_lt hfits
    exact (roundedMantissa_le em).trans this
  have hreached : em.roundedMantissa = 2 ^ 53 ↔ (2 ^ 53 : ℚ) - 1 / 2 ≤ x / 2 ^ n := by
    have hbound := hcut.le_roundedMantissa_iff (2 ^ 53) (by norm_num)
    rw [Nat.cast_pow, Nat.cast_ofNat] at hbound
    exact ⟨fun heq => hbound.mp heq.ge, fun hle => le_antisymm hlong (hbound.mpr hle)⟩
  rw [← hreached, roundWithAccuracy]
  simp only [hshift]
  refine isFinite_shifted_iff s hlong hleast fun hzero => hfull.resolve_right fun hle => ?_
  have hone := hcut.lt_mantissa
  rw [Nat.le_zero.mp (hzero ▸ le_roundedMantissa em : em.mantissa ≤ 0)] at hone
  norm_num at hone hle
  linarith

end Cut

section Quotient

variable {m₁ m₂ : Nat} {e₁ e₂ : Int}

/-- A dividend is shifted until the quotient has as many bits as a mantissa, or reaches down to the
least exponent. -/
theorem le_target_of_shifted (h₁ : 0 < m₁) (h₂ : 0 < m₂) {t : Int} {n : Nat}
    (hshift : e₁ - e₂ - t = n)
    (ht : t ≤ max (totalExponent m₁ e₁ - totalExponent m₂ e₂ - 53) Magnitude.leastExponent) :
    t ≤ max (((m₁ <<< n / m₂).log2 : Int) + 1 + t - 53) Magnitude.leastExponent := by
  rcases le_max_iff.mp ht with hlong | hleast
  · refine le_max_of_le_left ?_
    simp only [totalExponent] at hlong
    have hdivisor : m₂ < 2 ^ (m₂.log2 + 1) := Nat.lt_log2_self
    have hdividend : 2 ^ m₁.log2 ≤ m₁ := Nat.log2_self_le h₁.ne'
    have hquotient : 2 ^ 52 ≤ m₁ <<< n / m₂ := by
      rw [Nat.le_div_iff_mul_le h₂, Nat.shiftLeft_eq]
      calc 2 ^ 52 * m₂ ≤ 2 ^ 52 * 2 ^ (m₂.log2 + 1) := Nat.mul_le_mul_left _ hdivisor.le
        _ = 2 ^ (52 + (m₂.log2 + 1)) := (pow_add ..).symm
        _ ≤ 2 ^ (m₁.log2 + n) := Nat.pow_le_pow_right two_pos (by omega)
        _ = 2 ^ m₁.log2 * 2 ^ n := pow_add ..
        _ ≤ m₁ * 2 ^ n := Nat.mul_le_mul_right _ hdividend
    have hlog := (Nat.le_log2 (by omega : m₁ <<< n / m₂ ≠ 0)).mpr hquotient
    omega
  · exact le_max_of_le_right hleast

theorem isFinite_div_finite_iff (s₁ s₂ : Sign) (h₁ : 0 < m₁) (h₂ : 0 < m₂) :
    (Float.ofModel (Float.Model.pack
      (UnpackedFloat.div .binary64 (.finite s₁ m₁ e₁ h₁) (.finite s₂ m₂ e₂ h₂)))).isFinite ↔
      (m₁ * 2 ^ e₁ : ℚ) < overflowThreshold * (m₂ * 2 ^ e₂) := by
  have hpos : (0 : ℚ) < m₂ := by exact_mod_cast h₂
  simp only [UnpackedFloat.div, divCore]
  generalize ht : min (e₁ - e₂) (Format.binary64.targetExponent
    (totalExponent m₁ e₁ - totalExponent m₂ e₂)) = t
  obtain ⟨n, hn⟩ : ∃ n : Nat, e₁ - e₂ - t = n :=
    Int.eq_ofNat_of_zero_le (sub_nonneg.mpr (ht ▸ min_le_left _ _))
  have hbits := le_target_of_shifted h₁ h₂ hn (ht ▸ min_le_right _ _)
  rw [hn, Int.toNat_natCast, isFinite_roundWithAccuracy_iff _ (describes_div _ h₂) hbits]
  have hvalue : ((m₁ <<< n : Nat) / m₂ : ℚ) * 2 ^ t = m₁ * 2 ^ e₁ / (m₂ * 2 ^ e₂) := by
    have hexponent : e₁ = n + t + e₂ := by omega
    rw [Nat.shiftLeft_eq, hexponent, zpow_add₀ two_ne_zero, zpow_add₀ two_ne_zero, zpow_natCast]
    push_cast
    field_simp
  rw [hvalue, div_lt_iff₀ (by positivity)]

end Quotient

end Rollup

namespace Float

open Rollup Float.Model UnpackedFloat

variable {x y : Float}

theorem isFinite_of_lt_of_le {a b : Float} (ha : a.isFinite) (hb : b.isFinite) (hax : a < x)
    (hxb : x ≤ b) : x.isFinite := by
  have hlt : (a.toModel.unpack.compare x.toModel.unpack == some .lt) = true :=
    decide_eq_true_iff.mp hax
  have hle : (x.toModel.unpack.compare b.toModel.unpack).any (·.isLE) = true :=
    decide_eq_true_iff.mp hxb
  change x.toModel.unpack.isFinite = true
  replace ha : a.toModel.unpack.isFinite = true := ha
  replace hb : b.toModel.unpack.isFinite = true := hb
  generalize a.toModel.unpack = a at *
  generalize b.toModel.unpack = b at *
  generalize x.toModel.unpack = x at *
  cases x with
  | notANumber => cases b <;> cases hle
  | infinity s =>
    cases s with
    | negative =>
      cases a with
      | notANumber | infinity => cases ha
      | zero | finite => cases hlt
    | positive =>
      cases b with
      | notANumber | infinity => cases hb
      | zero | finite => cases hle
  | zero s => rfl
  | finite s m e h => rfl

theorem isFinite_div_iff (hx : x.isFinite) (hy : y.isFinite) (hne : 0 < y.magnitude.value) :
    (x / y).isFinite ↔ x.magnitude.value < overflowThreshold * y.magnitude.value := by
  obtain ⟨m₁, e₁, h₁⟩ := isFinite_iff.mp hx
  obtain ⟨m₂, e₂, h₂⟩ := isFinite_iff.mp hy
  rw [h₂] at hne
  have h₂pos : 0 < m₂ := Nat.pos_of_ne_zero fun hzero => by
    simp [hzero, Magnitude.value] at hne
  change (Float.ofModel (Float.Model.pack
    (UnpackedFloat.div .binary64 x.toModel.unpack y.toModel.unpack))).isFinite ↔ _
  rw [unpack_magnitude h₁, unpack_magnitude h₂, h₁, h₂, assembled, assembled, dif_pos h₂pos]
  split
  · exact isFinite_div_finite_iff _ _ _ _
  · rename_i hzero
    have hthreshold : 0 < overflowThreshold := by norm_num [overflowThreshold]
    refine iff_of_true ?_ ?_
    · exact isFinite_pack_zero _
    · rw [Nat.eq_zero_of_not_pos hzero]
      simpa [Magnitude.value] using mul_pos hthreshold hne

theorem value_pos (hx : x.isFinite) (hpos : 0.0 < x) : 0 < x.magnitude.value := by
  obtain ⟨m, e, h⟩ := isFinite_iff.mp hx
  obtain ⟨hcanonical, hsteps⟩ := Magnitude.canonical_of_finite h
  have hplace : (0.0 : Float).place < x.place := (lt_iff_place (by decide +kernel) hx).mp hpos
  rw [h, Magnitude.value]
  refine mul_pos ?_ (zpow_pos two_pos e)
  rw [Nat.cast_pos]
  refine Nat.pos_of_ne_zero fun hzero => ?_
  subst hzero
  have horigin : x.place = 0 := by
    rw [place, DoubleBits.place_eq, ← hsteps]
    change (DoubleBits.sign x.toBits).apply (Magnitude.steps 0 e) = 0
    rw [hcanonical.steps_zero, Magnitude.sign_apply_zero]
  rw [horigin, show (0.0 : Float).place = 0 by decide +kernel] at hplace
  exact absurd hplace (lt_irrefl 0)

end Float
