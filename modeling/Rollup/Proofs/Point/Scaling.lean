import Rollup.Proofs.Number.Quotient
import Rollup.Proofs.Point.Grammar

/-! The values of points. The number in a line is finite, but dividing it by a small sample rate can
take it past the greatest double. -/
namespace Rollup

namespace Point

theorem IsRate.isFinite {text : List Char} {rate : Float} (h : IsRate text rate) :
    rate.isFinite = true :=
  Float.isFinite_of_lt_of_le (by decide +kernel) (by decide +kernel) h.2.1 h.2.2

theorem LastRate.isFinite {more : List (List Char)} {rate : Float} (h : LastRate more rate) :
    rate.isFinite = true ∧ 0.0 < rate := by
  unfold LastRate at h
  split at h
  · rw [h]
    decide +kernel
  · exact ⟨h.isFinite, h.2.1⟩

def Gives (line : List Char) (p : Point) (number rate : Float) : Prop :=
  ∃ path value type digits more, Cut line path (value :: type :: more) ∧
    Signed p.kind value digits p.adjustment ∧ readFloat digits = some number ∧ LastRate more rate

theorem exists_ofLine (line : List Char) (test : Point → Bool)
    (h : (ofLine line).toOption.any test = true) : ∃ p, ofLine line = .ok p ∧ test p = true := by
  cases hline : ofLine line with
  | ok p => exact ⟨p, rfl, by rwa [hline] at h⟩
  | error e =>
    rw [hline] at h
    cases h

/-- The value of a point is finite, unless it is a quotient that is not below the midpoint between
the greatest double and the next power of two. -/
theorem isFinite_value_iff {line : List Char} {p : Point} (h : ofLine line = .ok p) :
    ∃ number rate, Gives line p number rate ∧ number.isFinite = true ∧
      (p.value.isFinite = true ↔
        (p.kind = .adder →
          number.magnitude.value < overflowThreshold * rate.magnitude.value)) := by
  rcases justified_ofLine line with ⟨p', hp, hspells⟩ | ⟨e, he, -⟩
  · cases h.symm.trans hp
    obtain ⟨hcut, -, -, -, hlast, hsigned, hread, hfinite⟩ := hspells
    refine ⟨_, _, ⟨_, _, _, _, _, hcut, hsigned, hread, hlast⟩, hfinite, ?_⟩
    obtain ⟨hrate, hpos⟩ := hlast.isFinite
    split
    · rename_i hadder
      rw [Float.isFinite_div_iff hfinite hrate (Float.value_pos hrate hpos)]
      exact ⟨fun h _ => h, fun h => h hadder⟩
    · rename_i hother
      exact iff_of_true hfinite fun h => absurd h hother
  · cases h.symm.trans he

theorem isFinite_value_iff_tenth :
    ∃ p, ofLine "hits:1e307|c|@0.1".toList = .ok p ∧ ∃ number rate,
      Gives "hits:1e307|c|@0.1".toList p number rate ∧
        number.magnitude.value < overflowThreshold * rate.magnitude.value := by
  obtain ⟨p, hp, htest⟩ := exists_ofLine "hits:1e307|c|@0.1".toList
    (fun p => p.kind == .adder && p.value.isFinite) (by decide +kernel)
  rw [Bool.and_eq_true, beq_iff_eq] at htest
  obtain ⟨number, rate, hgives, -, hfinite⟩ := isFinite_value_iff hp
  exact ⟨p, hp, number, rate, hgives, hfinite.mp htest.2 htest.1⟩

/-- A finite number over a valid rate can be infinite. -/
theorem scaled_infinite :
    ∃ p, ofLine "hits:1e308|c|@0.1".toList = .ok p ∧ p.value.isFinite = false := by
  obtain ⟨p, hp, htest⟩ := exists_ofLine "hits:1e308|c|@0.1".toList
    (fun p => !p.value.isFinite) (by decide +kernel)
  exact ⟨p, hp, by simpa using htest⟩

end Point

end Rollup
