import Rollup.Forecast.Predictor

/-! The row of substitutions of a predictor. It grows only with a tick in which the predictor stood
in, any other tick ends it, and a predictor starts over only when its row reaches the limit. -/
namespace Rollup

namespace Predictor

/-- The substitutions in a row once a tick has been observed. -/
def row (p : Predictor) : Nat := if p.substituting then p.substituted else 0

structure Settled (limit : Nat) (p : Predictor) : Prop where
  settled : p.substituting = false
  below : p.valid = true → p.substituted < limit

theorem settled_empty (limit size : Nat) : (empty size).Settled limit :=
  ⟨rfl, fun h => nomatch h⟩

section Substitute

variable {limit : Nat} {p : Predictor}

theorem substitute_eq_none (h : (p.substitute limit).1 = none) : (p.substitute limit).2 = p := by
  unfold substitute at h ⊢
  split at h
  · rename_i hrefused
    rw [if_pos hrefused]
  · cases h

theorem substitute_eq_some {value : Float} (h : (p.substitute limit).1 = some value) :
    p.valid = true ∧ value = p.prediction ∧ (p.substitute limit).2 =
      { p with substituted := p.substituted + 1, substituting := true } := by
  unfold substitute at h ⊢
  split at h
  · cases h
  · rename_i hallowed
    rw [if_neg hallowed]
    simp only [Bool.or_eq_true, Bool.not_eq_eq_eq_not, Bool.not_true, not_or,
      Bool.not_eq_false] at hallowed
    exact ⟨hallowed.1, (Option.some.inj h).symm, rfl⟩

end Substitute

section Observe

variable (p : Predictor)

@[simp] theorem row_push (o : Observation) : (p.push o).row = p.row := by
  unfold push row
  split <;> rfl

@[simp] theorem valid_push (o : Observation) : (p.push o).valid = p.valid := by
  unfold push
  split <;> rfl

@[simp] theorem substituting_endRow : p.endRow.substituting = false := by
  unfold endRow
  split
  · rfl
  · rename_i hnot
    exact eq_false_of_ne_true hnot

@[simp] theorem substituted_endRow : p.endRow.substituted = p.row := by
  unfold endRow row
  split <;> rfl

@[simp] theorem valid_endRow : p.endRow.valid = p.valid := by
  unfold endRow
  split <;> rfl

@[simp] theorem substituting_fill : p.fill.substituting = p.substituting := by
  unfold fill
  split <;> rfl

@[simp] theorem substituted_fill : p.fill.substituted = p.substituted := by
  unfold fill
  split <;> rfl

theorem valid_fill (h : p.valid = true) : p.fill.valid = true := by
  rw [fill, if_pos h, h]

/-- After an observation the row is as long as it was then, unless it has reached the limit. -/
theorem observe_row (time value nextTime : Float) (limit : Nat) :
    let q := (p.observe time value nextTime limit).2
    q.Settled limit ∧ (q.substituted = p.row ∨ (q.substituted = 0 ∧ q.valid = false)) ∧
      (p.valid = true → q.valid = false → limit ≤ p.row) := by
  have hsubstituting : (((p.push ⟨time, value⟩).endRow).fill).substituting = false := by simp
  have hsubstituted : (((p.push ⟨time, value⟩).endRow).fill).substituted = p.row := by simp
  have hvalid : p.valid = true → (((p.push ⟨time, value⟩).endRow).fill).valid = true :=
    fun h => valid_fill _ (by simpa using h)
  unfold observe
  generalize ((p.push ⟨time, value⟩).endRow).fill = r at hsubstituting hsubstituted hvalid
  by_cases hr : r.valid = true
  · simp only [hr, Bool.not_true, Bool.false_eq_true, if_false, learn, resetAfter]
    by_cases hlimit : limit ≤ r.substituted
    · rw [if_pos hlimit]
      exact ⟨⟨hsubstituting, fun h => nomatch h⟩, .inr ⟨rfl, rfl⟩, fun _ _ => hsubstituted ▸ hlimit⟩
    · rw [if_neg hlimit]
      exact ⟨⟨hsubstituting, fun _ => Nat.lt_of_not_le hlimit⟩, .inl hsubstituted,
        fun _ h => nomatch (h : true = false)⟩
  · simp only [hr, Bool.not_false, if_true]
    exact ⟨⟨hsubstituting, fun h => absurd h hr⟩, .inl hsubstituted,
      fun h => absurd (hvalid h) hr⟩

end Observe

end Predictor

end Rollup
