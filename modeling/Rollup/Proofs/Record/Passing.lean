import Rollup.Pass.Stats
import Rollup.Proofs.Store.Evolution
import Rollup.Synthetic

/-! What the halves of a tick, synthetic adders and points do to one record: who it is and whether
it is valid stays, and only a swap takes points off the input side. -/
namespace Rollup

/-- The later state of a record that has been neither removed nor collected. -/
structure Record.Stays (old new : Record) : Prop where
  follows : old.Follows new
  valid : new.valid = old.valid

namespace Record

theorem Stays.refl (r : Record) : r.Stays r := ⟨.refl r, rfl⟩

theorem Stays.trans {r r' r'' : Record} (h : r.Stays r') (h' : r'.Stays r'') : r.Stays r'' :=
  ⟨h.follows.trans h'.follows, h'.valid.trans h.valid⟩

theorem stays_body (r : Record) {body : Body} (hkind : body.kind = r.body.kind) :
    r.Stays { r with body := body } :=
  ⟨⟨rfl, rfl, hkind, fun h => h, fun h => h⟩, rfl⟩

theorem stays_exempt (r : Record) : r.Stays r.exempt :=
  ⟨⟨rfl, rfl, rfl, fun h => h, fun _ => rfl⟩, rfl⟩

theorem stays_update (value : Float) (adjustment : Adjustment) (r : Record) :
    r.Stays (r.update value adjustment) :=
  r.stays_body (Body.kind_update value adjustment r.body)

theorem stays_retarget (layout : Layout) (r : Record) : r.Stays (r.retarget layout) :=
  r.stays_body (Body.kind_retarget layout r.body)

theorem stays_swap (r : Record) : r.Stays r.swap := by
  refine ⟨⟨rfl, rfl, Body.kind_swap r.body, fun h => h, fun h => ?_⟩, rfl⟩
  rw [swap, h]
  rfl

theorem stays_takeAdder (limit : Nat) (r : Record) : r.Stays (r.takeAdder limit) := by
  unfold takeAdder
  simp only
  split
  · rename_i sides predictor hbody
    split
    · exact r.stays_swap
    · exact r.stays_swap.trans (stays_body _ (by rw [hbody]; rfl))
  · exact r.stays_swap

theorem stays_reportAdder (settings : Settings) (nowMs : Nat) (r : Record) :
    r.Stays (r.reportAdder settings nowMs).2 := by
  unfold reportAdder
  simp only
  split
  · rename_i sides predictor hbody
    split <;> exact stays_body _ (by rw [hbody]; rfl)
  · exact .refl r
  · exact .refl r

theorem stays_overwrite (totals : Totals) (r : Record) :
    r.Stays (Synthetic.overwrite totals r) := by
  unfold Synthetic.overwrite
  split
  · rename_i hbody
    exact stays_body _ (by rw [hbody]; rfl)
  · exact .refl r

@[simp] theorem pending_update (value : Float) (adjustment : Adjustment) (r : Record) :
    (r.update value adjustment).pending = r.pending + 1 :=
  Body.pending_update value adjustment r.body

@[simp] theorem pending_takeAdder (limit : Nat) (r : Record) :
    (r.takeAdder limit).pending = 0 := by
  have hswap := Body.pending_swap r.body
  unfold takeAdder
  simp only
  split
  · rename_i sides predictor hbody
    split
    · exact hswap
    · rw [show r.body.swap = .adder sides (some predictor) from hbody] at hswap
      exact hswap
  · exact hswap

@[simp] theorem pending_reportAdder (settings : Settings) (nowMs : Nat) (r : Record) :
    (r.reportAdder settings nowMs).2.pending = r.pending := by
  unfold reportAdder
  simp only
  split
  · rename_i sides predictor hbody
    split <;> simp only [pending, hbody, Body.pending]
  · rfl
  · rfl

@[simp] theorem passGauge_snd (settings : Settings) (r : Record) :
    (r.passGauge settings).2 = r.swap := by
  unfold passGauge
  simp only
  split <;> rfl

@[simp] theorem passHistogram_snd (settings : Settings) (r : Record) :
    (r.passHistogram settings).2 = r.swap := by
  unfold passHistogram
  simp only
  split
  · split <;> rfl
  · rfl

@[simp] theorem passStats_snd (settings : Settings) (r : Record) (w : Sorting.Workspace) :
    (r.passStats settings w).2.2 = r.swap := by
  unfold passStats
  simp only
  split
  · split <;> rfl
  · rfl

end Record

end Rollup
