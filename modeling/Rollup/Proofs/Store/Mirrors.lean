import Rollup.Proofs.Synthetic.Evaluation
import Rollup.Proofs.Synthetic.Simulation

/-! Stores with the same records, each in tables of its own. A lookup finds exactly the record of a
path, wherever it is linked, so that no operation can tell such stores apart. -/
namespace Rollup

namespace Store

theorem records_eq {s s' : Store} (h : ∀ k, s'.get? k = s.get? k) : s'.records = s.records :=
  Array.ext_getElem? h

structure Mirrors (s s' : Store) : Prop where
  wellFormed : s.WellFormed
  wellFormed' : s'.WellFormed
  records : s'.records = s.records

namespace Mirrors

variable {s s' : Store}

theorem get? (h : s.Mirrors s') (k : Handle) : s'.get? k = s.get? k := by
  unfold Store.get?
  rw [h.records]

theorem holds_iff (h : s.Mirrors s') {kind : Kind} {path : String} {k : Handle} :
    s'.Holds kind path k ↔ s.Holds kind path k := by
  unfold Holds
  rw [h.get?]

theorem locate (h : s.Mirrors s') (kind : Kind) (path : String) :
    s'.locate kind path = s.locate kind path := by
  ext k
  rw [h.wellFormed.locate_eq_some_iff, h.wellFormed'.locate_eq_some_iff, h.holds_iff]

theorem revises {t t' : Store} {f f' : Handle → Record → Record} (h : s.Mirrors s')
    (ht : s.Revises t f) (ht' : s'.Revises t' f')
    (hf : ∀ k r, s.get? k = some r → f' k r = f k r) : t.Mirrors t' where
  wellFormed := ht.wellFormed h.wellFormed
  wellFormed' := ht'.wellFormed h.wellFormed'
  records := records_eq fun k => by
    rw [ht.get, ht'.get, h.get?]
    cases hr : s.get? k with
    | none => rfl
    | some r => rw [Option.map_some, Option.map_some, hf k r hr]

theorem modify (h : s.Mirrors s') (k : Handle) {f : Record → Record}
    (hf : ∀ r, Record.Follows r (f r)) : (s.modify k f).Mirrors (s'.modify k f) :=
  h.revises (s.revises_modify k f fun r _ => hf r) (s'.revises_modify k f fun r _ => hf r)
    fun _ _ _ => rfl

theorem insert (h : s.Mirrors s') {r : Record} (hr : s.Fresh r) :
    (s.insert r).1 = (s'.insert r).1 ∧ (s.insert r).2.Mirrors (s'.insert r).2 := by
  have hr' : s'.Fresh r := ⟨hr.valid, hr.hash, fun k hk => hr.absent k (h.holds_iff.mp hk)⟩
  have hsize : s'.records.size = s.records.size := congrArg Array.size h.records
  refine ⟨hsize.symm, hr.wellFormed h.wellFormed, hr'.wellFormed h.wellFormed', ?_⟩
  exact congrArg (·.push r) h.records

end Mirrors

end Store

namespace Synthetic

theorem indistinct_mirrors : Indistinct Store.Mirrors where
  locate h path := h.locate .adder path
  totals h := by
    funext k
    unfold totalsOf
    rw [h.get?]
  exempt h k := h.modify k fun r => r.stays_exempt.follows
  overwrite h k totals := h.modify k fun r => (r.stays_overwrite totals).follows

end Synthetic

end Rollup
