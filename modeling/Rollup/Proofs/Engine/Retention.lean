import Rollup.Proofs.Engine.Steps

/-! What a worker holds between the two halves of its tick. Points that come in, other workers and
collection leave the totals of its shard alone; only the synthetic adders may give some of its
records other totals. -/
namespace Rollup

namespace Engine

open Synthetic (totalsOf)

def holds (e : Engine) (id : Nat) (h : Handle) : Bool := (e.store.get? h).any (e.visits .adder id)

structure Retains (id : Nat) (e e' : Engine) : Prop where
  evolves : e.store.Evolves e'.store
  holds : ∀ h r, e.store.get? h = some r → e'.holds id h = true → e.visits .adder id r = true
  totals : ∀ h, e'.holds id h = true → totalsOf e'.store h = totalsOf e.store h

section Retains

variable {e e' e'' : Engine} {id : Nat}

theorem Retains.refl (id : Nat) (e : Engine) : Retains id e e where
  evolves := .refl e.store
  holds h r hr hholds := by rwa [Engine.holds, hr, Option.any_some] at hholds
  totals _ _ := rfl

theorem Retains.trans (h : Retains id e e') (h' : Retains id e' e'') : Retains id e e'' where
  evolves := h.evolves.trans h'.evolves
  holds k r hr hholds := by
    obtain ⟨r', hr', -⟩ := h.evolves k r hr
    refine h.holds k r hr ?_
    rw [Engine.holds, hr', Option.any_some]
    exact h'.holds k r' hr' hholds
  totals k hholds := by
    rw [h'.totals k hholds]
    cases hr' : e'.store.get? k with
    | some r' =>
      refine h.totals k ?_
      rw [Engine.holds, hr', Option.any_some]
      exact h'.holds k r' hr' hholds
    | none =>
      -- A record that came later holds nothing.
      have hnone : e.store.get? k = none := by
        cases hr : e.store.get? k with
        | none => rfl
        | some r =>
          obtain ⟨r', hr'', -⟩ := h.evolves k r hr
          rw [hr'] at hr''
          cases hr''
      rw [Synthetic.totalsOf_none hr', Synthetic.totalsOf_none hnone]

theorem visits_before (hsize : (e'.store.table .adder).size = (e.store.table .adder).size)
    (hcrew : e'.crew .adder = e.crew .adder) {r r' : Record} (hfollows : r.Follows r')
    (hvisits : e'.visits .adder id r' = true) : e.visits .adder id r = true := by
  simp only [visits, Record.inShard, hsize, hcrew, hfollows.kind, hfollows.hash, Bool.and_eq_true,
    beq_iff_eq] at hvisits ⊢
  exact ⟨hvisits.1, ⟨hfollows.valid hvisits.2.1.1, hvisits.2.1.2⟩, hvisits.2.2⟩

theorem retains_of_revises (hleads : e.Leads e') {f : Handle → Record → Record}
    (hstore : e.store.Revises e'.store f)
    (hf : ∀ h r, e.store.get? h = some r → e.visits .adder id r = true →
      (f h r).totals = r.totals) : Retains id e e' := by
  have hvisits : ∀ h r, e.store.get? h = some r → e'.holds id h = true →
      e.visits .adder id r = true := by
    intro h r hr hholds
    rw [Engine.holds, hstore.get, hr, Option.map_some, Option.any_some] at hholds
    exact visits_before (hstore.size .adder) (hleads.crew .adder) (hstore.follows h r hr) hholds
  refine ⟨hstore.evolves, hvisits, fun h hholds => ?_⟩
  cases hr : e.store.get? h with
  | none => rw [Engine.holds, hstore.get, hr] at hholds; cases hholds
  | some r =>
    rw [Synthetic.totalsOf_eq (by rw [hstore.get, hr, Option.map_some]), Synthetic.totalsOf_eq hr]
    exact hf h r hr (hvisits h r hr hholds)

theorem retains_of_store (hleads : e.Leads e') (hstore : e'.store = e.store) : Retains id e e' :=
  retains_of_revises hleads (hstore ▸ .refl e.store) fun _ _ _ _ => rfl

end Retains

section Ingest

variable {e : Engine} (he : e.WellFormed) (id : Nat)

include he

theorem retains_insert {kind : Kind} {path : String} (habsent : e.store.locate kind path = none)
    (layout : Layout) : Retains id e (e.insert kind path layout).2 := by
  have hmoves := moves_insert he habsent layout
  refine ⟨hmoves.evolves, fun h r hr hholds => ?_, fun h _ => ?_⟩
  · obtain ⟨r', hr', hfollows⟩ := hmoves.evolves h r hr
    rw [Engine.holds, hr', Option.any_some] at hholds
    exact visits_before (e.size_insert kind path layout .adder) (hmoves.crew .adder) hfollows hholds
  · have hget := e.get?_insert kind path layout h
    by_cases hnew : h = e.store.records.size
    · rw [if_pos hnew] at hget
      rw [Synthetic.totalsOf_eq hget,
        Synthetic.totalsOf_none (Store.get?_eq_none (Nat.le_of_eq hnew.symm))]
      cases kind <;> rfl
    · rw [if_neg hnew] at hget
      rw [totalsOf, hget, totalsOf]

theorem retains_accept (p : Point) : Retains id e (e.accept p) := by
  have hcreate := moves_getOrCreate he p.kind p.path
  have hfirst : Retains id e (e.getOrCreate p.kind p.path).2 := by
    unfold getOrCreate
    cases habsent : e.store.locate p.kind p.path with
    | some h => exact .refl id e
    | none => exact retains_insert he id habsent _
  have hupdate := moves_modifyRecord hcreate.wellFormed (e.getOrCreate p.kind p.path).1
    fun r => r.stays_update p.value p.adjustment
  refine hfirst.trans (retains_of_revises hupdate.toLeads (Store.revises_modify _ _ _ fun r _ =>
    (r.stays_update p.value p.adjustment).follows) fun h r _ _ => ?_)
  rw [apply_ite Record.totals, Record.totals_update, ite_self]

theorem retains_ingestLine (counts : LineCounts) (line : Except LineError Point) :
    Retains id e (ingestLine (counts, e) line).2 := by
  simp only [ingestLine]
  split
  · exact retains_accept he id _
  · exact retains_of_store (moves_measure he _).toLeads rfl
  · exact .refl id e

theorem retains_ingestText (text : List Char) : Retains id e (e.ingestText text).2 := by
  have hlines : ∀ (lines : List (Except LineError Point)) (counts : LineCounts) (e' : Engine),
      e'.WellFormed → e'.Leads (lines.foldl ingestLine (counts, e')).2 ∧
        Retains id e' (lines.foldl ingestLine (counts, e')).2 := by
    intro lines
    induction lines with
    | nil => exact fun _ e' he' => ⟨.refl he', .refl id e'⟩
    | cons line rest ih =>
      intro counts e' he'
      have hfirst := moves_ingestLine he' counts line
      obtain ⟨hleads, hretains⟩ := ih _ _ hfirst.wellFormed
      exact ⟨hfirst.toLeads.trans hleads, (retains_ingestLine he' id counts line).trans hretains⟩
  obtain ⟨hleads, hretains⟩ := hlines (Point.ofText text) {} e he
  exact hretains.trans
    (retains_of_store (moves_measureAll hleads.wellFormed _).toLeads (store_measureAll _ _))

end Ingest

/-- A worker keeps its totals through all steps but a computation and its own next swap. -/
theorem retains_step {e : Engine} (he : e.WellFormed) (id : Nat) (step : Step)
    (hcompute : ∀ took, step ≠ .compute took) (htake : ∀ nowMs, step ≠ .take nowMs id) :
    Retains id e (e.step step) := by
  have hmoves := moves_step he step
  cases step with
  | point p =>
    simp only [Engine.step, ingest]
    split
    · exact .refl id e
    · exact retains_accept he id p
  | text text => exact retains_ingestText he id text
  | take nowMs other =>
    have hstore := revises_takeShard nowMs other he
    refine retains_of_revises hmoves.toLeads hstore fun h r _ hvisits => ?_
    rw [if_neg]
    intro hother
    simp only [visits, Bool.and_eq_true] at hvisits hother
    exact htake nowMs (Record.inShard_unique hother.2 hvisits.2 ▸ rfl)
  | compute took => exact absurd rfl (hcompute took)
  | report nowMs took other =>
    refine retains_of_revises hmoves.toLeads (revises_reportTurn nowMs took he other).2
      fun h r _ _ => ?_
    split
    · exact r.totals_reportAdder _ _
    · rfl
  | pass nowMs took kind other =>
    refine retains_of_revises hmoves.toLeads (revises_passTurn nowMs took he kind other).2
      fun h r _ hvisits => ?_
    split
    · rename_i hother
      simp only [visits, Record.inShard, Bool.and_eq_true, beq_iff_eq] at hvisits hother
      have hkind : kind = .adder := hother.2.1.2.symm.trans hvisits.2.1.2
      rw [Worker.passed, if_pos hkind]
    · rfl
  | collect took =>
    refine retains_of_revises hmoves.toLeads (revises_collect he took) fun h r _ _ => ?_
    split
    · rw [Record.totals, body_collected]
      rfl
    · rfl

end Engine

end Rollup
