import Rollup.Proofs.Engine.Stages

/-! The ticks of a sequential run, one stage after the other: its records, the workers that report
them, and its synthetic adders. -/
namespace Rollup

namespace Engine

variable (t : Rhythm) (batch : Nat → List Point)

def sequelTaken (e : Engine) (g : Nat) : Engine :=
  ((e.sequel t batch g).receive (batch g)).taken (t.clock g)

def sequelComputed (e : Engine) (g : Nat) : Engine :=
  ((e.sequel t batch g).receive (batch g)).computed (t.clock g) (t.took g)

variable {e : Engine}

section Workers

variable {e : Engine} {id : Nat} {w : Worker} (nowMs : Nat) (took : Activity → Nat)

theorem reportAdders_shardOf (he : e.WellFormed) (hw : (e.workers.get .adder)[id]? = some w)
    {d : Engine} (hface : d.face = e.face) {s : Store}
    (hsame : ∀ h ∈ e.shardOf id, d.store.get? h = s.get? h) :
    (Worker.reportAdders d.settings nowMs (w.start nowMs) d.store).1 =
      (e.shardOf id).foldl (Worker.note (Record.reportAdder e.settings nowMs) s)
        (w.start nowMs) := by
  have hshard : d.store.shard .adder w.id w.shards = e.shardOf id := by
    rw [Store.shard_of_face (store_of_face hface), shardOf, hw]
  have hfold : Worker.reportAdders d.settings nowMs (w.start nowMs) d.store =
      (e.shardOf id).foldl (Worker.visit (Record.reportAdder e.settings nowMs))
        (w.start nowMs, d.store) := by
    rw [← hshard, ← settings_of_face hface]
    rfl
  rw [hfold, Worker.foldl_visit_fst (nodup_shardOf he id)]
  exact List.foldl_ext _ _ _ fun w' h hh => Worker.note_congr (by rw [hsame h hh]) w'

theorem worker_tickAdders (he : e.WellFormed) (hw : (e.workers.get .adder)[id]? = some w) :
    ((e.tickAdders nowMs took).workers.get .adder)[id]? =
      some (((e.shardOf id).foldl (Worker.note (Record.reportAdder e.settings nowMs)
        (e.computed nowMs took).store) (w.start nowMs)).finish e.settings
          (took (.worker .adder id))) := by
  have hcomputed := moves_computed nowMs took he
  have hface := face_computed nowMs took e
  have hid : id < (e.computed nowMs took).crew .adder := by
    rw [hcomputed.crew]
    exact (worker_of_staffed he hw).2.2.2
  have hstarted : ((e.computed nowMs took).workers.get .adder)[id]? = some (w.start nowMs) := by
    rw [worker_computed, if_pos ⟨rfl, hcomputed.crew .adder ▸ hid⟩, hw, Option.map_some]
  have hturn : ∀ (d : Engine) (id : Nat) (other : Kind) (i : Nat), _ := fun d id =>
    worker_turn (took (.worker .adder id)) .adder id (Worker.reportAdders d.settings nowMs) d
  have hearlier := foldl_keeps face _ (fun e id =>
    (face_finishShard id (took (.worker .adder id)) _).trans (face_reportShard nowMs id e))
    (List.range id) (e.computed nowMs took)
  have hlast := reportAdders_shardOf nowMs he hw (hearlier.trans hface)
    (s := (e.computed nowMs took).store) fun h hh => by
      rw [← shardOf_of_face hface, mem_shardOf hcomputed.wellFormed, holds,
        Option.any_eq_true] at hh
      obtain ⟨r, hr, hvisits⟩ := hh
      simp only [visits, Bool.and_eq_true] at hvisits
      exact (get?_foldl_shard hcomputed.wellFormed (Record.stays_reportAdder e.settings nowMs)
        (fun _ hmoves id => revises_laterTurn nowMs took hcomputed hmoves id) hid hr
        hvisits.2).trans hr.symm
  have hsettings := settings_of_face (hearlier.trans hface)
  rw [tickAdders_eq nowMs took he]
  refine (worker_foldl _ _ hturn _ _ .adder id).trans ?_
  rw [if_pos ⟨rfl, hid⟩, hstarted, Option.map_some]
  exact congrArg some (congrArg₂ (Worker.finish · (took (.worker .adder id))) hsettings hlast)

end Workers

section Stages

variable (he : e.WellFormed) (hbatch : ∀ g, ∀ p ∈ batch g, e.Welcomes p) (g : Nat)

include he hbatch

theorem sequel_resembles : e.Resembles (e.sequel t batch g) := by
  induction g with
  | zero => exact ⟨he, rfl⟩
  | succ g ih =>
    have hreceived := ih.receive (hbatch g)
    exact ⟨(revises_tickAdders _ _ hreceived.wellFormed).1.wellFormed,
      (face_tickAdders _ _ _).trans hreceived.face⟩

theorem received_resembles : e.Resembles ((e.sequel t batch g).receive (batch g)) :=
  (sequel_resembles t batch he hbatch g).receive (hbatch g)

theorem sequelTaken_resembles : e.Resembles (e.sequelTaken t batch g) := by
  have hreceived := received_resembles t batch he hbatch g
  exact ⟨(revises_taken _ hreceived.wellFormed).1.wellFormed,
    (face_taken _ _).trans hreceived.face⟩

theorem sequelComputed_resembles : e.Resembles (e.sequelComputed t batch g) := by
  have hreceived := received_resembles t batch he hbatch g
  exact ⟨(moves_computed _ _ hreceived.wellFormed).wellFormed,
    (face_computed _ _ _).trans hreceived.face⟩

theorem get?_sequelTaken (h : Handle) : (e.sequelTaken t batch g).store.get? h =
    ((e.sequel t batch g).store.get? h).map fun r =>
      if e.covers .adder r then (r.absorb (batch g)).takeAdder e.settings.predictLimit
      else r.absorb (batch g) := by
  have hsequel := sequel_resembles t batch he hbatch g
  have hreceived := received_resembles t batch he hbatch g
  obtain ⟨store, hreceive, habsorbs, -⟩ :=
    receive_eq hsequel.wellFormed fun p hp => welcomes_of_face hsequel.face (hbatch g p hp)
  have hstore : ((e.sequel t batch g).receive (batch g)).store = store := by rw [hreceive]
  rw [sequelTaken, (revises_taken (t.clock g) hreceived.wellFormed).2.get, hstore, habsorbs.get,
    Option.map_map]
  congr 1
  funext r
  simp only [Function.comp, settings_of_face hreceived.face, covers_of_face hreceived.face,
    covers_congr (r.stays_absorb (batch g))]

theorem get?_sequel_succ (h : Handle) : (e.sequel t batch (g + 1)).store.get? h =
    ((e.sequelComputed t batch g).store.get? h).map fun r =>
      if e.covers .adder r then (r.reportAdder e.settings (t.clock g)).2 else r := by
  have hreceived := received_resembles t batch he hbatch g
  rw [sequel, (revises_tickAdders (t.clock g) (t.took g) hreceived.wellFormed).2.get,
    settings_of_face hreceived.face, covers_of_face hreceived.face]
  rfl

theorem worker_sequel_succ {id : Nat} {w : Worker}
    (hw : ((e.sequel t batch g).workers.get .adder)[id]? = some w) :
    ((e.sequel t batch (g + 1)).workers.get .adder)[id]? =
      some (((e.shardOf id).foldl
        (Worker.note (Record.reportAdder e.settings (t.clock g))
          (e.sequelComputed t batch g).store) (w.start (t.clock g))).finish e.settings
            (t.took g (.worker .adder id))) := by
  have hreceived := received_resembles t batch he hbatch g
  have hsequel := sequel_resembles t batch he hbatch g
  obtain ⟨store, hreceive, -⟩ :=
    receive_eq hsequel.wellFormed fun p hp => welcomes_of_face hsequel.face (hbatch g p hp)
  have hw' : (((e.sequel t batch g).receive (batch g)).workers.get .adder)[id]? = some w := by
    rw [hreceive]
    exact hw
  have hworker := worker_tickAdders (t.clock g) (t.took g) hreceived.wellFormed hw'
  rw [settings_of_face hreceived.face, shardOf_of_face hreceived.face] at hworker
  exact hworker

end Stages

section Synthetics

theorem synthetics_generateAll (took : Nat) (e : Engine) :
    (e.runSynthetics took).synthetics = (Synthetic.generateAll e.synthetics e.store).2.1 := by
  unfold runSynthetics
  split
  · rename_i hempty
    rw [List.isEmpty_iff.mp hempty]
    rfl
  · rfl

theorem synthetics_finishShard (took id : Nat) (e : Engine) :
    (e.finishShard took .adder id).synthetics = e.synthetics := by
  have hmeasure := fun signals e =>
    foldl_keeps Engine.synthetics (flip measure) (fun _ _ => rfl) signals e
  have hworker := synthetics_onWorker .adder id (fun w s => (w.finish e.settings took, s)) e
  unfold finishShard
  simp only
  split
  · exact hworker
  · exact (hmeasure _ _).trans hworker

variable (he : e.WellFormed) (hbatch : ∀ g, ∀ p ∈ batch g, e.Welcomes p) (g : Nat)

include he hbatch

theorem generateAll_sequelTaken :
    (Synthetic.generateAll (e.sequel t batch g).synthetics (e.sequelTaken t batch g).store).2 =
      ((e.sequel t batch (g + 1)).synthetics, (e.sequelComputed t batch g).store) := by
  have hsequel := sequel_resembles t batch he hbatch g
  obtain ⟨store, hreceive, -⟩ :=
    receive_eq hsequel.wellFormed fun p hp => welcomes_of_face hsequel.face (hbatch g p hp)
  have htaken : (e.sequelTaken t batch g).synthetics = (e.sequel t batch g).synthetics := by
    rw [sequelTaken, hreceive]
    exact foldl_keeps Engine.synthetics _ (fun _ _ => synthetics_onWorker _ _ _ _) _ _
  have hreported : (e.sequel t batch (g + 1)).synthetics =
      (e.sequelComputed t batch g).synthetics :=
    foldl_keeps Engine.synthetics _
      (fun _ _ => (synthetics_finishShard _ _ _).trans (synthetics_onWorker _ _ _ _)) _ _
  rw [hreported, ← htaken]
  exact (Prod.ext (synthetics_generateAll _ _) (store_runSynthetics _ _)).symm

theorem synthetics_sequel (hnone : e.synthetics = []) : (e.sequel t batch g).synthetics = [] := by
  induction g with
  | zero => exact hnone
  | succ g ih =>
    have hgenerated := generateAll_sequelTaken t batch he hbatch g
    rw [ih] at hgenerated
    exact (congrArg Prod.fst hgenerated).symm

theorem store_sequelComputed (hnone : e.synthetics = []) :
    (e.sequelComputed t batch g).store = (e.sequelTaken t batch g).store := by
  have hgenerated := generateAll_sequelTaken t batch he hbatch g
  rw [synthetics_sequel t batch he hbatch g hnone] at hgenerated
  exact (congrArg Prod.snd hgenerated).symm

end Synthetics

end Engine

end Rollup
