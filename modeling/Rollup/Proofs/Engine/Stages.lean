import Rollup.Engine.Shift
import Rollup.Proofs.Engine.Emission
import Rollup.Proofs.Engine.Retention
import Rollup.Proofs.Store.Absorption

/-! The stages of a sequential tick over adders: before it, with all input taken, and with the
synthetic adders computed. What a stage makes of a record, or of the worker in whose shard the
record is, depends on the stage before and on the points for that record. -/
namespace Rollup

namespace Worker

def note (step : Record → RecordReport × Record) (s : Store) (w : Worker) (h : Handle) : Worker :=
  match s.get? h with
  | none => w
  | some r => w.write (step r).1

section Note

variable (step : Record → RecordReport × Record)

theorem visit_fst (w : Worker) (s : Store) (h : Handle) :
    (visit step (w, s) h).1 = w.note step s h := by
  simp only [visit, note]
  cases s.get? h <;> rfl

variable {step}

theorem note_congr {s s' : Store} {h : Handle}
    (hsame : (s'.get? h).map (fun r => (step r).1) = (s.get? h).map fun r => (step r).1)
    (w : Worker) : w.note step s' h = w.note step s h := by
  unfold note
  cases hr : s.get? h with
  | none =>
    rw [hr, Option.map_none, Option.map_eq_none_iff] at hsame
    rw [hsame]
  | some r =>
    rw [hr, Option.map_some, Option.map_eq_some_iff] at hsame
    obtain ⟨r', hr', hreport⟩ := hsame
    simp only [hr', hreport]

/-- A worker that visits handles once writes of each what the store held at first. -/
theorem foldl_visit_fst {hs : List Handle} (hnodup : hs.Nodup) (w : Worker) (s : Store) :
    (hs.foldl (visit step) (w, s)).1 = hs.foldl (note step s) w := by
  induction hs generalizing w s with
  | nil => rfl
  | cons h rest ih =>
    obtain ⟨hnot, hrest⟩ := List.nodup_cons.mp hnodup
    have hpair : visit step (w, s) h = (w.note step s h, (visit step (w, s) h).2) :=
      Prod.ext (visit_fst step w s h) rfl
    rw [List.foldl_cons, hpair, ih hrest, List.foldl_cons]
    refine List.foldl_ext _ _ _ fun w' k hk => note_congr ?_ w'
    rw [(visits_visit step).store, Store.get?_modify, if_neg]
    rintro rfl
    exact hnot hk

end Note

end Worker

namespace Engine

variable {e e' : Engine}

/-- What decides which record an operation treats, and which worker has it in its shard. -/
def face (e : Engine) : Settings × (Kind → List (Kind × Nat × Nat)) × PerKind Table ×
    (Handle → Option (String × UInt64 × Kind × Bool)) :=
  (e.settings, e.staff, e.store.face)

section Face

theorem face_eq (hsettings : e'.settings = e.settings)
    (hstaff : ∀ kind, e'.staff kind = e.staff kind) (hstore : e'.store.face = e.store.face) :
    e'.face = e.face := by
  rw [face, hsettings, hstore, funext hstaff, face]

theorem settings_of_face (h : e'.face = e.face) : e'.settings = e.settings := congrArg Prod.fst h

theorem staff_of_face (h : e'.face = e.face) : e'.staff = e.staff := congrArg (·.2.1) h

theorem crew_of_face (h : e'.face = e.face) : e'.crew = e.crew := by
  funext kind
  rw [crew, staff_of_face h, crew]

theorem store_of_face (h : e'.face = e.face) : e'.store.face = e.store.face := congrArg (·.2.2) h

theorem leadsTo_of_face (h : e'.face = e.face) (k : Handle) : e'.leadsTo k = e.leadsTo k := by
  funext p
  rw [leadsTo, locate, Store.locate_of_face (store_of_face h)]
  rfl

theorem covers_of_face (h : e'.face = e.face) : e'.covers = e.covers := by
  funext kind r
  rw [covers, crew_of_face h, covers]

theorem shardOf_of_face (h : e'.face = e.face) (id : Nat) : e'.shardOf id = e.shardOf id := by
  have hstaff : ∀ d : Engine, d.shardOf id = ((d.staff .adder)[id]?).elim [] fun place =>
      d.store.shard .adder place.2.1 place.2.2 := by
    intro d
    rw [shardOf, staff, List.getElem?_map]
    cases (d.workers.get .adder)[id]? <;> rfl
  rw [hstaff, hstaff, staff_of_face h, Store.shard_of_face (store_of_face h)]

theorem face_measureAll (signals : List Signal) (e : Engine) :
    (e.measureAll signals).face = e.face :=
  foldl_keeps face (flip measure) (fun _ _ => rfl) signals e

theorem face_onWorker {act : Worker → Store → Worker × Store}
    (hplace : ∀ w s, (act w s).1.place = w.place) (hstore : ∀ w s, (act w s).2.face = s.face)
    (kind : Kind) (id : Nat) (e : Engine) : (e.onWorker kind id act).face = e.face := by
  refine face_eq (settings_onWorker kind id act e) (staff_onWorker hplace e kind id) ?_
  unfold onWorker
  split
  · rfl
  · exact hstore _ _

theorem face_modifyRecord {f : Record → Record} (hf : ∀ r, Record.Stays r (f r)) (h : Handle)
    (e : Engine) : (e.modifyRecord h f).face = e.face :=
  face_eq rfl (fun _ => rfl) (Store.face_modify hf e.store h)

variable (nowMs id : Nat) (took : Activity → Nat)

theorem face_startShard (e : Engine) : (e.startShard nowMs id).face = e.face :=
  face_onWorker (fun _ _ => rfl) (fun _ _ => rfl) .adder id e

theorem face_takeShard (e : Engine) : (e.takeShard nowMs id).face = e.face :=
  face_onWorker (fun _ _ => rfl) (fun _ s => Store.face_modifyAll (Record.stays_takeAdder _) s _)
    .adder id e

theorem face_reportRecord (h : Handle) (e : Engine) : (e.reportRecord nowMs id h).face = e.face := by
  have hvisits := Worker.visits_visit (Record.reportAdder e.settings nowMs)
  refine face_onWorker (fun w s => hvisits.place w s h) (fun w s => ?_) .adder id e
  rw [hvisits.store]
  exact Store.face_modify (Record.stays_reportAdder _ nowMs) s h

theorem face_reportShard (e : Engine) : (e.reportShard nowMs id).face = e.face := by
  have hvisits := Worker.visits_visit (Record.reportAdder e.settings nowMs)
  refine face_onWorker (fun w s => (hvisits.foldl _ w s).1) (fun w s => ?_) .adder id e
  rw [(hvisits.foldl _ w s).2]
  exact Store.face_modifyAll (Record.stays_reportAdder _ nowMs) s _

theorem face_finishShard (took : Nat) (e : Engine) :
    (e.finishShard took .adder id).face = e.face := by
  have hfinish : (e.onWorker .adder id fun w s => (w.finish e.settings took, s)).face = e.face :=
    face_onWorker (fun _ _ => rfl) (fun _ _ => rfl) .adder id e
  unfold finishShard
  simp only
  split
  · exact hfinish
  · exact (face_measureAll _ _).trans hfinish

theorem face_runSynthetics (took : Nat) (e : Engine) : (e.runSynthetics took).face = e.face := by
  refine face_eq ?_ (fun kind => ?_) ?_
  · unfold runSynthetics
    split <;> rfl
  · unfold runSynthetics
    split <;> rfl
  · rw [store_runSynthetics]
    exact Synthetic.view_generateAll (fun s h => Store.face_modify Record.stays_exempt s h)
      (fun s h totals => Store.face_modify (Record.stays_overwrite totals) s h) _ _

theorem face_taken (e : Engine) : (e.taken nowMs).face = e.face :=
  foldl_keeps face _ (fun e id => face_takeShard nowMs id e) _ e

theorem face_computed (e : Engine) : (e.computed nowMs took).face = e.face :=
  (face_runSynthetics _ _).trans (face_taken nowMs e)

theorem face_tickAdders (e : Engine) : (e.tickAdders nowMs took).face = e.face :=
  (foldl_keeps face _ (fun e id => (face_finishShard id _ _).trans (face_reportShard nowMs id e)) _
    _).trans (face_computed nowMs took e)

end Face

structure Resembles (e e' : Engine) : Prop where
  wellFormed : e'.WellFormed
  face : e'.face = e.face

section Resembles

theorem store_startShard (nowMs id : Nat) (e : Engine) : (e.startShard nowMs id).store = e.store := by
  unfold startShard onWorker
  split <;> rfl

theorem store_reportRecord (nowMs : Nat) {id : Nat} {w : Worker}
    (hw : (e.workers.get .adder)[id]? = some w) (h : Handle) :
    (e.reportRecord nowMs id h).store =
      e.store.modify h fun r => (r.reportAdder e.settings nowMs).2 := by
  unfold reportRecord onWorker
  rw [hw]
  exact (Worker.visits_visit _).store w e.store h

theorem synthetics_startShard (nowMs id : Nat) (e : Engine) :
    (e.startShard nowMs id).synthetics = e.synthetics :=
  synthetics_onWorker _ _ _ e

theorem synthetics_reportRecord (nowMs id : Nat) (h : Handle) (e : Engine) :
    (e.reportRecord nowMs id h).synthetics = e.synthetics :=
  synthetics_onWorker _ _ _ e

section Worker

variable (nowMs id : Nat) (e : Engine) (other : Nat)

theorem worker_startShard : ((e.startShard nowMs id).workers.get .adder)[other]? =
    if other = id then ((e.workers.get .adder)[id]?).map (Worker.start nowMs)
    else (e.workers.get .adder)[other]? := by
  rw [startShard, worker_onWorker]
  simp

theorem worker_reportRecord (h : Handle) :
    ((e.reportRecord nowMs id h).workers.get .adder)[other]? =
      if other = id then ((e.workers.get .adder)[id]?).map fun w =>
        w.note (Record.reportAdder e.settings nowMs) e.store h
      else (e.workers.get .adder)[other]? := by
  rw [reportRecord, worker_onWorker]
  simp [Worker.visit_fst]

theorem worker_finishShard (took : Nat) :
    ((e.finishShard took .adder id).workers.get .adder)[other]? =
      if other = id then ((e.workers.get .adder)[id]?).map (Worker.finish e.settings took)
      else (e.workers.get .adder)[other]? := by
  rw [workers_finishShard, worker_onWorker]
  simp

end Worker

variable (h : e.Resembles e') (nowMs id : Nat) (k : Handle)

include h

theorem Resembles.modifyRecord {f : Record → Record} (hf : ∀ r, Record.Stays r (f r)) :
    e.Resembles (e'.modifyRecord k f) :=
  ⟨(moves_modifyRecord h.wellFormed k hf).wellFormed, (face_modifyRecord hf k e').trans h.face⟩

theorem Resembles.takeRecord : e.Resembles (e'.takeRecord k) :=
  h.modifyRecord k (Record.stays_takeAdder _)

theorem Resembles.startShard : e.Resembles (e'.startShard nowMs id) := by
  have hface := face_startShard nowMs id e'
  refine ⟨(moves_of_revises h.wellFormed (f := fun _ r => r) ?_ (fun _ _ _ _ => rfl)
    (settings_of_face hface) (fun kind => congrFun (staff_of_face hface) kind)
    (synthetics_startShard _ _ e')).wellFormed, hface.trans h.face⟩
  rw [store_startShard]
  exact .refl e'.store

theorem Resembles.reportRecord : e.Resembles (e'.reportRecord nowMs id k) := by
  have hface := face_reportRecord nowMs id k e'
  refine ⟨?_, hface.trans h.face⟩
  cases hw : (e'.workers.get .adder)[id]? with
  | none =>
    have hsame : e'.reportRecord nowMs id k = e' := by
      unfold Engine.reportRecord onWorker
      rw [hw]
    rw [hsame]
    exact h.wellFormed
  | some w =>
    have hstays := Record.stays_reportAdder e'.settings nowMs
    refine (moves_of_revises h.wellFormed (f := fun j r => if j = k then _ else r)
      (store_reportRecord nowMs hw k ▸ Store.revises_modify _ k _ fun r _ => (hstays r).follows)
      (fun j r _ _ => ?_) (settings_of_face hface)
      (fun kind => congrFun (staff_of_face hface) kind)
      (synthetics_reportRecord _ _ k e')).wellFormed
    split
    · exact (hstays r).valid
    · rfl

theorem Resembles.finishShard (took : Nat) : e.Resembles (e'.finishShard took .adder id) :=
  ⟨(moves_finishShard took id h.wellFormed .adder).wellFormed,
    (face_finishShard id took e').trans h.face⟩

theorem Resembles.runSynthetics (took : Nat) : e.Resembles (e'.runSynthetics took) :=
  ⟨(moves_runSynthetics took h.wellFormed).wellFormed, (face_runSynthetics took e').trans h.face⟩

end Resembles

section Shards

variable {id other : Nat} {h : Handle}

theorem mem_shardOf (he : e.WellFormed) : h ∈ e.shardOf id ↔ e.holds id h = true := by
  unfold shardOf holds visits
  cases hw : (e.workers.get .adder)[id]? with
  | none =>
    have hout : ¬ id < e.crew .adder := by
      rw [← length_workers]
      exact Nat.not_lt.mpr (List.getElem?_eq_none_iff.mp hw)
    simp [hout]
  | some w =>
    obtain ⟨-, hid, hshards, hlt⟩ := worker_of_staffed he hw
    simp [hid, hshards, Store.mem_shard he.store hlt, hlt, Option.any_eq_true]

theorem nodup_shardOf (he : e.WellFormed) (id : Nat) : (e.shardOf id).Nodup := by
  unfold shardOf
  cases hw : (e.workers.get .adder)[id]? with
  | none => exact List.nodup_nil
  | some w =>
    obtain ⟨-, -, hshards, hlt⟩ := worker_of_staffed he hw
    exact Store.shard_nodup he.store .adder (hshards ▸ Nat.zero_lt_of_lt hlt) w.id

theorem shardOf_unique (he : e.WellFormed) (hid : h ∈ e.shardOf id) (hother : h ∈ e.shardOf other) :
    id = other := by
  rw [mem_shardOf he, holds, Option.any_eq_true] at hid hother
  obtain ⟨r, hr, hvisits⟩ := hid
  obtain ⟨r', hr', hvisits'⟩ := hother
  rw [hr] at hr'
  cases hr'
  simp only [visits, Bool.and_eq_true] at hvisits hvisits'
  exact Record.inShard_unique hvisits.2 hvisits'.2

theorem lt_crew_of_mem_shardOf (he : e.WellFormed) (hid : h ∈ e.shardOf id) :
    id < e.crew .adder := by
  rw [mem_shardOf he, holds, Option.any_eq_true] at hid
  obtain ⟨r, -, hvisits⟩ := hid
  simp only [visits, Bool.and_eq_true, decide_eq_true_eq] at hvisits
  exact hvisits.1

theorem covers_iff_mem_shardOf (he : e.WellFormed) {r : Record} (hr : e.store.get? h = some r) :
    e.covers .adder r = true ↔ ∃ id, h ∈ e.shardOf id := by
  rw [covers_iff_inShard]
  simp only [mem_shardOf he, holds, hr, Option.any_some, visits, Bool.and_eq_true,
    decide_eq_true_eq]

theorem Resembles.covers_iff (hd : e.Resembles e') {r : Record} (hr : e'.store.get? h = some r) :
    e.covers .adder r = true ↔ ∃ id, h ∈ e.shardOf id := by
  rw [← covers_of_face hd.face, covers_iff_mem_shardOf hd.wellFormed hr]
  simp only [shardOf_of_face hd.face]

end Shards

section Receive

def Welcomes (e : Engine) (p : Point) : Prop :=
  e.refusal? p.kind p.value = none ∧ ∃ h, e.leadsTo h p = true

variable {p : Point} {ps : List Point}

theorem welcomes_of_face (h : e'.face = e.face) (hp : e.Welcomes p) : e'.Welcomes p := by
  obtain ⟨haccepts, k, hleads⟩ := hp
  refine ⟨?_, k, by rw [leadsTo_of_face h, hleads]⟩
  rw [refusal?, settings_of_face h]
  exact haccepts

theorem ingest_of_leadsTo {h : Handle} (haccepts : e.refusal? p.kind p.value = none)
    (hleads : e.leadsTo h p = true) :
    e.ingest p = .ok (e.modifyRecord h (Record.update p.value p.adjustment)) := by
  have hlocate : e.store.locate p.kind p.path = some h := by
    rw [leadsTo, beq_iff_eq] at hleads
    exact hleads
  simp only [ingest, haccepts, accept, getOrCreate, hlocate]

theorem receive_eq (he : e.WellFormed) (hps : ∀ p ∈ ps, e.Welcomes p) :
    ∃ store, e.receive ps = { e with store := store } ∧ e.store.Absorbs ps store ∧
      (e.receive ps).WellFormed := by
  induction ps generalizing e with
  | nil => exact ⟨e.store, rfl, .refl e.store, he⟩
  | cons p rest ih =>
    obtain ⟨haccepts, h, hleads⟩ := hps p List.mem_cons_self
    have hupdate : ∀ r, Record.Stays r (r.update p.value p.adjustment) := fun r =>
      r.stays_update p.value p.adjustment
    have hface := face_modifyRecord hupdate h e
    obtain ⟨store, hreceive, habsorbs, hsound⟩ :=
      ih (moves_modifyRecord he h hupdate).wellFormed fun q hq =>
        welcomes_of_face hface (hps q (List.mem_cons_of_mem p hq))
    have hfirst : e.receive (p :: rest) =
        (e.modifyRecord h (Record.update p.value p.adjustment)).receive rest := by
      rw [receive, List.foldl_cons, ingest_of_leadsTo haccepts hleads]
      rfl
    rw [leadsTo, beq_iff_eq] at hleads
    rw [hfirst]
    exact ⟨store, hreceive, (Store.Absorbs.point he.store hleads).trans habsorbs, hsound⟩

theorem Resembles.receive (h : e.Resembles e') (hps : ∀ p ∈ ps, e.Welcomes p) :
    e.Resembles (e'.receive ps) := by
  obtain ⟨store, hreceive, habsorbs, hsound⟩ :=
    receive_eq h.wellFormed fun p hp => welcomes_of_face h.face (hps p hp)
  refine ⟨hsound, Eq.trans ?_ h.face⟩
  rw [hreceive]
  exact face_eq rfl (fun _ => rfl) habsorbs.face

end Receive

end Engine

end Rollup
