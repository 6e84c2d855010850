import Rollup.Proofs.Engine.Soundness

/-! What one worker does in one go, as a change of single records: those of its shard are treated,
and all others stay as they are. -/
namespace Rollup

namespace Store

theorem modify_congr {s : Store} {h : Handle} {f g : Record → Record}
    (hfg : ∀ r, s.get? h = some r → f r = g r) : s.modify h f = s.modify h g := by
  unfold modify
  congr 1
  apply Array.ext
  · simp
  · intro i hi hi'
    rw [Array.getElem_modify, Array.getElem_modify]
    split
    · rename_i heq
      subst heq
      rw [Array.size_modify] at hi
      exact hfg _ (Array.getElem?_eq_getElem hi)
    · rfl

theorem modify_same (s : Store) (h : Handle) : s.modify h (fun r => r) = s := by
  unfold modify
  congr 1
  apply Array.ext
  · simp
  · intro i hi hi'
    rw [Array.getElem_modify]
    split <;> rfl

theorem modifyAll_same (s : Store) (hs : List Handle) : s.modifyAll hs (fun r => r) = s := by
  induction hs with
  | nil => rfl
  | cons h rest ih => rw [modifyAll, List.foldl_cons, modify_same]; exact ih

end Store

namespace Worker

structure Visits (visitor : Worker × Store → Handle → Worker × Store) (f : Record → Record) :
    Prop where
  place : ∀ w s h, (visitor (w, s) h).1.place = w.place
  store : ∀ w s h, (visitor (w, s) h).2 = s.modify h f

structure Treats (act : Worker → Store → Worker × Store) (kind : Kind) (f : Record → Record) :
    Prop where
  place : ∀ w s, (act w s).1.place = w.place
  store : ∀ w s, w.kind = kind → (act w s).2 = s.modifyAll (s.shard kind w.id w.shards) f

theorem Visits.foldl {visitor : Worker × Store → Handle → Worker × Store} {f : Record → Record}
    (hvisits : Visits visitor f) (hs : List Handle) (w : Worker) (s : Store) :
    (hs.foldl visitor (w, s)).1.place = w.place ∧
      (hs.foldl visitor (w, s)).2 = s.modifyAll hs f := by
  induction hs generalizing w s with
  | nil => exact ⟨rfl, rfl⟩
  | cons h rest ih =>
    obtain ⟨hplace, hstore⟩ := ih (visitor (w, s) h).1 (visitor (w, s) h).2
    refine ⟨hplace.trans (hvisits.place w s h), ?_⟩
    rw [List.foldl_cons, hstore, hvisits.store]
    rfl

private theorem modify_of_get?_none {s : Store} {h : Handle} (hr : s.get? h = none)
    (f : Record → Record) : s.modify h f = s := by
  rw [Store.modify_congr fun r hr' => ?_, Store.modify_same]
  rw [hr] at hr'
  cases hr'

private theorem modify_of_get?_some {s : Store} {h : Handle} {r : Record} (hr : s.get? h = some r)
    (f : Record → Record) : s.modify h (fun _ => f r) = s.modify h f :=
  Store.modify_congr fun r' hr' => by rw [hr] at hr'; cases hr'; rfl

theorem visits_visit (step : Record → RecordReport × Record) :
    Visits (visit step) fun r => (step r).2 := by
  constructor
  · intro w s h
    simp only [visit]
    cases s.get? h <;> rfl
  · intro w s h
    simp only [visit]
    cases hr : s.get? h with
    | none => exact (modify_of_get?_none hr _).symm
    | some r => exact modify_of_get?_some hr fun r => (step r).2

theorem visits_visitStats (settings : Settings) : Visits (visitStats settings) Record.swap := by
  constructor
  · intro w s h
    simp only [visitStats]
    cases s.get? h <;> rfl
  · intro w s h
    simp only [visitStats]
    cases hr : s.get? h with
    | none => exact (modify_of_get?_none hr _).symm
    | some r =>
      simp only [Record.passStats_snd]
      exact modify_of_get?_some hr Record.swap

theorem treats_takeAdders (settings : Settings) (nowMs : Nat) :
    Treats (takeAdders settings nowMs) .adder (Record.takeAdder settings.predictLimit) :=
  ⟨fun _ _ => rfl, fun _ _ _ => rfl⟩

theorem treats_reportAdders (settings : Settings) (nowMs : Nat) :
    Treats (reportAdders settings nowMs) .adder fun r => (r.reportAdder settings nowMs).2 :=
  ⟨fun w s => ((visits_visit _).foldl _ w s).1, fun w s _ => ((visits_visit _).foldl _ w s).2⟩

def passed (kind : Kind) (r : Record) : Record := if kind = .adder then r else r.swap

def visitor (settings : Settings) : Kind → Worker × Store → Handle → Worker × Store
  | .adder => fun state _ => state
  | .gauge => visit (Record.passGauge settings)
  | .stats => visitStats settings
  | .histogram => visit (Record.passHistogram settings)

theorem pass_eq (settings : Settings) (nowMs : Nat) (w : Worker) (s : Store) :
    pass settings nowMs w s =
      (s.shard w.kind w.id w.shards).foldl (visitor settings w.kind) (w.start nowMs, s) := by
  obtain ⟨kind, id, shards, buffer, counts, workspace, capacity⟩ := w
  cases kind <;> rfl

theorem visits_visitor (settings : Settings) (kind : Kind) :
    Visits (visitor settings kind) (passed kind) := by
  cases kind with
  | adder => exact ⟨fun _ _ _ => rfl, fun _ s h => (s.modify_same h).symm⟩
  | gauge =>
    have hgauge := visits_visit (Record.passGauge settings)
    simp only [Record.passGauge_snd] at hgauge
    exact hgauge
  | stats => exact visits_visitStats settings
  | histogram =>
    have hhistogram := visits_visit (Record.passHistogram settings)
    simp only [Record.passHistogram_snd] at hhistogram
    exact hhistogram

theorem treats_pass (settings : Settings) (nowMs : Nat) (kind : Kind) :
    Treats (pass settings nowMs) kind (passed kind) := by
  constructor
  · intro w s
    rw [pass_eq]
    exact ((visits_visitor settings w.kind).foldl _ (w.start nowMs) s).1
  · rintro w s rfl
    rw [pass_eq]
    exact ((visits_visitor settings w.kind).foldl _ (w.start nowMs) s).2

theorem treats_finish (settings : Settings) (took : Nat) (kind : Kind) :
    Treats (fun w s => (w.finish settings took, s)) kind fun r => r :=
  ⟨fun _ _ => rfl, fun _ s _ => (s.modifyAll_same _).symm⟩

end Worker

namespace Engine

variable {e : Engine}

def visits (e : Engine) (kind : Kind) (id : Nat) (r : Record) : Bool :=
  decide (id < e.crew kind) && r.inShard (e.store.table kind).size kind (e.crew kind) id

theorem worker_of_staffed (he : e.WellFormed) {kind : Kind} {id : Nat} {w : Worker}
    (hw : (e.workers.get kind)[id]? = some w) :
    w.kind = kind ∧ w.id = id ∧ w.shards = e.crew kind ∧ id < e.crew kind := by
  have hstaff : (e.staff kind)[id]? = some (w.kind, w.id, w.shards) := by
    rw [staff, List.getElem?_map, hw]
    rfl
  have hlt : id < e.crew kind := (List.getElem?_eq_some_iff.mp hstaff).1
  rw [he.staffed, List.getElem?_map, List.getElem?_range hlt] at hstaff
  simp only [Option.map_some, Option.some.injEq, Prod.mk.injEq] at hstaff
  exact ⟨hstaff.1.symm, hstaff.2.1.symm, hstaff.2.2.symm, hlt⟩

theorem staff_onWorker {act : Worker → Store → Worker × Store}
    (hplace : ∀ w s, (act w s).1.place = w.place) (e : Engine) (kind : Kind) (id : Nat)
    (other : Kind) :
    (e.onWorker kind id act).staff other = e.staff other := by
  unfold onWorker
  cases hw : (e.workers.get kind)[id]? with
  | none => rfl
  | some w =>
    unfold staff
    simp only [PerKind.modify_eq_set]
    by_cases hother : other = kind
    · subst hother
      obtain ⟨hlt, rfl⟩ := List.getElem?_eq_some_iff.mp hw
      rw [PerKind.get_set_self, List.map_set, hplace, ← List.map_set, List.set_getElem_self]
    · rw [PerKind.get_set_of_ne _ _ hother]

theorem settings_onWorker (kind : Kind) (id : Nat) (act : Worker → Store → Worker × Store)
    (e : Engine) : (e.onWorker kind id act).settings = e.settings := by
  unfold onWorker
  split <;> rfl

theorem synthetics_onWorker (kind : Kind) (id : Nat) (act : Worker → Store → Worker × Store)
    (e : Engine) : (e.onWorker kind id act).synthetics = e.synthetics := by
  unfold onWorker
  split <;> rfl

theorem revises_onWorker (he : e.WellFormed) {kind : Kind}
    {act : Worker → Store → Worker × Store} {f : Record → Record} (hact : Worker.Treats act kind f)
    (hf : ∀ r, Record.Stays r (f r)) (id : Nat) :
    e.store.Revises (e.onWorker kind id act).store fun _ r =>
      if e.visits kind id r then f r else r := by
  unfold onWorker
  cases hw : (e.workers.get kind)[id]? with
  | none =>
    have hout : ¬ id < e.crew kind := by
      rw [crew, staff, List.length_map]
      exact Nat.not_lt.mpr (List.getElem?_eq_none_iff.mp hw)
    refine (Store.Revises.refl e.store).congr fun k r _ => ?_
    simp [visits, hout]
  | some w =>
    obtain ⟨hkind, hid, hshards, hlt⟩ := worker_of_staffed he hw
    have hstore := hact.store w e.store hkind
    simp only [hid, hshards] at hstore
    simp only [hstore]
    refine (Store.revises_shard he.store kind hlt f fun r => (hf r).follows).congr fun k r _ => ?_
    simp [visits, hlt]

theorem moves_onWorker (he : e.WellFormed) {kind : Kind}
    {act : Worker → Store → Worker × Store} {f : Record → Record} (hact : Worker.Treats act kind f)
    (hf : ∀ r, Record.Stays r (f r)) (id : Nat) : e.Moves (e.onWorker kind id act) :=
  moves_of_revises he (revises_onWorker he hact hf id)
    (fun k r _ _ => by
      split
      · exact (hf r).valid
      · rfl)
    (settings_onWorker kind id act e) (staff_onWorker hact.place e kind id)
    (synthetics_onWorker kind id act e)

section Shards

variable (nowMs took id : Nat)

theorem revises_takeShard (he : e.WellFormed) :
    e.store.Revises (e.takeShard nowMs id).store fun _ r =>
      if e.visits .adder id r then r.takeAdder e.settings.predictLimit else r :=
  revises_onWorker he (Worker.treats_takeAdders e.settings nowMs)
    (fun r => r.stays_takeAdder e.settings.predictLimit) id

theorem moves_takeShard (he : e.WellFormed) : e.Moves (e.takeShard nowMs id) :=
  moves_onWorker he (Worker.treats_takeAdders e.settings nowMs)
    (fun r => r.stays_takeAdder e.settings.predictLimit) id

@[simp] theorem store_finishShard (kind : Kind) (e : Engine) :
    (e.finishShard took kind id).store = e.store := by
  have hstore : (e.onWorker kind id fun w store => (w.finish e.settings took, store)).store =
      e.store := by
    unfold onWorker
    split <;> rfl
  unfold finishShard
  simp only
  split
  · exact hstore
  · rw [store_measureAll, hstore]

theorem moves_finishShard (he : e.WellFormed) (kind : Kind) :
    e.Moves (e.finishShard took kind id) := by
  have hworker := moves_onWorker he (Worker.treats_finish e.settings took kind) Record.Stays.refl id
  unfold finishShard
  simp only
  split
  · exact hworker
  · exact hworker.trans (moves_measureAll hworker.wellFormed _)

theorem revises_reportShard (he : e.WellFormed) :
    e.store.Revises (e.reportShard nowMs id).store fun _ r =>
      if e.visits .adder id r then (r.reportAdder e.settings nowMs).2 else r :=
  revises_onWorker he (Worker.treats_reportAdders e.settings nowMs)
    (fun r => r.stays_reportAdder e.settings nowMs) id

theorem moves_reportShard (he : e.WellFormed) : e.Moves (e.reportShard nowMs id) :=
  moves_onWorker he (Worker.treats_reportAdders e.settings nowMs)
    (fun r => r.stays_reportAdder e.settings nowMs) id

theorem stays_passed (kind : Kind) (r : Record) : r.Stays (Worker.passed kind r) := by
  unfold Worker.passed
  split
  · exact .refl r
  · exact r.stays_swap

theorem revises_passShard (he : e.WellFormed) (kind : Kind) :
    e.store.Revises (e.passShard nowMs kind id).store fun _ r =>
      if e.visits kind id r then Worker.passed kind r else r :=
  revises_onWorker he (Worker.treats_pass e.settings nowMs kind) (stays_passed kind) id

theorem moves_passShard (he : e.WellFormed) (kind : Kind) : e.Moves (e.passShard nowMs kind id) :=
  moves_onWorker he (Worker.treats_pass e.settings nowMs kind) (stays_passed kind) id

end Shards

section Synthetics

variable (took : Nat)

theorem store_runSynthetics (e : Engine) :
    (e.runSynthetics took).store = (Synthetic.generateAll e.synthetics e.store).2.2 := by
  unfold runSynthetics
  split
  · rename_i hempty
    rw [List.isEmpty_iff.mp hempty]
    rfl
  · rfl

theorem synthetics_runSynthetics (he : e.WellFormed) : (e.runSynthetics took).synthetics =
    (Synthetic.evaluations e.synthetics e.store).map (·.synthetic) := by
  rw [← (Synthetic.generateAll_snd he.store he.bound).1]
  unfold runSynthetics
  split
  · rename_i hempty
    rw [List.isEmpty_iff.mp hempty]
    rfl
  · rfl

theorem settles_runSynthetics (he : e.WellFormed) :
    e.store.Settles (e.runSynthetics took).store
      (Synthetic.givenTo (Synthetic.evaluations e.synthetics e.store)) := by
  rw [store_runSynthetics]
  exact (Synthetic.generateAll_snd he.store he.bound).2

theorem takes_of_mem (he : e.WellFormed) {s' : Synthetic}
    (hs' : s' ∈ (e.runSynthetics took).synthetics) :
    ∃ i v, v.synthetic = s' ∧ Synthetic.Takes e.synthetics e.store i v := by
  rw [synthetics_runSynthetics took he] at hs'
  obtain ⟨v, hv, hs'⟩ := List.mem_map.mp hs'
  obtain ⟨i, hi⟩ := List.getElem?_of_mem hv
  exact ⟨i, v, hs', Synthetic.takes_evaluation he.store he.bound hi⟩

theorem moves_runSynthetics (he : e.WellFormed) : e.Moves (e.runSynthetics took) := by
  have hsettles := settles_runSynthetics took he
  have hsettings : (e.runSynthetics took).settings = e.settings := by
    unfold runSynthetics
    split <;> rfl
  have hstaff : ∀ kind, (e.runSynthetics took).staff kind = e.staff kind := by
    intro kind
    unfold runSynthetics
    split <;> rfl
  have hcrew : ∀ kind, (e.runSynthetics took).crew kind = e.crew kind := fun kind =>
    congrArg List.length (hstaff kind)
  constructor
  case toLeads =>
    refine ⟨⟨hsettles.wellFormed he.store, ?_, ?_, ?_⟩, hsettings, hstaff, hsettles.evolves⟩
    · intro kind
      rw [hstaff, hcrew]
      exact he.staffed kind
    · intro s' hs'
      obtain ⟨i, v, rfl, htakes⟩ := takes_of_mem took he hs'
      rw [store_runSynthetics]
      exact htakes.bound.evolves htakes.evolves
    · intro hne
      rw [hcrew]
      refine he.computing fun hempty => hne ?_
      rw [synthetics_runSynthetics took he, hempty]
      rfl
  case spares =>
    intro h r r' hr hr' _
    obtain ⟨later, hlater, hstays, -⟩ := hsettles.get hr
    rw [hr'] at hlater
    cases hlater
    exact hstays.valid
  case source =>
    intro s' hs' h hmem
    obtain ⟨i, v, rfl, htakes⟩ := takes_of_mem took he hs'
    obtain ⟨s, hs, hresolves⟩ := htakes.resolves
    rw [hsettles.isValid]
    exact (hresolves.source h hmem).imp_left fun hold => ⟨s, List.mem_of_getElem? hs, hold⟩

end Synthetics

section Collection

def collected (c : CollectionConfig) (r : Record) : Record :=
  if r.valid && expired c r.kind r then r.invalidate else r

theorem kind_collected (c : CollectionConfig) (r : Record) : (collected c r).kind = r.kind := by
  unfold collected
  split <;> rfl

theorem body_collected (c : CollectionConfig) (r : Record) : (collected c r).body = r.body := by
  unfold collected
  split <;> rfl

theorem collected_collected (c : CollectionConfig) (r : Record) :
    collected c (collected c r) = collected c r := by
  by_cases hgone : (r.valid && expired c r.kind r) = true
  · rw [collected.eq_1 c r, if_pos hgone]
    rfl
  · rw [collected.eq_1 c r, if_neg hgone, collected, if_neg hgone]

theorem collected_of_exempt (c : CollectionConfig) {r : Record} (hidle : r.idle = none) :
    collected c r = r := by
  simp [collected, expired, hidle]

theorem revises_collectKind (he : e.WellFormed) (kind : Kind) :
    e.store.Revises (e.collectKind kind).store fun _ r =>
      if r.kind = kind then collected e.settings.collection r else r := by
  refine (Store.revises_collect he.store kind _).congr fun k r _ => ?_
  unfold Record.expireIn collected
  by_cases hkind : r.kind = kind
  · simp [hkind]
  · simp [hkind]

theorem moves_collectKind (he : e.WellFormed) (kind : Kind) : e.Moves (e.collectKind kind) :=
  moves_of_revises he (revises_collectKind he kind)
    (fun k r _ hidle => by rw [collected_of_exempt _ hidle, ite_self])
    rfl (fun _ => rfl) rfl

theorem revises_collectKinds (he : e.WellFormed) (kinds : List Kind) :
    e.Moves (kinds.foldl collectKind e) ∧
      e.store.Revises (kinds.foldl collectKind e).store fun _ r =>
        if r.kind ∈ kinds then collected e.settings.collection r else r := by
  induction kinds generalizing e with
  | nil => exact ⟨.refl he, (Store.Revises.refl e.store).congr fun k r _ => by simp⟩
  | cons kind rest ih =>
    have hfirst := moves_collectKind he kind
    obtain ⟨hmoves, hrest⟩ := ih hfirst.wellFormed
    refine ⟨hfirst.trans hmoves, ((revises_collectKind he kind).trans hrest).congr fun k r _ => ?_⟩
    rw [hfirst.settings]
    by_cases hkind : r.kind = kind
    · simp [hkind, kind_collected, collected_collected]
    · simp [hkind]

theorem revises_collect (he : e.WellFormed) (took : Nat) :
    e.store.Revises (e.collect took).store fun _ r =>
      if e.settings.collection.enable then collected e.settings.collection r else r := by
  unfold collect
  by_cases henable : e.settings.collection.enable = true
  · rw [if_pos henable, store_measure]
    refine (revises_collectKinds he Kind.all).2.congr fun k r _ => ?_
    rw [if_pos henable, if_pos (Kind.mem_all r.kind)]
  · rw [if_neg henable]
    exact (Store.Revises.refl e.store).congr fun k r _ => by rw [if_neg henable]

theorem moves_collect (he : e.WellFormed) (took : Nat) : e.Moves (e.collect took) := by
  unfold collect
  split
  · have hkinds := (revises_collectKinds he Kind.all).1
    exact hkinds.trans (moves_measure hkinds.wellFormed _)
  · exact .refl he

end Collection

end Engine

end Rollup
