import Rollup.Proofs.Engine.Batches

/-! Where an adder worker stands in its tick. Its shard, and what it has written, are those of a
stage of the same tick in the sequential run, except for the points that have come in since. -/
namespace Rollup

namespace Shift

def Shows (s : Shift) (d : Engine) (h : Handle) : Prop :=
  s.engine.store.get? h = (d.store.get? h).map (Record.absorb s.pending)

section Shows

variable {e d d' : Engine} {s s' : Shift} {h : Handle}

theorem receives_eq (hd : e.Resembles d) {r : Record} (hr : d.store.get? h = some r) :
    r.receives = e.leadsTo h := by
  funext p
  rw [← Engine.leadsTo_of_face hd.face, Bool.eq_iff_iff, hd.wellFormed.store.receives_iff hr,
    Engine.leadsTo, beq_iff_eq]
  rfl

theorem absorb_congr (hd : e.Resembles d) {r : Record} (hr : d.store.get? h = some r)
    {ps qs : List Point} (hsame : ps.filter (e.leadsTo h) = qs.filter (e.leadsTo h)) :
    r.absorb ps = r.absorb qs := by
  refine Record.absorb_congr ?_
  rw [receives_eq hd hr]
  exact hsame

theorem Shows.map (hshows : s.Shows d h) {f g : Record → Record}
    (hget : s'.engine.store.get? h = (s.engine.store.get? h).map f)
    (hget' : d'.store.get? h = (d.store.get? h).map g)
    (hfg : ∀ r, d.store.get? h = some r → f (r.absorb s.pending) = (g r).absorb s'.pending) :
    s'.Shows d' h := by
  rw [Shows, hget, hget', hshows, Option.map_map, Option.map_map]
  cases hr : d.store.get? h with
  | none => rfl
  | some r => exact congrArg some (hfg r hr)

theorem Shows.later (hshows : s.Shows d h) (hd : e.Resembles d)
    (hget : s'.engine.store.get? h = s.engine.store.get? h)
    (hpending : s'.pending.filter (e.leadsTo h) = s.pending.filter (e.leadsTo h)) :
    s'.Shows d h :=
  hshows.map (f := fun r => r) (g := fun r => r) (by rw [hget, Option.map_id'])
    (by rw [Option.map_id']) fun _ hr => (absorb_congr hd hr hpending).symm

theorem Shows.point (hshows : s.Shows d h) {p : Point}
    (habsorbs : s.engine.store.Absorbs [p] s'.engine.store)
    (hpending : s'.pending = s.pending ++ [p]) : s'.Shows d h := by
  rw [Shows, habsorbs.get, hshows, Option.map_map, hpending]
  congr 1
  funext r
  exact (r.absorb_append s.pending [p]).symm

end Shows

/-- Where a worker stands in its tick, with the records of its shard that it has still to treat, and
those that it has reported. -/
inductive Post
  | fresh
  | taking (rest : List Handle)
  | taken
  | computed
  | reporting (before rest : List Handle)

/-- No generation ends before the worker has taken its shard. -/
def Even (s : Shift) (id : Nat) : Prop := ∀ g, s.session.generation = some g → g = s.done id

namespace Post

def Fits (t : Rhythm) (e : Engine) (s : Shift) (id : Nat) : Post → Prop
  | fresh => s.task id = none ∧ s.session.phases[id]? = some .idle ∧ s.Even id
  | taking rest => s.task id = some (.take (t.clock (s.done id)) rest) ∧
      s.session.phases[id]? = some .idle ∧ s.Even id ∧ rest <:+ e.shardOf id
  | taken => s.task id = none ∧ s.session.generation = some (s.done id) ∧
      (s.session.phases[id]? = some (.taken (t.clock (s.done id))) ∨
        s.session.phases[id]? = some (.held (t.clock (s.done id)) (s.done id)))
  | computed => s.task id = none ∧ s.session.generation = some (s.done id + 1) ∧
      (s.session.phases[id]? = some (.held (t.clock (s.done id)) (s.done id)) ∨
        s.session.phases[id]? = some (.freed (t.clock (s.done id)) true))
  | reporting before rest => s.task id = some (.report (t.clock (s.done id)) true rest) ∧
      e.shardOf id = before ++ rest ∧
      (s.session.generation = none ∧ s.session.phases[id]? = some .idle ∨
        s.session.generation = some (s.done id + 1) ∧
          s.session.phases[id]? = some (.freed (t.clock (s.done id)) true))

/-- The stage of the sequential run, in the tick with this number, that has the record of a
handle. -/
def source (t : Rhythm) (batch : Nat → List Point) (e : Engine) (g : Nat) (h : Handle) :
    Post → Engine
  | fresh => e.sequel t batch g
  | taking rest => if h ∈ rest then e.sequel t batch g else e.sequelTaken t batch g
  | taken => e.sequelTaken t batch g
  | computed => e.sequelComputed t batch g
  | reporting _ rest =>
    if h ∈ rest then e.sequelComputed t batch g else e.sequel t batch (g + 1)

def worker (t : Rhythm) (batch : Nat → List Point) (e : Engine) (g id : Nat) (post : Post) :
    Option Worker :=
  ((e.sequel t batch g).workers.get .adder)[id]?.map fun w => match post with
    | fresh => w
    | taking _ | taken | computed => w.start (t.clock g)
    | reporting before _ => before.foldl (Worker.note (Record.reportAdder e.settings (t.clock g))
        (e.sequelComputed t batch g).store) (w.start (t.clock g))

structure Holds (t : Rhythm) (batch : Nat → List Point) (e : Engine) (s : Shift) (id : Nat)
    (post : Post) : Prop where
  worker : (s.engine.workers.get .adder)[id]? = post.worker t batch e (s.done id) id
  records : ∀ h ∈ e.shardOf id, s.Shows (post.source t batch e (s.done id) h) h

section Fits

variable {t : Rhythm} {e : Engine} {s : Shift} {id nowMs : Nat} {post : Post}

theorem Fits.of_take {rest : List Handle} (hfits : post.Fits t e s id)
    (htask : s.task id = some (.take nowMs rest)) :
    post = .taking rest ∧ nowMs = t.clock (s.done id) ∧ s.session.phases[id]? = some .idle ∧
      s.Even id ∧ rest <:+ e.shardOf id := by
  cases post <;> simp_all [Fits]

theorem Fits.of_report {released : Bool} {rest : List Handle} (hfits : post.Fits t e s id)
    (htask : s.task id = some (.report nowMs released rest)) :
    nowMs = t.clock (s.done id) ∧ released = true ∧
      ∃ before, post = .reporting before rest := by
  cases post <;> simp_all [Fits]

theorem Fits.of_idle (hfits : post.Fits t e s id) (htask : s.task id = none)
    (hphase : s.session.phases[id]? = some .idle) : post = .fresh ∧ s.Even id := by
  cases post <;> simp_all [Fits]

theorem Fits.of_freed {released : Bool} (hfits : post.Fits t e s id) (htask : s.task id = none)
    (hphase : s.session.phases[id]? = some (.freed nowMs released)) :
    post = .computed ∧ nowMs = t.clock (s.done id) ∧ released = true ∧
      s.session.generation = some (s.done id + 1) := by
  cases post <;> simp_all [Fits]

theorem Fits.of_taken (hfits : post.Fits t e s id) (htask : s.task id = none)
    (hphase : s.session.phases[id]? = some (.taken nowMs)) :
    post = .taken ∧ nowMs = t.clock (s.done id) ∧ s.session.generation = some (s.done id) := by
  cases post <;> simp_all [Fits]

theorem Fits.of_held {ticket : Nat} (hfits : post.Fits t e s id)
    (hphase : s.session.phases[id]? = some (.held nowMs ticket)) :
    s.task id = none ∧ nowMs = t.clock (s.done id) ∧ ticket = s.done id ∧
      (post = .taken ∧ s.session.generation = some (s.done id) ∨
        post = .computed ∧ s.session.generation = some (s.done id + 1)) := by
  cases post <;> simp_all [Fits]

end Fits

section Holds

variable {t : Rhythm} {batch : Nat → List Point} {e : Engine} {s s' : Shift} {id nowMs : Nat}
  {post : Post}

theorem Holds.turn (h : post.Holds t batch e s id) {post' : Post} (hengine : s'.engine = s.engine)
    (hpending : s'.pending = s.pending) (hdone : s'.done id = s.done id)
    (hworker : post'.worker t batch e (s.done id) id = post.worker t batch e (s.done id) id)
    (hsource : ∀ k ∈ e.shardOf id, (post'.source t batch e (s.done id) k).store.get? k =
      (post.source t batch e (s.done id) k).store.get? k) : post'.Holds t batch e s' id where
  worker := by rw [hengine, hdone, hworker, h.worker]
  records k hk := by
    rw [Shows, hengine, hpending, hdone, hsource k hk]
    exact h.records k hk

theorem Holds.beginTake (h : fresh.Holds t batch e s id) :
    (taking (e.shardOf id)).Holds t batch e (s.beginTake (t.clock (s.done id)) id) id where
  worker := by
    have hworker : ((s.beginTake (t.clock (s.done id)) id).engine.workers.get .adder)[id]? =
        ((s.engine.workers.get .adder)[id]?).map (Worker.start (t.clock (s.done id))) :=
      (Engine.worker_startShard _ _ _ _).trans (if_pos rfl)
    rw [hworker, h.worker]
    exact Option.map_map _ _ _
  records k hk := by
    have hstore : (s.beginTake (t.clock (s.done id)) id).engine.store = s.engine.store :=
      Engine.store_startShard _ _ _
    have hshows := h.records k hk
    rw [Shows, hstore]
    simp only [source, if_pos hk] at hshows ⊢
    exact hshows

section Orderly

variable (horderly : Orderly e s)

include horderly

theorem get?_take (first : Handle) (rest : List Handle) (k : Handle) :
    (s.take nowMs id first rest).engine.store.get? k =
      if k = first then (s.engine.store.get? k).map (Record.takeAdder e.settings.predictLimit)
      else s.engine.store.get? k := by
  rw [← Engine.settings_of_face horderly.resembles.face]
  exact Store.get?_modify _ _ _ _

theorem pending_take (first : Handle) (rest : List Handle) :
    (s.take nowMs id first rest).pending = s.pending.filter fun p => !e.leadsTo first p := by
  rw [← Engine.leadsTo_of_face horderly.resembles.face]
  rfl

theorem get?_report (hid : id < e.crew .adder) (released : Bool) (next : Handle)
    (rest : List Handle) (k : Handle) :
    (s.report nowMs id released next rest).engine.store.get? k =
      if k = next then (s.engine.store.get? k).map fun r => (r.reportAdder e.settings nowMs).2
      else s.engine.store.get? k := by
  have hlt : id < (s.engine.workers.get .adder).length := by
    rwa [Engine.length_workers, Engine.crew_of_face horderly.resembles.face]
  rw [← Engine.settings_of_face horderly.resembles.face, ← Store.get?_modify,
    ← Engine.store_reportRecord _ (List.getElem?_eq_getElem hlt)]
  rfl

theorem worker_report (released : Bool) (next : Handle) (rest : List Handle) :
    ((s.report nowMs id released next rest).engine.workers.get .adder)[id]? =
      ((s.engine.workers.get .adder)[id]?).map fun w =>
        w.note (Record.reportAdder e.settings nowMs) s.engine.store next := by
  rw [← Engine.settings_of_face horderly.resembles.face]
  exact (Engine.worker_reportRecord _ _ _ _ _).trans (if_pos rfl)

end Orderly

theorem note_of_shows {d : Engine} {next : Handle} (hshows : s.Shows d next) (settings : Settings)
    (w : Worker) : w.note (Record.reportAdder settings nowMs) s.engine.store next =
      w.note (Record.reportAdder settings nowMs) d.store next := by
  refine Worker.note_congr ?_ w
  rw [hshows, Option.map_map]
  congr 1
  funext r
  exact r.report_absorb s.pending settings nowMs

section Sound

variable (he : e.WellFormed) (hbatch : ∀ g, ∀ p ∈ batch g, e.Welcomes p)

include he hbatch

theorem source_resembles (g : Nat) (h : Handle) (post : Post) :
    e.Resembles (post.source t batch e g h) := by
  have hsequel := Engine.sequel_resembles t batch he hbatch
  have htaken := Engine.sequelTaken_resembles t batch he hbatch g
  have hcomputed := Engine.sequelComputed_resembles t batch he hbatch g
  cases post with
  | fresh => exact hsequel g
  | taking rest =>
    simp only [source]
    split
    · exact hsequel g
    · exact htaken
  | taken => exact htaken
  | computed => exact hcomputed
  | reporting before rest =>
    simp only [source]
    split
    · exact hcomputed
    · exact hsequel (g + 1)

theorem Holds.later (h : post.Holds t batch e s id) (hdone : s'.done id = s.done id)
    (hworker : (s'.engine.workers.get .adder)[id]? = (s.engine.workers.get .adder)[id]?)
    (hrecord : ∀ k ∈ e.shardOf id, s'.engine.store.get? k = s.engine.store.get? k)
    (hpending : ∀ k ∈ e.shardOf id,
      s'.pending.filter (e.leadsTo k) = s.pending.filter (e.leadsTo k)) :
    post.Holds t batch e s' id where
  worker := by rw [hworker, hdone, h.worker]
  records k hk := by
    rw [hdone]
    exact (h.records k hk).later (source_resembles he hbatch _ k post) (hrecord k hk)
      (hpending k hk)

theorem Holds.take (horderly : Orderly e s) {first : Handle} {rest : List Handle}
    (h : (taking (first :: rest)).Holds t batch e s id) (hsuffix : first :: rest <:+ e.shardOf id)
    (hpoints : (batch (s.done id)).filter (e.leadsTo first) =
      s.pending.filter (e.leadsTo first)) :
    (taking rest).Holds t batch e (s.take nowMs id first rest) id where
  worker := h.worker
  records k hk := by
    have hresembles := Engine.sequel_resembles t batch he hbatch (s.done id)
    have hnot : first ∉ rest := by
      have hnodup := (Engine.nodup_shardOf he id).sublist hsuffix.sublist
      exact (List.nodup_cons.mp hnodup).1
    have hpending : (s.take nowMs id first rest).pending =
        s.pending.filter fun p => !e.leadsTo first p := pending_take horderly first rest
    have hstore : (s.take nowMs id first rest).engine.store.get? k = _ :=
      get?_take horderly first rest k
    have hshows := h.records k hk
    change Shows _ (source t batch e (s.done id) k (taking rest)) k
    simp only [source] at hshows ⊢
    by_cases hk' : k = first
    · subst hk'
      rw [if_pos List.mem_cons_self] at hshows
      rw [if_neg hnot]
      rw [if_pos rfl] at hstore
      refine hshows.map hstore (Engine.get?_sequelTaken t batch he hbatch _ k) fun r hr => ?_
      have hcovers : e.covers .adder r = true := (hresembles.covers_iff hr).mpr ⟨id, hk⟩
      have hnone : ∀ p ∈ (s.take nowMs id k rest).pending,
          ((r.absorb (batch (s.done id))).takeAdder e.settings.predictLimit).receives p = false := by
        intro p hp
        rw [hpending, List.mem_filter] at hp
        rw [((r.stays_absorb _).trans (Record.stays_takeAdder _ _)).receives,
          receives_eq hresembles hr]
        simpa using hp.2
      rw [if_pos hcovers, Record.absorb_of_none hnone, absorb_congr hresembles hr hpoints]
    · have hmem : k ∈ first :: rest ↔ k ∈ rest := by simp [hk']
      rw [if_neg hk'] at hstore
      simp only [hmem] at hshows
      refine hshows.later (source_resembles he hbatch (s.done id) k (taking rest)) hstore ?_
      rw [hpending]
      exact (filter_leadsTo hk' _).2

theorem Holds.report (horderly : Orderly e s) (hid : id < e.crew .adder) {before rest : List Handle}
    {next : Handle} (h : (reporting before (next :: rest)).Holds t batch e s id)
    (hshard : e.shardOf id = before ++ next :: rest) :
    (reporting (before ++ [next]) rest).Holds t batch e
      (s.report (t.clock (s.done id)) id true next rest) id := by
  have hresembles := Engine.sequelComputed_resembles t batch he hbatch (s.done id)
  have hmem : next ∈ e.shardOf id := by simp [hshard]
  have hnot : next ∉ rest := by
    have hnodup := Engine.nodup_shardOf he id
    rw [hshard] at hnodup
    exact (List.nodup_cons.mp (List.nodup_append.mp hnodup).2.1).1
  -- The worker finds what it would find in the sequential run.
  have hnext := h.records next hmem
  simp only [source, List.mem_cons_self, if_true] at hnext
  constructor
  case worker =>
    rw [worker_report horderly, h.worker]
    simp only [Post.worker, Option.map_map, Function.comp_def, note_of_shows hnext,
      List.foldl_append, List.foldl_cons, List.foldl_nil]
    rfl
  case records =>
    intro k hk
    have hshows := h.records k hk
    have hstore : (s.report (t.clock (s.done id)) id true next rest).engine.store.get? k = _ :=
      get?_report horderly hid true next rest k
    change Shows _ (source t batch e (s.done id) k (reporting (before ++ [next]) rest)) k
    simp only [source] at hshows ⊢
    by_cases hk' : k = next
    · subst hk'
      rw [if_neg hnot]
      rw [if_pos rfl] at hstore
      refine hnext.map hstore (Engine.get?_sequel_succ t batch he hbatch _ k) fun r hr => ?_
      have hcovers : e.covers .adder r = true := (hresembles.covers_iff hr).mpr ⟨id, hk⟩
      rw [if_pos hcovers]
      exact r.reportAdder_absorb s.pending _ _
    · have hrest : k ∈ next :: rest ↔ k ∈ rest := by simp [hk']
      rw [if_neg hk'] at hstore
      simp only [hrest] at hshows
      exact hshows.later (source_resembles he hbatch (s.done id) k (reporting before rest)) hstore
        rfl

theorem Holds.endReport (horderly : Orderly e s) (hid : id < e.crew .adder) {before : List Handle}
    (h : (reporting before []).Holds t batch e s id) (hshard : e.shardOf id = before) :
    fresh.Holds t batch e
      (s.endReport (t.took (s.done id) (.worker .adder id)) id true) id := by
  have hdone : (s.endReport (t.took (s.done id) (.worker .adder id)) id true).done id =
      s.done id + 1 := if_pos rfl
  constructor
  case worker =>
    have hworker : ((s.endReport (t.took (s.done id) (.worker .adder id)) id true).engine.workers.get
        .adder)[id]? = ((s.engine.workers.get .adder)[id]?).map
          (Worker.finish e.settings (t.took (s.done id) (.worker .adder id))) := by
      rw [← Engine.settings_of_face horderly.resembles.face]
      exact (Engine.worker_finishShard _ _ _ _).trans (if_pos rfl)
    have hsequel := Engine.sequel_resembles t batch he hbatch (s.done id)
    have hlt : id < ((e.sequel t batch (s.done id)).workers.get .adder).length := by
      rwa [Engine.length_workers, Engine.crew_of_face hsequel.face]
    have hw := List.getElem?_eq_getElem hlt
    rw [hworker, h.worker, hdone]
    simp only [Post.worker, hw, Engine.worker_sequel_succ t batch he hbatch _ hw, Option.map_some,
      hshard]
  case records =>
    intro k hk
    have hstore : (s.endReport (t.took (s.done id) (.worker .adder id)) id true).engine.store =
        s.engine.store := Engine.store_finishShard _ _ _ _
    have hshows := h.records k hk
    rw [Shows, hstore, hdone]
    simp only [source, List.not_mem_nil, if_false] at hshows ⊢
    exact hshows

theorem get?_sequelTaken_of_not_mem
    (hown : ∀ g, ∀ p ∈ batch g, ∃ id, ∃ h ∈ e.shardOf id, e.leadsTo h p = true) (g : Nat)
    {k : Handle} (hk : ∀ id, k ∉ e.shardOf id) :
    (e.sequelTaken t batch g).store.get? k = (e.sequel t batch g).store.get? k := by
  have hresembles := Engine.sequel_resembles t batch he hbatch g
  rw [Engine.get?_sequelTaken t batch he hbatch]
  cases hr : (e.sequel t batch g).store.get? k with
  | none => rfl
  | some r =>
    have hcovers : ¬ e.covers .adder r = true := fun hcovers =>
      (not_exists.mpr hk) ((hresembles.covers_iff hr).mp hcovers)
    have hnone : ∀ p ∈ batch g, r.receives p = false := by
      intro p hp
      obtain ⟨id, h, hh, hleads⟩ := hown g p hp
      rw [receives_eq hresembles hr, Engine.leadsTo, beq_eq_false_iff_ne]
      rw [Engine.leadsTo, beq_iff_eq] at hleads
      rw [hleads, Ne, Option.some.injEq]
      rintro rfl
      exact hk id hh
    rw [Option.map_some, if_neg hcovers, Record.absorb_of_none hnone]

theorem get?_sequel_succ_of_not_mem (g : Nat) {k : Handle} (hk : ∀ id, k ∉ e.shardOf id) :
    (e.sequel t batch (g + 1)).store.get? k = (e.sequelComputed t batch g).store.get? k := by
  have hresembles := Engine.sequelComputed_resembles t batch he hbatch g
  rw [Engine.get?_sequel_succ t batch he hbatch]
  cases hr : (e.sequelComputed t batch g).store.get? k with
  | none => rfl
  | some r =>
    have hcovers : ¬ e.covers .adder r = true := fun hcovers =>
      (not_exists.mpr hk) ((hresembles.covers_iff hr).mp hcovers)
    rw [Option.map_some, if_neg hcovers]

/-- Synthetic adders do not see the points that have come in since. -/
theorem shows_runSynthetics (horderly : Orderly e s) {g : Nat} (took : Nat)
    (hshows : ∀ k, s.Shows (e.sequelTaken t batch g) k)
    (hsynthetics : s.engine.synthetics = (e.sequel t batch g).synthetics) :
    (s.engine.runSynthetics took).synthetics = (e.sequel t batch (g + 1)).synthetics ∧
      ∀ k, (s.engine.runSynthetics took).store.get? k =
        ((e.sequelComputed t batch g).store.get? k).map (Record.absorb s.pending) := by
  have htaken := Engine.sequelTaken_resembles t batch he hbatch g
  have hgenerated := Engine.generateAll_sequelTaken t batch he hbatch g
  have hface := Engine.store_of_face (horderly.resembles.face.trans htaken.face.symm)
  have habsorbs : (e.sequelTaken t batch g).store.Absorbs s.pending s.engine.store :=
    ⟨congrArg Prod.fst hface, hshows⟩
  obtain ⟨hsame, hstores⟩ :=
    (Synthetic.indistinct_absorbs s.pending).generateAll habsorbs s.engine.synthetics
  rw [← hsynthetics, Prod.ext_iff] at hgenerated
  rw [Engine.synthetics_generateAll, Engine.store_runSynthetics, hsame, hgenerated.1]
  rw [hgenerated.2] at hstores
  exact ⟨rfl, hstores.get⟩

end Sound

end Holds

end Post

end Shift

end Rollup
