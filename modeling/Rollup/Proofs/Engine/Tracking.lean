import Rollup.Proofs.Engine.Sent

/-! Stages of the sequential run in a shift. At every moment each adder worker is at a stage of its
own tick. The fence lets one worker run ahead of another, but no further than to report its shard
and to swap it for the next tick. -/
namespace Rollup

namespace Shift

/-- A shift is at stages of the sequential run: every worker at its own one, in its own tick, and
what no worker has as after the last computation. -/
structure Tracks (t : Rhythm) (batch : Nat → List Point) (e : Engine) (s : Shift) : Prop where
  crew : s.session.phases.length = e.crew .adder
  absent : ∀ id, e.crew .adder ≤ id → s.task id = none
  fence : s.session.generation = none ∧ e.synthetics = [] ∨
    0 < e.crew .adder ∧ s.session.Manned (e.crew .adder)
  synthetics : s.engine.synthetics =
    (e.sequel t batch (s.session.generation.getD 0)).synthetics
  others : ∀ h, (∀ id, h ∉ e.shardOf id) →
    s.Shows (e.sequel t batch (s.session.generation.getD 0)) h
  posts : ∀ id < e.crew .adder, ∃ post : Post, post.Fits t e s id ∧ post.Holds t batch e s id
  sent : ∀ g, (s.sent g).Perm ((List.range (e.crew .adder)).flatMap (s.credit t batch e g))

structure Aside (e : Engine) (id : Nat) (s s' : Shift) : Prop where
  generation : s'.session.generation = s.session.generation
  crew : s'.session.phases.length = s.session.phases.length
  synthetics : s'.engine.synthetics = s.engine.synthetics
  task : ∀ other, other ≠ id → s'.task other = s.task other
  done : ∀ other, other ≠ id → s'.done other = s.done other
  phase : ∀ other, other ≠ id → s'.session.phases[other]? = s.session.phases[other]?
  worker : ∀ other, other ≠ id →
    (s'.engine.workers.get .adder)[other]? = (s.engine.workers.get .adder)[other]?
  record : ∀ h, h ∉ e.shardOf id → s'.engine.store.get? h = s.engine.store.get? h
  pending : ∀ h, h ∉ e.shardOf id →
    s'.pending.filter (e.leadsTo h) = s.pending.filter (e.leadsTo h)
  buffers : s.engine.buffers id <+: s'.engine.buffers id
  sent : ∀ g, s'.sent g = s.sent g ++
    if g = s.done id then s'.engine.buffersSince id s.engine else []

theorem aside_of_engine {e : Engine} {s s' : Shift} {id : Nat} (hengine : s'.engine = s.engine)
    (hgeneration : s'.session.generation = s.session.generation)
    (hcrew : s'.session.phases.length = s.session.phases.length)
    (hphase : ∀ other, other ≠ id → s'.session.phases[other]? = s.session.phases[other]?)
    (htask : ∀ other, other ≠ id → s'.task other = s.task other) (hdone : s'.done = s.done)
    (hpending : s'.pending = s.pending) (hsent : s'.sent = s.sent) : Aside e id s s' where
  generation := hgeneration
  crew := hcrew
  synthetics := by rw [hengine]
  task := htask
  done := fun _ _ => by rw [hdone]
  phase := hphase
  worker := fun _ _ => by rw [hengine]
  record := fun _ _ => by rw [hengine]
  pending := fun _ _ => by rw [hpending]
  buffers := by rw [hengine]
  sent := sent_of_same hsent (by rw [hengine])

theorem Post.Fits.congr {t : Rhythm} {e : Engine} {s s' : Shift} {id : Nat} {post : Post}
    (h : post.Fits t e s id) (htask : s'.task id = s.task id) (hdone : s'.done id = s.done id)
    (hphase : s'.session.phases[id]? = s.session.phases[id]?)
    (hgeneration : s'.session.generation = s.session.generation) : post.Fits t e s' id := by
  cases post <;> simpa only [Fits, Even, htask, hdone, hphase, hgeneration] using h

section Tracks

variable {t : Rhythm} {batch : Nat → List Point} {e : Engine} {s s' : Shift} {id nowMs : Nat}
  (he : e.WellFormed) (hserves : Serves batch e)

theorem Tracks.point (h : Tracks t batch e s) (horderly : Orderly e s) (p : Point) :
    Tracks t batch e (s.point p) := by
  rcases point_cases horderly p with hsame | ⟨-, k, hleads, hpoint⟩
  · rw [hsame]
    exact h
  · rw [hpoint]
    have hlocate : s.engine.store.locate p.kind p.path = some k := by
      rw [← Engine.leadsTo_of_face horderly.resembles.face, Engine.leadsTo, beq_iff_eq] at hleads
      exact hleads
    have habsorbs := Store.Absorbs.point horderly.resembles.wellFormed.store hlocate
    refine ⟨h.crew, h.absent, h.fence.imp_right (.imp_right (·.same rfl rfl)), h.synthetics,
      fun k hk => (h.others k hk).point habsorbs rfl, fun id hid => ?_, h.sent⟩
    obtain ⟨post, hfits, hholds⟩ := h.posts id hid
    exact ⟨post, hfits, hholds.worker, fun k hk => (hholds.records k hk).point habsorbs rfl⟩

theorem Tracks.held (h : Tracks t batch e s) {g : Nat} (hid : id < e.crew .adder)
    (hgeneration : s.session.generation = some g)
    (hheld : ∃ now, s.session.phases[id]? = some (.held now g)) :
    s.done id = g ∧ s.task id = none ∧ s.session.phases[id]? = some (.held (t.clock g) g) ∧
      Post.taken.Holds t batch e s id := by
  obtain ⟨post, hfits, hholds⟩ := h.posts id hid
  obtain ⟨now, hphase⟩ := hheld
  obtain ⟨htask, rfl, rfl, hcase⟩ := hfits.of_held hphase
  rcases hcase with ⟨rfl, -⟩ | ⟨-, hended⟩
  · exact ⟨rfl, htask, hphase, hholds⟩
  · rw [hgeneration, Option.some.injEq] at hended
    omega

include he hserves

theorem Tracks.aside (h : Tracks t batch e s) (hid : id < e.crew .adder) (haside : Aside e id s s')
    (hmanned : s.session.Manned (e.crew .adder) → s'.session.Manned (e.crew .adder))
    (hpost : ∃ post : Post, post.Fits t e s' id ∧ post.Holds t batch e s' id)
    (hdone : s'.done id = s.done id ∨ s'.done id = s.done id + 1 ∧
      Post.fresh.Holds t batch e s' id) : Tracks t batch e s' where
  crew := haside.crew.trans h.crew
  absent other hother := by
    rw [haside.task other (by omega)]
    exact h.absent other hother
  fence := by
    rw [haside.generation]
    exact h.fence.imp_right fun ⟨hpos, hsession⟩ => ⟨hpos, hmanned hsession⟩
  synthetics := by rw [haside.synthetics, haside.generation, h.synthetics]
  others k hk := by
    rw [haside.generation]
    exact (h.others k hk).later (Engine.sequel_resembles t batch he hserves.welcomes _)
      (haside.record k (hk id)) (haside.pending k (hk id))
  posts other hother := by
    by_cases hsame : other = id
    · exact hsame ▸ hpost
    · obtain ⟨post, hfits, hholds⟩ := h.posts other hother
      have hapart : ∀ k ∈ e.shardOf other, k ∉ e.shardOf id := fun k hk hk' =>
        hsame (Engine.shardOf_unique he hk hk')
      exact ⟨post, hfits.congr (haside.task other hsame) (haside.done other hsame)
        (haside.phase other hsame) haside.generation,
        hholds.later he hserves.welcomes (haside.done other hsame) (haside.worker other hsame)
          (fun k hk => haside.record k (hapart k hk)) fun k hk => haside.pending k (hapart k hk)⟩
  sent g := by
    obtain ⟨post, -, hholds⟩ := h.posts id hid
    rw [haside.sent]
    refine ((h.sent g).append_right _).trans (List.Perm.symm ?_)
    refine perm_flatMap_append hid
      (fun other hother => credit_congr (haside.done other hother) (haside.worker other hother) g)
      (credit_later hholds.buffers haside.buffers (hdone.imp_right ?_) g)
    rintro ⟨hnext, hfresh⟩
    have hworker := hfresh.worker
    rw [hnext] at hworker
    refine ⟨hnext, ?_⟩
    rw [Engine.buffers_eq, Engine.buffers_eq, hworker, Post.worker, Option.map_id']

theorem Tracks.beginTake (h : Tracks t batch e s) (horderly : Orderly e s)
    (hid : id < e.crew .adder) (htask : s.task id = none)
    (hphase : s.session.phases[id]? = some .idle) :
    Tracks t batch e (s.beginTake (t.clock (s.done id)) id) := by
  obtain ⟨post, hfits, hholds⟩ := h.posts id hid
  obtain ⟨rfl, heven⟩ := hfits.of_idle htask hphase
  have hworker := Engine.worker_startShard (t.clock (s.done id)) id s.engine
  have hbuffers : (s.beginTake (t.clock (s.done id)) id).engine.buffers id =
      s.engine.buffers id := by
    refine (congrArg (Option.elim · [] fun w => w.buffer.sent)
      ((hworker id).trans (if_pos rfl))).trans ?_
    rw [Engine.buffers_eq, Option.elim_map]
    rfl
  have hfits' : (Post.taking (e.shardOf id)).Fits t e
      (s.beginTake (t.clock (s.done id)) id) id := by
    refine ⟨?_, hphase, heven, List.suffix_rfl⟩
    rw [← Engine.shardOf_of_face horderly.resembles.face]
    exact if_pos rfl
  exact h.aside he hserves hid {
    generation := rfl
    crew := rfl
    synthetics := Engine.synthetics_startShard _ _ s.engine
    task := fun other hother => if_neg hother
    done := fun _ _ => rfl
    phase := fun _ _ => rfl
    worker := fun other hother => (hworker other).trans (if_neg hother)
    record := fun k _ => congrArg (·.get? k) (Engine.store_startShard _ _ s.engine)
    pending := fun _ _ => rfl
    buffers := hbuffers ▸ List.prefix_rfl
    sent := sent_of_same rfl hbuffers
  } (fun hsession => hsession.same rfl rfl) ⟨_, hfits', hholds.beginTake⟩ (.inl rfl)

theorem Tracks.take (h : Tracks t batch e s) (horderly : Orderly e s)
    (hid : id < e.crew .adder) {first : Handle} {rest : List Handle}
    (htask : s.task id = some (.take nowMs (first :: rest)))
    (hagrees : Agrees batch e (s.take nowMs id first rest)) :
    Tracks t batch e (s.take nowMs id first rest) := by
  obtain ⟨post, hfits, hholds⟩ := h.posts id hid
  obtain ⟨rfl, rfl, hphase, heven, hsuffix⟩ := hfits.of_take htask
  have hown : first ∈ e.shardOf id := hsuffix.subset List.mem_cons_self
  have hnot : first ∉ rest := by
    have hnodup := (Engine.nodup_shardOf he id).sublist hsuffix.sublist
    exact (List.nodup_cons.mp hnodup).1
  have hleads := Engine.leadsTo_of_face horderly.resembles.face first
  have hpoints := hagrees.of_take horderly htask hown hnot
  have hpending : (s.take (t.clock (s.done id)) id first rest).pending =
      s.pending.filter fun p => !e.leadsTo first p := by
    rw [← hleads]
    rfl
  have hother : ∀ {k}, k ∉ e.shardOf id → k ≠ first := fun hk heq => hk (heq ▸ hown)
  exact h.aside he hserves hid {
    generation := rfl
    crew := rfl
    synthetics := rfl
    task := fun other hother => if_neg hother
    done := fun _ _ => rfl
    phase := fun _ _ => rfl
    worker := fun _ _ => rfl
    record := fun k hk => (Store.get?_modify _ _ _ _).trans (if_neg (hother hk))
    pending := fun k hk => hpending ▸ (filter_leadsTo (hother hk) _).2
    buffers := List.prefix_rfl
    sent := sent_of_same rfl rfl
  } (fun hsession => hsession.same rfl rfl)
    ⟨.taking rest, ⟨if_pos rfl, hphase, heven, (List.suffix_cons first rest).trans hsuffix⟩,
      hholds.take he hserves.welcomes horderly hsuffix hpoints⟩ (.inl rfl)

theorem Tracks.endTake (h : Tracks t batch e s) (horderly : Orderly e s)
    (hid : id < e.crew .adder) (htask : s.task id = some (.take nowMs [])) :
    Tracks t batch e (s.endTake nowMs id) := by
  obtain ⟨post, hfits, hholds⟩ := h.posts id hid
  obtain ⟨rfl, rfl, hphase, heven, -⟩ := hfits.of_take htask
  unfold Shift.endTake
  split
  · rename_i fence hfence
    have hgeneration : s.session.generation = some fence.generation := by
      rw [Session.generation, hfence]
      rfl
    have hphases := Session.phases_setPhase s.session id (.taken (t.clock (s.done id)))
    refine h.aside he hserves hid (aside_of_engine rfl rfl (List.length_set ..)
      (fun other hother => (hphases other).trans (if_neg hother))
      (fun other hother => if_neg hother) rfl rfl rfl)
      (fun hsession => hsession.away hphase _ rfl rfl rfl rfl)
      ⟨.taken, ⟨if_pos rfl, heven _ hgeneration ▸ hgeneration, .inl ?_⟩,
        hholds.turn rfl rfl rfl rfl fun k _ => ?_⟩ (.inl rfl)
    · refine (hphases id).trans ?_
      rw [if_pos rfl, hphase]
      rfl
    · simp [Post.source]
  · rename_i hfence
    have hgeneration : s.session.generation = none := by
      rw [Session.generation, hfence]
      rfl
    have hnone : e.synthetics = [] := by
      rcases h.fence with ⟨-, hnone⟩ | ⟨-, g, hattends, -⟩
      · exact hnone
      · rw [hattends.generation] at hgeneration
        cases hgeneration
    have hshard := Engine.shardOf_of_face horderly.resembles.face id
    refine h.aside he hserves hid (aside_of_engine rfl rfl rfl (fun _ _ => rfl)
      (fun other hother => if_neg hother) rfl rfl rfl) (fun hsession => hsession.same rfl rfl)
      ⟨.reporting [] (e.shardOf id), ⟨hshard ▸ if_pos rfl, rfl, .inl ⟨hgeneration, hphase⟩⟩,
        hholds.turn rfl rfl rfl rfl fun k hk => ?_⟩ (.inl rfl)
    simp only [Post.source, if_pos hk, List.not_mem_nil, if_false]
    rw [Engine.store_sequelComputed t batch he hserves.welcomes _ hnone]

theorem Tracks.wait (h : Tracks t batch e s) (hid : id < e.crew .adder)
    (htask : s.task id = none) (hidle : s.session.phases[id]? ≠ some .idle)
    (hfreed : ∀ now released, s.session.phases[id]? ≠ some (.freed now released)) :
    Tracks t batch e { s with session := s.session.stepAdder 0 0 id } := by
  obtain ⟨post, hfits, hholds⟩ := h.posts id hid
  obtain ⟨hengine, -, hothers⟩ := Session.stepAdder_waiting 0 0 hidle hfreed
  have hmanned : ∀ {g}, s.session.generation = some g → s.session.Manned (e.crew .adder) := by
    intro g hgeneration
    rcases h.fence with ⟨hnone, -⟩ | ⟨-, hsession⟩
    · rw [hgeneration] at hnone
      cases hnone
    · exact hsession
  cases hphase : s.session.phases[id]? with
  | none =>
    have hout := List.getElem?_eq_none_iff.mp hphase
    have hcrew := h.crew
    omega
  | some phase =>
    cases phase with
    | idle => exact absurd hphase hidle
    | freed now released => exact absurd hphase (hfreed now released)
    | stopped => cases post <;> simp_all [Post.Fits]
    | taken now =>
      obtain ⟨rfl, rfl, hgeneration⟩ := hfits.of_taken htask hphase
      obtain ⟨hsession, hgeneration', -, hphases⟩ :=
        (hmanned hgeneration).arrive hphase hgeneration
      have hstep : s.session.stepAdder 0 0 id = s.session.arrive (t.clock (s.done id)) id := by
        simp only [Session.stepAdder, hphase]
      rw [hstep] at hengine hothers ⊢
      have hcrew := (congrArg List.length hphases).trans (List.length_set ..)
      refine h.aside he hserves hid (aside_of_engine hengine
        (hgeneration'.trans hgeneration.symm) hcrew hothers (fun _ _ => rfl) rfl rfl rfl)
        (fun _ => hsession) ⟨.taken, ⟨htask, hgeneration', .inr ?_⟩,
          hholds.turn hengine rfl rfl rfl fun _ _ => rfl⟩ (.inl rfl)
      refine (congrArg (·[id]?) hphases).trans (List.getElem?_set_self ?_)
      exact (List.getElem?_eq_some_iff.mp hphase).1
    | held now ticket =>
      obtain ⟨-, rfl, rfl, hcase⟩ := hfits.of_held hphase
      have hstep : s.session.stepAdder 0 0 id =
          s.session.leave (t.clock (s.done id)) (s.done id) id := by
        simp only [Session.stepAdder, hphase]
      rw [hstep] at hengine hothers ⊢
      rcases hcase with ⟨rfl, hgeneration⟩ | ⟨rfl, hgeneration⟩
      · -- The generation goes on, and the worker waits.
        rw [((hmanned hgeneration).leave hphase hgeneration).2, if_pos rfl]
        exact h
      · obtain ⟨hsession, hleave⟩ := (hmanned hgeneration).leave hphase hgeneration
        rw [if_neg (Nat.succ_ne_self _)] at hleave
        rw [hleave] at hsession hengine hothers ⊢
        refine h.aside he hserves hid (aside_of_engine hengine rfl (List.length_set ..) hothers
          (fun _ _ => rfl) rfl rfl rfl) (fun _ => hsession)
          ⟨.computed, ⟨htask, hgeneration, .inr ?_⟩,
            hholds.turn hengine rfl rfl rfl fun _ _ => rfl⟩ (.inl rfl)
        exact List.getElem?_set_self (List.getElem?_eq_some_iff.mp hphase).1

theorem Tracks.beginReport (h : Tracks t batch e s) (horderly : Orderly e s)
    (hid : id < e.crew .adder) (htask : s.task id = none) {released : Bool}
    (hphase : s.session.phases[id]? = some (.freed nowMs released)) :
    Tracks t batch e (s.beginReport nowMs id released) := by
  obtain ⟨post, hfits, hholds⟩ := h.posts id hid
  obtain ⟨rfl, rfl, rfl, hgeneration⟩ := hfits.of_freed htask hphase
  have hshard := Engine.shardOf_of_face horderly.resembles.face id
  refine h.aside he hserves hid (aside_of_engine rfl rfl rfl (fun _ _ => rfl)
    (fun other hother => if_neg hother) rfl rfl rfl) (fun hsession => hsession.same rfl rfl)
    ⟨.reporting [] (e.shardOf id), ⟨hshard ▸ if_pos rfl, rfl, .inr ⟨hgeneration, hphase⟩⟩,
      hholds.turn rfl rfl rfl rfl fun k hk => ?_⟩ (.inl rfl)
  simp only [Post.source, if_pos hk]

theorem Tracks.report (h : Tracks t batch e s) (horderly : Orderly e s)
    (hid : id < e.crew .adder) {released : Bool} {next : Handle} {rest : List Handle}
    (htask : s.task id = some (.report nowMs released (next :: rest))) :
    Tracks t batch e (s.report nowMs id released next rest) := by
  obtain ⟨post, hfits, hholds⟩ := h.posts id hid
  obtain ⟨rfl, rfl, before, rfl⟩ := hfits.of_report htask
  obtain ⟨-, hshard, hphase⟩ := hfits
  have hworker := Engine.worker_reportRecord (t.clock (s.done id)) id s.engine
  have hother : ∀ {k}, k ∉ e.shardOf id → k ≠ next := fun hk heq => hk (by simp [heq, hshard])
  refine h.aside he hserves hid {
    generation := rfl
    crew := rfl
    synthetics := Engine.synthetics_reportRecord _ _ next s.engine
    task := fun other hother => if_neg hother
    done := fun _ _ => rfl
    phase := fun _ _ => rfl
    worker := fun other hother => (hworker other next).trans (if_neg hother)
    record := fun k hk =>
      (Post.get?_report horderly hid true next rest k).trans (if_neg (hother hk))
    pending := fun _ _ => rfl
    buffers := Engine.buffers_of_worker ((hworker id next).trans (if_pos rfl)) fun w =>
      Worker.sent_note _ _ w next
    sent := sent_write id _ s
  } (fun hsession => hsession.same rfl rfl)
    ⟨.reporting (before ++ [next]) rest, ⟨if_pos rfl, ?_, hphase⟩,
      hholds.report he hserves.welcomes horderly hid hshard⟩ (.inl rfl)
  rw [hshard, List.append_assoc]
  rfl

theorem Tracks.endReport (h : Tracks t batch e s) (horderly : Orderly e s)
    (hid : id < e.crew .adder) {released : Bool}
    (htask : s.task id = some (.report nowMs released [])) :
    Tracks t batch e (s.endReport (t.took (s.done id) (.worker .adder id)) id released) := by
  obtain ⟨post, hfits, hholds⟩ := h.posts id hid
  obtain ⟨rfl, rfl, before, rfl⟩ := hfits.of_report htask
  obtain ⟨-, hshard, hphase⟩ := hfits
  rw [List.append_nil] at hshard
  have hworker := Engine.worker_finishShard id s.engine
  have hphases := Session.phases_setPhase s.session id .idle
  have hfresh := hholds.endReport he hserves.welcomes horderly hid hshard
  have hold : ∃ old, s.session.phases[id]? = some old ∧ old.ticket? = none :=
    hphase.elim (fun ⟨_, hidle⟩ => ⟨_, hidle, rfl⟩) fun ⟨_, hfreed⟩ => ⟨_, hfreed, rfl⟩
  obtain ⟨old, hold, hticket⟩ := hold
  refine h.aside he hserves hid {
    generation := rfl
    crew := List.length_set ..
    synthetics := Engine.synthetics_finishShard _ _ s.engine
    task := fun other hother => if_neg hother
    done := fun other hother => if_neg hother
    phase := fun other hother => (hphases other).trans (if_neg hother)
    worker := fun other hother => (hworker other _).trans (if_neg hother)
    record := fun k _ => congrArg (·.get? k) (Engine.store_finishShard _ _ _ _)
    pending := fun _ _ => rfl
    buffers := Engine.buffers_of_worker ((hworker id _).trans (if_pos rfl)) fun w =>
      Worker.sent_finish _ _ w
    sent := sent_write id _ s
  } (fun hsession => hsession.away hold .idle hticket rfl rfl rfl)
    ⟨.fresh, ⟨if_pos rfl, ?_, ?_⟩, hfresh⟩ (.inr ⟨if_pos rfl, hfresh⟩)
  · refine (hphases id).trans ?_
    rw [if_pos rfl, hold]
    rfl
  · intro g hgeneration
    change s.session.generation = some g at hgeneration
    have hdone : (s.endReport (t.took (s.done id) (.worker .adder id)) id true).done id =
        s.done id + 1 := if_pos rfl
    rcases hphase with ⟨hnone, -⟩ | ⟨hended, -⟩
    · rw [hnone] at hgeneration
      cases hgeneration
    · rw [hdone]
      exact Option.some.inj (hgeneration.symm.trans hended)

theorem Tracks.work (h : Tracks t batch e s) (horderly : Orderly e s) (id : Nat)
    (hagrees : Agrees batch e (s.work t id)) : Tracks t batch e (s.work t id) := by
  by_cases hid : id < e.crew .adder
  · cases htask : s.task id with
    | some task =>
      rcases task with ⟨nowMs, _ | ⟨first, rest⟩⟩ | ⟨nowMs, released, _ | ⟨next, rest⟩⟩
      · have hwork : s.work t id = s.endTake nowMs id := by rw [Shift.work, htask]
        rw [hwork]
        exact h.endTake he hserves horderly hid htask
      · have hwork : s.work t id = s.take nowMs id first rest := by rw [Shift.work, htask]
        rw [hwork] at hagrees ⊢
        exact h.take he hserves horderly hid htask hagrees
      · have hwork : s.work t id =
            s.endReport (t.took (s.done id) (.worker .adder id)) id released := by
          rw [Shift.work, htask]
        rw [hwork]
        exact h.endReport he hserves horderly hid htask
      · have hwork : s.work t id = s.report nowMs id released next rest := by
          rw [Shift.work, htask]
        rw [hwork]
        exact h.report he hserves horderly hid htask
    | none =>
      by_cases hidle : s.session.phases[id]? = some .idle
      · rw [work_idle t htask hidle]
        exact h.beginTake he hserves horderly hid htask hidle
      · by_cases hfreed : ∃ now released, s.session.phases[id]? = some (.freed now released)
        · obtain ⟨now, released, hphase⟩ := hfreed
          rw [work_freed t htask hphase]
          exact h.beginReport he hserves horderly hid htask hphase
        · have hfreed : ∀ now released, s.session.phases[id]? ≠ some (.freed now released) :=
            fun now released hphase => hfreed ⟨now, released, hphase⟩
          have hwork : s.work t id = { s with session := s.session.stepAdder 0 0 id } := by
            rw [Shift.work, htask]
            split <;> simp_all
          rw [hwork]
          exact h.wait he hserves hid htask hidle hfreed
  · -- There is no such worker.
    have hphase : s.session.phases[id]? = none :=
      List.getElem?_eq_none (by rw [h.crew]; exact Nat.le_of_not_lt hid)
    have hwork : s.work t id = s := by
      rw [Shift.work, h.absent id (Nat.le_of_not_lt hid)]
      simp only [Session.stepAdder, hphase]
    rw [hwork]
    exact h

theorem Tracks.shows_sequelTaken (h : Tracks t batch e s) {g : Nat}
    (hgeneration : s.session.generation = some g)
    (hposts : ∀ id < e.crew .adder, s.done id = g ∧ Post.taken.Holds t batch e s id)
    (k : Handle) : s.Shows (e.sequelTaken t batch g) k := by
  by_cases hk : ∃ id, k ∈ e.shardOf id
  · obtain ⟨id, hk⟩ := hk
    obtain ⟨rfl, hholds⟩ := hposts id (Engine.lt_crew_of_mem_shardOf he hk)
    exact hholds.records k hk
  · have hk : ∀ id, k ∉ e.shardOf id := fun id hid => hk ⟨id, hid⟩
    have hother := h.others k hk
    rw [hgeneration] at hother
    rw [Shows, Post.get?_sequelTaken_of_not_mem he hserves.welcomes hserves.owned g hk]
    exact hother

theorem Tracks.runSynthetics (h : Tracks t batch e s) (horderly : Orderly e s) (took : Nat) :
    Tracks t batch e (s.step t (.synthetics took)) := by
  rcases Session.stepSynthetics_cases s.session took with hstep | hstep | ⟨fence, hrelease, hstep⟩
  · rw [Shift.step, hstep]
    exact h
  · rw [Shift.step, hstep]
    refine ⟨h.crew, h.absent, h.fence.imp_right (.imp_right (·.same rfl rfl)), h.synthetics,
      h.others, fun id hid => ?_, h.sent⟩
    obtain ⟨post, hfits, hholds⟩ := h.posts id hid
    exact ⟨post, hfits, hholds.turn rfl rfl rfl rfl fun _ _ => rfl⟩
  obtain ⟨hpos, g, hattends, hopen⟩ : 0 < e.crew .adder ∧ s.session.Manned (e.crew .adder) := by
    rcases h.fence with ⟨hnone, -⟩ | hsession
    · rw [Session.generation, Option.map_eq_none_iff] at hnone
      rw [hnone] at hrelease
      cases hrelease
    · exact hsession
  obtain ⟨-, rfl, hheld⟩ := hattends.all_held hrelease
  have hgeneration := hattends.generation
  generalize hG : g.fence.generation = G at *
  have hposts : ∀ id < e.crew .adder, s.done id = G ∧ s.task id = none ∧
      s.session.phases[id]? = some (.held (t.clock G) G) ∧ Post.taken.Holds t batch e s id :=
    fun id hid => h.held hid hgeneration (hheld id hid)
  have hshows : ∀ k, s.Shows (e.sequelTaken t batch G) k :=
    h.shows_sequelTaken he hserves hgeneration fun id hid => ⟨(hposts id hid).1, (hposts id hid).2.2.2⟩
  have hsynthetics := h.synthetics
  rw [hgeneration] at hsynthetics
  obtain ⟨hcomputed, hstore⟩ :=
    Post.shows_runSynthetics he hserves.welcomes horderly took hshows hsynthetics
  have hworkers := Engine.workers_runSynthetics took s.engine
  obtain ⟨g', hattends'⟩ := hattends.stepSynthetics took
  rw [hstep] at hattends'
  rw [Shift.step, hstep]
  refine ⟨h.crew, h.absent, .inr ⟨hpos, g', hattends', ?_⟩, hcomputed, fun k hk => ?_,
    fun id hid => ?_, fun i => ?_⟩
  · rw [← Option.some.inj hattends'.fence]
    exact hopen
  · refine (hstore k).trans (congrArg (Option.map _) ?_)
    exact (Post.get?_sequel_succ_of_not_mem he hserves.welcomes G hk).symm
  · obtain ⟨rfl, htask, hphase, hholds⟩ := hposts id hid
    refine ⟨.computed, ⟨htask, rfl, .inl hphase⟩, ?_, fun k _ => hstore k⟩
    exact (congrArg (fun workers => (workers.get .adder)[id]?) hworkers).trans hholds.worker
  · refine (h.sent i).trans (.of_eq ?_)
    refine List.flatMap_congr fun id _ => Eq.symm (credit_congr ?_ ?_ i)
    · rfl
    · exact congrArg (fun workers => (workers.get .adder)[id]?) hworkers

theorem Tracks.step (h : Tracks t batch e s) (horderly : Orderly e s) (move : Move)
    (hagrees : Agrees batch e (s.step t move)) : Tracks t batch e (s.step t move) := by
  cases move with
  | worker id => exact h.work he hserves horderly id hagrees
  | synthetics took => exact h.runSynthetics he hserves horderly took
  | point p => exact h.point horderly p

end Tracks

end Shift

end Rollup
