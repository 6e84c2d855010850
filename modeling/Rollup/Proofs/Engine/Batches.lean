import Rollup.Proofs.Engine.Shift

/-! Which points the swaps of a shift take. Whatever the order of the steps is, a record is swapped
once in every tick of its worker, and the points that came in for it since the swap before become
part of the batch of that tick. -/
namespace Rollup

namespace Shift

variable (t : Rhythm) {id nowMs : Nat} {s : Shift}

def hasTaken (s : Shift) (id : Nat) (h : Handle) : Bool :=
  match s.task id with
  | some (.take _ rest) => decide (h ∉ rest)
  | some (.report _ _ _) => true
  | none => decide (s.session.phases[id]? ≠ some .idle)

def swaps (s : Shift) (id : Nat) (h : Handle) : Nat := s.done id + (s.hasTaken id h).toNat

/-- What holds throughout a shift that starts with an engine: nobody touches who has which record,
and the points of a batch are those that came in for it. -/
structure Orderly (e : Engine) (s : Shift) : Prop where
  resembles : e.Resembles s.engine
  amid : ∀ id nowMs rest, s.task id = some (.take nowMs rest) → rest <:+ e.shardOf id
  pending : ∀ p ∈ s.pending, e.Welcomes p
  batch : ∀ g, ∀ p ∈ s.batch g, e.Welcomes p ∧ ∃ id, ∃ h ∈ e.shardOf id, e.leadsTo h p = true
  fresh : ∀ id, ∀ h ∈ e.shardOf id, ∀ g, s.swaps id h ≤ g →
    (s.batch g).filter (e.leadsTo h) = []

/-- Records are swapped ever more often, and the points of earlier swaps stay what they are. -/
structure Later (e : Engine) (s s' : Shift) : Prop where
  swaps : ∀ id, ∀ h ∈ e.shardOf id, s.swaps id h ≤ s'.swaps id h
  batch : ∀ id, ∀ h ∈ e.shardOf id, ∀ g, g < s.swaps id h ∨ s'.swaps id h ≤ g →
    (s'.batch g).filter (e.leadsTo h) = (s.batch g).filter (e.leadsTo h)

def Agrees (batch : Nat → List Point) (e : Engine) (s : Shift) : Prop :=
  ∀ id, ∀ h ∈ e.shardOf id, ∀ g < s.swaps id h,
    (batch g).filter (e.leadsTo h) = (s.batch g).filter (e.leadsTo h)

structure Serves (batch : Nat → List Point) (e : Engine) : Prop where
  welcomes : ∀ g, ∀ p ∈ batch g, e.Welcomes p
  owned : ∀ g, ∀ p ∈ batch g, ∃ id, ∃ h ∈ e.shardOf id, e.leadsTo h p = true

section Orderly

variable {e : Engine} {s' : Shift}

theorem swaps_congr (htask : s'.task id = s.task id) (hdone : s'.done id = s.done id)
    (hphase : s'.session.phases[id]? = s.session.phases[id]?) (h : Handle) :
    s'.swaps id h = s.swaps id h := by
  unfold swaps hasTaken
  rw [htask, hdone, hphase]

theorem later_of_batch (hbatch : s'.batch = s.batch)
    (hswaps : ∀ other, ∀ h ∈ e.shardOf other, s.swaps other h ≤ s'.swaps other h) :
    Later e s s' :=
  ⟨hswaps, fun _ _ _ _ _ => by rw [hbatch]⟩

theorem later_of_others (hbatch : s'.batch = s.batch)
    (htask : ∀ other, other ≠ id → s'.task other = s.task other)
    (hdone : ∀ other, other ≠ id → s'.done other = s.done other)
    (hphase : ∀ other, other ≠ id → s'.session.phases[other]? = s.session.phases[other]?)
    (hswaps : ∀ h ∈ e.shardOf id, s.swaps id h ≤ s'.swaps id h) : Later e s s' := by
  refine later_of_batch hbatch fun other h hh => ?_
  by_cases hother : other = id
  · subst hother
    exact hswaps h hh
  · exact (swaps_congr (htask other hother) (hdone other hother) (hphase other hother) h).ge

theorem swaps_le (s : Shift) (id : Nat) (h : Handle) : s.swaps id h ≤ s.done id + 1 := by
  unfold swaps
  have := Bool.toNat_le (s.hasTaken id h)
  omega

theorem filter_leadsTo {h k : Handle} (hne : k ≠ h) (ps : List Point) :
    (ps.filter (e.leadsTo h)).filter (e.leadsTo k) = [] ∧
      (ps.filter fun p => !e.leadsTo h p).filter (e.leadsTo k) = ps.filter (e.leadsTo k) := by
  have hother : ∀ p, e.leadsTo k p = true → e.leadsTo h p = false := by
    intro p hk
    rw [Engine.leadsTo, beq_iff_eq] at hk
    rw [Engine.leadsTo, hk, beq_eq_false_iff_ne, Ne, Option.some.injEq]
    exact hne
  rw [List.filter_filter, List.filter_filter]
  constructor
  · rw [List.filter_eq_nil_iff]
    intro p _
    cases hk : e.leadsTo k p with
    | false => simp
    | true => simp [hother p hk]
  · congr 1
    funext p
    cases hk : e.leadsTo k p with
    | false => rfl
    | true => simp [hother p hk]

theorem later_take (h : Orderly e s) {first : Handle} {rest : List Handle}
    (htask : s.task id = some (.take nowMs (first :: rest))) :
    Later e s (s.take nowMs id first rest) := by
  have hsuffix := h.amid id nowMs _ htask
  have hnodup : (first :: rest).Nodup := by
    refine (Engine.nodup_shardOf h.resembles.wellFormed id).sublist ?_
    rw [Engine.shardOf_of_face h.resembles.face]
    exact hsuffix.sublist
  have hswaps : ∀ k, s.swaps id k = s.done id + (decide (k ∉ first :: rest)).toNat := fun k => by
    rw [swaps, hasTaken, htask]
  have hswaps' : ∀ k, (s.take nowMs id first rest).swaps id k =
      s.done id + (decide (k ∉ rest)).toNat := fun k => by
    simp [swaps, hasTaken, take, assign, setEngine]
  have hothers : ∀ other, other ≠ id → ∀ k,
      (s.take nowMs id first rest).swaps other k = s.swaps other k := fun other hother =>
    swaps_congr (if_neg hother) rfl rfl
  constructor
  case swaps =>
    intro other k _
    by_cases hother : other = id
    · subst hother
      rw [hswaps, hswaps']
      by_cases hk : k ∈ rest <;> simp [hk, Bool.toNat_le]
    · exact (hothers other hother k).ge
  case batch =>
    intro other k hk g hg
    have hbatch : (s.take nowMs id first rest).batch g = if g = s.done id then
        s.batch g ++ s.pending.filter (e.leadsTo first) else s.batch g := by
      rw [← Engine.leadsTo_of_face h.resembles.face]
      rfl
    rw [hbatch]
    split
    · rename_i heq
      by_cases hfirst : k = first
      · -- The record is swapped now, and the points belong to this swap.
        subst hfirst
        have hown : k ∈ s.engine.shardOf id := by
          rw [Engine.shardOf_of_face h.resembles.face]
          exact hsuffix.subset List.mem_cons_self
        rw [← Engine.shardOf_of_face h.resembles.face] at hk
        obtain rfl := Engine.shardOf_unique h.resembles.wellFormed hk hown
        have hnot := (List.nodup_cons.mp hnodup).1
        have hbefore : decide (k ∉ k :: rest) = false := by simp
        have hafter : decide (k ∉ rest) = true := decide_eq_true hnot
        rw [hswaps, hswaps', hbefore, hafter, Bool.toNat_false, Bool.toNat_true, heq] at hg
        omega
      · rw [List.filter_append, (filter_leadsTo hfirst _).1, List.append_nil]
    · rfl

theorem later_work (h : Orderly e s) (id : Nat) : Later e s (s.work t id) := by
  -- Whoever has swapped the last record of its tick has swapped all of them.
  have hlast : ∀ d : Shift, d.done id = s.done id → (∀ k, d.hasTaken id k = true) →
      ∀ k ∈ e.shardOf id, s.swaps id k ≤ d.swaps id k := by
    intro d hdone htaken k _
    have hswaps : d.swaps id k = s.done id + 1 := by
      rw [swaps, hdone, htaken]
      rfl
    rw [hswaps]
    exact swaps_le s id k
  have hphase : ∀ phase other, other ≠ id →
      (s.session.setPhase id phase).phases[other]? = s.session.phases[other]? :=
    fun phase other hother => by rw [Session.phases_setPhase, if_neg hother]
  unfold work
  split
  · rename_i htask
    exact later_take h htask
  · unfold endTake
    split
    · refine later_of_others rfl (fun _ hother => if_neg hother) (fun _ _ => rfl) (hphase _)
        (hlast _ rfl fun k => ?_)
      simp [hasTaken, setPhase, assign, Session.phases_setPhase]
    · refine later_of_others rfl (fun _ hother => if_neg hother) (fun _ _ => rfl)
        (fun _ _ => rfl) (hlast _ rfl fun k => ?_)
      simp [hasTaken, beginReport, assign]
  · refine later_of_others rfl (fun _ hother => if_neg hother) (fun _ _ => rfl)
        (fun _ _ => rfl) (hlast _ rfl fun k => ?_)
    simp [hasTaken, report, assign]
  · refine later_of_others rfl (fun _ hother => if_neg hother) (fun _ hother => if_neg hother)
      (hphase _) fun k _ => (swaps_le s id k).trans ?_
    have hdone : ∀ took released, (s.endReport took id released).done id = s.done id + 1 :=
      fun _ _ => if_pos rfl
    rw [swaps, hdone]
    exact Nat.le_add_right _ _
  · rename_i htask
    split
    · rename_i hidle
      refine later_of_others rfl (fun _ hother => if_neg hother) (fun _ _ => rfl)
        (fun _ _ => rfl) fun k _ => ?_
      have hswaps : s.swaps id k = s.done id := by
        rw [swaps, hasTaken, htask, hidle]
        simp
      rw [hswaps]
      exact Nat.le_add_right _ _
    · refine later_of_others rfl (fun _ hother => if_neg hother) (fun _ _ => rfl)
        (fun _ _ => rfl) (hlast _ rfl fun k => ?_)
      simp [hasTaken, beginReport, assign]
    · rename_i hidle hfreed
      obtain ⟨-, hwaits, hothers⟩ := Session.stepAdder_waiting 0 0 hidle hfreed
      refine later_of_others rfl (fun _ _ => rfl) (fun _ _ => rfl) hothers (hlast _ rfl fun k => ?_)
      simp [hasTaken, htask, hwaits]

theorem orderly_start (he : e.WellFormed) : Orderly e (start e) where
  resembles := ⟨he, rfl⟩
  amid _ _ _ htask := nomatch htask
  pending _ hp := absurd hp List.not_mem_nil
  batch _ _ hp := absurd hp List.not_mem_nil
  fresh _ _ _ _ _ := rfl

theorem Orderly.later (h : Orderly e s) (hlater : Later e s s') (hresembles : e.Resembles s'.engine)
    (hamid : ∀ other nowMs rest, s'.task other = some (.take nowMs rest) →
      s.task other = some (.take nowMs rest) ∨ rest <:+ e.shardOf other)
    (hpending : ∀ p ∈ s'.pending, e.Welcomes p)
    (hbatch : ∀ g, ∀ p ∈ s'.batch g, p ∈ s.batch g ∨
      p ∈ s.pending ∧ ∃ id, ∃ k ∈ e.shardOf id, e.leadsTo k p = true) : Orderly e s' where
  resembles := hresembles
  amid other nowMs rest htask :=
    (hamid other nowMs rest htask).elim (h.amid other nowMs rest) fun hsuffix => hsuffix
  pending := hpending
  batch g p hp := (hbatch g p hp).elim (h.batch g p) fun hnew =>
    ⟨h.pending p hnew.1, hnew.2⟩
  fresh id k hk g hg := by
    rw [hlater.batch id k hk g (.inr hg)]
    exact h.fresh id k hk g ((hlater.swaps id k hk).trans hg)

theorem orderly_work (h : Orderly e s) (id : Nat) : Orderly e (s.work t id) := by
  have hlater := later_work t h id
  have hresembles := h.resembles
  -- Only a task to take records says which of them are still to come.
  have hamid : ∀ {d : Shift} {task : Option Task}, (∀ nowMs rest, task = some (.take nowMs rest) →
      rest <:+ e.shardOf id) → (∀ other, d.task other = if other = id then task else s.task other) →
      ∀ other nowMs rest, d.task other = some (.take nowMs rest) →
        s.task other = some (.take nowMs rest) ∨ rest <:+ e.shardOf other := by
    intro d task hown hd other nowMs rest htask
    rw [hd] at htask
    split at htask
    · rename_i heq
      exact .inr (heq ▸ hown nowMs rest htask)
    · exact .inl htask
  -- Most steps take no points.
  have hquiet : ∀ {d : Shift} {task : Option Task}, Later e s d → e.Resembles d.engine →
      (∀ nowMs rest, task = some (.take nowMs rest) → rest <:+ e.shardOf id) →
      (∀ other, d.task other = if other = id then task else s.task other) →
      d.pending = s.pending → d.batch = s.batch → Orderly e d :=
    fun hlater hresembles hown hd hpending hbatch => h.later hlater hresembles (hamid hown hd)
      (fun p hp => h.pending p (hpending ▸ hp)) fun g p hp => .inl (hbatch ▸ hp)
  generalize hwork : s.work t id = d at hlater ⊢
  unfold work at hwork
  split at hwork
  · rename_i nowMs first rest htask
    subst hwork
    have hsuffix := h.amid id nowMs _ htask
    refine h.later hlater (hresembles.takeRecord first) (hamid ?_ fun _ => rfl)
      (fun p hp => h.pending p (List.mem_of_mem_filter hp)) fun g p hp => ?_
    · rintro _ _ ⟨⟩
      exact (List.suffix_cons first rest).trans hsuffix
    · change p ∈ if g = s.done id then _ else _ at hp
      split at hp
      · refine (List.mem_append.mp hp).imp_right fun hnew => ?_
        obtain ⟨hmem, hleads⟩ := List.mem_filter.mp hnew
        rw [Engine.leadsTo_of_face hresembles.face] at hleads
        exact ⟨hmem, id, first, hsuffix.subset List.mem_cons_self, hleads⟩
      · exact .inl hp
  · unfold endTake at hwork
    split at hwork
    · subst hwork
      exact hquiet hlater hresembles (by rintro _ _ ⟨⟩) (fun _ => rfl) rfl rfl
    · subst hwork
      exact hquiet hlater hresembles (by rintro _ _ ⟨⟩) (fun _ => rfl) rfl rfl
  · subst hwork
    exact hquiet hlater (hresembles.reportRecord _ _ _) (by rintro _ _ ⟨⟩) (fun _ => rfl) rfl rfl
  · subst hwork
    exact hquiet hlater (hresembles.finishShard _ _) (by rintro _ _ ⟨⟩) (fun _ => rfl) rfl rfl
  · rename_i htask
    split at hwork
    · subst hwork
      refine hquiet hlater (hresembles.startShard _ _) ?_ (fun _ => rfl) rfl rfl
      rintro _ _ ⟨⟩
      rw [← Engine.shardOf_of_face hresembles.face]
    · subst hwork
      exact hquiet hlater hresembles (by rintro _ _ ⟨⟩) (fun _ => rfl) rfl rfl
    · rename_i hidle hfreed
      subst hwork
      obtain ⟨hengine, -⟩ := Session.stepAdder_waiting 0 0 hidle hfreed
      refine h.later hlater ?_ (fun _ _ _ => .inl) h.pending fun _ _ => .inl
      rw [engine, hengine]
      exact hresembles

theorem point_cases (h : Orderly e s) (p : Point) : s.point p = s ∨
    e.Welcomes p ∧ ∃ k, e.leadsTo k p = true ∧ s.point p =
      { s.setEngine (s.engine.modifyRecord k (Record.update p.value p.adjustment)) with
        pending := s.pending ++ [p] } := by
  unfold point
  split
  · rename_i k e' hlocate haccepts
    have hleads : s.engine.leadsTo k p = true := by rw [Engine.leadsTo, hlocate, beq_self_eq_true]
    have hrefusal : s.engine.refusal? p.kind p.value = none := by
      unfold Engine.ingest at haccepts
      split at haccepts
      · cases haccepts
      · assumption
    rw [Engine.ingest_of_leadsTo hrefusal hleads] at haccepts
    cases haccepts
    have hwelcomes : s.engine.Welcomes p := ⟨hrefusal, k, hleads⟩
    refine .inr ⟨Engine.welcomes_of_face h.resembles.face.symm hwelcomes, k, ?_, rfl⟩
    rw [← Engine.leadsTo_of_face h.resembles.face]
    exact hleads
  · exact .inl rfl

theorem later_refl (e : Engine) (s : Shift) : Later e s s :=
  ⟨fun _ _ _ => Nat.le_refl _, fun _ _ _ _ _ => rfl⟩

theorem orderly_step (h : Orderly e s) (move : Move) :
    Orderly e (s.step t move) ∧ Later e s (s.step t move) := by
  cases move with
  | worker id => exact ⟨orderly_work t h id, later_work t h id⟩
  | synthetics took =>
    have hphases : (s.session.stepSynthetics took).phases = s.session.phases := by
      rcases Session.stepSynthetics_cases s.session took with hstep | hstep | ⟨fence, -, hstep⟩ <;>
        rw [hstep]
    have hresembles : e.Resembles (s.session.stepSynthetics took).engine := by
      rcases Session.stepSynthetics_cases s.session took with hstep | hstep | ⟨fence, -, hstep⟩ <;>
        rw [hstep]
      · exact h.resembles
      · exact h.resembles
      · exact h.resembles.runSynthetics took
    have hswaps : ∀ other k, (s.step t (.synthetics took)).swaps other k = s.swaps other k := by
      intro other k
      refine swaps_congr ?_ ?_ (congrArg (·[other]?) hphases) k <;> rfl
    have hlater : Later e s (s.step t (.synthetics took)) :=
      later_of_batch rfl fun other k _ => (hswaps other k).ge
    exact ⟨h.later hlater hresembles (fun _ _ _ => .inl) h.pending fun _ _ => .inl, hlater⟩
  | point p =>
    rcases point_cases h p with hsame | ⟨hwelcomes, k, hleads, hpoint⟩
    · rw [step, hsame]
      exact ⟨h, later_refl e s⟩
    · rw [step, hpoint]
      have hlater : Later e s { s.setEngine (s.engine.modifyRecord k
          (Record.update p.value p.adjustment)) with pending := s.pending ++ [p] } :=
        later_of_batch rfl fun _ _ _ => Nat.le_refl _
      refine ⟨h.later hlater (h.resembles.modifyRecord k fun r => r.stays_update _ _)
        (fun _ _ _ => .inl) (fun q hq => ?_) fun _ _ => .inl, hlater⟩
      rcases List.mem_append.mp hq with hold | hnew
      · exact h.pending q hold
      · rwa [List.mem_singleton.mp hnew]

theorem orderly_run (he : e.WellFormed) (moves : List Move) :
    Orderly e ((start e).run t moves) := by
  induction moves using List.reverseRecOn with
  | nil => exact orderly_start he
  | append_singleton moves last ih =>
    rw [run_append]
    exact (orderly_step t ih last).1

theorem Agrees.of_later {batch : Nat → List Point}
    (h : Agrees batch e s') (hlater : Later e s s') : Agrees batch e s := by
  intro id k hk g hg
  rw [h id k hk g (Nat.lt_of_lt_of_le hg (hlater.swaps id k hk)),
    hlater.batch id k hk g (.inl hg)]

/-- What has come in for a record since its last swap is what the batch of this tick has for it. -/
theorem Agrees.of_take {batch : Nat → List Point} {first : Handle} {rest : List Handle}
    (h : Agrees batch e (s.take nowMs id first rest)) (horderly : Orderly e s)
    (htask : s.task id = some (.take nowMs (first :: rest))) (hown : first ∈ e.shardOf id)
    (hnot : first ∉ rest) : (batch (s.done id)).filter (e.leadsTo first) =
      s.pending.filter (e.leadsTo first) := by
  have hswaps : s.swaps id first = s.done id := by simp [swaps, hasTaken, htask]
  have hswaps' : (s.take nowMs id first rest).swaps id first = s.done id + 1 := by
    simp [swaps, hasTaken, Shift.take, assign, setEngine, hnot]
  have hbatch : (s.take nowMs id first rest).batch (s.done id) =
      s.batch (s.done id) ++ s.pending.filter (e.leadsTo first) := by
    rw [← Engine.leadsTo_of_face horderly.resembles.face]
    exact if_pos rfl
  have hfresh := horderly.fresh id first hown (s.done id) hswaps.le
  rw [h id first hown (s.done id) (hswaps' ▸ Nat.lt_succ_self _), hbatch, List.filter_append,
    hfresh, List.nil_append, List.filter_filter]
  simp

end Orderly

end Shift

end Rollup
