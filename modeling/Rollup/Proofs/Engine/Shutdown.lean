import Rollup.Proofs.Engine.Attendance
import Rollup.Proofs.Engine.Retention
import Rollup.Proofs.Synthetic.Freshness

/-! The tick that is in flight when a fence is closed. A worker reports its shard in any case; but
what it swapped in has entered a computation only if the fence released it, and a worker that waits
when the fence is closed, or comes later, is not released. -/
namespace Rollup

def Phase.ends : Phase → Bool
  | .freed _ released => !released
  | .stopped => true
  | _ => false

namespace Session

open Engine (Retains)
open Synthetic (evaluations givenTo totalsOf)

/-- What adder workers and synthetic adders do, each with the engine as it is then. -/
inductive Deed
  /-- A worker has swapped its shard. -/
  | took (id : Nat) (after : Engine)
  /-- The synthetic adders are about to be computed. -/
  | computed (before : Engine)
  /-- A worker that was released, or was not, is about to report its shard. -/
  | reported (id : Nat) (released : Bool) (before : Engine)
  | closed

namespace Deed

def worker? : Deed → Option Nat
  | took id _ | reported id _ _ => some id
  | _ => none

def concerns (id : Nat) : Deed → Bool
  | took other _ | reported other _ _ => decide (other = id)
  | computed _ => true
  | closed => false

def trail (id : Nat) (past : List Deed) : List Deed := past.filter (concerns id)

end Deed

open Deed (trail)

def Deed.ofPhases? (id : Nat) (before after : Engine) : Option Phase → Option Phase → Option Deed
  | some .idle, some (.taken _) => some (.took id after)
  | some (.freed _ released), _ => some (.reported id released before)
  | _, _ => none

/-- What a step shows: a tick of a worker begins or ends, a generation ends, the fence closes. -/
def deed? (s : Session) (event : Event) : Option Deed :=
  match event with
  | .adder _ _ id =>
    Deed.ofPhases? id s.engine (s.step event).engine s.phases[id]? (s.step event).phases[id]?
  | .synthetics _ =>
    if (s.step event).generation = s.generation then none else some (.computed s.engine)
  | .closeFence => some .closed
  | _ => none

def watch : Session × List Deed → Event → Session × List Deed
  | (s, past), event => (s.step event, (s.deed? event).toList ++ past)

def past (s : Session) (events : List Event) : List Deed := (events.foldl watch (s, [])).2

/-- What a worker swapped in entered the evaluations, and is still there, except for totals that an
evaluation gave to a target. -/
structure Enters (id : Nat) (swapped computing now : Engine) : Prop where
  read : ∀ i v, (evaluations computing.synthetics computing.store)[i]? = some v →
    ∀ read ∈ v.reads, now.holds id read.source = true → read.totals =
      (givenTo ((evaluations computing.synthetics computing.store).take i) read.source).getD
        (totalsOf swapped.store read.source)
  kept : ∀ h r, computing.store.get? h = some r → now.holds id h = true → totalsOf now.store h =
    (givenTo (evaluations computing.synthetics computing.store) h).getD (totalsOf swapped.store h)

/-- Since the worker swapped its shard, the synthetic adders have been computed once, with it. -/
def Complete (id : Nat) (now : Engine) (past : List Deed) : Prop :=
  ∃ swapped computing rest, trail id past = .computed computing :: .took id swapped :: rest ∧
    Enters id swapped computing now

/-- The fence has been closed, and since the worker swapped its shard no synthetic adder has been
computed, while it holds all totals that it swapped in. -/
def Missed (id : Nat) (now : Engine) (past : List Deed) : Prop :=
  .closed ∈ past ∧ ∃ swapped rest, trail id past = .took id swapped :: rest ∧
    ∀ h, now.holds id h = true → totalsOf now.store h = totalsOf swapped.store h

section Watch

variable (s : Session) (events : List Event) (last : Event)

theorem watch_fst (past : List Deed) : (events.foldl watch (s, past)).1 = s.run events := by
  induction events generalizing s past with
  | nil => rfl
  | cons first rest ih => exact ih (s.step first) _

theorem past_snoc :
    s.past (events ++ [last]) = ((s.run events).deed? last).toList ++ s.past events := by
  rw [past, List.foldl_append, ← watch_fst s events []]
  rfl

end Watch

section Stands

variable {s s' : Session} {id : Nat} {now now' : Engine} {past past' : List Deed}

def Swapped (id : Nat) (now : Engine) (past : List Deed) : Prop :=
  ∃ swapped rest, trail id past = .took id swapped :: rest ∧ Retains id swapped now

def Computed (id : Nat) (now : Engine) (past : List Deed) : Prop :=
  ∃ swapped computing took rest, trail id past = .computed computing :: .took id swapped :: rest ∧
    computing.WellFormed ∧ Retains id swapped computing ∧
      Retains id (computing.runSynthetics took) now

theorem Swapped.later (h : Swapped id now past) (hretains : Retains id now now')
    (htrail : trail id past' = trail id past) : Swapped id now' past' :=
  let ⟨swapped, rest, hpast, hkept⟩ := h
  ⟨swapped, rest, htrail.trans hpast, hkept.trans hretains⟩

theorem Computed.later (h : Computed id now past) (hretains : Retains id now now')
    (htrail : trail id past' = trail id past) : Computed id now' past' :=
  let ⟨swapped, computing, took, rest, hpast, he, hkept, hkept'⟩ := h
  ⟨swapped, computing, took, rest, htrail.trans hpast, he, hkept, hkept'.trans hretains⟩

theorem Computed.complete (h : Computed id now past) : Complete id now past := by
  obtain ⟨swapped, computing, took, rest, hpast, he, hkept, hkept'⟩ := h
  have hsettles := Engine.settles_runSynthetics took he
  -- A record that the worker reports was in its shard when the synthetic adders were computed.
  have hheld : ∀ h r, computing.store.get? h = some r → now.holds id h = true →
      r.kind = .adder ∧ totalsOf computing.store h = totalsOf swapped.store h := by
    intro h r hr hholds
    obtain ⟨r', hr', hstays, -⟩ := hsettles.get hr
    have hvisits' := hkept'.holds h r' hr' hholds
    have hvisits : computing.visits .adder id r = true := by
      obtain ⟨f, hrevises, -⟩ := hsettles
      exact Engine.visits_before (hrevises.size .adder)
        ((Engine.moves_runSynthetics took he).crew .adder) hstays.follows hvisits'
    refine ⟨?_, hkept.totals h (by rw [Engine.holds, hr, Option.any_some, hvisits])⟩
    simp only [Engine.visits, Record.inShard, Bool.and_eq_true, beq_iff_eq] at hvisits
    exact hvisits.2.1.2
  refine ⟨swapped, computing, rest, hpast, fun i v hv read hread hholds => ?_,
    fun h r hr hholds => ?_⟩
  · have htakes := Synthetic.takes_evaluation he.store he.bound hv
    obtain ⟨hmem, htotals⟩ := Engine.mem_of_read hread
    obtain ⟨last, hlast, -⟩ := List.forall₂_zip htakes.bound.linked hmem read.source rfl
    have hbefore := htakes.settles
    obtain ⟨f, hrevises, -⟩ := hbefore
    obtain ⟨r, hr, -⟩ := hrevises.before hlast
    obtain ⟨hkind, hsame⟩ := hheld read.source r hr hholds
    rw [htotals, htakes.settles.totalsOf hr hkind, hsame]
  · obtain ⟨hkind, hsame⟩ := hheld h r hr hholds
    rw [hkept'.totals h hholds, hsettles.totalsOf hr hkind, hsame]

def Stands (s : Session) (past : List Deed) (id : Nat) : Phase → Prop
  | .taken _ => Swapped id s.engine past
  | .held _ ticket =>
    if s.generation = some ticket then Swapped id s.engine past else Computed id s.engine past
  | .freed _ true => Computed id s.engine past
  | .freed _ false => Swapped id s.engine past ∧ .closed ∈ past
  | .idle | .stopped => True

theorem Stands.later {phase : Phase} (h : Stands s past id phase)
    (hretains : Retains id s.engine s'.engine) (hgeneration : s'.generation = s.generation)
    (htrail : trail id past' = trail id past) (hclosed : .closed ∈ past → .closed ∈ past') :
    Stands s' past' id phase := by
  cases phase with
  | idle => trivial
  | taken now => exact Swapped.later h hretains htrail
  | held now ticket =>
    simp only [Stands, hgeneration] at h ⊢
    split
    · rename_i heq
      rw [if_pos heq] at h
      exact h.later hretains htrail
    · rename_i hne
      rw [if_neg hne] at h
      exact h.later hretains htrail
  | freed now released =>
    cases released with
    | true => exact Computed.later h hretains htrail
    | false => exact ⟨h.1.later hretains htrail, hclosed h.2⟩
  | stopped => trivial

end Stands

/-- What the fence, the phases of the workers and the deeds so far have to do with each other. -/
structure Watched (s : Session) (past : List Deed) : Prop where
  wellFormed : s.engine.WellFormed
  closed : ∀ fence, s.fence = some fence → fence.closed = true → .closed ∈ past
  stands : ∀ id phase, s.phases[id]? = some phase → Stands s past id phase
  reports : ∀ later id released now before, past = later ++ .reported id released now :: before →
    if released then Computed id now before else Swapped id now before ∧ .closed ∈ before
  stopped : ∀ later id now before, past = later ++ .reported id false now :: before →
    s.phases[id]? = some .stopped ∧ ∀ deed ∈ later, deed.worker? ≠ some id

section Step

variable {s s' : Session} {past : List Deed}

theorem retains_stepAdder (he : s.engine.WellFormed) (nowMs took : Nat) {id other : Nat}
    (hother : other ≠ id) : Retains other s.engine (s.stepAdder nowMs took id).engine := by
  have htake := Engine.retains_step he other (.take nowMs id) (fun _ => Step.noConfusion)
    fun _ heq => hother (by cases heq; rfl)
  have hreport : ∀ {e : Engine}, e.WellFormed → ∀ now,
      Retains other e ((e.reportShard now id).finishShard took .adder id) := fun he now =>
    Engine.retains_step he other (.report now took id) (fun _ => Step.noConfusion)
      fun _ => Step.noConfusion
  unfold stepAdder
  split
  · exact .refl other _
  · unfold wake
    split
    · exact .refl other _
    · simp only
      split
      · exact htake
      · exact htake.trans (hreport (Engine.moves_takeShard nowMs id he).wellFormed nowMs)
  · unfold arrive
    split
    · exact .refl other _
    · split <;> exact .refl other _
  · unfold leave
    split <;> exact .refl other _
  · exact hreport he _
  · exact .refl other _

theorem Watched.quiet (h : s.Watched past) (hfence : s'.fence = s.fence)
    (hphases : s'.phases = s.phases) (hmoves : s.engine.Moves s'.engine)
    (hretains : ∀ id, Retains id s.engine s'.engine) : s'.Watched past where
  wellFormed := hmoves.wellFormed
  closed fence hsome := h.closed fence (hfence ▸ hsome)
  stands id phase hphase := (h.stands id phase (hphases ▸ hphase)).later (hretains id)
    (by rw [generation, hfence, generation]) rfl fun hclosed => hclosed
  reports := h.reports
  stopped later id now before hpast := hphases ▸ h.stopped later id now before hpast

theorem Deed.ofPhases?_eq_reported {id other : Nat} {before after now : Engine} {old new : Phase}
    {released : Bool}
    (h : ofPhases? id before after (some old) (some new) = some (.reported other released now)) :
    other = id ∧ now = before ∧ ∃ nowMs, old = .freed nowMs released := by
  unfold ofPhases? at h
  split at h
  · cases h
  · rename_i nowMs _ hold
    cases h
    exact ⟨rfl, rfl, nowMs, Option.some.inj hold⟩
  · cases h

theorem Deed.worker?_ofPhases? {id : Nat} {before after : Engine} {old new : Phase} {deed : Deed}
    (h : ofPhases? id before after (some old) (some new) = some deed) :
    deed.worker? = some id ∧ (∀ other, other ≠ id → deed.concerns other = false) ∧
      old ≠ .stopped := by
  unfold ofPhases? at h
  split at h
  · rename_i hold _
    cases h
    exact ⟨rfl, fun other hother => decide_eq_false (Ne.symm hother), fun heq => by
      rw [heq] at hold; cases hold⟩
  · rename_i hold
    cases h
    exact ⟨rfl, fun other hother => decide_eq_false (Ne.symm hother), fun heq => by
      rw [heq] at hold; cases hold⟩
  · cases h

theorem Deed.trail_ofPhases? {id other : Nat} {before after : Engine} {old new : Phase}
    {deed : Option Deed} (h : ofPhases? id before after (some old) (some new) = deed)
    (hother : other ≠ id) (past : List Deed) :
    trail other (deed.toList ++ past) = trail other past := by
  cases deed with
  | none => rfl
  | some deed =>
    have hforeign := (worker?_ofPhases? h).2.1 other hother
    simp [trail, hforeign]

section Turn

variable {id : Nat} {old phase : Phase} {after : Engine} {deed : Option Deed}

theorem Watched.reports_turn (h : s.Watched past) (hold : s.phases[id]? = some old)
    (hdeed : Deed.ofPhases? id s.engine after (some old) (some phase) = deed)
    {later : List Deed} {other : Nat} {released : Bool} {now : Engine} {before : List Deed}
    (hpast : deed.toList ++ past = later ++ .reported other released now :: before) :
    if released then Computed other now before
    else Swapped other now before ∧ .closed ∈ before := by
  cases deed with
  | none => exact h.reports later other released now before hpast
  | some deed =>
    rcases List.cons_eq_append_iff.mp hpast with ⟨rfl, hhead⟩ | ⟨later, rfl, hrest⟩
    · -- The report is what the worker has done now, and its phase says what came before.
      obtain ⟨rfl, rfl⟩ := List.cons.inj hhead
      obtain ⟨rfl, rfl, nowMs, rfl⟩ := Deed.ofPhases?_eq_reported hdeed
      have hbefore := h.stands other _ hold
      cases released with
      | true => exact hbefore
      | false => exact hbefore
    · exact h.reports later other released now before hrest

theorem Watched.stopped_turn (h : s.Watched past) (hold : s.phases[id]? = some old)
    (hphases : s'.phases = s.phases.set id phase) (hstop : old.ends = true → phase = .stopped)
    (hdeed : Deed.ofPhases? id s.engine after (some old) (some phase) = deed)
    {later : List Deed} {other : Nat} {now : Engine} {before : List Deed}
    (hpast : deed.toList ++ past = later ++ .reported other false now :: before) :
    s'.phases[other]? = some .stopped ∧ ∀ deed ∈ later, deed.worker? ≠ some other := by
  have hnew : s'.phases[id]? = some phase := by
    rw [hphases, List.getElem?_set_self (List.getElem?_eq_some_iff.mp hold).1]
  have hothers : other ≠ id → s'.phases[other]? = s.phases[other]? := fun hother => by
    rw [hphases, List.getElem?_set_ne (Ne.symm hother)]
  cases deed with
  | none =>
    obtain ⟨hstopped, hlater⟩ := h.stopped later other now before hpast
    refine ⟨?_, hlater⟩
    by_cases hother : other = id
    · subst hother
      rw [hold] at hstopped
      rw [hnew, hstop (Option.some.inj hstopped ▸ rfl)]
    · rw [hothers hother, hstopped]
  | some deed =>
    obtain ⟨hworker, -, hactive⟩ := Deed.worker?_ofPhases? hdeed
    rcases List.cons_eq_append_iff.mp hpast with ⟨rfl, hhead⟩ | ⟨later, rfl, hrest⟩
    · obtain ⟨rfl, rfl⟩ := List.cons.inj hhead
      obtain ⟨rfl, -, nowMs, rfl⟩ := Deed.ofPhases?_eq_reported hdeed
      exact ⟨by rw [hnew, hstop rfl], fun deed hmem => absurd hmem List.not_mem_nil⟩
    · -- A worker that has stopped does nothing any more, so this is another one.
      obtain ⟨hstopped, hlater⟩ := h.stopped later other now before hrest
      have hother : other ≠ id := by
        rintro rfl
        rw [hold] at hstopped
        exact hactive (Option.some.inj hstopped)
      refine ⟨by rw [hothers hother, hstopped], fun deed' hmem => ?_⟩
      rcases List.mem_cons.mp hmem with rfl | hmem
      · rw [hworker]
        exact fun heq => hother (Option.some.inj heq).symm
      · exact hlater deed' hmem

end Turn

theorem Watched.turn (h : s.Watched past) {id : Nat} {old : Phase}
    (hold : s.phases[id]? = some old) (phase : Phase) (hphases : s'.phases = s.phases.set id phase)
    (hmoves : s.engine.Moves s'.engine)
    (hretains : ∀ other, other ≠ id → Retains other s.engine s'.engine)
    (hgeneration : s'.generation = s.generation)
    (hclosed : ∀ fence, s'.fence = some fence → fence.closed = true → .closed ∈ past)
    (hstop : old.ends = true → phase = .stopped)
    (hstands : Stands s' ((Deed.ofPhases? id s.engine s'.engine (some old) (some phase)).toList ++
      past) id phase) :
    s'.Watched ((Deed.ofPhases? id s.engine s'.engine (some old) (some phase)).toList ++ past) where
  wellFormed := hmoves.wellFormed
  closed fence hsome hshut := List.mem_append_right _ (hclosed fence hsome hshut)
  stands other phase' hphase := by
    by_cases hother : other = id
    · subst hother
      rw [hphases, List.getElem?_set_self (List.getElem?_eq_some_iff.mp hold).1] at hphase
      cases hphase
      exact hstands
    · rw [hphases, List.getElem?_set_ne (Ne.symm hother)] at hphase
      exact (h.stands other phase' hphase).later (hretains other hother) hgeneration
        (Deed.trail_ofPhases? rfl hother past) fun hmem => List.mem_append_right _ hmem
  reports _ _ _ _ _ hpast := h.reports_turn hold rfl hpast
  stopped _ _ _ _ hpast := h.stopped_turn hold hphases hstop rfl hpast

theorem Watched.mark (h : s.Watched past) (hphases : s'.phases = s.phases)
    (hwellFormed : s'.engine.WellFormed) {deed : Deed} (hworker : deed.worker? = none)
    (hclosed : ∀ fence, s'.fence = some fence → fence.closed = true → .closed ∈ deed :: past)
    (hstands : ∀ id phase, s.phases[id]? = some phase → Stands s past id phase →
      Stands s' (deed :: past) id phase) : s'.Watched (deed :: past) where
  wellFormed := hwellFormed
  closed := hclosed
  stands id phase hphase := by
    rw [hphases] at hphase
    exact hstands id phase hphase (h.stands id phase hphase)
  reports later id released now before hpast := by
    rcases List.cons_eq_append_iff.mp hpast with ⟨rfl, hhead⟩ | ⟨later, rfl, hrest⟩
    · obtain ⟨rfl, -⟩ := List.cons.inj hhead
      cases hworker
    · exact h.reports later id released now before hrest
  stopped later id now before hpast := by
    rcases List.cons_eq_append_iff.mp hpast with ⟨rfl, hhead⟩ | ⟨later, rfl, hrest⟩
    · obtain ⟨rfl, -⟩ := List.cons.inj hhead
      cases hworker
    · obtain ⟨hstopped, hlater⟩ := h.stopped later id now before hrest
      refine ⟨hphases ▸ hstopped, fun deed' hmem => ?_⟩
      rcases List.mem_cons.mp hmem with rfl | hmem
      · rw [hworker]
        exact nofun
      · exact hlater deed' hmem

theorem moves_step (he : s.engine.WellFormed) (event : Event) :
    s.engine.Moves (s.step event).engine := by
  obtain ⟨steps, hsteps⟩ := performs_step s event
  rw [hsteps]
  exact Engine.moves_after he steps

section Adder

variable {nowMs took id : Nat} {old : Phase}

theorem Watched.adder (h : s.Watched past) (hold : s.phases[id]? = some old) (phase : Phase)
    (hstep : s.stepAdder nowMs took id = s') (hphases : s'.phases = s.phases.set id phase)
    (hfence : s'.fence = s.fence ∨
      ∃ fence ready, s.fence = some fence ∧ s'.fence = some { fence with ready := ready })
    (hstop : old.ends = true → phase = .stopped)
    (hstands : Stands s' ((Deed.ofPhases? id s.engine s'.engine (some old) (some phase)).toList ++
      past) id phase) :
    (s.step (.adder nowMs took id)).Watched
      ((s.deed? (.adder nowMs took id)).toList ++ past) := by
  have hmoves := moves_step h.wellFormed (.adder nowMs took id)
  have hretains : ∀ other, other ≠ id →
      Retains other s.engine (s.stepAdder nowMs took id).engine := fun other hother =>
    retains_stepAdder h.wellFormed nowMs took hother
  have hnew : s'.phases[id]? = some phase := by
    rw [hphases, List.getElem?_set_self (List.getElem?_eq_some_iff.mp hold).1]
  simp only [step, deed?, hstep, hold, hnew] at hmoves hretains ⊢
  refine h.turn hold phase hphases hmoves hretains ?_ ?_ hstop hstands
  · rcases hfence with hfence | ⟨fence, ready, hfence, hfence'⟩
    · rw [generation, hfence, generation]
    · rw [generation, generation, hfence, hfence']
      rfl
  · intro fence' hsome hshut
    rcases hfence with hfence | ⟨fence, ready, hfence, hfence'⟩
    · exact h.closed fence' (hfence ▸ hsome) hshut
    · rw [hfence'] at hsome
      cases hsome
      exact h.closed fence hfence hshut

theorem Watched.waits (h : s.Watched past) (hold : s.phases[id]? = some old)
    (hwaits : Deed.ofPhases? id s.engine s.engine (some old) (some old) = none)
    (hstep : s.stepAdder nowMs took id = s) :
    (s.step (.adder nowMs took id)).Watched
      ((s.deed? (.adder nowMs took id)).toList ++ past) := by
  simp only [step, deed?, hstep, hold, hwaits]
  exact h

theorem Watched.wake (h : s.Watched past) (hold : s.phases[id]? = some .idle) :
    (s.step (.adder nowMs took id)).Watched
      ((s.deed? (.adder nowMs took id)).toList ++ past) := by
  have hstep : s.stepAdder nowMs took id = s.wake nowMs took id := by rw [stepAdder, hold]
  unfold Session.wake at hstep
  by_cases hstopping : s.stopping = true
  · rw [if_pos hstopping] at hstep
    exact h.adder hold .stopped hstep rfl (.inl rfl) (fun _ => rfl) trivial
  · rw [if_neg hstopping] at hstep
    cases hfence : s.fence with
    | some fence =>
      simp only [hfence] at hstep
      refine h.adder hold (.taken nowMs) hstep rfl (.inl hfence.symm) Bool.noConfusion
        ⟨_, trail id past, ?_, .refl id _⟩
      simp [trail, Deed.ofPhases?, Deed.concerns]
    | none =>
      simp only [hfence] at hstep
      obtain ⟨hlt, hidle⟩ := List.getElem?_eq_some_iff.mp hold
      exact h.adder hold .idle hstep (by rw [← hidle, List.set_getElem_self]) (.inl hfence.symm)
        Bool.noConfusion trivial

theorem Watched.arrive (h : s.Watched past) {now : Nat} (hold : s.phases[id]? = some (.taken now)) :
    (s.step (.adder nowMs took id)).Watched
      ((s.deed? (.adder nowMs took id)).toList ++ past) := by
  have hstep : s.stepAdder nowMs took id = s.arrive now id := by rw [stepAdder, hold]
  have hswapped : Swapped id s.engine past := h.stands id _ hold
  unfold Session.arrive at hstep
  cases hfence : s.fence with
  | none =>
    simp only [hfence] at hstep
    exact h.waits hold rfl hstep
  | some fence =>
    by_cases hclosed : fence.closed = true
    · simp only [hfence, Fence.enter, if_pos hclosed] at hstep
      exact h.adder hold (.freed now false) hstep rfl (.inl rfl) Bool.noConfusion
        ⟨hswapped, h.closed fence hfence hclosed⟩
    · simp only [hfence, Fence.enter, if_neg hclosed] at hstep
      exact h.adder hold (.held now fence.generation) hstep rfl
        (.inr ⟨fence, _, hfence, rfl⟩) Bool.noConfusion ((if_pos rfl).mpr hswapped)

theorem Watched.leave (h : s.Watched past) {now ticket : Nat}
    (hold : s.phases[id]? = some (.held now ticket)) :
    (s.step (.adder nowMs took id)).Watched
      ((s.deed? (.adder nowMs took id)).toList ++ past) := by
  have hstep : s.stepAdder nowMs took id = s.leave now ticket id := by rw [stepAdder, hold]
  have hstands := h.stands id _ hold
  unfold Session.leave at hstep
  cases hleave : s.fence.bind (Fence.leave? ticket) with
  | none =>
    simp only [hleave] at hstep
    exact h.waits hold rfl hstep
  | some released =>
    simp only [hleave] at hstep
    obtain ⟨fence, hfence, hleave⟩ := Option.bind_eq_some_iff.mp hleave
    simp only [Stands, generation, hfence, Option.map_some, Option.some.injEq] at hstands
    unfold Fence.leave? at hleave
    split at hleave
    · cases hleave
    · rename_i hfree
      by_cases hticket : fence.generation = ticket
      · -- Only a close frees a worker whose generation has not ended.
        have hclosed : fence.closed = true := by simpa [hticket] using hfree
        obtain rfl : released = false := by simpa [hticket] using hleave.symm
        rw [if_pos hticket] at hstands
        exact h.adder hold (.freed now false) hstep rfl (.inl rfl) Bool.noConfusion
          ⟨hstands, h.closed fence hfence hclosed⟩
      · obtain rfl : released = true := by
          rw [← Option.some.inj hleave]
          exact bne_iff_ne.mpr hticket
        rw [if_neg hticket] at hstands
        exact h.adder hold (.freed now true) hstep rfl (.inl rfl) Bool.noConfusion hstands

theorem Watched.report (h : s.Watched past) {now : Nat} {released : Bool}
    (hold : s.phases[id]? = some (.freed now released)) :
    (s.step (.adder nowMs took id)).Watched
      ((s.deed? (.adder nowMs took id)).toList ++ past) := by
  have hstep : s.stepAdder nowMs took id = s.report now took id released := by rw [stepAdder, hold]
  refine h.adder hold (if released then .idle else .stopped) hstep rfl (.inl rfl) ?_ ?_
  · intro hends
    cases released with
    | true => cases hends
    | false => rfl
  · cases released <;> trivial

theorem Watched.stepAdder (h : s.Watched past) (nowMs took id : Nat) :
    (s.step (.adder nowMs took id)).Watched
      ((s.deed? (.adder nowMs took id)).toList ++ past) := by
  cases hold : s.phases[id]? with
  | none =>
    have hstep : s.stepAdder nowMs took id = s := by rw [Session.stepAdder, hold]
    simp only [step, deed?, hstep, hold, Deed.ofPhases?]
    exact h
  | some old =>
    cases old with
    | idle => exact h.wake hold
    | taken now => exact h.arrive hold
    | held now ticket => exact h.leave hold
    | freed now released => exact h.report hold
    | stopped => exact h.waits hold rfl (by rw [Session.stepAdder, hold])

end Adder

theorem Watched.synthetics (h : s.Watched past)
    {n : Nat}
    (hattends : s.fence = none ∨ ∃ g : Gathering n, s.Attends g) (took : Nat) :
    (s.step (.synthetics took)).Watched ((s.deed? (.synthetics took)).toList ++ past) := by
  have hmoves := moves_step h.wellFormed (.synthetics took)
  have hretains := fun id => Retains.refl id s.engine
  have hevent : s.step (.synthetics took) = s.stepSynthetics took := rfl
  rw [deed?]
  rcases stepSynthetics_cases s took with hstep | hstep | ⟨fence, hrelease, hstep⟩
  · rw [hevent, hstep, if_pos rfl]
    exact h
  · have hsame : ({ s with synthesized := true } : Session).generation = s.generation := rfl
    rw [hevent, hstep, if_pos hsame]
    exact h.quiet rfl rfl (.refl h.wellFormed) hretains
  · rcases hattends with hnone | ⟨g, hg⟩
    · rw [hnone] at hrelease
      cases hrelease
    obtain ⟨hopen, rfl, hheld⟩ := hg.all_held hrelease
    have hbefore : s.generation = some g.fence.generation := by rw [generation, hg.fence]; rfl
    rw [hevent, hstep] at hmoves ⊢
    rw [if_neg (by rw [hbefore]; simp [generation])]
    refine h.mark ?_ hmoves.wellFormed rfl ?_ ?_
    · rfl
    · rintro fence ⟨⟩ hclosed
      rw [hopen] at hclosed
      cases hclosed
    · -- Everyone holds what it swapped, and now it has been read.
      intro id phase hphase hstands
      have hid : id < n := hg.workers ▸ (List.getElem?_eq_some_iff.mp hphase).1
      obtain ⟨now, hnow⟩ := hheld id hid
      rw [hphase] at hnow
      cases hnow
      rw [Stands, if_pos hbefore] at hstands
      obtain ⟨swapped, rest, htrail, hkept⟩ := hstands
      refine (if_neg (by simp [generation])).mpr ⟨swapped, s.engine, took, rest, ?_, h.wellFormed,
        hkept, .refl id _⟩
      rw [trail, List.filter_cons_of_pos rfl, ← htrail]
      rfl

theorem Watched.step (h : s.Watched past) {n : Nat}
    (hattends : s.fence = none ∨ ∃ g : Gathering n, s.Attends g) (event : Event) :
    (s.step event).Watched ((s.deed? event).toList ++ past) := by
  have hmoves := moves_step h.wellFormed event
  have hkept : ∀ (step : Step), (∀ took, step ≠ .compute took) →
      (∀ id nowMs, step ≠ .take nowMs id) → ∀ id, Retains id s.engine (s.engine.step step) :=
    fun step hcompute htake id => Engine.retains_step h.wellFormed id step hcompute (htake id)
  cases event with
  | adder nowMs took id => exact h.stepAdder nowMs took id
  | synthetics took => exact h.synthetics hattends took
  | pass nowMs took kind id =>
    have hevent : s.step (.pass nowMs took kind id) = s.stepPass nowMs took kind id := rfl
    unfold stepPass at hevent
    split at hevent
    · rw [hevent]
      exact h
    · rw [hevent] at hmoves ⊢
      exact h.quiet rfl rfl hmoves (hkept (.pass nowMs took kind id) nofun nofun)
  | collection took =>
    have hevent : s.step (.collection took) = s.stepCollection took := rfl
    unfold stepCollection at hevent
    split at hevent
    · rw [hevent]
      exact h
    · rw [hevent] at hmoves ⊢
      exact h.quiet rfl rfl hmoves (hkept (.collect took) nofun nofun)
  | text text => exact h.quiet rfl rfl hmoves (hkept (.text text) nofun nofun)
  | closeFence =>
    refine h.mark ?_ hmoves.wellFormed rfl (fun _ _ _ => List.mem_cons_self) ?_
    · rfl
    intro id phase _ hstands
    refine hstands.later (.refl id _) ?_ rfl (List.mem_cons_of_mem _)
    simp [generation, Session.step, closeFence, Option.map_map, Function.comp_def, Fence.close]
  | disconnect => exact h.quiet rfl rfl hmoves fun id => .refl id _

end Step

theorem watched_start {e : Engine} (he : e.WellFormed) : (start e).Watched [] where
  wellFormed := he
  closed fence hsome hclosed := by
    simp only [start] at hsome
    split at hsome
    · cases hsome
    · cases hsome
      cases hclosed
  stands id phase hphase := by
    obtain rfl : phase = .idle := List.eq_of_mem_replicate (List.mem_of_getElem? hphase)
    trivial
  reports later id released now before hpast := by simp at hpast
  stopped later id now before hpast := by simp at hpast

theorem watched_run {e : Engine} (he : e.WellFormed) (events : List Event) :
    ((start e).run events).Watched ((start e).past events) := by
  induction events using List.reverseRecOn with
  | nil => exact watched_start he
  | append_singleton events last ih =>
    rw [past_snoc, run, List.foldl_append]
    exact ih.step (attends_run e events) last

/-- A worker reports what has entered a computation of its tick exactly if the fence has released
it. Otherwise the fence was closed, nothing has been computed since the worker swapped its shard,
and it does not tick again. -/
theorem complete_iff_released {c : EngineConfig} {e : Engine} (h : Engine.ofConfig c = .ok e)
    (calls : List Call) (events : List Event) {id : Nat} {released : Bool} {now : Engine}
    {later before : List Deed} (hpast : (start (e.run calls)).past events =
      later ++ .reported id released now :: before) :
    (Complete id now before ↔ released = true) ∧ (Missed id now before ↔ released = false) ∧
      (released = false → ∀ deed ∈ later, deed.worker? ≠ some id) := by
  have he := (Engine.leads_run (Engine.ofConfig_sound h).1 calls).wellFormed
  have hwatched := watched_run he events
  have hreport := hwatched.reports later id released now before hpast
  have hexclusive : Complete id now before → Missed id now before → False := by
    rintro ⟨_, _, _, htrail, -⟩ ⟨-, _, _, htrail', -⟩
    rw [htrail] at htrail'
    cases htrail'
  cases released with
  | true =>
    have hcomplete := Computed.complete hreport
    exact ⟨iff_of_true hcomplete rfl, iff_of_false (hexclusive hcomplete) Bool.noConfusion, nofun⟩
  | false =>
    obtain ⟨⟨swapped, rest, htrail, hkept⟩, hclosed⟩ := hreport
    have hmissed : Missed id now before := ⟨hclosed, swapped, rest, htrail, hkept.totals⟩
    exact ⟨iff_of_false (fun hcomplete => hexclusive hcomplete hmissed) Bool.noConfusion,
      iff_of_true hmissed rfl, fun _ => (hwatched.stopped later id now before hpast).2⟩

/-- One worker, and an adder that sums another. -/
def quietly : EngineConfig := { Engine.copying with selfStats := { enable := false } }

def go : Event := .adder 1000 0 0

def Deed.isReport (id : Nat) (released : Bool) : Deed → Bool
  | .reported other r _ => other == id && r == released
  | _ => false

theorem Deed.eq_reported {id : Nat} {released : Bool} {deed : Deed}
    (h : deed.isReport id released = true) : ∃ now, deed = .reported id released now := by
  cases deed with
  | reported other r now =>
    simp only [isReport, Bool.and_eq_true, beq_iff_eq] at h
    exact ⟨now, by rw [h.1, h.2]⟩
  | _ => cases h

/-- The worker is released, reports its shard, and swaps it again. -/
theorem complete_iff_released_once : ∃ e now later before, Engine.ofConfig quietly = .ok e ∧
    (start (e.run [Engine.point "a" 5])).past [go, go, .synthetics 0, go, go, go] =
      later ++ .reported 0 true now :: before ∧
    (Complete 0 now before ↔ true = true) ∧ (Missed 0 now before ↔ true = false) ∧
    (true = false → ∀ deed ∈ later, deed.worker? ≠ some 0) := by
  have hcheck : (Engine.ofConfig quietly).toOption.any (fun e =>
      ((start (e.run [Engine.point "a" 5])).past [go, go, .synthetics 0, go, go, go]).any
        (Deed.isReport 0 true)) = true := by
    decide +kernel
  obtain ⟨e, he, hany⟩ := Engine.exists_ofConfig hcheck
  obtain ⟨deed, hmem, hreport⟩ := List.any_eq_true.mp hany
  obtain ⟨now, rfl⟩ := Deed.eq_reported hreport
  obtain ⟨later, before, hpast⟩ := List.append_of_mem hmem
  exact ⟨e, now, later, before, he, hpast,
    complete_iff_released he [Engine.point "a" 5] _ hpast⟩

/-- The fence is closed between the two halves of a tick: the point of the source is reported, and
its sum is not. -/
theorem report_unreleased : ∃ e, Engine.ofConfig quietly = .ok e ∧
    let s := start (e.run [Engine.point "a" 5])
    let events := [go, .closeFence, go, go]
    String.join (s.run events).engine.drain.1.toList = "a 5.000000\nt 0.000000\n" ∧
      ∃ now before, s.past events = .reported 0 false now :: before ∧ ¬ Complete 0 now before := by
  have hcheck : (Engine.ofConfig quietly).toOption.any (fun e =>
      let s := start (e.run [Engine.point "a" 5])
      let events := [go, .closeFence, go, go]
      decide (String.join (s.run events).engine.drain.1.toList = "a 5.000000\nt 0.000000\n") &&
        (s.past events).head?.any (Deed.isReport 0 false)) = true := by
    decide +kernel
  obtain ⟨e, he, hboth⟩ := Engine.exists_ofConfig hcheck
  obtain ⟨htext, hshows⟩ := Bool.and_eq_true_iff.mp hboth
  obtain ⟨deed, hhead, hreport⟩ := (Option.any_eq_true _ _).mp hshows
  obtain ⟨now, rfl⟩ := Deed.eq_reported hreport
  obtain ⟨before, hpast⟩ := List.head?_eq_some_iff.mp hhead
  refine ⟨e, he, of_decide_eq_true htext, now, before, hpast, ?_⟩
  have hsound := (Engine.leads_run (Engine.ofConfig_sound he).1 [Engine.point "a" 5]).wellFormed
  obtain ⟨⟨_, _, hswapped, -⟩, -⟩ := (watched_run hsound _).reports [] 0 false now before hpast
  rintro ⟨_, _, _, hcomputed, -⟩
  rw [hswapped] at hcomputed
  cases hcomputed

end Session

end Rollup
