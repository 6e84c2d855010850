import Rollup.Engine.Session
import Rollup.Proofs.Fence.Gathering

/-! The adder workers of a session at its fence. They arrive, wait and leave as the workers of a
gathering do, so that what holds of every gathering holds of the fence of a session. -/
namespace Rollup

def Phase.ticket? : Phase → Option Nat
  | .held _ ticket => some ticket
  | _ => none

namespace Session

def generation (s : Session) : Option Nat := s.fence.map Fence.generation

/-- The fence and those who wait at it are those of a gathering. -/
structure Attends (s : Session) (g : Gathering n) : Prop where
  fence : s.fence = some g.fence
  workers : s.phases.length = n
  ticket : ∀ id : Fin n, s.phases[id.val]?.bind Phase.ticket? = g.ticket id
  sound : g.Sound

theorem Attends.generation {s : Session} {g : Gathering n} (h : s.Attends g) :
    s.generation = some g.fence.generation := by
  rw [Session.generation, h.fence]
  rfl

theorem attends_start {e : Engine} {fence : Fence} (h : (start e).fence = some fence) :
    (start e).Attends (Gathering.create (e.workers.get .adder).length) := by
  have hfence : (start e).fence = some (.create (e.workers.get .adder).length) := by
    unfold start at h ⊢
    simp only at h ⊢
    split at h
    · cases h
    · rename_i hsome
      rw [if_neg hsome]
  refine ⟨hfence, List.length_replicate, fun id => ?_, Gathering.sound_create _⟩
  simp [start, Phase.ticket?, Gathering.create]

theorem phases_setPhase (s : Session) (id : Nat) (phase : Phase) (other : Nat) :
    (s.setPhase id phase).phases[other]? =
      if other = id then s.phases[other]?.map fun _ => phase else s.phases[other]? := by
  rw [setPhase, List.getElem?_set']
  by_cases hother : other = id
  · subst hother
    rw [if_pos rfl, if_pos rfl]
    rfl
  · rw [if_neg hother, if_neg (Ne.symm hother)]

theorem stepAdder_waiting {s : Session} {id : Nat} (nowMs took : Nat)
    (hidle : s.phases[id]? ≠ some .idle)
    (hfreed : ∀ now released, s.phases[id]? ≠ some (.freed now released)) :
    (s.stepAdder nowMs took id).engine = s.engine ∧
      (s.stepAdder nowMs took id).phases[id]? ≠ some .idle ∧
        ∀ other, other ≠ id → (s.stepAdder nowMs took id).phases[other]? = s.phases[other]? := by
  have hset : ∀ phase, phase ≠ .idle → ∀ fence, let s' := { s with fence := fence }.setPhase id phase
      s'.engine = s.engine ∧ s'.phases[id]? ≠ some .idle ∧
        ∀ other, other ≠ id → s'.phases[other]? = s.phases[other]? := by
    intro phase hphase fence s'
    refine ⟨rfl, ?_, fun other hother => ?_⟩
    · rw [phases_setPhase, if_pos rfl]
      simp [hphase]
    · rw [phases_setPhase, if_neg hother]
  have hsame : s.engine = s.engine ∧ s.phases[id]? ≠ some .idle ∧
      ∀ other, other ≠ id → s.phases[other]? = s.phases[other]? := ⟨rfl, hidle, fun _ _ => rfl⟩
  unfold stepAdder
  split
  · exact hsame
  · exact absurd ‹_› hidle
  · unfold arrive
    split
    · exact hsame
    · split
      · exact hset (.held _ _) nofun _
      · exact hset (.freed _ _) nofun s.fence
  · unfold leave
    split
    · exact hsame
    · exact hset (.freed _ _) nofun s.fence
  · exact absurd ‹_› (hfreed _ _)
  · exact hsame

theorem stepSynthetics_cases (s : Session) (took : Nat) :
    s.stepSynthetics took = s ∨ s.stepSynthetics took = { s with synthesized := true } ∨
      ∃ fence, s.fence.bind Fence.release? = some (true, fence) ∧ s.stepSynthetics took =
        { s with fence := some fence, engine := s.engine.runSynthetics took } := by
  unfold stepSynthetics
  split
  · exact .inl rfl
  · split
    · exact .inl rfl
    · exact .inr (.inl rfl)
    · exact .inr (.inr ⟨_, ‹_›, rfl⟩)

section Turns

variable {s s' : Session} {g g' : Gathering n} {id : Nat}

theorem Attends.turn (h : s.Attends g) (hid : id < n) (phase : Phase) (hsound : g'.Sound)
    (hfence : s'.fence = some g'.fence) (hphases : s'.phases = s.phases.set id phase)
    (hticket : g'.ticket = Function.update g.ticket ⟨id, hid⟩ phase.ticket?) : s'.Attends g' where
  fence := hfence
  workers := by rw [hphases, List.length_set, h.workers]
  ticket other := by
    rw [hphases, hticket, List.getElem?_set]
    by_cases hother : id = other.val
    · subst hother
      simp [h.workers, hid]
    · have hne : other ≠ ⟨id, hid⟩ := fun heq => hother (congrArg Fin.val heq).symm
      simpa [hother, hne] using h.ticket other
  sound := hsound

theorem Attends.away (h : s.Attends g) {old : Phase} (hold : s.phases[id]? = some old)
    (phase : Phase) (hnot : old.ticket? = none) (hnot' : phase.ticket? = none) (hfence : s'.fence = s.fence)
    (hphases : s'.phases = s.phases.set id phase) : s'.Attends g := by
  have hid : id < n := h.workers ▸ (List.getElem?_eq_some_iff.mp hold).1
  refine h.turn hid phase h.sound (hfence.trans h.fence) hphases ?_
  rw [hnot', eq_comm, Function.update_eq_self_iff, ← h.ticket ⟨id, hid⟩]
  simp [hold, hnot]

theorem Attends.same (h : s.Attends g) (hfence : s'.fence = s.fence)
    (hphases : s'.phases = s.phases) : s'.Attends g :=
  ⟨hfence.trans h.fence, hphases ▸ h.workers, hphases ▸ h.ticket, h.sound⟩

variable (nowMs took : Nat)

theorem Attends.wake (h : s.Attends g) (hphase : s.phases[id]? = some .idle) :
    (s.wake nowMs took id).Attends g := by
  unfold Session.wake
  split
  · exact h.away hphase .stopped rfl rfl rfl rfl
  · rw [h.fence]
    exact h.away hphase (.taken nowMs) rfl rfl h.fence.symm rfl

theorem Attends.arrive (h : s.Attends g) (hphase : s.phases[id]? = some (.taken nowMs)) :
    ∃ g' : Gathering n, (s.arrive nowMs id).Attends g' := by
  have hid : id < n := h.workers ▸ (List.getElem?_eq_some_iff.mp hphase).1
  unfold Session.arrive
  rw [h.fence]
  simp only
  by_cases hclosed : g.fence.closed = true
  · simp only [Fence.enter, hclosed, if_true]
    exact ⟨g, h.away hphase (.freed nowMs false) rfl rfl rfl rfl⟩
  · rw [Bool.not_eq_true] at hclosed
    have hnot : g.ticket ⟨id, hid⟩ = none := by
      rw [← h.ticket ⟨id, hid⟩]
      simp [hphase, Phase.ticket?]
    have henter : g.fence.enter = (some g.fence.generation,
        { g.fence with ready := g.fence.ready + 1 }) := by
      rw [Fence.enter, if_neg (by rw [hclosed]; exact Bool.false_ne_true)]
    rw [henter]
    exact ⟨_, h.turn hid (.held nowMs _) (Gathering.sound_arrive h.sound hclosed hnot) rfl rfl rfl⟩

theorem Attends.leave (h : s.Attends g) {ticket : Nat}
    (hphase : s.phases[id]? = some (.held nowMs ticket)) :
    ∃ g' : Gathering n, (s.leave nowMs ticket id).Attends g' := by
  have hid : id < n := h.workers ▸ (List.getElem?_eq_some_iff.mp hphase).1
  have hheld : g.ticket ⟨id, hid⟩ = some ticket := by
    rw [← h.ticket ⟨id, hid⟩]
    simp [hphase, Phase.ticket?]
  unfold Session.leave
  rw [h.fence, Option.bind_some]
  cases hleave : g.fence.leave? ticket with
  | none => exact ⟨g, h⟩
  | some released =>
    exact ⟨_, h.turn hid (.freed nowMs released)
      (Gathering.sound_leave h.sound hheld hleave) h.fence rfl rfl⟩

theorem Attends.report (h : s.Attends g) {released : Bool}
    (hphase : s.phases[id]? = some (.freed nowMs released)) :
    (s.report nowMs took id released).Attends g := by
  refine h.away hphase (if released then .idle else .stopped) rfl ?_ rfl rfl
  cases released <;> rfl

theorem Attends.stepAdder (h : s.Attends g) (id : Nat) :
    ∃ g' : Gathering n, (s.stepAdder nowMs took id).Attends g' := by
  unfold Session.stepAdder
  split
  · exact ⟨g, h⟩
  · rename_i hphase
    exact ⟨g, h.wake nowMs took hphase⟩
  · rename_i now hphase
    exact h.arrive now hphase
  · rename_i now ticket hphase
    exact h.leave now hphase
  · rename_i now released hphase
    exact ⟨g, h.report now took hphase⟩
  · exact ⟨g, h⟩

theorem Attends.stepSynthetics (h : s.Attends g) :
    ∃ g' : Gathering n, (s.stepSynthetics took).Attends g' := by
  rcases stepSynthetics_cases s took with hstep | hstep | ⟨fence, hrelease, hstep⟩
  · rw [hstep]
    exact ⟨g, h⟩
  · rw [hstep]
    exact ⟨g, h.same rfl rfl⟩
  · rw [h.fence, Option.bind_some] at hrelease
    rw [hstep]
    exact ⟨⟨fence, g.ticket, .ran :: g.past⟩, rfl, h.workers, h.ticket,
      Gathering.sound_release h.sound hrelease⟩

end Turns

theorem fence_step_none {s : Session} (h : s.fence = none) (event : Event) :
    (s.step event).fence = none := by
  cases event with
  | adder nowMs took id =>
    simp only [step, stepAdder]
    split
    · exact h
    · simp only [wake, h]
      split
      · exact h
      · rfl
    · simp only [arrive, h]
    · simp only [leave, h, Option.bind_none]
    · exact h
    · exact h
  | synthetics took =>
    simp only [step, stepSynthetics, h, Option.bind_none]
    split <;> exact h
  | pass nowMs took kind id => simp only [step, stepPass]; split <;> exact h
  | collection took => simp only [step, stepCollection]; split <;> exact h
  | text text => exact h
  | closeFence => simp only [step, closeFence, h, Option.map_none]
  | disconnect => exact h

variable {s : Session} {g : Gathering n}

theorem Attends.step (h : s.Attends g) (event : Event) :
    ∃ g' : Gathering n, (s.step event).Attends g' := by
  cases event with
  | adder nowMs took id => exact h.stepAdder nowMs took id
  | synthetics took => exact h.stepSynthetics took
  | pass nowMs took kind id =>
    refine ⟨g, h.same ?_ ?_⟩ <;> · simp only [Session.step, stepPass]; split <;> rfl
  | collection took =>
    refine ⟨g, h.same ?_ ?_⟩ <;> · simp only [Session.step, stepCollection]; split <;> rfl
  | text text => exact ⟨g, h.same rfl rfl⟩
  | closeFence =>
    refine ⟨g.step .closer, ?_, h.workers, h.ticket, Gathering.sound_step h.sound .closer⟩
    rw [Session.step, closeFence, h.fence]
    rfl
  | disconnect => exact ⟨g, h.same rfl rfl⟩

theorem attends_run (e : Engine) (events : List Event) : ((start e).run events).fence = none ∨
    ∃ g : Gathering (e.workers.get .adder).length, ((start e).run events).Attends g := by
  induction events using List.reverseRecOn with
  | nil =>
    cases hfence : (start e).fence with
    | none => exact .inl hfence
    | some fence => exact .inr ⟨_, attends_start hfence⟩
  | append_singleton events last ih =>
    rw [run, List.foldl_append]
    rcases ih with hnone | ⟨g, hg⟩
    · exact .inl (fence_step_none hnone last)
    · exact .inr (hg.step last)

/-- Synthetic adders are computed while all workers wait for the end of the same generation. -/
theorem Attends.all_held (h : s.Attends g) {fence : Fence}
    (hrelease : s.fence.bind Fence.release? = some (true, fence)) :
    g.fence.closed = false ∧
      fence = { g.fence with ready := 0, generation := g.fence.generation + 1 } ∧
      ∀ id < n, ∃ now, s.phases[id]? = some (.held now g.fence.generation) := by
  rw [h.fence, Option.bind_some] at hrelease
  obtain ⟨hopen, hfence, hall⟩ := h.sound.all_present hrelease
  refine ⟨hopen, hfence, fun id hid => ?_⟩
  have hticket := (h.ticket ⟨id, hid⟩).trans (hall ⟨id, hid⟩)
  obtain ⟨phase, hphase, hheld⟩ := Option.bind_eq_some_iff.mp hticket
  cases phase with
  | held now ticket =>
    obtain rfl := Option.some.inj hheld
    exact ⟨now, hphase⟩
  | _ => cases hheld

def Manned (n : Nat) (s : Session) : Prop :=
  ∃ g : Gathering n, s.Attends g ∧ g.fence.closed = false

section Manned

variable {n : Nat} {s s' : Session}

theorem Manned.same (h : s.Manned n) (hfence : s'.fence = s.fence) (hphases : s'.phases = s.phases) :
    s'.Manned n :=
  let ⟨g, hattends, hopen⟩ := h
  ⟨g, hattends.same hfence hphases, hopen⟩

theorem Manned.away (h : s.Manned n) {id : Nat} {old : Phase} (hold : s.phases[id]? = some old)
    (phase : Phase) (hnot : old.ticket? = none) (hnot' : phase.ticket? = none)
    (hfence : s'.fence = s.fence) (hphases : s'.phases = s.phases.set id phase) : s'.Manned n :=
  let ⟨g, hattends, hopen⟩ := h
  ⟨g, hattends.away hold phase hnot hnot' hfence hphases, hopen⟩

theorem Manned.arrive (h : s.Manned n) {id nowMs generation : Nat}
    (hphase : s.phases[id]? = some (.taken nowMs)) (hgeneration : s.generation = some generation) :
    (s.arrive nowMs id).Manned n ∧ (s.arrive nowMs id).generation = some generation ∧
      (s.arrive nowMs id).engine = s.engine ∧
      (s.arrive nowMs id).phases = s.phases.set id (.held nowMs generation) := by
  obtain ⟨g, hattends, hopen⟩ := h
  have hcurrent : g.fence.generation = generation :=
    Option.some.inj (hattends.generation.symm.trans hgeneration)
  have harrive : s.arrive nowMs id =
      { s with fence := some { g.fence with ready := g.fence.ready + 1 } }.setPhase id
        (.held nowMs g.fence.generation) := by
    simp only [Session.arrive, hattends.fence, Fence.enter, hopen, Bool.false_eq_true, if_false]
  obtain ⟨g', hattends'⟩ := hattends.arrive nowMs hphase
  refine ⟨⟨g', hattends', ?_⟩, ?_, ?_, ?_⟩
  · have hfence := hattends'.fence
    rw [harrive] at hfence
    rw [← Option.some.inj hfence]
    exact hopen
  · rw [harrive, ← hcurrent]
    rfl
  · rw [harrive]
    rfl
  · rw [harrive, hcurrent]
    rfl

theorem Manned.leave (h : s.Manned n) {id nowMs ticket generation : Nat}
    (hphase : s.phases[id]? = some (.held nowMs ticket))
    (hgeneration : s.generation = some generation) :
    (s.leave nowMs ticket id).Manned n ∧ s.leave nowMs ticket id =
      if generation = ticket then s else s.setPhase id (.freed nowMs true) := by
  obtain ⟨g, hattends, hopen⟩ := h
  have hcurrent : g.fence.generation = generation :=
    Option.some.inj (hattends.generation.symm.trans hgeneration)
  have hleave : s.leave nowMs ticket id =
      if generation = ticket then s else s.setPhase id (.freed nowMs true) := by
    simp only [Session.leave, hattends.fence, Option.bind_some, Fence.leave?, hopen, hcurrent,
      and_true]
    by_cases hended : generation = ticket
    · simp [hended]
    · rw [if_neg hended, if_neg hended, bne_iff_ne.mpr hended]
  obtain ⟨g', hattends'⟩ := hattends.leave nowMs hphase
  refine ⟨⟨g', hattends', ?_⟩, hleave⟩
  have hfence := hattends'.fence
  have hkept : (s.leave nowMs ticket id).fence = s.fence := by
    rw [hleave]
    split <;> rfl
  rw [hkept, hattends.fence] at hfence
  rw [← Option.some.inj hfence]
  exact hopen

end Manned

end Session

end Rollup
