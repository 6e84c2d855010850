import Mathlib.Data.Finset.Card
import Mathlib.Data.Fintype.Card
import Mathlib.Data.List.Induction
import Rollup.Fence

/-! A fence with everyone who comes to it: workers that arrive again and again, a releaser, and a
close at any moment. Lock sections come in any order, and a section that finds nothing to do stands
for a wake-up without a cause. What the parties see of each other is a list of events. -/
namespace Rollup

inductive Fence.Event (n : Nat)
  /-- A worker is counted and goes to wait. -/
  | arrived (id : Fin n)
  /-- A call of a worker comes back and says whether it was released. -/
  | returned (id : Fin n) (released : Bool)
  /-- The releaser did its work, and let everyone go. -/
  | ran
  /-- The releaser was turned away. -/
  | declined
  | closed
  deriving DecidableEq, Repr

/-- Whose lock section comes next. A worker arrives if it does not wait, and looks if it does. -/
inductive Fence.Turn (n : Nat)
  | worker (id : Fin n)
  | releaser
  | closer
  deriving Repr

structure Gathering (n : Nat) where
  fence : Fence
  /-- The generation in which a worker arrived that still waits. -/
  ticket : Fin n → Option Nat
  /-- What has happened so far, newest first. -/
  past : List (Fence.Event n)

namespace Fence.Event

def worker? : Event n → Option (Fin n)
  | arrived id => some id
  | returned id _ => some id
  | _ => none

def recent (past : List (Event n)) : List (Event n) := past.takeWhile (· ≠ ran)

/-- A worker arrived after the work had been done `generation` times, and still waits. -/
def Waits (id : Fin n) (generation : Nat) (past : List (Event n)) : Prop :=
  ∃ later earlier, past = later ++ arrived id :: earlier ∧ earlier.count ran = generation ∧
    ∀ e ∈ later, e.worker? ≠ some id

/-- A worker has arrived once, and its call has not come back. -/
def Gathered (id : Fin n) (past : List (Event n)) : Prop :=
  ∃ later earlier, past = later ++ arrived id :: earlier ∧ arrived id ∉ earlier ∧
    ∀ e ∈ later, e.worker? ≠ some id

structure Orderly (past : List (Event n)) : Prop where
  /-- The work is done once every worker has arrived since it was last done, and waits. -/
  gathered : ∀ before, ran :: before <:+ past → ∀ id, Gathered id (recent before)
  /-- A released call arrived before the last time that the work was done, and after the time
  before that. -/
  released : ∀ before id, returned id true :: before <:+ past →
    ∃ generation, Waits id generation before ∧ before.count ran = generation + 1
  /-- One doing of the work releases a worker once. -/
  once : ∀ before, before <:+ past → ∀ id, (recent before).count (returned id true) ≤ 1
  /-- After a close nobody is let in, and the work is not done any more. -/
  shut : ∀ before after, past = after ++ closed :: before → ran ∉ after ∧ ∀ id, arrived id ∉ after

section Past

variable {past : List (Event n)} {e : Event n} {id : Fin n} {generation : Nat}

@[simp] theorem recent_nil : recent ([] : List (Event n)) = [] := rfl

@[simp] theorem recent_ran (past : List (Event n)) : recent (ran :: past) = [] := by
  simp [recent]

theorem recent_cons (he : e ≠ ran) (past : List (Event n)) :
    recent (e :: past) = e :: recent past := by
  simp [recent, he]

theorem Waits.cons (h : Waits id generation past) (he : e.worker? ≠ some id) :
    Waits id generation (e :: past) := by
  obtain ⟨later, earlier, rfl, hcount, hlater⟩ := h
  refine ⟨e :: later, earlier, rfl, hcount, ?_⟩
  simpa using ⟨he, hlater⟩

theorem Gathered.cons (h : Gathered id past) (he : e.worker? ≠ some id) :
    Gathered id (e :: past) := by
  obtain ⟨later, earlier, rfl, hnew, hlater⟩ := h
  refine ⟨e :: later, earlier, rfl, hnew, ?_⟩
  simpa using ⟨he, hlater⟩

theorem Waits.arrived (id : Fin n) (past : List (Event n)) :
    Waits id (past.count ran) (.arrived id :: past) :=
  ⟨[], past, rfl, rfl, by simp⟩

theorem Gathered.arrived (h : .arrived id ∉ past) : Gathered id (.arrived id :: past) :=
  ⟨[], past, rfl, h, by simp⟩

theorem orderly_nil : Orderly ([] : List (Event n)) where
  gathered before h := by simp at h
  released before id h := by simp at h
  once before h := by simp_all
  shut before after h := by simp at h

/-- The laws are kept by an event that keeps each of them by itself. -/
theorem Orderly.cons (h : Orderly past)
    (hgathered : e = ran → ∀ id, Gathered id (recent past))
    (hreleased : ∀ id, e = .returned id true →
      ∃ generation, Waits id generation past ∧ past.count ran = generation + 1)
    (honce : ∀ id, (recent (e :: past)).count (.returned id true) ≤ 1)
    (hshut : closed ∈ past → e ≠ ran ∧ ∀ id, e ≠ .arrived id) : Orderly (e :: past) where
  gathered before hbefore := by
    rcases List.suffix_cons_iff.mp hbefore with heq | hbefore
    · obtain ⟨rfl, rfl⟩ := List.cons.inj heq
      exact hgathered rfl
    · exact h.gathered before hbefore
  released before id hbefore := by
    rcases List.suffix_cons_iff.mp hbefore with heq | hbefore
    · obtain ⟨rfl, rfl⟩ := List.cons.inj heq
      exact hreleased id rfl
    · exact h.released before id hbefore
  once before hbefore := by
    rcases List.suffix_cons_iff.mp hbefore with rfl | hbefore
    · exact honce
    · exact h.once before hbefore
  shut before after heq := by
    cases after with
    | nil => simp
    | cons first after =>
      obtain ⟨rfl, rfl⟩ := List.cons.inj heq
      obtain ⟨hran, harrived⟩ := hshut (by simp)
      obtain ⟨hran', harrived'⟩ := h.shut before after rfl
      simp [hran.symm, hran', fun id => (harrived id).symm, harrived']

end Past

end Fence.Event

namespace Gathering

open Fence Fence.Event

def create (n : Nat) : Gathering n := ⟨.create n, fun _ => none, []⟩

def workerTurn (id : Fin n) (s : Gathering n) : Gathering n :=
  match s.ticket id with
  | none => match s.fence.enter with
    | (some ticket, fence) =>
      ⟨fence, Function.update s.ticket id (some ticket), .arrived id :: s.past⟩
    | (none, fence) => ⟨fence, s.ticket, .returned id false :: s.past⟩
  | some ticket => match s.fence.leave? ticket with
    | none => s
    | some released =>
      ⟨s.fence, Function.update s.ticket id none, .returned id released :: s.past⟩

def releaserTurn (s : Gathering n) : Gathering n :=
  match s.fence.release? with
  | none => s
  | some (true, fence) => ⟨fence, s.ticket, .ran :: s.past⟩
  | some (false, fence) => ⟨fence, s.ticket, .declined :: s.past⟩

def step (s : Gathering n) : Turn n → Gathering n
  | .worker id => s.workerTurn id
  | .releaser => s.releaserTurn
  | .closer => ⟨s.fence.close, s.ticket, .closed :: s.past⟩

def run (n : Nat) (turns : List (Turn n)) : Gathering n := turns.foldl step (create n)

def present (s : Gathering n) : Finset (Fin n) :=
  Finset.univ.filter fun id => s.ticket id = some s.fence.generation

structure Sound (s : Gathering n) : Prop where
  workers : s.fence.workers = max 1 n
  generation : s.fence.generation = s.past.count ran
  closed : s.fence.closed = true ↔ .closed ∈ s.past
  waits : ∀ id ticket, s.ticket id = some ticket → Waits id ticket s.past
  /-- Nobody sleeps through the next generation, which cannot end without it. -/
  behind : ∀ id ticket, s.ticket id = some ticket →
    ticket = s.fence.generation ∨ ticket + 1 = s.fence.generation
  ready : s.fence.closed = false → s.fence.ready = s.present.card
  ready_le : s.fence.ready ≤ n
  gathered : ∀ id, s.ticket id = some s.fence.generation → Gathered id (recent s.past)
  absent : s.fence.closed = false → ∀ id, s.ticket id ≠ some s.fence.generation →
    .arrived id ∉ recent s.past
  /-- Whoever is still to be released by the last work has not been. -/
  once : ∀ id, (recent s.past).count (.returned id true) +
    (if ∃ ticket < s.fence.generation, s.ticket id = some ticket then 1 else 0) ≤ 1
  orderly : Orderly s.past

theorem sound_create (n : Nat) : (create n).Sound where
  workers := rfl
  generation := rfl
  closed := by simp [create, Fence.create]
  waits id ticket h := by simp [create] at h
  behind id ticket h := by simp [create] at h
  ready _ := by simp [create, Fence.create, present]
  ready_le := Nat.zero_le n
  gathered id h := by simp [create] at h
  absent _ id _ := by simp [create]
  once id := by simp [create]
  orderly := orderly_nil

section Step

variable {s : Gathering n} {id : Fin n} {ticket : Nat}

theorem present_arrive (fence : Fence) (hgeneration : fence.generation = s.fence.generation)
    (past : List (Event n)) :
    present ⟨fence, Function.update s.ticket id (some s.fence.generation), past⟩ =
      insert id s.present := by
  ext other
  by_cases hother : other = id <;> simp [present, Function.update_apply, hother, hgeneration]

theorem ticket_of_arrive {other : Fin n} {generation t : Nat}
    (h : Function.update s.ticket id (some generation) other = some t) :
    (other = id ∧ t = generation) ∨ (other ≠ id ∧ s.ticket other = some t) := by
  by_cases hother : other = id
  · subst hother
    simp only [Function.update_self, Option.some.injEq] at h
    exact .inl ⟨rfl, h.symm⟩
  · exact .inr ⟨hother, by simpa [hother] using h⟩

theorem sound_arrive (h : s.Sound) (hopen : s.fence.closed = false) (hidle : s.ticket id = none) :
    Sound ⟨{ s.fence with ready := s.fence.ready + 1 },
      Function.update s.ticket id (some s.fence.generation), .arrived id :: s.past⟩ := by
  have hnew : id ∉ s.present := by simp [present, hidle]
  have hready : s.fence.ready + 1 = (insert id s.present).card := by
    rw [Finset.card_insert_of_notMem hnew, h.ready hopen]
  constructor
  case workers => exact h.workers
  case generation => simpa using h.generation
  case closed => simpa using h.closed
  case waits =>
    intro other ticket hticket
    rcases ticket_of_arrive hticket with ⟨rfl, rfl⟩ | ⟨hother, hticket⟩
    · rw [h.generation]
      exact .arrived other s.past
    · exact (h.waits other ticket hticket).cons (by simpa [worker?] using Ne.symm hother)
  case behind =>
    intro other ticket hticket
    rcases ticket_of_arrive hticket with ⟨rfl, rfl⟩ | ⟨-, hticket⟩
    · exact .inl rfl
    · exact h.behind other ticket hticket
  case ready =>
    intro _
    rw [present_arrive { s.fence with ready := s.fence.ready + 1 } rfl]
    exact hready
  case ready_le =>
    rw [hready]
    simpa using Finset.card_le_univ (insert id s.present)
  case gathered =>
    intro other hticket
    rw [recent_cons (by simp)]
    rcases ticket_of_arrive hticket with ⟨rfl, -⟩ | ⟨hother, hticket⟩
    · exact .arrived (h.absent hopen other (by simp [hidle]))
    · exact (h.gathered other hticket).cons (by simpa [worker?] using Ne.symm hother)
  case absent =>
    intro _ other hticket
    rw [recent_cons (by simp)]
    by_cases hother : other = id
    · simp [hother] at hticket
    · simp only [Function.update_of_ne hother] at hticket
      simpa [hother] using h.absent hopen other hticket
  case once =>
    intro other
    rw [recent_cons (by simp)]
    have honce := h.once other
    by_cases hother : other = id
    · simp_all
    · simpa [hother] using honce
  case orderly =>
    refine h.orderly.cons (by simp) (by simp) ?_ ?_
    · intro other
      have honce := h.once other
      simp only [recent_cons (e := .arrived id) (by simp), List.count_cons, beq_iff_eq,
        reduceCtorEq, if_false]
      omega
    · intro hclosed
      rw [← h.closed, hopen] at hclosed
      cases hclosed

theorem cause_of_leave? {fence : Fence} {released : Bool}
    (h : fence.leave? ticket = some released) :
    (fence.generation = ticket → fence.closed = true) ∧
      released = (fence.generation != ticket) := by
  unfold leave? at h
  split at h
  · cases h
  · simp_all

theorem ticket_of_leave {other : Fin n} {t : Nat}
    (h : Function.update s.ticket id none other = some t) : other ≠ id ∧ s.ticket other = some t := by
  by_cases hother : other = id
  · simp [hother] at h
  · exact ⟨hother, by simpa [hother] using h⟩

theorem ticket_ne_of_leave (hheld : s.ticket id = some ticket)
    (hended : s.fence.generation = ticket → s.fence.closed = true)
    (hopen : s.fence.closed = false) : s.ticket id ≠ some s.fence.generation := by
  rw [hheld]
  rintro ⟨⟩
  simp_all

theorem present_leave (hheld : s.ticket id = some ticket)
    (hended : s.fence.generation = ticket → s.fence.closed = true)
    (hopen : s.fence.closed = false) (past : List (Event n)) :
    present ⟨s.fence, Function.update s.ticket id none, past⟩ = s.present := by
  ext other
  by_cases hother : other = id
  · subst hother
    simp [present, ticket_ne_of_leave hheld hended hopen]
  · simp [present, hother]

/-- A release uses up the claim that an earlier ticket gives. -/
theorem Sound.once_leave (h : s.Sound) (hheld : s.ticket id = some ticket) (other : Fin n) :
    (recent (.returned id (s.fence.generation != ticket) :: s.past)).count (.returned other true) +
      (if ∃ t < s.fence.generation, Function.update s.ticket id none other = some t
        then 1 else 0) ≤ 1 := by
  have honce := h.once other
  rw [recent_cons (by simp)]
  by_cases hother : other = id
  · subst hother
    rcases h.behind other ticket hheld with rfl | hbehind
    · simp_all
    · have hlt : ticket < s.fence.generation := by omega
      have hclaim : ∃ t < s.fence.generation, s.ticket other = some t := ⟨ticket, hlt, hheld⟩
      rw [if_pos hclaim] at honce
      have hcount : (recent s.past).count (.returned other true) = 0 := by omega
      have hreleased : (s.fence.generation != ticket) = true := by simp; omega
      simp [hreleased, hcount]
  · simpa [hother, Ne.symm hother] using honce

theorem Sound.released_leave (h : s.Sound) (hheld : s.ticket id = some ticket)
    (hne : s.fence.generation ≠ ticket) :
    ∃ generation, Waits id generation s.past ∧ s.past.count .ran = generation + 1 := by
  refine ⟨ticket, h.waits id ticket hheld, ?_⟩
  rcases h.behind id ticket hheld with heq | hbehind
  · exact absurd heq.symm hne
  · rw [← h.generation, hbehind]

theorem sound_leave (h : s.Sound) (hheld : s.ticket id = some ticket) {released : Bool}
    (hleave : s.fence.leave? ticket = some released) :
    Sound ⟨s.fence, Function.update s.ticket id none, .returned id released :: s.past⟩ := by
  obtain ⟨hended, rfl⟩ := cause_of_leave? hleave
  constructor
  case workers => exact h.workers
  case generation => simpa using h.generation
  case closed => simpa using h.closed
  case waits =>
    intro other t hticket
    obtain ⟨hother, hticket⟩ := ticket_of_leave hticket
    exact (h.waits other t hticket).cons (by simpa [worker?] using Ne.symm hother)
  case behind =>
    intro other t hticket
    exact h.behind other t (ticket_of_leave hticket).2
  case ready =>
    intro hopen
    rw [present_leave hheld hended hopen]
    exact h.ready hopen
  case ready_le => exact h.ready_le
  case gathered =>
    intro other hticket
    obtain ⟨hother, hticket⟩ := ticket_of_leave hticket
    rw [recent_cons (by simp)]
    exact (h.gathered other hticket).cons (by simpa [worker?] using Ne.symm hother)
  case absent =>
    intro hopen other hticket
    rw [recent_cons (by simp)]
    have hbefore : s.ticket other ≠ some s.fence.generation := by
      by_cases hother : other = id
      · exact hother ▸ ticket_ne_of_leave hheld hended hopen
      · simpa [hother] using hticket
    simpa using h.absent hopen other hbefore
  case once => exact h.once_leave hheld
  case orderly =>
    refine h.orderly.cons (by simp) ?_ (fun other => ?_) (by simp)
    · intro other heq
      simp only [returned.injEq, bne_iff_ne, ne_eq] at heq
      obtain ⟨rfl, hne⟩ := heq
      exact h.released_leave hheld hne
    · have := h.once_leave hheld other
      omega

/-- The work is done when as many workers are present as there are, so that nobody is missing. -/
theorem Sound.all_present (h : s.Sound) {fence : Fence}
    (hrelease : s.fence.release? = some (true, fence)) :
    s.fence.closed = false ∧
      fence = { s.fence with ready := 0, generation := s.fence.generation + 1 } ∧
      ∀ id, s.ticket id = some s.fence.generation := by
  have hcause : s.fence.closed = false ∧ s.fence.workers ≤ s.fence.ready ∧
      fence = { s.fence with ready := 0, generation := s.fence.generation + 1 } := by
    unfold release? at hrelease
    split at hrelease
    · cases hrelease
    · split at hrelease
      · cases hrelease
      · simp_all
  obtain ⟨hopen, hready, rfl⟩ := hcause
  have hcard : s.present.card = Fintype.card (Fin n) := by
    refine Nat.le_antisymm (Finset.card_le_univ _) ?_
    rw [← h.ready hopen, Fintype.card_fin]
    rw [h.workers] at hready
    omega
  have huniv := Finset.eq_univ_of_card _ hcard
  exact ⟨hopen, rfl, fun id => by simpa [present] using huniv.ge (Finset.mem_univ id)⟩

theorem sound_release (h : s.Sound) {fence : Fence}
    (hrelease : s.fence.release? = some (true, fence)) :
    Sound ⟨fence, s.ticket, .ran :: s.past⟩ := by
  obtain ⟨hopen, rfl, hall⟩ := h.all_present hrelease
  constructor
  case workers => exact h.workers
  case generation => simpa using h.generation
  case closed => simpa using h.closed
  case waits =>
    intro id ticket hticket
    exact (h.waits id ticket hticket).cons (by simp [worker?])
  case behind =>
    intro id ticket hticket
    rw [hall id, Option.some.injEq] at hticket
    exact .inr (by rw [hticket])
  case ready =>
    intro _
    simp [present, hall]
  case ready_le => exact Nat.zero_le n
  case gathered =>
    intro id hticket
    simp [hall] at hticket
  case absent => simp
  case once =>
    intro id
    rw [recent_ran]
    split <;> simp
  case orderly =>
    refine h.orderly.cons (fun _ id => h.gathered id (hall id)) (by simp) (by simp) ?_
    intro hclosed
    rw [← h.closed, hopen] at hclosed
    cases hclosed

theorem sound_note (h : s.Sound) {e : Event n} {fence : Fence}
    (hfence : fence = { s.fence with closed := s.fence.closed || decide (e = .closed) })
    (hran : e ≠ .ran)
    (harrived : ∀ id, e ≠ .arrived id) (hreturned : ∀ id, e ≠ .returned id true)
    (hidle : ∀ id, e.worker? = some id → s.ticket id = none) :
    Sound ⟨fence, s.ticket, e :: s.past⟩ := by
  subst hfence
  have hopen : (s.fence.closed || decide (e = .closed)) = false → s.fence.closed = false := by
    simp +contextual
  have hother : ∀ id ticket, s.ticket id = some ticket → e.worker? ≠ some id := by
    intro id ticket hticket heq
    rw [hidle id heq] at hticket
    cases hticket
  have honce : ∀ id, (recent (e :: s.past)).count (.returned id true) =
      (recent s.past).count (.returned id true) := by
    intro id
    rw [recent_cons hran, List.count_cons_of_ne (hreturned id)]
  constructor
  case workers => exact h.workers
  case generation => simpa [List.count_cons_of_ne hran] using h.generation
  case closed =>
    have hclosed := h.closed
    by_cases he : e = .closed
    · simp [he]
    · simp [he, Ne.symm he, hclosed]
  case waits =>
    intro id ticket hticket
    exact (h.waits id ticket hticket).cons (hother id ticket hticket)
  case behind => exact h.behind
  case ready => exact fun hclosed => h.ready (hopen hclosed)
  case ready_le => exact h.ready_le
  case gathered =>
    intro id hticket
    rw [recent_cons hran]
    exact (h.gathered id hticket).cons (hother id _ hticket)
  case absent =>
    intro hclosed id hticket
    rw [recent_cons hran]
    simpa [(harrived id).symm] using h.absent (hopen hclosed) id hticket
  case once =>
    intro id
    rw [honce]
    exact h.once id
  case orderly =>
    refine h.orderly.cons (fun heq => absurd heq hran) (fun id heq => absurd heq (hreturned id)) ?_
      fun _ => ⟨hran, harrived⟩
    intro id
    have := h.once id
    rw [honce]
    omega

end Step

theorem sound_step {s : Gathering n} (h : s.Sound) (turn : Turn n) : (s.step turn).Sound := by
  cases turn with
  | worker id =>
    simp only [step, workerTurn]
    cases hticket : s.ticket id with
    | none =>
      by_cases hclosed : s.fence.closed = true
      · simp only [enter, hclosed, if_true]
        exact sound_note h (by simp) (by simp) (by simp) (by simp) (by simp [worker?, hticket])
      · rw [Bool.not_eq_true] at hclosed
        simpa [enter, hclosed] using sound_arrive h hclosed hticket
    | some ticket =>
      simp only
      cases hleave : s.fence.leave? ticket with
      | none => exact h
      | some released => exact sound_leave h hticket hleave
  | releaser =>
    simp only [step, releaserTurn]
    rcases hrelease : s.fence.release? with _ | ⟨_ | _, fence⟩
    · exact h
    · have hsame : fence = s.fence := by
        unfold release? at hrelease
        split at hrelease
        · simp_all
        · split at hrelease <;> cases hrelease
      exact sound_note h (by simp [hsame]) (by simp) (by simp) (by simp) (by simp [worker?])
    · exact sound_release h hrelease
  | closer => exact sound_note h (by simp [close]) (by simp) (by simp) (by simp) (by simp [worker?])

theorem sound_run (n : Nat) (turns : List (Turn n)) : (run n turns).Sound := by
  induction turns using List.reverseRecOn with
  | nil => exact sound_create n
  | append_singleton turns last ih =>
    rw [run, List.foldl_append]
    exact sound_step ih last

/-- The laws of the fence hold at every moment of every run, and once it has been closed, a worker
that does not wait is turned away at once. -/
theorem arrivals_orderly (n : Nat) (turns : List (Turn n)) :
    let s := run n turns
    s.fence.ready ≤ n ∧ Orderly s.past ∧
      (.closed ∈ s.past → ∀ id, (¬ ∃ generation, Waits id generation s.past) →
        (s.step (.worker id)).past = .returned id false :: s.past) := by
  intro s
  have h : s.Sound := sound_run n turns
  refine ⟨h.ready_le, h.orderly, fun hclosed id hidle => ?_⟩
  have hticket : s.ticket id = none := by
    cases hticket : s.ticket id with
    | none => rfl
    | some ticket => exact absurd ⟨ticket, h.waits id ticket hticket⟩ hidle
  simp [step, workerTurn, hticket, enter, h.closed.mpr hclosed]

/-- A fast worker has come back before a slow one has left. -/
example : (run 2 [.worker 0, .worker 1, .releaser, .worker 0, .worker 0, .worker 1]).past =
    [.returned 1 true, .arrived 0, .returned 0 true, .ran, .arrived 1, .arrived 0] := by
  decide

end Gathering

end Rollup
