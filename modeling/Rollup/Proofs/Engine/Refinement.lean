import Rollup.Proofs.Engine.Shutdown
import Rollup.Proofs.Engine.Tracking

/-! A shift refines the sequential run. Whatever the order is in which adder workers, synthetic
adders and points come, a tick of the workers hands off what the tick of a sequential run does that
gets the points of the same swaps before it, and leaves behind the same records. -/
namespace Rollup

inductive Processing
  | adder (totals : Totals) (predictor : Option Predictor)
  | gauge (totals : Totals)
  | stats (samples : Samples)
  | histogram (buckets : Buckets)

def Body.processing : Body → Processing
  | adder sides predictor => .adder sides.processed predictor
  | gauge sides => .gauge sides.processed
  | stats sides => .stats sides.processed
  | histogram sides => .histogram sides.processed

def Record.processing (r : Record) : Processing := r.body.processing

theorem Record.processing_absorb (ps : List Point) (r : Record) :
    (r.absorb ps).processing = r.processing :=
  view_absorb processing (fun r _ _ => by unfold processing update; cases r.body <;> rfl) ps r

namespace Point

def isFor (kind : Kind) (path : String) (p : Point) : Bool := p.kind == kind && p.path == path

def Interleaves (ps qs : List Point) : Prop :=
  ∀ kind path, ps.filter (isFor kind path) = qs.filter (isFor kind path)

variable {ps qs : List Point}

theorem Interleaves.mem (h : Interleaves ps qs) {p : Point} (hp : p ∈ ps) : p ∈ qs := by
  have hown : p ∈ ps.filter (isFor p.kind p.path) := List.mem_filter.mpr ⟨hp, by simp [isFor]⟩
  rw [h] at hown
  exact List.mem_of_mem_filter hown

theorem Interleaves.leadsTo (h : Interleaves ps qs) {e : Engine} (he : e.WellFormed) (k : Handle) :
    ps.filter (e.leadsTo k) = qs.filter (e.leadsTo k) := by
  by_cases hpath : ∃ kind path, e.store.locate kind path = some k
  · obtain ⟨kind, path, hlocate⟩ := hpath
    have hfor : e.leadsTo k = isFor kind path := by
      funext p
      rw [Bool.eq_iff_iff, Engine.leadsTo, beq_iff_eq, isFor, Bool.and_eq_true, beq_iff_eq,
        beq_iff_eq]
      constructor
      · intro hleads
        obtain ⟨r, hr, -, rfl, rfl⟩ := he.store.locate_eq_some_iff.mp hlocate
        obtain ⟨r', hr', -, hkind, hpath⟩ := he.store.locate_eq_some_iff.mp hleads
        rw [hr] at hr'
        cases hr'
        exact ⟨hkind.symm, hpath.symm⟩
      · rintro ⟨rfl, rfl⟩
        exact hlocate
    rw [hfor, h]
  · have hnone : ∀ p, e.leadsTo k p = false := by
      intro p
      rw [Engine.leadsTo, beq_eq_false_iff_ne]
      exact fun hleads => hpath ⟨p.kind, p.path, hleads⟩
    rw [List.filter_eq_nil_iff.mpr fun p _ => by simp [hnone p],
      List.filter_eq_nil_iff.mpr fun p _ => by simp [hnone p]]

end Point

namespace Shift

def linesOf (buffers : List String) : List (List Char) :=
  buffers.flatMap fun buffer => lines buffer.toList

structure Refines (t : Rhythm) (batch : Nat → List Point) (e : Engine) (s : Shift) : Prop where
  /-- What all workers have reported in a tick. -/
  lines : ∀ g, (∀ id ∈ e.workerIds .adder, g < s.done id) →
    (linesOf (s.sent g)).Perm (linesOf (e.sequelSent t batch g))
  /-- The shard of a worker that is between two ticks, wherever the others are. -/
  shards : ∀ id, s.session.phases[id]? = some .idle → s.task id = none → ∀ h ∈ e.shardOf id,
    (s.engine.store.get? h).map Record.processing =
      ((e.sequel t batch (s.done id)).store.get? h).map Record.processing
  /-- All records, once all workers have completed the same ticks. -/
  records : ∀ g, s.Rests g → ∀ h, (s.engine.store.get? h).map Record.processing =
    ((e.sequel t batch g).store.get? h).map Record.processing

variable {t : Rhythm} {batch : Nat → List Point} {e d : Engine} {s : Shift}

theorem Shows.processing {h : Handle} (hshows : s.Shows d h) :
    (s.engine.store.get? h).map Record.processing =
      (d.store.get? h).map Record.processing := by
  rw [hshows, Option.map_map]
  congr 1
  funext r
  exact r.processing_absorb s.pending

section Tracks

theorem tracks_start (he : e.WellFormed) : Tracks t batch e (start e) := by
  have hgeneration : ∀ g, (start e).session.generation = some g → g = 0 := by
    intro g hg
    obtain ⟨fence, hfence, -⟩ := Option.map_eq_some_iff.mp hg
    exact Option.some.inj (hg.symm.trans (Session.attends_start hfence).generation)
  have hfirst : (start e).session.generation.getD 0 = 0 := by
    cases hg : (start e).session.generation with
    | none => rfl
    | some g => exact hgeneration g hg
  have hshows : ∀ k, (start e).Shows e k := fun _ => Option.map_id'.symm
  constructor
  case crew => exact List.length_replicate.trans (Engine.length_workers e .adder)
  case absent => exact fun _ _ => rfl
  case fence =>
    rw [← Engine.length_workers]
    cases hfence : (Session.start e).fence with
    | none =>
      refine .inl ⟨congrArg (Option.map Fence.generation) hfence, ?_⟩
      by_contra hsome
      have hpos := he.computing hsome
      rw [← Engine.length_workers] at hpos
      simp [Session.start, hsome, Nat.ne_of_gt hpos] at hfence
    | some fence =>
      refine .inr ⟨Nat.pos_of_ne_zero fun hnone => ?_, _, Session.attends_start hfence, rfl⟩
      simp [Session.start, hnone] at hfence
  case synthetics => rw [hfirst]; rfl
  case others =>
    intro k _
    rw [hfirst]
    exact hshows k
  case posts =>
    intro id hid
    refine ⟨.fresh, ⟨rfl, ?_, fun g hg => hgeneration g hg⟩, ?_, fun k _ => hshows k⟩
    · rw [← Engine.length_workers] at hid
      simp [start, Session.start, hid]
    · exact Option.map_id'.symm
  case sent =>
    intro g
    rw [List.flatMap_eq_nil_iff.mpr fun id _ => ?_]
    · exact .refl []
    · have hdone : (start e).done id = 0 := rfl
      rw [credit, hdone, if_neg (Nat.not_lt_zero g)]
      split
      · rename_i hzero
        rw [hzero]
        exact Engine.buffersSince_self id e
      · rfl

variable (he : e.WellFormed)

include he

theorem tracks_run (hserves : Serves batch e) (moves : List Move)
    (hagrees : Agrees batch e ((start e).run t moves)) :
    Tracks t batch e ((start e).run t moves) := by
  induction moves using List.reverseRecOn with
  | nil => exact tracks_start he
  | append_singleton moves last ih =>
    have horderly := orderly_run t he moves
    have hlater := (orderly_step t horderly last).2
    rw [run_append] at hagrees ⊢
    exact (ih (hagrees.of_later hlater)).step he hserves horderly last hagrees

theorem get?_sequel_of_not_mem (hserves : Serves batch e) (hnone : e.synthetics = []) (g : Nat)
    {k : Handle} (hk : ∀ id, k ∉ e.shardOf id) :
    (e.sequel t batch g).store.get? k = e.store.get? k := by
  induction g with
  | zero => rfl
  | succ g ih =>
    rw [Post.get?_sequel_succ_of_not_mem he hserves.welcomes g hk,
      Engine.store_sequelComputed t batch he hserves.welcomes g hnone,
      Post.get?_sequelTaken_of_not_mem he hserves.welcomes hserves.owned g hk, ih]

theorem Tracks.shows_of_rests (h : Tracks t batch e s) (hserves : Serves batch e) {g : Nat}
    (hrests : s.Rests g) (k : Handle) : s.Shows (e.sequel t batch g) k := by
  have hfresh : ∀ id < e.crew .adder, s.done id = g ∧ s.Even id ∧
      Post.fresh.Holds t batch e s id := by
    intro id hid
    obtain ⟨hphase, htask, hdone⟩ := hrests id (h.crew.symm ▸ hid)
    obtain ⟨post, hfits, hholds⟩ := h.posts id hid
    obtain ⟨rfl, heven⟩ := hfits.of_idle htask hphase
    exact ⟨hdone, heven, hholds⟩
  by_cases hk : ∃ id, k ∈ e.shardOf id
  · obtain ⟨id, hk⟩ := hk
    obtain ⟨rfl, -, hholds⟩ := hfresh id (Engine.lt_crew_of_mem_shardOf he hk)
    exact hholds.records k hk
  · have hk : ∀ id, k ∉ e.shardOf id := fun id hid => hk ⟨id, hid⟩
    have hother := h.others k hk
    rcases h.fence with ⟨hgeneration, hnone⟩ | ⟨hpos, fence, hattends, -⟩
    · rw [hgeneration] at hother
      rw [Shows, get?_sequel_of_not_mem he hserves hnone g hk]
      exact hother
    · -- All workers have noticed the end of the last generation.
      obtain ⟨hdone, heven, -⟩ := hfresh 0 hpos
      rw [hattends.generation, heven _ hattends.generation, hdone] at hother
      exact hother

theorem Tracks.refines (h : Tracks t batch e s) (hserves : Serves batch e) :
    s.Refines t batch e where
  lines g hdone := by
    rw [Engine.workerIds_eq] at hdone
    have hcredit : (List.range (e.crew .adder)).flatMap (s.credit t batch e g) =
        e.sequelSent t batch g := by
      rw [Engine.sequelSent, Engine.workerIds_eq]
      exact List.flatMap_congr fun id hid => if_pos (hdone id hid)
    exact ((h.sent g).trans (.of_eq hcredit)).flatMap_right _
  shards id hphase htask k hk := by
    obtain ⟨post, hfits, hholds⟩ := h.posts id (Engine.lt_crew_of_mem_shardOf he hk)
    obtain ⟨rfl, -⟩ := hfits.of_idle htask hphase
    exact (hholds.records k hk).processing
  records g hrests k := (h.shows_of_rests he hserves hrests k).processing

end Tracks

/-- Whatever the order of the steps is, the ticks of the workers of a running engine hand off the
lines of its ticks one after the other, and leave its records the same, if these get the points that
the swaps have taken. -/
theorem run_refines {c : EngineConfig} {first : Engine} (h : Engine.ofConfig c = .ok first)
    (calls : List Call) (t : Rhythm) (moves : List Move) (batch : Nat → List Point) :
    let e := first.run calls
    let s := (start e).run t moves
    (∀ g, Point.Interleaves (batch g) (s.batch g)) → s.Refines t batch e := by
  intro e s hbatch
  have he : e.WellFormed :=
    (Engine.leads_run (Engine.ofConfig_sound h).1 calls).wellFormed
  have horderly : Orderly e s := orderly_run t he moves
  have hserves : Serves batch e :=
    ⟨fun g p hp => (horderly.batch g p ((hbatch g).mem hp)).1,
      fun g p hp => (horderly.batch g p ((hbatch g).mem hp)).2⟩
  have hagrees : Agrees batch e s := fun _ k _ g _ => (hbatch g).leadsTo he k
  exact (tracks_run he hserves moves hagrees).refines he hserves

/-- Two workers: one has a source, and the other the sum of it. -/
def parted : EngineConfig :=
  Session.quietly.sized ⟨.ofFn fun _ => some 2, .ofFn fun _ => some 2, 64⟩

def steady : Rhythm := ⟨fun g => 1000 * (g + 1), fun _ _ => 0⟩

def half (id : Nat) : List Move := List.replicate 4 (.worker id)

/-- A point comes in for a source that the first worker has swapped, and this one swaps it again
before the second worker reports the sum. -/
def overtaking : List Move :=
  half 0 ++ [.point ⟨"a", .adder, 7, .set⟩] ++ half 1 ++ [.synthetics 0] ++ half 0 ++ half 0 ++
    half 1 ++ half 1 ++ [.synthetics 0] ++ half 0 ++ half 1

theorem run_refines_overtaking : ∃ first, Engine.ofConfig parted = .ok first ∧
    let e := first.run [Engine.point "a" 5]
    let s := (start e).run steady overtaking
    s.sent 0 = ["a 5.000000\n", "t 5.000000\n"] ∧ s.sent 1 = ["a 7.000000\n", "t 7.000000\n"] ∧
      (∀ id ∈ e.workerIds .adder, s.done id = 2) ∧ (∀ g, Point.Interleaves (s.batch g) (s.batch g)) ∧
      s.Refines steady s.batch e := by
  have hcheck : (Engine.ofConfig parted).toOption.any (fun first =>
      let e := first.run [Engine.point "a" 5]
      let s := (start e).run steady overtaking
      decide (s.sent 0 = ["a 5.000000\n", "t 5.000000\n"] ∧
        s.sent 1 = ["a 7.000000\n", "t 7.000000\n"] ∧
          ∀ id ∈ e.workerIds .adder, s.done id = 2)) = true := by
    decide +kernel
  obtain ⟨first, hfirst, hshows⟩ := Engine.exists_ofConfig hcheck
  obtain ⟨hbefore, hafter, hdone⟩ := of_decide_eq_true hshows
  have hsame : ∀ ps : List Point, Point.Interleaves ps ps := fun _ _ _ => rfl
  exact ⟨first, hfirst, hbefore, hafter, hdone, fun g => hsame _,
    run_refines hfirst [Engine.point "a" 5] steady overtaking _ fun g => hsame _⟩

end Shift

end Rollup
