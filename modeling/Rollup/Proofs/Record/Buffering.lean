import Mathlib.Algebra.GroupWithZero.Nat
import Mathlib.Data.List.Induction
import Rollup.Engine.Ingest

/-! Double buffering. Between swaps the input side of a record is a plain fold of updates in order
of arrival, whatever the recycled side held two ticks ago, and that fold is what each swap hands on.
-/
namespace Rollup

structure Update where
  value : Float
  adjustment : Adjustment

namespace Update

def applies (u : Update) : Bool := (UpdateError.ofValue? u.value).isNone

def sum (us : List Update) : Float := (us.map (·.value)).foldl (· + ·) 0.0

def move (level : Float) (u : Update) : Float :=
  match u.adjustment with
  | .set => u.value
  | .add => level + u.value
  | .subtract => level - u.value

def level (us : List Update) : Float := us.foldl move 0.0

def tally (layout : Layout) (us : List Update) : Array Nat :=
  Array.ofFn fun bucket : Fin layout.bucketCount =>
    us.countP fun u => layout.bucketIndex u.value == bucket.val

theorem tally_nil (layout : Layout) : tally layout [] = Array.replicate layout.bucketCount 0 := by
  ext i hi hi'
  · simp [tally]
  · simp [tally]

theorem tally_snoc (layout : Layout) (us : List Update) (u : Update) :
    tally layout (us ++ [u]) =
      (tally layout us).modify (layout.bucketIndex u.value) (· + 1) := by
  ext i hi hi'
  · simp [tally]
  · rw [Array.getElem_modify]
    simp only [tally, Array.getElem_ofFn, List.countP_append, List.countP_cons, List.countP_nil]
    by_cases h : layout.bucketIndex u.value = i
    · simp [h]
    · simp [h]

end Update

namespace Samples

theorem modify_last (front : Array (Array Float)) (last : Array Float)
    (f : Array Float → Array Float) :
    (front.push last).modify ((front.push last).size - 1) f = front.push (f last) := by
  apply Array.ext
  · simp
  · intro i hi hi'
    rw [Array.getElem_modify]
    simp only [Array.size_modify, Array.size_push] at hi
    simp only [Array.size_push, Nat.add_sub_cancel, Array.getElem_push]
    by_cases h : i < front.size
    · simp [h, Nat.ne_of_gt h]
    · simp [show front.size = i by omega]

theorem flatten_push (s : Samples) (value : Float) :
    (s.push value).flatten.toList = s.flatten.toList ++ [value] := by
  obtain ⟨chunks, count⟩ := s
  unfold push flatten
  split
  · simp
  · rename_i room
    -- A last chunk with room exists, and takes the sample.
    cases hlast : chunks.back? with
    | none => simp [needsChunk, hlast] at room
    | some last =>
      obtain ⟨front, rfl⟩ := Array.back?_eq_some_iff.mp hlast
      rw [modify_last]
      simp

theorem count_push (s : Samples) (value : Float) : (s.push value).count = s.count + 1 := by
  unfold push
  split <;> rfl

theorem flatten_clear (s : Samples) : s.clear.flatten.toList = [] := by
  unfold clear flatten
  rw [Array.toList_flatten, List.flatten_eq_nil_iff]
  intro chunk hchunk
  simp only [Array.toList_map, List.mem_map] at hchunk
  obtain ⟨_, ⟨_, _, rfl⟩, rfl⟩ := hchunk
  rfl

end Samples

/-- One side of an accumulator is the fold of updates: of the recent ones, and for a gauge of all.
-/
def Body.IsFold (side : ∀ {α : Type}, Sides α → α) (layout : Layout) (all recent : List Update) :
    Body → Prop
  | .adder sides _ => side sides = ⟨Update.sum recent, recent.length⟩
  | .gauge sides => side sides = ⟨Update.level all, recent.length⟩
  | .stats sides =>
    (side sides).flatten.toList = recent.map (·.value) ∧ (side sides).count = recent.length
  | .histogram sides => side sides = ⟨layout, Update.tally layout recent, recent.length⟩

namespace Body

variable {layout : Layout} {all recent : List Update}

theorem isFold_empty (layout : Layout) (predictor : Option Predictor) (kind : Kind) :
    (empty layout predictor kind).IsFold Sides.input layout [] [] := by
  cases kind with
  | histogram => simp only [empty, IsFold, Buckets.empty, Update.tally_nil, List.length_nil]
  | stats => exact ⟨rfl, rfl⟩
  | _ => rfl

theorem isFold_update {body : Body} (u : Update) (h : body.IsFold Sides.input layout all recent) :
    (body.update u.value u.adjustment).IsFold Sides.input layout (all ++ [u]) (recent ++ [u]) := by
  cases body with
  | adder sides predictor =>
    obtain ⟨input, processed⟩ := sides
    simp only [IsFold] at h
    simp [IsFold, update, h, Totals.add, Update.sum]
  | gauge sides =>
    obtain ⟨input, processed⟩ := sides
    simp only [IsFold] at h
    cases hu : u.adjustment <;>
      simp [IsFold, update, h, hu, Totals.adjust, Update.level, Update.move]
  | stats sides =>
    obtain ⟨hflat, hcount⟩ := h
    simp only [IsFold, update]
    refine ⟨?_, ?_⟩
    · rw [Samples.flatten_push, hflat, List.map_append, List.map_singleton]
    · rw [Samples.count_push, hcount, List.length_append, List.length_singleton]
  | histogram sides =>
    obtain ⟨input, processed⟩ := sides
    simp only [IsFold] at h
    simp [IsFold, update, h, Buckets.add, Update.tally_snoc]

theorem isFold_processed_swap {body : Body} (h : body.IsFold Sides.input layout all recent) :
    body.swap.IsFold Sides.processed layout all recent := by
  cases body <;> exact h

/-- The recycled side starts from nothing, except that a gauge carries its value over. -/
theorem isFold_input_swap {body : Body} (h : body.IsFold Sides.input layout all recent) :
    body.swap.IsFold Sides.input layout all [] := by
  cases body with
  | adder sides predictor => rfl
  | gauge sides =>
    simp only [IsFold] at h
    simp [IsFold, swap, Totals.carry, h]
  | stats sides => exact ⟨Samples.flatten_clear _, rfl⟩
  | histogram sides =>
    simp only [IsFold] at h
    simp [IsFold, swap, Buckets.recycle, Buckets.empty, h, Update.tally_nil]

theorem taken_of_isFold {body : Body} (h : body.IsFold Sides.processed layout all recent) :
    body.taken = recent.length := by
  cases body with
  | stats sides => exact h.2
  | _ => simp only [IsFold] at h; simp [taken, h]

end Body

namespace Record

inductive Step
  | offer (u : Update)
  | swap

/-- A value that is not finite changes nothing. -/
def offer (u : Update) (r : Record) : Record :=
  if u.applies then r.update u.value u.adjustment else r

def step (r : Record) : Step → Record
  | .offer u => r.offer u
  | .swap => r.swap

def run (r : Record) (steps : List Step) : Record := steps.foldl step r

def applied (steps : List Step) : List Update :=
  steps.filterMap fun
    | .offer u => if u.applies then some u else none
    | .swap => none

def recent (steps : List Step) : List Update :=
  steps.foldl (fun us step => match step with
    | .offer u => if u.applies then us ++ [u] else us
    | .swap => []) []

def takes (r : Record) : List Step → List Nat
  | [] => []
  | .offer u :: rest => (r.offer u).takes rest
  | .swap :: rest => r.swap.body.taken :: r.swap.takes rest

theorem isFold_run {r : Record} {layout : Layout} (h : r.body.IsFold Sides.input layout [] [])
    (steps : List Step) :
    (r.run steps).body.IsFold Sides.input layout (applied steps) (recent steps) := by
  induction steps using List.reverseRecOn with
  | nil => exact h
  | append_singleton steps last ih =>
    simp only [run, applied, recent, List.foldl_append, List.filterMap_append] at ih ⊢
    cases last with
    | swap => simpa [step, swap] using Body.isFold_input_swap ih
    | offer u =>
      by_cases hu : u.applies
      · simpa [step, offer, update, hu] using Body.isFold_update u ih
      · simpa [step, offer, hu] using ih

theorem kind_run (r : Record) (steps : List Step) : (r.run steps).body.kind = r.body.kind := by
  induction steps generalizing r with
  | nil => rfl
  | cons first rest ih =>
    rw [run, List.foldl_cons, ← run, ih]
    cases first with
    | swap => exact Body.kind_swap r.body
    | offer u =>
      simp only [step, offer]
      split
      · exact Body.kind_update u.value u.adjustment r.body
      · rfl

theorem pending_swap (r : Record) : r.swap.pending = 0 := Body.pending_swap r.body

theorem pending_offer (u : Update) (r : Record) :
    (r.offer u).pending = r.pending + if u.applies then 1 else 0 := by
  unfold offer
  split
  · exact Body.pending_update u.value u.adjustment r.body
  · rfl

theorem sum_takes_add_pending (r : Record) (steps : List Step) :
    (r.takes steps).sum + (r.run steps).pending = r.pending + (applied steps).length := by
  induction steps generalizing r with
  | nil => simp [takes, run, applied]
  | cons first rest ih =>
    cases first with
    | offer u =>
      have hrest := ih (r.offer u)
      rw [pending_offer] at hrest
      simp only [takes, run, applied, List.foldl_cons, step, List.filterMap_cons] at hrest ⊢
      by_cases hu : u.applies
      · simp only [hu, if_true, List.length_cons] at hrest ⊢
        omega
      · simpa [hu] using hrest
    | swap =>
      have hrest := ih r.swap
      have htaken : r.swap.body.taken = r.pending := Body.taken_swap r.body
      rw [pending_swap] at hrest
      simp only [takes, run, applied, List.foldl_cons, step, List.filterMap_cons,
        List.sum_cons] at hrest ⊢
      omega

/-- A swap hands on the fold of what came since the last one, and counts it; over a whole run
nothing is counted twice or lost. -/
theorem swap_hands_on_fold (path : String) (id : Nat) (checks : List Check) (layout : Layout)
    (predictor : Option Predictor) (kind : Kind) (steps : List Step) :
    let new := empty path id checks (.empty layout predictor kind)
    let swapped := (new.run steps).swap
    swapped.body.kind = kind ∧
      swapped.body.IsFold Sides.processed layout (applied steps) (recent steps) ∧
      swapped.body.taken = (recent steps).length ∧
      (new.takes steps).sum + (new.run steps).pending = (applied steps).length := by
  intro new swapped
  have hinput := isFold_run (r := new) (Body.isFold_empty layout predictor kind) steps
  have hprocessed := Body.isFold_processed_swap hinput
  refine ⟨?_, hprocessed, Body.taken_of_isFold hprocessed, ?_⟩
  · rw [show swapped.body = (new.run steps).body.swap from rfl, Body.kind_swap, kind_run]
    exact Body.kind_empty layout predictor kind
  · have hempty : new.pending = 0 := by cases kind <;> rfl
    rw [sum_takes_add_pending, hempty, Nat.zero_add]

end Record

end Rollup
