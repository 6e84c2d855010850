import Mathlib.Algebra.Order.Floor.Div
import Rollup.Proofs.Record.Buffering

/-! Chunks of samples. Samples fill one chunk after the other, and a side that is recycled starts
again with one empty chunk at most, so that the chunks say how many samples there are. -/
namespace Rollup

namespace Samples

structure Orderly (s : Samples) : Prop where
  full : ∀ chunk ∈ s.chunks.pop, chunk.size = chunkSize
  last : ∀ chunk ∈ s.chunks.back?, chunk.size ≤ chunkSize
  count : s.count = (s.chunks.map Array.size).sum

structure Cleared (s : Samples) : Prop where
  count : s.count = 0
  one : s.chunks.size ≤ 1
  nothing : ∀ chunk ∈ s.chunks, chunk = #[]

def makeRoom (s : Samples) : Samples :=
  if s.needsChunk then { s with chunks := s.chunks.push #[] } else s

/-- Puts a sample into the last chunk. Without a chunk it is dropped. -/
def put (s : Samples) (value : Float) : Samples :=
  match s.chunks.back? with
  | some _ => ⟨s.chunks.modify (s.chunks.size - 1) (·.push value), s.count + 1⟩
  | none => s

structure Takes (s next : Samples) (value : Float) : Prop where
  room : ∃ chunk, s.makeRoom.chunks.back? = some chunk ∧ chunk.size < chunkSize
  put : next = s.makeRoom.put value
  flatten : next.flatten.toList = s.flatten.toList ++ [value]
  count : next.count = s.count + 1

@[elab_as_elim]
theorem lastCases {motive : Samples → Prop} (none : ∀ count, motive ⟨#[], count⟩)
    (last : ∀ (front : Array (Array Float)) last count, motive ⟨front.push last, count⟩)
    (s : Samples) : motive s := by
  obtain ⟨chunks, count⟩ := s
  obtain rfl | hne := eq_or_ne chunks #[]
  · exact none count
  · obtain ⟨front, chunk, rfl⟩ := Array.exists_push_of_ne_empty hne
    exact last front chunk count

section LastChunk

variable {front : Array (Array Float)} {last : Array Float} {count : Nat}

@[simp] theorem needsChunk_none : needsChunk ⟨#[], count⟩ = true := rfl

@[simp] theorem needsChunk_last :
    needsChunk ⟨front.push last, count⟩ = decide (chunkSize ≤ last.size) := by
  simp [needsChunk]

theorem push_none (value : Float) :
    push ⟨#[], count⟩ value = ⟨#[].push #[value], count + 1⟩ := rfl

theorem push_last_of_full (h : chunkSize ≤ last.size) (value : Float) :
    push ⟨front.push last, count⟩ value = ⟨(front.push last).push #[value], count + 1⟩ := by
  simp [push, h]

theorem push_last_of_room (h : ¬ chunkSize ≤ last.size) (value : Float) :
    push ⟨front.push last, count⟩ value = ⟨front.push (last.push value), count + 1⟩ := by
  simp only [push, needsChunk_last, h, decide_false, Bool.false_eq_true, if_false, modify_last]

theorem put_last (value : Float) :
    put ⟨front.push last, count⟩ value = ⟨front.push (last.push value), count + 1⟩ := by
  simp only [put, Array.back?_push, modify_last]

theorem sum_sizes_of_full (h : ∀ chunk ∈ front, chunk.size = chunkSize) :
    (front.map Array.size).sum = front.size * chunkSize := by
  rw [Array.map_congr_left h, Array.map_const', Array.sum_replicate_nat]

theorem orderly_none_iff : Orderly ⟨#[], count⟩ ↔ count = 0 :=
  ⟨fun h => by simpa using h.count, fun h => ⟨by simp, by simp, by simp [h]⟩⟩

theorem orderly_last_iff : Orderly ⟨front.push last, count⟩ ↔
    (∀ chunk ∈ front, chunk.size = chunkSize) ∧ last.size ≤ chunkSize ∧
      count = front.size * chunkSize + last.size := by
  have hsum (hfull : ∀ chunk ∈ front, chunk.size = chunkSize) :
      ((front.push last).map Array.size).sum = front.size * chunkSize + last.size := by
    rw [Array.map_push, Array.sum_push, sum_sizes_of_full hfull]
  constructor
  · rintro ⟨hfull, hlast, hcount⟩
    simp only [Array.pop_push] at hfull
    exact ⟨hfull, hlast last (by simp), hcount.trans (hsum hfull)⟩
  · rintro ⟨hfull, hlast, rfl⟩
    exact ⟨by simpa using hfull, by simpa using hlast, (hsum hfull).symm⟩

end LastChunk

theorem orderly_empty : Orderly empty := orderly_none_iff.mpr rfl

theorem Orderly.push {s : Samples} (h : s.Orderly) (value : Float) : (s.push value).Orderly := by
  cases s using lastCases with
  | none count =>
    obtain rfl := orderly_none_iff.mp h
    rw [push_none, orderly_last_iff]
    exact ⟨by simp, by simp [chunkSize], by simp⟩
  | last front last count =>
    obtain ⟨hfull, hlast, rfl⟩ := orderly_last_iff.mp h
    by_cases hroom : chunkSize ≤ last.size
    · have hsize : last.size = chunkSize := Nat.le_antisymm hlast hroom
      rw [push_last_of_full hroom, orderly_last_iff]
      refine ⟨?_, by simp [chunkSize], ?_⟩
      · intro chunk hchunk
        obtain hmem | rfl := Array.mem_push.mp hchunk
        · exact hfull chunk hmem
        · exact hsize
      · simp only [Array.size_push, List.size_toArray, List.length_singleton, hsize, Nat.succ_mul]
    · rw [push_last_of_room hroom, orderly_last_iff, Array.size_push]
      exact ⟨hfull, by omega, by omega⟩

theorem cleared_clear (s : Samples) : s.clear.Cleared where
  count := rfl
  one := by simp only [clear, Array.size_map, Array.take_eq_extract, Array.size_extract]; omega
  nothing := by
    intro chunk hchunk
    simp only [clear, Array.mem_map] at hchunk
    obtain ⟨_, _, rfl⟩ := hchunk
    rfl

/-- The chunk that a cleared side keeps is a last one, so that it need not be full. -/
theorem Cleared.orderly {s : Samples} (h : s.Cleared) : s.Orderly := by
  cases s using lastCases with
  | none count => exact orderly_none_iff.mpr h.count
  | last front last count =>
    have hfront : front = #[] := by
      have hone := h.one
      simp only [Array.size_push] at hone
      exact Array.eq_empty_of_size_eq_zero (by omega)
    have hlast : last = #[] := h.nothing last (by simp)
    subst hfront hlast
    exact orderly_last_iff.mpr ⟨by simp, by simp, by simpa using h.count⟩

theorem Orderly.chunkCount_eq {s : Samples} (h : s.Orderly) :
    s.chunkCount = s.count ⌈/⌉ chunkSize := by
  cases s using lastCases with
  | none count =>
    obtain rfl := orderly_none_iff.mp h
    rfl
  | last front last count =>
    obtain ⟨hfull, hlast, rfl⟩ := orderly_last_iff.mp h
    have hfront : front.countP (fun chunk => !chunk.isEmpty) = front.size := by
      rw [Array.countP_eq_size]
      intro chunk hchunk
      simp [Array.isEmpty, hfull chunk hchunk, chunkSize]
    -- Only the last chunk can be empty, and then the rounding adds nothing for it.
    rw [chunkCount, Array.countP_push, hfront, Nat.ceilDiv_eq_add_pred_div]
    simp only [chunkSize] at hlast ⊢
    by_cases hempty : last = #[]
    · subst hempty
      simp only [List.size_toArray, List.length_nil, List.isEmpty_toArray, List.isEmpty_nil,
        Bool.not_true, Bool.false_eq_true, if_false]
      omega
    · have hpos : 0 < last.size := Array.size_pos_iff.mpr hempty
      simp only [Array.isEmpty_eq_false_iff.mpr hempty, Bool.not_false, if_true]
      omega

theorem push_eq (s : Samples) (value : Float) : s.push value = s.makeRoom.put value := by
  by_cases hchunk : s.needsChunk
  · simp only [push, makeRoom, hchunk, if_true, put_last, List.push_toArray, List.nil_append]
  · cases s using lastCases with
    | none count => simp at hchunk
    | last front last count =>
      simp only [needsChunk_last, decide_eq_true_eq] at hchunk
      simp only [push_last_of_room hchunk, makeRoom, needsChunk_last, hchunk, decide_false,
        Bool.false_eq_true, if_false, put_last]

theorem exists_room (s : Samples) :
    ∃ chunk, s.makeRoom.chunks.back? = some chunk ∧ chunk.size < chunkSize := by
  by_cases hchunk : s.needsChunk
  · exact ⟨#[], by simp [makeRoom, hchunk], by simp [chunkSize]⟩
  · cases s using lastCases with
    | none count => simp at hchunk
    | last front last count => exact ⟨last, by simp [makeRoom, hchunk], by simpa using hchunk⟩

theorem takes_push (s : Samples) (value : Float) : s.Takes (s.push value) value where
  room := exists_room s
  put := push_eq s value
  flatten := flatten_push s value
  count := count_push s value

end Samples

namespace Record

section Stats

variable {r : Record} {input processed : Samples}

theorem body_swap (h : r.body = .stats ⟨input, processed⟩) :
    (r.step .swap).body = .stats ⟨processed.clear, input⟩ := by
  simp only [step, swap, h]
  rfl

theorem body_offer (h : r.body = .stats ⟨input, processed⟩) (u : Update) :
    (r.step (.offer u)).body =
      .stats ⟨if u.applies then input.push u.value else input, processed⟩ := by
  by_cases hu : u.applies <;> simp [step, offer, hu, update, h, Body.update]

end Stats

def Chunked (r : Record) : Prop :=
  ∃ input processed : Samples, r.body = .stats ⟨input, processed⟩ ∧
    input.Orderly ∧ processed.Orderly

theorem chunked_empty (path : String) (id : Nat) (checks : List Check) (layout : Layout)
    (predictor : Option Predictor) :
    (empty path id checks (.empty layout predictor .stats)).Chunked :=
  ⟨.empty, .empty, rfl, Samples.orderly_empty, Samples.orderly_empty⟩

theorem Chunked.step {r : Record} (h : r.Chunked) (next : Step) : (r.step next).Chunked := by
  obtain ⟨input, processed, hbody, hinput, hprocessed⟩ := h
  cases next with
  | swap =>
    exact ⟨processed.clear, input, body_swap hbody, (Samples.cleared_clear processed).orderly,
      hinput⟩
  | offer u =>
    refine ⟨_, processed, body_offer hbody u, ?_, hprocessed⟩
    split
    · exact hinput.push u.value
    · exact hinput

theorem Chunked.run {r : Record} (h : r.Chunked) (steps : List Step) : (r.run steps).Chunked := by
  induction steps generalizing r with
  | nil => exact h
  | cons next rest ih => exact ih (h.step next)

/-- After any run, both sides of a record of stats have their chunks in order, which are as many as
the samples need; the next sample finds room behind those before it, and the next swap goes on with
a side that has no samples and one chunk at most. -/
theorem chunks_in_order (path : String) (id : Nat) (checks : List Check) (layout : Layout)
    (predictor : Option Predictor) (steps : List Step) :
    let r := (empty path id checks (.empty layout predictor .stats)).run steps
    ∃ input processed : Samples, r.body = .stats ⟨input, processed⟩ ∧
      (∀ s ∈ [input, processed], s.Orderly ∧ s.chunkCount = s.count ⌈/⌉ Samples.chunkSize) ∧
      (∀ u : Update, ∃ next : Samples, (r.step (.offer u)).body = .stats ⟨next, processed⟩ ∧
        if u.applies then input.Takes next u.value else next = input) ∧
      ∃ next : Samples, (r.step .swap).body = .stats ⟨next, input⟩ ∧ next.Cleared := by
  intro r
  obtain ⟨input, processed, hbody, hinput, hprocessed⟩ :=
    (chunked_empty path id checks layout predictor).run steps
  refine ⟨input, processed, hbody, ?_, ?_, ?_⟩
  · simp only [List.mem_cons, List.not_mem_nil, or_false, forall_eq_or_imp, forall_eq]
    exact ⟨⟨hinput, hinput.chunkCount_eq⟩, hprocessed, hprocessed.chunkCount_eq⟩
  · intro u
    refine ⟨_, body_offer hbody u, ?_⟩
    split
    · exact Samples.takes_push input u.value
    · rfl
  · exact ⟨processed.clear, body_swap hbody, Samples.cleared_clear processed⟩

end Record

end Rollup
