import Mathlib.Algebra.GroupWithZero.Nat
import Rollup.Proofs.Engine.Stream

/-! Lines that are rejected leave no trace. A text does what its accepted points do one by one, each
of them adds one update to one record, and a text that ends with its last line may as well be taken
in before what follows. -/
namespace Rollup

namespace Store

variable {s : Store} {h : Handle} {r : Record} {f : Record → Record}

/-- The updates of all records since they were last swapped, linked or not. -/
def updates (s : Store) : Nat := (s.records.toList.map Record.pending).sum

theorem updates_insert (s : Store) (r : Record) :
    (s.insert r).2.updates = s.updates + r.pending := by
  simp [updates, insert]

theorem updates_modify (hr : s.get? h = some r) (hf : (f r).pending = r.pending + 1) :
    (s.modify h f).updates = s.updates + 1 := by
  obtain ⟨hlt, rfl⟩ := Array.getElem?_eq_some_iff.mp hr
  have hlt' : h < s.records.toList.length := hlt
  rw [updates, updates, modify, Array.toList_modify, List.modify_eq_take_cons_drop hlt']
  conv_rhs => rw [← List.take_append_drop h s.records.toList, ← List.getElem_cons_drop hlt']
  simp only [List.map_append, List.map_cons, List.sum_append, List.sum_cons]
  rw [Array.getElem_toList, hf]
  omega

end Store

namespace Engine

variable {e e' : Engine} {p : Point}

theorem refusal?_eq_none_iff :
    e.refusal? p.kind p.value = none ↔
      ((e.settings.kind p.kind).enable && p.value.isFinite) = true := by
  unfold refusal? UpdateError.ofValue?
  cases (e.settings.kind p.kind).enable <;> cases p.value.isFinite <;> simp

theorem ingest_cases (e : Engine) (p : Point) :
    (((e.settings.kind p.kind).enable && p.value.isFinite) = true ∧
        e.ingest p = .ok (e.accept p)) ∨
      (((e.settings.kind p.kind).enable && p.value.isFinite) = false ∧
        ∃ cause, e.ingest p = .error cause) := by
  rw [ingest]
  cases hrefusal : e.refusal? p.kind p.value with
  | none => exact .inl ⟨refusal?_eq_none_iff.mp hrefusal, rfl⟩
  | some cause =>
    refine .inr ⟨Bool.eq_false_iff.mpr fun haccepts => ?_, cause, rfl⟩
    rw [refusal?_eq_none_iff.mpr haccepts] at hrefusal
    cases hrefusal

theorem isSome_ingest (e : Engine) (p : Point) :
    (e.ingest p).toOption.isSome = ((e.settings.kind p.kind).enable && p.value.isFinite) := by
  obtain ⟨haccepts, hingest⟩ | ⟨hrefuses, cause, hingest⟩ := e.ingest_cases p
  · rw [hingest, haccepts]
    rfl
  · rw [hingest, hrefuses]
    rfl

@[simp] theorem settings_accept (p : Point) (e : Engine) : (e.accept p).settings = e.settings := by
  simp only [accept, getOrCreate]
  split <;> rfl

theorem get?_of_locate {kind : Kind} {path : String} {h : Handle}
    (hlocate : e.store.locate kind path = some h) : ∃ r, e.store.get? h = some r := by
  have hanswers := List.find?_some hlocate
  cases hr : e.store.get? h with
  | none => rw [hr] at hanswers; cases hanswers
  | some r => exact ⟨r, rfl⟩

theorem pending_newRecord (e : Engine) (kind : Kind) (path : String) (layout : Layout) :
    (e.newRecord kind path layout).pending = 0 := by
  cases kind <;> rfl

theorem pending_recordUpdate (p : Point) (r : Record) :
    (r.update p.value p.adjustment).pending = r.pending + 1 :=
  Body.pending_update p.value p.adjustment r.body

theorem updates_accept (p : Point) (e : Engine) :
    (e.accept p).store.updates = e.store.updates + 1 := by
  simp only [accept, getOrCreate]
  cases hlocate : e.store.locate p.kind p.path with
  | some h =>
    obtain ⟨r, hr⟩ := get?_of_locate hlocate
    exact Store.updates_modify hr (pending_recordUpdate p r)
  | none =>
    have hnew := e.store.get?_insert (e.newRecord p.kind p.path (e.layoutFor p.kind p.path))
      e.store.records.size
    rw [if_pos rfl] at hnew
    refine (Store.updates_modify hnew (pending_recordUpdate p _)).trans ?_
    rw [Store.updates_insert, pending_newRecord, Nat.add_zero]

def accepted? (e : Engine) (line : List Char) : Option Point :=
  match Point.ofLine line with
  | .ok p => if (e.settings.kind p.kind).enable && p.value.isFinite then some p else none
  | .error _ => none

def accepted (e : Engine) (text : List Char) : List Point :=
  (lines text).filterMap fun line => e.accepted? (trimEnd line)

def ingestAll (ps : List Point) (e : Engine) : Except UpdateError Engine :=
  ps.foldlM (fun e p => e.ingest p) e

theorem accepted?_congr (h : e'.settings = e.settings) : e'.accepted? = e.accepted? := by
  funext line
  simp only [accepted?, h]

theorem updates_ingestAll {ps : List Point} (h : e.ingestAll ps = .ok e') :
    e'.store.updates = e.store.updates + ps.length := by
  induction ps generalizing e with
  | nil =>
    cases h
    rfl
  | cons p rest ih =>
    rw [ingestAll, List.foldlM_cons, ingest] at h
    split at h
    · cases h
    · rw [ih h, updates_accept, List.length_cons]
      omega

namespace Treatment

theorem line_of_accepted {text : List Char} (h : e.accepted? text = some p) :
    e.ingest p = .ok (e.accept p) ∧ line text e = (⟨1, 0⟩, e.accept p) := by
  cases hpoint : Point.ofLine text with
  | error cause => simp [accepted?, hpoint] at h
  | ok q =>
    obtain ⟨haccepts, hingest⟩ | ⟨hrefuses, -⟩ := e.ingest_cases q
    · obtain rfl : q = p := by simpa [accepted?, hpoint, haccepts] using h
      exact ⟨hingest, by simp only [line, hpoint, hingest]⟩
    · simp [accepted?, hpoint, hrefuses] at h

theorem line_of_rejected {text : List Char} (h : e.accepted? text = none) :
    line text e = (⟨0, 1⟩, e) := by
  cases hpoint : Point.ofLine text with
  | error cause => simp only [line, hpoint, reject]
  | ok q =>
    obtain ⟨haccepts, -⟩ | ⟨-, cause, hingest⟩ := e.ingest_cases q
    · simp [accepted?, hpoint, haccepts] at h
    · simp only [line, hpoint, hingest, reject]

theorem inTurn_line (texts : List (List Char)) (e : Engine) :
    ∃ e' rejected, e.ingestAll (texts.filterMap e.accepted?) = .ok e' ∧
      inTurn (texts.map line) e = (⟨(texts.filterMap e.accepted?).length, rejected⟩, e') ∧
      (texts.filterMap e.accepted?).length + rejected = texts.length := by
  induction texts generalizing e with
  | nil => exact ⟨e, 0, rfl, rfl, rfl⟩
  | cons text rest ih =>
    rw [List.map_cons, inTurn_cons, andThen]
    cases htext : e.accepted? text with
    | some p =>
      obtain ⟨hingest, hline⟩ := line_of_accepted htext
      obtain ⟨e', rejected, hall, hturn, hcount⟩ := ih (e.accept p)
      rw [accepted?_congr (settings_accept p e)] at hall hturn hcount
      rw [List.filterMap_cons_some htext, hline]
      refine ⟨e', rejected, ?_, ?_, ?_⟩
      · rw [ingestAll, List.foldlM_cons, hingest]
        exact hall
      · dsimp only
        rw [hturn, IngestCounts.add_def, List.length_cons, Nat.zero_add, Nat.add_comm 1]
      · rw [List.length_cons, List.length_cons]
        omega
    | none =>
      obtain ⟨e', rejected, hall, hturn, hcount⟩ := ih e
      rw [List.filterMap_cons_none htext, line_of_rejected htext]
      refine ⟨e', rejected + 1, hall, ?_, ?_⟩
      · dsimp only
        rw [hturn, IngestCounts.add_def, Nat.zero_add, Nat.add_comm 1]
      · rw [List.length_cons]
        omega

end Treatment

open Treatment

theorem filterMap_candidates (e : Engine) (text : List Char) :
    (Point.candidates text).filterMap e.accepted? = e.accepted text := by
  rw [Point.candidates, List.filterMap_filter, List.filterMap_map, accepted]
  refine List.filterMap_congr fun line _ => ?_
  cases htrimmed : trimEnd line with
  | nil => simp [htrimmed, accepted?, Point.ofLine]
  | cons c rest => simp [htrimmed]

theorem length_candidates (text : List Char) :
    (Point.candidates text).length = (lines text).countP fun line => !(trimEnd line).isEmpty := by
  rw [Point.candidates, ← List.countP_eq_length_filter, List.countP_map]
  rfl

theorem inTurn_fields_append (front more : List Char) :
    inTurn ((fields '\n' (front ++ ['\n'] ++ more)).map fun line => decoded (some line)) =
      andThen (inTurn ((fields '\n' (front ++ ['\n'])).map fun line => decoded (some line)))
        (inTurn ((fields '\n' more).map fun line => decoded (some line))) := by
  -- Nothing stands between the line end and the end of the first text.
  have hfront : inTurn ((fields '\n' (front ++ ['\n'])).map fun line => decoded (some line)) =
      inTurn ((fields '\n' front).map fun line => decoded (some line)) := by
    rw [fields_append_fields, fields_of_notMem List.not_mem_nil, List.map_append, inTurn_append]
    exact andThen_skip _
  rw [hfront, List.append_assoc, List.singleton_append, fields_append_fields, List.map_append,
    inTurn_append]

theorem ingestText_append (e : Engine) (front more : List Char) :
    let first := e.ingestText (front ++ ['\n'])
    let next := first.2.ingestText more
    (e.ingestText (front ++ ['\n'] ++ more)).1 = first.1 + next.1 ∧
      (e.ingestText (front ++ ['\n'] ++ more)).2.silent = next.2.silent := by
  have hwhole := alike_ingestText (front ++ ['\n'] ++ more) (rfl : e.silent = e.silent)
  have hparts := (alike_ingestText (front ++ ['\n'])).andThen (alike_ingestText more)
    (rfl : e.silent = e.silent)
  rw [inTurn_fields_append] at hwhole
  exact ⟨hwhole.1.trans hparts.1.symm, hwhole.2.trans hparts.2.symm⟩

/-- A text changes the engine as its accepted points do one by one. A line that is not blank counts
as accepted or rejected, an accepted one is one more update of a record, and what stands behind a
line end may come in later. -/
theorem ingestText_accepted (e : Engine) (text more : List Char) :
    (∃ e', e.ingestAll (e.accepted text) = .ok e' ∧ (e.ingestText text).2.silent = e'.silent) ∧
      (∀ p, (e.ingest p).toOption.isSome =
        ((e.settings.kind p.kind).enable && p.value.isFinite)) ∧
      (e.ingestText text).1.accepted = (e.accepted text).length ∧
      (e.ingestText text).1.accepted + (e.ingestText text).1.rejected =
        (lines text).countP (fun line => !(trimEnd line).isEmpty) ∧
      (e.ingestText text).2.store.updates =
        e.store.updates + (e.ingestText text).1.accepted ∧
      let first := e.ingestText (text ++ ['\n'])
      let next := first.2.ingestText more
      (e.ingestText (text ++ ['\n'] ++ more)).1 = first.1 + next.1 ∧
        (e.ingestText (text ++ ['\n'] ++ more)).2.silent = next.2.silent := by
  obtain ⟨e', rejected, hall, hturn, hcount⟩ := inTurn_line (Point.candidates text) e
  obtain ⟨hcounts, hsilent⟩ := alike_ingestText text (rfl : e.silent = e.silent)
  rw [← inTurn_candidates, hturn] at hcounts hsilent
  rw [filterMap_candidates] at hall hcounts hcount
  have haccepted : (e.ingestText text).1.accepted = (e.accepted text).length := by rw [hcounts]
  have hupdates : (e.ingestText text).2.store.updates = e'.store.updates :=
    congrArg (fun e => e.store.updates) hsilent
  refine ⟨⟨e', hall, hsilent⟩, isSome_ingest e, haccepted, ?_, ?_, ingestText_append e text more⟩
  · rw [hcounts, ← length_candidates]
    exact hcount
  · rw [hupdates, updates_ingestAll hall, haccepted]

end Engine

end Rollup
