import Rollup.Proofs.Engine.Emission

/-! A line buffer over its life, whatever is done with it in whatever order. The lines that were
pushed go off in their order, none of them torn, and no more of them stay behind than are short of
the mark; after a tick none does. -/
namespace Rollup

namespace LineBuffer

inductive Action
  | push (r : Reading)
  | setTimestamp (seconds : Nat)
  | flush

def act (b : LineBuffer) : Action → LineBuffer
  | .push r => b.push r
  | .setTimestamp seconds => b.setTimestamp seconds
  | .flush => b.flush

def run (b : LineBuffer) (actions : List Action) : LineBuffer := actions.foldl act b

def pushed (dialect : Dialect) : (timestamp : Nat) → List Action → List String
  | _, [] => []
  | timestamp, .push r :: rest => dialect.line timestamp r :: pushed dialect timestamp rest
  | _, .setTimestamp seconds :: rest => pushed dialect seconds rest
  | timestamp, .flush :: rest => pushed dialect timestamp rest

def handedOff (b : LineBuffer) (a : Action) : List String := (b.act a).sent.drop b.sent.length

/-- The buffers that were handed off, and what is pending, are each some of the lines in turn. -/
structure Divides (b : LineBuffer) (lines : List String) : Prop where
  whole : ∃ (groups : List (List String)) (last : List String), groups.flatten ++ last = lines ∧
    b.sent = groups.map String.join ∧ b.pending = String.join last
  filled : ∀ buffer ∈ b.sent, buffer ≠ ""

structure Carries (b : LineBuffer) (dialect : Dialect) (mark : Nat) (lines : List String) :
    Prop where
  attached : b.outlet.attached = true
  dialect : b.dialect = dialect
  highWater : b.highWater = mark
  divides : b.Divides lines

section Step

variable {b : LineBuffer} {dialect : Dialect} {mark : Nat} {lines : List String}

theorem sent_flush_of_pending (hattached : b.outlet.attached = true) (h : b.pending ≠ "") :
    b.flush.sent = b.sent ++ [b.pending] := by
  have hpending : ¬ b.pending.isEmpty = true := mt String.isEmpty_iff.mp h
  rw [flush, if_neg hpending, sent, Outlet.send, if_pos hattached]
  exact Array.toList_push

theorem Carries.write (h : b.Carries dialect mark lines) (r : Reading) :
    (b.write r).Carries dialect mark (lines ++ [dialect.line b.timestamp r]) := by
  obtain ⟨groups, last, rfl, hsent, hpending⟩ := h.divides.whole
  refine ⟨h.attached, h.dialect, h.highWater, ⟨groups, last ++ [dialect.line b.timestamp r],
    (List.append_assoc ..).symm, hsent, ?_⟩, h.divides.filled⟩
  rw [String.join_append, ← hpending, ← h.dialect, String.join_cons, String.join_nil,
    String.append_empty]
  rfl

theorem Carries.flush (h : b.Carries dialect mark lines) : b.flush.Carries dialect mark lines := by
  by_cases hpending : b.pending = ""
  · rw [LineBuffer.flush, if_pos (String.isEmpty_iff.mpr hpending)]
    exact h
  · have hsent := sent_flush_of_pending h.attached hpending
    have hkept : b.flush = { b with pending := "", outlet := b.outlet.send b.pending } :=
      if_neg (mt String.isEmpty_iff.mp hpending)
    obtain ⟨groups, last, rfl, hgroups, hlast⟩ := h.divides.whole
    refine ⟨?_, ?_, ?_, ⟨groups ++ [last], [], by simp, ?_, pending_flush b⟩, ?_⟩
    · rw [hkept, Outlet.send, if_pos h.attached]
      exact h.attached
    · rw [hkept]
      exact h.dialect
    · rw [hkept]
      exact h.highWater
    · rw [hsent, hgroups, hlast, List.map_append, List.map_singleton]
    · rw [hsent]
      intro buffer hbuffer
      rcases List.mem_append.mp hbuffer with hbuffer | hbuffer
      · exact h.divides.filled buffer hbuffer
      · rw [List.mem_singleton.mp hbuffer]
        exact hpending

theorem Carries.act (h : b.Carries dialect mark lines) (hmark : 0 < mark)
    (hshort : b.pending.utf8ByteSize < mark) (a : Action) :
    (b.act a).Carries dialect mark (lines ++ pushed dialect b.timestamp [a]) ∧
      (b.act a).pending.utf8ByteSize < mark := by
  cases a with
  | push r =>
    have hwrite := h.write r
    have hsame : b.act (.push r) = b.push r := rfl
    rw [hsame, push_eq, h.highWater]
    split
    · refine ⟨hwrite.flush, ?_⟩
      rw [pending_flush]
      exact hmark
    · rename_i hlow
      exact ⟨hwrite, Nat.lt_of_not_le hlow⟩
  | setTimestamp seconds =>
    rw [pushed, pushed, List.append_nil]
    exact ⟨⟨h.attached, h.dialect, h.highWater, h.divides.whole, h.divides.filled⟩, hshort⟩
  | flush =>
    rw [pushed, pushed, List.append_nil]
    refine ⟨h.flush, ?_⟩
    change b.flush.pending.utf8ByteSize < mark
    rw [pending_flush]
    exact hmark

theorem sent_act (b : LineBuffer) (a : Action) : (b.act a).sent = b.sent ++ b.handedOff a := by
  have hprefix : b.sent <+: (b.act a).sent := by
    cases a with
    | push r => exact b.sent_push r
    | setTimestamp seconds => exact List.prefix_rfl
    | flush => exact b.sent_flush
  exact (List.prefix_iff_eq_append.mp hprefix).symm

theorem Carries.le_of_handedOff (h : b.Carries dialect mark lines) (hmark : 0 < mark) {a : Action}
    (ha : a ≠ .flush) : ∀ buffer ∈ b.handedOff a, mark ≤ buffer.utf8ByteSize := by
  cases a with
  | push r =>
    have hsame : (b.write r).sent = b.sent := rfl
    have hact : b.act (.push r) = b.push r := rfl
    rw [handedOff, hact, push_eq, h.highWater]
    split
    · rename_i hfull
      have hpending : (b.write r).pending ≠ "" := by
        intro hempty
        rw [hempty] at hfull
        exact Nat.not_le_of_lt hmark hfull
      rw [sent_flush_of_pending (h.write r).attached hpending, hsame, List.drop_left]
      intro buffer hbuffer
      rwa [List.mem_singleton.mp hbuffer]
    · rw [hsame, List.drop_length]
      exact nofun
  | setTimestamp seconds =>
    have hnone : b.handedOff (.setTimestamp seconds) = [] := List.drop_length
    rw [hnone]
    exact nofun
  | flush => exact absurd rfl ha

end Step

section Run

variable {b : LineBuffer} {dialect : Dialect} {mark : Nat} {lines : List String}

theorem timestamp_flush (b : LineBuffer) : b.flush.timestamp = b.timestamp := by
  unfold flush
  split <;> rfl

theorem pushed_cons (dialect : Dialect) (b : LineBuffer) (a : Action) (rest : List Action) :
    pushed dialect b.timestamp (a :: rest) =
      pushed dialect b.timestamp [a] ++ pushed dialect (b.act a).timestamp rest := by
  cases a with
  | push r =>
    have hsame : (b.act (.push r)).timestamp = b.timestamp := by
      change (b.push r).timestamp = b.timestamp
      rw [push_eq]
      split
      · exact timestamp_flush _
      · rfl
    rw [hsame]
    rfl
  | setTimestamp seconds => rfl
  | flush =>
    have hsame : (b.act .flush).timestamp = b.timestamp := timestamp_flush b
    rw [hsame]
    rfl

theorem Carries.run (h : b.Carries dialect mark lines) (hmark : 0 < mark)
    (hshort : b.pending.utf8ByteSize < mark) (actions : List Action) :
    (b.run actions).Carries dialect mark (lines ++ pushed dialect b.timestamp actions) ∧
      (b.run actions).pending.utf8ByteSize < mark := by
  induction actions generalizing b lines with
  | nil =>
    rw [pushed, List.append_nil]
    exact ⟨h, hshort⟩
  | cons a rest ih =>
    obtain ⟨hact, hshort'⟩ := h.act hmark hshort a
    rw [pushed_cons, ← List.append_assoc]
    exact ih hact hshort'

theorem carries_empty (dialect : Dialect) (highWater : Nat) :
    (empty dialect highWater).Carries dialect (max leastHighWater highWater) [] :=
  ⟨rfl, rfl, rfl, ⟨[], [], rfl, rfl, rfl⟩, nofun⟩

theorem Divides.join_eq (h : b.Divides lines) :
    String.join b.sent ++ b.pending = String.join lines := by
  obtain ⟨groups, last, rfl, hsent, hpending⟩ := h.whole
  have hjoin : ∀ groups : List (List String),
      String.join (groups.map String.join) = String.join groups.flatten := by
    intro groups
    induction groups with
    | nil => rfl
    | cons group rest ih =>
      rw [List.map_cons, List.flatten_cons, String.join_cons, String.join_append, ih]
  rw [hsent, hpending, hjoin, String.join_append]

end Run

end LineBuffer

namespace Engine

def Flushed (e : Engine) (kind : Kind) : Prop := ∀ w ∈ e.workers.get kind, w.buffer.pending = ""

section Flushed

variable {kind : Kind}

theorem pending_finish (settings : Settings) (took : Nat) (w : Worker) :
    (w.finish settings took).buffer.pending = "" :=
  LineBuffer.pending_flush _

theorem pending_finishShard (took : Nat) (e : Engine) {kind : Kind} {id : Nat} {w : Worker}
    (hw : ((e.finishShard took kind id).workers.get kind)[id]? = some w) :
    w.buffer.pending = "" := by
  rw [workers_finishShard, worker_onWorker, if_pos ⟨rfl, rfl⟩] at hw
  obtain ⟨old, -, rfl⟩ := Option.map_eq_some_iff.mp hw
  exact pending_finish e.settings took old

theorem flushed_foldl {act : Engine → Nat → Engine} {turn : Engine → Nat → Worker → Worker}
    (hturn : ∀ e id other i, ((act e id).workers.get other)[i]? =
      if other = kind ∧ i = id then ((e.workers.get kind)[id]?).map (turn e id)
      else (e.workers.get other)[i]?)
    (hflushed : ∀ e id w, (turn e id w).buffer.pending = "") {e : Engine} {n : Nat}
    (hn : (e.workers.get kind).length ≤ n) : ((List.range n).foldl act e).Flushed kind := by
  intro w hw
  obtain ⟨i, hi⟩ := List.mem_iff_getElem?.mp hw
  rw [worker_foldl act turn hturn] at hi
  split at hi
  · obtain ⟨old, -, rfl⟩ := Option.map_eq_some_iff.mp hi
    exact hflushed _ _ _
  · rename_i hout
    have hlt := (List.getElem?_eq_some_iff.mp hi).1
    exact absurd ⟨rfl, by omega⟩ hout

variable (nowMs : Nat) (took : Activity → Nat)

theorem flushed_tickKind (e : Engine) (kind : Kind) :
    (e.tickKind nowMs took kind).Flushed kind := by
  rw [tickKind, workerIds_eq]
  exact flushed_foldl (fun e id => worker_turn _ kind id _ e) (fun _ _ _ => pending_finish _ _ _)
    (Nat.le_of_eq (length_workers e kind))

theorem flushed_tickAdders (e : Engine) : (e.tickAdders nowMs took).Flushed .adder := by
  have hlength : ((e.computed nowMs took).workers.get .adder).length ≤ e.crew .adder := by
    have hnone : ((e.computed nowMs took).workers.get .adder)[e.crew .adder]? = none := by
      rw [worker_computed, if_neg fun h => Nat.lt_irrefl _ h.2, List.getElem?_eq_none_iff,
        length_workers]
    exact List.getElem?_eq_none_iff.mp hnone
  have hreports : e.tickAdders nowMs took = (e.workerIds .adder).foldl
      (fun e id => (e.reportShard nowMs id).finishShard (took (.worker .adder id)) .adder id)
      (e.computed nowMs took) := rfl
  rw [hreports, workerIds_eq]
  exact flushed_foldl (fun e id => worker_turn _ .adder id _ e) (fun _ _ _ => pending_finish _ _ _)
    hlength

theorem flushed_tick (e : Engine) (kind : Kind) : (e.tick nowMs took).Flushed kind := by
  unfold Flushed
  rw [workers_tick]
  split
  · rename_i hadder
    rw [hadder]
    exact flushed_tickAdders nowMs took e
  · exact flushed_tickKind nowMs took _ kind

end Flushed

end Engine

namespace LineBuffer

/-- Whatever is done with a new buffer, it divides the pushed lines into what it has handed off and
what is pending, in their order and none of them torn. Less than the mark is pending, and only a
flush hands off less. Nothing is pending in a worker that has finished its tick, so that after a
tick of all of them nothing is pending at all. -/
theorem delivers_lines (dialect : Dialect) (highWater : Nat) (actions : List Action) :
    let b := (empty dialect highWater).run actions
    let mark := max 64 highWater
    let lines := pushed dialect 0 actions
    b.Divides lines ∧ String.join b.sent ++ b.pending = String.join lines ∧
      b.pending.utf8ByteSize < mark ∧
      (∀ a, (b.act a).sent = b.sent ++ b.handedOff a ∧
        (a ≠ .flush → ∀ buffer ∈ b.handedOff a, mark ≤ buffer.utf8ByteSize)) ∧
      (∀ (e : Engine) (took : Nat) (kind : Kind) (id : Nat) (w : Worker),
        ((e.finishShard took kind id).workers.get kind)[id]? = some w → w.buffer.pending = "") ∧
      ∀ (e : Engine) (nowMs : Nat) (took : Activity → Nat) (kind : Kind),
        ∀ w ∈ (e.tick nowMs took).workers.get kind, w.buffer.pending = "" := by
  intro b mark lines
  have hmark : 0 < mark := Nat.lt_of_lt_of_le (by decide) (Nat.le_max_left 64 highWater)
  obtain ⟨hcarries, hshort⟩ := (carries_empty dialect highWater).run hmark hmark actions
  rw [List.nil_append] at hcarries
  exact ⟨hcarries.divides, hcarries.divides.join_eq, hshort,
    fun a => ⟨b.sent_act a, hcarries.le_of_handedOff hmark⟩,
    fun e took _ _ _ => Engine.pending_finishShard took e,
    fun e nowMs took kind => e.flushed_tick nowMs took kind⟩

/-- A short line, another time, and a line over the mark, which takes the first one along. The short
one is pending in a worker until that has finished. -/
theorem delivers_lines_long :
    let actions : List Action := [.push (.of "a" 1), .setTimestamp 7]
    let b := (empty .graphite 0).run actions
    let long := "a.rather.long.path.of.a.metric.of.some.service.of.ours"
    b.pending = "a 1.000000 0\n" ∧ Action.push ⟨long, 2.5, 2⟩ ≠ .flush ∧
      b.handedOff (.push ⟨long, 2.5, 2⟩) = ["a 1.000000 0\n" ++ long ++ " 2.50 7\n"] ∧
      64 ≤ ("a 1.000000 0\n" ++ long ++ " 2.50 7\n").utf8ByteSize ∧
      ∃ e : Engine, ((e.workers.get .adder)[0]?).any (·.buffer.pending == b.pending) = true ∧
        ∃ w, ((e.finishShard 0 .adder 0).workers.get .adder)[0]? = some w ∧
          w.buffer.pending = "" := by
  intro actions b long
  have hpending : b.pending = "a 1.000000 0\n" := by decide +kernel
  have hoff : b.handedOff (.push ⟨long, 2.5, 2⟩) = ["a 1.000000 0\n" ++ long ++ " 2.50 7\n"] := by
    decide +kernel
  have hpush : Action.push ⟨long, 2.5, 2⟩ ≠ .flush := nofun
  obtain ⟨-, -, -, hsent, hfinish, -⟩ := delivers_lines .graphite 0 actions
  let waiting : Engine → Engine := fun e => e.onWorker .adder 0 fun w store =>
    ({ w with buffer := b }, store)
  have hcheck : (Engine.ofConfig (Engine.compact {})).toOption.any (fun e =>
      (((waiting e).workers.get .adder)[0]?).any (·.buffer.pending == b.pending) &&
        (((waiting e).finishShard 0 .adder 0).workers.get .adder)[0]?.isSome) = true := by
    decide +kernel
  obtain ⟨e, -, hwaits⟩ := Engine.exists_ofConfig hcheck
  obtain ⟨hwaits, hsome⟩ := Bool.and_eq_true_iff.mp hwaits
  obtain ⟨w, hw⟩ := Option.isSome_iff_exists.mp hsome
  exact ⟨hpending, hpush, hoff, (hsent _).2 hpush _ (hoff ▸ List.mem_singleton_self _),
    waiting e, hwaits, w, hw, hfinish _ _ _ _ _ hw⟩

end LineBuffer

end Rollup
