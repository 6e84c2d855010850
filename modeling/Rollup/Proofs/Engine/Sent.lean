import Rollup.Proofs.Engine.Posts
import Rollup.Proofs.Output.Handoff

/-! The buffers that the workers of a shift hand off. A worker writes in its tick what it writes in
that tick of the sequential run, so that the buffers of a tick are its own ones there, between those
of the other workers. -/
namespace Rollup

namespace Worker

theorem sent_note (step : Record → RecordReport × Record) (s : Store) (w : Worker) (h : Handle) :
    w.buffer.sent <+: (w.note step s h).buffer.sent := by
  unfold note
  split
  · exact List.prefix_rfl
  · exact LineBuffer.sent_pushAll _ _

theorem sent_foldl_note (step : Record → RecordReport × Record) (s : Store) (hs : List Handle)
    (w : Worker) : w.buffer.sent <+: (hs.foldl (note step s) w).buffer.sent := by
  induction hs generalizing w with
  | nil => exact List.prefix_rfl
  | cons h rest ih => exact (w.sent_note step s h).trans (ih _)

theorem sent_finish (settings : Settings) (took : Nat) (w : Worker) :
    w.buffer.sent <+: (w.finish settings took).buffer.sent := by
  unfold finish
  simp only
  split
  · exact (w.buffer.sent_pushAll _).trans (LineBuffer.sent_flush _)
  · exact w.buffer.sent_flush

end Worker

namespace Engine

variable {e e' e'' : Engine} {id : Nat}

theorem buffers_eq (e : Engine) (id : Nat) :
    e.buffers id = ((e.workers.get .adder)[id]?).elim [] fun w => w.buffer.sent := rfl

theorem buffers_of_worker {f : Worker → Worker}
    (hworker : (e'.workers.get .adder)[id]? = ((e.workers.get .adder)[id]?).map f)
    (hf : ∀ w, w.buffer.sent <+: (f w).buffer.sent) : e.buffers id <+: e'.buffers id := by
  rw [buffers_eq, buffers_eq, hworker]
  cases (e.workers.get .adder)[id]? with
  | none => exact List.prefix_rfl
  | some w => exact hf w

theorem buffersSince_self (id : Nat) (e : Engine) : e.buffersSince id e = [] := List.drop_length

theorem buffersSince_append (h : e.buffers id <+: e'.buffers id)
    (h' : e'.buffers id <+: e''.buffers id) :
    e''.buffersSince id e = e'.buffersSince id e ++ e''.buffersSince id e' := by
  obtain ⟨more, hmore⟩ := h
  obtain ⟨last, hlast⟩ := h'
  unfold buffersSince
  rw [← hlast, List.drop_left, ← hmore, List.drop_left, List.append_assoc, List.drop_left]

end Engine

namespace Shift

/-- The buffers of one worker that belong to a tick: all of them once it has completed the tick,
and those that there are so far while it is amid. -/
def credit (t : Rhythm) (batch : Nat → List Point) (e : Engine) (s : Shift) (g id : Nat) :
    List String :=
  if g < s.done id then (e.sequel t batch (g + 1)).buffersSince id (e.sequel t batch g)
  else if g = s.done id then s.engine.buffersSince id (e.sequel t batch g)
  else []

section Credit

variable {t : Rhythm} {batch : Nat → List Point} {e : Engine} {s s' : Shift} {id : Nat}

theorem Post.Holds.buffers {post : Post} (h : post.Holds t batch e s id) :
    (e.sequel t batch (s.done id)).buffers id <+: s.engine.buffers id := by
  refine Engine.buffers_of_worker h.worker fun w => ?_
  cases post with
  | reporting before rest => exact Worker.sent_foldl_note _ _ before (w.start _)
  | _ => exact List.prefix_rfl

theorem credit_congr (hdone : s'.done id = s.done id)
    (hworker : (s'.engine.workers.get .adder)[id]? = (s.engine.workers.get .adder)[id]?) (g : Nat) :
    s'.credit t batch e g id = s.credit t batch e g id := by
  simp only [credit, hdone, Engine.buffersSince, Engine.buffers_eq, hworker]

theorem credit_later (hbefore : (e.sequel t batch (s.done id)).buffers id <+: s.engine.buffers id)
    (hlater : s.engine.buffers id <+: s'.engine.buffers id)
    (hdone : s'.done id = s.done id ∨ s'.done id = s.done id + 1 ∧
      s'.engine.buffers id = (e.sequel t batch (s.done id + 1)).buffers id) (g : Nat) :
    s'.credit t batch e g id = s.credit t batch e g id ++
      if g = s.done id then s'.engine.buffersSince id s.engine else [] := by
  unfold credit
  rcases Nat.lt_trichotomy g (s.done id) with hlt | rfl | hgt
  · have hlt' : g < s'.done id := by omega
    rw [if_pos hlt, if_pos hlt', if_neg (Nat.ne_of_lt hlt), List.append_nil]
  · have happend := Engine.buffersSince_append hbefore hlater
    rw [if_neg (Nat.lt_irrefl _), if_pos rfl, if_pos rfl, ← happend]
    rcases hdone with hsame | ⟨hnext, hbuffers⟩
    · rw [hsame, if_neg (Nat.lt_irrefl _), if_pos rfl]
    · rw [hnext, if_pos (Nat.lt_succ_self _), Engine.buffersSince, ← hbuffers, Engine.buffersSince]
  · have hnot : ¬ g < s'.done id := by omega
    have hother : ¬ g = s.done id := Nat.ne_of_gt hgt
    rw [if_neg hnot, if_neg (Nat.lt_asymm hgt), if_neg hother, if_neg hother, List.append_nil]
    rcases hdone with hsame | ⟨hnext, hbuffers⟩
    · rw [if_neg (hsame ▸ Nat.ne_of_gt hgt)]
    · split
      · rename_i heq
        rw [heq, hnext, Engine.buffersSince, hbuffers]
        exact List.drop_length
      · rfl

end Credit

theorem sent_of_same {s s' : Shift} {id : Nat} (hsent : s'.sent = s.sent)
    (hbuffers : s'.engine.buffers id = s.engine.buffers id) (g : Nat) : s'.sent g = s.sent g ++
      if g = s.done id then s'.engine.buffersSince id s.engine else [] := by
  have hnone : s'.engine.buffersSince id s.engine = [] := by
    rw [Engine.buffersSince, hbuffers]
    exact List.drop_length
  rw [hnone, ite_self, List.append_nil, hsent]

theorem sent_write (id : Nat) (e : Engine) (s : Shift) (g : Nat) : (s.write id e).sent g =
    s.sent g ++ if g = s.done id then e.buffersSince id s.engine else [] := by
  change (if g = s.done id then _ else _) = _
  split
  · rfl
  · exact (List.append_nil _).symm

theorem perm_flatMap_append {f f' : Nat → List String} {id n : Nat} (hid : id < n)
    {more : List String} (hothers : ∀ other, other ≠ id → f' other = f other)
    (hown : f' id = f id ++ more) :
    ((List.range n).flatMap f').Perm ((List.range n).flatMap f ++ more) := by
  induction n with
  | zero => exact absurd hid (Nat.not_lt_zero id)
  | succ n ih =>
    rw [List.range_succ, List.flatMap_append, List.flatMap_append, List.flatMap_singleton,
      List.flatMap_singleton]
    rcases Nat.lt_or_eq_of_le (Nat.le_of_lt_succ hid) with hlt | rfl
    · rw [hothers n (Nat.ne_of_gt hlt), List.append_assoc]
      refine ((ih hlt).append_right (f n)).trans ?_
      rw [List.append_assoc]
      exact List.perm_append_comm.append_left _
    · have hbefore : (List.range id).flatMap f' = (List.range id).flatMap f :=
        List.flatMap_congr fun other hother =>
          hothers other (Nat.ne_of_lt (List.mem_range.mp hother))
      rw [hown, hbefore, List.append_assoc]

end Shift

end Rollup
