import Rollup.Proofs.Engine.Attendance
import Rollup.Proofs.Engine.Sequel

/-! Shifts and sessions. An adder worker that nobody interrupts amid its shard comes to where one step
of a session brings it: a session is a shift in which every worker has its shard to itself. -/
namespace Rollup

namespace Engine

section Alone

variable (kind : Kind) (id : Nat) (nowMs : Nat) (e : Engine)

theorem onWorker_same : e.onWorker kind id (fun w s => (w, s)) = e := by
  unfold onWorker
  split
  · rfl
  · rename_i w hw
    obtain ⟨hlt, rfl⟩ := List.getElem?_eq_some_iff.mp hw
    cases kind <;> simp [PerKind.modify, PerKind.get]

theorem onWorker_onWorker (act act' : Worker → Store → Worker × Store) :
    (e.onWorker kind id act).onWorker kind id act' =
      e.onWorker kind id fun w s => act' (act w s).1 (act w s).2 := by
  cases hw : (e.workers.get kind)[id]? with
  | none =>
    have hnone : ∀ act, e.onWorker kind id act = e := fun act => by
      unfold onWorker
      rw [hw]
    rw [hnone, hnone, hnone]
  | some w =>
    have hlt := (List.getElem?_eq_some_iff.mp hw).1
    have hfirst : e.onWorker kind id act = { e with
        store := (act w e.store).2
        workers := e.workers.modify kind (·.set id (act w e.store).1) } := by
      unfold onWorker
      rw [hw]
    rw [hfirst]
    unfold onWorker
    simp only [hw, PerKind.modify_eq_set, PerKind.get_set_self, List.getElem?_set_self hlt,
      List.set_set]
    cases kind <;> rfl

theorem foldl_onWorker (visitor : Worker × Store → Handle → Worker × Store) (hs : List Handle) :
    hs.foldl (fun e h => e.onWorker kind id fun w s => visitor (w, s) h) e =
      e.onWorker kind id fun w s => hs.foldl visitor (w, s) := by
  induction hs generalizing e with
  | nil => exact (onWorker_same kind id e).symm
  | cons h rest ih => rw [List.foldl_cons, ih, onWorker_onWorker]; rfl

theorem takeShard_eq : e.takeShard nowMs id =
    (e.shardOf id).foldl (fun e h => e.takeRecord h) (e.startShard nowMs id) := by
  have hrecords : ∀ (hs : List Handle) (e : Engine), hs.foldl (fun e h => e.takeRecord h) e =
      { e with store := e.store.modifyAll hs (Record.takeAdder e.settings.predictLimit) } := by
    intro hs
    induction hs with
    | nil => exact fun _ => rfl
    | cons h rest ih =>
      intro e
      rw [List.foldl_cons, ih]
      rfl
  rw [hrecords]
  unfold takeShard startShard shardOf onWorker
  cases (e.workers.get .adder)[id]? <;> rfl

theorem reportShard_eq : e.reportShard nowMs id =
    (e.shardOf id).foldl (fun e h => e.reportRecord nowMs id h) e := by
  have hrecords : ∀ (hs : List Handle) (d : Engine), d.settings = e.settings →
      hs.foldl (fun d h => d.reportRecord nowMs id h) d = hs.foldl (fun d h =>
        d.onWorker .adder id fun w s => Worker.visit (Record.reportAdder e.settings nowMs) (w, s) h)
        d := by
    intro hs
    induction hs with
    | nil => exact fun d _ => List.foldl_nil.trans List.foldl_nil.symm
    | cons h rest ih =>
      intro d hd
      have hsettings := settings_of_face (face_reportRecord nowMs id h d)
      have hrest := ih (d.reportRecord nowMs id h) (hsettings.trans hd)
      rw [List.foldl_cons, List.foldl_cons, hrest, reportRecord, hd]
  rw [hrecords _ e rfl, foldl_onWorker]
  unfold reportShard onWorker
  cases hw : (e.workers.get .adder)[id]? with
  | none => rfl
  | some w => simp only [Worker.reportAdders, shardOf, hw]

end Alone

end Engine

namespace Shift

variable (t : Rhythm) {id nowMs : Nat} {s : Shift}

theorem run_cons (first : Move) (rest : List Move) : s.run t (first :: rest) =
    (s.step t first).run t rest := rfl

theorem run_append (moves more : List Move) :
    s.run t (moves ++ more) = (s.run t moves).run t more := List.foldl_append

section Work

theorem work_idle (htask : s.task id = none) (hphase : s.session.phases[id]? = some .idle) :
    s.work t id = s.beginTake (t.clock (s.done id)) id := by
  rw [work, htask, hphase]

theorem work_freed {released : Bool} (htask : s.task id = none)
    (hphase : s.session.phases[id]? = some (.freed nowMs released)) :
    s.work t id = s.beginReport nowMs id released := by
  rw [work, htask, hphase]

theorem work_waiting (htask : s.task id = none)
    (hphase : s.session.phases[id]? = some (.taken nowMs) ∨
      ∃ ticket, s.session.phases[id]? = some (.held nowMs ticket)) (now took : Nat) :
    s.work t id = { s with session := s.session.stepAdder now took id } := by
  rcases hphase with hphase | ⟨ticket, hphase⟩ <;>
    simp only [work, htask, hphase, Session.stepAdder]

end Work

section Alone

theorem run_take {rest : List Handle} (h : s.task id = some (.take nowMs rest)) :
    ∃ s' : Shift, s.run t (List.replicate rest.length (.worker id)) = s' ∧
      s'.task id = some (.take nowMs []) ∧ s'.done = s.done ∧ s'.session = { s.session with
        engine := rest.foldl (fun e h => e.takeRecord h) s.session.engine } := by
  induction rest generalizing s with
  | nil => exact ⟨s, rfl, h, rfl, rfl⟩
  | cons first rest ih =>
    have hstep : s.work t id = s.take nowMs id first rest := by rw [work, h]
    have htask : (s.work t id).task id = some (.take nowMs rest) := by
      rw [hstep]
      simp [take, assign]
    obtain ⟨s', hrun, hend, hdone, hsession⟩ := ih htask
    refine ⟨s', hrun, hend, ?_, ?_⟩
    · rw [hdone, hstep]
      rfl
    · rw [hsession, hstep]
      rfl

theorem run_report {released : Bool} {rest : List Handle}
    (h : s.task id = some (.report nowMs released rest)) :
    ∃ s' : Shift, s.run t (List.replicate rest.length (.worker id)) = s' ∧
      s'.task id = some (.report nowMs released []) ∧ s'.done = s.done ∧
      s'.session = { s.session with
        engine := rest.foldl (fun e h => e.reportRecord nowMs id h) s.session.engine } := by
  induction rest generalizing s with
  | nil => exact ⟨s, rfl, h, rfl, rfl⟩
  | cons first rest ih =>
    have hstep : s.work t id = s.report nowMs id released first rest := by rw [work, h]
    have htask : (s.work t id).task id = some (.report nowMs released rest) := by
      rw [hstep]
      simp [report, assign]
    obtain ⟨s', hrun, hend, hdone, hsession⟩ := ih htask
    refine ⟨s', hrun, hend, ?_, ?_⟩
    · rw [hdone, hstep]
      rfl
    · rw [hsession, hstep]
      rfl

theorem run_beginReport (released : Bool) (s : Shift) : ((s.beginReport nowMs id released).run t
      (List.replicate ((s.engine.shardOf id).length + 1) (.worker id))).session =
        s.session.report nowMs (t.took (s.done id) (.worker .adder id)) id released := by
  have htask : (s.beginReport nowMs id released).task id =
      some (.report nowMs released (s.engine.shardOf id)) := by
    simp [beginReport, assign]
  obtain ⟨s', hrun, hend, hdone, hsession⟩ := run_report t htask
  have hlast : s'.work t id = s'.endReport (t.took (s.done id) (.worker .adder id)) id released := by
    rw [work, hend]
    simp only [hdone]
    rfl
  have hreported : s'.session =
      { s.session with engine := s.session.engine.reportShard nowMs id } := by
    rw [Engine.reportShard_eq]
    exact hsession
  rw [List.replicate_succ', run_append, hrun, run_cons, step, hlast]
  simp only [endReport, write, setEngine, setPhase, assign, engine, hreported, run, List.foldl_nil,
    Session.report]

theorem run_beginTake (s : Shift) : ∃ s' : Shift, (s.beginTake nowMs id).run t
      (List.replicate ((s.engine.shardOf id).length + 1) (.worker id)) = s'.endTake nowMs id ∧
    s'.done = s.done ∧
      s'.session = { s.session with engine := s.session.engine.takeShard nowMs id } := by
  have htask : (s.beginTake nowMs id).task id = some (.take nowMs (s.engine.shardOf id)) := by
    simp [beginTake, assign]
  obtain ⟨s', hrun, hend, hdone, hsession⟩ := run_take t htask
  refine ⟨s', ?_, hdone, ?_⟩
  · rw [List.replicate_succ', run_append, hrun, run_cons, step, work, hend]
    rfl
  · rw [Engine.takeShard_eq]
    exact hsession

/-- A worker that nobody interrupts does what it does in one step of a session. -/
theorem work_alone (htask : s.task id = none) (hstays : s.session.stopping = false) :
    ∃ count, (s.run t (List.replicate count (.worker id))).session = s.session.stepAdder
      (t.clock (s.done id)) (t.took (s.done id) (.worker .adder id)) id := by
  cases hphase : s.session.phases[id]? with
  | none => exact ⟨0, by rw [Session.stepAdder, hphase]; rfl⟩
  | some phase =>
    cases phase with
    | idle =>
      obtain ⟨s', hrun, hdone, hsession⟩ := run_beginTake t s
      cases hfence : s.session.fence with
      | some fence =>
        refine ⟨(s.engine.shardOf id).length + 2, ?_⟩
        rw [List.replicate_succ, run_cons, step, work_idle t htask hphase, hrun]
        simp only [endTake, setPhase, assign, hsession, hfence, Session.stepAdder, hphase,
          Session.wake, hstays, Bool.false_eq_true, if_false]
      | none =>
        have hend : s'.endTake (t.clock (s.done id)) id =
            s'.beginReport (t.clock (s.done id)) id true := by
          simp only [endTake, hsession, hfence]
        have hidle : s.session.phases.set id .idle = s.session.phases := by
          obtain ⟨hlt, hidle⟩ := List.getElem?_eq_some_iff.mp hphase
          rw [← hidle, List.set_getElem_self]
        refine ⟨(s.engine.shardOf id).length + 2 + ((s'.engine.shardOf id).length + 1), ?_⟩
        rw [← List.replicate_append_replicate, run_append, List.replicate_succ, run_cons, step,
          work_idle t htask hphase, hrun, hend, run_beginReport]
        simp only [Session.report, Session.setPhase, hsession, hdone, hidle, if_true, hfence,
          Session.stepAdder, hphase, Session.wake, hstays, Bool.false_eq_true, if_false]
    | taken nowMs => exact ⟨1, congrArg session (work_waiting t htask (.inl hphase) _ _)⟩
    | held nowMs ticket =>
      exact ⟨1, congrArg session (work_waiting t htask (.inr ⟨ticket, hphase⟩) _ _)⟩
    | freed nowMs released =>
      refine ⟨(s.engine.shardOf id).length + 2, ?_⟩
      rw [List.replicate_succ, run_cons, step, work_freed t htask hphase, run_beginReport,
        Session.stepAdder, hphase]
    | stopped => exact ⟨0, by rw [Session.stepAdder, hphase]; rfl⟩

end Alone

end Shift

end Rollup
