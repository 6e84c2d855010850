import Rollup.Engine.Session
import Rollup.Proofs.Engine.Calls

/-! What the threads of a running engine do, in steps that may come in any order. A session, which
holds its adder workers at a fence, only does such steps. -/
namespace Rollup

inductive Step
  | point (p : Point)
  | text (text : List Char)
  | take (nowMs id : Nat)
  | compute (took : Nat)
  | report (nowMs took id : Nat)
  | pass (nowMs took : Nat) (kind : Kind) (id : Nat)
  | collect (took : Nat)

namespace Engine

def step (e : Engine) : Step → Engine
  | .point p => (e.ingest p).toOption.getD e
  | .text text => (e.ingestText text).2
  | .take nowMs id => e.takeShard nowMs id
  | .compute took => e.runSynthetics took
  | .report nowMs took id => (e.reportShard nowMs id).finishShard took .adder id
  | .pass nowMs took kind id => (e.passShard nowMs kind id).finishShard took kind id
  | .collect took => e.collect took

def after (e : Engine) (steps : List Step) : Engine := steps.foldl step e

theorem after_append (e : Engine) (steps more : List Step) :
    e.after (steps ++ more) = (e.after steps).after more :=
  List.foldl_append

variable {e : Engine}

theorem moves_step (he : e.WellFormed) (step : Step) : e.Moves (e.step step) := by
  cases step with
  | point p => exact moves_ingest he p
  | text text => exact moves_ingestText he text
  | take nowMs id => exact moves_takeShard nowMs id he
  | compute took => exact moves_runSynthetics took he
  | report nowMs took id =>
    have hreport := moves_reportShard nowMs id he
    exact hreport.trans (moves_finishShard took id hreport.wellFormed .adder)
  | pass nowMs took kind id =>
    have hpass := moves_passShard nowMs id he kind
    exact hpass.trans (moves_finishShard took id hpass.wellFormed kind)
  | collect took => exact moves_collect he took

theorem moves_after (he : e.WellFormed) (steps : List Step) : e.Moves (e.after steps) := by
  induction steps generalizing e with
  | nil => exact .refl he
  | cons first rest ih =>
    have hfirst := moves_step he first
    exact hfirst.trans (ih hfirst.wellFormed)

def Performs (e e' : Engine) : Prop := ∃ steps, e' = e.after steps

theorem Performs.refl (e : Engine) : e.Performs e := ⟨[], rfl⟩

theorem Performs.one (e : Engine) (step : Step) : e.Performs (e.step step) := ⟨[step], rfl⟩

theorem Performs.trans {e e' e'' : Engine} (h : e.Performs e') (h' : e'.Performs e'') :
    e.Performs e'' := by
  obtain ⟨steps, rfl⟩ := h
  obtain ⟨more, rfl⟩ := h'
  exact ⟨steps ++ more, (after_append e steps more).symm⟩

end Engine

namespace Session

open Engine (Performs)

theorem performs_stepAdder (nowMs took id : Nat) (s : Session) :
    s.engine.Performs (s.stepAdder nowMs took id).engine := by
  unfold stepAdder
  split
  · exact .refl _
  · unfold wake
    split
    · exact .refl _
    · simp only
      split
      · exact .one s.engine (.take nowMs id)
      · exact (Performs.one s.engine (.take nowMs id)).trans (.one _ (.report nowMs took id))
  · unfold arrive
    split
    · exact .refl _
    · split <;> exact .refl _
  · unfold leave
    split <;> exact .refl _
  · exact .one s.engine (.report _ took id)
  · exact .refl _

theorem performs_step (s : Session) (event : Event) : s.engine.Performs (s.step event).engine := by
  cases event with
  | adder nowMs took id => exact performs_stepAdder nowMs took id s
  | synthetics took =>
    simp only [step, stepSynthetics]
    split
    · exact .refl _
    · split
      · exact .refl _
      · exact .refl _
      · exact .one s.engine (.compute took)
  | pass nowMs took kind id =>
    simp only [step, stepPass]
    split
    · exact .refl _
    · exact .one s.engine (.pass nowMs took kind id)
  | collection took =>
    simp only [step, stepCollection]
    split
    · exact .refl _
    · exact .one s.engine (.collect took)
  | text text => exact .one s.engine (.text text)
  | closeFence => exact .refl _
  | disconnect => exact .refl _

/-- Whatever happens in a session, its engine is one that steps lead to. -/
theorem performs_run (s : Session) (events : List Event) :
    s.engine.Performs (s.run events).engine := by
  induction events generalizing s with
  | nil => exact .refl _
  | cons first rest ih => exact (performs_step s first).trans (ih (s.step first))

end Session

end Rollup
