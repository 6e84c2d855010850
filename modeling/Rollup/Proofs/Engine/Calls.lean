import Mathlib.Data.List.Induction
import Rollup.Proofs.Engine.Ticks

/-! Runs of an engine: points, records and ticks in any order. Every call leads to a sound engine,
and only a removal can invalidate a record that is exempt from collection. -/
namespace Rollup

inductive Call
  | ingest (p : Point)
  | text (text : List Char)
  | create (kind : Kind) (path : String)
  | remove (kind : Kind) (path : String)
  | update (h : Handle) (value : Float) (adjustment : Adjustment)
  | reconfigure (blocks : List BlockConfig)
  | tick (nowMs : Nat) (took : Activity → Nat)

namespace Engine

def call (e : Engine) : Call → Engine
  | .ingest p => (e.ingest p).toOption.getD e
  | .text text => (e.ingestText text).2
  | .create kind path => (e.getOrCreate kind path).2
  | .remove kind path => (e.remove kind path).2
  | .update h value adjustment => (e.updateRecord h value adjustment).toOption.getD e
  | .reconfigure blocks => (e.reconfigure blocks).toOption.getD e
  | .tick nowMs took => e.tick nowMs took

def run (e : Engine) (calls : List Call) : Engine := calls.foldl call e

theorem run_cons (e : Engine) (first : Call) (rest : List Call) :
    e.run (first :: rest) = (e.call first).run rest := rfl

theorem run_append (e : Engine) (calls more : List Call) :
    e.run (calls ++ more) = (e.run calls).run more :=
  List.foldl_append

@[simp] theorem run_snoc (e : Engine) (calls : List Call) (last : Call) :
    e.run (calls ++ [last]) = (e.run calls).call last :=
  List.foldl_append

theorem run_tick (e : Engine) (calls : List Call) (nowMs : Nat) (took : Activity → Nat) :
    e.run (calls ++ [.tick nowMs took]) = (e.run calls).tick nowMs took :=
  run_snoc e calls _

variable {e : Engine}

theorem moves_ingest (he : e.WellFormed) (p : Point) : e.Moves ((e.ingest p).toOption.getD e) := by
  unfold ingest
  split
  · exact .refl he
  · exact moves_accept he p

theorem moves_ingestLine (he : e.WellFormed) (counts : LineCounts) (line : Except LineError Point) :
    e.Moves (ingestLine (counts, e) line).2 := by
  simp only [ingestLine]
  split
  · exact moves_accept he _
  · exact moves_measure he _
  · exact .refl he

theorem moves_ingestText (he : e.WellFormed) (text : List Char) :
    e.Moves (e.ingestText text).2 := by
  have hlines : ∀ (lines : List (Except LineError Point)) (counts : LineCounts) (e' : Engine),
      e'.WellFormed → e'.Moves (lines.foldl ingestLine (counts, e')).2 := by
    intro lines
    induction lines with
    | nil => exact fun _ _ he' => .refl he'
    | cons line rest ih =>
      intro counts e' he'
      have hfirst := moves_ingestLine he' counts line
      exact hfirst.trans (ih _ _ hfirst.wellFormed)
  have hall := hlines (Point.ofText text) {} e he
  exact hall.trans (moves_measureAll hall.wellFormed _)

/-- Every call but a removal spares exempt records. -/
theorem moves_call (he : e.WellFormed) (call : Call)
    (hcall : ∀ kind path, call ≠ .remove kind path) :
    e.Moves (e.call call) := by
  cases call with
  | ingest p => exact moves_ingest he p
  | text text => exact moves_ingestText he text
  | create kind path => exact moves_getOrCreate he kind path
  | remove kind path => exact absurd rfl (hcall kind path)
  | update h value adjustment =>
    simp only [Engine.call]
    cases hupdate : e.updateRecord h value adjustment with
    | error cause => exact .refl he
    | ok e' => exact moves_updateRecord he hupdate
  | reconfigure blocks =>
    simp only [Engine.call]
    cases hlayouts : e.reconfigure blocks with
    | error cause => exact .refl he
    | ok e' => exact moves_reconfigure he hlayouts
  | tick nowMs took => exact moves_tick nowMs took he

theorem leads_call (he : e.WellFormed) (call : Call) : e.Leads (e.call call) := by
  by_cases hcall : ∃ kind path, call = .remove kind path
  · obtain ⟨kind, path, rfl⟩ := hcall
    exact leads_remove he kind path
  · exact (moves_call he call fun kind path heq => hcall ⟨kind, path, heq⟩).toLeads

theorem leads_run (he : e.WellFormed) (calls : List Call) : e.Leads (e.run calls) := by
  induction calls using List.reverseRecOn with
  | nil => exact .refl he
  | append_singleton calls last ih =>
    rw [run_snoc]
    exact ih.trans (leads_call ih.wellFormed last)

theorem moves_run (he : e.WellFormed) {calls : List Call}
    (hkept : ∀ kind path, Call.remove kind path ∉ calls) : e.Moves (e.run calls) := by
  induction calls using List.reverseRecOn with
  | nil => exact .refl he
  | append_singleton calls last ih =>
    simp only [List.mem_append, List.mem_singleton, not_or] at hkept
    have hcalls := ih fun kind path => (hkept kind path).1
    rw [run_snoc]
    exact hcalls.trans (moves_call hcalls.wellFormed last fun kind path heq =>
      (hkept kind path).2 heq.symm)

def point (path : String) (value : Float) : Call := .ingest ⟨path, .adder, value, .set⟩

def pause (nowMs : Nat) : Call := .tick nowMs fun _ => 0

/-- Two buckets and one worker for each kind, so that runs can be computed. -/
def compact (c : EngineConfig) : EngineConfig :=
  let kind : KindConfig := { threads := some 1, tableSize := some 2 }
  { c with adder := kind, gauge := kind, stats := { c.stats with base := kind }, histogram := kind }

theorem exists_ofConfig {c : EngineConfig} {check : Engine → Bool}
    (h : (ofConfig c).toOption.any check = true) : ∃ e, ofConfig c = .ok e ∧ check e = true := by
  cases hbuilt : ofConfig c with
  | error cause => rw [hbuilt] at h; cases h
  | ok e =>
    rw [hbuilt] at h
    exact ⟨e, rfl, h⟩

end Engine

end Rollup
