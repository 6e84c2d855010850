import Rollup.Pass.Stats
import Rollup.Proofs.Record.Buffering
import Rollup.Proofs.Sorting.Patterns

/-! The report of a batch. Arithmetic on doubles depends on its order, but the report is computed
from the sorted batch, and both sorts arrive at the one order of its bit patterns, in which samples
that cannot be told apart are the same pattern. -/
namespace Rollup

namespace Sorting

theorem sortBy_eq_of_perm {patterns patterns' : Array DoubleBits} (h : patterns.Perm patterns')
    (strategy strategy' : Strategy) (w w' : Workspace) :
    (sortBy strategy patterns w).1 = (sortBy strategy' patterns' w').1 :=
  (ranks_sortBy strategy patterns w).eq_of_perm (ranks_sortBy strategy' patterns' w') h

theorem sortSamples_eq_of_perm {samples samples' : Array Float}
    (h : (samples.map Float.toBits).Perm (samples'.map Float.toBits)) (threshold threshold' : Nat)
    (w w' : Workspace) :
    (sortSamples threshold samples w).1 = (sortSamples threshold' samples' w').1 := by
  simp only [sortSamples]
  rw [sortBy_eq_of_perm h]

end Sorting

namespace Samples

def Tallied (s : Samples) : Prop := s.count = s.flatten.size

theorem tallied_empty : empty.Tallied := rfl

theorem Tallied.push {s : Samples} (h : s.Tallied) (value : Float) : (s.push value).Tallied := by
  have hflatten := congrArg List.length (flatten_push s value)
  rw [List.length_append, Array.length_toList, Array.length_toList] at hflatten
  exact (count_push s value).trans (hflatten ▸ congrArg (· + 1) h)

theorem tallied_clear (s : Samples) : s.clear.Tallied := by
  have hflatten := congrArg List.length (flatten_clear s)
  exact hflatten.symm

end Samples

namespace Record

theorem passStats_report {r : Record} {sides : Sides Samples} (h : r.body = .stats sides)
    (settings : Settings) (w : Sorting.Workspace) :
    (r.passStats settings w).1 =
      if sides.input.count = 0 then ⟨0, [], 0⟩
      else ⟨sides.input.flatten.size, Stats.readings settings r.checks
        (settings.reportName .stats r.path)
        (Sorting.sortSamples settings.sortThreshold sides.input.flatten w).1, 0⟩ := by
  simp only [passStats, swap, h, Body.swap, Sides.swap_processed]
  split <;> rfl

/-- Neither the order of the samples nor their chunks, the threshold of the sorts or what a
workspace holds shows in the report of a stats record. -/
theorem passStats_report_of_perm (r : Record) {sides sides' : Sides Samples}
    (htallied : sides.input.Tallied) (htallied' : sides'.input.Tallied)
    (hperm : (sides.input.flatten.map Float.toBits).Perm (sides'.input.flatten.map Float.toBits))
    (settings : Settings) (threshold threshold' : Nat) (w w' : Sorting.Workspace) :
    (passStats { settings with sortThreshold := threshold } { r with body := .stats sides } w).1 =
      (passStats { settings with sortThreshold := threshold' } { r with body := .stats sides' }
        w').1 := by
  have hsize : sides.input.flatten.size = sides'.input.flatten.size := by
    simpa using hperm.size_eq
  have hcount : sides.input.count = sides'.input.count :=
    htallied.trans (hsize.trans htallied'.symm)
  rw [passStats_report rfl, passStats_report rfl, hcount, hsize,
    Sorting.sortSamples_eq_of_perm hperm _ threshold' w w']
  rfl

/-- Three samples in two chunks, and the same three the other way round in other chunks. -/
theorem passStats_report_of_perm_reversed :
    let sides : Sides Samples := ⟨⟨#[#[1.5, -0.0], #[0.0]], 3⟩, .empty⟩
    let sides' : Sides Samples := ⟨⟨#[#[0.0], #[-0.0, 1.5]], 3⟩, .empty⟩
    let r : Record := .empty "x" 0 [.moments, .mode] (.stats sides)
    sides.input.Tallied ∧ sides'.input.Tallied ∧
      (sides.input.flatten.map Float.toBits).Perm (sides'.input.flatten.map Float.toBits) ∧
      ∃ settings, Settings.ofConfig {} = .ok settings ∧
        (passStats { settings with sortThreshold := 10 } { r with body := .stats sides } {}).1 =
          (passStats { settings with sortThreshold := 0 } { r with body := .stats sides' }
            ⟨#[7, 7, 7, 7]⟩).1 := by
  intro sides sides' r
  have htallied : sides.input.Tallied := by simp [Samples.Tallied, Samples.flatten, sides]
  have htallied' : sides'.input.Tallied := by simp [Samples.Tallied, Samples.flatten, sides']
  have hperm : (sides.input.flatten.map Float.toBits).Perm
      (sides'.input.flatten.map Float.toBits) := by
    have hreverse : (sides.input.flatten.map Float.toBits).toList =
        (sides'.input.flatten.map Float.toBits).toList.reverse := by
      simp [Samples.flatten, sides, sides']
    rw [Array.perm_iff_toList_perm, hreverse]
    exact List.reverse_perm _
  have hbuilt : (Settings.ofConfig {}).toBool = true := by decide +kernel
  cases hsettings : Settings.ofConfig {} with
  | error cause => simp [hsettings, Except.toBool] at hbuilt
  | ok settings =>
    exact ⟨htallied, htallied', hperm, settings, rfl,
      passStats_report_of_perm r htallied htallied' hperm settings 10 0 {} ⟨#[7, 7, 7, 7]⟩⟩

end Record

end Rollup
