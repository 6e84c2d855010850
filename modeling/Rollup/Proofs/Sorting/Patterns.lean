import Rollup.Proofs.Number.TotalOrder
import Rollup.Proofs.Sorting.Quick
import Rollup.Proofs.Sorting.Radix

/-! The sorts as sorts of bit patterns: both end without an access outside their arrays and arrange
the very patterns they are given by the total order, with payloads of NaNs and signs of zeros. -/
namespace Rollup.Sorting

variable {patterns patterns' sorted sorted' : Array DoubleBits}

structure Ranks (patterns sorted : Array DoubleBits) : Prop where
  perm : sorted.Perm patterns
  ascending : sorted.toList.Pairwise fun a b => a.rank ≤ b.rank

/-- There is one such arrangement, since patterns that share a place are the same. -/
theorem Ranks.eq_of_perm (h : Ranks patterns sorted) (h' : Ranks patterns' sorted')
    (hperm : patterns.Perm patterns') : sorted = sorted' := by
  have hall : sorted.toList.Perm sorted'.toList :=
    (h.perm.trans (hperm.trans h'.perm.symm)).toList
  exact Array.toList_inj.mp (hall.eq_of_pairwise
    (fun _ _ _ _ hle hge => DoubleBits.rank_injective (Int.le_antisymm hle hge))
    h.ascending h'.ascending)

theorem Arranges.ranks {keys : Array UInt64}
    (h : Arranges (patterns.map DoubleBits.orderKey) keys) :
    Ranks patterns (keys.map DoubleBits.ofOrderKey) := by
  have hperm : (keys.map DoubleBits.ofOrderKey).Perm patterns := by
    have hback : (patterns.map DoubleBits.orderKey).toList.map DoubleBits.ofOrderKey =
        patterns.toList := by
      simp [List.map_map, Function.comp_def]
    rw [Array.perm_iff_toList_perm, Array.toList_map, ← hback]
    exact h.perm.toList.map _
  refine ⟨hperm, ?_⟩
  rw [Array.toList_map, List.pairwise_map]
  refine h.ascending.imp_of_mem fun ha hb hle => ?_
  have hkey : ∀ key ∈ keys.toList, (DoubleBits.ofOrderKey key).orderKey = key := by
    intro key hmem
    have hsource := h.perm.toList.mem_iff.mp hmem
    rw [Array.toList_map] at hsource
    obtain ⟨bits, -, rfl⟩ := List.mem_map.mp hsource
    rw [DoubleBits.ofOrderKey_orderKey]
  rwa [← DoubleBits.orderKey_le_iff, hkey _ ha, hkey _ hb]

theorem Strategy.run_spec (strategy : Strategy) (keys : Array UInt64) (w : Workspace) :
    ∃ sorted after, strategy.run keys w = some (sorted, after) ∧ Arranges keys sorted := by
  cases strategy with
  | quick =>
    obtain ⟨sorted, hsorted, harranges⟩ := quick?_spec keys
    exact ⟨sorted, w, by rw [run, hsorted]; rfl, harranges⟩
  | radix => exact radix?_spec keys w

theorem ranks_sortBy (strategy : Strategy) (patterns : Array DoubleBits) (w : Workspace) :
    Ranks patterns (sortBy strategy patterns w).1 := by
  obtain ⟨keys, after, hrun, harranges⟩ :=
    strategy.run_spec (patterns.map DoubleBits.orderKey) w
  rw [sortBy, hrun]
  exact harranges.ranks

/-- Quicksort ends, within its array, with the patterns in their total order. -/
theorem quick?_ranks (patterns : Array DoubleBits) (w : Workspace) :
    ∃ keys, quick? (patterns.map DoubleBits.orderKey) = some keys ∧
      sortBy .quick patterns w = (keys.map DoubleBits.ofOrderKey, w) ∧
      Ranks patterns (keys.map DoubleBits.ofOrderKey) := by
  obtain ⟨keys, hkeys, harranges⟩ := quick?_spec (patterns.map DoubleBits.orderKey)
  refine ⟨keys, hkeys, ?_, harranges.ranks⟩
  simp only [sortBy, Strategy.run, hkeys, Option.map_some]

/-- The radix sort writes within its buffers only, whatever they held before, and ends with the
patterns in their total order, which makes it agree with quicksort. -/
theorem radix?_ranks (patterns : Array DoubleBits) (w w' : Workspace) :
    ∃ keys after, radix? (patterns.map DoubleBits.orderKey) w = some (keys, after) ∧
      sortBy .radix patterns w = (keys.map DoubleBits.ofOrderKey, after) ∧
      Ranks patterns (keys.map DoubleBits.ofOrderKey) ∧
      keys.map DoubleBits.ofOrderKey = (sortBy .quick patterns w').1 := by
  obtain ⟨keys, after, hkeys, harranges⟩ := radix?_spec (patterns.map DoubleBits.orderKey) w
  refine ⟨keys, after, hkeys, ?_, harranges.ranks, ?_⟩
  · simp only [sortBy, Strategy.run, hkeys]
  · exact harranges.ranks.eq_of_perm (ranks_sortBy .quick patterns w') (.refl patterns)

end Rollup.Sorting
