import Mathlib.Algebra.Ring.Nat
import Mathlib.Data.List.Perm.Basic
import Rollup.Sorting

/-! Arrays of keys that are rearranged in place: what an exchange of two keys of a range keeps, and
what it means that an array is sorted. -/
namespace Rollup.Sorting

variable {keys keys' : Array UInt64} {low high i j k : Nat}

theorem swap_get! (hi : i < keys.size) (hj : j < keys.size) :
    (keys.swapIfInBounds i j)[k]! =
      if k = i then keys[j]! else if k = j then keys[i]! else keys[k]! := by
  grind

inductive Rearranged (low high : Nat) (keys : Array UInt64) : Array UInt64 → Prop
  | refl : Rearranged low high keys keys
  | swap {between : Array UInt64} {i j : Nat} (before : Rearranged low high keys between)
      (hi : low ≤ i ∧ i ≤ high) (hj : low ≤ j ∧ j ≤ high) :
      Rearranged low high keys (between.swapIfInBounds i j)

namespace Rearranged

theorem size (h : Rearranged low high keys keys') : keys'.size = keys.size := by
  induction h with
  | refl => rfl
  | swap _ _ _ ih => rw [Array.size_swapIfInBounds, ih]

theorem trans {keys'' : Array UInt64} (h : Rearranged low high keys keys')
    (h' : Rearranged low high keys' keys'') : Rearranged low high keys keys'' := by
  induction h' with
  | refl => exact h
  | swap _ hi hj ih => exact ih.swap hi hj

theorem mono {low' high' : Nat} (h : Rearranged low high keys keys') (hlow : low' ≤ low)
    (hhigh : high ≤ high') : Rearranged low' high' keys keys' := by
  induction h with
  | refl => exact .refl
  | swap _ hi hj ih => exact ih.swap (by omega) (by omega)

theorem perm (h : Rearranged low high keys keys') : keys'.Perm keys := by
  induction h with
  | refl => exact .refl _
  | @swap between i j _ _ _ ih =>
    refine .trans ?_ ih
    rw [Array.swapIfInBounds_def]
    split_ifs with hi hj
    · exact Array.swap_perm hi hj
    all_goals exact .refl _

theorem get!_outside (h : Rearranged low high keys keys') (hk : k < low ∨ high < k) :
    keys'[k]! = keys[k]! := by
  induction h with
  | refl => rfl
  | @swap between i j _ hi hj ih =>
    rw [← ih]
    grind

theorem forall_range {P : UInt64 → Prop} (h : Rearranged low high keys keys')
    (hhigh : high < keys.size) (hP : ∀ k, low ≤ k → k ≤ high → P keys[k]!) :
    ∀ k, low ≤ k → k ≤ high → P keys'[k]! := by
  induction h with
  | refl => exact hP
  | @swap between i j before hi hj ih =>
    intro k hlow hk
    have hsize := before.size
    rw [swap_get! (by omega) (by omega)]
    split_ifs
    · exact ih j hj.1 hj.2
    · exact ih i hi.1 hi.2
    · exact ih k hlow hk

end Rearranged

structure Arranges (keys sorted : Array UInt64) : Prop where
  perm : sorted.Perm keys
  ascending : sorted.toList.Pairwise (· ≤ ·)

theorem ascending_of_get! (h : ∀ i j, i < j → j < keys.size → keys[i]! ≤ keys[j]!) :
    keys.toList.Pairwise (· ≤ ·) := by
  rw [List.pairwise_iff_getElem]
  intro i j hi hj hij
  have hle := h i j hij hj
  rwa [getElem!_pos keys i hi, getElem!_pos keys j hj] at hle

end Rollup.Sorting
