import Mathlib.Data.List.Nodup
import Rollup.Store.Traffic

/-! Custody of locks and of records. A lock is with one call at a time, and a record is with the call
that has made it, then in a chain, then with the call that has unlinked it. -/
namespace Rollup.Traffic

structure Locks (locked : Nat → Bool) (holds : Nat → Option Nat) : Prop where
  locked : ∀ id bucket, holds id = some bucket → locked (Table.stripeOf bucket) = true
  exclusive : ∀ id id' bucket bucket', holds id = some bucket → holds id' = some bucket' →
    Table.stripeOf bucket = Table.stripeOf bucket' → id = id'

namespace Locks

variable {locked : Nat → Bool} {holds : Nat → Option Nat}

theorem acquire (h : Locks locked holds) (id : Nat) {bucket : Nat}
    (hfree : locked (Table.stripeOf bucket) = false) :
    Locks (fun stripe => if stripe = Table.stripeOf bucket then true else locked stripe)
      (fun k => if k = id then some bucket else holds k) where
  locked k other hk := by
    split at hk
    · cases hk
      exact if_pos rfl
    · simp [h.locked k other hk]
  exclusive k k' other other' hk hk' hsame := by
    have hnew : ∀ j b, holds j = some b → Table.stripeOf b ≠ Table.stripeOf bucket := by
      intro j b hj heq
      have := h.locked j b hj
      rw [heq, hfree] at this
      cases this
    split at hk <;> split at hk'
    · simp_all
    · cases hk
      exact absurd hsame.symm (hnew k' other' hk')
    · cases hk'
      exact absurd hsame (hnew k other hk)
    · exact h.exclusive k k' other other' hk hk' hsame

theorem release (h : Locks locked holds) {id bucket : Nat} (hholds : holds id = some bucket) :
    Locks (fun stripe => if stripe = Table.stripeOf bucket then false else locked stripe)
      (fun k => if k = id then none else holds k) where
  locked k other hk := by
    split at hk
    · cases hk
    · rename_i hne
      rw [if_neg fun heq => hne (h.exclusive k id other bucket hk hholds heq)]
      exact h.locked k other hk
  exclusive k k' other other' hk hk' hsame := by
    split at hk <;> split at hk'
    · cases hk
    · cases hk
    · cases hk'
    · exact h.exclusive k k' other other' hk hk' hsame

end Locks

/-- Where the records are: with the call that has made it, in a chain, or with the collection that
has unlinked it. -/
structure Ledger (count : Nat) (linked : Handle → Prop) (made pending : Nat → Option Handle)
    (unlinked : Nat → List Handle) : Prop where
  made_lt : ∀ id h, made id = some h → h < count
  maker : ∀ h < count, ∃ id, made id = some h
  made_once : ∀ id id' h, made id = some h → made id' = some h → id = id'
  pending_made : ∀ id h, pending id = some h → made id = some h
  pending_only : ∀ id h, pending id = some h → ¬ linked h ∧ ∀ id', h ∉ unlinked id'
  linked_lt : ∀ h, linked h → h < count
  unlinked_lt : ∀ id, ∀ h ∈ unlinked id, h < count
  unlinked_only : ∀ id, ∀ h ∈ unlinked id, ¬ linked h
  unlinked_nodup : ∀ id, (unlinked id).Nodup
  unlinked_once : ∀ id id' h, h ∈ unlinked id → h ∈ unlinked id' → id = id'
  somewhere : ∀ h < count, (∃ id, pending id = some h) ∨ linked h ∨ ∃ id, h ∈ unlinked id

namespace Ledger

variable {count : Nat} {linked : Handle → Prop} {made pending : Nat → Option Handle}
  {unlinked : Nat → List Handle} {id : Nat}

theorem make (l : Ledger count linked made pending unlinked) (hmade : made id = none) :
    Ledger (count + 1) linked (fun k => if k = id then some count else made k)
      (fun k => if k = id then some count else pending k) unlinked where
  made_lt k h hk := by
    have := l.made_lt k h
    grind
  maker h hlt := by
    by_cases heq : h = count
    · exact ⟨id, by simp [heq]⟩
    · obtain ⟨k, hk⟩ := l.maker h (by omega)
      exact ⟨k, by grind⟩
  made_once k k' h hk hk' := by
    have := l.made_lt k h
    have := l.made_lt k' h
    have := l.made_once k k' h
    grind
  pending_made k h hk := by
    have := l.pending_made k h
    grind
  pending_only k h hk := by
    have := l.pending_only k h
    have := l.linked_lt h
    have := fun j => l.unlinked_lt j h
    grind
  linked_lt h hlinked := Nat.lt_succ_of_lt (l.linked_lt h hlinked)
  unlinked_lt k h hmem := Nat.lt_succ_of_lt (l.unlinked_lt k h hmem)
  unlinked_only := l.unlinked_only
  unlinked_nodup := l.unlinked_nodup
  unlinked_once := l.unlinked_once
  somewhere h hlt := by
    by_cases heq : h = count
    · exact .inl ⟨id, by simp [heq]⟩
    · obtain ⟨k, hk⟩ | hlinked | hunlinked := l.somewhere h (by omega)
      · have := l.pending_made k h hk
        exact .inl ⟨k, by grind⟩
      · exact .inr (.inl hlinked)
      · exact .inr (.inr hunlinked)

theorem link (l : Ledger count linked made pending unlinked) {new : Handle}
    (hpending : pending id = some new) : Ledger count (fun h => h = new ∨ linked h) made
      (fun k => if k = id then none else pending k) unlinked where
  made_lt := l.made_lt
  maker := l.maker
  made_once := l.made_once
  pending_made k h hk := by
    have := l.pending_made k h
    grind
  pending_only k h hk := by
    have := l.pending_only k h
    have := l.made_once k id h
    have := l.pending_made k h
    have := l.pending_made id new hpending
    grind
  linked_lt h hlinked := by
    have := l.linked_lt h
    have := l.made_lt id new (l.pending_made id new hpending)
    grind
  unlinked_lt := l.unlinked_lt
  unlinked_only k h hmem := by
    have := l.unlinked_only k h hmem
    have := (l.pending_only id new hpending).2 k
    grind
  unlinked_nodup := l.unlinked_nodup
  unlinked_once := l.unlinked_once
  somewhere h hlt := by
    obtain ⟨k, hk⟩ | hlinked | hunlinked := l.somewhere h hlt
    · by_cases heq : k = id
      · exact .inr (.inl (.inl (by simp_all)))
      · exact .inl ⟨k, by simp [heq, hk]⟩
    · exact .inr (.inl (.inr hlinked))
    · exact .inr (.inr hunlinked)

theorem sweep (l : Ledger count linked made pending unlinked) {dropped : List Handle}
    (hnodup : dropped.Nodup) (hlinked : ∀ h ∈ dropped, linked h) :
    Ledger count (fun h => linked h ∧ h ∉ dropped) made pending
      (fun k => if k = id then unlinked id ++ dropped else unlinked k) where
  made_lt := l.made_lt
  maker := l.maker
  made_once := l.made_once
  pending_made := l.pending_made
  pending_only k h hk := by
    have := l.pending_only k h hk
    have := hlinked h
    grind
  linked_lt h hkept := l.linked_lt h hkept.1
  unlinked_lt k h hmem := by
    have := l.unlinked_lt k h
    have := l.linked_lt h
    have := hlinked h
    grind
  unlinked_only k h hmem := by
    have := l.unlinked_only k h
    grind
  unlinked_nodup k := by
    split
    · refine (List.nodup_append'.mpr ⟨l.unlinked_nodup id, hnodup, ?_⟩)
      intro h hmem hdropped
      exact l.unlinked_only id h hmem (hlinked h hdropped)
    · exact l.unlinked_nodup k
  unlinked_once k k' h hk hk' := by
    have := l.unlinked_once k k' h
    have := l.unlinked_only k h
    have := l.unlinked_only k' h
    have := hlinked h
    grind
  somewhere h hlt := by
    obtain hpending | hmem | ⟨k, hk⟩ := l.somewhere h hlt
    · exact .inl hpending
    · by_cases hdropped : h ∈ dropped
      · exact .inr (.inr ⟨id, by simp [hdropped]⟩)
      · exact .inr (.inl ⟨hmem, hdropped⟩)
    · exact .inr (.inr ⟨k, by grind⟩)

end Ledger

end Rollup.Traffic
