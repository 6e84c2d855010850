import Mathlib.Data.List.Nodup
import Rollup.Store

/-! Store lookups. In a well-formed store a record stands in the chain of its hash, a valid one is
linked, and no two valid records of a kind share a path, so that a lookup finds exactly the record.
-/
namespace Rollup

namespace Table

@[simp] theorem size_link (t : Table) (hash : UInt64) (h : Handle) :
    (t.link hash h).size = t.size := by
  simp [link, size]

@[simp] theorem size_filter (t : Table) (keep : Handle → Bool) : (t.filter keep).size = t.size := by
  simp [filter, size]

theorem bucketOf_lt {t : Table} (ht : 0 < t.size) (hash : UInt64) : t.bucketOf hash < t.size :=
  Nat.mod_lt _ ht

theorem chain_link {t : Table} (ht : 0 < t.size) (hash : UInt64) (h : Handle) (bucket : Nat) :
    (t.link hash h).chain bucket =
      if bucket = t.bucketOf hash then h :: t.chain bucket else t.chain bucket := by
  have hlt := bucketOf_lt ht hash
  unfold chain link
  simp only [Array.getD_eq_getD_getElem?, Array.getElem?_modify]
  by_cases hb : bucket = t.bucketOf hash
  · subst hb
    simp only [size] at hlt
    simp [hlt]
  · simp [hb, Ne.symm hb]

@[simp] theorem chain_filter (t : Table) (keep : Handle → Bool) (bucket : Nat) :
    (t.filter keep).chain bucket = (t.chain bucket).filter keep := by
  unfold chain filter
  simp only [Array.getD_eq_getD_getElem?, Array.getElem?_map]
  cases h : t.chains[bucket]? with
  | none => rfl
  | some chain =>
    simp only [Option.map_some, Option.getD_some]
    cases chain with
    | nil => rfl
    | cons first rest => rfl

theorem mem_handles {t : Table} {h : Handle} : h ∈ t.handles ↔ ∃ bucket, h ∈ t.chain bucket := by
  unfold handles chain
  simp only [List.mem_flatten, Array.getD_eq_getD_getElem?]
  constructor
  · rintro ⟨chain, hchain, hmem⟩
    obtain ⟨bucket, hlt, rfl⟩ := List.mem_iff_getElem.mp hchain
    rw [Array.length_toList] at hlt
    exact ⟨bucket, by simpa [hlt] using hmem⟩
  · rintro ⟨bucket, hmem⟩
    cases hchain : t.chains[bucket]? with
    | none => simp [hchain] at hmem
    | some chain =>
      rw [hchain, Option.getD_some] at hmem
      exact ⟨chain, Array.mem_toList_iff.mpr (Array.mem_of_getElem? hchain), hmem⟩

theorem chain_empty (size bucket : Nat) : (empty size).chain bucket = [] := by
  unfold chain empty
  simp only [Array.getD_eq_getD_getElem?, Array.getElem?_replicate]
  split <;> rfl

end Table

namespace Store

theorem get?_modify (s : Store) (h k : Handle) (f : Record → Record) :
    (s.modify h f).get? k = if k = h then (s.get? k).map f else s.get? k := by
  unfold modify get?
  simp only [Array.getElem?_modify, eq_comm]

theorem get?_insert (s : Store) (r : Record) (k : Handle) :
    (s.insert r).2.get? k = if k = s.records.size then some r else s.get? k := by
  unfold insert get?
  simp only [Array.getElem?_push]

theorem table_insert (s : Store) (r : Record) (kind : Kind) :
    (s.insert r).2.table kind =
      if kind = r.kind then (s.table kind).link r.hash s.records.size else s.table kind := by
  unfold insert table
  simp only [PerKind.modify_eq_set]
  by_cases hk : kind = r.kind
  · subst hk
    simp
  · simp [hk, PerKind.get_set_of_ne _ _ hk]

theorem get?_eq_none {s : Store} {k : Handle} (hk : s.records.size ≤ k) : s.get? k = none :=
  Array.getElem?_eq_none hk

theorem get?_insert_of_some {s : Store} {k : Handle} {old : Record} (hold : s.get? k = some old)
    (r : Record) : (s.insert r).2.get? k = some old := by
  rw [get?_insert, if_neg, hold]
  rintro rfl
  rw [get?_eq_none (Nat.le_refl _)] at hold
  cases hold

theorem eq_or_of_get?_insert {s : Store} {r old : Record} {k : Handle}
    (hk : (s.insert r).2.get? k = some old) :
    (k = s.records.size ∧ old = r) ∨ (k ≠ s.records.size ∧ s.get? k = some old) := by
  rw [get?_insert] at hk
  split at hk
  · exact .inl ⟨‹k = s.records.size›, (Option.some.inj hk).symm⟩
  · exact .inr ⟨‹¬ k = s.records.size›, hk⟩

theorem size_table_insert (s : Store) (r : Record) (kind : Kind) :
    ((s.insert r).2.table kind).size = (s.table kind).size := by
  rw [table_insert]
  split
  · exact Table.size_link _ _ _
  · rfl

theorem bucketOf_insert (s : Store) (r : Record) (kind : Kind) (hash : UInt64) :
    ((s.insert r).2.table kind).bucketOf hash = (s.table kind).bucketOf hash := by
  rw [Table.bucketOf, size_table_insert, Table.bucketOf]

def modifyAll (s : Store) (hs : List Handle) (f : Record → Record) : Store :=
  hs.foldl (fun s h => s.modify h f) s

@[simp] theorem table_modifyAll (s : Store) (hs : List Handle) (f : Record → Record)
    (kind : Kind) : (s.modifyAll hs f).table kind = s.table kind := by
  induction hs generalizing s with
  | nil => rfl
  | cons h rest ih => exact ih (s.modify h f)

theorem get?_modifyAll {hs : List Handle} (hnodup : hs.Nodup) (s : Store) (f : Record → Record)
    (k : Handle) :
    (s.modifyAll hs f).get? k = if k ∈ hs then (s.get? k).map f else s.get? k := by
  induction hs generalizing s with
  | nil => rfl
  | cons h rest ih =>
    obtain ⟨hnot, hrest⟩ := List.nodup_cons.mp hnodup
    rw [modifyAll, List.foldl_cons, ← modifyAll, ih hrest, get?_modify]
    by_cases hk : k = h
    · subst hk
      simp [hnot]
    · simp [hk]

structure WellFormed (s : Store) : Prop where
  size_pos : ∀ kind, 0 < (s.table kind).size
  hashed : ∀ h r, s.get? h = some r → r.hash = pathHash r.path
  linked : ∀ kind bucket, ∀ h ∈ (s.table kind).chain bucket,
    ∃ r, s.get? h = some r ∧ r.kind = kind ∧ (s.table kind).bucketOf r.hash = bucket
  nodup : ∀ kind bucket, ((s.table kind).chain bucket).Nodup
  mem_chain : ∀ h r, s.get? h = some r → r.valid = true →
    h ∈ (s.table r.kind).chain ((s.table r.kind).bucketOf r.hash)
  unique : ∀ h h' r r', s.get? h = some r → s.get? h' = some r' → r.valid = true →
    r'.valid = true → r.kind = r'.kind → r.path = r'.path → h = h'

def Holds (s : Store) (kind : Kind) (path : String) (h : Handle) : Prop :=
  ∃ r, s.get? h = some r ∧ r.valid = true ∧ r.kind = kind ∧ r.path = path

theorem holds_insert {s : Store} {r : Record} {kind : Kind} {path : String} {h : Handle} :
    (s.insert r).2.Holds kind path h ↔
      (h = s.records.size ∧ r.valid = true ∧ r.kind = kind ∧ r.path = path) ∨
        s.Holds kind path h := by
  unfold Holds
  rw [get?_insert]
  by_cases hnew : h = s.records.size
  · subst hnew
    simp [get?_eq_none]
  · simp [hnew]

namespace WellFormed

variable {s : Store}

theorem ne_size_of_mem_chain (hs : s.WellFormed) {kind : Kind} {bucket : Nat} {h : Handle}
    (hmem : h ∈ (s.table kind).chain bucket) : h ≠ s.records.size := by
  rintro rfl
  obtain ⟨r, hr, -⟩ := hs.linked kind bucket _ hmem
  rw [get?_eq_none (Nat.le_refl _)] at hr
  cases hr

theorem chain_insert (hs : s.WellFormed) (r : Record) (kind : Kind) (bucket : Nat) :
    ((s.insert r).2.table kind).chain bucket =
      if kind = r.kind ∧ bucket = (s.table kind).bucketOf r.hash
      then s.records.size :: (s.table kind).chain bucket else (s.table kind).chain bucket := by
  rw [table_insert]
  by_cases hk : kind = r.kind
  · rw [if_pos hk, Table.chain_link (hs.size_pos kind)]
    simp [hk]
  · simp [hk]

theorem mem_chain_insert (hs : s.WellFormed) {r : Record} {kind : Kind} {bucket : Nat}
    {h : Handle} : h ∈ ((s.insert r).2.table kind).chain bucket ↔
      (h = s.records.size ∧ kind = r.kind ∧ bucket = (s.table kind).bucketOf r.hash) ∨
        h ∈ (s.table kind).chain bucket := by
  rw [hs.chain_insert]
  split
  · rename_i hown
    simp [hown]
  · rename_i hother
    simp [hother]

theorem locate_eq_some_iff (hs : s.WellFormed) {kind : Kind} {path : String} {h : Handle} :
    s.locate kind path = some h ↔ s.Holds kind path h := by
  constructor
  · intro hlocate
    have hmem := List.mem_of_find?_eq_some hlocate
    have hanswers := List.find?_some hlocate
    obtain ⟨r, hr, hkind, -⟩ := hs.linked _ _ h hmem
    simp only [hr, Option.any_some, Record.answersTo, Bool.and_eq_true, beq_iff_eq] at hanswers
    exact ⟨r, hr, hanswers.1.2, hkind, hanswers.2⟩
  · rintro ⟨r, hr, hvalid, rfl, rfl⟩
    have hmem := hs.mem_chain h r hr hvalid
    rw [hs.hashed h r hr] at hmem
    -- Some record of the chain answers, and there is only one that does.
    cases hlocate : s.locate r.kind r.path with
    | none =>
      have hrefused := List.find?_eq_none.mp hlocate h hmem
      simp [hr, Record.answersTo, hs.hashed h r hr, hvalid] at hrefused
    | some h' =>
      have hmem' := List.mem_of_find?_eq_some hlocate
      have hanswers := List.find?_some hlocate
      obtain ⟨r', hr', hkind, -⟩ := hs.linked _ _ h' hmem'
      simp only [hr', Option.any_some, Record.answersTo, Bool.and_eq_true,
        beq_iff_eq] at hanswers
      rw [hs.unique h' h r' r hr' hr hanswers.1.2 hvalid hkind hanswers.2]

theorem locate_eq_none_iff (hs : s.WellFormed) {kind : Kind} {path : String} :
    s.locate kind path = none ↔ ∀ h, ¬ s.Holds kind path h := by
  rw [Option.eq_none_iff_forall_ne_some]
  simp only [ne_eq, hs.locate_eq_some_iff]

theorem handles_nodup (hs : s.WellFormed) (kind : Kind) : (s.table kind).handles.Nodup := by
  unfold Table.handles
  rw [List.nodup_flatten]
  constructor
  · intro chain hchain
    obtain ⟨bucket, hlt, rfl⟩ := List.mem_iff_getElem.mp hchain
    have hnodup := hs.nodup kind bucket
    rw [Array.length_toList] at hlt
    simpa [Table.chain, hlt] using hnodup
  · rw [List.pairwise_iff_getElem]
    intro i j hi hj hij
    rw [Array.length_toList] at hi hj
    rw [List.disjoint_left]
    intro h hmemi hmemj
    obtain ⟨r, hr, -, hbucket⟩ := hs.linked kind i h (by simpa [Table.chain, hi] using hmemi)
    obtain ⟨r', hr', -, hbucket'⟩ := hs.linked kind j h (by simpa [Table.chain, hj] using hmemj)
    rw [hr] at hr'
    cases hr'
    omega

theorem mem_handles_of_valid (hs : s.WellFormed) {h : Handle} {r : Record}
    (hr : s.get? h = some r) (hvalid : r.valid = true) : h ∈ (s.table r.kind).handles :=
  Table.mem_handles.mpr ⟨_, hs.mem_chain h r hr hvalid⟩

theorem kind_of_mem_handles (hs : s.WellFormed) {kind : Kind} {h : Handle}
    (hmem : h ∈ (s.table kind).handles) : ∃ r, s.get? h = some r ∧ r.kind = kind := by
  obtain ⟨bucket, hmem⟩ := Table.mem_handles.mp hmem
  obtain ⟨r, hr, hkind, -⟩ := hs.linked kind bucket h hmem
  exact ⟨r, hr, hkind⟩

end WellFormed

theorem wellFormed_empty (size : Kind → Nat) (hsize : ∀ kind, 0 < size kind) :
    (empty size).WellFormed where
  size_pos kind := by simpa [empty, table, Table.empty, Table.size] using hsize kind
  hashed h r hr := by simp [empty, get?] at hr
  linked kind bucket h hmem := by simp [empty, table, Table.chain_empty] at hmem
  nodup kind bucket := by simp [empty, table, Table.chain_empty]
  mem_chain h r hr := by simp [empty, get?] at hr
  unique h h' r r' hr := by simp [empty, get?] at hr

end Store

end Rollup
