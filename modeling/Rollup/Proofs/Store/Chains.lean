import Rollup.Proofs.Store.Evolution
import Rollup.Store.Traffic

/-! The chains of one table, which are replaced one at a time. -/
namespace Rollup

namespace Table

@[simp] theorem size_setChain (t : Table) (bucket : Nat) (chain : List Handle) :
    (t.setChain bucket chain).size = t.size := by
  simp [setChain, size]

theorem chain_setChain (t : Table) (bucket other : Nat) (chain : List Handle) :
    (t.setChain bucket chain).chain other =
      if other = bucket ∧ bucket < t.size then chain else t.chain other := by
  unfold Table.chain setChain size
  simp only [Array.getD_eq_getD_getElem?, Array.getElem?_setIfInBounds]
  by_cases hb : other = bucket
  · subst hb
    by_cases hlt : other < t.chains.size <;> simp [hlt]
  · simp [hb, Ne.symm hb]

theorem chain_eq_nil {t : Table} {bucket : Nat} (h : t.size ≤ bucket) : t.chain bucket = [] := by
  unfold size at h
  simp [chain, Array.getD_eq_getD_getElem?, h]

end Table

namespace Store

theorem table_setChain (s : Store) (kind : Kind) (bucket : Nat) (chain : List Handle) :
    (s.setChain kind bucket chain).table kind = (s.table kind).setChain bucket chain := by
  simp [setChain, table, PerKind.modify_eq_set]

theorem get?_push (s : Store) (r : Record) (k : Handle) :
    (s.push r).get? k = if k = s.records.size then some r else s.get? k := by
  unfold push get?
  simp only [Array.getElem?_push]

theorem evolves_push (s : Store) (r : Record) : s.Evolves (s.push r) := by
  intro k old hold
  refine ⟨old, ?_, .refl old⟩
  rw [get?_push, if_neg, hold]
  rintro rfl
  rw [get?_eq_none (Nat.le_refl _)] at hold
  cases hold

theorem evolves_invalidate (s : Store) (h : Handle) : s.Evolves (s.modify h Record.invalidate) := by
  intro k r hr
  rw [get?_modify, hr]
  split
  · exact ⟨r.invalidate, rfl, r.follows_invalidate⟩
  · exact ⟨r, rfl, .refl r⟩

theorem Evolves.answers {s s' : Store} (hs : s.Evolves s') {path : String} {h : Handle} {r : Record}
    (hr : s.get? h = some r) (hanswers : s.answers path h = false) :
    s'.answers path h = false := by
  obtain ⟨r', hr', hfollows⟩ := hs h r hr
  simp only [Store.answers, hr, hr', Option.any_some, Record.answersTo] at hanswers ⊢
  rw [hfollows.hash, hfollows.path]
  cases hvalid : r'.valid with
  | false => simp
  | true =>
    rw [hfollows.valid hvalid] at hanswers
    exact hanswers

def Invalid (s : Store) (h : Handle) : Prop := ∃ r, s.get? h = some r ∧ r.valid = false

theorem Evolves.invalid {s s' : Store} (hs : s.Evolves s') {h : Handle} (hinvalid : s.Invalid h) :
    s'.Invalid h := by
  obtain ⟨r, hr, hvalid⟩ := hinvalid
  obtain ⟨r', hr', hfollows⟩ := hs h r hr
  exact ⟨r', hr', Bool.eq_false_iff.mpr fun hvalid' => by simp [hfollows.valid hvalid'] at hvalid⟩

structure Chained (s : Store) (kind : Kind) (n : Nat) : Prop where
  pos : 0 < n
  size : (s.table kind).size = n
  placed : ∀ bucket, ∀ h ∈ (s.table kind).chain bucket,
    ∃ r, s.get? h = some r ∧ r.hash = pathHash r.path ∧ r.hash.toNat % n = bucket
  nodup : ∀ bucket, ((s.table kind).chain bucket).Nodup
  single : ∀ bucket, ∀ h ∈ (s.table kind).chain bucket, ∀ h' ∈ (s.table kind).chain bucket,
    ∀ r r', s.get? h = some r → s.get? h' = some r' → r.valid = true → r'.valid = true →
      r.path = r'.path → h = h'

theorem bucketFor_eq {s : Store} {kind : Kind} {n : Nat} (hsize : (s.table kind).size = n)
    (path : String) : s.bucketFor kind path = (pathHash path).toNat % n := by
  rw [bucketFor, Table.bucketOf, hsize]

theorem Chained.evolves {s s' : Store} {kind : Kind} {n : Nat} (h : s.Chained kind n)
    (hevolves : s.Evolves s') (htable : s'.table kind = s.table kind) : s'.Chained kind n where
  pos := h.pos
  size := htable ▸ h.size
  placed bucket k hk := by
    rw [htable] at hk
    obtain ⟨r, hr, hhash, hbucket⟩ := h.placed bucket k hk
    obtain ⟨r', hr', hfollows⟩ := hevolves k r hr
    rw [← hfollows.hash, ← hfollows.path] at hhash
    exact ⟨r', hr', hhash, hfollows.hash ▸ hbucket⟩
  nodup bucket := htable ▸ h.nodup bucket
  single bucket k hk k' hk' r r' hr hr' hvalid hvalid' hpath := by
    rw [htable] at hk hk'
    obtain ⟨old, hold, -⟩ := h.placed bucket k hk
    obtain ⟨old', hold', -⟩ := h.placed bucket k' hk'
    obtain ⟨_, hsame, hfollows⟩ := hevolves k old hold
    obtain ⟨_, hsame', hfollows'⟩ := hevolves k' old' hold'
    cases hr.symm.trans hsame
    cases hr'.symm.trans hsame'
    refine h.single bucket k hk k' hk' old old' hold hold' (hfollows.valid hvalid)
      (hfollows'.valid hvalid') ?_
    rw [← hfollows.path, ← hfollows'.path, hpath]

def Linked (s : Store) (kind : Kind) (h : Handle) : Prop :=
  ∃ bucket, h ∈ (s.table kind).chain bucket

def Vacant (s : Store) (kind : Kind) (path : String) : Prop :=
  ∀ h ∈ (s.table kind).chain (s.bucketFor kind path), s.answers path h = false

def Named (s : Store) (path : String) (h : Handle) : Prop :=
  ∃ r, s.get? h = some r ∧ r.path = path ∧ r.hash = pathHash path

theorem Evolves.named {s s' : Store} (hs : s.Evolves s') {path : String} {h : Handle}
    (hnamed : s.Named path h) : s'.Named path h := by
  obtain ⟨r, hr, hpath, hhash⟩ := hnamed
  obtain ⟨r', hr', hfollows⟩ := hs h r hr
  exact ⟨r', hr', hfollows.path.trans hpath, hfollows.hash.trans hhash⟩

section Chain

variable {s : Store} {kind : Kind} {n : Nat}

theorem chain_setChain_of (h : s.Chained kind n) {bucket : Nat} {chain : List Handle}
    (hchain : bucket < n ∨ chain = []) (other : Nat) :
    ((s.setChain kind bucket chain).table kind).chain other =
      if other = bucket then chain else (s.table kind).chain other := by
  rw [table_setChain, Table.chain_setChain, h.size]
  obtain hlt | rfl := hchain
  · simp [hlt]
  · by_cases hlt : bucket < n
    · simp [hlt]
    · rw [if_neg (fun hb => hlt hb.2)]
      split
      · rename_i heq
        exact Table.chain_eq_nil (by rw [h.size, heq]; omega)
      · rfl

theorem bucketFor_lt (h : s.Chained kind n) (path : String) : s.bucketFor kind path < n :=
  bucketFor_eq h.size path ▸ Nat.mod_lt _ h.pos

theorem chain_link (h : s.Chained kind n) (path : String) (new : Handle) (other : Nat) :
    ((s.setChain kind (s.bucketFor kind path)
      (new :: (s.table kind).chain (s.bucketFor kind path))).table kind).chain other =
      if other = s.bucketFor kind path then new :: (s.table kind).chain other
      else (s.table kind).chain other := by
  rw [chain_setChain_of h (.inl (bucketFor_lt h path))]
  split
  · rename_i heq
    rw [heq]
  · rfl

theorem Chained.link (h : s.Chained kind n) {path : String} {new : Handle}
    (hvacant : s.Vacant kind path) (hnamed : s.Named path new) (hnew : ¬ s.Linked kind new) :
    (s.setChain kind (s.bucketFor kind path)
      (new :: (s.table kind).chain (s.bucketFor kind path))).Chained kind n := by
  obtain ⟨r, hr, hpath, hhash⟩ := hnamed
  have hnone : ∀ k ∈ (s.table kind).chain (s.bucketFor kind path), ∀ other, s.get? k = some other →
      other.valid = true → other.path ≠ path := by
    intro k hk other hother hvalid heq
    obtain ⟨same, hsame, hhash', -⟩ := h.placed _ k hk
    cases hother.symm.trans hsame
    have := hvacant k hk
    simp [answers, hother, Record.answersTo, hhash', hvalid, heq] at this
  constructor
  case pos => exact h.pos
  case size => rw [table_setChain, Table.size_setChain, h.size]
  case placed =>
    intro bucket k hk
    rw [chain_link h] at hk
    split at hk
    · rename_i heq
      obtain rfl | hk := List.mem_cons.mp hk
      · refine ⟨r, hr, hpath ▸ hhash, ?_⟩
        rw [heq, hhash, bucketFor_eq h.size]
      · exact h.placed bucket k hk
    · exact h.placed bucket k hk
  case nodup =>
    intro bucket
    rw [chain_link h]
    split
    · exact List.nodup_cons.mpr ⟨fun hk => hnew ⟨bucket, hk⟩, h.nodup bucket⟩
    · exact h.nodup bucket
  case single =>
    intro bucket k hk k' hk' x x' hx hx' hvalid hvalid' hsame
    rw [chain_link h] at hk hk'
    split at hk
    · rename_i heq
      rw [if_pos heq] at hk'
      subst heq
      rw [List.mem_cons] at hk hk'
      obtain rfl | hold := hk <;> obtain rfl | hold' := hk'
      · rfl
      · cases hr.symm.trans hx
        exact absurd (hsame.symm.trans hpath) (hnone k' hold' x' hx' hvalid')
      · cases hr.symm.trans hx'
        exact absurd (hsame.trans hpath) (hnone k hold x hx hvalid)
      · exact h.single _ k hold k' hold' x x' hx hx' hvalid hvalid' hsame
    · rename_i hne
      rw [if_neg hne] at hk'
      exact h.single bucket k hk k' hk' x x' hx hx' hvalid hvalid' hsame

theorem linked_link (h : s.Chained kind n) (path : String) (new k : Handle) :
    (s.setChain kind (s.bucketFor kind path)
      (new :: (s.table kind).chain (s.bucketFor kind path))).Linked kind k ↔
      k = new ∨ s.Linked kind k := by
  simp only [Linked, chain_link h]
  constructor
  · rintro ⟨bucket, hk⟩
    split at hk
    · obtain rfl | hk := List.mem_cons.mp hk
      · exact .inl rfl
      · exact .inr ⟨bucket, hk⟩
    · exact .inr ⟨bucket, hk⟩
  · rintro (rfl | ⟨bucket, hk⟩)
    · exact ⟨_, by rw [if_pos rfl]; exact List.mem_cons_self⟩
    · refine ⟨bucket, ?_⟩
      split
      · exact List.mem_cons_of_mem _ hk
      · exact hk

theorem lt_or_eq_nil_of_sublist (h : s.Chained kind n) {bucket : Nat} {kept : List Handle}
    (hkept : kept.Sublist ((s.table kind).chain bucket)) : bucket < n ∨ kept = [] := by
  by_cases hlt : bucket < n
  · exact .inl hlt
  · rw [Table.chain_eq_nil (by rw [h.size]; omega)] at hkept
    exact .inr (List.sublist_nil.mp hkept)

theorem Chained.sweep (h : s.Chained kind n) {bucket : Nat} {kept : List Handle}
    (hkept : kept.Sublist ((s.table kind).chain bucket)) :
    (s.setChain kind bucket kept).Chained kind n := by
  have hsub : ∀ other, (((s.setChain kind bucket kept).table kind).chain other).Sublist
      ((s.table kind).chain other) := by
    intro other
    rw [chain_setChain_of h (lt_or_eq_nil_of_sublist h hkept)]
    split
    · rename_i heq
      exact heq ▸ hkept
    · exact .refl _
  constructor
  case pos => exact h.pos
  case size => rw [table_setChain, Table.size_setChain, h.size]
  case placed => exact fun other k hk => h.placed other k ((hsub other).subset hk)
  case nodup => exact fun other => (h.nodup other).sublist (hsub other)
  case single =>
    exact fun other k hk k' hk' =>
      h.single other k ((hsub other).subset hk) k' ((hsub other).subset hk')

theorem linked_sweep (h : s.Chained kind n) {bucket : Nat} {kept dropped : List Handle}
    (hkept : kept.Sublist ((s.table kind).chain bucket))
    (hperm : ((s.table kind).chain bucket).Perm (kept ++ dropped)) (k : Handle) :
    (s.setChain kind bucket kept).Linked kind k ↔ s.Linked kind k ∧ k ∉ dropped := by
  have hparts := (List.nodup_append'.mp ((hperm.nodup_iff).mp (h.nodup bucket))).2.2
  simp only [Linked, chain_setChain_of h (lt_or_eq_nil_of_sublist h hkept)]
  constructor
  · rintro ⟨other, hk⟩
    split at hk
    · exact ⟨⟨bucket, hkept.subset hk⟩, fun hdropped => hparts hk hdropped⟩
    · rename_i hne
      refine ⟨⟨other, hk⟩, fun hdropped => hne ?_⟩
      obtain ⟨r, hr, -, hbucket⟩ := h.placed other k hk
      obtain ⟨r', hr', -, hbucket'⟩ := h.placed bucket k
        (hperm.mem_iff.mpr (List.mem_append_right kept hdropped))
      cases hr.symm.trans hr'
      rw [← hbucket, hbucket']
  · rintro ⟨⟨other, hk⟩, hdropped⟩
    refine ⟨other, ?_⟩
    split
    · rename_i heq
      subst heq
      exact (List.mem_append.mp (hperm.mem_iff.mp hk)).resolve_right hdropped
    · exact hk

end Chain

end Store

end Rollup
