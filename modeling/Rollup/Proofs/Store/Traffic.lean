import Mathlib.Data.List.Induction
import Rollup.Proofs.Store.Chains
import Rollup.Proofs.Store.Custody

/-! Calls that share a table. However their steps interleave, a path never has two valid records in
a chain, a valid record stays linked, one call tells of having made a record, and one collection
returns it. -/
namespace Rollup

namespace Stage

/-- The record that the call has made, and tells of when it is done. -/
def made? : Stage → Option Handle
  | join _ new => some new
  | link _ new _ => some new
  | unlock _ h created => if created then some h else none
  | obtained h created => if created then some h else none
  | _ => none

/-- The record that the call has made, and not linked yet. -/
def pending? : Stage → Option Handle
  | join _ new => some new
  | link _ new _ => some new
  | _ => none

/-- The records that the call has unlinked, and returns when it is done. -/
def unlinked : Stage → List Handle
  | scan round => round.removed
  | inspect round _ _ => round.removed
  | judge round _ _ _ => round.removed
  | expire round _ _ => round.removed
  | request round => round.removed
  | sweep round => round.removed
  | sift round _ _ _ => round.removed
  | leave round => round.removed
  | collected hs => hs
  | _ => []

def holds? (size : Nat) : Stage → Option Nat
  | load (.obtain draft true) => some ((pathHash draft.path).toNat % size)
  | walk (.obtain draft true) _ => some ((pathHash draft.path).toNat % size)
  | make draft => some ((pathHash draft.path).toNat % size)
  | join path _ => some ((pathHash path).toNat % size)
  | link path _ _ => some ((pathHash path).toNat % size)
  | unlock path _ _ => some ((pathHash path).toNat % size)
  | sweep round => some round.bucket
  | sift round _ _ _ => some round.bucket
  | leave round => some round.bucket
  | _ => none

/-- What a call knows of the chain whose lock it holds. -/
def Knows (kind : Kind) (s : Store) : Stage → Prop
  | walk (.obtain draft true) rest =>
    ∃ passed, (s.table kind).chain (s.bucketFor kind draft.path) = passed ++ rest ∧
      ∀ h ∈ passed, s.answers draft.path h = false
  | make draft => s.Vacant kind draft.path
  | join path new => s.Vacant kind path ∧ s.Named path new
  | link path new next => s.Vacant kind path ∧ s.Named path new ∧
    next = (s.table kind).chain (s.bucketFor kind path)
  | sift round kept dropped rest =>
    ∃ passed, (s.table kind).chain round.bucket = passed ++ rest ∧ kept.Sublist passed ∧
      passed.Perm (kept ++ dropped) ∧ ∀ h ∈ dropped, s.Invalid h
  | _ => True

/-- What a step that links and unlinks nothing leaves to the call. -/
structure Alike (stage next : Stage) : Prop where
  made : next.made? = stage.made?
  pending : next.pending? = stage.pending?
  unlinked : next.unlinked = stage.unlinked

/-- What others do to records and to other chains changes nothing of it. -/
theorem Knows.stable {kind : Kind} {n : Nat} {s s' : Store} {stage : Stage}
    (h : stage.Knows kind s) (hs : s.Chained kind n) (hevolves : s.Evolves s')
    (hsize : (s'.table kind).size = n) (hchain : ∀ bucket, stage.holds? n = some bucket →
      (s'.table kind).chain bucket = (s.table kind).chain bucket) : stage.Knows kind s' := by
  have hvacant : ∀ path, (s'.table kind).chain ((pathHash path).toNat % n) =
      (s.table kind).chain ((pathHash path).toNat % n) → s.Vacant kind path →
      s'.Vacant kind path := by
    intro path hsame hvacant k hk
    rw [Store.bucketFor_eq hsize, hsame, ← Store.bucketFor_eq hs.size] at hk
    obtain ⟨r, hr, -⟩ := hs.placed _ k hk
    exact hevolves.answers hr (hvacant k hk)
  cases stage
  case walk aim rest =>
    match aim, h with
    | .obtain draft true, ⟨passed, hpassed, hrefused⟩ =>
      refine ⟨passed, ?_, fun k hk => ?_⟩
      · rw [Store.bucketFor_eq hsize, hchain _ rfl, ← Store.bucketFor_eq hs.size, hpassed]
      · obtain ⟨r, hr, -⟩ := hs.placed _ k (hpassed ▸ List.mem_append_left rest hk)
        exact hevolves.answers hr (hrefused k hk)
    | .obtain draft false, _ => trivial
    | .remove path, _ => trivial
  case make draft => exact hvacant _ (hchain _ rfl) h
  case join path new => exact ⟨hvacant _ (hchain _ rfl) h.1, hevolves.named h.2⟩
  case link path new next =>
    obtain ⟨habsent, hnamed, hnext⟩ := h
    refine ⟨hvacant _ (hchain _ rfl) habsent, hevolves.named hnamed, ?_⟩
    rw [hnext, Store.bucketFor_eq hsize, hchain _ rfl, ← Store.bucketFor_eq hs.size]
  case sift round kept dropped rest =>
    obtain ⟨passed, hpassed, hkept, hperm, hdropped⟩ := h
    exact ⟨passed, (hchain _ rfl).trans hpassed, hkept, hperm,
      fun k hk => hevolves.invalid (hdropped k hk)⟩
  all_goals trivial

end Stage

namespace Traffic

variable (kind : Kind) (n : Nat) (t : Traffic)

def read {α : Type} (t : Traffic) (absent : α) (f : Stage → α) (id : Nat) : α :=
  (t.calls id).elim absent f

abbrev made : Nat → Option Handle := t.read none Stage.made?

abbrev pending : Nat → Option Handle := t.read none Stage.pending?

abbrev unlinked : Nat → List Handle := t.read [] Stage.unlinked

abbrev holds : Nat → Option Nat := t.read none (·.holds? n)

structure Sound : Prop where
  chained : t.shared.store.Chained kind n
  knows : ∀ id stage, t.calls id = some stage → stage.Knows kind t.shared.store
  locks : Locks t.shared.locked (t.holds n)
  ledger : Ledger t.shared.store.records.size (t.shared.store.Linked kind) t.made t.pending
    t.unlinked

/-- The later traffic. What a call has made or unlinked it keeps, and what is linked stays so until
a call has unlinked it, which it does only when it is invalid. -/
structure Leads (t t' : Traffic) : Prop where
  evolves : t.shared.store.Evolves t'.shared.store
  made : ∀ id h, t.made id = some h → t'.made id = some h
  unlinked : ∀ id, ∀ h ∈ t.unlinked id, h ∈ t'.unlinked id
  linked : ∀ h, t.shared.store.Linked kind h → t'.shared.store.Linked kind h ∨
    t'.shared.store.Invalid h ∧ ∃ id, h ∈ t'.unlinked id

variable {kind n t}

theorem Leads.refl : Leads kind t t where
  evolves := .refl _
  made _ _ h := h
  unlinked _ _ h := h
  linked _ h := .inl h

theorem Leads.trans {t' t'' : Traffic} (h : Leads kind t t') (h' : Leads kind t' t'') :
    Leads kind t t'' where
  evolves := h.evolves.trans h'.evolves
  made id k hk := h'.made id k (h.made id k hk)
  unlinked id k hk := h'.unlinked id k (h.unlinked id k hk)
  linked k hk := by
    obtain hlinked | ⟨hinvalid, id, hmem⟩ := h.linked k hk
    · exact h'.linked k hlinked
    · exact .inr ⟨h'.evolves.invalid hinvalid, id, h'.unlinked id k hmem⟩

section Call

variable {id : Nat} {stage : Stage} {moved : Shared × Stage}

theorem read_eq {α : Type} {absent : α} {f : Stage → α} (hcall : t.calls id = some stage) :
    t.read absent f id = f stage := by
  rw [read, hcall, Option.elim_some]

theorem read_of_none {α : Type} {absent : α} {f : Stage → α} (hcall : t.calls id = none) :
    t.read absent f id = absent := by
  rw [read, hcall, Option.elim_none]

theorem read_put {α : Type} (absent : α) (f : Stage → α) :
    (t.put id moved).read absent f = fun k => if k = id then f moved.2 else t.read absent f k := by
  funext k
  unfold read put
  dsimp only
  split <;> rfl

theorem read_put_of_eq {α : Type} {absent : α} {f : Stage → α}
    (h : f moved.2 = t.read absent f id) : (t.put id moved).read absent f = t.read absent f := by
  funext k
  rw [read_put, h]
  exact ite_eq_right_iff.mpr fun hk => hk ▸ rfl

theorem read_put_of_call {α : Type} {absent : α} {f : Stage → α} (hcall : t.calls id = some stage)
    (h : f moved.2 = f stage) : (t.put id moved).read absent f = t.read absent f :=
  read_put_of_eq (h.trans (read_eq hcall).symm)

/-- A step of one call leaves what the others know, if it changes no chain but its own. -/
theorem Sound.put (h : Sound kind n t) (hevolves : t.shared.store.Evolves moved.1.store)
    (hchained : moved.1.store.Chained kind n)
    (hchain : ∀ bucket, t.holds n id ≠ some bucket →
      (moved.1.store.table kind).chain bucket = (t.shared.store.table kind).chain bucket)
    (hknows : moved.2.Knows kind moved.1.store)
    (hlocks : Locks moved.1.locked ((t.put id moved).holds n))
    (hledger : Ledger moved.1.store.records.size (moved.1.store.Linked kind) (t.put id moved).made
      (t.put id moved).pending (t.put id moved).unlinked) : Sound kind n (t.put id moved) where
  chained := hchained
  knows k other hk := by
    simp only [Traffic.put] at hk
    split at hk
    · cases hk
      exact hknows
    · rename_i hne
      refine (h.knows k other hk).stable h.chained hevolves hchained.size fun bucket hholds => ?_
      refine hchain bucket fun hmine => hne ?_
      exact h.locks.exclusive k id bucket bucket ((read_eq hk).trans hholds)
        hmine rfl
  locks := hlocks
  ledger := hledger

structure Quiet (kind : Kind) (t : Traffic) (id : Nat) (moved : Shared × Stage) : Prop where
  evolves : t.shared.store.Evolves moved.1.store
  count : moved.1.store.records.size = t.shared.store.records.size
  table : moved.1.store.table kind = t.shared.store.table kind
  made : moved.2.made? = t.made id
  pending : moved.2.pending? = t.pending id
  unlinked : moved.2.unlinked = t.unlinked id

theorem Sound.quiet (h : Sound kind n t) (hquiet : Quiet kind t id moved)
    (hknows : moved.2.Knows kind moved.1.store)
    (hlocks : Locks moved.1.locked ((t.put id moved).holds n)) :
    Sound kind n (t.put id moved) ∧ Leads kind t (t.put id moved) := by
  have hmade : (t.put id moved).made = t.made := read_put_of_eq hquiet.made
  have hpending : (t.put id moved).pending = t.pending := read_put_of_eq hquiet.pending
  have hunlinked : (t.put id moved).unlinked = t.unlinked := read_put_of_eq hquiet.unlinked
  have hlinked : moved.1.store.Linked kind = t.shared.store.Linked kind := by
    funext k
    rw [Store.Linked, hquiet.table, Store.Linked]
  constructor
  · refine h.put hquiet.evolves (h.chained.evolves hquiet.evolves hquiet.table)
      (fun bucket _ => by rw [hquiet.table]) hknows hlocks ?_
    rw [hquiet.count, hlinked, hmade, hpending, hunlinked]
    exact h.ledger
  · constructor
    case evolves => exact hquiet.evolves
    case made => exact hmade ▸ fun _ _ hk => hk
    case unlinked => exact hunlinked ▸ fun _ _ hk => hk
    case linked => exact fun k hk => .inl (hlinked ▸ hk)

theorem Sound.locks_put (h : Sound kind n t) (hlocked : moved.1.locked = t.shared.locked)
    (hholds : (t.put id moved).holds n = t.holds n) :
    Locks moved.1.locked ((t.put id moved).holds n) := by
  rw [hlocked, hholds]
  exact h.locks

theorem Quiet.of_alike {next : Stage} (halike : stage.Alike next)
    (hcall : t.calls id = some stage) {shared : Shared}
    (hevolves : t.shared.store.Evolves shared.store)
    (hcount : shared.store.records.size = t.shared.store.records.size)
    (htable : shared.store.table kind = t.shared.store.table kind) :
    Quiet kind t id (shared, next) where
  evolves := hevolves
  count := hcount
  table := htable
  made := halike.made.trans (read_eq hcall).symm
  pending := halike.pending.trans (read_eq hcall).symm
  unlinked := halike.unlinked.trans (read_eq hcall).symm

theorem locks_take {locked : Nat → Bool} {bucket : Option Nat}
    (h : Locks locked fun k => if k = id then bucket else t.holds n k)
    (hholds : moved.2.holds? n = bucket) : Locks locked ((t.put id moved).holds n) := by
  have hput : (t.put id moved).holds n =
      fun k => if k = id then moved.2.holds? n else t.holds n k := read_put none _
  rw [hput, hholds]
  exact h

theorem Sound.silent (h : Sound kind n t) (hcall : t.calls id = some stage) {next : Stage}
    (halike : stage.Alike next) (hholds : next.holds? n = stage.holds? n)
    (hknows : next.Knows kind t.shared.store) :
    Sound kind n (t.put id (t.shared, next)) ∧ Leads kind t (t.put id (t.shared, next)) :=
  h.quiet (.of_alike halike hcall (.refl _) rfl rfl) hknows
    (h.locks_put rfl (read_put_of_call hcall hholds))

theorem Sound.invalidate (h : Sound kind n t) (hcall : t.calls id = some stage) {next : Stage}
    (k : Handle) (halike : stage.Alike next) (hholds : next.holds? n = stage.holds? n)
    (hknows : next.Knows kind (t.shared.invalidate k).store) :
    Sound kind n (t.put id (t.shared.invalidate k, next)) ∧
      Leads kind t (t.put id (t.shared.invalidate k, next)) :=
  h.quiet (.of_alike halike hcall (t.shared.store.evolves_invalidate k) Array.size_modify rfl)
    hknows (h.locks_put rfl (read_put_of_call hcall hholds))

theorem Sound.acquire (h : Sound kind n t) (hcall : t.calls id = some stage) {holding : Stage}
    {bucket : Nat} (halike : stage.Alike holding) (hholds : holding.holds? n = some bucket)
    (hknows : holding.Knows kind t.shared.store) :
    Sound kind n (t.put id (t.shared.acquire bucket stage holding)) ∧
      Leads kind t (t.put id (t.shared.acquire bucket stage holding)) := by
  unfold Shared.acquire
  split
  · exact h.silent hcall ⟨rfl, rfl, rfl⟩ rfl (h.knows id stage hcall)
  · rename_i hfree
    refine h.quiet (.of_alike halike hcall (.refl _) rfl rfl) hknows ?_
    exact locks_take (h.locks.acquire id (Bool.eq_false_iff.mpr hfree)) hholds

theorem Sound.release (h : Sound kind n t) (hcall : t.calls id = some stage) {next : Stage}
    {bucket : Nat} (hholds : stage.holds? n = some bucket) (halike : stage.Alike next)
    (hnext : next.holds? n = none) (hknows : next.Knows kind t.shared.store) :
    Sound kind n (t.put id (t.shared.setLock bucket false, next)) ∧
      Leads kind t (t.put id (t.shared.setLock bucket false, next)) := by
  refine h.quiet (.of_alike halike hcall (.refl _) rfl rfl) hknows ?_
  exact locks_take (h.locks.release ((read_eq hcall).trans hholds)) hnext

/-- A record is made under the lock, after a lookup that found none. -/
theorem Sound.make (h : Sound kind n t) {draft : Draft} (hcall : t.calls id = some (.make draft)) :
    Sound kind n (t.put id (t.shared.act kind (.make draft))) ∧
      Leads kind t (t.put id (t.shared.act kind (.make draft))) := by
  have hevolves := t.shared.store.evolves_push (draft.record kind t.shared.store.nextId)
  have hchained := h.chained.evolves hevolves rfl
  have hvacant : Stage.Knows kind _ (.make draft) := (h.knows id _ hcall).stable h.chained hevolves
    hchained.size fun _ _ => rfl
  have hmade : (t.put id (t.shared.act kind (.make draft))).made =
      fun k => if k = id then some t.shared.store.records.size else t.made k :=
    read_put none Stage.made?
  have hunlinked : (t.put id (t.shared.act kind (.make draft))).unlinked = t.unlinked :=
    read_put_of_call hcall rfl
  constructor
  · refine h.put hevolves hchained (fun _ _ => rfl) ⟨hvacant, ?_⟩
      (h.locks_put rfl (read_put_of_call hcall rfl)) ?_
    · refine ⟨draft.record kind t.shared.store.nextId, ?_, rfl, rfl⟩
      exact (Store.get?_push _ _ _).trans (if_pos rfl)
    · have hcount : (t.shared.act kind (.make draft)).1.store.records.size =
          t.shared.store.records.size + 1 := Array.size_push _
      have hpending : (t.put id (t.shared.act kind (.make draft))).pending =
          fun k => if k = id then some t.shared.store.records.size else t.pending k :=
        read_put none Stage.pending?
      rw [hmade, hpending, hunlinked, hcount]
      exact h.ledger.make (read_eq hcall)
  · constructor
    case evolves => exact hevolves
    case made =>
      intro k handle hk
      rw [hmade]
      dsimp only
      rw [if_neg, hk]
      rintro rfl
      cases hk.symm.trans (read_eq hcall)
    case unlinked => exact hunlinked ▸ fun _ _ hk => hk
    case linked => exact fun k hk => .inl hk

theorem Sound.link (h : Sound kind n t) {path : String} {new : Handle} {after : List Handle}
    (hcall : t.calls id = some (.link path new after)) :
    Sound kind n (t.put id (t.shared.act kind (.link path new after))) ∧
      Leads kind t (t.put id (t.shared.act kind (.link path new after))) := by
  have hpending : t.pending id = some new := read_eq hcall
  have hnew := (h.ledger.pending_only id new hpending).1
  have hmade : (t.put id (t.shared.act kind (.link path new after))).made = t.made :=
    read_put_of_call hcall rfl
  have hunlinked : (t.put id (t.shared.act kind (.link path new after))).unlinked = t.unlinked :=
    read_put_of_call hcall rfl
  have hlater : (t.put id (t.shared.act kind (.link path new after))).pending =
      fun k => if k = id then none else t.pending k := read_put none Stage.pending?
  obtain ⟨hvacant, hnamed, rfl⟩ := h.knows id _ hcall
  have hlinked : (t.shared.act kind (.link path new _)).1.store.Linked kind =
      fun k => k = new ∨ t.shared.store.Linked kind k :=
    funext fun k => propext (Store.linked_link h.chained path new k)
  constructor
  · refine h.put (.refl _) (h.chained.link hvacant hnamed hnew) ?_ trivial
      (h.locks_put rfl (read_put_of_call hcall rfl)) ?_
    · intro bucket hother
      refine (Store.chain_link h.chained path new bucket).trans (if_neg ?_)
      rintro rfl
      refine hother ((read_eq hcall).trans ?_)
      exact congrArg some (Store.bucketFor_eq h.chained.size path).symm
    · rw [hmade, hlater, hunlinked, hlinked]
      exact h.ledger.link hpending
  · constructor
    case evolves => exact .refl _
    case made => exact hmade ▸ fun _ _ hk => hk
    case unlinked => exact hunlinked ▸ fun _ _ hk => hk
    case linked => exact fun k hk => .inl (hlinked ▸ .inr hk)

theorem Sound.sweep (h : Sound kind n t) {round : Round} {kept dropped : List Handle}
    (hcall : t.calls id = some (.sift round kept dropped [])) :
    Sound kind n (t.put id (t.shared.act kind (.sift round kept dropped []))) ∧
      Leads kind t (t.put id (t.shared.act kind (.sift round kept dropped []))) := by
  obtain ⟨passed, hpassed, hkept, hperm, hdropped⟩ := h.knows id _ hcall
  rw [List.append_nil] at hpassed
  subst hpassed
  have hlinked : (t.shared.act kind (.sift round kept dropped [])).1.store.Linked kind =
      fun k => t.shared.store.Linked kind k ∧ k ∉ dropped :=
    funext fun k => propext (Store.linked_sweep h.chained hkept hperm k)
  have hmade : (t.put id (t.shared.act kind (.sift round kept dropped []))).made = t.made :=
    read_put_of_call hcall rfl
  have hpending : (t.put id (t.shared.act kind (.sift round kept dropped []))).pending =
    t.pending := read_put_of_call hcall rfl
  have hunlinked : (t.put id (t.shared.act kind (.sift round kept dropped []))).unlinked =
      fun k => if k = id then t.unlinked id ++ dropped else t.unlinked k := by
    have hround : t.unlinked id = round.removed := read_eq hcall
    rw [hround]
    exact read_put [] Stage.unlinked
  constructor
  · refine h.put (.refl _) (h.chained.sweep hkept) ?_ trivial
      (h.locks_put rfl (read_put_of_call hcall rfl)) ?_
    · intro bucket hother
      refine (Store.chain_setChain_of h.chained
        (Store.lt_or_eq_nil_of_sublist h.chained hkept) bucket).trans (if_neg ?_)
      rintro rfl
      exact hother (read_eq hcall)
    · have hnodup := (hperm.nodup_iff).mp (h.chained.nodup round.bucket)
      rw [hmade, hpending, hunlinked, hlinked]
      exact h.ledger.sweep (List.nodup_append'.mp hnodup).2.1 fun k hk =>
        ⟨round.bucket, hperm.mem_iff.mpr (List.mem_append_right kept hk)⟩
  · constructor
    case evolves => exact .refl _
    case made => exact hmade ▸ fun _ _ hk => hk
    case unlinked =>
      intro k handle hk
      rw [hunlinked]
      dsimp only
      split
      · rename_i heq
        exact List.mem_append_left dropped (heq ▸ hk)
      · exact hk
    case linked =>
      intro k hk
      by_cases hmem : k ∈ dropped
      · refine .inr ⟨hdropped k hmem, id, ?_⟩
        rw [hunlinked]
        simp [hmem]
      · exact .inl (hlinked ▸ ⟨hk, hmem⟩)

theorem Sound.walk (h : Sound kind n t) {aim : Aim} {rest : List Handle}
    (hcall : t.calls id = some (.walk aim rest)) :
    Sound kind n (t.put id (t.shared.act kind (.walk aim rest))) ∧
      Leads kind t (t.put id (t.shared.act kind (.walk aim rest))) := by
  have hknows := h.knows id _ hcall
  cases rest with
  | nil =>
    match aim, hknows with
    | .obtain draft true, ⟨passed, hpassed, hrefused⟩ =>
      rw [List.append_nil] at hpassed
      exact h.silent hcall ⟨rfl, rfl, rfl⟩ rfl fun k hk => hrefused k (hpassed ▸ hk)
    | .obtain draft false, _ => exact h.silent hcall ⟨rfl, rfl, rfl⟩ rfl trivial
    | .remove path, _ => exact h.silent hcall ⟨rfl, rfl, rfl⟩ rfl trivial
  | cons k rest =>
    simp only [Shared.act]
    split
    · match aim with
      | .obtain draft true => exact h.silent hcall ⟨rfl, rfl, rfl⟩ rfl trivial
      | .obtain draft false => exact h.silent hcall ⟨rfl, rfl, rfl⟩ rfl trivial
      | .remove path => exact h.silent hcall ⟨rfl, rfl, rfl⟩ rfl trivial
    · rename_i hrefuses
      match aim, hknows with
      | .obtain draft true, ⟨passed, hpassed, hrefused⟩ =>
        refine h.silent hcall ⟨rfl, rfl, rfl⟩ rfl ⟨passed ++ [k], by simp [hpassed], ?_⟩
        intro j hj
        obtain hj | hj := List.mem_append.mp hj
        · exact hrefused j hj
        · rw [List.mem_singleton.mp hj]
          exact Bool.eq_false_iff.mpr hrefuses
      | .obtain draft false, _ => exact h.silent hcall ⟨rfl, rfl, rfl⟩ rfl trivial
      | .remove path, _ => exact h.silent hcall ⟨rfl, rfl, rfl⟩ rfl trivial

theorem Sound.sift (h : Sound kind n t) {round : Round} {kept dropped rest : List Handle}
    {k : Handle} (hcall : t.calls id = some (.sift round kept dropped (k :: rest))) :
    Sound kind n (t.put id (t.shared.act kind (.sift round kept dropped (k :: rest)))) ∧
      Leads kind t (t.put id (t.shared.act kind (.sift round kept dropped (k :: rest)))) := by
  obtain ⟨passed, hpassed, hkept, hperm, hdropped⟩ := h.knows id _ hcall
  have hchain : (t.shared.store.table kind).chain round.bucket = (passed ++ [k]) ++ rest := by
    simp [hpassed]
  simp only [Shared.act]
  split
  · refine h.silent hcall ⟨rfl, rfl, rfl⟩ rfl
      ⟨passed ++ [k], hchain, hkept.append (.refl [k]), ?_, hdropped⟩
    refine (hperm.append_right [k]).trans ?_
    simpa only [List.append_assoc] using List.perm_append_comm.append_left kept
  · rename_i hinvalid
    refine h.silent hcall ⟨rfl, rfl, rfl⟩ rfl
      ⟨passed ++ [k], hchain, hkept.trans (List.sublist_append_left passed [k]), ?_, ?_⟩
    · simpa using hperm.append_right [k]
    · intro j hj
      obtain hj | hj := List.mem_append.mp hj
      · exact hdropped j hj
      · rw [List.mem_singleton.mp hj]
        obtain ⟨r, hr, -⟩ := h.chained.placed round.bucket k (by simp [hpassed])
        rw [Store.isValid, hr, Option.any_some, Bool.not_eq_true] at hinvalid
        exact ⟨r, hr, hinvalid⟩

theorem Sound.act (h : Sound kind n t) (hcall : t.calls id = some stage) :
    Sound kind n (t.put id (t.shared.act kind stage)) ∧
      Leads kind t (t.put id (t.shared.act kind stage)) := by
  match stage with
  | .load aim =>
    refine h.silent hcall ⟨rfl, rfl, rfl⟩ ?_ ?_
    · match aim with
      | .obtain draft true => rfl
      | .obtain draft false => rfl
      | .remove path => rfl
    · match aim with
      | .obtain draft true => exact ⟨[], rfl, fun _ hk => by cases hk⟩
      | .obtain draft false => trivial
      | .remove path => trivial
  | .walk aim rest => exact h.walk hcall
  | .await draft =>
    refine h.acquire hcall ⟨rfl, rfl, rfl⟩ ?_ trivial
    exact congrArg some (Store.bucketFor_eq h.chained.size draft.path).symm
  | .make draft => exact h.make hcall
  | .join path new =>
    obtain ⟨hvacant, hnamed⟩ := h.knows id _ hcall
    exact h.silent hcall ⟨rfl, rfl, rfl⟩ rfl ⟨hvacant, hnamed, rfl⟩
  | .link path new next => exact h.link hcall
  | .unlock path k created =>
    refine h.release hcall ?_ ⟨rfl, rfl, rfl⟩ rfl trivial
    exact congrArg some (Store.bucketFor_eq h.chained.size path).symm
  | .mark k => exact h.invalidate hcall k ⟨rfl, rfl, rfl⟩ rfl trivial
  | .scan round =>
    simp only [Shared.act]
    split <;> exact h.silent hcall ⟨rfl, rfl, rfl⟩ rfl trivial
  | .inspect round [] dirty =>
    simp only [Shared.act]
    split <;> exact h.silent hcall ⟨rfl, rfl, rfl⟩ rfl trivial
  | .inspect round (k :: rest) dirty =>
    simp only [Shared.act]
    split <;> exact h.silent hcall ⟨rfl, rfl, rfl⟩ rfl trivial
  | .judge round k rest dirty =>
    simp only [Shared.act]
    split <;> exact h.silent hcall ⟨rfl, rfl, rfl⟩ rfl trivial
  | .expire round k rest => exact h.invalidate hcall k ⟨rfl, rfl, rfl⟩ rfl trivial
  | .request round => exact h.acquire hcall ⟨rfl, rfl, rfl⟩ rfl trivial
  | .sweep round =>
    exact h.silent hcall ⟨rfl, rfl, rfl⟩ rfl
      ⟨[], rfl, .refl [], .refl [], fun _ hk => by cases hk⟩
  | .sift round kept dropped (k :: rest) => exact h.sift hcall
  | .sift round kept dropped [] => exact h.sweep hcall
  | .leave round => exact h.release hcall rfl ⟨rfl, rfl, rfl⟩ rfl trivial
  | .obtained k created => exact h.silent hcall ⟨rfl, rfl, rfl⟩ rfl trivial
  | .removed found => exact h.silent hcall ⟨rfl, rfl, rfl⟩ rfl trivial
  | .collected hs => exact h.silent hcall ⟨rfl, rfl, rfl⟩ rfl trivial

end Call

theorem read_start {α : Type} (sizes : Kind → Nat) (absent : α) (f : Stage → α) (id : Nat) :
    (start sizes).read absent f id = absent :=
  read_of_none rfl

theorem sound_start (sizes : Kind → Nat) (hpos : 0 < sizes kind) :
    Sound kind (sizes kind) (start sizes) := by
  have hchain : ∀ bucket, ((start sizes).shared.store.table kind).chain bucket = [] := by
    intro bucket
    simp [start, Store.empty, Store.table, Table.chain_empty]
  constructor
  case chained =>
    constructor
    case pos => exact hpos
    case size => simp [start, Store.empty, Store.table, Table.empty, Table.size]
    all_goals simp [hchain]
  case knows => simp [start]
  case locks => constructor <;> simp [holds, read_start]
  case ledger =>
    have hlinked : ∀ k, ¬ (start sizes).shared.store.Linked kind k := by
      rintro k ⟨bucket, hk⟩
      simp [hchain] at hk
    have hnone : (start sizes).shared.store.records.size = 0 := rfl
    constructor <;> simp [made, pending, unlinked, read_start, hlinked, hnone]

theorem Sound.begin (h : Sound kind n t) {id : Nat} (hnone : t.calls id = none) (errand : Errand) :
    Sound kind n (t.put id (t.shared, errand.first)) ∧
      Leads kind t (t.put id (t.shared, errand.first)) := by
  refine h.quiet ⟨.refl _, rfl, rfl, ?_, ?_, ?_⟩ ?_ (h.locks_put rfl (read_put_of_eq ?_))
  · rw [made, read_of_none hnone]
    cases errand <;> rfl
  · rw [pending, read_of_none hnone]
    cases errand <;> rfl
  · rw [unlinked, read_of_none hnone]
    cases errand <;> rfl
  · cases errand <;> trivial
  · rw [read_of_none hnone]
    cases errand <;> rfl

theorem Sound.step (h : Sound kind n t) (event : Event) :
    Sound kind n (t.step kind event) ∧ Leads kind t (t.step kind event) := by
  cases event with
  | begin id errand =>
    simp only [Traffic.step]
    split
    · exact ⟨h, .refl⟩
    · exact h.begin ‹_› errand
  | turn id =>
    simp only [Traffic.step]
    split
    · exact h.act ‹_›
    · exact ⟨h, .refl⟩

theorem run_append (t : Traffic) (before after : List Event) :
    t.run kind (before ++ after) = (t.run kind before).run kind after :=
  List.foldl_append

theorem Sound.run (h : Sound kind n t) (events : List Event) :
    Sound kind n (t.run kind events) ∧ Leads kind t (t.run kind events) := by
  induction events using List.reverseRecOn with
  | nil => exact ⟨h, .refl⟩
  | append_singleton events last ih =>
    rw [run_append]
    have hlast := ih.1.step last
    exact ⟨hlast.1, ih.2.trans hlast.2⟩

/-- What holds of the calls at any time, and from any time to any later one. -/
structure Safe (kind : Kind) (earlier later : Traffic) : Prop where
  /-- No chain has two valid records of a path. -/
  single : ∀ bucket, ∀ h ∈ later.shared.chain kind bucket, ∀ h' ∈ later.shared.chain kind bucket,
    ∀ r r', later.shared.store.get? h = some r → later.shared.store.get? h' = some r' →
      r.valid = true → r'.valid = true → r.path = r'.path → h = h'
  /-- A linked record stays linked as long as it is valid. -/
  kept : ∀ h, earlier.shared.store.Linked kind h → later.shared.store.isValid h = true →
    later.shared.store.Linked kind h
  /-- One call has made a record, and tells so when it is done. -/
  made : ∀ h < later.shared.store.records.size, ∃! id, later.made id = some h
  made_before : ∀ id h, earlier.made id = some h → later.made id = some h
  told : ∀ id h created, later.calls id = some (.obtained h created) →
    (created = true ↔ later.made id = some h)
  /-- One collection has unlinked a record, and returns it once when it is done. -/
  unlinked : ∀ h, earlier.shared.store.Linked kind h → ¬ later.shared.store.Linked kind h →
    ∃ id, (later.unlinked id).count h = 1 ∧ ∀ other, h ∈ later.unlinked other → other = id
  unlinked_before : ∀ id, ∀ h ∈ earlier.unlinked id, h ∈ later.unlinked id
  unlinked_only : ∀ id, ∀ h ∈ later.unlinked id, ¬ later.shared.store.Linked kind h
  returned : ∀ id hs, later.calls id = some (.collected hs) → later.unlinked id = hs

theorem Sound.safe {t' : Traffic} (h : Sound kind n t') (hleads : Leads kind t t') :
    Safe kind t t' where
  single := h.chained.single
  kept k hlinked hvalid := by
    refine (hleads.linked k hlinked).resolve_right ?_
    rintro ⟨⟨r, hr, hinvalid⟩, -⟩
    rw [Store.isValid, hr, Option.any_some, hinvalid] at hvalid
    cases hvalid
  made k hlt := by
    obtain ⟨id, hid⟩ := h.ledger.maker k hlt
    exact ⟨id, hid, fun other hother => h.ledger.made_once other id k hother hid⟩
  made_before := hleads.made
  told id k created hcall := by
    have hmade : t'.made id = if created then some k else none := read_eq hcall
    rw [hmade]
    simp
  unlinked k hlinked hgone := by
    obtain ⟨-, id, hid⟩ := (hleads.linked k hlinked).resolve_left hgone
    refine ⟨id, List.count_eq_one_of_mem (h.ledger.unlinked_nodup id) hid, fun other hother => ?_⟩
    exact h.ledger.unlinked_once other id k hother hid
  unlinked_before := hleads.unlinked
  unlinked_only := h.ledger.unlinked_only
  returned id hs hcall := read_eq hcall

/-- The calls are safe, however many there are and however their steps interleave. -/
theorem run_safe (kind : Kind) (sizes : Kind → Nat) (before after : List Event) :
    Safe kind ((start fun kind => max 1 (sizes kind)).run kind before)
      ((start fun kind => max 1 (sizes kind)).run kind (before ++ after)) := by
  have hpos : 0 < max 1 (sizes kind) := by omega
  have hstart := sound_start (fun kind => max 1 (sizes kind)) hpos
  have hafter := (hstart.run before).1.run after
  rw [run_append]
  exact hafter.1.safe hafter.2

end Traffic

end Rollup
