import Rollup.Proofs.Store.Lookup

/-! How a store evolves. Records are only added, changed in place and unlinked once they are
invalid; none changes its identity or becomes valid again, and the store stays well formed. -/
namespace Rollup

/-- The later state of a record: who it is stays, validity can only be lost, and a record that is
never collected stays so. -/
structure Record.Follows (old new : Record) : Prop where
  path : new.path = old.path
  hash : new.hash = old.hash
  kind : new.kind = old.kind
  valid : new.valid = true → old.valid = true
  exempt : old.idle = none → new.idle = none

namespace Record

theorem Follows.refl (r : Record) : r.Follows r := ⟨rfl, rfl, rfl, fun h => h, fun h => h⟩

theorem Follows.trans {r r' r'' : Record} (h : r.Follows r') (h' : r'.Follows r'') :
    r.Follows r'' :=
  ⟨h'.path.trans h.path, h'.hash.trans h.hash, h'.kind.trans h.kind, h.valid ∘ h'.valid,
    h'.exempt ∘ h.exempt⟩

def expireIn (kind : Kind) (expired : Record → Bool) (r : Record) : Record :=
  if r.kind = kind ∧ r.valid && expired r then r.invalidate else r

theorem follows_invalidate (r : Record) : r.Follows r.invalidate :=
  ⟨rfl, rfl, rfl, (nomatch ·), fun h => h⟩

end Record

namespace Store

/-- A record that an operation adds: valid, hashed, and of a path that has none. -/
structure Fresh (s : Store) (r : Record) : Prop where
  valid : r.valid = true
  hash : r.hash = pathHash r.path
  absent : ∀ h, ¬ s.Holds r.kind r.path h

def Evolves (s s' : Store) : Prop :=
  ∀ h r, s.get? h = some r → ∃ r', s'.get? h = some r' ∧ r.Follows r'

theorem Evolves.refl (s : Store) : s.Evolves s := fun _ r hr => ⟨r, hr, .refl r⟩

theorem Evolves.trans {s s' s'' : Store} (h : s.Evolves s') (h' : s'.Evolves s'') :
    s.Evolves s'' := by
  intro k r hr
  obtain ⟨r', hr', hfollows⟩ := h k r hr
  obtain ⟨r'', hr'', hfollows'⟩ := h' k r' hr'
  exact ⟨r'', hr'', hfollows.trans hfollows'⟩

theorem Evolves.valid_before {s s' : Store} (h : s.Evolves s') {k : Handle} {r : Record}
    (hr : s.get? k = some r) (hvalid : s'.isValid k = true) : s.isValid k = true := by
  obtain ⟨r', hr', hfollows⟩ := h k r hr
  rw [Store.isValid, hr', Option.any_some] at hvalid
  rw [Store.isValid, hr, Option.any_some, hfollows.valid hvalid]

/-- The effect of an operation that only changes records in place and unlinks invalid ones. -/
structure Revises (s s' : Store) (f : Handle → Record → Record) : Prop where
  get : ∀ h, s'.get? h = (s.get? h).map (f h)
  follows : ∀ h r, s.get? h = some r → r.Follows (f h r)
  size : ∀ kind, (s'.table kind).size = (s.table kind).size
  chain : ∀ kind bucket, ((s'.table kind).chain bucket).Sublist ((s.table kind).chain bucket)
  keeps : ∀ kind bucket h r, h ∈ (s.table kind).chain bucket → s'.get? h = some r →
    r.valid = true → h ∈ (s'.table kind).chain bucket

namespace Revises

variable {s s' : Store} {f : Handle → Record → Record}

theorem evolves (h : s.Revises s' f) : s.Evolves s' := by
  intro k r hr
  exact ⟨f k r, by rw [h.get, hr, Option.map_some], h.follows k r hr⟩

theorem before (h : s.Revises s' f) {k : Handle} {r' : Record} (hr' : s'.get? k = some r') :
    ∃ r, s.get? k = some r ∧ r' = f k r ∧ r.Follows r' := by
  rw [h.get, Option.map_eq_some_iff] at hr'
  obtain ⟨r, hr, rfl⟩ := hr'
  exact ⟨r, hr, rfl, h.follows k r hr⟩

theorem wellFormed (h : s.Revises s' f) (hs : s.WellFormed) : s'.WellFormed where
  size_pos kind := by rw [h.size]; exact hs.size_pos kind
  hashed k r' hr' := by
    obtain ⟨r, hr, -, hfollows⟩ := h.before hr'
    rw [hfollows.hash, hfollows.path, hs.hashed k r hr]
  linked kind bucket k hmem := by
    obtain ⟨r, hr, hkind, hbucket⟩ := hs.linked kind bucket k ((h.chain kind bucket).mem hmem)
    obtain ⟨r', hr', hfollows⟩ := h.evolves k r hr
    refine ⟨r', hr', hfollows.kind.trans hkind, ?_⟩
    rw [Table.bucketOf, h.size, hfollows.hash]
    exact hbucket
  nodup kind bucket := (hs.nodup kind bucket).sublist (h.chain kind bucket)
  mem_chain k r' hr' hvalid := by
    obtain ⟨r, hr, -, hfollows⟩ := h.before hr'
    refine h.keeps _ _ k r' ?_ hr' hvalid
    rw [Table.bucketOf, h.size, hfollows.hash, hfollows.kind]
    exact hs.mem_chain k r hr (hfollows.valid hvalid)
  unique k k' r r' hr hr' hvalid hvalid' hkind hpath := by
    obtain ⟨old, hold, -, hfollows⟩ := h.before hr
    obtain ⟨old', hold', -, hfollows'⟩ := h.before hr'
    refine hs.unique k k' old old' hold hold' (hfollows.valid hvalid) (hfollows'.valid hvalid')
      ?_ ?_
    · rw [← hfollows.kind, ← hfollows'.kind, hkind]
    · rw [← hfollows.path, ← hfollows'.path, hpath]

theorem refl (s : Store) : s.Revises s fun _ r => r where
  get h := by simp
  follows _ r _ := .refl r
  size _ := rfl
  chain _ _ := List.Sublist.refl _
  keeps _ _ _ _ hmem _ _ := hmem

theorem trans {s'' : Store} {g : Handle → Record → Record} (h : s.Revises s' f)
    (h' : s'.Revises s'' g) : s.Revises s'' fun k r => g k (f k r) where
  get k := by
    rw [h'.get, h.get, Option.map_map]
    rfl
  follows k r hr := by
    have hr' : s'.get? k = some (f k r) := by rw [h.get, hr, Option.map_some]
    exact (h.follows k r hr).trans (h'.follows k _ hr')
  size kind := (h'.size kind).trans (h.size kind)
  chain kind bucket := (h'.chain kind bucket).trans (h.chain kind bucket)
  keeps kind bucket k r'' hmem hr'' hvalid := by
    obtain ⟨r', hr', -, hfollows⟩ := h'.before hr''
    exact h'.keeps kind bucket k r'' (h.keeps kind bucket k r' hmem hr' (hfollows.valid hvalid))
      hr'' hvalid

theorem congr {g : Handle → Record → Record} (h : s.Revises s' f)
    (hfg : ∀ k r, s.get? k = some r → f k r = g k r) : s.Revises s' g where
  get k := by
    rw [h.get]
    cases hr : s.get? k with
    | none => rfl
    | some r => simp [hfg k r hr]
  follows k r hr := hfg k r hr ▸ h.follows k r hr
  size := h.size
  chain := h.chain
  keeps := h.keeps

end Revises

theorem revises_modifyAll (s : Store) {hs : List Handle} (hnodup : hs.Nodup)
    (f : Record → Record) (hf : ∀ h ∈ hs, ∀ r, s.get? h = some r → r.Follows (f r)) :
    s.Revises (s.modifyAll hs f) fun h r => if h ∈ hs then f r else r where
  get h := by
    rw [get?_modifyAll hnodup]
    split <;> simp
  follows h r hr := by
    split
    · rename_i hmem
      exact hf h hmem r hr
    · exact .refl r
  size kind := by rw [table_modifyAll]
  chain kind bucket := by rw [table_modifyAll]
  keeps kind bucket h r hmem _ _ := by rwa [table_modifyAll]

theorem revises_modify (s : Store) (h : Handle) (f : Record → Record)
    (hf : ∀ r, s.get? h = some r → r.Follows (f r)) :
    s.Revises (s.modify h f) fun k r => if k = h then f r else r := by
  have hall := s.revises_modifyAll (List.nodup_singleton h) f
    (fun k hk r hr => by rw [List.mem_singleton] at hk; exact hf r (hk ▸ hr))
  exact hall.congr fun k r _ => by simp

namespace Fresh

variable {s : Store} {r : Record}

theorem evolves (s : Store) (r : Record) : s.Evolves (s.insert r).2 :=
  fun _ old hold => ⟨old, get?_insert_of_some hold r, .refl old⟩

theorem linked_insert (hs : s.WellFormed) {kind : Kind} {bucket : Nat} {h : Handle}
    (hmem : h ∈ ((s.insert r).2.table kind).chain bucket) :
    ∃ r', (s.insert r).2.get? h = some r' ∧ r'.kind = kind ∧
      ((s.insert r).2.table kind).bucketOf r'.hash = bucket := by
  simp only [bucketOf_insert]
  rcases hs.mem_chain_insert.mp hmem with ⟨rfl, rfl, rfl⟩ | hmem
  · exact ⟨r, by rw [get?_insert, if_pos rfl], rfl, rfl⟩
  · obtain ⟨r', hr', hkind, hbucket⟩ := hs.linked kind bucket h hmem
    exact ⟨r', get?_insert_of_some hr' r, hkind, hbucket⟩

theorem nodup_insert (hs : s.WellFormed) (kind : Kind) (bucket : Nat) :
    (((s.insert r).2.table kind).chain bucket).Nodup := by
  rw [hs.chain_insert]
  split
  · exact List.nodup_cons.mpr ⟨fun hmem => hs.ne_size_of_mem_chain hmem rfl, hs.nodup kind bucket⟩
  · exact hs.nodup kind bucket

theorem mem_chain (hs : s.WellFormed) {h : Handle} {r' : Record}
    (hr' : (s.insert r).2.get? h = some r') (hvalid : r'.valid = true) :
    h ∈ ((s.insert r).2.table r'.kind).chain
      (((s.insert r).2.table r'.kind).bucketOf r'.hash) := by
  rw [bucketOf_insert, hs.mem_chain_insert]
  rcases eq_or_of_get?_insert hr' with ⟨rfl, rfl⟩ | ⟨-, hr'⟩
  · exact .inl ⟨rfl, rfl, rfl⟩
  · exact .inr (hs.mem_chain h r' hr' hvalid)

theorem unique (hr : s.Fresh r) (hs : s.WellFormed) {h h' : Handle} {r₁ r₂ : Record}
    (hr₁ : (s.insert r).2.get? h = some r₁) (hr₂ : (s.insert r).2.get? h' = some r₂)
    (hvalid₁ : r₁.valid = true) (hvalid₂ : r₂.valid = true) (hkind : r₁.kind = r₂.kind)
    (hpath : r₁.path = r₂.path) : h = h' := by
  rcases eq_or_of_get?_insert hr₁ with ⟨rfl, rfl⟩ | ⟨-, hold₁⟩ <;>
    rcases eq_or_of_get?_insert hr₂ with ⟨rfl, rfl⟩ | ⟨-, hold₂⟩
  · rfl
  · exact absurd ⟨r₂, hold₂, hvalid₂, hkind.symm, hpath.symm⟩ (hr.absent h')
  · exact absurd ⟨r₁, hold₁, hvalid₁, hkind, hpath⟩ (hr.absent h)
  · exact hs.unique h h' r₁ r₂ hold₁ hold₂ hvalid₁ hvalid₂ hkind hpath

theorem wellFormed (hr : s.Fresh r) (hs : s.WellFormed) : (s.insert r).2.WellFormed where
  size_pos kind := by
    rw [size_table_insert]
    exact hs.size_pos kind
  hashed h r' hr' := by
    rcases eq_or_of_get?_insert hr' with ⟨-, rfl⟩ | ⟨-, hr'⟩
    · exact hr.hash
    · exact hs.hashed h r' hr'
  linked _ _ _ hmem := linked_insert hs hmem
  nodup := nodup_insert hs
  mem_chain _ _ hr' hvalid := mem_chain hs hr' hvalid
  unique _ _ _ _ hr₁ hr₂ hvalid₁ hvalid₂ hkind hpath :=
    hr.unique hs hr₁ hr₂ hvalid₁ hvalid₂ hkind hpath

end Fresh

theorem revises_expire {s : Store} (hs : s.WellFormed) (kind : Kind) (expired : Record → Bool) :
    s.Revises (s.expire kind expired) fun _ => Record.expireIn kind expired := by
  have hall := s.revises_modifyAll (hs.handles_nodup kind)
    (fun r => if r.valid && expired r then r.invalidate else r)
    (fun h _ r _ => by
      split
      · exact r.follows_invalidate
      · exact .refl r)
  refine hall.congr fun h r hr => ?_
  unfold Record.expireIn
  by_cases hmem : h ∈ (s.table kind).handles
  · obtain ⟨r', hr', hkind⟩ := hs.kind_of_mem_handles hmem
    rw [hr] at hr'
    cases hr'
    simp [hmem, hkind]
  · -- A valid record of the kind would be linked.
    have hnot : ¬ (r.kind = kind ∧ r.valid = true) := by
      rintro ⟨rfl, hvalid⟩
      exact hmem (hs.mem_handles_of_valid hr hvalid)
    by_cases hkind : r.kind = kind
    · simp [hmem, hkind, show r.valid = false by simpa [hkind] using hnot]
    · simp [hmem, hkind]

theorem revises_unlink (s : Store) (kind : Kind) :
    s.Revises { s with tables := s.tables.set kind ((s.table kind).filter s.isValid) }
      fun _ r => r := by
  have htable : ∀ other, Store.table
      { s with tables := s.tables.set kind ((s.table kind).filter s.isValid) } other =
        if other = kind then (s.table kind).filter s.isValid else s.table other := by
    intro other
    by_cases hother : other = kind
    · subst hother
      simp [table]
    · simp [table, hother, PerKind.get_set_of_ne _ _ hother]
  constructor
  case get => intro h; rw [Option.map_id']; rfl
  case follows => intro _ r _; exact .refl r
  case size =>
    intro other
    rw [htable]
    split
    · rename_i heq
      rw [Table.size_filter, heq]
    · rfl
  case chain =>
    intro other bucket
    rw [htable]
    split
    · rename_i heq
      rw [Table.chain_filter, heq]
      exact List.filter_sublist
    · exact List.Sublist.refl _
  case keeps =>
    intro other bucket h r hmem hr hvalid
    rw [htable]
    split
    · rename_i heq
      have hr' : s.get? h = some r := hr
      rw [Table.chain_filter, List.mem_filter]
      exact ⟨heq ▸ hmem, by simp [isValid, hr', hvalid]⟩
    · exact hmem

theorem revises_collect {s : Store} (hs : s.WellFormed) (kind : Kind) (expired : Record → Bool) :
    s.Revises (s.collect kind expired).2 fun _ => Record.expireIn kind expired := by
  have hexpire := revises_expire hs kind expired
  unfold collect
  simp only
  split
  · exact hexpire
  · exact hexpire.trans (revises_unlink _ kind)

end Store

end Rollup
