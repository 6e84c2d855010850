import Mathlib.Data.List.Induction
import Rollup.Engine
import Rollup.Proofs.Store.Evolution

/-! The tables as a directory, a finite map from the paths of each kind to their records. Whatever
is asked of them, and whatever paths share a bucket, a path leads to the record that was last
created for it, unless that has been removed or collected since. -/
namespace Rollup

namespace Table

theorem handles_filter (t : Table) (keep : Handle → Bool) :
    (t.filter keep).handles = t.handles.filter keep := by
  unfold handles filter
  rw [List.filter_flatten, Array.toList_map]
  congr 1
  refine List.map_congr_left fun chain _ => ?_
  cases chain <;> rfl

theorem length_handles_link {t : Table} (ht : 0 < t.size) (hash : UInt64) (h : Handle) :
    (t.link hash h).handles.length = t.handles.length + 1 := by
  have hlt : t.bucketOf hash < t.chains.toList.length := by
    rw [Array.length_toList]
    exact bucketOf_lt ht hash
  have hsplit := List.take_append_drop (t.bucketOf hash) t.chains.toList
  rw [← List.getElem_cons_drop hlt] at hsplit
  unfold handles link
  simp only [Array.toList_modify]
  rw [List.modify_eq_take_cons_drop hlt]
  conv_rhs => rw [← hsplit]
  simp only [List.flatten_append, List.flatten_cons, List.length_append, List.length_cons]
  omega

def Counted (t : Table) : Prop := t.length = t.handles.length

theorem counted_empty (size : Nat) : (empty size).Counted := by
  simp [Counted, empty, handles]

theorem Counted.link {t : Table} (h : t.Counted) (ht : 0 < t.size) (hash : UInt64)
    (new : Handle) : (t.link hash new).Counted := by
  rw [Counted, length_handles_link ht, ← h]
  rfl

theorem Counted.filter {t : Table} (h : t.Counted) (keep : Handle → Bool) :
    (t.filter keep).Counted := by
  rw [Counted, handles_filter, ← List.countP_eq_length_filter]
  have hparts := List.length_eq_countP_add_countP keep (l := t.handles)
  have hlength : (t.filter keep).length = t.length - t.handles.countP fun h => !keep h := rfl
  rw [hlength, h]
  simp only [Bool.not_eq_true, Bool.decide_eq_false] at hparts
  omega

end Table

namespace Store

theorem size_of_revises {s s' : Store} {f : Handle → Record → Record} (h : s.Revises s' f) :
    s'.records.size = s.records.size := by
  have hsome : ∀ k, k < s'.records.size ↔ k < s.records.size := by
    intro k
    have hget := congrArg Option.isSome (h.get k)
    rw [Option.isSome_map, Bool.eq_iff_iff] at hget
    simpa [get?] using hget
  have := hsome s'.records.size
  have := hsome s.records.size
  omega

section Remove

variable {s : Store} (kind : Kind) (path : String)

theorem revises_remove : s.Revises (s.remove kind path).2 fun h r =>
    if s.locate kind path = some h then r.invalidate else r := by
  unfold remove
  cases hlocate : s.locate kind path with
  | none => exact (Revises.refl s).congr fun _ _ _ => by simp
  | some found =>
    refine (s.revises_modify found Record.invalidate fun r _ => r.follows_invalidate).congr ?_
    intro h r _
    simp only [Option.some.injEq, eq_comm]

theorem table_remove (other : Kind) : (s.remove kind path).2.table other = s.table other := by
  unfold remove
  cases s.locate kind path <;> rfl

theorem holds_remove (hs : s.WellFormed) {other : Kind} {p : String} {h : Handle} :
    (s.remove kind path).2.Holds other p h ↔ ¬ (kind = other ∧ path = p) ∧ s.Holds other p h := by
  have hget := (revises_remove (s := s) kind path).get h
  constructor
  · rintro ⟨r', hr', hvalid, hkind, hpath⟩
    rw [hget, Option.map_eq_some_iff] at hr'
    obtain ⟨r, hr, rfl⟩ := hr'
    split at hvalid
    · cases hvalid
    · rename_i hother
      rw [if_neg hother] at hkind hpath
      have hholds : s.Holds other p h := ⟨r, hr, hvalid, hkind, hpath⟩
      refine ⟨?_, hholds⟩
      rintro ⟨rfl, rfl⟩
      exact hother (hs.locate_eq_some_iff.mpr hholds)
  · rintro ⟨hother, r, hr, hvalid, rfl, rfl⟩
    have hne : ¬ s.locate kind path = some h := by
      intro hlocate
      obtain ⟨r', hr', -, hkind, hpath⟩ := hs.locate_eq_some_iff.mp hlocate
      rw [hr] at hr'
      cases hr'
      exact hother ⟨hkind.symm, hpath.symm⟩
    exact ⟨r, by rw [hget, hr, Option.map_some, if_neg hne], hvalid, rfl, rfl⟩

end Remove

section Collect

variable {s : Store} (kind : Kind) (expired : Record → Bool)

/-- What a collection does: it unlinks what is invalid or has expired, and leaves the others in
their order. -/
structure Collects (s : Store) (kind : Kind) (expired : Record → Bool) (hs : List Handle)
    (s' : Store) : Prop where
  nodup : hs.Nodup
  mem : ∀ h, h ∈ hs ↔ h ∈ (s.table kind).handles ∧
    ∃ r, s.get? h = some r ∧ (r.valid = false ∨ expired r = true)
  chain : ∀ bucket, (s'.table kind).chain bucket =
    ((s.table kind).chain bucket).filter fun h => h ∉ hs
  others : ∀ other ≠ kind, s'.table other = s.table other

theorem table_expire (other : Kind) : (s.expire kind expired).table other = s.table other :=
  table_modifyAll s _ _ other

theorem collect_fst : (s.collect kind expired).1 =
    (s.table kind).handles.filter fun h => !(s.expire kind expired).isValid h := by
  unfold collect
  simp only [table_expire]
  split
  · rename_i hempty
    exact (List.isEmpty_iff.mp hempty).symm
  · rfl

theorem mem_collect (hs : s.WellFormed) (h : Handle) :
    h ∈ (s.collect kind expired).1 ↔ h ∈ (s.table kind).handles ∧
      ∃ r, s.get? h = some r ∧ (r.valid = false ∨ expired r = true) := by
  rw [collect_fst, List.mem_filter]
  refine and_congr_right fun hmem => ?_
  obtain ⟨r, hr, hkind⟩ := hs.kind_of_mem_handles hmem
  simp only [isValid, (revises_expire hs kind expired).get, hr, Option.map_some, Option.any_some,
    Option.some.injEq, exists_eq_left']
  by_cases hvalid : r.valid = true <;> by_cases hexpired : expired r = true <;>
    simp [Record.expireIn, hkind, hvalid, hexpired, Record.invalidate]

theorem collects (hs : s.WellFormed) :
    s.Collects kind expired (s.collect kind expired).1 (s.collect kind expired).2 where
  nodup := by
    rw [collect_fst]
    exact (hs.handles_nodup kind).filter _
  mem := mem_collect kind expired hs
  chain bucket := by
    have hkept : ∀ h ∈ (s.table kind).chain bucket,
        decide (h ∉ (s.collect kind expired).1) = (s.expire kind expired).isValid h := by
      intro h hmem
      have hlinked := Table.mem_handles.mpr ⟨bucket, hmem⟩
      simp [collect_fst, hlinked]
    rw [List.filter_congr hkept]
    have hnone := collect_fst (s := s) kind expired
    unfold collect at hnone ⊢
    simp only [table_expire] at hnone ⊢
    split
    · -- Nothing is invalid, so that nothing would be filtered out either.
      rename_i hempty
      rw [table_expire, List.filter_eq_self.mpr]
      intro h hmem
      have hlinked := Table.mem_handles.mpr ⟨bucket, hmem⟩
      simpa using List.filter_eq_nil_iff.mp (List.isEmpty_iff.mp hempty) h hlinked
    · simp [table]
  others other hother := by
    unfold collect
    simp only
    split
    · exact table_expire kind expired other
    · exact (PerKind.get_set_of_ne _ _ hother).trans (table_expire kind expired other)

theorem counted_insert {s : Store} (hs : s.WellFormed)
    (hcounted : ∀ kind, (s.table kind).Counted) (r : Record) (other : Kind) :
    ((s.insert r).2.table other).Counted := by
  rw [table_insert]
  split
  · exact (hcounted other).link (hs.size_pos other) _ _
  · exact hcounted other

theorem counted_collect (hcounted : ∀ kind, (s.table kind).Counted) (other : Kind) :
    ((s.collect kind expired).2.table other).Counted := by
  have hexpire : ((s.expire kind expired).table other).Counted := by
    rw [table_expire]
    exact hcounted other
  unfold collect
  simp only
  split
  · exact hexpire
  · by_cases hother : other = kind
    · subst hother
      simp only [table, PerKind.get_set_self]
      exact hexpire.filter _
    · rw [table, PerKind.get_set_of_ne _ _ hother]
      exact hexpire

theorem holds_collect (hs : s.WellFormed) {other : Kind} {path : String} {h : Handle} :
    (s.collect kind expired).2.Holds other path h ↔
      s.Holds other path h ∧ h ∉ (s.collect kind expired).1 := by
  have hget := (revises_collect hs kind expired).get h
  rw [mem_collect kind expired hs]
  constructor
  · rintro ⟨r', hr', hvalid, hkind, hpath⟩
    rw [hget, Option.map_eq_some_iff] at hr'
    obtain ⟨r, hr, rfl⟩ := hr'
    unfold Record.expireIn at hvalid hkind hpath
    split at hvalid
    · cases hvalid
    · rename_i hkept
      rw [if_neg hkept] at hkind hpath
      refine ⟨⟨r, hr, hvalid, hkind, hpath⟩, ?_⟩
      rintro ⟨hmem, old, hold, hgone⟩
      obtain ⟨linked, hlinked, hsame⟩ := hs.kind_of_mem_handles hmem
      rw [hr] at hold hlinked
      cases hold
      cases hlinked
      simp_all
  · rintro ⟨⟨r, hr, hvalid, rfl, rfl⟩, hkept⟩
    have hsame : Record.expireIn kind expired r = r := by
      refine if_neg ?_
      rintro ⟨rfl, hgone⟩
      exact hkept ⟨hs.mem_handles_of_valid hr hvalid, r, hr, by simp_all⟩
    exact ⟨r, by rw [hget, hr, Option.map_some, hsame], hvalid, rfl, rfl⟩

end Collect

end Store

inductive Query
  | obtain (kind : Kind) (path : String)
  | locate (kind : Kind) (path : String)
  | remove (kind : Kind) (path : String)
  | collect (kind : Kind) (expired : Record → Bool)

inductive Answer
  | obtained (h : Handle) (created : Bool)
  | located (found : Option Handle)
  | removed (found : Option Handle)
  | collected (hs : List Handle)

namespace Directory

/-- Queries and their answers, the newest first. -/
abbrev Log := List (Query × Answer)

def created? : Query × Answer → Option Handle
  | (.obtain _ _, .obtained h true) => some h
  | _ => none

def created (log : Log) : List Handle := (log.filterMap created?).reverse

def Ends (kind : Kind) (path : String) (h : Handle) : Query × Answer → Prop
  | (.obtain k p, .obtained _ created) => created = true ∧ k = kind ∧ p = path
  | (.remove k p, _) => k = kind ∧ p = path
  | (.collect _ _, .collected hs) => h ∈ hs
  | _ => False

/-- The record was created for the path, and what came later did not end that. -/
def Owns (kind : Kind) (path : String) (h : Handle) (log : Log) : Prop :=
  ∃ later earlier, log = later ++ (.obtain kind path, .obtained h true) :: earlier ∧
    ∀ entry ∈ later, ¬ Ends kind path h entry

theorem owns_cons {kind : Kind} {path : String} {h : Handle} {entry : Query × Answer}
    {log : Log} : Owns kind path h (entry :: log) ↔
      entry = (.obtain kind path, .obtained h true) ∨
        ¬ Ends kind path h entry ∧ Owns kind path h log := by
  constructor
  · rintro ⟨later, earlier, heq, hlater⟩
    cases later with
    | nil => exact .inl (List.cons.inj heq).1
    | cons first later =>
      obtain ⟨rfl, rfl⟩ := List.cons.inj heq
      exact .inr ⟨hlater entry (by simp),
        later, earlier, rfl, fun e he => hlater e (List.mem_cons_of_mem _ he)⟩
  · rintro (rfl | ⟨hentry, later, earlier, rfl, hlater⟩)
    · exact ⟨[], log, rfl, by simp⟩
    · exact ⟨entry :: later, earlier, rfl, List.forall_mem_cons.mpr ⟨hentry, hlater⟩⟩

/-- What every answer keeps: the records of the store are those that the log tells of. -/
structure Kept (sizes : Kind → Nat) (log : Log) (e : Engine) : Prop where
  store : e.store.WellFormed
  size : ∀ kind, (e.store.table kind).size = sizes kind
  owner : ∀ kind path h, e.store.Holds kind path h ↔ Owns kind path h log
  counted : ∀ kind, (e.store.table kind).Counted
  numbered : ∀ h r, e.store.get? h = some r → r.id = h + 1
  created : created log = List.range e.store.records.size

end Directory

namespace Engine

open Directory

/-- A record was created if there is one more than before. -/
def answer (e : Engine) : Query → Answer × Engine
  | .obtain kind path =>
    let (h, later) := e.getOrCreate kind path
    (.obtained h (decide (e.store.records.size < later.store.records.size)), later)
  | .locate kind path => (.located (e.locate kind path), e)
  | .remove kind path =>
    let (found, later) := e.remove kind path
    (.removed found, later)
  | .collect kind expired =>
    let (hs, store) := e.store.collect kind expired
    (.collected hs, { e with store := store })

theorem answer_obtain_of_some {e : Engine} {kind : Kind} {path : String} {h : Handle}
    (hlocate : e.locate kind path = some h) :
    e.answer (.obtain kind path) = (.obtained h false, e) := by
  unfold locate at hlocate
  simp [answer, getOrCreate, hlocate]

theorem answer_obtain_of_none {e : Engine} {kind : Kind} {path : String}
    (hlocate : e.locate kind path = none) : e.answer (.obtain kind path) =
      (.obtained e.store.records.size true, (e.insert kind path (e.layoutFor kind path)).2) := by
  unfold locate at hlocate
  simp [answer, getOrCreate, hlocate, insert, measure, Store.insert]

def answerAll (e : Engine) (qs : List Query) : Log × Engine :=
  qs.foldl (fun (log, e) q =>
    let (a, later) := e.answer q
    ((q, a) :: log, later)) ([], e)

end Engine

namespace Directory

section Queries

variable {sizes : Kind → Nat} {log : Log} {e : Engine}

theorem created_cons (entry : Query × Answer) (log : Log) :
    created (entry :: log) = created log ++ (created? entry).toList := by
  unfold created
  cases h : created? entry <;> simp [h]

theorem Kept.quiet (h : Kept sizes log e) {entry : Query × Answer} (hcreated : created? entry = none)
    (hends : ∀ kind path k, ¬ Ends kind path k entry) : Kept sizes (entry :: log) e where
  store := h.store
  size := h.size
  owner kind path k := by
    rw [h.owner, owns_cons]
    refine ⟨fun howns => .inr ⟨hends kind path k, howns⟩, ?_⟩
    rintro (rfl | ⟨-, howns⟩)
    · cases hcreated
    · exact howns
  counted := h.counted
  numbered := h.numbered
  created := by rw [created_cons, hcreated, h.created]; simp

theorem Kept.revised (h : Kept sizes log e) {later : Engine} {f : Handle → Record → Record}
    (hrevises : e.store.Revises later.store f) (hid : ∀ k r, (f k r).id = r.id)
    {entry : Query × Answer} (hcreated : created? entry = none)
    (howner : ∀ kind path k, later.store.Holds kind path k ↔
      ¬ Ends kind path k entry ∧ e.store.Holds kind path k)
    (hcounted : ∀ kind, (later.store.table kind).Counted) : Kept sizes (entry :: log) later where
  store := hrevises.wellFormed h.store
  size kind := (hrevises.size kind).trans (h.size kind)
  owner kind path k := by
    rw [howner, h.owner, owns_cons, iff_or_self]
    rintro rfl
    cases hcreated
  counted := hcounted
  numbered k r' hr' := by
    obtain ⟨r, hr, rfl, -⟩ := hrevises.before hr'
    rw [hid, h.numbered k r hr]
  created := by
    rw [created_cons, hcreated, h.created, Store.size_of_revises hrevises]
    simp

theorem Kept.obtained (h : Kept sizes log e) {kind : Kind} {path : String}
    (habsent : e.store.locate kind path = none) :
    Kept sizes ((.obtain kind path, .obtained e.store.records.size true) :: log)
      (e.insert kind path (e.layoutFor kind path)).2 := by
  have hkind : (e.newRecord kind path (e.layoutFor kind path)).kind = kind :=
    Body.kind_empty _ _ kind
  have hvacant := h.store.locate_eq_none_iff.mp habsent
  have hfresh : e.store.Fresh (e.newRecord kind path (e.layoutFor kind path)) :=
    ⟨rfl, rfl, hkind.symm ▸ hvacant⟩
  constructor
  case store => exact hfresh.wellFormed h.store
  case size =>
    intro other
    exact (Store.size_table_insert _ _ _).trans (h.size other)
  case owner =>
    intro k p handle
    have hholds : (e.insert kind path (e.layoutFor kind path)).2.store.Holds k p handle ↔
        (handle = e.store.records.size ∧ kind = k ∧ path = p) ∨ e.store.Holds k p handle := by
      refine Store.holds_insert.trans ?_
      rw [hkind]
      exact or_congr_left (and_congr_right fun _ => and_iff_right rfl)
    rw [hholds, owns_cons, ← h.owner]
    constructor
    · rintro (⟨rfl, rfl, rfl⟩ | hold)
      · exact .inl rfl
      · refine .inr ⟨?_, hold⟩
        rintro ⟨-, rfl, rfl⟩
        exact hvacant handle hold
    · rintro (heq | ⟨-, hold⟩)
      · simp only [Prod.mk.injEq, Query.obtain.injEq, Answer.obtained.injEq] at heq
        exact .inl ⟨heq.2.1.symm, heq.1⟩
      · exact .inr hold
  case counted => exact Store.counted_insert h.store h.counted _
  case numbered =>
    intro handle r hr
    rcases Store.eq_or_of_get?_insert hr with ⟨rfl, rfl⟩ | ⟨-, hold⟩
    · rfl
    · exact h.numbered handle r hold
  case created =>
    have hsize : (e.insert kind path (e.layoutFor kind path)).2.store.records.size =
        e.store.records.size + 1 := Array.size_push _
    rw [created_cons, h.created, hsize, List.range_succ]
    rfl

theorem Kept.answer (h : Kept sizes log e) (q : Query) :
    Kept sizes ((q, (e.answer q).1) :: log) (e.answer q).2 := by
  cases q with
  | obtain kind path =>
    cases hlocate : e.locate kind path with
    | some handle =>
      rw [Engine.answer_obtain_of_some hlocate]
      exact h.quiet rfl (by simp [Ends])
    | none =>
      rw [Engine.answer_obtain_of_none hlocate]
      exact h.obtained hlocate
  | locate kind path => exact h.quiet rfl (by simp [Ends])
  | remove kind path =>
    refine h.revised (Store.revises_remove kind path) (fun k r => ?_) rfl
      (fun _ _ _ => Store.holds_remove kind path h.store) fun other => ?_
    · split <;> rfl
    · exact (Store.table_remove (s := e.store) kind path other).symm ▸ h.counted other
  | collect kind expired =>
    refine h.revised (Store.revises_collect h.store kind expired) (fun k r => ?_) rfl
      (fun _ _ _ => (Store.holds_collect kind expired h.store).trans and_comm)
      (Store.counted_collect kind expired h.counted)
    unfold Record.expireIn
    split <;> rfl

end Queries

structure Lawful (sizes : Kind → Nat) (log : Log) (e : Engine) : Prop where
  /-- A record is linked in the bucket of its hash, and nowhere else. -/
  placed : ∀ kind bucket, ∀ h ∈ (e.store.table kind).chain bucket, ∃ r, e.store.get? h = some r ∧
    r.kind = kind ∧ r.hash = pathHash r.path ∧ bucket = r.hash.toNat % sizes kind
  once : ∀ kind, (e.store.table kind).handles.Nodup
  /-- At most one linked record of a path is valid. -/
  single : ∀ kind, ∀ h ∈ (e.store.table kind).handles, ∀ h' ∈ (e.store.table kind).handles,
    ∀ r r', e.store.get? h = some r → e.store.get? h' = some r' → r.valid = true →
      r'.valid = true → r.path = r'.path → h = h'
  /-- A lookup finds the record that was last created for the path, if nothing ended it. -/
  located : ∀ kind path h, (e.answer (.locate kind path)).1 = .located (some h) ↔
    Owns kind path h log
  /-- Only for a path that leads nowhere a record is created. -/
  obtained : ∀ kind path, (e.answer (.obtain kind path)).1 =
    match e.locate kind path with
    | some h => .obtained h false
    | none => .obtained e.store.records.size true
  collected : ∀ kind expired, e.store.Collects kind expired (e.store.collect kind expired).1
    (e.store.collect kind expired).2
  length : ∀ kind, (e.store.table kind).length = (e.store.table kind).handles.length
  /-- The records created so far have the numbers from one on, in the order of their creation. -/
  ids : (created log).map (fun h => (e.store.get? h).map Record.id) =
    (List.range' 1 (created log).length).map some

theorem Kept.lawful {sizes : Kind → Nat} {log : Log} {e : Engine} (h : Kept sizes log e) :
    Lawful sizes log e where
  placed kind bucket handle hmem := by
    obtain ⟨r, hr, hkind, hbucket⟩ := h.store.linked kind bucket handle hmem
    rw [Table.bucketOf, h.size] at hbucket
    exact ⟨r, hr, hkind, h.store.hashed handle r hr, hbucket.symm⟩
  once kind := h.store.handles_nodup kind
  single kind handle hmem handle' hmem' r r' hr hr' hvalid hvalid' hpath := by
    have hkind : ∀ k x, k ∈ (e.store.table kind).handles → e.store.get? k = some x →
        x.kind = kind := by
      intro k x hk hx
      obtain ⟨y, hy, hkind⟩ := h.store.kind_of_mem_handles hk
      rw [hx] at hy
      cases hy
      exact hkind
    refine h.store.unique handle handle' r r' hr hr' hvalid hvalid' ?_ hpath
    rw [hkind _ r hmem hr, hkind _ r' hmem' hr']
  located kind path handle := by
    rw [← h.owner, ← h.store.locate_eq_some_iff]
    exact Answer.located.injEq _ _ ▸ Iff.rfl
  obtained kind path := by
    cases hlocate : e.locate kind path with
    | some handle => rw [Engine.answer_obtain_of_some hlocate]
    | none => rw [Engine.answer_obtain_of_none hlocate]
  collected kind expired := Store.collects kind expired h.store
  length := h.counted
  ids := by
    rw [h.created, List.length_range, List.range'_eq_map_range, List.map_map]
    refine List.map_congr_left fun handle hmem => ?_
    have hlt := List.mem_range.mp hmem
    have hr : e.store.get? handle = some e.store.records[handle] := Array.getElem?_eq_getElem hlt
    rw [hr, Option.map_some, h.numbered handle _ hr, Function.comp_apply, Nat.add_comm]

theorem kept_empty {e : Engine} {sizes : Kind → Nat} (hsizes : ∀ kind, 0 < sizes kind) :
    Kept sizes [] { e with store := .empty sizes } where
  store := Store.wellFormed_empty sizes hsizes
  size kind := by simp [Store.empty, Store.table, Table.empty, Table.size]
  owner kind path handle := by simp [Store.Holds, Store.empty, Store.get?, Owns]
  counted kind := by simpa [Store.empty, Store.table] using Table.counted_empty (sizes kind)
  numbered handle r hr := by simp [Store.empty, Store.get?] at hr
  created := rfl

theorem kept_answerAll {e : Engine} {sizes : Kind → Nat} (hsizes : ∀ kind, 0 < sizes kind)
    (qs : List Query) :
    let (log, later) := ({ e with store := .empty sizes } : Engine).answerAll qs
    Kept sizes log later := by
  induction qs using List.reverseRecOn with
  | nil => exact kept_empty hsizes
  | append_singleton qs last ih =>
    rw [Engine.answerAll, List.foldl_append]
    exact ih.answer last

/-- The tables are a directory, with any number of buckets and after any queries. -/
theorem queries_lawful (e : Engine) (sizes : Kind → Nat) (qs : List Query) :
    let (log, later) := ({ e with store := .empty fun kind => max 1 (sizes kind) } : Engine).answerAll
      qs
    Lawful (fun kind => max 1 (sizes kind)) log later :=
  (kept_answerAll (fun _ => by omega) qs).lawful

end Directory

end Rollup
