import Mathlib.Logic.Relation
import Rollup.Proofs.Store.Directory
import Rollup.Proofs.Store.Traffic

/-! A call that no other call disturbs does what the store does for it in one go. -/
namespace Rollup

structure Store.Agrees (s s' : Store) : Prop where
  records : s.records = s'.records
  chain : ∀ kind bucket, (s.table kind).chain bucket = (s'.table kind).chain bucket

theorem Table.handles_eq_flatMap (t : Table) :
    t.handles = (List.range t.size).flatMap t.chain := by
  rw [handles, List.flatMap_def]
  congr 1
  refine List.ext_getElem (by simp [size]) fun i hi _ => ?_
  rw [Array.length_toList] at hi
  simp [chain, hi]

namespace Store

theorem modify_eq_modify {s : Store} {h : Handle} {r : Record} {f g : Record → Record}
    (hr : s.get? h = some r) (hfg : f r = g r) : s.modify h f = s.modify h g := by
  unfold modify
  congr 1
  refine Array.ext_getElem? fun k => ?_
  rw [Array.getElem?_modify, Array.getElem?_modify]
  split
  · rename_i heq
    have hk : s.records[k]? = some r := heq ▸ hr
    rw [hk, Option.map_some, Option.map_some, hfg]
  · rfl

theorem modify_id (s : Store) (h : Handle) : s.modify h id = s := by
  unfold modify
  congr 1
  refine Array.ext_getElem? fun k => ?_
  rw [Array.getElem?_modify, Option.map_id, id, ite_self]

end Store

def Record.lapse (expired : Record → Bool) (r : Record) : Record :=
  if r.valid && expired r then r.invalidate else r

structure Store.Clears (s : Store) (kind : Kind) (expired : Record → Bool) (bucket : Nat)
    (s' : Store) (dropped : List Handle) : Prop where
  records : s'.records =
    (s.modifyAll ((s.table kind).chain bucket) (Record.lapse expired)).records
  size : (s'.table kind).size = (s.table kind).size
  chain : ∀ other i, (s'.table other).chain i = if other = kind ∧ i = bucket
    then ((s.table other).chain i).filter s'.isValid else (s.table other).chain i
  dropped : dropped = ((s.table kind).chain bucket).filter fun h => !s'.isValid h

namespace Shared

variable {kind : Kind} (s : Shared)

/-- Steps of one call, with none of another between them. -/
abbrev Reaches (kind : Kind) : Shared × Stage → Shared × Stage → Prop :=
  Relation.ReflTransGen fun m m' => m.1.act kind m.2 = m'

theorem Reaches.step {m m' m'' : Shared × Stage} (hstep : m.1.act kind m.2 = m')
    (h : Reaches kind m' m'') : Reaches kind m m'' :=
  .head hstep h

theorem locate_eq (path : String) : s.store.locate kind path =
    (s.chain kind (s.bucketFor kind path)).find? (s.store.answers path) :=
  rfl

theorem reaches_walk (aim : Aim) (rest : List Handle) : Reaches kind (s, .walk aim rest)
    (s, match rest.find? (s.store.answers aim.path) with
      | some h => aim.found h
      | none => aim.absent) := by
  induction rest with
  | nil => exact .single rfl
  | cons h rest ih =>
    rw [List.find?_cons]
    cases hanswers : s.store.answers aim.path h with
    | true => exact .single (by simp [act, hanswers])
    | false => exact Reaches.step (by simp [act, hanswers]) ih

theorem reaches_found (aim : Aim) {h : Handle}
    (hlocate : s.store.locate kind aim.path = some h) :
    Reaches kind (s, .load aim) (s, aim.found h) := by
  have hwalk : Reaches kind (s, .walk aim (s.chain kind (s.bucketFor kind aim.path))) _ :=
    reaches_walk s aim _
  rw [← locate_eq, hlocate] at hwalk
  exact Reaches.step rfl hwalk

theorem reaches_absent (aim : Aim) (hlocate : s.store.locate kind aim.path = none) :
    Reaches kind (s, .load aim) (s, aim.absent) := by
  have hwalk : Reaches kind (s, .walk aim (s.chain kind (s.bucketFor kind aim.path))) _ :=
    reaches_walk s aim _
  rw [← locate_eq, hlocate] at hwalk
  exact Reaches.step rfl hwalk

theorem reaches_remove (path : String) : Reaches kind (s, (Errand.remove path).first)
    ({ s with store := (s.store.remove kind path).2 }, .removed (s.store.remove kind path).1) := by
  unfold Store.remove
  cases hlocate : s.store.locate kind path with
  | none => exact reaches_absent s (.remove path) hlocate
  | some h => exact .trans (reaches_found s (.remove path) hlocate) (.single rfl)

theorem setLock_setLock {bucket : Nat} (hfree : s.locked (Table.stripeOf bucket) = false) :
    (s.setLock bucket true).setLock bucket false = s := by
  cases s with
  | mk store locked =>
    simp only [setLock, mk.injEq, true_and]
    funext stripe
    grind

theorem agrees_insert (hpos : 0 < (s.store.table kind).size) (draft : Draft) :
    ((s.store.push (draft.record kind s.store.nextId)).setChain kind
        (s.store.bucketFor kind draft.path)
        (s.store.records.size :: s.chain kind (s.store.bucketFor kind draft.path))).Agrees
      (s.store.insert (draft.record kind s.store.nextId)).2 where
  records := rfl
  chain other bucket := by
    have hkind : (draft.record kind s.store.nextId).kind = kind := Body.kind_empty _ _ _
    rw [Store.table_insert, hkind]
    by_cases hother : other = kind
    · subst hother
      have hbucket := Table.bucketOf_lt hpos (pathHash draft.path)
      rw [if_pos rfl, Store.table_setChain, Table.chain_setChain, Table.chain_link hpos]
      split
      · rename_i h
        obtain ⟨rfl, -⟩ := h
        exact (if_pos rfl).symm
      · rename_i h
        exact (if_neg fun heq => h ⟨heq, hbucket⟩).symm
    · rw [if_neg hother]
      simp [Store.setChain, Store.table, PerKind.modify_eq_set, PerKind.get_set_of_ne _ _ hother,
        Store.push]

def linkNew (s : Shared) (kind : Kind) (draft : Draft) : Store :=
  (s.store.push (draft.record kind s.store.nextId)).setChain kind
    (s.store.bucketFor kind draft.path)
    (s.store.records.size :: s.chain kind (s.store.bucketFor kind draft.path))

theorem reaches_made (draft : Draft) : Reaches kind (s, .make draft)
    (({ s with store := s.linkNew kind draft }).setLock (s.bucketFor kind draft.path) false,
      .obtained s.store.records.size true) := by
  refine .head rfl (.head rfl (.head rfl (.single ?_)))
  have hbucket : (s.linkNew kind draft).bucketFor kind draft.path =
      s.bucketFor kind draft.path :=
    Store.bucketFor_eq (by rw [linkNew, Store.table_setChain, Table.size_setChain]; rfl) _
  change ((_ : Shared).setLock ((s.linkNew kind draft).bucketFor kind draft.path) false, _) = _
  rw [hbucket]
  rfl

theorem reaches_obtain (hpos : 0 < (s.store.table kind).size)
    (hfree : ∀ stripe, s.locked stripe = false) (draft : Draft) :
    ∃ store, store.Agrees (match s.store.locate kind draft.path with
      | some _ => s.store
      | none => (s.store.insert (draft.record kind s.store.nextId)).2) ∧
      Reaches kind (s, (Errand.obtain draft).first) ({ s with store := store },
        match s.store.locate kind draft.path with
        | some h => .obtained h false
        | none => .obtained (s.store.insert (draft.record kind s.store.nextId)).1 true) := by
  cases hlocate : s.store.locate kind draft.path with
  | some h =>
    exact ⟨s.store, ⟨rfl, fun _ _ => rfl⟩,
      reaches_found s (.obtain draft false) hlocate⟩
  | none =>
    refine ⟨s.linkNew kind draft, agrees_insert s hpos draft, ?_⟩
    have hbucket := hfree (Table.stripeOf (s.bucketFor kind draft.path))
    have hawait : s.act kind (.await draft) =
        (s.setLock (s.bucketFor kind draft.path) true, .load (.obtain draft true)) := by
      simp [act, acquire, hbucket]
    refine (reaches_absent s (.obtain draft false) hlocate).trans (.head hawait ?_)
    refine (reaches_absent (s.setLock _ true) (.obtain draft true) hlocate).trans ?_
    have hmade : Reaches kind (s.setLock (s.bucketFor kind draft.path) true, .make draft) _ :=
      reaches_made _ draft
    have hlock : ({ s.setLock (s.bucketFor kind draft.path) true with
        store := s.linkNew kind draft }).setLock (s.bucketFor kind draft.path) false =
      { s with store := s.linkNew kind draft } :=
      setLock_setLock { s with store := s.linkNew kind draft } hbucket
    exact hlock ▸ hmade

def doomed (s : Shared) (expired : Record → Bool) (h : Handle) : Bool :=
  (s.store.get? h).any fun r => !r.valid || expired r

theorem reaches_visit (round : Round) {h : Handle} {r : Record} (hr : s.store.get? h = some r)
    (rest : List Handle) (dirty : Bool) : Reaches kind (s, .inspect round (h :: rest) dirty)
      ({ s with store := s.store.modify h (Record.lapse round.expired) },
        .inspect round rest (dirty || s.doomed round.expired h)) := by
  rw [doomed, hr, Option.any_some]
  have hexpire : ∀ hlapse : r.lapse round.expired = r.invalidate,
      Reaches kind (s, .expire round h rest)
        ({ s with store := s.store.modify h (Record.lapse round.expired) },
          .inspect round rest true) := by
    intro hlapse
    rw [Store.modify_eq_modify hr hlapse]
    exact .single rfl
  cases hvalid : r.valid with
  | false =>
    have hlapse : r.lapse round.expired = r.invalidate := by
      cases r
      simp_all [Record.lapse, Record.invalidate]
    refine .head ?_ (by simpa using hexpire hlapse)
    simp [act, Store.isValid, hr, hvalid]
  | true =>
    have hlook : s.act kind (.inspect round (h :: rest) dirty) =
        (s, .judge round h rest dirty) := by simp [act, Store.isValid, hr, hvalid]
    refine .head hlook ?_
    cases hexpired : round.expired r with
    | true =>
      have hlapse : r.lapse round.expired = r.invalidate := by
        simp [Record.lapse, hvalid, hexpired]
      refine .head ?_ (by simpa using hexpire hlapse)
      simp [act, hr, hexpired]
    | false =>
      have hsame : s.store.modify h (Record.lapse round.expired) = s.store :=
        (Store.modify_eq_modify hr (by simp [Record.lapse, hexpired])).trans
          (s.store.modify_id h)
      rw [hsame]
      exact .single (by simp [act, hr, hexpired])

theorem reaches_inspect {round : Round} {rest : List Handle}
    (hknown : ∀ h ∈ rest, ∃ r, s.store.get? h = some r) (hnodup : rest.Nodup) (dirty : Bool) :
    Reaches kind (s, .inspect round rest dirty)
      ({ s with store := s.store.modifyAll rest (Record.lapse round.expired) },
        if dirty || rest.any (s.doomed round.expired) then .request round
        else .scan round.next) := by
  induction rest generalizing s dirty with
  | nil => exact .single (by simp [act, Store.modifyAll])
  | cons h rest ih =>
    obtain ⟨r, hr⟩ := hknown h List.mem_cons_self
    obtain ⟨hnot, hrest⟩ := List.nodup_cons.mp hnodup
    let visited : Shared := { s with store := s.store.modify h (Record.lapse round.expired) }
    have hget : ∀ k ∈ rest, visited.store.get? k = s.store.get? k := by
      intro k hk
      rw [Store.get?_modify, if_neg]
      rintro rfl
      exact hnot hk
    have hany : rest.any (visited.doomed round.expired) = rest.any (s.doomed round.expired) := by
      rw [Bool.eq_iff_iff, List.any_eq_true, List.any_eq_true]
      exact exists_congr fun k => and_congr_right fun hk => by rw [doomed, doomed, hget k hk]
    have hlater := ih visited (fun k hk => hget k hk ▸ hknown k (List.mem_cons_of_mem h hk)) hrest
      (dirty || s.doomed round.expired h)
    rw [hany, Bool.or_assoc, ← List.any_cons] at hlater
    exact (reaches_visit s round hr rest dirty).trans hlater

theorem reaches_sift (round : Round) (kept dropped rest : List Handle) :
    Reaches kind (s, .sift round kept dropped rest)
      (s, .sift round (kept ++ rest.filter s.store.isValid)
        (dropped ++ rest.filter fun h => !s.store.isValid h) []) := by
  induction rest generalizing kept dropped with
  | nil => simpa using Relation.ReflTransGen.refl
  | cons h rest ih =>
    cases hvalid : s.store.isValid h with
    | true =>
      refine .head (by simp [act, hvalid]) ((ih (kept ++ [h]) dropped).trans ?_)
      simpa [hvalid] using Relation.ReflTransGen.refl
    | false =>
      refine .head (by simp [act, hvalid]) ((ih kept (dropped ++ [h])).trans ?_)
      simpa [hvalid] using Relation.ReflTransGen.refl

theorem reaches_swept (kind : Kind) (round : Round)
    (hfree : s.locked (Table.stripeOf round.bucket) = false) : Reaches kind (s, .request round)
      (⟨s.store.setChain kind round.bucket
          ((s.chain kind round.bucket).filter s.store.isValid), s.locked⟩,
        .scan ⟨round.expired, round.bucket + 1,
          round.removed ++ (s.chain kind round.bucket).filter fun h => !s.store.isValid h⟩) := by
  have hrequest : s.act kind (.request round) = (s.setLock round.bucket true, .sweep round) :=
    if_neg (Bool.eq_false_iff.mp hfree)
  refine .head hrequest (.head rfl ((reaches_sift _ round [] [] _).trans (.head rfl (.single ?_))))
  exact Prod.ext (setLock_setLock ⟨s.store.setChain kind round.bucket _, s.locked⟩ hfree) rfl

section Bucket

variable {s : Shared} {round : Round}

theorem clears_clean (hknown : ∀ h ∈ s.chain kind round.bucket, ∃ r, s.store.get? h = some r)
    (hnodup : (s.chain kind round.bucket).Nodup)
    (hclean : (s.chain kind round.bucket).any (s.doomed round.expired) = false) :
    s.store.Clears kind round.expired round.bucket
      (s.store.modifyAll (s.chain kind round.bucket) (Record.lapse round.expired)) [] := by
  have hvalid : ∀ h ∈ s.chain kind round.bucket, (s.store.modifyAll
      (s.chain kind round.bucket) (Record.lapse round.expired)).isValid h = true := by
    intro h hmem
    obtain ⟨r, hr⟩ := hknown h hmem
    have hkept := List.any_eq_false.mp hclean h hmem
    rw [doomed, hr, Option.any_some] at hkept
    rw [Store.isValid, Store.get?_modifyAll hnodup, if_pos hmem, hr, Option.map_some,
      Option.any_some]
    simp_all [Record.lapse]
  constructor
  case records => rfl
  case size => rw [Store.table_modifyAll]
  case chain =>
    intro other i
    rw [Store.table_modifyAll]
    split
    · rename_i h
      obtain ⟨rfl, rfl⟩ := h
      exact (List.filter_eq_self.mpr hvalid).symm
    · rfl
  case dropped =>
    refine (List.filter_eq_nil_iff.mpr fun h hmem => ?_).symm
    simp [hvalid h hmem]

theorem clears_dirty (hlt : round.bucket < (s.store.table kind).size) :
    let lapsed := s.store.modifyAll (s.chain kind round.bucket) (Record.lapse round.expired)
    s.store.Clears kind round.expired round.bucket
      (lapsed.setChain kind round.bucket ((s.chain kind round.bucket).filter lapsed.isValid))
      ((s.chain kind round.bucket).filter fun h => !lapsed.isValid h) := by
  intro lapsed
  have htable : ∀ other, lapsed.table other = s.store.table other :=
    Store.table_modifyAll s.store _ _
  constructor
  case records => rfl
  case size => rw [Store.table_setChain, Table.size_setChain, htable]
  case chain =>
    intro other i
    by_cases hother : other = kind
    · subst hother
      rw [Store.table_setChain, Table.chain_setChain, htable]
      by_cases hi : i = round.bucket
      · subst hi
        rw [if_pos ⟨rfl, hlt⟩, if_pos ⟨rfl, rfl⟩]
        rfl
      · simp [hi]
    · rw [if_neg fun h => hother h.1, ← htable]
      simp [Store.setChain, Store.table, PerKind.modify_eq_set, PerKind.get_set_of_ne _ _ hother]
  case dropped => rfl

theorem reaches_next (s : Shared) (round : Round)
    (hlt : round.bucket < (s.store.table kind).size)
    (hfree : s.locked (Table.stripeOf round.bucket) = false)
    (hknown : ∀ h ∈ s.chain kind round.bucket, ∃ r, s.store.get? h = some r)
    (hnodup : (s.chain kind round.bucket).Nodup) : ∃ store dropped,
      s.store.Clears kind round.expired round.bucket store dropped ∧
        Reaches kind (s, .scan round) ({ s with store := store },
          .scan ⟨round.expired, round.bucket + 1, round.removed ++ dropped⟩) := by
  have hscan : s.act kind (.scan round) =
      (s, .inspect round (s.chain kind round.bucket) false) := by simp [act, hlt]
  have hinspect : Reaches kind (s, .inspect round (s.chain kind round.bucket) false) _ :=
    reaches_inspect s hknown hnodup false
  rw [Bool.false_or] at hinspect
  cases hdirty : (s.chain kind round.bucket).any (s.doomed round.expired) with
  | false =>
    rw [hdirty] at hinspect
    refine ⟨_, [], clears_clean hknown hnodup hdirty, .head hscan ?_⟩
    simpa [Round.next] using hinspect
  | true =>
    rw [hdirty] at hinspect
    refine ⟨_, _, clears_dirty hlt, .head hscan (hinspect.trans ?_)⟩
    have hswept := reaches_swept ⟨s.store.modifyAll (s.chain kind round.bucket)
      (Record.lapse round.expired), s.locked⟩ kind round hfree
    have hchain : Shared.chain kind ⟨s.store.modifyAll (s.chain kind round.bucket)
        (Record.lapse round.expired), s.locked⟩ round.bucket = s.chain kind round.bucket := by
      rw [chain, Store.table_modifyAll]
      rfl
    rw [hchain] at hswept
    exact hswept

end Bucket

end Shared

structure Store.Swept (s : Store) (kind : Kind) (expired : Record → Bool) (bucket : Nat)
    (s' : Store) (removed : List Handle) : Prop where
  get : ∀ h, s'.get? h = if ∃ i < bucket, h ∈ (s.table kind).chain i
    then (s.get? h).map (Record.lapse expired) else s.get? h
  size : (s'.table kind).size = (s.table kind).size
  chain : ∀ other i, (s'.table other).chain i = if other = kind ∧ i < bucket
    then ((s.table other).chain i).filter (s.expire kind expired).isValid
    else (s.table other).chain i
  removed : removed = (List.range bucket).flatMap fun i =>
    ((s.table kind).chain i).filter fun h => !(s.expire kind expired).isValid h

namespace Store

variable {s : Store} {kind : Kind} {expired : Record → Bool}

theorem get?_expire (hs : s.WellFormed) (h : Handle) : (s.expire kind expired).get? h =
    if h ∈ (s.table kind).handles then (s.get? h).map (Record.lapse expired) else s.get? h :=
  get?_modifyAll (hs.handles_nodup kind) s (Record.lapse expired) h

theorem Swept.next (hs : s.WellFormed) {bucket : Nat} {s' s'' : Store}
    {removed dropped : List Handle} (h : s.Swept kind expired bucket s' removed)
    (hclears : s'.Clears kind expired bucket s'' dropped) :
    s.Swept kind expired (bucket + 1) s'' (removed ++ dropped) := by
  have hchain : (s'.table kind).chain bucket = (s.table kind).chain bucket := by
    rw [h.chain, if_neg (by omega)]
  have hget : ∀ k, s''.get? k = if k ∈ (s.table kind).chain bucket
      then (s'.get? k).map (Record.lapse expired) else s'.get? k := by
    intro k
    rw [← get?_modifyAll (hs.nodup kind bucket), ← hchain, get?, hclears.records, ← get?]
  have honce : ∀ k ∈ (s.table kind).chain bucket, ¬ ∃ i < bucket, k ∈ (s.table kind).chain i := by
    rintro k hk ⟨i, hi, hk'⟩
    obtain ⟨r, hr, -, hbucket⟩ := hs.linked kind bucket k hk
    obtain ⟨r', hr', -, hbucket'⟩ := hs.linked kind i k hk'
    cases hr.symm.trans hr'
    omega
  have hvalid : ∀ k ∈ (s.table kind).chain bucket,
      s''.isValid k = (s.expire kind expired).isValid k := by
    intro k hk
    rw [isValid, isValid, hget, if_pos hk, h.get, if_neg (honce k hk), get?_expire hs,
      if_pos (Table.mem_handles.mpr ⟨bucket, hk⟩)]
  constructor
  case get =>
    intro k
    rw [hget, h.get]
    by_cases hk : k ∈ (s.table kind).chain bucket
    · rw [if_pos hk, if_neg (honce k hk), if_pos ⟨bucket, by omega, hk⟩]
    · rw [if_neg hk]
      have hiff : (∃ i < bucket + 1, k ∈ (s.table kind).chain i) ↔
          ∃ i < bucket, k ∈ (s.table kind).chain i := by
        constructor
        · rintro ⟨i, hi, hmem⟩
          obtain hlt | rfl := Nat.lt_succ_iff_lt_or_eq.mp hi
          · exact ⟨i, hlt, hmem⟩
          · exact absurd hmem hk
        · rintro ⟨i, hi, hmem⟩
          exact ⟨i, by omega, hmem⟩
      simp only [hiff]
  case size => exact hclears.size.trans h.size
  case chain =>
    intro other i
    rw [hclears.chain, h.chain]
    by_cases hother : other = kind
    · subst hother
      obtain hlt | rfl | hgt := Nat.lt_trichotomy i bucket
      · simp [hlt, Nat.ne_of_lt hlt, Nat.lt_succ_of_lt hlt]
      · rw [if_pos ⟨rfl, rfl⟩, if_neg (by omega), if_pos ⟨rfl, by omega⟩]
        exact List.filter_congr hvalid
      · rw [if_neg (by omega), if_neg (by omega), if_neg (by omega)]
    · simp [hother]
  case removed =>
    rw [List.range_succ, List.flatMap_append, ← h.removed, hclears.dropped, hchain]
    simp only [List.flatMap_singleton]
    congr 1
    exact List.filter_congr fun k hk => by rw [hvalid k hk]

theorem swept_zero (s : Store) : s.Swept kind expired 0 s [] := by
  constructor <;> simp

theorem Swept.agrees (hs : s.WellFormed) {s' : Store} {removed : List Handle}
    (h : s.Swept kind expired (s.table kind).size s' removed) :
    removed = (s.collect kind expired).1 ∧ s'.Agrees (s.collect kind expired).2 := by
  have hremoved : removed = (s.table kind).handles.filter fun k =>
      !(s.expire kind expired).isValid k := by
    rw [h.removed, Table.handles_eq_flatMap, List.filter_flatMap]
  have hmem : ∀ k, k ∈ (s.table kind).handles ↔
      ∃ i < (s.table kind).size, k ∈ (s.table kind).chain i := by
    intro k
    rw [Table.handles_eq_flatMap]
    simp [List.mem_flatMap]
  have hcollects := collects kind expired hs
  refine ⟨hremoved.trans (collect_fst kind expired).symm, ?_, ?_⟩
  · have hrecords : (s.collect kind expired).2.records = (s.expire kind expired).records := by
      unfold collect
      simp only
      split <;> rfl
    rw [hrecords]
    refine Array.ext_getElem? fun k => (h.get k).trans ((get?_expire hs k).trans ?_).symm
    simp only [hmem]
  · intro other i
    rw [h.chain]
    by_cases hother : other = kind
    · subst hother
      rw [hcollects.chain]
      have hkept : ∀ k ∈ (s.table other).chain i,
          (s.expire other expired).isValid k = decide (k ∉ (s.collect other expired).1) := by
        intro k hk
        rw [collect_fst]
        simp [Table.mem_handles.mpr ⟨i, hk⟩]
      by_cases hlt : i < (s.table other).size
      · rw [if_pos ⟨rfl, hlt⟩, List.filter_congr hkept]
      · rw [if_neg fun hi => hlt hi.2, Table.chain_eq_nil (by omega), List.filter_nil]
    · rw [if_neg fun hi => hother hi.1, hcollects.others other hother]

end Store

namespace Shared

variable {kind : Kind} {expired : Record → Bool}

theorem reaches_rounds {s₀ : Store} (hs : s₀.WellFormed) {locked : Nat → Bool}
    (hfree : ∀ stripe, locked stripe = false) {bucket : Nat} {store : Store}
    {removed : List Handle} (hle : bucket ≤ (s₀.table kind).size)
    (hswept : s₀.Swept kind expired bucket store removed) : ∃ later all,
      s₀.Swept kind expired (s₀.table kind).size later all ∧
        Reaches kind (⟨store, locked⟩, .scan ⟨expired, bucket, removed⟩)
          (⟨later, locked⟩, .collected all) := by
  obtain heq | hlt := Nat.eq_or_lt_of_le hle
  · refine ⟨store, removed, heq ▸ hswept, .single ?_⟩
    simp [act, hswept.size, heq]
  · have hchain : Shared.chain kind ⟨store, locked⟩ bucket = (s₀.table kind).chain bucket := by
      rw [chain, hswept.chain, if_neg (by omega)]
    have hknown : ∀ h ∈ (s₀.table kind).chain bucket, ∃ r, store.get? h = some r := by
      intro h hmem
      obtain ⟨r, hr, -⟩ := hs.linked kind bucket h hmem
      rw [hswept.get, hr]
      split
      · exact ⟨_, rfl⟩
      · exact ⟨_, rfl⟩
    obtain ⟨next, dropped, hclears, hreaches⟩ :=
      reaches_next ⟨store, locked⟩ ⟨expired, bucket, removed⟩ (hswept.size ▸ hlt) (hfree _)
        (hchain ▸ hknown) (hchain ▸ hs.nodup kind bucket)
    obtain ⟨later, all, hlater, hrest⟩ :=
      reaches_rounds hs hfree (Nat.succ_le_of_lt hlt) (hswept.next hs hclears)
    exact ⟨later, all, hlater, hreaches.trans hrest⟩
termination_by (s₀.table kind).size - bucket

theorem reaches_collect (s : Shared) (hs : s.store.WellFormed)
    (hfree : ∀ stripe, s.locked stripe = false) (expired : Record → Bool) :
    ∃ store, store.Agrees (s.store.collect kind expired).2 ∧
      Reaches kind (s, (Errand.collect expired).first)
        ({ s with store := store }, .collected (s.store.collect kind expired).1) := by
  obtain ⟨store, removed, hswept, hreaches⟩ :=
    reaches_rounds hs hfree (Nat.zero_le _) (Store.swept_zero s.store)
  obtain ⟨rfl, hagrees⟩ := hswept.agrees hs
  exact ⟨store, hagrees, hreaches⟩

end Shared

def Errand.result (kind : Kind) (s : Store) : Errand → Stage × Store
  | obtain draft =>
    match s.locate kind draft.path with
    | some h => (.obtained h false, s)
    | none =>
      let (h, later) := s.insert (draft.record kind s.nextId)
      (.obtained h true, later)
  | remove path =>
    let (found, later) := s.remove kind path
    (.removed found, later)
  | collect expired =>
    let (hs, later) := s.collect kind expired
    (.collected hs, later)

namespace Traffic

variable {kind : Kind} {t : Traffic} {id : Nat}

theorem run_of_reaches (t : Traffic) (id : Nat) {m m' : Shared × Stage}
    (h : Shared.Reaches kind m m') :
    ∃ turns, (t.put id m).run kind (List.replicate turns (.turn id)) = t.put id m' := by
  induction h with
  | refl => exact ⟨0, rfl⟩
  | tail _ hstep ih =>
    obtain ⟨turns, hturns⟩ := ih
    refine ⟨turns + 1, ?_⟩
    rw [List.replicate_succ', run_append, hturns]
    subst hstep
    simp only [run, List.foldl_cons, List.foldl_nil, step, put, if_pos]
    congr 1
    funext k
    split <;> rfl

/-- A call that nothing disturbs comes to its end, and has done what the store does in one go. -/
theorem run_undisturbed (hs : t.shared.store.WellFormed)
    (hfree : ∀ stripe, t.shared.locked stripe = false) (hnone : t.calls id = none)
    (errand : Errand) : ∃ turns store,
      store.Agrees (errand.result kind t.shared.store).2 ∧
        t.run kind (.begin id errand :: List.replicate turns (.turn id)) =
          t.put id (⟨store, t.shared.locked⟩, (errand.result kind t.shared.store).1) := by
  have hbegin : ∀ events, t.run kind (.begin id errand :: events) =
      (t.put id (t.shared, errand.first)).run kind events := by
    intro events
    simp only [run, List.foldl_cons, step, hnone]
  have hreaches : ∃ store, store.Agrees (errand.result kind t.shared.store).2 ∧
      Shared.Reaches kind (t.shared, errand.first)
        (⟨store, t.shared.locked⟩, (errand.result kind t.shared.store).1) := by
    cases errand with
    | obtain draft =>
      have hobtain := Shared.reaches_obtain t.shared (hs.size_pos kind) hfree draft
      unfold Errand.result
      cases hlocate : t.shared.store.locate kind draft.path with
      | some h => simpa only [hlocate] using hobtain
      | none => simpa only [hlocate] using hobtain
    | remove path => exact ⟨_, ⟨rfl, fun _ _ => rfl⟩, Shared.reaches_remove t.shared path⟩
    | collect expired => exact Shared.reaches_collect t.shared hs hfree expired
  obtain ⟨store, hagrees, hreaches⟩ := hreaches
  obtain ⟨turns, hturns⟩ := run_of_reaches t id hreaches
  exact ⟨turns, store, hagrees, (hbegin _).trans hturns⟩

end Traffic

end Rollup
