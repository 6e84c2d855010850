import Mathlib.Algebra.GroupWithZero.Nat
import Rollup.Proofs.Engine.Steps

/-! Where the points of a running engine are. Every accepted point is taken by a swap or pending,
except those that a collection drops because it comes before the worker. -/
namespace Rollup

namespace Engine

variable {e : Engine}

def pendingAt (e : Engine) (kind : Kind) (path : String) : Nat :=
  ((e.locate kind path).bind e.store.get?).elim 0 Record.pending

def handsOn (e : Engine) (path : String) (h : Handle) : Nat :=
  (e.store.get? h).elim 0 fun r => if r.path = path then r.swap.body.taken else 0

def swappedBy (e : Engine) (kind : Kind) (id : Nat) (path : String) : Nat :=
  (e.workers.get kind)[id]?.elim 0 fun w =>
    ((e.store.shard kind w.id w.shards).map (e.handsOn path)).sum

def admits (e : Engine) (kind : Kind) (path : String) : Except LineError Point → Bool
  | .ok p => decide (p.kind = kind ∧ p.path = path) && (e.refusal? p.kind p.value).isNone
  | .error _ => false

def accepts (kind : Kind) (path : String) (e : Engine) : Step → Nat
  | .point p => if e.admits kind path (.ok p) then 1 else 0
  | .text text => (Point.ofText text).countP (e.admits kind path)
  | _ => 0

def takes (kind : Kind) (path : String) (e : Engine) : Step → Nat
  | .take _ id => if kind = .adder then e.swappedBy kind id path else 0
  | .pass _ _ passed id => if kind = passed ∧ kind ≠ .adder then e.swappedBy kind id path else 0
  | _ => 0

def dueAt (e : Engine) (kind : Kind) (path : String) : Bool :=
  e.settings.collection.enable &&
    ((e.locate kind path).bind e.store.get?).any (expired e.settings.collection kind)

def drops (kind : Kind) (path : String) (e : Engine) : Step → Nat
  | .collect _ => if e.dueAt kind path then e.pendingAt kind path else 0
  | _ => 0

def total (count : Engine → Step → Nat) : Engine → List Step → Nat
  | _, [] => 0
  | e, step :: rest => count e step + total count (e.step step) rest

theorem pending_of_newBody {settings : Settings} {body : Body} (h : NewBody settings body) :
    body.pending = 0 := by
  obtain ⟨layout, predictor, kind, rfl, -⟩ := h
  cases kind <;> rfl

section Pending

variable {e' : Engine} {kind : Kind} {path : String}

theorem locate_cases (he : e.WellFormed) (kind : Kind) (path : String) :
    (e.locate kind path = none ∧ ∀ k, ¬ e.store.Holds kind path k) ∨
      ∃ k r, e.locate kind path = some k ∧ e.store.get? k = some r ∧ r.valid = true ∧
        r.kind = kind ∧ r.path = path := by
  cases hlocate : e.locate kind path with
  | none => exact .inl ⟨rfl, he.store.locate_eq_none_iff.mp hlocate⟩
  | some k =>
    obtain ⟨r, hr, hrecord⟩ := he.store.locate_eq_some_iff.mp hlocate
    exact .inr ⟨k, r, rfl, hr, hrecord⟩

theorem pendingAt_of_holds (he : e.WellFormed) {k : Handle} {r : Record}
    (hr : e.store.get? k = some r) (hvalid : r.valid = true) :
    e.pendingAt r.kind r.path = r.pending := by
  have hlocate : e.locate r.kind r.path = some k :=
    he.store.locate_eq_some_iff.mpr ⟨r, hr, hvalid, rfl, rfl⟩
  rw [pendingAt, hlocate, Option.bind_some, hr]
  rfl

theorem pendingAt_of_absent (he : e.WellFormed) (habsent : ∀ k, ¬ e.store.Holds kind path k) :
    e.pendingAt kind path = 0 := by
  have hlocate : e.locate kind path = none := he.store.locate_eq_none_iff.mpr habsent
  rw [pendingAt, hlocate]
  rfl

theorem dueAt_of_holds (he : e.WellFormed) {k : Handle} {r : Record}
    (hr : e.store.get? k = some r) (hvalid : r.valid = true) :
    e.dueAt r.kind r.path =
      (e.settings.collection.enable && expired e.settings.collection r.kind r) := by
  have hlocate : e.locate r.kind r.path = some k :=
    he.store.locate_eq_some_iff.mpr ⟨r, hr, hvalid, rfl, rfl⟩
  rw [dueAt, hlocate, Option.bind_some, hr, Option.any_some]

theorem pendingAt_of_revises (he : e.WellFormed) (he' : e'.WellFormed)
    {f : Handle → Record → Record} (hstore : e.store.Revises e'.store f) {k : Handle} {r : Record}
    (hr : e.store.get? k = some r) (hvalid : r.valid = true) :
    e'.pendingAt r.kind r.path = if (f k r).valid then (f k r).pending else 0 := by
  have hr' : e'.store.get? k = some (f k r) := by rw [hstore.get, hr, Option.map_some]
  have hfollows := hstore.follows k r hr
  split
  · rename_i hstill
    rw [← hfollows.kind, ← hfollows.path]
    exact pendingAt_of_holds he' hr' hstill
  · rename_i hgone
    refine pendingAt_of_absent he' ?_
    rintro k' ⟨later, hlater, hvalid', hkind, hpath⟩
    obtain ⟨r', hr'', -, hfollows'⟩ := hstore.before hlater
    have hsame := he.store.unique k' k r' r hr'' hr (hfollows'.valid hvalid') hvalid
      (hfollows'.kind.symm.trans hkind) (hfollows'.path.symm.trans hpath)
    subst hsame
    rw [hr'] at hlater
    cases hlater
    exact hgone hvalid'

theorem absent_of_revises {f : Handle → Record → Record} (hstore : e.store.Revises e'.store f)
    (habsent : ∀ k, ¬ e.store.Holds kind path k) (k : Handle) : ¬ e'.store.Holds kind path k := by
  rintro ⟨later, hlater, hvalid, hkind, hpath⟩
  obtain ⟨r, hr, -, hfollows⟩ := hstore.before hlater
  exact habsent k ⟨r, hr, hfollows.valid hvalid, hfollows.kind.symm.trans hkind,
    hfollows.path.symm.trans hpath⟩

end Pending

section Swapped

private theorem sum_map_of_nodup {hs : List Handle} (hnodup : hs.Nodup) {g : Handle → Nat}
    {k : Handle} (hg : ∀ h ∈ hs, h ≠ k → g h = 0) :
    (hs.map g).sum = if k ∈ hs then g k else 0 := by
  induction hs with
  | nil => rfl
  | cons h rest ih =>
    obtain ⟨hnot, hrest⟩ := List.nodup_cons.mp hnodup
    have hsum := ih hrest fun h' hmem => hg h' (List.mem_cons_of_mem _ hmem)
    rw [List.map_cons, List.sum_cons, hsum]
    by_cases hk : h = k
    · subst hk
      simp [hnot]
    · rw [hg h List.mem_cons_self hk]
      simp [Ne.symm hk]

theorem swappedBy_of_absent (he : e.WellFormed) {kind : Kind} {path : String}
    (habsent : ∀ k, ¬ e.store.Holds kind path k) (id : Nat) : e.swappedBy kind id path = 0 := by
  unfold swappedBy
  cases hw : (e.workers.get kind)[id]? with
  | none => rfl
  | some w =>
    obtain ⟨-, hid, hshards, hlt⟩ := worker_of_staffed he hw
    rw [Option.elim_some, List.sum_eq_zero_iff_forall_eq_nat]
    intro n hn
    obtain ⟨h, hmem, rfl⟩ := List.mem_map.mp hn
    rw [hid, hshards, Store.mem_shard he.store hlt] at hmem
    obtain ⟨r, hr, hshard⟩ := hmem
    simp only [Record.inShard, Bool.and_eq_true, beq_iff_eq] at hshard
    have hother : r.path ≠ path := fun hpath => habsent h ⟨r, hr, hshard.1.1, hshard.1.2, hpath⟩
    rw [handsOn, hr, Option.elim_some, if_neg hother]

theorem swappedBy_of_holds (he : e.WellFormed) {k : Handle} {r : Record}
    (hr : e.store.get? k = some r) (hvalid : r.valid = true) (id : Nat) :
    e.swappedBy r.kind id r.path = if e.visits r.kind id r then r.pending else 0 := by
  unfold swappedBy
  cases hw : (e.workers.get r.kind)[id]? with
  | none =>
    have hout : ¬ id < e.crew r.kind := by
      rw [crew, staff, List.length_map]
      exact Nat.not_lt.mpr (List.getElem?_eq_none_iff.mp hw)
    simp [visits, hout]
  | some w =>
    obtain ⟨-, hid, hshards, hlt⟩ := worker_of_staffed he hw
    have hpos : 0 < e.crew r.kind := by omega
    rw [Option.elim_some, hid, hshards,
      sum_map_of_nodup (k := k) (Store.shard_nodup he.store r.kind hpos id)]
    · have htaken : e.handsOn r.path k = r.pending := by
        rw [handsOn, hr, Option.elim_some, if_pos rfl]
        exact Body.taken_swap r.body
      simp only [Store.mem_shard he.store hlt, hr, Option.some.injEq, exists_eq_left', visits,
        decide_eq_true hlt, Bool.true_and, htaken]
    · -- Another record of the shard has another path.
      intro h hmem hne
      rw [Store.mem_shard he.store hlt] at hmem
      obtain ⟨r', hr', hshard⟩ := hmem
      simp only [Record.inShard, Bool.and_eq_true, beq_iff_eq] at hshard
      have hother : r'.path ≠ r.path := fun hpath =>
        hne (he.store.unique h k r' r hr' hr hshard.1.1 hvalid hshard.1.2 hpath)
      rw [handsOn, hr', Option.elim_some, if_neg hother]

end Swapped

section Steps

variable {e' : Engine} {f : Handle → Record → Record} (kind : Kind) (path : String)

theorem pendingAt_of_kept (he : e.WellFormed) (hmoves : e.Moves e')
    (hstore : e.store.Revises e'.store f)
    (hf : ∀ k r, e.store.get? k = some r → (f k r).valid = r.valid ∧ (f k r).pending = r.pending) :
    e'.pendingAt kind path = e.pendingAt kind path := by
  rcases locate_cases he kind path with ⟨-, habsent⟩ | ⟨k, r, -, hr, hvalid, rfl, rfl⟩
  · rw [pendingAt_of_absent he habsent,
      pendingAt_of_absent hmoves.wellFormed (absent_of_revises hstore habsent)]
  · rw [pendingAt_of_revises he hmoves.wellFormed hstore hr hvalid, pendingAt_of_holds he hr hvalid,
      (hf k r hr).1, (hf k r hr).2, if_pos hvalid]

theorem pendingAt_of_treated (he : e.WellFormed) (hmoves : e.Moves e') {treated : Kind} {id : Nat}
    {g : Record → Record}
    (hstore : e.store.Revises e'.store fun _ r => if e.visits treated id r then g r else r)
    (hpending : ∀ r, (g r).pending = 0) :
    e'.pendingAt kind path + (if kind = treated then e.swappedBy kind id path else 0) =
      e.pendingAt kind path := by
  rcases locate_cases he kind path with ⟨-, habsent⟩ | ⟨k, r, -, hr, hvalid, rfl, rfl⟩
  · rw [pendingAt_of_absent he habsent, swappedBy_of_absent he habsent,
      pendingAt_of_absent hmoves.wellFormed (absent_of_revises hstore habsent), ite_self]
  · rw [pendingAt_of_revises he hmoves.wellFormed hstore hr hvalid, pendingAt_of_holds he hr hvalid,
      swappedBy_of_holds he hr hvalid]
    by_cases hvisits : e.visits treated id r = true
    · -- Only workers of its own kind visit a record.
      have hkind : r.kind = treated := by
        simp only [visits, Record.inShard, Bool.and_eq_true, beq_iff_eq] at hvisits
        exact hvisits.2.1.2
      subst hkind
      simp [hvisits, hpending]
    · rw [if_neg hvisits, if_pos hvalid]
      by_cases hkind : r.kind = treated
      · subst hkind
        simp [hvisits]
      · simp [hkind]

theorem pendingAt_collect (he : e.WellFormed) (took : Nat) :
    (e.collect took).pendingAt kind path + drops kind path e (.collect took) =
      e.pendingAt kind path := by
  have hstore := revises_collect he took
  have hmoves := moves_collect he took
  simp only [drops]
  rcases locate_cases he kind path with ⟨-, habsent⟩ | ⟨k, r, -, hr, hvalid, rfl, rfl⟩
  · rw [pendingAt_of_absent he habsent,
      pendingAt_of_absent hmoves.wellFormed (absent_of_revises hstore habsent), ite_self]
  · rw [pendingAt_of_revises he hmoves.wellFormed hstore hr hvalid, pendingAt_of_holds he hr hvalid,
      dueAt_of_holds he hr hvalid]
    by_cases henable : e.settings.collection.enable = true
    · by_cases hexpired : expired e.settings.collection r.kind r = true
      · simp [henable, hexpired, collected, hvalid, Record.invalidate]
      · simp [henable, hexpired, collected, hvalid]
    · simp [henable, hvalid]

theorem pendingAt_getOrCreate (he : e.WellFormed) (wanted : Kind) (name : String) :
    (e.getOrCreate wanted name).2.pendingAt kind path = e.pendingAt kind path := by
  have hmoves := moves_getOrCreate he wanted name
  rcases locate_cases he kind path with ⟨-, habsent⟩ | ⟨k, r, -, hr, hvalid, rfl, rfl⟩
  · rw [pendingAt_of_absent he habsent]
    rcases locate_cases hmoves.wellFormed kind path with
      ⟨-, habsent'⟩ | ⟨k, r, -, hr, hvalid, rfl, rfl⟩
    · exact pendingAt_of_absent hmoves.wellFormed habsent'
    · rw [pendingAt_of_holds hmoves.wellFormed hr hvalid]
      rcases get?_getOrCreate e wanted name k with hsame | ⟨-, -, -, hadded⟩
      · exact absurd ⟨r, hsame ▸ hr, hvalid, rfl, rfl⟩ (habsent k)
      · rw [hadded] at hr
        cases hr
        exact pending_of_newBody (newBody_newRecord e wanted name _)
  · rw [pendingAt_of_holds he hr hvalid]
    rcases get?_getOrCreate e wanted name k with hsame | ⟨-, hnone, -⟩
    · exact pendingAt_of_holds hmoves.wellFormed (hsame.trans hr) hvalid
    · rw [hr] at hnone
      cases hnone

theorem pendingAt_update (he : e.WellFormed) {h : Handle} {r : Record}
    (hr : e.store.get? h = some r) (hvalid : r.valid = true) (value : Float)
    (adjustment : Adjustment) :
    (e.modifyRecord h (Record.update value adjustment)).pendingAt kind path =
      e.pendingAt kind path + if r.kind = kind ∧ r.path = path then 1 else 0 := by
  have hmoves := moves_modifyRecord he h (Record.stays_update value adjustment)
  have hstore := e.store.revises_modify h (Record.update value adjustment)
    fun r _ => (r.stays_update _ _).follows
  rcases locate_cases he kind path with ⟨-, habsent⟩ | ⟨k, r', -, hr', hvalid', rfl, rfl⟩
  · have hother : ¬ (r.kind = kind ∧ r.path = path) := fun heq =>
      habsent h ⟨r, hr, hvalid, heq.1, heq.2⟩
    rw [pendingAt_of_absent he habsent, if_neg hother,
      pendingAt_of_absent hmoves.wellFormed (absent_of_revises hstore habsent)]
  · rw [pendingAt_of_revises he hmoves.wellFormed hstore hr' hvalid',
      pendingAt_of_holds he hr' hvalid']
    by_cases hk : k = h
    · subst hk
      rw [hr] at hr'
      cases hr'
      simp [(r.stays_update value adjustment).valid, hvalid]
    · have hother : ¬ (r.kind = r'.kind ∧ r.path = r'.path) := fun heq =>
        hk (he.store.unique k h r' r hr' hr hvalid' hvalid heq.1.symm heq.2.symm)
      rw [if_neg hk, if_pos hvalid', if_neg hother, Nat.add_zero]

theorem pendingAt_accept (he : e.WellFormed) (p : Point) :
    (e.accept p).pendingAt kind path =
      e.pendingAt kind path + if p.kind = kind ∧ p.path = path then 1 else 0 := by
  have hcreate := (moves_getOrCreate he p.kind p.path).wellFormed
  obtain ⟨r, hr, hvalid, hkind, hpath⟩ := holds_getOrCreate he p.kind p.path
  have hupdate := pendingAt_update kind path hcreate hr hvalid p.value p.adjustment
  rw [pendingAt_getOrCreate kind path he, hkind, hpath] at hupdate
  exact hupdate

theorem pendingAt_of_store (hstore : e'.store = e.store) :
    e'.pendingAt kind path = e.pendingAt kind path := by
  rw [pendingAt, pendingAt, locate, locate, hstore]

theorem admits_of_refused {line : Except LineError Point} {cause : Rejection}
    (hcause : e.rejection? line = some cause) : e.admits kind path line = false := by
  cases line with
  | error _ => rfl
  | ok p =>
    obtain ⟨refused, hrefused, -⟩ := Option.map_eq_some_iff.mp hcause
    rw [admits, hrefused, Option.isNone_some, Bool.and_false]

theorem admits_of_accepted {p : Point} (haccepted : e.refusal? p.kind p.value = none) :
    e.admits kind path (.ok p) = decide (p.kind = kind ∧ p.path = path) := by
  rw [admits, haccepted, Option.isNone_none, Bool.and_true]

theorem pendingAt_ingest (he : e.WellFormed) (p : Point) :
    ((e.ingest p).toOption.getD e).pendingAt kind path =
      e.pendingAt kind path + if e.admits kind path (.ok p) then 1 else 0 := by
  unfold ingest
  split
  · rename_i cause hrefused
    have hcause : e.rejection? (.ok p) = some (.update cause) := by
      rw [rejection?, hrefused]
      rfl
    rw [admits_of_refused kind path hcause]
    rfl
  · rename_i haccepted
    rw [admits_of_accepted kind path haccepted]
    simp only [decide_eq_true_eq]
    exact pendingAt_accept kind path he p

theorem pendingAt_ingestLine (he : e.WellFormed) (counts : LineCounts)
    (line : Except LineError Point) :
    (ingestLine (counts, e) line).2.pendingAt kind path =
      e.pendingAt kind path + if e.admits kind path line then 1 else 0 := by
  simp only [ingestLine]
  split
  · rename_i p haccepted
    have hrefusal : e.refusal? p.kind p.value = none := Option.map_eq_none_iff.mp haccepted
    simpa [admits_of_accepted kind path hrefusal] using pendingAt_accept kind path he p
  · rename_i hcause
    rw [admits_of_refused kind path hcause]
    exact pendingAt_of_store kind path rfl
  · rename_i hnone
    cases hnone

theorem pendingAt_ingestText (he : e.WellFormed) (text : List Char) :
    (e.ingestText text).2.pendingAt kind path =
      e.pendingAt kind path + (Point.ofText text).countP (e.admits kind path) := by
  have hlines : ∀ (lines : List (Except LineError Point)) (counts : LineCounts) (e' : Engine),
      e.Moves e' → (lines.foldl ingestLine (counts, e')).2.pendingAt kind path =
        e'.pendingAt kind path + lines.countP (e.admits kind path) := by
    intro lines
    induction lines with
    | nil => exact fun _ _ _ => rfl
    | cons line rest ih =>
      intro counts e' hmoves
      -- What is admitted depends on the settings alone.
      have hadmits : e'.admits kind path line = e.admits kind path line := by
        cases line with
        | error cause => rfl
        | ok p => rw [admits, admits, refusal?, refusal?, hmoves.settings]
      have hfirst := moves_ingestLine hmoves.wellFormed counts line
      rw [List.foldl_cons, List.countP_cons, ih _ _ (hmoves.trans hfirst),
        pendingAt_ingestLine kind path hmoves.wellFormed, hadmits]
      omega
  have hall := hlines (Point.ofText text) {} e (.refl he)
  rw [← hall]
  exact pendingAt_of_store kind path (store_measureAll _ _)

end Steps

theorem pendingAt_step (he : e.WellFormed) (kind : Kind) (path : String) (step : Step) :
    (e.step step).pendingAt kind path + takes kind path e step + drops kind path e step =
      e.pendingAt kind path + accepts kind path e step := by
  have hmoves := moves_step he step
  cases step with
  | point p => exact pendingAt_ingest kind path he p
  | text text => exact pendingAt_ingestText kind path he text
  | take nowMs id =>
    exact pendingAt_of_treated kind path he hmoves (revises_takeShard nowMs id he)
      (Record.pending_takeAdder _)
  | compute took =>
    obtain ⟨f, hstore, hf⟩ := settles_runSynthetics took he
    refine pendingAt_of_kept kind path he hmoves hstore fun k r hr => ⟨(hf k r hr).1.valid, ?_⟩
    rw [Record.pending, (hf k r hr).2, Body.pending_given]
    rfl
  | report nowMs took id =>
    have hstore := revises_reportShard nowMs id he
    rw [← store_finishShard took id .adder (e.reportShard nowMs id)] at hstore
    refine pendingAt_of_kept kind path he hmoves hstore fun k r hr => ?_
    split
    · exact ⟨(r.stays_reportAdder _ _).valid, r.pending_reportAdder _ _⟩
    · exact ⟨rfl, rfl⟩
  | pass nowMs took passed id =>
    have hstore := revises_passShard nowMs id he passed
    rw [← store_finishShard took id passed (e.passShard nowMs passed id)] at hstore
    simp only [takes, drops, accepts, Nat.add_zero]
    by_cases hadder : passed = .adder
    · -- Adders are not passed over.
      subst hadder
      rw [if_neg (fun h => h.2 h.1), Nat.add_zero]
      exact pendingAt_of_kept kind path he hmoves hstore fun k r hr => by simp [Worker.passed]
    · have hswap : e.store.Revises (e.step (.pass nowMs took passed id)).store fun _ r =>
          if e.visits passed id r then r.swap else r :=
        hstore.congr fun _ r _ => by rw [Worker.passed, if_neg hadder]
      have htreated := pendingAt_of_treated kind path he hmoves hswap
        fun r => Body.pending_swap r.body
      by_cases hkind : kind = passed
      · subst hkind
        rw [if_pos rfl] at htreated
        rw [if_pos ⟨rfl, hadder⟩, htreated]
      · rw [if_neg hkind, Nat.add_zero] at htreated
        rw [if_neg fun h => hkind h.1, Nat.add_zero, htreated]
  | collect took => exact pendingAt_collect kind path he took

section Runs

theorem pendingAt_after (he : e.WellFormed) (kind : Kind) (path : String) (steps : List Step) :
    (e.after steps).pendingAt kind path + total (takes kind path) e steps +
        total (drops kind path) e steps =
      e.pendingAt kind path + total (accepts kind path) e steps := by
  induction steps generalizing e with
  | nil => rfl
  | cons first rest ih =>
    have hfirst := pendingAt_step he kind path first
    have hrest := ih (moves_step he first).wellFormed
    simp only [total]
    change (Engine.after (e.step first) rest).pendingAt kind path + _ + _ = _
    omega

theorem total_append (count : Engine → Step → Nat) (e : Engine) (steps more : List Step) :
    total count e (steps ++ more) = total count e steps + total count (e.after steps) more := by
  induction steps generalizing e with
  | nil => exact (Nat.zero_add _).symm
  | cons first rest ih =>
    rw [List.cons_append, total, total, ih, Nat.add_assoc]
    rfl

theorem total_eq_zero_iff {count : Engine → Step → Nat} {steps : List Step} :
    total count e steps = 0 ↔
      ∀ before last, before ++ [last] <+: steps → count (e.after before) last = 0 := by
  constructor
  · rintro hzero before last ⟨rest, rfl⟩
    rw [total_append, total_append, total, total] at hzero
    omega
  · intro hsteps
    induction steps using List.reverseRecOn with
    | nil => rfl
    | append_singleton steps last ih =>
      have hbefore := ih fun before last' hpart => hsteps before last' (hpart.trans ⟨_, rfl⟩)
      rw [total_append, hbefore, total, total, hsteps steps last (List.prefix_refl _)]

end Runs

section Collections

/-- A collection after which every record with pending points is still that of its path. -/
def Spares (e : Engine) (took : Nat) : Prop :=
  ∀ k r, e.store.get? k = some r → r.valid = true → 0 < r.pending →
    (e.collect took).locate r.kind r.path = some k

/-- No record is due that has pending points. -/
def Undue (e : Engine) : Prop :=
  e.settings.collection.enable = true → ∀ k r, e.store.get? k = some r → r.valid = true →
    0 < r.pending → expired e.settings.collection r.kind r = false

theorem locate_collect (he : e.WellFormed) (took : Nat) {k : Handle} {r : Record}
    (hr : e.store.get? k = some r) (hvalid : r.valid = true) :
    (e.collect took).locate r.kind r.path = some k ↔
      (e.settings.collection.enable && expired e.settings.collection r.kind r) = false := by
  have hlater := (revises_collect he took).get k
  rw [hr, Option.map_some] at hlater
  rw [locate, (moves_collect he took).wellFormed.store.locate_eq_some_iff, Store.Holds, hlater]
  by_cases henable : e.settings.collection.enable = true
  · by_cases hexpired : expired e.settings.collection r.kind r = true
    · simp [henable, hexpired, collected, hvalid, Record.invalidate]
    · simp [henable, hexpired, collected, hvalid]
  · simp [henable, hvalid]

theorem spares_iff (he : e.WellFormed) (took : Nat) : e.Spares took ↔ e.Undue := by
  constructor
  · intro hspares henable k r hr hvalid hpending
    have hlocate := (locate_collect he took hr hvalid).mp (hspares k r hr hvalid hpending)
    rwa [henable, Bool.true_and] at hlocate
  · intro hundue k r hr hvalid hpending
    rw [locate_collect he took hr hvalid, Bool.and_eq_false_imp]
    exact fun henable => hundue henable k r hr hvalid hpending

theorem drops_eq_zero_iff (he : e.WellFormed) (took : Nat) :
    (∀ kind path, drops kind path e (.collect took) = 0) ↔ e.Undue := by
  constructor
  · intro hdrops henable k r hr hvalid hpending
    have hzero := hdrops r.kind r.path
    simp only [drops, dueAt_of_holds he hr hvalid, pendingAt_of_holds he hr hvalid, henable,
      Bool.true_and] at hzero
    split at hzero
    · omega
    · exact Bool.eq_false_iff.mpr ‹_›
  · intro hundue kind path
    simp only [drops]
    rcases locate_cases he kind path with ⟨-, habsent⟩ | ⟨k, r, -, hr, hvalid, rfl, rfl⟩
    · rw [pendingAt_of_absent he habsent, ite_self]
    · rw [pendingAt_of_holds he hr hvalid, dueAt_of_holds he hr hvalid]
      split
      · rename_i hdue
        rw [Bool.and_eq_true] at hdue
        by_contra hpending
        have hkept := hundue hdue.1 k r hr hvalid (Nat.pos_of_ne_zero hpending)
        rw [hkept] at hdue
        exact Bool.false_ne_true hdue.2
      · rfl

end Collections

/-- Once all passes of a tick are over, nothing is pending in the records that workers visit, so a
collection that comes then spares them. -/
theorem pending_passed (he : e.WellFormed) (nowMs : Nat) (took : Activity → Nat) {k : Handle}
    {r : Record} (hr : (e.passed nowMs took).store.get? k = some r) (hvalid : r.valid = true)
    (hcrew : 0 < e.crew r.kind) : r.pending = 0 := by
  have hcovered : ∀ {old : Record}, old.Follows r → e.covers r.kind old = true := by
    intro old hfollows
    simp [covers, hfollows.valid hvalid, hfollows.kind.symm, hcrew]
  obtain ⟨reported, hreported, heq, hlast⟩ := (revises_passed nowMs took he).2.before hr
  by_cases hother : r.kind ∈ [Kind.gauge, .stats, .histogram]
  · rw [heq, if_pos (by rw [← hlast.kind]; exact ⟨hother, hcovered hlast⟩)]
    exact Body.pending_swap _
  · -- An adder was empty when the reports began.
    have hadder : r.kind = .adder := by
      revert hother
      cases r.kind <;> decide
    rw [if_neg (by rw [← hlast.kind]; exact fun h => hother h.1)] at heq
    subst heq
    rw [hadder] at hcovered
    obtain ⟨middle, hmiddle, rfl, hreport⟩ := (revises_tickAdders nowMs took he).2.before hreported
    obtain ⟨htaken, hswapped⟩ := revises_taken nowMs he
    obtain ⟨f, hcomputed, hf⟩ := settles_runSynthetics (took .synthetics) htaken.wellFormed
    obtain ⟨taken, htaken', rfl, hcompute⟩ := hcomputed.before hmiddle
    obtain ⟨old, -, rfl, htake⟩ := hswapped.before htaken'
    rw [if_pos (hcovered hreport), Record.pending_reportAdder, Record.pending, (hf _ _ htaken').2,
      Body.pending_given, if_pos (hcovered (htake.trans (hcompute.trans hreport)))]
    exact Record.pending_takeAdder _ _

theorem pendingAt_ofConfig {c : EngineConfig} (h : ofConfig c = .ok e) (kind : Kind)
    (path : String) : e.pendingAt kind path = 0 := by
  obtain ⟨he, hnew⟩ := ofConfig_sound h
  rcases locate_cases he kind path with ⟨-, habsent⟩ | ⟨k, r, -, hr, hvalid, rfl, rfl⟩
  · exact pendingAt_of_absent he habsent
  · rw [pendingAt_of_holds he hr hvalid]
    exact pending_of_newBody (hnew k r hr)

/-- After any run every accepted point is taken, pending or dropped, and none is dropped exactly if
every collection spares the records with pending points. -/
theorem points_kept_iff {c : EngineConfig} (h : ofConfig c = .ok e) (steps : List Step) :
    (∀ kind path, total (accepts kind path) e steps = total (takes kind path) e steps +
      (e.after steps).pendingAt kind path + total (drops kind path) e steps) ∧
    ((∀ kind path, total (accepts kind path) e steps =
        total (takes kind path) e steps + (e.after steps).pendingAt kind path) ↔
      ∀ before took, before ++ [.collect took] <+: steps → (e.after before).Spares took) ∧
    ∀ before took, (e.after before).Spares took ↔ (e.after before).Undue := by
  obtain ⟨he, -⟩ := ofConfig_sound h
  have hafter := fun before => (moves_after he before).wellFormed
  have hledger : ∀ kind path, total (accepts kind path) e steps = total (takes kind path) e steps +
      (e.after steps).pendingAt kind path + total (drops kind path) e steps := by
    intro kind path
    have hrun := pendingAt_after he kind path steps
    rw [pendingAt_ofConfig h] at hrun
    omega
  refine ⟨hledger, ⟨?_, ?_⟩, fun before took => spares_iff (hafter before) took⟩
  · intro hkept before took hpart
    rw [spares_iff (hafter before), ← drops_eq_zero_iff (hafter before) took]
    intro kind path
    have hzero : total (drops kind path) e steps = 0 := by
      have hall := hledger kind path
      have hpath := hkept kind path
      omega
    exact total_eq_zero_iff.mp hzero before _ hpart
  · intro hspares kind path
    have hzero : total (drops kind path) e steps = 0 := by
      refine total_eq_zero_iff.mpr fun before last hpart => ?_
      cases last with
      | collect took =>
        have hundue := (spares_iff (hafter before) took).mp (hspares before took hpart)
        exact (drops_eq_zero_iff (hafter before) took).mpr hundue kind path
      | _ => rfl
    rw [hledger, hzero, Nat.add_zero]

/-- One worker for each kind, and collection of whatever a worker has found empty once. -/
def impatient : EngineConfig := compact { collection := { enable := true, threshold := 0 } }

def arrive (path : String) : Step := .point ⟨path, .stats, 1, .set⟩

def visit (nowMs : Nat) : Step := .pass nowMs 0 .stats 0

/-- The worker comes before the collection. -/
def visited : List Step := [arrive "x", visit 1000, visit 2000, arrive "x", visit 3000, .collect 0]

def overtaken : List Step :=
  [arrive "x", visit 1000, visit 2000, arrive "x", .collect 0, visit 3000]

theorem points_kept_iff_visited : ∃ e, ofConfig impatient = .ok e ∧
    (e.after visited).pendingAt .stats "x" = 0 ∧
    (∀ kind path, total (accepts kind path) e visited = total (takes kind path) e visited +
      (e.after visited).pendingAt kind path + total (drops kind path) e visited) ∧
    ((∀ kind path, total (accepts kind path) e visited =
        total (takes kind path) e visited + (e.after visited).pendingAt kind path) ↔
      ∀ before took, before ++ [.collect took] <+: visited → (e.after before).Spares took) ∧
    ∀ before took, (e.after before).Spares took ↔ (e.after before).Undue := by
  have hcheck : (ofConfig impatient).toOption.any (fun e =>
      decide ((e.after visited).pendingAt .stats "x" = 0)) = true := by
    decide +kernel
  obtain ⟨e, he, hempty⟩ := exists_ofConfig hcheck
  exact ⟨e, he, of_decide_eq_true hempty, points_kept_iff he visited⟩

/-- The second of two points is neither taken nor pending. -/
theorem point_lost_overtaken : ∃ e, ofConfig impatient = .ok e ∧
    total (accepts .stats "x") e overtaken = 2 ∧ total (takes .stats "x") e overtaken = 1 ∧
      (e.after overtaken).pendingAt .stats "x" = 0 := by
  have hcheck : (ofConfig impatient).toOption.any (fun e =>
      decide (total (accepts .stats "x") e overtaken = 2) &&
        decide (total (takes .stats "x") e overtaken = 1) &&
          decide ((e.after overtaken).pendingAt .stats "x" = 0)) = true := by
    decide +kernel
  obtain ⟨e, he, hboth⟩ := exists_ofConfig hcheck
  simp only [Bool.and_eq_true, decide_eq_true_eq] at hboth
  exact ⟨e, he, hboth.1.1, hboth.1.2, hboth.2⟩

end Engine

end Rollup
