import Mathlib.Data.List.DropRight
import Rollup.Proofs.Store.Directory
import Rollup.Proofs.Synthetic.Plan

/-! When paths expire. One number of a record says either that synthetic adders need it or for how
many ticks in a row it has had nothing to take, and collection goes by this number alone. -/
namespace Rollup

namespace Record

theorem idle_takeAdder (limit : Nat) (r : Record) :
    (r.takeAdder limit).idle = IdleTicks.after r.pending r.idle := by
  unfold takeAdder
  simp only
  split
  · split <;> rfl
  · rfl

theorem takeAdder_of_pending {r : Record} (h : 0 < r.pending) (limit : Nat) :
    r.takeAdder limit = r.swap := by
  have htaken : r.swap.body.taken = r.pending := Body.taken_swap r.body
  unfold takeAdder
  simp only
  split
  · rename_i sides predictor hbody
    rw [hbody] at htaken
    exact if_pos (Nat.lt_of_lt_of_eq h htaken.symm)
  · rfl

theorem idle_reportAdder (settings : Settings) (nowMs : Nat) (r : Record) :
    (r.reportAdder settings nowMs).2.idle = r.idle := by
  unfold reportAdder
  simp only
  split
  · split <;> rfl
  · rfl
  · rfl

end Record

def lull (counts : List Nat) : Nat := (counts.rtakeWhile (· = 0)).length

theorem lull_concat (counts : List Nat) (n : Nat) :
    lull (counts ++ [n]) = if n = 0 then lull counts + 1 else 0 := by
  rw [lull, List.rtakeWhile_concat, lull]
  by_cases hn : n = 0 <;> simp [hn]

theorem lt_lull_iff {counts : List Nat} {t : Nat} :
    t < lull counts ↔ List.replicate (t + 1) 0 <:+ counts := by
  rw [← List.reverse_prefix, List.reverse_replicate, lull, List.rtakeWhile, List.length_reverse]
  generalize counts.reverse = newest
  induction newest generalizing t with
  | nil => simp
  | cons n rest ih =>
    rw [List.replicate_succ, List.cons_prefix_cons, List.takeWhile_cons]
    by_cases hn : n = 0
    · cases t with
      | zero => simp [hn]
      | succ t => simp [hn, ih]
    · simp [hn, Ne.symm hn]

namespace Store

/-- What the record of a handle counts, or will count from. -/
def idleAt (s : Store) (h : Handle) : IdleTicks := (s.get? h).elim (some 0) Record.idle

theorem idleAt_modify {f : Record → Record} (hf : ∀ r, (f r).idle = r.idle) (s : Store)
    (h : Handle) : (s.modify h f).idleAt = s.idleAt := by
  funext k
  unfold idleAt
  rw [get?_modify]
  split
  · cases s.get? k with
    | none => rfl
    | some r => exact hf r
  · rfl

theorem Revises.idleAt {s s' : Store} {f : Handle → Record → Record} (h : s.Revises s' f)
    (hf : ∀ k r, s.get? k = some r → (f k r).idle = r.idle) : s'.idleAt = s.idleAt := by
  funext k
  unfold Store.idleAt
  rw [h.get]
  cases hr : s.get? k with
  | none => rfl
  | some r => exact hf k r hr

theorem idleAt_insert {r : Record} (hr : r.idle = some 0) (s : Store) :
    (s.insert r).2.idleAt = s.idleAt := by
  funext k
  unfold idleAt
  rw [get?_insert]
  split
  · rename_i hk
    rw [hk, get?_eq_none (Nat.le_refl _)]
    exact hr
  · rfl

theorem isValid_of_linked_collect {s : Store} (hs : s.WellFormed) {kind : Kind}
    {expired : Record → Bool} {h : Handle}
    (hmem : h ∈ ((s.collect kind expired).2.table kind).handles) :
    (s.collect kind expired).2.isValid h = true := by
  have hcollects := collects kind expired hs
  obtain ⟨bucket, hchain⟩ := Table.mem_handles.mp hmem
  rw [hcollects.chain, List.mem_filter, decide_eq_true_eq, hcollects.mem] at hchain
  obtain ⟨hlinked, hkept⟩ := hchain
  have hhandles := Table.mem_handles.mpr ⟨bucket, hlinked⟩
  obtain ⟨r, hr, hkind⟩ := hs.kind_of_mem_handles hhandles
  have hvalid : r.valid = true ∧ expired r = false := by
    simpa using fun hgone => hkept ⟨hhandles, r, hr, hgone⟩
  rw [isValid, (revises_collect hs kind expired).get, hr, Option.map_some, Option.any_some,
    Record.expireIn, if_neg (by simp [hvalid.2]), hvalid.1]

end Store

theorem Call.tick_or_ne (call : Call) :
    (∃ nowMs took, call = .tick nowMs took) ∨ ∀ nowMs took, call ≠ .tick nowMs took := by
  cases call with
  | tick nowMs took => exact .inl ⟨nowMs, took, rfl⟩
  | _ => exact .inr fun _ _ heq => nomatch heq

namespace Engine

section Tick

variable {e : Engine} (nowMs : Nat) (took : Activity → Nat)

theorem idle_collected (c : CollectionConfig) (r : Record) : (collected c r).idle = r.idle := by
  unfold collected
  split <;> rfl

theorem isValid_of_linked_collectKinds {e : Engine} (he : e.WellFormed) {kinds : List Kind}
    {kind : Kind} (hkind : kind ∈ kinds) {h : Handle}
    (hmem : h ∈ ((kinds.foldl collectKind e).store.table kind).handles) :
    (kinds.foldl collectKind e).store.isValid h = true := by
  induction kinds generalizing e with
  | nil => cases hkind
  | cons first rest ih =>
    have hfirst := moves_collectKind he first
    by_cases hrest : kind ∈ rest
    · exact ih hfirst.wellFormed hrest hmem
    · -- The later collections do not touch the records of this kind.
      obtain rfl := (List.mem_cons.mp hkind).resolve_right hrest
      have hlater := (revises_collectKinds hfirst.wellFormed rest).2
      obtain ⟨bucket, hchain⟩ := Table.mem_handles.mp hmem
      have hlinked := Table.mem_handles.mpr ⟨bucket, (hlater.chain kind bucket).mem hchain⟩
      have hvalid := Store.isValid_of_linked_collect he.store hlinked
      obtain ⟨r, hr, rfl⟩ := hfirst.wellFormed.store.kind_of_mem_handles hlinked
      change (e.collectKind r.kind).store.isValid h = true at hvalid
      rw [Store.isValid, hr, Option.any_some] at hvalid
      rw [List.foldl_cons, Store.isValid, hlater.get, hr, Option.map_some, if_neg hrest,
        Option.any_some, hvalid]

/-- What the swap of a tick takes from a record, if a worker comes to it. What a predictor puts in
the place of a swap without updates comes later. -/
def taking (e : Engine) (h : Handle) : Option Nat :=
  (e.store.get? h).bind fun r => if e.covers r.kind r then some r.pending else none

theorem idle_computed (he : e.WellFormed) {h : Handle} {r : Record}
    (hr : e.store.get? h = some r) :
    ∃ r', (e.computed nowMs took).store.get? h = some r' ∧ r.Stays r' ∧
      (e.covers .adder r = false → r'.pending = r.pending) ∧
      r'.idle = if ∃ s ∈ (e.tick nowMs took).synthetics, some h ∈ s.sources then none
        else if e.covers .adder r then IdleTicks.after r.pending r.idle else r.idle := by
  obtain ⟨htaken, hswap⟩ := revises_taken nowMs he
  have hbound := htaken.wellFormed.bound
  rw [synthetics_taken] at hbound
  have hfirst : (e.taken nowMs).store.get? h =
      some (if e.covers .adder r then r.takeAdder e.settings.predictLimit else r) := by
    rw [hswap.get, hr, Option.map_some]
  have hstays : r.Stays (if e.covers .adder r then r.takeAdder e.settings.predictLimit else r) := by
    split
    · exact r.stays_takeAdder _
    · exact .refl r
  obtain ⟨middle, hmiddle, hidle⟩ :=
    (Synthetic.generateAll_spec htaken.wellFormed.store hbound).2 h _ hfirst
  obtain ⟨r', hr', hstays', hbody⟩ :=
    (Synthetic.generateAll_snd htaken.wellFormed.store hbound).2.get hfirst
  rw [hmiddle] at hr'
  cases hr'
  refine ⟨middle, ?_, hstays.trans hstays', fun hout => ?_, ?_⟩
  · rw [computed, store_runSynthetics, synthetics_taken, hmiddle]
  · rw [Record.pending, hbody, Body.pending_given, hout]
    rfl
  · rw [hidle, synthetics_tick]
    split
    · rfl
    · split
      · exact r.idle_takeAdder _
      · rfl

theorem idle_passed (he : e.WellFormed) {h : Handle} {r : Record} (hr : e.store.get? h = some r) :
    ∃ r', (e.passed nowMs took).store.get? h = some r' ∧ r.Stays r' ∧
      r'.idle = if ∃ s ∈ (e.tick nowMs took).synthetics, some h ∈ s.sources then none
        else if e.covers r.kind r then IdleTicks.after r.pending r.idle else r.idle := by
  obtain ⟨middle, hmiddle, hstays, hpending, hidle⟩ := idle_computed nowMs took he hr
  have hreport := (revises_tickAdders nowMs took he).2.get h
  have hpass := (revises_passed nowMs took he).2.get h
  rw [hmiddle, Option.map_some, covers_congr hstays] at hreport
  rw [hreport, Option.map_some] at hpass
  by_cases hkind : r.kind = .adder
  · -- The workers of the other kinds leave adders alone.
    have hthird : middle.Stays
        (if e.covers .adder r then (middle.reportAdder e.settings nowMs).2 else middle) ∧
        (if e.covers .adder r then (middle.reportAdder e.settings nowMs).2 else middle).idle =
          middle.idle := by
      split
      · exact ⟨middle.stays_reportAdder _ _, middle.idle_reportAdder _ _⟩
      · exact ⟨.refl middle, rfl⟩
    generalize (if e.covers .adder r then (middle.reportAdder e.settings nowMs).2 else middle) =
      third at hthird hpass
    have hsame := hstays.trans hthird.1
    rw [hsame.follows.kind, hkind, if_neg (by simp)] at hpass
    exact ⟨third, hpass, hsame, by rw [hthird.2, hidle, hkind]⟩
  · have hout : e.covers .adder r = false := by simp [covers, hkind]
    have hother : r.kind ∈ [Kind.gauge, .stats, .histogram] := by
      cases hcase : r.kind with
      | adder => exact absurd hcase hkind
      | _ => decide
    rw [hout, if_neg Bool.false_ne_true, hstays.follows.kind, covers_congr hstays] at hpass
    rw [hout, if_neg Bool.false_ne_true] at hidle
    simp only [hother, true_and] at hpass
    refine ⟨_, hpass, ?_, ?_⟩
    · split
      · exact hstays.trans middle.stays_swap
      · exact hstays
    · split
      · simp only [Record.swap, hpending hout, hidle]
        split <;> rfl
      · exact hidle

theorem idleAt_tick (he : e.WellFormed) (h : Handle) : (e.tick nowMs took).store.idleAt h =
    if ∃ s ∈ (e.tick nowMs took).synthetics, some h ∈ s.sources then none
    else (e.taking h).elim (e.store.idleAt h) fun n => IdleTicks.after n (e.store.idleAt h) := by
  have hpassed := (revises_passed nowMs took he).1
  have hcollect := revises_collect hpassed.wellFormed (took .collection)
  rw [← tick_eq] at hcollect
  rw [hcollect.idleAt fun k r _ => by split <;> simp only [idle_collected]]
  unfold taking Store.idleAt
  cases hr : e.store.get? h with
  | some r =>
    obtain ⟨r', hr', -, hidle⟩ := idle_passed nowMs took he hr
    rw [hr', Option.elim_some, hidle, Option.bind_some, Option.elim_some]
    split
    · rfl
    · split <;> rfl
  | none =>
    have habsent := absent_passed nowMs took he hr
    rw [habsent, if_neg]
    · rfl
    · rintro ⟨s, hs, hmem⟩
      obtain ⟨_, r, hr', -⟩ := ((moves_tick nowMs took he).wellFormed.bound s hs).linked.keeps hmem
      rw [hcollect.get, habsent] at hr'
      cases hr'

section Collection

variable (henable : e.settings.collection.enable = true)

include henable

theorem isValid_tick (he : e.WellFormed) {h : Handle} {r : Record} (hr : e.store.get? h = some r) :
    (e.tick nowMs took).store.isValid h = (r.valid && !((e.tick nowMs took).store.idleAt h).any
      fun ticks => decide (e.settings.collection.thresholdFor r.kind < ticks)) := by
  have hpassed := (revises_passed nowMs took he).1
  have hcollect := revises_collect hpassed.wellFormed (took .collection)
  rw [← tick_eq] at hcollect
  obtain ⟨r', hr', hstays, -⟩ := idle_passed nowMs took he hr
  rw [hcollect.idleAt fun k r _ => by split <;> simp only [idle_collected], Store.isValid,
    hcollect.get, Store.idleAt, hr', Option.map_some, Option.any_some, Option.elim_some,
    hpassed.settings, if_pos henable, collected, expired, hstays.follows.kind, ← hstays.valid]
  cases hvalid : r'.valid with
  | false => exact hvalid
  | true =>
    rw [Bool.true_and, Bool.true_and]
    cases r'.idle.any _ with
    | false => exact hvalid
    | true => rfl

theorem isValid_of_linked_tick (he : e.WellFormed) {kind : Kind} {h : Handle}
    (hmem : h ∈ ((e.tick nowMs took).store.table kind).handles) :
    (e.tick nowMs took).store.isValid h = true := by
  have hpassed := (revises_passed nowMs took he).1
  rw [tick_eq, collect, hpassed.settings, if_pos henable, store_measure] at hmem ⊢
  exact isValid_of_linked_collectKinds hpassed.wellFormed (Kind.mem_all kind) hmem

end Collection

end Tick

section Calls

variable {e : Engine}

theorem idleAt_getOrCreate (kind : Kind) (path : String) (e : Engine) :
    (e.getOrCreate kind path).2.store.idleAt = e.store.idleAt := by
  unfold getOrCreate
  split
  · rfl
  · exact Store.idleAt_insert rfl e.store

theorem idleAt_bindSynthetic (he : e.WellFormed) (definition : Definition) (h : Handle) :
    (e.bindSynthetic definition).2.store.idleAt h =
      if (e.bindSynthetic definition).1.target = h then none else e.store.idleAt h := by
  split
  · rename_i htarget
    obtain ⟨r, hr, -, -, -, hidle⟩ := pins_bindSynthetic he definition
    rw [Store.idleAt, ← htarget, hr]
    exact hidle
  · rename_i hother
    rw [← idleAt_getOrCreate .adder definition.target e]
    have hget : (e.bindSynthetic definition).2.store.get? h =
        (e.getOrCreate .adder definition.target).2.store.get? h :=
      (Store.get?_modify _ _ _ _).trans (if_neg (Ne.symm hother))
    rw [Store.idleAt, hget, Store.idleAt]

theorem idleAt_bindSynthetics (he : e.WellFormed) (definitions : List Definition) (h : Handle) :
    (e.bindSynthetics definitions).2.store.idleAt h =
      if ∃ s ∈ (e.bindSynthetics definitions).1, s.target = h then none
      else e.store.idleAt h := by
  induction definitions generalizing e with
  | nil => simp [bindSynthetics]
  | cons definition rest ih =>
    have hcreate := moves_getOrCreate he .adder definition.target
    have hfirst : (e.bindSynthetic definition).2.WellFormed :=
      (moves_modifyRecord hcreate.wellFormed _ fun r => r.stays_exempt).wellFormed
    have hsplit : (e.bindSynthetics (definition :: rest)) =
        ((e.bindSynthetic definition).1 :: ((e.bindSynthetic definition).2.bindSynthetics rest).1,
          ((e.bindSynthetic definition).2.bindSynthetics rest).2) := rfl
    rw [hsplit, ih hfirst, idleAt_bindSynthetic he]
    simp only [List.mem_cons, exists_eq_or_imp]
    by_cases hlater : ∃ s ∈ ((e.bindSynthetic definition).2.bindSynthetics rest).1, s.target = h
    · rw [if_pos hlater, if_pos (.inr hlater)]
    · simp only [hlater, if_false, or_false]

theorem idleAt_call (he : e.WellFormed) {call : Call}
    (hcall : ∀ nowMs took, call ≠ .tick nowMs took) :
    (e.call call).store.idleAt = e.store.idleAt := by
  have hlasting : Lasting fun e' => e'.store.idleAt = e.store.idleAt :=
    ⟨fun h _ => h, fun _ h _ _ _ => (Store.idleAt_insert rfl _).trans h,
      fun _ h k value adjustment =>
        (Store.idleAt_modify (f := Record.update value adjustment) (fun _ => rfl) _ k).trans h⟩
  refine hlasting.call he rfl call ?_ ?_ fun nowMs took htick => absurd htick (hcall nowMs took)
  · rintro kind path -
    exact (Store.revises_remove kind path).idleAt fun k r _ => by split <;> rfl
  · rintro blocks e' - hlayouts
    obtain ⟨layouts, rfl⟩ := reconfigure_eq hlayouts
    have hset : e.Moves (e.setLayouts layouts) := moves_of_same he rfl rfl rfl rfl
    exact (revises_retargetAll hset.wellFormed).idleAt fun k r _ => by split <;> rfl

def ticked : Engine → List Call → List Engine
  | _, [] => []
  | e, .tick nowMs took :: rest => e :: ticked (e.tick nowMs took) rest
  | e, call :: rest => ticked (e.call call) rest

theorem ticked_append (calls more : List Call) :
    e.ticked (calls ++ more) = e.ticked calls ++ (e.run calls).ticked more := by
  induction calls generalizing e with
  | nil => rfl
  | cons call rest ih => cases call <;> simp [ticked, run_cons, ih, Engine.call]

theorem ticked_of_ne (calls : List Call) {last : Call}
    (hlast : ∀ nowMs took, last ≠ .tick nowMs took) :
    e.ticked (calls ++ [last]) = e.ticked calls := by
  rw [ticked_append]
  cases last with
  | tick nowMs took => exact absurd rfl (hlast nowMs took)
  | _ => exact List.append_nil _

/-- The first tick at which a path has a record finds it, for all definitions. -/
def found (e : Engine) (calls : List Call) (path : String) : Option Handle :=
  (e.ticked calls).findSome? fun now => now.locate .adder path

def takings (e : Engine) (calls : List Call) (h : Handle) : List Nat :=
  (e.ticked calls).filterMap fun now => now.taking h

theorem found_tick (calls : List Call) (nowMs : Nat) (took : Activity → Nat) (path : String) :
    e.found (calls ++ [.tick nowMs took]) path =
      (e.found calls path).or ((e.run calls).locate .adder path) := by
  rw [found, ticked_append, List.findSome?_append, found]
  simp [ticked]

theorem takings_tick (calls : List Call) (nowMs : Nat) (took : Activity → Nat) (h : Handle) :
    e.takings (calls ++ [.tick nowMs took]) h =
      e.takings calls h ++ ((e.run calls).taking h).toList := by
  rw [takings, ticked_append, List.filterMap_append, takings]
  cases htaking : (e.run calls).taking h <;> simp [ticked, htaking]

/-- The record is the target of a definition, or a source that a tick has found. -/
def Reserved (e : Engine) (calls : List Call) (h : Handle) : Prop :=
  ∃ d target, (d, target) ∈ e.plan ∧ (target = h ∨ ∃ path ∈ d.sources, e.found calls path = some h)

theorem Reserved.append {calls : List Call} {h : Handle} (hreserved : e.Reserved calls h)
    (more : List Call) : e.Reserved (calls ++ more) h := by
  obtain ⟨d, target, hplan, hcase⟩ := hreserved
  refine ⟨d, target, hplan, hcase.imp_right ?_⟩
  rintro ⟨path, hpath, hfound⟩
  rw [found] at hfound
  exact ⟨path, hpath, by rw [found, ticked_append, List.findSome?_append, hfound, Option.some_or]⟩

theorem synthetics_call (he : e.WellFormed) {call : Call}
    (hcall : ∀ nowMs took, call ≠ .tick nowMs took) : (e.call call).synthetics = e.synthetics := by
  have hlasting : Lasting fun e' => e'.synthetics = e.synthetics :=
    ⟨fun h _ => h, fun _ h _ _ _ => h, fun _ h _ _ _ => h⟩
  refine hlasting.call he rfl call (fun kind path _ => rfl) ?_ fun nowMs took htick =>
    absurd htick (hcall nowMs took)
  rintro blocks e' - hlayouts
  obtain ⟨layouts, rfl⟩ := reconfigure_eq hlayouts
  rfl

variable {c : EngineConfig}

theorem sources_run (h : ofConfig c = .ok e) (calls : List Call) :
    ∀ s ∈ (e.run calls).synthetics, s.sources = s.definition.sources.map (e.found calls) := by
  have he := (ofConfig_sound h).1
  induction calls using List.reverseRecOn with
  | nil =>
    intro s hs
    have hnone : ∀ slot ∈ s.sources, slot = none := fun slot hslot =>
      Option.eq_none_iff_forall_ne_some.mpr fun k hk => unfound_ofConfig h s hs k (hk ▸ hslot)
    rw [List.eq_replicate_of_mem hnone, ← (he.bound s hs).linked.length_eq]
    exact List.map_const'.symm
  | append_singleton calls last ih =>
    have hrun := (leads_run he calls).wellFormed
    rw [run_snoc]
    rcases last.tick_or_ne with ⟨nowMs, took, rfl⟩ | hne
    · intro s' hs'
      obtain ⟨s, hs, hdefinition, -, hsources⟩ := (exists_completes hrun nowMs took).2 s' hs'
      rw [hsources, ih s hs, hdefinition, Synthetic.filled, List.zipWith_map_right,
        List.zipWith_self]
      exact List.map_congr_left fun path _ => (found_tick calls nowMs took path).symm
    · unfold found
      rw [synthetics_call hrun hne, ticked_of_ne calls hne]
      exact ih

theorem reserved_iff (h : ofConfig c = .ok e) (calls : List Call) (k : Handle) :
    e.Reserved calls k ↔ (∃ s ∈ e.synthetics, s.target = k) ∨
      ∃ s ∈ (e.run calls).synthetics, some k ∈ s.sources := by
  have hplan : (e.run calls).plan = e.plan := plan_run (ofConfig_sound h).1 calls
  constructor
  · rintro ⟨d, target, hmem, htarget | ⟨path, hpath, hfound⟩⟩
    · obtain ⟨s, hs, heq⟩ := List.mem_map.mp hmem
      cases heq
      exact .inl ⟨s, hs, htarget⟩
    · rw [← hplan] at hmem
      obtain ⟨s, hs, heq⟩ := List.mem_map.mp hmem
      cases heq
      refine .inr ⟨s, hs, ?_⟩
      rw [sources_run h calls s hs]
      exact List.mem_map.mpr ⟨path, hpath, hfound⟩
  · rintro (⟨s, hs, htarget⟩ | ⟨s, hs, hsource⟩)
    · exact ⟨s.definition, s.target, List.mem_map.mpr ⟨s, hs, rfl⟩, .inl htarget⟩
    · rw [sources_run h calls s hs] at hsource
      refine ⟨s.definition, s.target, ?_, .inr (List.mem_map.mp hsource)⟩
      rw [← hplan]
      exact List.mem_map.mpr ⟨s, hs, rfl⟩

theorem idleAt_ofConfig (h : ofConfig c = .ok e) (k : Handle) :
    e.store.idleAt k = if ∃ s ∈ e.synthetics, s.target = k then none else some 0 := by
  obtain ⟨settings, checks, layouts, definitions, hparts, rfl⟩ := ofConfig_eq h
  exact idleAt_bindSynthetics (unbound_ofConfig hparts.settings checks layouts) _ k

/-- The number of a record after a run: the swaps at its end that took nothing. -/
theorem idleAt_run (h : ofConfig c = .ok e) (calls : List Call) (k : Handle) :
    (e.Reserved calls k → (e.run calls).store.idleAt k = none) ∧
      (¬ e.Reserved calls k → (e.run calls).store.idleAt k = some (lull (e.takings calls k))) := by
  have he := (ofConfig_sound h).1
  induction calls using List.reverseRecOn with
  | nil =>
    have hnew := idleAt_ofConfig h k
    rw [reserved_iff h]
    constructor
    · rintro (htarget | ⟨s, hs, hmem⟩)
      · exact hnew.trans (if_pos htarget)
      · exact absurd hmem (unfound_ofConfig h s hs k)
    · exact fun hnot => hnew.trans (if_neg fun htarget => hnot (.inl htarget))
  | append_singleton calls last ih =>
    have hrun := (leads_run he calls).wellFormed
    rw [run_snoc]
    rcases last.tick_or_ne with ⟨nowMs, took, rfl⟩ | hne
    · have htick := idleAt_tick nowMs took hrun k
      have hreserved := reserved_iff h (calls ++ [.tick nowMs took]) k
      rw [run_tick] at hreserved
      simp only [Engine.call]
      by_cases hsource : ∃ s ∈ ((e.run calls).tick nowMs took).synthetics, some k ∈ s.sources
      · rw [if_pos hsource] at htick
        exact ⟨fun _ => htick, fun hnot => absurd (hreserved.mpr (.inr hsource)) hnot⟩
      · rw [if_neg hsource] at htick
        rw [htick]
        constructor
        · intro hnow
          have htarget := (hreserved.mp hnow).resolve_right hsource
          rw [ih.1 ((reserved_iff h calls k).mpr (.inl htarget))]
          cases (e.run calls).taking k <;> rfl
        · intro hnot
          rw [ih.2 fun hbefore => hnot (hbefore.append _), takings_tick]
          cases (e.run calls).taking k with
          | none => rw [Option.elim_none, Option.toList_none, List.append_nil]
          | some n =>
            rw [Option.elim_some, Option.toList_some, lull_concat]
            rfl
    · simp only [idleAt_call hrun hne, Reserved, found, takings, ticked_of_ne calls hne]
      exact ih

/-- With collection enabled, a tick unlinks a record exactly if it is invalid, or if no definition
has reserved it and its last swaps, one more than the threshold of its kind, all took nothing. From
the tick on that finds it as a source, a record stays reserved. A swap that took nothing counts as
such also if a prediction stands in for it. -/
theorem unlinked_by_tick_iff (h : ofConfig c = .ok e)
    (henable : e.settings.collection.enable = true) (calls : List Call) (nowMs : Nat)
    (took : Activity → Nat) {kind : Kind} {k : Handle}
    (hlinked : k ∈ ((e.run calls).store.table kind).handles) :
    let run := calls ++ [.tick nowMs took]
    (k ∉ ((e.run run).store.table kind).handles ↔ (e.run calls).store.isValid k = false ∨
      ¬ e.Reserved run k ∧
        List.replicate (e.settings.collection.thresholdFor kind + 1) 0 <:+ e.takings run k) ∧
    (∀ before, before <+: run → e.Reserved before k → (e.run calls).store.isValid k = true →
      k ∈ ((e.run run).store.table kind).handles) ∧
    ∀ now ∈ e.ticked run, ∀ r, now.store.get? k = some r → now.covers .adder r = true →
      r.takeAdder now.settings.predictLimit ≠ r.swap → now.taking k = some 0 := by
  intro run
  have hleads := leads_run (ofConfig_sound h).1 calls
  have hrun := hleads.wellFormed
  have hrunTick : e.run run = (e.run calls).tick nowMs took := e.run_tick calls nowMs took
  rw [← hleads.settings] at henable
  obtain ⟨r, hr, rfl⟩ := hrun.store.kind_of_mem_handles hlinked
  have hvalid : (e.run calls).store.isValid k = r.valid := by
    rw [Store.isValid, hr, Option.any_some]
  have hiff : k ∉ ((e.run run).store.table r.kind).handles ↔ (e.run calls).store.isValid k = false ∨
      ¬ e.Reserved run k ∧
        List.replicate (e.settings.collection.thresholdFor r.kind + 1) 0 <:+ e.takings run k := by
    have hunlinked : k ∉ ((e.run run).store.table r.kind).handles ↔
        (e.run run).store.isValid k = false := by
      rw [← Bool.not_eq_true, not_iff_not, hrunTick]
      refine ⟨isValid_of_linked_tick nowMs took henable hrun, fun hnow => ?_⟩
      have hmoves := moves_tick nowMs took hrun
      obtain ⟨r', hr', hfollows⟩ := hmoves.evolves k r hr
      rw [Store.isValid, hr', Option.any_some] at hnow
      exact hfollows.kind ▸ hmoves.wellFormed.store.mem_handles_of_valid hr' hnow
    have hexpired : (e.run run).store.isValid k = (r.valid && !((e.run run).store.idleAt k).any
        fun ticks => decide (e.settings.collection.thresholdFor r.kind < ticks)) := by
      rw [hrunTick, isValid_tick nowMs took henable hrun hr, hleads.settings]
    obtain ⟨hreserved, hcounted⟩ := idleAt_run h run k
    rw [hunlinked, hexpired, hvalid, ← lt_lull_iff]
    by_cases hnow : e.Reserved run k
    · simp [hreserved hnow, hnow]
    · simp only [hcounted hnow, hnow, Option.any_some]
      cases r.valid <;> simp
  refine ⟨hiff, ?_, ?_⟩
  · rintro before ⟨rest, hrest⟩ hreserved hnow
    by_contra hgone
    rcases hiff.mp hgone with hinvalid | ⟨hnot, -⟩
    · rw [hinvalid] at hnow
      cases hnow
    · exact hnot (hrest ▸ hreserved.append rest)
  · intro now _ r hr hcovers hsubstituted
    have hkind : r.kind = .adder := by
      simp only [covers, Bool.and_eq_true, beq_iff_eq] at hcovers
      exact hcovers.1.2
    have hpending : r.pending = 0 := by
      by_contra htook
      exact hsubstituted (r.takeAdder_of_pending (Nat.pos_of_ne_zero htook) _)
    rw [taking, hr, Option.bind_some, hkind, if_pos hcovers, hpending]

end Calls

def forgetful : EngineConfig := compact { collection := { enable := true, threshold := 1 } }

theorem unlinked_by_tick_iff_forgetful : ∃ e k, ofConfig forgetful = .ok e ∧
    e.settings.collection.enable = true ∧
    let calls := [point "a" 5, pause 1000, pause 2000]
    k ∈ ((e.run calls).store.table .adder).handles ∧
      k ∉ ((e.run (calls ++ [pause 3000])).store.table .adder).handles ∧
      List.replicate (e.settings.collection.thresholdFor .adder + 1) 0 <:+
        e.takings (calls ++ [pause 3000]) k := by
  have hcheck : (ofConfig forgetful).toOption.any (fun e =>
      let now := e.run [point "a" 5, pause 1000, pause 2000]
      let after := e.run [point "a" 5, pause 1000, pause 2000, pause 3000]
      e.settings.collection.enable && (now.locate .adder "a").any fun k =>
        decide (k ∈ (now.store.table .adder).handles) && now.store.isValid k &&
          decide (k ∉ (after.store.table .adder).handles)) = true := by
    decide +kernel
  obtain ⟨e, he, hboth⟩ := exists_ofConfig hcheck
  obtain ⟨henable, hany⟩ := Bool.and_eq_true_iff.mp hboth
  obtain ⟨k, -, hk⟩ := (Option.any_eq_true _ _).mp hany
  simp only [Bool.and_eq_true, decide_eq_true_eq] at hk
  obtain ⟨⟨hlinked, hvalid⟩, hgone⟩ := hk
  have hiff := (unlinked_by_tick_iff he henable [point "a" 5, pause 1000, pause 2000] 3000
    (fun _ => 0) hlinked).1
  rcases hiff.mp hgone with hinvalid | ⟨-, hidle⟩
  · rw [hinvalid] at hvalid
    cases hvalid
  · exact ⟨e, k, he, henable, hlinked, hgone, hidle⟩

end Engine

end Rollup
