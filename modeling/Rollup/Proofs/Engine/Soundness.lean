import Rollup.Engine.Ingest
import Rollup.Engine.Tick
import Rollup.Proofs.Store.Shards
import Rollup.Proofs.Synthetic.Evaluation

/-! What the operations of an engine keep: a well-formed store, workers that part the records of
their kind, and synthetic adders that hold the records of their sources. -/
namespace Rollup

def Worker.place (w : Worker) : Kind × Nat × Nat := (w.kind, w.id, w.shards)

namespace Engine

def staff (e : Engine) (kind : Kind) : List (Kind × Nat × Nat) :=
  (e.workers.get kind).map Worker.place

def crew (e : Engine) (kind : Kind) : Nat := (e.staff kind).length

structure WellFormed (e : Engine) : Prop where
  store : e.store.WellFormed
  staffed : ∀ kind, e.staff kind = (List.range (e.crew kind)).map fun id => (kind, id, e.crew kind)
  bound : ∀ s ∈ e.synthetics, s.Bound e.store
  computing : e.synthetics ≠ [] → 0 < e.crew .adder

structure Leads (e e' : Engine) : Prop where
  wellFormed : e'.WellFormed
  settings : e'.settings = e.settings
  staff : ∀ kind, e'.staff kind = e.staff kind
  evolves : e.store.Evolves e'.store

/-- A later engine if nothing was removed: exempt records are still valid, and whatever became a
source in between is. -/
structure Moves (e e' : Engine) : Prop extends e.Leads e' where
  spares : ∀ h r r', e.store.get? h = some r → e'.store.get? h = some r' → r.idle = none →
    r'.valid = r.valid
  source : ∀ s' ∈ e'.synthetics, ∀ h, some h ∈ s'.sources →
    (∃ s ∈ e.synthetics, some h ∈ s.sources) ∨ e'.store.isValid h = true

theorem Leads.refl {e : Engine} (he : e.WellFormed) : e.Leads e :=
  ⟨he, rfl, fun _ => rfl, .refl e.store⟩

theorem Leads.trans {e e' e'' : Engine} (h : e.Leads e') (h' : e'.Leads e'') : e.Leads e'' :=
  ⟨h'.wellFormed, h'.settings.trans h.settings, fun kind => (h'.staff kind).trans (h.staff kind),
    h.evolves.trans h'.evolves⟩

theorem Leads.crew {e e' : Engine} (h : e.Leads e') (kind : Kind) : e'.crew kind = e.crew kind := by
  rw [Engine.crew, h.staff, Engine.crew]

theorem Moves.refl {e : Engine} (he : e.WellFormed) : e.Moves e where
  toLeads := .refl he
  spares h r r' hr hr' _ := by rw [hr] at hr'; cases hr'; rfl
  source s hs h hmem := .inl ⟨s, hs, hmem⟩

theorem Moves.trans {e e' e'' : Engine} (h : e.Moves e') (h' : e'.Moves e'') : e.Moves e'' where
  toLeads := h.toLeads.trans h'.toLeads
  spares k r r'' hr hr'' hidle := by
    obtain ⟨r', hr', hfollows⟩ := h.evolves k r hr
    rw [h'.spares k r' r'' hr' hr'' (hfollows.exempt hidle), h.spares k r r' hr hr' hidle]
  source s'' hs'' k hmem := by
    rcases h'.source s'' hs'' k hmem with ⟨s', hs', hmem'⟩ | hvalid
    · rcases h.source s' hs' k hmem' with hold | hvalid
      · exact .inl hold
      · obtain ⟨-, r', hr', -, -, hidle⟩ := (h.wellFormed.bound s' hs').linked.keeps hmem'
        obtain ⟨r'', hr'', -⟩ := h'.evolves k r' hr'
        refine .inr ?_
        rw [Store.isValid, hr', Option.any_some] at hvalid
        rw [Store.isValid, hr'', Option.any_some, h'.spares k r' r'' hr' hr'' hidle, hvalid]
    · exact .inr hvalid

section Same

variable {e e' : Engine}

theorem moves_of_revises (he : e.WellFormed) {f : Handle → Record → Record}
    (hstore : e.store.Revises e'.store f)
    (hspares : ∀ h r, e.store.get? h = some r → r.idle = none → (f h r).valid = r.valid)
    (hsettings : e'.settings = e.settings) (hstaff : ∀ kind, e'.staff kind = e.staff kind)
    (hsynthetics : e'.synthetics = e.synthetics) : e.Moves e' where
  wellFormed :=
    { store := hstore.wellFormed he.store
      staffed := fun kind => by
        rw [show e'.crew kind = e.crew kind from congrArg List.length (hstaff kind), hstaff]
        exact he.staffed kind
      bound := fun s hs => (he.bound s (hsynthetics ▸ hs)).evolves hstore.evolves
      computing := fun hne => by
        rw [crew, hstaff]
        exact he.computing (hsynthetics ▸ hne) }
  settings := hsettings
  staff := hstaff
  evolves := hstore.evolves
  spares h r r' hr hr' hidle := by
    obtain ⟨old, hold, rfl, -⟩ := hstore.before hr'
    rw [hr] at hold
    cases hold
    exact hspares h r hr hidle
  source s hs h hmem := .inl ⟨s, hsynthetics ▸ hs, hmem⟩

theorem moves_of_same (he : e.WellFormed) (hstore : e'.store = e.store)
    (hsettings : e'.settings = e.settings) (hworkers : e'.workers = e.workers)
    (hsynthetics : e'.synthetics = e.synthetics) : e.Moves e' :=
  moves_of_revises he (hstore ▸ .refl e.store) (fun _ _ _ _ => rfl) hsettings
    (fun kind => by rw [staff, hworkers, staff]) hsynthetics

end Same

@[simp] theorem store_measure (signal : Signal) (e : Engine) : (e.measure signal).store = e.store :=
  rfl

theorem moves_measure {e : Engine} (he : e.WellFormed) (signal : Signal) :
    e.Moves (e.measure signal) :=
  moves_of_same he rfl rfl rfl rfl

theorem moves_measureAll {e : Engine} (he : e.WellFormed) (signals : List Signal) :
    e.Moves (e.measureAll signals) := by
  induction signals generalizing e with
  | nil => exact .refl he
  | cons signal rest ih =>
    have hfirst := moves_measure he signal
    exact hfirst.trans (ih hfirst.wellFormed)

theorem foldl_keeps {α β : Type} (view : Engine → β) (act : Engine → α → Engine)
    (hact : ∀ e a, view (act e a) = view e) (as : List α) (e : Engine) :
    view (as.foldl act e) = view e := by
  induction as generalizing e with
  | nil => rfl
  | cons a rest ih => exact (ih (act e a)).trans (hact e a)

@[simp] theorem store_measureAll (signals : List Signal) (e : Engine) :
    (e.measureAll signals).store = e.store :=
  foldl_keeps Engine.store (flip measure) (fun _ _ => rfl) signals e

theorem moves_modifyRecord {e : Engine} (he : e.WellFormed) (h : Handle) {f : Record → Record}
    (hf : ∀ r, Record.Stays r (f r)) : e.Moves (e.modifyRecord h f) :=
  moves_of_revises he (e.store.revises_modify h f fun r _ => (hf r).follows)
    (fun k r _ _ => by
      split
      · exact (hf r).valid
      · rfl)
    rfl (fun _ => rfl) rfl

theorem get?_modifyRecord (e : Engine) (h : Handle) (f : Record → Record) (k : Handle) :
    (e.modifyRecord h f).store.get? k =
      if k = h then (e.store.get? k).map f else e.store.get? k :=
  Store.get?_modify _ _ _ _

theorem get?_insert (e : Engine) (kind : Kind) (path : String) (layout : Layout) (k : Handle) :
    (e.insert kind path layout).2.store.get? k =
      if k = e.store.records.size then some (e.newRecord kind path layout)
      else e.store.get? k :=
  Store.get?_insert _ _ _

theorem size_insert (e : Engine) (kind : Kind) (path : String) (layout : Layout) (other : Kind) :
    ((e.insert kind path layout).2.store.table other).size = (e.store.table other).size :=
  Store.size_table_insert _ _ _

section GetOrCreate

variable {e : Engine} {kind : Kind} {path : String}

theorem fresh_newRecord (he : e.WellFormed) (habsent : e.store.locate kind path = none)
    (layout : Layout) : e.store.Fresh (e.newRecord kind path layout) where
  valid := rfl
  hash := rfl
  absent := by
    rw [show (e.newRecord kind path layout).kind = kind from Body.kind_empty _ _ kind]
    exact he.store.locate_eq_none_iff.mp habsent

theorem moves_insert (he : e.WellFormed) (habsent : e.store.locate kind path = none)
    (layout : Layout) : e.Moves (e.insert kind path layout).2 where
  wellFormed :=
    { store := (fresh_newRecord he habsent layout).wellFormed he.store
      staffed := he.staffed
      bound := fun s hs => (he.bound s hs).evolves (Store.Fresh.evolves _ _)
      computing := he.computing }
  settings := rfl
  staff _ := rfl
  evolves := Store.Fresh.evolves _ _
  spares h r r' hr hr' _ := by
    have hold : (e.insert kind path layout).2.store.get? h = some r :=
      Store.get?_insert_of_some hr _
    rw [hold] at hr'
    cases hr'
    rfl
  source s hs h hmem := .inl ⟨s, hs, hmem⟩

theorem moves_getOrCreate (he : e.WellFormed) (kind : Kind) (path : String) :
    e.Moves (e.getOrCreate kind path).2 := by
  unfold getOrCreate
  cases habsent : e.store.locate kind path with
  | some h => exact .refl he
  | none => exact moves_insert he habsent _

theorem holds_getOrCreate (he : e.WellFormed) (kind : Kind) (path : String) :
    (e.getOrCreate kind path).2.store.Holds kind path (e.getOrCreate kind path).1 := by
  unfold getOrCreate
  cases habsent : e.store.locate kind path with
  | some h => exact he.store.locate_eq_some_iff.mp habsent
  | none =>
    have hnew : (e.store.insert (e.newRecord kind path (e.layoutFor kind path))).2.get?
        e.store.records.size = some (e.newRecord kind path (e.layoutFor kind path)) := by
      rw [Store.get?_insert, if_pos rfl]
    exact ⟨_, hnew, rfl, Body.kind_empty _ _ kind, rfl⟩

theorem get?_getOrCreate (e : Engine) (kind : Kind) (path : String) (k : Handle) :
    (e.getOrCreate kind path).2.store.get? k = e.store.get? k ∨
      (k = (e.getOrCreate kind path).1 ∧ e.store.get? k = none ∧ e.store.locate kind path = none ∧
        (e.getOrCreate kind path).2.store.get? k =
          some (e.newRecord kind path (e.layoutFor kind path))) := by
  unfold getOrCreate
  cases habsent : e.store.locate kind path with
  | some h => exact .inl rfl
  | none =>
    by_cases hk : k = e.store.records.size
    · refine .inr ⟨hk, Store.get?_eq_none (Nat.le_of_eq hk.symm), rfl, ?_⟩
      exact (Store.get?_insert _ _ _).trans (if_pos hk)
    · exact .inl ((Store.get?_insert _ _ _).trans (if_neg hk))

end GetOrCreate

section Calls

variable {e : Engine}

theorem moves_accept (he : e.WellFormed) (p : Point) : e.Moves (e.accept p) := by
  have hcreate := moves_getOrCreate he p.kind p.path
  exact hcreate.trans (moves_modifyRecord hcreate.wellFormed _ fun r => r.stays_update _ _)

theorem moves_updateRecord (he : e.WellFormed) {h : Handle} {value : Float}
    {adjustment : Adjustment} {e' : Engine} (h' : e.updateRecord h value adjustment = .ok e') :
    e.Moves e' := by
  unfold updateRecord at h'
  split at h'
  · cases h'
  · cases h'
    exact moves_modifyRecord he h fun r => r.stays_update value adjustment

theorem revises_retargetAll (he : e.WellFormed) :
    e.store.Revises e.retargetAll.store fun h r =>
      if h ∈ e.store.valid .histogram then r.retarget (e.layouts.resolve r.path) else r :=
  Store.revises_modifyAll _ (Store.shard_nodup he.store .histogram Nat.one_pos 0) _
    fun _ _ r _ => (r.stays_retarget _).follows

theorem reconfigure_eq {blocks : List BlockConfig} {e' : Engine}
    (h : e.reconfigure blocks = .ok e') : ∃ layouts, e' = (e.setLayouts layouts).retargetAll := by
  unfold reconfigure at h
  cases hlayouts : LayoutSet.ofConfig blocks with
  | error cause => rw [hlayouts] at h; cases h
  | ok layouts =>
    rw [hlayouts] at h
    cases h
    exact ⟨layouts, rfl⟩

theorem moves_retargetAll (he : e.WellFormed) : e.Moves e.retargetAll := by
  refine moves_of_revises he (revises_retargetAll he) ?_ rfl (fun _ => rfl) rfl
  intro k r _ _
  split
  · exact (r.stays_retarget _).valid
  · rfl

theorem moves_reconfigure (he : e.WellFormed) {blocks : List BlockConfig} {e' : Engine}
    (h : e.reconfigure blocks = .ok e') : e.Moves e' := by
  obtain ⟨layouts, rfl⟩ := reconfigure_eq h
  have hset : e.Moves (e.setLayouts layouts) := moves_of_same he rfl rfl rfl rfl
  exact hset.trans (moves_retargetAll hset.wellFormed)

theorem get?_remove (e : Engine) (kind : Kind) (path : String) (k : Handle) :
    (e.remove kind path).2.store.get? k =
      if e.locate kind path = some k then (e.store.get? k).map Record.invalidate
      else e.store.get? k := by
  unfold remove Store.remove locate
  cases hlocate : e.store.locate kind path with
  | none => simp
  | some h => simp only [Store.get?_modify, Option.some.injEq, eq_comm]

theorem leads_remove (he : e.WellFormed) (kind : Kind) (path : String) :
    e.Leads (e.remove kind path).2 := by
  unfold remove Store.remove
  cases hlocate : e.store.locate kind path with
  | none => exact .refl he
  | some h =>
    have hstore := e.store.revises_modify h Record.invalidate fun r _ => r.follows_invalidate
    exact
      { wellFormed :=
          { store := hstore.wellFormed he.store
            staffed := he.staffed
            bound := fun s hs => (he.bound s hs).evolves hstore.evolves
            computing := he.computing }
        settings := rfl
        staff := fun _ => rfl
        evolves := hstore.evolves }

end Calls

def NewBody (settings : Settings) (body : Body) : Prop :=
  ∃ layout predictor kind, body = .empty layout predictor kind ∧
    ∀ p ∈ predictor, p = Predictor.empty settings.predictSize

theorem newBody_newRecord (e : Engine) (kind : Kind) (path : String) (layout : Layout) :
    NewBody e.settings (e.newRecord kind path layout).body := by
  refine ⟨_, _, kind, rfl, fun p hp => ?_⟩
  split at hp
  · exact (Option.some.inj hp).symm
  · cases hp

section OfConfig

def unbound (settings : Settings) (checks : CheckSelections) (layouts : LayoutSet) : Engine :=
  { settings := settings, checks := checks, layouts := layouts,
    store := .empty fun kind => (settings.kind kind).tableSize,
    workers := .ofFn (Worker.createAll settings), synthetics := [], signals := #[] }

theorem crew_unbound (settings : Settings) (checks : CheckSelections) (layouts : LayoutSet)
    (kind : Kind) : (unbound settings checks layouts).crew kind =
      if (settings.kind kind).enable then (settings.kind kind).threads else 0 := by
  unfold crew staff unbound Worker.createAll
  rw [PerKind.get_ofFn]
  simp only
  split <;> simp

theorem wellFormed_unbound {settings : Settings} (checks : CheckSelections) (layouts : LayoutSet)
    (hsize : ∀ kind, 0 < (settings.kind kind).tableSize) :
    (unbound settings checks layouts).WellFormed where
  store := Store.wellFormed_empty _ hsize
  staffed kind := by
    rw [crew_unbound]
    unfold staff unbound Worker.createAll
    rw [PerKind.get_ofFn]
    simp only
    split
    · rw [List.map_map]
      rfl
    · rfl
  bound s hs := nomatch hs
  computing hne := absurd rfl hne

variable {e : Engine}

theorem moves_bindSynthetics (he : e.WellFormed) (definitions : List Definition) :
    e.Moves (e.bindSynthetics definitions).2 := by
  induction definitions generalizing e with
  | nil => exact .refl he
  | cons definition rest ih =>
    have hcreate := moves_getOrCreate he .adder definition.target
    have hfirst : e.Moves (e.bindSynthetic definition).2 :=
      hcreate.trans (moves_modifyRecord hcreate.wellFormed _ fun r => r.stays_exempt)
    exact hfirst.trans (ih hfirst.wellFormed)

theorem bound_bindSynthetics (definitions : List Definition) (e : Engine) (store : Store) :
    ∀ s ∈ (e.bindSynthetics definitions).1, s.Bound store := by
  induction definitions generalizing e with
  | nil => exact fun s hs => nomatch hs
  | cons definition rest ih =>
    intro s hs
    rcases List.mem_cons.mp hs with rfl | hs
    · exact Synthetic.bound_bind definition _ store
    · exact ih _ s hs

theorem unfound_bindSynthetics (definitions : List Definition) (e : Engine) (h : Handle) :
    ∀ s ∈ (e.bindSynthetics definitions).1, some h ∉ s.sources := by
  induction definitions generalizing e with
  | nil => exact fun s hs => nomatch hs
  | cons definition rest ih =>
    intro s hs
    rcases List.mem_cons.mp hs with rfl | hs
    · intro hmem
      obtain ⟨_, -, hslot⟩ := List.mem_map.mp hmem
      cases hslot
    · exact ih _ s hs

theorem newBody_bindSynthetics (definitions : List Definition)
    (hnew : ∀ h r, e.store.get? h = some r → NewBody e.settings r.body)
    (he : e.WellFormed) (h : Handle) (r : Record)
    (hr : (e.bindSynthetics definitions).2.store.get? h = some r) :
    NewBody e.settings r.body := by
  induction definitions generalizing e with
  | nil => exact hnew h r hr
  | cons definition rest ih =>
    have hcreate := moves_getOrCreate he .adder definition.target
    have hfirst : e.Moves (e.bindSynthetic definition).2 :=
      hcreate.trans (moves_modifyRecord hcreate.wellFormed _ fun r => r.stays_exempt)
    rw [← hfirst.settings]
    refine ih ?_ hfirst.wellFormed hr
    intro k r' hr'
    rw [hfirst.settings]
    have hget : (e.bindSynthetic definition).2.store.get? k =
        if k = (e.getOrCreate .adder definition.target).1
        then ((e.getOrCreate .adder definition.target).2.store.get? k).map Record.exempt
        else (e.getOrCreate .adder definition.target).2.store.get? k := Store.get?_modify _ _ _ _
    -- Exempting a record does not change its body.
    obtain ⟨old, hold, hbody⟩ : ∃ old, (e.getOrCreate .adder definition.target).2.store.get? k =
        some old ∧ r'.body = old.body := by
      rw [hget] at hr'
      split at hr'
      · obtain ⟨old, hold, rfl⟩ := Option.map_eq_some_iff.mp hr'
        exact ⟨old, hold, rfl⟩
      · exact ⟨r', hr', rfl⟩
    rw [hbody]
    rcases get?_getOrCreate e .adder definition.target k with hsame | ⟨-, -, -, hadded⟩
    · rw [hsame] at hold
      exact hnew k old hold
    · rw [hadded] at hold
      cases hold
      exact newBody_newRecord e _ _ _

structure Parts (c : EngineConfig) (settings : Settings) (checks : CheckSelections)
    (layouts : LayoutSet) (definitions : List Definition) : Prop where
  valid : c.validate = .ok ()
  settings : Settings.ofConfig c = .ok settings
  layouts : LayoutSet.ofConfig c.histograms = .ok layouts
  checks : CheckSelections.ofConfig c = .ok checks
  definitions : Definition.ofConfigs 0 c.synthetics = .ok definitions

def assembled (settings : Settings) (checks : CheckSelections) (layouts : LayoutSet)
    (definitions : List Definition) : Engine :=
  let bound := (unbound settings checks layouts).bindSynthetics
    (activeDefinitions settings definitions)
  { bound.2 with synthetics := bound.1 }

theorem Parts.ofConfig {c : EngineConfig} {settings : Settings} {checks : CheckSelections}
    {layouts : LayoutSet} {definitions : List Definition}
    (h : Parts c settings checks layouts definitions) :
    ofConfig c = .ok (assembled settings checks layouts definitions) := by
  unfold Engine.ofConfig
  rw [h.valid, h.settings, h.layouts, h.checks, h.definitions]
  rfl

theorem ofConfig_eq {c : EngineConfig} (h : ofConfig c = .ok e) :
    ∃ settings checks layouts definitions, Parts c settings checks layouts definitions ∧
      e = assembled settings checks layouts definitions := by
  unfold ofConfig at h
  cases hvalid : c.validate with
  | error cause => rw [hvalid] at h; cases h
  | ok _ =>
  cases hsettings : Settings.ofConfig c with
  | error cause => rw [hvalid, hsettings] at h; cases h
  | ok settings =>
  cases hlayouts : LayoutSet.ofConfig c.histograms with
  | error cause => rw [hvalid, hsettings, hlayouts] at h; cases h
  | ok layouts =>
  cases hchecks : CheckSelections.ofConfig c with
  | error cause => rw [hvalid, hsettings, hlayouts, hchecks] at h; cases h
  | ok checks =>
  cases hdefinitions : Definition.ofConfigs 0 c.synthetics with
  | error cause => rw [hvalid, hsettings, hlayouts, hchecks, hdefinitions] at h; cases h
  | ok definitions =>
    rw [hvalid, hsettings, hlayouts, hchecks, hdefinitions] at h
    cases h
    exact ⟨settings, checks, layouts, definitions,
      ⟨hvalid, hsettings, hlayouts, hchecks, hdefinitions⟩, rfl⟩

theorem kind_ofConfig {c : EngineConfig} {settings : Settings}
    (h : Settings.ofConfig c = .ok settings) (kind : Kind) :
    settings.kind kind = c.kindSettings kind := by
  unfold Settings.ofConfig at h
  cases hthresholds : c.stats.thresholdList with
  | error cause => rw [hthresholds] at h; cases h
  | ok thresholds =>
    rw [hthresholds] at h
    cases h
    exact PerKind.get_ofFn _ _

theorem unbound_ofConfig {c : EngineConfig} {settings : Settings}
    (h : Settings.ofConfig c = .ok settings) (checks : CheckSelections) (layouts : LayoutSet) :
    (unbound settings checks layouts).WellFormed :=
  wellFormed_unbound checks layouts fun kind => by
    rw [kind_ofConfig h]
    exact KindConfig.resolve_tableSize_pos _ kind

theorem unfound_ofConfig {c : EngineConfig} (h : ofConfig c = .ok e) :
    ∀ s ∈ e.synthetics, ∀ h, some h ∉ s.sources := by
  obtain ⟨settings, checks, layouts, definitions, -, rfl⟩ := ofConfig_eq h
  exact fun s hs h => unfound_bindSynthetics _ _ h s hs

theorem Parts.crewed {c : EngineConfig} {settings : Settings} {checks : CheckSelections}
    {layouts : LayoutSet} {definitions : List Definition}
    (h : Parts c settings checks layouts definitions) {kind : Kind}
    (henable : (settings.kind kind).enable = true) :
    0 < (assembled settings checks layouts definitions).crew kind := by
  have hmoves := moves_bindSynthetics (unbound_ofConfig h.settings checks layouts)
    (activeDefinitions settings definitions)
  change 0 < Engine.crew (bindSynthetics _ _).2 kind
  rw [hmoves.crew, crew_unbound, if_pos henable, kind_ofConfig h.settings]
  exact KindConfig.resolve_threads_pos _ _

theorem settings_assembled {c : EngineConfig} {settings : Settings} {checks : CheckSelections}
    {layouts : LayoutSet} {definitions : List Definition}
    (h : Parts c settings checks layouts definitions) :
    (assembled settings checks layouts definitions).settings = settings :=
  (moves_bindSynthetics (unbound_ofConfig h.settings checks layouts)
    (activeDefinitions settings definitions)).settings

/-- A new engine is sound, and its records hold nothing yet. -/
theorem ofConfig_sound {c : EngineConfig} (h : ofConfig c = .ok e) :
    e.WellFormed ∧ ∀ k r, e.store.get? k = some r → NewBody e.settings r.body := by
  obtain ⟨settings, checks, layouts, definitions, hparts, rfl⟩ := ofConfig_eq h
  have hunbound := unbound_ofConfig hparts.settings checks layouts
  have hmoves := moves_bindSynthetics hunbound (activeDefinitions settings definitions)
  refine ⟨⟨hmoves.wellFormed.store, hmoves.wellFormed.staffed, bound_bindSynthetics _ _ _, ?_⟩, ?_⟩
  · intro hne
    by_cases henable : (settings.kind .adder).enable = true
    · exact hparts.crewed henable
    · rw [assembled, activeDefinitions, if_neg henable] at hne
      exact absurd rfl hne
  · intro k r hr
    have hnew := newBody_bindSynthetics (activeDefinitions settings definitions)
      (fun k r hr => by simp [unbound, Store.empty, Store.get?] at hr) hunbound k r hr
    rw [← hmoves.settings] at hnew
    exact hnew

end OfConfig

end Engine

end Rollup
