import Rollup.Proofs.Engine.Calls
import Rollup.Proofs.Store.Mirrors

/-! Engines that differ only in how many workers share the records of a kind, over how many buckets
its table spreads them, and from how many bytes on buffers are handed off. Whatever is done to both,
they hold the same records at every time. -/
namespace Rollup

/-- The numbers of a configuration that share out work and memory. -/
structure Sizing where
  threads : PerKind (Option Nat)
  tableSize : PerKind (Option Nat)
  bufferSize : Nat

def KindConfig.sized (threads tableSize : Option Nat) (c : KindConfig) : KindConfig :=
  { c with threads := threads, tableSize := tableSize }

def EngineConfig.sized (s : Sizing) (c : EngineConfig) : EngineConfig :=
  let sized (kind : Kind) (base : KindConfig) : KindConfig :=
    base.sized (s.threads.get kind) (s.tableSize.get kind)
  { c with
    bufferSize := s.bufferSize
    adder := sized .adder c.adder
    gauge := sized .gauge c.gauge
    stats := { c.stats with base := sized .stats c.stats.base }
    histogram := sized .histogram c.histogram }

/-- The same call, in which activities may take another time. -/
inductive Call.Alike : Call → Call → Prop
  | same (call : Call) : Call.Alike call call
  | tick (nowMs : Nat) (took took' : Activity → Nat) :
    Call.Alike (.tick nowMs took) (.tick nowMs took')

structure Settings.Mirrors (s s' : Settings) : Prop where
  enable : ∀ kind, (s'.kind kind).enable = (s.kind kind).enable
  pathPrefix : ∀ kind, (s'.kind kind).pathPrefix = (s.kind kind).pathPrefix
  others : s' = { s with kinds := s'.kinds, bufferSize := s'.bufferSize }

namespace Settings.Mirrors

variable {s s' : Settings}

theorem reportName (h : s.Mirrors s') : s'.reportName = s.reportName := by
  funext kind path
  unfold Settings.reportName
  rw [h.pathPrefix]

theorem predictLimit (h : s.Mirrors s') : s'.predictLimit = s.predictLimit := by
  rw [h.others]

theorem predictSize (h : s.Mirrors s') : s'.predictSize = s.predictSize := by
  rw [h.others]

theorem dialect (h : s.Mirrors s') : s'.dialect = s.dialect := by
  rw [h.others]

theorem collection (h : s.Mirrors s') : s'.collection = s.collection := by
  rw [h.others]

theorem reportAdder (h : s.Mirrors s') (nowMs : Nat) (r : Record) :
    r.reportAdder s' nowMs = r.reportAdder s nowMs := by
  have hseconds : s'.periodSeconds = s.periodSeconds := by rw [h.others]
  unfold Record.reportAdder
  rw [h.reportName, h.predictLimit, hseconds]

theorem passGauge (h : s.Mirrors s') (r : Record) : r.passGauge s' = r.passGauge s := by
  unfold Record.passGauge
  rw [h.reportName]

theorem passHistogram (h : s.Mirrors s') (r : Record) :
    r.passHistogram s' = r.passHistogram s := by
  unfold Record.passHistogram
  rw [h.reportName]

theorem passStats (h : s.Mirrors s') (r : Record) (w : Sorting.Workspace) :
    r.passStats s' w = r.passStats s w := by
  have hthreshold : s'.sortThreshold = s.sortThreshold := by rw [h.others]
  have hreadings : Stats.readings s' = Stats.readings s := by
    have hmoments : s'.momentsLeastPoints = s.momentsLeastPoints := by rw [h.others]
    have hmode : s'.modeLeastPoints = s.modeLeastPoints := by rw [h.others]
    have hthresholds : s'.thresholds = s.thresholds := by rw [h.others]
    funext checks name sorted
    unfold Stats.readings
    rw [hmoments, hmode, hthresholds]
  unfold Record.passStats
  rw [h.reportName, hthreshold, hreadings]

end Settings.Mirrors

namespace Engine

/-- What decides how points and records are treated, apart from settings and records. -/
def rules (e : Engine) : CheckSelections × LayoutSet × List Synthetic :=
  (e.checks, e.layouts, e.synthetics)

section Rules

@[simp] theorem rules_measure (s : Signal) (e : Engine) : (e.measure s).rules = e.rules := rfl

theorem rules_measureAll (signals : List Signal) (e : Engine) :
    (e.measureAll signals).rules = e.rules :=
  foldl_keeps rules (flip measure) (fun _ _ => rfl) signals e

theorem rules_onWorker (kind : Kind) (id : Nat) (act : Worker → Store → Worker × Store)
    (e : Engine) : (e.onWorker kind id act).rules = e.rules := by
  unfold onWorker
  split <;> rfl

theorem rules_finishShard (took : Nat) (kind : Kind) (id : Nat) (e : Engine) :
    (e.finishShard took kind id).rules = e.rules := by
  unfold finishShard
  simp only
  split
  · exact rules_onWorker _ _ _ e
  · exact (rules_measureAll _ _).trans (rules_onWorker _ _ _ e)

variable (nowMs : Nat) (took : Activity → Nat)

theorem rules_taken (e : Engine) : (e.taken nowMs).rules = e.rules :=
  foldl_keeps rules _ (fun _ _ => rules_onWorker _ _ _ _) _ e

theorem rules_tickAdders (e : Engine) :
    (e.tickAdders nowMs took).rules = (e.computed nowMs took).rules :=
  foldl_keeps rules _ (fun _ _ => (rules_finishShard _ _ _ _).trans (rules_onWorker _ _ _ _)) _ _

theorem rules_tickKind (e : Engine) (kind : Kind) : (e.tickKind nowMs took kind).rules = e.rules :=
  foldl_keeps rules _ (fun _ _ => (rules_finishShard _ _ _ _).trans (rules_onWorker _ _ _ _)) _ e

theorem rules_collect (took : Nat) (e : Engine) : (e.collect took).rules = e.rules := by
  unfold collect
  split
  · rw [rules_measure]
    exact foldl_keeps rules collectKind (fun _ _ => rfl) Kind.all e
  · rfl

theorem rules_runSynthetics (took : Nat) (e : Engine) : (e.runSynthetics took).rules =
    (e.checks, e.layouts, (Synthetic.generateAll e.synthetics e.store).2.1) := by
  unfold runSynthetics
  split
  · rename_i hempty
    rw [rules, List.isEmpty_iff.mp hempty]
    rfl
  · rfl

theorem rules_tick (e : Engine) : (e.tick nowMs took).rules =
    (e.checks, e.layouts, (Synthetic.generateAll e.synthetics (e.taken nowMs).store).2.1) := by
  have htaken := rules_taken nowMs e
  simp only [rules, Prod.mk.injEq] at htaken
  obtain ⟨hchecks, hlayouts, hsynthetics⟩ := htaken
  rw [tick_eq, rules_collect, passed, foldl_keeps rules _ (rules_tickKind nowMs took),
    rules_tickAdders, computed, rules_runSynthetics, hchecks, hlayouts, hsynthetics]

theorem synthetics_taken (e : Engine) : (e.taken nowMs).synthetics = e.synthetics :=
  congrArg (·.2.2) (rules_taken nowMs e)

theorem synthetics_tick (e : Engine) : (e.tick nowMs took).synthetics =
    (Synthetic.generateAll e.synthetics (e.taken nowMs).store).2.1 :=
  congrArg (·.2.2) (rules_tick nowMs took e)

end Rules

structure Mirrors (e e' : Engine) : Prop where
  wellFormed : e.WellFormed
  wellFormed' : e'.WellFormed
  records : e'.store.records = e.store.records
  settings : e.settings.Mirrors e'.settings
  rules : e'.rules = e.rules
  crewed : ∀ kind, 0 < e'.crew kind ↔ 0 < e.crew kind

namespace Mirrors

variable {e e' : Engine}

theorem store (h : e.Mirrors e') : e.store.Mirrors e'.store :=
  ⟨h.wellFormed.store, h.wellFormed'.store, h.records⟩

theorem checks (h : e.Mirrors e') : e'.checks = e.checks := congrArg Prod.fst h.rules

theorem layouts (h : e.Mirrors e') : e'.layouts = e.layouts := congrArg (·.2.1) h.rules

theorem synthetics (h : e.Mirrors e') : e'.synthetics = e.synthetics := congrArg (·.2.2) h.rules

theorem covers (h : e.Mirrors e') (kind : Kind) (r : Record) :
    e'.covers kind r = e.covers kind r := by
  unfold Engine.covers
  simp only [h.crewed]

theorem leads {d d' : Engine} (h : e.Mirrors e') (hd : e.Leads d) (hd' : e'.Leads d')
    (hstore : d.store.Mirrors d'.store) (hrules : d'.rules = d.rules) : d.Mirrors d' where
  wellFormed := hd.wellFormed
  wellFormed' := hd'.wellFormed
  records := hstore.records
  settings := by
    rw [hd.settings, hd'.settings]
    exact h.settings
  rules := hrules
  crewed kind := by
    rw [hd.crew, hd'.crew]
    exact h.crewed kind

theorem measureAll (h : e.Mirrors e') (signals signals' : List Signal) :
    (e.measureAll signals).Mirrors (e'.measureAll signals') := by
  refine h.leads (moves_measureAll h.wellFormed signals).toLeads
    (moves_measureAll h.wellFormed' signals').toLeads ?_ ?_
  · rw [store_measureAll, store_measureAll]
    exact h.store
  · rw [rules_measureAll, rules_measureAll, h.rules]

theorem modifyRecord (h : e.Mirrors e') (k : Handle) {f : Record → Record}
    (hf : ∀ r, Record.Stays r (f r)) : (e.modifyRecord k f).Mirrors (e'.modifyRecord k f) :=
  h.leads (moves_modifyRecord h.wellFormed k hf).toLeads
    (moves_modifyRecord h.wellFormed' k hf).toLeads (h.store.modify k fun r => (hf r).follows)
    h.rules

theorem newRecord (h : e.Mirrors e') (kind : Kind) (path : String) (layout : Layout) :
    e'.newRecord kind path layout = e.newRecord kind path layout := by
  unfold Engine.newRecord Store.nextId
  rw [h.checks, h.settings.predictSize, h.records]

theorem layoutFor (h : e.Mirrors e') (kind : Kind) (path : String) :
    e'.layoutFor kind path = e.layoutFor kind path := by
  unfold Engine.layoutFor
  rw [h.layouts]

/-- Handles are given out in the order of creation, whatever the tables. -/
theorem getOrCreate (h : e.Mirrors e') (kind : Kind) (path : String) :
    (e'.getOrCreate kind path).1 = (e.getOrCreate kind path).1 ∧
      (e.getOrCreate kind path).2.Mirrors (e'.getOrCreate kind path).2 := by
  have hlocate := h.store.locate kind path
  unfold Engine.getOrCreate
  cases habsent : e.store.locate kind path with
  | some k =>
    rw [habsent] at hlocate
    rw [hlocate]
    exact ⟨rfl, h⟩
  | none =>
    rw [habsent] at hlocate
    rw [hlocate]
    simp only [h.layoutFor]
    generalize e.layoutFor kind path = layout
    have hnew := h.newRecord kind path layout
    obtain ⟨hhandle, hstore⟩ := h.store.insert (fresh_newRecord h.wellFormed habsent layout)
    refine ⟨?_, h.leads (moves_insert h.wellFormed habsent layout).toLeads
      (moves_insert h.wellFormed' hlocate layout).toLeads ?_ h.rules⟩
    · simp only [Engine.insert, hnew]
      exact hhandle.symm
    · simp only [Engine.insert, hnew]
      exact hstore

theorem accept (h : e.Mirrors e') (p : Point) : (e.accept p).Mirrors (e'.accept p) := by
  obtain ⟨hhandle, hcreate⟩ := h.getOrCreate p.kind p.path
  unfold Engine.accept
  simp only [hhandle]
  exact hcreate.modifyRecord _ fun r => r.stays_update p.value p.adjustment

theorem refusal? (h : e.Mirrors e') : e'.refusal? = e.refusal? := by
  funext kind value
  unfold Engine.refusal?
  rw [h.settings.enable]

theorem ingestLine (h : e.Mirrors e') (counts counts' : LineCounts)
    (line : Except LineError Point) :
    (Engine.ingestLine (counts, e) line).2.Mirrors (Engine.ingestLine (counts', e') line).2 := by
  have hrejection : e'.rejection? line = e.rejection? line := by
    unfold Engine.rejection?
    rw [h.refusal?]
  simp only [Engine.ingestLine, hrejection]
  split
  · exact h.accept _
  · exact h.measureAll [_] [_]
  · exact h

theorem ingestText (h : e.Mirrors e') (text : List Char) :
    (e.ingestText text).2.Mirrors (e'.ingestText text).2 := by
  have hlines : ∀ (lines : List (Except LineError Point)) (counts counts' : LineCounts)
      (e e' : Engine), e.Mirrors e' → (lines.foldl Engine.ingestLine (counts, e)).2.Mirrors
        (lines.foldl Engine.ingestLine (counts', e')).2 := by
    intro lines
    induction lines with
    | nil => exact fun _ _ _ _ h => h
    | cons line rest ih =>
      intro counts counts' e e' h
      exact ih _ _ _ _ (h.ingestLine counts counts' line)
  exact (hlines (Point.ofText text) {} {} e e' h).measureAll _ _

theorem remove (h : e.Mirrors e') (kind : Kind) (path : String) :
    (e.remove kind path).2.Mirrors (e'.remove kind path).2 := by
  refine h.leads (leads_remove h.wellFormed kind path) (leads_remove h.wellFormed' kind path) ?_ ?_
  · unfold Engine.remove Store.remove
    rw [h.store.locate]
    cases e.store.locate kind path with
    | none => exact h.store
    | some k => exact h.store.modify k fun r => r.follows_invalidate
  · exact h.rules

theorem mem_valid_iff (h : e.Mirrors e') (kind : Kind) (k : Handle) :
    k ∈ e'.store.valid kind ↔ k ∈ e.store.valid kind := by
  unfold Store.valid
  rw [Store.mem_shard h.wellFormed.store Nat.one_pos,
    Store.mem_shard h.wellFormed'.store Nat.one_pos, h.store.get?]
  simp only [Record.inShard, Nat.mod_one]

theorem setLayouts (h : e.Mirrors e') (layouts : LayoutSet) :
    (e.setLayouts layouts).Mirrors (e'.setLayouts layouts) := by
  have hset : ∀ {d : Engine}, d.WellFormed → d.Moves (d.setLayouts layouts) := fun hd =>
    moves_of_same hd rfl rfl rfl rfl
  refine h.leads (hset h.wellFormed).toLeads (hset h.wellFormed').toLeads h.store ?_
  exact congrArg (fun s => (s.1, layouts, s.2.2)) h.rules

theorem retargetAll (h : e.Mirrors e') : e.retargetAll.Mirrors e'.retargetAll := by
  refine h.leads (moves_retargetAll h.wellFormed).toLeads (moves_retargetAll h.wellFormed').toLeads
    ?_ h.rules
  refine h.store.revises (revises_retargetAll h.wellFormed) (revises_retargetAll h.wellFormed') ?_
  intro k r _
  simp only [h.mem_valid_iff, h.layouts]

theorem reconfigure (h : e.Mirrors e') (blocks : List BlockConfig) :
    ((e.reconfigure blocks).toOption.getD e).Mirrors
      ((e'.reconfigure blocks).toOption.getD e') := by
  unfold Engine.reconfigure
  cases LayoutSet.ofConfig blocks with
  | error cause => exact h
  | ok layouts => exact (h.setLayouts layouts).retargetAll

theorem ingest (h : e.Mirrors e') (p : Point) :
    ((e.ingest p).toOption.getD e).Mirrors ((e'.ingest p).toOption.getD e') := by
  unfold Engine.ingest
  rw [h.refusal?]
  cases e.refusal? p.kind p.value with
  | some cause => exact h
  | none => exact h.accept p

theorem updateRecord (h : e.Mirrors e') (k : Handle) (value : Float) (adjustment : Adjustment) :
    ((e.updateRecord k value adjustment).toOption.getD e).Mirrors
      ((e'.updateRecord k value adjustment).toOption.getD e') := by
  unfold Engine.updateRecord
  cases UpdateError.ofValue? value with
  | some cause => exact h
  | none => exact h.modifyRecord k fun r => r.stays_update value adjustment

section Tick

variable (nowMs : Nat) (took took' : Activity → Nat)

theorem taken (h : e.Mirrors e') : (e.taken nowMs).Mirrors (e'.taken nowMs) := by
  obtain ⟨hmoves, hrevises⟩ := revises_taken nowMs h.wellFormed
  obtain ⟨hmoves', hrevises'⟩ := revises_taken nowMs h.wellFormed'
  refine h.leads hmoves.toLeads hmoves'.toLeads (h.store.revises hrevises hrevises' ?_) ?_
  · intro k r _
    rw [h.covers, h.settings.predictLimit]
  · rw [rules_taken, rules_taken, h.rules]

theorem runSynthetics (h : e.Mirrors e') (took took' : Nat) :
    (e.runSynthetics took).Mirrors (e'.runSynthetics took') := by
  obtain ⟨hsynthetics, hstore⟩ := Synthetic.indistinct_mirrors.generateAll h.store e.synthetics
  refine h.leads (moves_runSynthetics took h.wellFormed).toLeads
    (moves_runSynthetics took' h.wellFormed').toLeads ?_ ?_
  · rw [store_runSynthetics, store_runSynthetics, h.synthetics]
    exact hstore
  · rw [rules_runSynthetics, rules_runSynthetics, h.checks, h.layouts, h.synthetics, hsynthetics]

theorem computed (h : e.Mirrors e') : (e.computed nowMs took).Mirrors (e'.computed nowMs took') :=
  (h.taken nowMs).runSynthetics _ _

theorem tickAdders (h : e.Mirrors e') :
    (e.tickAdders nowMs took).Mirrors (e'.tickAdders nowMs took') := by
  have hcomputed := h.computed nowMs took took'
  obtain ⟨hmoves, hrevises⟩ := revises_tickAdders nowMs took h.wellFormed
  obtain ⟨hmoves', hrevises'⟩ := revises_tickAdders nowMs took' h.wellFormed'
  refine h.leads hmoves.toLeads hmoves'.toLeads
    (hcomputed.store.revises hrevises hrevises' ?_) ?_
  · intro k r _
    rw [h.covers, h.settings.reportAdder]
  · rw [rules_tickAdders, rules_tickAdders, hcomputed.rules]

theorem tickKind (h : e.Mirrors e') (kind : Kind) :
    (e.tickKind nowMs took kind).Mirrors (e'.tickKind nowMs took' kind) := by
  obtain ⟨hmoves, hrevises⟩ := revises_tickKind nowMs took h.wellFormed kind
  obtain ⟨hmoves', hrevises'⟩ := revises_tickKind nowMs took' h.wellFormed' kind
  refine h.leads hmoves.toLeads hmoves'.toLeads (h.store.revises hrevises hrevises' ?_) ?_
  · intro k r _
    rw [h.covers]
  · rw [rules_tickKind, rules_tickKind, h.rules]

theorem collect (h : e.Mirrors e') (took took' : Nat) :
    (e.collect took).Mirrors (e'.collect took') := by
  have hcollect := revises_collect h.wellFormed took
  have hcollect' := revises_collect h.wellFormed' took'
  refine h.leads (moves_collect h.wellFormed took).toLeads
    (moves_collect h.wellFormed' took').toLeads (h.store.revises hcollect hcollect' ?_) ?_
  · intro k r _
    rw [h.settings.collection]
  · rw [rules_collect, rules_collect, h.rules]

theorem tickKinds (h : e.Mirrors e') (kinds : List Kind) :
    (kinds.foldl (Engine.tickKind nowMs took) e).Mirrors
      (kinds.foldl (Engine.tickKind nowMs took') e') := by
  induction kinds generalizing e e' with
  | nil => exact h
  | cons kind rest ih => exact ih (h.tickKind nowMs took took' kind)

theorem tick (h : e.Mirrors e') : (e.tick nowMs took).Mirrors (e'.tick nowMs took') := by
  rw [tick_eq, tick_eq]
  exact ((h.tickAdders nowMs took took').tickKinds nowMs took took' _).collect _ _

end Tick

theorem call {first first' : Call} (h : e.Mirrors e') (halike : first.Alike first') :
    (e.call first).Mirrors (e'.call first') := by
  cases halike with
  | tick nowMs took took' => exact h.tick nowMs took took'
  | same first =>
    cases first with
    | ingest p => exact h.ingest p
    | text text => exact h.ingestText text
    | create kind path => exact (h.getOrCreate kind path).2
    | remove kind path => exact h.remove kind path
    | update k value adjustment => exact h.updateRecord k value adjustment
    | reconfigure blocks => exact h.reconfigure blocks
    | tick nowMs took => exact h.tick nowMs took took

theorem run {calls calls' : List Call} (h : e.Mirrors e')
    (halike : List.Forall₂ Call.Alike calls calls') : (e.run calls).Mirrors (e'.run calls') := by
  induction halike generalizing e e' with
  | nil => exact h
  | cons hfirst _ ih => exact ih (h.call hfirst)

end Mirrors

section OfConfig

variable {e e' : Engine}

theorem bindSynthetics_mirrors (h : e.Mirrors e') (definitions : List Definition) :
    (e'.bindSynthetics definitions).1 = (e.bindSynthetics definitions).1 ∧
      (e.bindSynthetics definitions).2.Mirrors (e'.bindSynthetics definitions).2 := by
  induction definitions generalizing e e' with
  | nil => exact ⟨rfl, h⟩
  | cons definition rest ih =>
    obtain ⟨hhandle, hcreate⟩ := h.getOrCreate .adder definition.target
    have hfirst : (e.bindSynthetic definition).2.Mirrors (e'.bindSynthetic definition).2 := by
      unfold bindSynthetic
      simp only [hhandle]
      exact hcreate.modifyRecord _ fun r => r.stays_exempt
    obtain ⟨hrest, hlast⟩ := ih hfirst
    exact ⟨congrArg₂ List.cons (congrArg (Synthetic.bind definition) hhandle) hrest, hlast⟩

theorem settings_sized {c : EngineConfig} {settings : Settings}
    (h : Settings.ofConfig c = .ok settings) (s : Sizing) :
    ∃ settings', Settings.ofConfig (c.sized s) = .ok settings' ∧ settings.Mirrors settings' := by
  unfold Settings.ofConfig at h ⊢
  cases hthresholds : c.stats.thresholdList with
  | error cause => rw [hthresholds] at h; cases h
  | ok thresholds =>
    have hthresholds' : (c.sized s).stats.thresholdList = .ok thresholds := hthresholds
    rw [hthresholds] at h
    rw [hthresholds']
    cases h
    exact ⟨_, rfl, fun kind => by cases kind <;> rfl, fun kind => by cases kind <;> rfl, rfl⟩

theorem Parts.sized {c : EngineConfig} {settings : Settings} {checks : CheckSelections}
    {layouts : LayoutSet} {definitions : List Definition}
    (h : Parts c settings checks layouts definitions) (s : Sizing) :
    ∃ settings', settings.Mirrors settings' ∧
      Parts (c.sized s) settings' checks layouts definitions := by
  obtain ⟨settings', hsettings', hmirrors⟩ := settings_sized h.settings s
  exact ⟨settings', hmirrors, h.valid, hsettings', h.layouts, h.checks, h.definitions⟩

theorem unbound_mirrors {c c' : EngineConfig} {settings settings' : Settings}
    (h : Settings.ofConfig c = .ok settings) (h' : Settings.ofConfig c' = .ok settings')
    (hsettings : settings.Mirrors settings') (checks : CheckSelections) (layouts : LayoutSet) :
    (unbound settings checks layouts).Mirrors (unbound settings' checks layouts) where
  wellFormed := unbound_ofConfig h checks layouts
  wellFormed' := unbound_ofConfig h' checks layouts
  records := rfl
  settings := hsettings
  rules := rfl
  crewed kind := by
    have hpos : 0 < (settings.kind kind).threads := by
      rw [kind_ofConfig h]
      exact KindConfig.resolve_threads_pos _ kind
    have hpos' : 0 < (settings'.kind kind).threads := by
      rw [kind_ofConfig h']
      exact KindConfig.resolve_threads_pos _ kind
    rw [crew_unbound, crew_unbound, hsettings.enable]
    split
    · exact iff_of_true hpos' hpos
    · exact Iff.rfl

theorem ofConfig_sized {c : EngineConfig} (h : ofConfig c = .ok e) (s : Sizing) :
    ∃ e', ofConfig (c.sized s) = .ok e' ∧ e.Mirrors e' := by
  obtain ⟨settings, checks, layouts, definitions, hparts, rfl⟩ := ofConfig_eq h
  obtain ⟨settings', hsettings, hparts'⟩ := hparts.sized s
  have hactive : activeDefinitions settings' definitions =
      activeDefinitions settings definitions := by
    unfold activeDefinitions
    rw [hsettings.enable]
  obtain ⟨hsynthetics, hbound⟩ := bindSynthetics_mirrors
    (unbound_mirrors hparts.settings hparts'.settings hsettings checks layouts)
    (activeDefinitions settings definitions)
  have hsound' := (ofConfig_sound hparts'.ofConfig).1
  refine ⟨_, hparts'.ofConfig, ?_⟩
  unfold assembled at hsound' ⊢
  rw [hactive] at hsound' ⊢
  exact
    { wellFormed := (ofConfig_sound h).1
      wellFormed' := hsound'
      records := hbound.records
      settings := hbound.settings
      rules := congrArg₂ (fun synthetics rules => (rules.1, rules.2.1, synthetics)) hsynthetics
        hbound.rules
      crewed := hbound.crewed }

end OfConfig

end Engine

end Rollup
