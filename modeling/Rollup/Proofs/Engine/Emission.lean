import Rollup.Proofs.Engine.Mirrors
import Rollup.Proofs.Engine.Reporting

/-! The output of a tick. The shards of a kind part its records, and a record is reported alike by
any worker, so that the lines of a tick are the same for any number of workers and buckets, though
they come in another order and in other buffers. -/
namespace Rollup

namespace Engine

def Reports (e e' : Engine) (nowMs : Nat) (kind : Kind) (now : Store) : Prop :=
  ∀ (i : Nat) (w : Worker), (e.workers.get kind)[i]? = some w →
    ∃ (w' : Worker) (readings : List Reading), (e'.workers.get kind)[i]? = some w' ∧
      readings.Perm ((now.shard kind i (e.crew kind)).flatMap
        (now.told (Record.readings e.settings nowMs kind))) ∧
      w.buffer.Reports w'.buffer e.settings.dialect (nowMs / 1000) readings

theorem Reports.later {e d d' : Engine} {nowMs : Nat} {kind : Kind} {now : Store}
    (h : e.Reports d nowMs kind now) (hworkers : d'.workers.get kind = d.workers.get kind) :
    e.Reports d' nowMs kind now := by
  unfold Reports
  rw [hworkers]
  exact h

theorem Reports.earlier {e d d' : Engine} {nowMs : Nat} {kind : Kind} {now : Store}
    (h : d.Reports d' nowMs kind now) (hleads : e.Leads d)
    (hworkers : d.workers.get kind = e.workers.get kind) : e.Reports d' nowMs kind now := by
  unfold Reports
  rw [← hworkers, ← hleads.settings, ← hleads.crew]
  exact h

section Sweep

variable {e : Engine} {kind : Kind} {f : Record → Record} {act : Engine → Nat → Engine}

theorem reports_sweep {nowMs : Nat} (turn : Engine → Nat → Worker → Worker) (he : e.WellFormed)
    (hf : ∀ r, Record.Stays r (f r))
    (hact : ∀ e', e.Moves e' → ∀ id, e'.Moves (act e' id) ∧
      e'.store.Revises (act e' id).store fun _ r => if e'.visits kind id r then f r else r)
    (hturn : ∀ e id other i, ((act e id).workers.get other)[i]? =
      if other = kind ∧ i = id then ((e.workers.get kind)[id]?).map (turn e id)
      else (e.workers.get other)[i]?)
    (hreports : ∀ e', e.Moves e' → ∀ (id : Nat) (w : Worker),
      (e.workers.get kind)[id]? = some w →
      w.buffer.Reports (turn e' id w).buffer e.settings.dialect (nowMs / 1000)
        ((e'.store.shard kind id (e.crew kind)).flatMap
          (e'.store.told (Record.readings e.settings nowMs kind)))) :
    e.Reports ((List.range (e.crew kind)).foldl act e) nowMs kind e.store := by
  intro id w hw
  obtain ⟨-, -, -, hid⟩ := worker_of_staffed he hw
  have hmoves := (revises_foldl he hf hact id (Nat.le_of_lt hid)).1
  refine ⟨_, _, ?_, told_foldl he hf hact hid _, hreports _ hmoves id w hw⟩
  rw [worker_foldl act turn hturn, if_pos ⟨rfl, hid⟩, hw, Option.map_some]

end Sweep

section Tick

variable {e : Engine} (nowMs : Nat) (took : Activity → Nat)

def Settled (e : Engine) : Prop :=
  ∀ kind, ∀ w ∈ e.workers.get kind, w.buffer.Settled e.settings.dialect

theorem workers_runSynthetics (took : Nat) (e : Engine) :
    (e.runSynthetics took).workers = e.workers := by
  unfold runSynthetics
  split <;> rfl

theorem workers_collect (took : Nat) (e : Engine) : (e.collect took).workers = e.workers := by
  have hkinds := foldl_keeps Engine.workers collectKind (fun _ _ => rfl) Kind.all e
  unfold collect
  split
  · rw [workers_measure, hkinds]
  · rfl

theorem worker_computed (e : Engine) (other : Kind) (i : Nat) :
    ((e.computed nowMs took).workers.get other)[i]? =
      if other = .adder ∧ i < e.crew .adder then
        ((e.workers.get .adder)[i]?).map (Worker.start nowMs)
      else (e.workers.get other)[i]? := by
  rw [computed, workers_runSynthetics, taken, workerIds_eq]
  exact worker_foldl _ (fun _ _ => Worker.start nowMs) (fun e id => worker_onWorker .adder id _ e)
    e _ other i

theorem workers_tickAdders {other : Kind} (hother : other ≠ .adder) (he : e.WellFormed) :
    (e.tickAdders nowMs took).workers.get other = e.workers.get other := by
  have hcomputed : (e.computed nowMs took).workers.get other = e.workers.get other := by
    ext1 i
    rw [worker_computed, if_neg fun h => hother h.1]
  rw [← hcomputed, tickAdders_eq nowMs took he]
  exact workers_foldl _ _ (fun e id => worker_turn _ .adder id _ e) _ _ hother

theorem reports_tickAdders (he : e.WellFormed) (hself : e.settings.selfStats = false)
    (hsettled : e.Settled) :
    e.Reports (e.tickAdders nowMs took) nowMs .adder (e.computed nowMs took).store := by
  have hmoves := moves_computed nowMs took he
  have hsweep : (e.computed nowMs took).Reports (e.tickAdders nowMs took) nowMs .adder
      (e.computed nowMs took).store := by
    rw [tickAdders_eq nowMs took he]
    refine reports_sweep _ hmoves.wellFormed (Record.stays_reportAdder e.settings nowMs)
      (fun e' hmoves' id => revises_laterTurn nowMs took hmoves hmoves' id)
      (fun e id => worker_turn _ .adder id _ e) ?_
    intro e' hmoves' id w hw
    obtain ⟨hkind, rfl, hshards, hid⟩ := worker_of_staffed hmoves.wellFormed hw
    have hnodup := Store.shard_nodup hmoves'.wellFormed.store .adder (Nat.zero_lt_of_lt hid) w.id
    have hopen : w.buffer.Open e.settings.dialect (nowMs / 1000) := by
      rw [worker_computed] at hw
      rw [hmoves.crew] at hid
      rw [if_pos ⟨rfl, hid⟩] at hw
      obtain ⟨old, hold, rfl⟩ := Option.map_eq_some_iff.mp hw
      exact (hsettled .adder old (List.mem_of_getElem? hold)).open (nowMs / 1000)
    rw [hmoves'.settings, ← hshards, hmoves.settings]
    rw [← hshards] at hnodup
    exact Worker.reports_reportAdders e.settings nowMs _ hself hnodup hopen
  intro i w hw
  have hid : i < e.crew .adder := (worker_of_staffed he hw).2.2.2
  have hstarted : ((e.computed nowMs took).workers.get .adder)[i]? = some (w.start nowMs) := by
    rw [worker_computed, if_pos ⟨rfl, hid⟩, hw, Option.map_some]
  obtain ⟨w', readings, hw', hperm, hreports⟩ := hsweep i (w.start nowMs) hstarted
  rw [hmoves.crew, hmoves.settings] at hperm
  rw [hmoves.settings] at hreports
  exact ⟨w', readings, hw', hperm, hreports.settled, hreports.text⟩

theorem workers_tickKind {kind other : Kind} (hother : other ≠ kind) :
    (e.tickKind nowMs took kind).workers.get other = e.workers.get other := by
  rw [tickKind, workerIds_eq]
  exact workers_foldl _ _ (fun e id => worker_turn _ kind id _ e) e _ hother

theorem reports_tickKind (he : e.WellFormed) (hself : e.settings.selfStats = false)
    {kind : Kind} (hkind : kind ≠ .adder)
    (hsettled : ∀ w ∈ e.workers.get kind, w.buffer.Settled e.settings.dialect) :
    e.Reports (e.tickKind nowMs took kind) nowMs kind e.store := by
  unfold tickKind
  rw [workerIds_eq]
  refine reports_sweep _ he (stays_passed kind)
    (fun e' hmoves id => revises_passTurn nowMs _ hmoves.wellFormed kind id)
    (fun e id => worker_turn _ kind id _ e) ?_
  intro e' hmoves id w hw
  obtain ⟨rfl, rfl, hshards, hid⟩ := worker_of_staffed he hw
  have hnodup := Store.shard_nodup hmoves.wellFormed.store w.kind (Nat.zero_lt_of_lt hid) w.id
  rw [hmoves.settings, ← hshards]
  rw [← hshards] at hnodup
  exact Worker.reports_pass e.settings nowMs _ hself hkind hnodup
    (hsettled w (List.mem_of_getElem? hw))

def stage (nowMs : Nat) (took : Activity → Nat) (e : Engine) : Kind → Engine
  | .adder => e.computed nowMs took
  | .gauge => e.tickAdders nowMs took
  | .stats => (e.tickAdders nowMs took).tickKind nowMs took .gauge
  | .histogram => ((e.tickAdders nowMs took).tickKind nowMs took .gauge).tickKind nowMs took .stats

theorem moves_stage (he : e.WellFormed) (kind : Kind) : e.Moves (e.stage nowMs took kind) := by
  have hadders := (revises_tickAdders nowMs took he).1
  have hgauges := (revises_tickKind nowMs took hadders.wellFormed .gauge).1
  have hstats := (revises_tickKind nowMs took hgauges.wellFormed .stats).1
  cases kind with
  | adder => exact moves_computed nowMs took he
  | gauge => exact hadders
  | stats => exact hadders.trans hgauges
  | histogram => exact hadders.trans (hgauges.trans hstats)

theorem workers_stage (he : e.WellFormed) {kind : Kind} (hkind : kind ≠ .adder) :
    (e.stage nowMs took kind).workers.get kind = e.workers.get kind := by
  have hadders := workers_tickAdders nowMs took hkind he
  cases kind with
  | adder => exact absurd rfl hkind
  | gauge => exact hadders
  | stats => exact (workers_tickKind nowMs took (by decide)).trans hadders
  | histogram =>
    have hgauges := workers_tickKind (e := e.tickAdders nowMs took) nowMs took
      (show Kind.histogram ≠ .gauge by decide)
    exact (workers_tickKind nowMs took (by decide)).trans (hgauges.trans hadders)

/-- Once a kind is reported, its workers have nothing more to write in the tick. -/
theorem workers_tick (kind : Kind) : (e.tick nowMs took).workers.get kind =
    if kind = .adder then (e.tickAdders nowMs took).workers.get kind
    else ((e.stage nowMs took kind).tickKind nowMs took kind).workers.get kind := by
  have hpassed : e.passed nowMs took =
      (e.stage nowMs took .histogram).tickKind nowMs took .histogram := by
    simp only [passed, stage, List.foldl_cons, List.foldl_nil]
  rw [tick_eq, workers_collect, hpassed]
  cases kind with
  | histogram => rfl
  | stats => exact workers_tickKind nowMs took (by decide)
  | gauge =>
    exact (workers_tickKind nowMs took (by decide)).trans (workers_tickKind nowMs took (by decide))
  | adder =>
    exact (workers_tickKind nowMs took (by decide)).trans
      ((workers_tickKind nowMs took (by decide)).trans (workers_tickKind nowMs took (by decide)))

theorem reports_tick (he : e.WellFormed) (hself : e.settings.selfStats = false)
    (hsettled : e.Settled) (kind : Kind) :
    e.Reports (e.tick nowMs took) nowMs kind (e.stage nowMs took kind).store := by
  by_cases hkind : kind = .adder
  · subst hkind
    rw [stage]
    refine (reports_tickAdders nowMs took he hself hsettled).later ?_
    rw [workers_tick, if_pos rfl]
  · have hmoves := moves_stage nowMs took he kind
    have hworkers := workers_stage nowMs took he hkind
    have hreports := reports_tickKind nowMs took hmoves.wellFormed
      (hmoves.settings ▸ hself) hkind (by
        rw [hworkers, hmoves.settings]
        exact hsettled kind)
    refine (hreports.earlier hmoves.toLeads hworkers).later ?_
    rw [workers_tick, if_neg hkind]

theorem length_workers (e : Engine) (kind : Kind) : (e.workers.get kind).length = e.crew kind := by
  rw [crew, staff, List.length_map]

theorem settled_tick (he : e.WellFormed) (hself : e.settings.selfStats = false)
    (hsettled : e.Settled) : (e.tick nowMs took).Settled := by
  have hmoves := moves_tick nowMs took he
  intro kind w' hw'
  obtain ⟨i, hi, rfl⟩ := List.mem_iff_getElem.mp hw'
  have hlt : i < (e.workers.get kind).length := by
    rw [length_workers, hmoves.crew] at hi
    rwa [length_workers]
  obtain ⟨w', readings, hget, -, hreports⟩ := reports_tick nowMs took he hself hsettled kind i _
    (List.getElem?_eq_getElem hlt)
  rw [List.getElem?_eq_getElem hi, Option.some.injEq] at hget
  rw [hget, hmoves.settings]
  exact hreports.settled

end Tick

section Calls

variable {e : Engine}

theorem workers_getOrCreate (e : Engine) (kind : Kind) (path : String) :
    (e.getOrCreate kind path).2.workers = e.workers := by
  unfold getOrCreate
  split <;> rfl

theorem workers_ingestText (text : List Char) (e : Engine) :
    (e.ingestText text).2.workers = e.workers := by
  have hline : ∀ (counts : LineCounts) (e : Engine) (line : Except LineError Point),
      (ingestLine (counts, e) line).2.workers = e.workers := by
    intro counts e line
    simp only [ingestLine]
    split
    · exact workers_getOrCreate e _ _
    · rfl
    · rfl
  have hlines : ∀ (lines : List (Except LineError Point)) (counts : LineCounts) (e : Engine),
      (lines.foldl ingestLine (counts, e)).2.workers = e.workers := by
    intro lines
    induction lines with
    | nil => exact fun _ _ => rfl
    | cons line rest ih => exact fun counts e => (ih _ _).trans (hline counts e line)
  exact (workers_measureAll _ _).trans (hlines (Point.ofText text) {} e)

theorem workers_call (call : Call) (hcall : ∀ nowMs took, call ≠ .tick nowMs took) :
    (e.call call).workers = e.workers := by
  cases call with
  | ingest p =>
    simp only [Engine.call, ingest]
    cases e.refusal? p.kind p.value with
    | some cause => rfl
    | none => exact workers_getOrCreate e _ _
  | text text => exact workers_ingestText text e
  | create kind path => exact workers_getOrCreate e kind path
  | remove kind path => rfl
  | update h value adjustment =>
    simp only [Engine.call, updateRecord]
    cases UpdateError.ofValue? value <;> rfl
  | reconfigure blocks =>
    simp only [Engine.call, reconfigure]
    cases LayoutSet.ofConfig blocks <;> rfl
  | tick nowMs took => exact absurd rfl (hcall nowMs took)

theorem settled_call (he : e.WellFormed) (hself : e.settings.selfStats = false)
    (hsettled : e.Settled) (call : Call) : (e.call call).Settled := by
  by_cases hcall : ∃ nowMs took, call = .tick nowMs took
  · obtain ⟨nowMs, took, rfl⟩ := hcall
    exact settled_tick nowMs took he hself hsettled
  · unfold Settled
    rw [workers_call call fun nowMs took heq => hcall ⟨nowMs, took, heq⟩,
      (leads_call he call).settings]
    exact hsettled

theorem settled_run (he : e.WellFormed) (hself : e.settings.selfStats = false)
    (hsettled : e.Settled) (calls : List Call) : (e.run calls).Settled := by
  induction calls generalizing e with
  | nil => exact hsettled
  | cons first rest ih =>
    have hfirst := leads_call he first
    exact ih hfirst.wellFormed (hfirst.settings ▸ hself) (settled_call he hself hsettled first)

end Calls

section OfConfig

theorem workers_bindSynthetics (definitions : List Definition) (e : Engine) :
    (e.bindSynthetics definitions).2.workers = e.workers := by
  induction definitions generalizing e with
  | nil => rfl
  | cons definition rest ih => exact (ih _).trans (workers_getOrCreate e _ _)

theorem settled_ofConfig {c : EngineConfig} {e : Engine} (h : ofConfig c = .ok e) : e.Settled := by
  obtain ⟨settings, checks, layouts, definitions, hparts, rfl⟩ := ofConfig_eq h
  have hmoves := moves_bindSynthetics (unbound_ofConfig hparts.settings checks layouts)
    (activeDefinitions settings definitions)
  have hworkers := workers_bindSynthetics (activeDefinitions settings definitions)
    (unbound settings checks layouts)
  intro kind w hw
  change w ∈ (bindSynthetics _ _).2.workers.get kind at hw
  change w.buffer.Settled (bindSynthetics _ _).2.settings.dialect
  rw [hworkers] at hw
  rw [hmoves.settings]
  simp only [unbound, PerKind.get_ofFn, Worker.createAll] at hw
  split at hw
  · obtain ⟨id, -, rfl⟩ := List.mem_map.mp hw
    exact ⟨rfl, rfl, rfl⟩
  · cases hw

end OfConfig

end Engine

end Rollup
