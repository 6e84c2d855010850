import Rollup.Proofs.Engine.Emission

/-! The output of a tick as its receivers see it. Sizes decide in which order and in which buffers
lines come, but not which lines come: every valid record of an enabled kind is treated by one
worker, once, and what is reported of it does not depend on the worker. -/
namespace Rollup

def Worker.drained (w : Worker) : Worker := { w with buffer := w.buffer.drain.2 }

def Record.swapped (limit : Nat) (r : Record) : Record :=
  if r.kind = .adder then r.takeAdder limit else r.swap

namespace Engine

section Live

variable {e e' : Engine} {kind : Kind}

/-- The valid records of a kind that has workers, in the order of their creation. -/
def live (e : Engine) (kind : Kind) : List Handle :=
  (List.range e.store.records.size).filter fun h => (e.store.get? h).any (e.covers kind)

theorem mem_live {h : Handle} :
    h ∈ e.live kind ↔ ∃ r, e.store.get? h = some r ∧ e.covers kind r = true := by
  unfold live
  rw [List.mem_filter, List.mem_range, Option.any_eq_true]
  constructor
  · exact And.right
  · rintro ⟨r, hr, hcovers⟩
    refine ⟨?_, r, hr, hcovers⟩
    by_contra hout
    rw [Store.get?_eq_none (Nat.not_lt.mp hout)] at hr
    cases hr

theorem shards_perm_live (he : e.WellFormed) (kind : Kind) :
    ((List.range (e.crew kind)).flatMap fun id => e.store.shard kind id (e.crew kind)).Perm
      (e.live kind) := by
  have hmem : ∀ {h id}, id ∈ List.range (e.crew kind) →
      (h ∈ e.store.shard kind id (e.crew kind) ↔ ∃ r, e.store.get? h = some r ∧
        r.inShard (e.store.table kind).size kind (e.crew kind) id = true) := fun hid =>
    Store.mem_shard he.store (List.mem_range.mp hid) _
  have hlive : (e.live kind).Nodup := List.nodup_range.filter _
  refine (List.perm_ext_iff_of_nodup ?_ hlive).mpr fun h => ?_
  · refine List.nodup_flatMap.mpr ⟨fun id hid => ?_, ?_⟩
    · exact Store.shard_nodup he.store kind (Nat.zero_lt_of_lt (List.mem_range.mp hid)) id
    · refine List.nodup_range.pairwise_of_forall_ne fun id hid other hother hne h hown hmem' => ?_
      obtain ⟨r, hr, hshard⟩ := (hmem hid).mp hown
      obtain ⟨r', hr', hshard'⟩ := (hmem hother).mp hmem'
      rw [hr] at hr'
      cases hr'
      exact hne (Record.inShard_unique hshard hshard')
  · rw [List.mem_flatMap, mem_live]
    constructor
    · rintro ⟨id, hid, hh⟩
      obtain ⟨r, hr, hshard⟩ := (hmem hid).mp hh
      exact ⟨r, hr, (e.covers_iff_inShard kind r).mpr ⟨id, List.mem_range.mp hid, hshard⟩⟩
    · rintro ⟨r, hr, hcovers⟩
      obtain ⟨id, hid, hshard⟩ := (e.covers_iff_inShard kind r).mp hcovers
      exact ⟨id, List.mem_range.mpr hid, (hmem (List.mem_range.mpr hid)).mpr ⟨r, hr, hshard⟩⟩

theorem Mirrors.live (h : e.Mirrors e') (kind : Kind) : e'.live kind = e.live kind := by
  have hcovers : e'.covers kind = e.covers kind := funext (h.covers kind)
  have hget : e'.store.get? = e.store.get? := funext h.store.get?
  unfold Engine.live
  rw [h.records, hcovers, hget]

end Live

section Reported

variable {e e' : Engine} (nowMs : Nat) (took took' : Activity → Nat)

def report (nowMs : Nat) (kind : Kind) (e : Engine) : List Reading :=
  (e.live kind).flatMap (e.store.told (Record.readings e.settings nowMs kind))

def reported (nowMs : Nat) (took : Activity → Nat) (e : Engine) : List Reading :=
  Kind.all.flatMap fun kind => (e.stage nowMs took kind).report nowMs kind

theorem Mirrors.report (h : e.Mirrors e') (kind : Kind) :
    e'.report nowMs kind = e.report nowMs kind := by
  have hreadings : Record.readings e'.settings nowMs kind =
      Record.readings e.settings nowMs kind := by
    funext r
    unfold Record.readings
    simp only [h.settings.reportAdder, h.settings.passGauge, h.settings.passStats,
      h.settings.passHistogram]
  have htold : ∀ readings, e'.store.told readings = e.store.told readings := fun readings =>
    funext fun k => Store.told_congr (h.store.get? k) readings
  unfold Engine.report
  rw [h.live, hreadings, htold]

theorem Mirrors.stage (h : e.Mirrors e') (kind : Kind) :
    (e.stage nowMs took kind).Mirrors (e'.stage nowMs took' kind) := by
  have hadders := h.tickAdders nowMs took took'
  have hgauges := hadders.tickKind nowMs took took' .gauge
  cases kind with
  | adder => exact h.computed nowMs took took'
  | gauge => exact hadders
  | stats => exact hgauges
  | histogram => exact hgauges.tickKind nowMs took took' .stats

theorem Mirrors.reported (h : e.Mirrors e') :
    e'.reported nowMs took' = e.reported nowMs took := by
  unfold Engine.reported
  exact List.flatMap_congr fun kind _ => (h.stage nowMs took took' kind).report nowMs kind

end Reported

section Drain

variable {e : Engine}

def drainKind (state : Array String × Engine) (kind : Kind) : Array String × Engine :=
  let (sent, e) := state
  ((e.workers.get kind).foldl (fun sent w => sent ++ w.buffer.outlet.delivered) sent,
    { e with workers := e.workers.set kind ((e.workers.get kind).map Worker.drained) })

theorem drain_eq (e : Engine) : e.drain = Kind.all.foldl drainKind (#[], e) := by
  unfold drain
  dsimp only
  congr 1
  funext state kind
  simp only [drainKind, List.foldl_map, List.zip_eq_zipWith, List.zipWith_map_right,
    List.zipWith_self, List.map_map]
  rfl

theorem workers_drain (e : Engine) (kind : Kind) :
    e.drain.2.workers.get kind = (e.workers.get kind).map Worker.drained := by
  rw [drain_eq]
  cases kind <;> rfl

theorem drain_snd (e : Engine) : e.drain.2 = { e with workers := e.drain.2.workers } := by
  rw [drain_eq]
  rfl

theorem drain_fst (e : Engine) : e.drain.1.toList = Kind.all.flatMap fun kind =>
    (e.workers.get kind).flatMap fun w => w.buffer.outlet.delivered.toList := by
  have hworkers : ∀ (ws : List Worker) (sent : Array String),
      (ws.foldl (fun sent w => sent ++ w.buffer.outlet.delivered) sent).toList =
        sent.toList ++ ws.flatMap fun w => w.buffer.outlet.delivered.toList := by
    intro ws
    induction ws with
    | nil => simp
    | cons w rest ih => intro sent; simp [ih]
  rw [drain_eq]
  simp [Kind.all, drainKind, hworkers, PerKind.get, PerKind.set]

theorem moves_drain (he : e.WellFormed) : e.Moves e.drain.2 := by
  refine moves_of_revises he (f := fun _ r => r) ?_ (fun _ _ _ _ => rfl) ?_ ?_ ?_
  · rw [drain_snd]
    exact .refl e.store
  · rw [drain_snd]
  · intro kind
    rw [staff, workers_drain, List.map_map]
    rfl
  · rw [drain_snd]

theorem Mirrors.drain {e' : Engine} (h : e.Mirrors e') : e.drain.2.Mirrors e'.drain.2 := by
  refine h.leads (moves_drain h.wellFormed).toLeads (moves_drain h.wellFormed').toLeads ?_ ?_
  · rw [drain_snd e, drain_snd e']
    exact h.store
  · rw [drain_snd e, drain_snd e']
    exact h.rules

theorem settled_drain (he : e.WellFormed) (hsettled : e.Settled) : e.drain.2.Settled := by
  intro kind w hw
  rw [workers_drain] at hw
  obtain ⟨old, hold, rfl⟩ := List.mem_map.mp hw
  rw [(moves_drain he).settings]
  have hbuffer := hsettled kind old hold
  exact ⟨hbuffer.attached, hbuffer.dialect, hbuffer.pending⟩

theorem delivered_drain {kind : Kind} {w : Worker} (hw : w ∈ e.drain.2.workers.get kind) :
    w.buffer.outlet.delivered = #[] := by
  rw [workers_drain] at hw
  obtain ⟨old, -, rfl⟩ := List.mem_map.mp hw
  rfl

theorem text_drain (hsettled : e.Settled) : (String.join e.drain.1.toList).toList =
    Kind.all.flatMap fun kind => (e.workers.get kind).flatMap fun w => w.buffer.text := by
  rw [String.toList_join, drain_fst, List.flatMap_assoc]
  refine List.flatMap_congr fun kind _ => ?_
  rw [List.flatMap_assoc]
  refine List.flatMap_congr fun w hw => ?_
  rw [LineBuffer.text, (hsettled kind w hw).pending]
  simp

end Drain

section Emitted

variable {e e' : Engine} (nowMs : Nat) (took took' : Activity → Nat)

def emitted (nowMs : Nat) (took : Activity → Nat) (e : Engine) : String :=
  String.join (e.drain.2.tick nowMs took).drain.1.toList

theorem writes_tick (he : e.WellFormed) (hself : e.settings.selfStats = false)
    (hsettled : e.Settled)
    (hempty : ∀ kind, ∀ w ∈ e.workers.get kind, w.buffer.outlet.delivered = #[]) (kind : Kind) :
    e.settings.dialect.Writes (nowMs / 1000)
      (((e.tick nowMs took).workers.get kind).flatMap fun w => w.buffer.text)
      ((e.stage nowMs took kind).report nowMs kind) := by
  have hmoves := moves_tick nowMs took he
  have hstage := moves_stage nowMs took he kind
  -- Every worker, with its number, has written its shard.
  have hworker : ∀ p ∈ ((e.tick nowMs took).workers.get kind).zipIdx,
      e.settings.dialect.Writes (nowMs / 1000) p.1.buffer.text
        (((e.stage nowMs took kind).store.shard kind p.2 (e.crew kind)).flatMap
          ((e.stage nowMs took kind).store.told (Record.readings e.settings nowMs kind))) := by
    rintro ⟨w', id⟩ hp
    rw [List.mk_mem_zipIdx_iff_getElem?] at hp
    have hid := (worker_of_staffed hmoves.wellFormed hp).2.2.2
    rw [hmoves.crew, ← length_workers] at hid
    have hw := List.getElem?_eq_getElem hid
    obtain ⟨w'', readings, hw'', hperm, hreports⟩ :=
      reports_tick nowMs took he hself hsettled kind id _ hw
    rw [hp, Option.some.injEq] at hw''
    subst hw''
    refine ⟨readings, hperm, hreports.text.trans ?_⟩
    have hmem := List.getElem_mem hid
    simp [LineBuffer.text, hempty kind _ hmem, (hsettled kind _ hmem).pending]
  have hall := Dialect.Writes.flatMap hworker
  rw [← List.flatMap_map Prod.fst fun w : Worker => w.buffer.text, List.zipIdx_map_fst,
    ← List.flatMap_map Prod.snd fun id => ((e.stage nowMs took kind).store.shard kind id
      (e.crew kind)).flatMap ((e.stage nowMs took kind).store.told
        (Record.readings e.settings nowMs kind)),
    List.zipIdx_map_snd, ← List.range_eq_range', length_workers, hmoves.crew,
    ← List.flatMap_assoc] at hall
  have hshards := shards_perm_live hstage.wellFormed kind
  rw [hstage.crew] at hshards
  unfold report
  rw [hstage.settings]
  exact hall.perm (hshards.flatMap_right _)

/-- The output of a tick is a line for everything that it reports, in some order. -/
theorem writes_emitted (he : e.WellFormed) (hself : e.settings.selfStats = false)
    (hsettled : e.Settled) : e.settings.dialect.Writes (nowMs / 1000)
      (e.emitted nowMs took).toList (e.drain.2.reported nowMs took) := by
  have hmoves := moves_drain he
  have hself' : e.drain.2.settings.selfStats = false := hmoves.settings ▸ hself
  have hsettled' := settled_drain he hsettled
  unfold emitted
  rw [text_drain (settled_tick nowMs took hmoves.wellFormed hself' hsettled'), ← hmoves.settings]
  exact Dialect.Writes.flatMap fun kind _ => writes_tick nowMs took hmoves.wellFormed hself'
    hsettled' (fun _ _ hw => delivered_drain hw) kind

theorem Mirrors.lines_emitted (h : e.Mirrors e') (hself : e.settings.selfStats = false)
    (hsettled : e.Settled) (hsettled' : e'.Settled) :
    (lines (e.emitted nowMs took).toList).Perm (lines (e'.emitted nowMs took').toList) := by
  have hself' : e'.settings.selfStats = false := by
    rw [← hself, h.settings.others]
  have hwrites := writes_emitted nowMs took' h.wellFormed' hself' hsettled'
  rw [h.drain.reported nowMs took took', h.settings.dialect] at hwrites
  exact (writes_emitted nowMs took h.wellFormed hself hsettled).lines_perm hwrites

end Emitted

section Swaps

variable {e : Engine} (nowMs : Nat) (took : Activity → Nat)

/-- What a worker does with its shard when it swaps it: an adder worker in the first half of its
tick, another one in its pass. -/
def swapShard (nowMs : Nat) (kind : Kind) (id : Nat) (e : Engine) : Engine :=
  if kind = .adder then e.takeShard nowMs id else e.passShard nowMs kind id

/-- A record is swapped by the worker in whose shard it is, while the others of its kind leave it
alone; and what becomes of it in the tick is what one swap makes of it, apart from the totals that
an adder is given and its forecast. -/
structure SwapsOnce (e : Engine) (nowMs : Nat) (took : Activity → Nat) (h : Handle) (r : Record) :
    Prop where
  owner : ∃ id < e.crew r.kind, ∀ other < e.crew r.kind,
    (e.store.shard r.kind other (e.crew r.kind)).count h = (if other = id then 1 else 0) ∧
      (e.swapShard nowMs r.kind other).store.get? h =
        some (if other = id then r.swapped e.settings.predictLimit else r)
  adder : r.kind = .adder → ∃ middle last, (e.computed nowMs took).store.get? h = some middle ∧
    (e.tick nowMs took).store.get? h = some last ∧
    middle.body = (r.swapped e.settings.predictLimit).body.given
      (Synthetic.givenTo (e.evaluations nowMs) h) ∧
    last.body = (middle.reportAdder e.settings nowMs).2.body
  other : r.kind ≠ .adder → ∃ last, (e.tick nowMs took).store.get? h = some last ∧
    last.body = (r.swapped e.settings.predictLimit).body

theorem get?_swapShard (he : e.WellFormed) {h : Handle} {r : Record}
    (hr : e.store.get? h = some r) (id : Nat) :
    (e.swapShard nowMs r.kind id).store.get? h =
      some (if e.visits r.kind id r then r.swapped e.settings.predictLimit else r) := by
  unfold swapShard Record.swapped
  by_cases hkind : r.kind = .adder
  · rw [if_pos hkind, (revises_takeShard nowMs id he).get, hr, Option.map_some, hkind, if_pos rfl]
  · rw [if_neg hkind, (revises_passShard nowMs id he r.kind).get, hr, Option.map_some,
      Worker.passed, if_neg hkind, if_neg hkind]

theorem swapsOnce (he : e.WellFormed) {h : Handle} {r : Record} (hr : e.store.get? h = some r)
    (hvalid : r.valid = true) (hcrew : 0 < e.crew r.kind) : e.SwapsOnce nowMs took h r where
  owner := by
    refine ⟨r.hash.toNat % (e.store.table r.kind).size % e.crew r.kind, Nat.mod_lt _ hcrew, ?_⟩
    intro id hid
    have hown : r.inShard (e.store.table r.kind).size r.kind (e.crew r.kind) id = true ↔
        id = r.hash.toNat % (e.store.table r.kind).size % e.crew r.kind := by
      simp only [Record.inShard, hvalid, beq_self_eq_true, Bool.true_and, beq_iff_eq]
      exact eq_comm
    have hmem : h ∈ e.store.shard r.kind id (e.crew r.kind) ↔
        r.inShard (e.store.table r.kind).size r.kind (e.crew r.kind) id = true := by
      rw [Store.mem_shard he.store hid]
      simp [hr]
    constructor
    · rw [(Store.shard_nodup he.store r.kind hcrew id).count]
      simp only [hmem, hown]
    · rw [get?_swapShard nowMs he hr]
      simp only [visits, hid, decide_true, Bool.true_and, hown]
  adder hkind := by
    have hcovers : e.covers .adder r = true := by
      rw [hkind] at hcrew
      simp [covers, hvalid, hkind, hcrew]
    obtain ⟨middle, last, hmiddle, hlast, -, htaken, hreported⟩ :=
      get?_tick_adder nowMs took he hr hkind
    rw [if_pos hcovers] at htaken hreported
    refine ⟨middle, last, hmiddle, hlast, ?_, hreported⟩
    rw [Record.swapped, if_pos hkind]
    exact htaken
  other hkind := by
    have hcovers : e.covers r.kind r = true := by simp [covers, hvalid, hcrew]
    obtain ⟨last, hlast, hbody⟩ := get?_tick_other nowMs took he hr hkind
    rw [if_pos hcovers] at hbody
    refine ⟨last, hlast, ?_⟩
    rw [Record.swapped, if_neg hkind]
    exact hbody

end Swaps

section Sizes

/-- Two engines at the same tick: their lines are the same, in whatever order, and so are their
records, each of which is swapped once in either engine. -/
structure TicksAlike (e e' : Engine) (nowMs : Nat) (took took' : Activity → Nat) : Prop where
  lines : (lines (e.emitted nowMs took).toList).Perm (lines (e'.emitted nowMs took').toList)
  records : e'.store.records = e.store.records
  swaps : ∀ h r, e.store.get? h = some r → r.valid = true →
    (e.settings.kind r.kind).enable = true →
      e.SwapsOnce nowMs took h r ∧ e'.SwapsOnce nowMs took' h r

theorem crewed_ofConfig {c : EngineConfig} {e : Engine} (h : ofConfig c = .ok e) {kind : Kind}
    (henable : (e.settings.kind kind).enable = true) : 0 < e.crew kind := by
  obtain ⟨settings, checks, layouts, definitions, hparts, rfl⟩ := ofConfig_eq h
  rw [settings_assembled hparts] at henable
  exact hparts.crewed henable

theorem selfStats_ofConfig {c : EngineConfig} {e : Engine} (h : ofConfig c = .ok e) :
    e.settings.selfStats = c.selfStats.enable := by
  obtain ⟨settings, checks, layouts, definitions, hparts, rfl⟩ := ofConfig_eq h
  rw [settings_assembled hparts]
  have h := hparts.settings
  unfold Settings.ofConfig at h
  cases hthresholds : c.stats.thresholdList with
  | error cause => rw [hthresholds] at h; cases h
  | ok thresholds =>
    rw [hthresholds] at h
    cases h
    rfl

/-- The number of workers, the number of buckets and the size of buffers do not change what is
reported: after the same calls, a tick emits the same lines for any of them. -/
theorem emitted_sized {c : EngineConfig} {e : Engine} (h : ofConfig c = .ok e)
    (hself : c.selfStats.enable = false) (s : Sizing) :
    ∃ e', ofConfig (c.sized s) = .ok e' ∧
      ∀ calls calls', List.Forall₂ Call.Alike calls calls' → ∀ nowMs took took',
        (e.run calls).TicksAlike (e'.run calls') nowMs took took' := by
  obtain ⟨e', he', hmirrors⟩ := ofConfig_sized h s
  have hquiet : e.settings.selfStats = false := (selfStats_ofConfig h).trans hself
  have hquiet' : e'.settings.selfStats = false := (selfStats_ofConfig he').trans hself
  refine ⟨e', he', fun calls calls' halike nowMs took took' => ?_⟩
  have hrun := hmirrors.run halike
  have hleads := leads_run hmirrors.wellFormed calls
  constructor
  case lines =>
    exact hrun.lines_emitted nowMs took took' (hleads.settings ▸ hquiet)
      (settled_run hmirrors.wellFormed hquiet (settled_ofConfig h) calls)
      (settled_run hmirrors.wellFormed' hquiet' (settled_ofConfig he') calls')
  case records => exact hrun.records
  case swaps =>
    intro k r hr hvalid henable
    have hcrew : 0 < (e.run calls).crew r.kind := by
      rw [hleads.settings] at henable
      rw [hleads.crew]
      exact crewed_ofConfig h henable
    refine ⟨swapsOnce nowMs took hrun.wellFormed hr hvalid hcrew,
      swapsOnce nowMs took' hrun.wellFormed' ?_ hvalid ((hrun.crewed r.kind).mpr hcrew)⟩
    rw [hrun.store.get?, hr]

/-- Three workers over one bucket. -/
def crowded : Sizing := ⟨.ofFn fun _ => some 3, .ofFn fun _ => some 1, 64⟩

theorem emitted_sized_crowded :
    let quiet := compact { selfStats := { enable := false } }
    let calls := [point "a" 5, point "b" 7]
    ∃ e e', ofConfig quiet = .ok e ∧ ofConfig (quiet.sized crowded) = .ok e' ∧
      e'.crew .adder = 3 ∧ (e'.store.table .adder).size = 1 ∧
      (e.run calls).emitted 1000 (fun _ => 0) = "a 5.000000\nb 7.000000\n" ∧
      (e'.run calls).emitted 1000 (fun _ => 0) = "b 7.000000\na 5.000000\n" ∧
      (e.run calls).TicksAlike (e'.run calls) 1000 (fun _ => 0) fun _ => 0 := by
  intro quiet calls
  have hcheck : (ofConfig quiet).toOption.any (fun e =>
      decide ((e.run calls).emitted 1000 (fun _ => 0) = "a 5.000000\nb 7.000000\n")) = true := by
    decide +kernel
  have hcheck' : (ofConfig (quiet.sized crowded)).toOption.any (fun e =>
      decide (e.crew .adder = 3 ∧ (e.store.table .adder).size = 1 ∧
        (e.run calls).emitted 1000 (fun _ => 0) = "b 7.000000\na 5.000000\n")) = true := by
    decide +kernel
  obtain ⟨e, he, htext⟩ := exists_ofConfig hcheck
  obtain ⟨e', he', htext'⟩ := exists_ofConfig hcheck'
  obtain ⟨d, hd, halike⟩ := emitted_sized he rfl crowded
  rw [he'] at hd
  cases hd
  obtain ⟨hcrew, hsize, htext'⟩ := of_decide_eq_true htext'
  exact ⟨e, e', he, he', hcrew, hsize, of_decide_eq_true htext, htext',
    halike calls calls (List.forall₂_same.mpr fun call _ => .same call) 1000 _ _⟩

end Sizes

end Engine

end Rollup
