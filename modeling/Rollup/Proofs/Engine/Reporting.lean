import Rollup.Proofs.Engine.Ticks
import Rollup.Proofs.Output.Handoff
import Rollup.Proofs.Statistics.Batch

/-! What workers write. Each reports the records of its shard as they are when its turn comes, which
is as they were before the first of them came. -/
namespace Rollup

def Record.readings (settings : Settings) (nowMs : Nat) (kind : Kind) (r : Record) : List Reading :=
  match kind with
  | .adder => (r.reportAdder settings nowMs).1.readings
  | .gauge => (r.passGauge settings).1.readings
  | .stats => (r.passStats settings {}).1.readings
  | .histogram => (r.passHistogram settings).1.readings

theorem Record.passStats_workspace (settings : Settings) (r : Record) (w : Sorting.Workspace) :
    (r.passStats settings w).1 = (r.passStats settings {}).1 := by
  cases hbody : r.body with
  | stats sides =>
    rw [passStats_report hbody, passStats_report hbody,
      Sorting.sortSamples_eq_of_perm (Array.Perm.refl _) _ settings.sortThreshold w {}]
  | _ => simp only [passStats, swap, hbody, Body.swap]

def Store.told (s : Store) (readings : Record → List Reading) (h : Handle) : List Reading :=
  ((s.get? h).map readings).getD []

theorem Store.told_congr {s s' : Store} {h : Handle} (hget : s'.get? h = s.get? h)
    (readings : Record → List Reading) : s'.told readings h = s.told readings h := by
  unfold told
  rw [hget]

namespace Worker

def Tells (visitor : Worker × Store → Handle → Worker × Store)
    (readings : Record → List Reading) : Prop :=
  ∀ w s h, (visitor (w, s) h).1.buffer = w.buffer.pushAll (s.told readings h)

theorem tells_visit (step : Record → RecordReport × Record) :
    Tells (visit step) fun r => (step r).1.readings := by
  intro w s h
  simp only [visit, Store.told]
  cases s.get? h <;> rfl

theorem tells_visitStats (settings : Settings) :
    Tells (visitStats settings) fun r => (r.passStats settings {}).1.readings := by
  intro w s h
  simp only [visitStats, Store.told]
  cases s.get? h with
  | none => rfl
  | some r =>
    simp only [Option.map_some, Option.getD_some]
    rw [← r.passStats_workspace settings w.workspace]
    rfl

theorem tells_visitor (settings : Settings) (nowMs : Nat) {kind : Kind} (hkind : kind ≠ .adder) :
    Tells (visitor settings kind) (Record.readings settings nowMs kind) := by
  cases kind with
  | adder => exact absurd rfl hkind
  | gauge => exact tells_visit (Record.passGauge settings)
  | stats => exact tells_visitStats settings
  | histogram => exact tells_visit (Record.passHistogram settings)

theorem Tells.foldl {visitor : Worker × Store → Handle → Worker × Store}
    {readings : Record → List Reading} {f : Record → Record} (htells : Tells visitor readings)
    (hvisits : Visits visitor f) {hs : List Handle} (hnodup : hs.Nodup) (w : Worker) (s : Store) :
    (hs.foldl visitor (w, s)).1.buffer = w.buffer.pushAll (hs.flatMap (s.told readings)) := by
  induction hs generalizing w s with
  | nil => rfl
  | cons h rest ih =>
    obtain ⟨hnot, hrest⟩ := List.nodup_cons.mp hnodup
    -- The first visit leaves the records that are still to come as they are.
    have hsame : rest.flatMap ((visitor (w, s) h).2.told readings) =
        rest.flatMap (s.told readings) := by
      refine List.flatMap_congr fun k hk => Store.told_congr ?_ readings
      rw [hvisits.store, Store.get?_modify, if_neg]
      rintro rfl
      exact hnot hk
    rw [List.foldl_cons, ih hrest, htells, hsame, List.flatMap_cons, LineBuffer.pushAll_append]

section Turns

variable (settings : Settings) (nowMs took : Nat) {w : Worker} {s : Store}

theorem reports_reportAdders (hself : settings.selfStats = false)
    (hnodup : (s.shard .adder w.id w.shards).Nodup)
    (hopen : w.buffer.Open settings.dialect (nowMs / 1000)) :
    w.buffer.Reports ((reportAdders settings nowMs w s).1.finish settings took).buffer
      settings.dialect (nowMs / 1000)
      ((s.shard .adder w.id w.shards).flatMap
        (s.told (Record.readings settings nowMs .adder))) := by
  have htells := (tells_visit (Record.reportAdder settings nowMs)).foldl (visits_visit _) hnodup w s
  simp only [finish, hself, Bool.false_eq_true, if_false, reportAdders, htells]
  exact hopen.reports _

theorem reports_pass (hself : settings.selfStats = false) (hkind : w.kind ≠ .adder)
    (hnodup : (s.shard w.kind w.id w.shards).Nodup) (hsettled : w.buffer.Settled settings.dialect) :
    w.buffer.Reports ((pass settings nowMs w s).1.finish settings took).buffer
      settings.dialect (nowMs / 1000)
      ((s.shard w.kind w.id w.shards).flatMap
        (s.told (Record.readings settings nowMs w.kind))) := by
  have htells := (tells_visitor settings nowMs hkind).foldl (visits_visitor settings w.kind) hnodup
    (w.start nowMs) s
  have hreports := (hsettled.open (nowMs / 1000)).reports
    ((s.shard w.kind w.id w.shards).flatMap (s.told (Record.readings settings nowMs w.kind)))
  simp only [finish, hself, Bool.false_eq_true, if_false, pass_eq, htells]
  exact ⟨hreports.settled, hreports.text⟩

end Turns

end Worker

namespace Engine

section Workers

theorem worker_onWorker (kind : Kind) (id : Nat) (act : Worker → Store → Worker × Store)
    (e : Engine) (other : Kind) (i : Nat) :
    ((e.onWorker kind id act).workers.get other)[i]? =
      if other = kind ∧ i = id then ((e.workers.get kind)[id]?).map fun w => (act w e.store).1
      else (e.workers.get other)[i]? := by
  unfold onWorker
  cases hw : (e.workers.get kind)[id]? with
  | none =>
    split_ifs with hown
    · rw [hown.1, hown.2, hw]
      rfl
    · rfl
  | some w =>
    simp only [PerKind.modify_eq_set, Option.map_some]
    by_cases hother : other = kind
    · subst hother
      obtain ⟨hlt, -⟩ := List.getElem?_eq_some_iff.mp hw
      rw [PerKind.get_set_self, List.getElem?_set]
      by_cases hi : i = id
      · simp [hi, hlt]
      · simp [hi, Ne.symm hi]
    · rw [PerKind.get_set_of_ne _ _ hother, if_neg fun hown => hother hown.1]

@[simp] theorem workers_measure (signal : Signal) (e : Engine) :
    (e.measure signal).workers = e.workers := rfl

theorem workers_measureAll (signals : List Signal) (e : Engine) :
    (e.measureAll signals).workers = e.workers :=
  foldl_keeps Engine.workers (flip measure) (fun _ _ => rfl) signals e

theorem workers_finishShard (took : Nat) (kind : Kind) (id : Nat) (e : Engine) :
    (e.finishShard took kind id).workers =
      (e.onWorker kind id fun w store => (w.finish e.settings took, store)).workers := by
  unfold finishShard
  simp only
  split
  · rfl
  · exact workers_measureAll _ _

theorem worker_turn (took : Nat) (kind : Kind) (id : Nat)
    (act : Worker → Store → Worker × Store) (e : Engine) (other : Kind) (i : Nat) :
    (((e.onWorker kind id act).finishShard took kind id).workers.get other)[i]? =
      if other = kind ∧ i = id then
        ((e.workers.get kind)[id]?).map fun w => (act w e.store).1.finish e.settings took
      else (e.workers.get other)[i]? := by
  rw [workers_finishShard, worker_onWorker, worker_onWorker, worker_onWorker, settings_onWorker]
  split_ifs with hown hsame
  · rw [Option.map_map]
    rfl
  · exact absurd ⟨rfl, rfl⟩ hsame
  · rfl

end Workers

section Sweep

variable {e : Engine} {kind : Kind} {f : Record → Record} {act : Engine → Nat → Engine}

theorem worker_foldl (act : Engine → Nat → Engine) (turn : Engine → Nat → Worker → Worker)
    (hturn : ∀ e id other i, ((act e id).workers.get other)[i]? =
      if other = kind ∧ i = id then ((e.workers.get kind)[id]?).map (turn e id)
      else (e.workers.get other)[i]?)
    (e : Engine) (n : Nat) (other : Kind) (i : Nat) :
    (((List.range n).foldl act e).workers.get other)[i]? =
      if other = kind ∧ i < n then
        ((e.workers.get kind)[i]?).map (turn ((List.range i).foldl act e) i)
      else (e.workers.get other)[i]? := by
  induction n generalizing other i with
  | zero => rw [if_neg fun h => Nat.not_lt_zero _ h.2]; rfl
  | succ n ih =>
    rw [List.range_succ, List.foldl_append, List.foldl_cons, List.foldl_nil, hturn]
    by_cases hother : other = kind
    · subst hother
      by_cases hi : i = n
      · subst hi
        simp [ih]
      · have hlt : i < n + 1 ↔ i < n := by omega
        simp [hi, ih, hlt]
    · simp [hother, ih]

theorem workers_foldl (act : Engine → Nat → Engine) (turn : Engine → Nat → Worker → Worker)
    (hturn : ∀ e id other i, ((act e id).workers.get other)[i]? =
      if other = kind ∧ i = id then ((e.workers.get kind)[id]?).map (turn e id)
      else (e.workers.get other)[i]?)
    (e : Engine) (n : Nat) {other : Kind} (hother : other ≠ kind) :
    ((List.range n).foldl act e).workers.get other = e.workers.get other := by
  ext1 i
  rw [worker_foldl act turn hturn, if_neg fun h => hother h.1]

/-- When the turn of a worker comes, the records of its shard are as they were before the first
turn. -/
theorem get?_foldl_shard (he : e.WellFormed) (hf : ∀ r, Record.Stays r (f r))
    (hact : ∀ e', e.Moves e' → ∀ id, e'.Moves (act e' id) ∧
      e'.store.Revises (act e' id).store fun _ r => if e'.visits kind id r then f r else r)
    {id : Nat} (hid : id < e.crew kind) {h : Handle} {r : Record} (hr : e.store.get? h = some r)
    (hown : r.inShard (e.store.table kind).size kind (e.crew kind) id = true) :
    ((List.range id).foldl act e).store.get? h = some r := by
  rw [(revises_foldl he hf hact id (Nat.le_of_lt hid)).2.get, hr, Option.map_some, if_neg]
  rintro ⟨earlier, hearlier, hother⟩
  have := Record.inShard_unique hother hown
  omega

theorem told_foldl (he : e.WellFormed) (hf : ∀ r, Record.Stays r (f r))
    (hact : ∀ e', e.Moves e' → ∀ id, e'.Moves (act e' id) ∧
      e'.store.Revises (act e' id).store fun _ r => if e'.visits kind id r then f r else r)
    {id : Nat} (hid : id < e.crew kind) (readings : Record → List Reading) :
    let now := (List.range id).foldl act e
    ((now.store.shard kind id (e.crew kind)).flatMap (now.store.told readings)).Perm
      ((e.store.shard kind id (e.crew kind)).flatMap (e.store.told readings)) := by
  intro now
  obtain ⟨hmoves, hrevises⟩ := revises_foldl he hf hact id (Nat.le_of_lt hid)
  have hpos : 0 < e.crew kind := by omega
  have hget : ∀ h r, e.store.get? h = some r →
      r.inShard (e.store.table kind).size kind (e.crew kind) id = true →
      now.store.get? h = some r := fun h r hr hown => get?_foldl_shard he hf hact hid hr hown
  have hmem : ∀ h, h ∈ now.store.shard kind id (e.crew kind) ↔
      h ∈ e.store.shard kind id (e.crew kind) := by
    intro h
    rw [Store.mem_shard hmoves.wellFormed.store hid, Store.mem_shard he.store hid, hrevises.size]
    constructor
    · rintro ⟨r', hr', hown⟩
      obtain ⟨r, hr, rfl, -⟩ := hrevises.before hr'
      refine ⟨r, hr, ?_⟩
      split at hown
      · rwa [(hf r).inShard] at hown
      · exact hown
    · rintro ⟨r, hr, hown⟩
      exact ⟨r, hget h r hr hown, hown⟩
  have hperm : (now.store.shard kind id (e.crew kind)).Perm (e.store.shard kind id (e.crew kind)) :=
    (List.perm_ext_iff_of_nodup (Store.shard_nodup hmoves.wellFormed.store kind hpos id)
      (Store.shard_nodup he.store kind hpos id)).mpr hmem
  refine hperm.flatMap fun h hh => ?_
  obtain ⟨r, hr, hown⟩ := (Store.mem_shard he.store hid h).mp ((hmem h).mp hh)
  exact .of_eq (Store.told_congr ((hget h r hr hown).trans hr.symm) readings)

end Sweep

end Engine

end Rollup
