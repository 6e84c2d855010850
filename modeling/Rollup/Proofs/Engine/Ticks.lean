import Rollup.Proofs.Engine.Workers

/-! Whole ticks. Workers that come one after the other have together treated every valid record of
their kind, each one once. -/
namespace Rollup

theorem Record.Stays.inShard {r r' : Record} (h : r.Stays r') (size : Nat) (kind : Kind)
    (shards shard : Nat) :
    r'.inShard size kind shards shard = r.inShard size kind shards shard := by
  unfold Record.inShard
  rw [h.valid, h.follows.kind, h.follows.hash]

namespace Engine

def covers (e : Engine) (kind : Kind) (r : Record) : Bool :=
  r.valid && r.kind == kind && decide (0 < e.crew kind)

theorem Leads.covers {e e' : Engine} (h : e.Leads e') (kind : Kind) (r : Record) :
    e'.covers kind r = e.covers kind r := by
  unfold Engine.covers
  rw [h.crew]

theorem covers_congr {e : Engine} {kind : Kind} {r r' : Record} (h : r.Stays r') :
    e.covers kind r' = e.covers kind r := by
  unfold covers
  rw [h.valid, h.follows.kind]

theorem workerIds_eq (e : Engine) (kind : Kind) : e.workerIds kind = List.range (e.crew kind) := by
  rw [workerIds, crew, staff, List.length_map]

/-- The workers of a kind part its records: each valid one is in the shard of one of them. -/
theorem covers_iff_inShard (e : Engine) (kind : Kind) (r : Record) :
    e.covers kind r = true ↔
      ∃ id < e.crew kind, r.inShard (e.store.table kind).size kind (e.crew kind) id = true := by
  simp only [Record.inShard, covers, Bool.and_eq_true, beq_iff_eq, decide_eq_true_eq]
  constructor
  · rintro ⟨hrecord, hpos⟩
    exact ⟨_, Nat.mod_lt _ hpos, hrecord, rfl⟩
  · rintro ⟨id, hid, hrecord, -⟩
    exact ⟨hrecord, by omega⟩

section Sweep

variable {e : Engine} {kind : Kind} {f : Record → Record} {act : Engine → Nat → Engine}

theorem revises_foldl (he : e.WellFormed) (hf : ∀ r, Record.Stays r (f r))
    (hact : ∀ e', e.Moves e' → ∀ id, e'.Moves (act e' id) ∧
      e'.store.Revises (act e' id).store fun _ r => if e'.visits kind id r then f r else r)
    (n : Nat) (hn : n ≤ e.crew kind) :
    e.Moves ((List.range n).foldl act e) ∧
      e.store.Revises ((List.range n).foldl act e).store fun _ r =>
        if ∃ id < n, r.inShard (e.store.table kind).size kind (e.crew kind) id = true then f r
        else r := by
  induction n with
  | zero =>
    refine ⟨.refl he, (Store.Revises.refl e.store).congr fun k r _ => ?_⟩
    rw [if_neg]
    rintro ⟨id, hid, -⟩
    omega
  | succ n ih =>
    obtain ⟨hmoves, hrevises⟩ := ih (by omega)
    rw [List.range_succ, List.foldl_append, List.foldl_cons, List.foldl_nil]
    generalize (List.range n).foldl act e = e' at hmoves hrevises ⊢
    obtain ⟨hnext, hlast⟩ := hact e' hmoves n
    refine ⟨hmoves.trans hnext, (hrevises.trans hlast).congr fun k r _ => ?_⟩
    have hvisits : ∀ r', r.Stays r' → e'.visits kind n r' =
        r.inShard (e.store.table kind).size kind (e.crew kind) n := by
      intro r' hstays
      rw [visits, hmoves.crew, hrevises.size, hstays.inShard]
      simp only [Bool.and_eq_right_iff_imp, decide_eq_true_eq]
      omega
    by_cases hearlier : ∃ id < n, r.inShard (e.store.table kind).size kind (e.crew kind) id = true
    · -- The record belongs to one shard only.
      rw [if_pos hearlier, hvisits _ (hf r)]
      obtain ⟨id, hid, hshard⟩ := hearlier
      have hother : r.inShard (e.store.table kind).size kind (e.crew kind) n = false := by
        refine Bool.eq_false_iff.mpr fun hown => ?_
        have := Record.inShard_unique hshard hown
        omega
      rw [hother, if_neg Bool.false_ne_true, if_pos ⟨id, by omega, hshard⟩]
    · rw [if_neg hearlier, hvisits r (.refl r)]
      by_cases hown : r.inShard (e.store.table kind).size kind (e.crew kind) n = true
      · rw [if_pos hown, if_pos ⟨n, by omega, hown⟩]
      · rw [if_neg hown, if_neg]
        rintro ⟨id, hid, hshard⟩
        rcases Nat.lt_succ_iff_lt_or_eq.mp hid with hlt | rfl
        · exact hearlier ⟨id, hlt, hshard⟩
        · exact hown hshard

theorem revises_sweep (he : e.WellFormed) (hf : ∀ r, Record.Stays r (f r))
    (hact : ∀ e', e.Moves e' → ∀ id, e'.Moves (act e' id) ∧
      e'.store.Revises (act e' id).store fun _ r => if e'.visits kind id r then f r else r) :
    e.Moves ((List.range (e.crew kind)).foldl act e) ∧
      e.store.Revises ((List.range (e.crew kind)).foldl act e).store fun _ r =>
        if e.covers kind r then f r else r := by
  obtain ⟨hmoves, hrevises⟩ := revises_foldl he hf hact (e.crew kind) (Nat.le_refl _)
  refine ⟨hmoves, hrevises.congr fun k r _ => ?_⟩
  simp only [covers_iff_inShard]

end Sweep

section Adders

variable {e : Engine} (nowMs : Nat) (took : Activity → Nat)

def taken (nowMs : Nat) (e : Engine) : Engine :=
  (e.workerIds .adder).foldl (fun e id => e.takeShard nowMs id) e

def computed (nowMs : Nat) (took : Activity → Nat) (e : Engine) : Engine :=
  (e.taken nowMs).runSynthetics (took .synthetics)

def evaluations (nowMs : Nat) (e : Engine) : List Synthetic.Evaluation :=
  Synthetic.evaluations (e.taken nowMs).synthetics (e.taken nowMs).store

theorem revises_taken (he : e.WellFormed) :
    e.Moves (e.taken nowMs) ∧ e.store.Revises (e.taken nowMs).store fun _ r =>
      if e.covers .adder r then r.takeAdder e.settings.predictLimit else r := by
  unfold taken
  rw [workerIds_eq]
  refine revises_sweep he (Record.stays_takeAdder _) fun e' hmoves id =>
    ⟨moves_takeShard nowMs id hmoves.wellFormed, ?_⟩
  rw [← hmoves.settings]
  exact revises_takeShard nowMs id hmoves.wellFormed

theorem revises_reportTurn (took : Nat) (he : e.WellFormed) (id : Nat) :
    e.Moves ((e.reportShard nowMs id).finishShard took .adder id) ∧
      e.store.Revises ((e.reportShard nowMs id).finishShard took .adder id).store
        fun _ r => if e.visits .adder id r then (r.reportAdder e.settings nowMs).2 else r := by
  have hreport := moves_reportShard nowMs id he
  refine ⟨hreport.trans (moves_finishShard took id hreport.wellFormed .adder), ?_⟩
  rw [store_finishShard]
  exact revises_reportShard nowMs id he

theorem revises_laterTurn (took : Activity → Nat) {d d' : Engine} (hd : e.Moves d)
    (hmoves : d.Moves d') (id : Nat) :
    d'.Moves ((d'.reportShard nowMs id).finishShard (took (.worker .adder id)) .adder id) ∧
      d'.store.Revises
        ((d'.reportShard nowMs id).finishShard (took (.worker .adder id)) .adder id).store
        fun _ r => if d'.visits .adder id r then (r.reportAdder e.settings nowMs).2 else r := by
  rw [← (hd.trans hmoves).settings]
  exact revises_reportTurn nowMs _ hmoves.wellFormed id

theorem moves_computed (he : e.WellFormed) : e.Moves (e.computed nowMs took) := by
  have htaken := (revises_taken nowMs he).1
  exact htaken.trans (moves_runSynthetics _ htaken.wellFormed)

theorem tickAdders_eq (he : e.WellFormed) :
    e.tickAdders nowMs took = (List.range ((e.computed nowMs took).crew .adder)).foldl
      (fun e id => (e.reportShard nowMs id).finishShard (took (.worker .adder id)) .adder id)
      (e.computed nowMs took) := by
  rw [(moves_computed nowMs took he).crew, ← workerIds_eq]
  rfl

theorem revises_tickAdders (he : e.WellFormed) :
    e.Moves (e.tickAdders nowMs took) ∧
      (e.computed nowMs took).store.Revises (e.tickAdders nowMs took).store fun _ r =>
        if e.covers .adder r then (r.reportAdder e.settings nowMs).2 else r := by
  have hcomputed := moves_computed nowMs took he
  obtain ⟨hmoves, hrevises⟩ :=
    revises_sweep hcomputed.wellFormed (Record.stays_reportAdder e.settings nowMs)
      fun _ hmoves id => revises_laterTurn nowMs took hcomputed hmoves id
  rw [← tickAdders_eq nowMs took he] at hmoves hrevises
  exact ⟨hcomputed.trans hmoves, hrevises.congr fun k r _ => by rw [hcomputed.covers]⟩

end Adders

section Others

variable {e : Engine} (nowMs : Nat) (took : Activity → Nat)

theorem revises_passTurn (took : Nat) (he : e.WellFormed) (kind : Kind) (id : Nat) :
    e.Moves ((e.passShard nowMs kind id).finishShard took kind id) ∧
      e.store.Revises ((e.passShard nowMs kind id).finishShard took kind id).store
        fun _ r => if e.visits kind id r then Worker.passed kind r else r := by
  have hpass := moves_passShard nowMs id he kind
  refine ⟨hpass.trans (moves_finishShard took id hpass.wellFormed kind), ?_⟩
  rw [store_finishShard]
  exact revises_passShard nowMs id he kind

theorem revises_tickKind (he : e.WellFormed) (kind : Kind) :
    e.Moves (e.tickKind nowMs took kind) ∧
      e.store.Revises (e.tickKind nowMs took kind).store fun _ r =>
        if e.covers kind r then Worker.passed kind r else r := by
  unfold tickKind
  rw [workerIds_eq]
  exact revises_sweep he (stays_passed kind) fun e' hmoves id =>
    revises_passTurn nowMs _ hmoves.wellFormed kind id

theorem revises_tickKinds (he : e.WellFormed) {kinds : List Kind} (hnodup : kinds.Nodup)
    (hadder : Kind.adder ∉ kinds) :
    e.Moves (kinds.foldl (tickKind nowMs took) e) ∧
      e.store.Revises (kinds.foldl (tickKind nowMs took) e).store fun _ r =>
        if r.kind ∈ kinds ∧ e.covers r.kind r then r.swap else r := by
  induction kinds generalizing e with
  | nil => exact ⟨.refl he, (Store.Revises.refl e.store).congr fun k r _ => by simp⟩
  | cons kind rest ih =>
    obtain ⟨hnot, hrest⟩ := List.nodup_cons.mp hnodup
    obtain ⟨hne, hadder⟩ := List.ne_and_not_mem_of_not_mem_cons hadder
    obtain ⟨hmoves, hfirst⟩ := revises_tickKind nowMs took he kind
    obtain ⟨hmoves', hlast⟩ := ih hmoves.wellFormed hrest hadder
    refine ⟨hmoves.trans hmoves', (hfirst.trans hlast).congr fun k r _ => ?_⟩
    simp only [hmoves.covers, Worker.passed, if_neg (Ne.symm hne)]
    by_cases hkind : r.kind = kind
    · -- A record that was taken is not of a kind that is still to come.
      subst hkind
      by_cases hcovers : e.covers r.kind r = true
      · simp [hcovers, r.stays_swap.follows.kind, hnot]
      · simp [hcovers]
    · have hother : e.covers kind r = false := by simp [covers, hkind]
      simp [hother, hkind]

end Others

variable {e : Engine} (nowMs : Nat) (took : Activity → Nat)

def passed (nowMs : Nat) (took : Activity → Nat) (e : Engine) : Engine :=
  [Kind.gauge, .stats, .histogram].foldl (tickKind nowMs took) (e.tickAdders nowMs took)

theorem tick_eq (e : Engine) :
    e.tick nowMs took = (e.passed nowMs took).collect (took .collection) := rfl

theorem revises_passed (he : e.WellFormed) :
    e.Moves (e.passed nowMs took) ∧
      (e.tickAdders nowMs took).store.Revises (e.passed nowMs took).store fun _ r =>
        if r.kind ∈ [Kind.gauge, .stats, .histogram] ∧ e.covers r.kind r then r.swap else r := by
  have hadders := (revises_tickAdders nowMs took he).1
  have hnodup : [Kind.gauge, .stats, .histogram].Nodup := by decide
  obtain ⟨hmoves, hrevises⟩ :=
    revises_tickKinds nowMs took hadders.wellFormed hnodup (by decide)
  exact ⟨hadders.trans hmoves, hrevises.congr fun k r _ => by rw [hadders.covers]⟩

theorem moves_tick (he : e.WellFormed) : e.Moves (e.tick nowMs took) := by
  have hpassed := (revises_passed nowMs took he).1
  rw [tick_eq]
  exact hpassed.trans (moves_collect hpassed.wellFormed _)

theorem absent_passed (he : e.WellFormed) {h : Handle} (hr : e.store.get? h = none) :
    (e.passed nowMs took).store.get? h = none := by
  obtain ⟨htaken, hswap⟩ := revises_taken nowMs he
  obtain ⟨f, hcomputed, -⟩ := settles_runSynthetics (took .synthetics) htaken.wellFormed
  rw [(revises_passed nowMs took he).2.get, (revises_tickAdders nowMs took he).2.get, computed,
    hcomputed.get, hswap.get, hr]
  rfl

theorem absent_tick (he : e.WellFormed) {h : Handle} (hr : e.store.get? h = none) :
    (e.tick nowMs took).store.get? h = none := by
  have hpassed := (revises_passed nowMs took he).1
  rw [tick_eq, (revises_collect hpassed.wellFormed _).get, absent_passed nowMs took he hr,
    Option.map_none]

theorem get?_tick_adder (he : e.WellFormed) {h : Handle} {r : Record}
    (hr : e.store.get? h = some r) (hkind : r.kind = .adder) :
    ∃ middle last, (e.computed nowMs took).store.get? h = some middle ∧
      (e.tick nowMs took).store.get? h = some last ∧ middle.valid = r.valid ∧
      middle.body = (if e.covers .adder r then r.takeAdder e.settings.predictLimit else r).body.given
        (Synthetic.givenTo (e.evaluations nowMs) h) ∧
      last.body =
        (if e.covers .adder r then (middle.reportAdder e.settings nowMs).2 else middle).body := by
  obtain ⟨htaken, htaken'⟩ := revises_taken nowMs he
  obtain ⟨hadders, hreported⟩ := revises_tickAdders nowMs took he
  obtain ⟨hpassed, hpassed'⟩ := revises_passed nowMs took he
  have hfirst : (e.taken nowMs).store.get? h =
      some (if e.covers .adder r then r.takeAdder e.settings.predictLimit else r) := by
    rw [htaken'.get, hr, Option.map_some]
  have hstays : r.Stays (if e.covers .adder r then r.takeAdder e.settings.predictLimit else r) := by
    split
    · exact r.stays_takeAdder _
    · exact .refl r
  obtain ⟨middle, hmiddle, hstays', hbody⟩ :=
    (settles_runSynthetics (took .synthetics) htaken.wellFormed).get hfirst
  have hsame := hstays.trans hstays'
  have hreport := hreported.get h
  rw [computed, hmiddle, Option.map_some, covers_congr hsame] at hreport
  have hadder :
      (if e.covers .adder r then (middle.reportAdder e.settings nowMs).2 else middle).kind =
      .adder := by
    split
    · rw [(middle.stays_reportAdder _ _).follows.kind, hsame.follows.kind, hkind]
    · rw [hsame.follows.kind, hkind]
  have hafter : (e.passed nowMs took).store.get? h =
      some (if e.covers .adder r then (middle.reportAdder e.settings nowMs).2 else middle) := by
    rw [hpassed'.get, hreport, Option.map_some, hadder]
    simp
  have hlast := (revises_collect hpassed.wellFormed (took .collection)).get h
  rw [hafter, Option.map_some, ← tick_eq] at hlast
  refine ⟨middle, _, hmiddle, hlast, hsame.valid, hbody, ?_⟩
  split
  · exact body_collected _ _
  · rfl

theorem get?_tick_other (he : e.WellFormed) {h : Handle} {r : Record}
    (hr : e.store.get? h = some r) (hkind : r.kind ≠ .adder) :
    ∃ last, (e.tick nowMs took).store.get? h = some last ∧
      last.body = (if e.covers r.kind r then r.swap else r).body := by
  obtain ⟨htaken, htaken'⟩ := revises_taken nowMs he
  obtain ⟨-, hreported⟩ := revises_tickAdders nowMs took he
  obtain ⟨hpassed, hpassed'⟩ := revises_passed nowMs took he
  have hout : e.covers .adder r = false := by simp [covers, hkind]
  have hfirst : (e.taken nowMs).store.get? h = some r := by
    rw [htaken'.get, hr, Option.map_some, hout, if_neg Bool.false_ne_true]
  obtain ⟨middle, hmiddle, hstays, hbody⟩ :=
    (settles_runSynthetics (took .synthetics) htaken.wellFormed).get hfirst
  rw [Body.given_of_ne _ hkind] at hbody
  have hreport := hreported.get h
  rw [computed, hmiddle, Option.map_some, covers_congr hstays, hout,
    if_neg Bool.false_ne_true] at hreport
  have hother : r.kind ∈ [Kind.gauge, .stats, .histogram] := by
    cases hcase : r.kind with
    | adder => exact absurd hcase hkind
    | _ => decide
  have hafter := hpassed'.get h
  rw [hreport, Option.map_some, hstays.follows.kind, covers_congr hstays] at hafter
  simp only [hother, true_and] at hafter
  have hlast := (revises_collect hpassed.wellFormed (took .collection)).get h
  rw [hafter, Option.map_some, ← tick_eq] at hlast
  refine ⟨_, hlast, ?_⟩
  have hswapped : (if e.covers r.kind r then middle.swap else middle).body =
      (if e.covers r.kind r then r.swap else r).body := by
    split
    · exact congrArg Body.swap hbody
    · exact hbody
  rw [← hswapped]
  split
  · exact body_collected _ _
  · rfl

end Engine

end Rollup
