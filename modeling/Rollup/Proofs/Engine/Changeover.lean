import Rollup.Engine.Changeover
import Rollup.Proofs.Histogram.Currency
import Rollup.Proofs.Store.Absorption

/-! Creations of histograms while their layouts change. A creation may insert a record of layouts
that have been replaced since it chose, after the record's turn to be moved. If that does not
happen, and layouts are stored only when no records are being moved, all records are on the layouts
stored last. -/
namespace Rollup

namespace Changeover

theorem step_of_some {t : Changeover} {id : Nat} {stage : Stage} (h : t.calls[id]? = some stage) :
    t.step id = ⟨(act t.engine stage).1, t.calls.set id (act t.engine stage).2⟩ := by
  simp only [step, h]

theorem step_of_none {t : Changeover} {id : Nat} (h : t.calls[id]? = none) : t.step id = t := by
  simp only [step, h]

def Stage.onto? : Stage → Option LayoutSet
  | scan layouts _ => some layouts
  | visit layouts _ _ => some layouts
  | _ => none

theorem Stage.forall_onto_of_none {next : Stage} {P : LayoutSet → Prop} (h : next.onto? = none) :
    ∀ layouts ∈ next.onto?, P layouts := by
  simp [h]

/-- Whether the call will still come to a record that is linked in a bucket. -/
def Stage.Ahead (h : Handle) (bucket : Nat) : Stage → Prop
  | scan _ next => next ≤ bucket
  | visit _ here rest => h ∈ rest ∨ here < bucket
  | _ => False

def Approached (calls : List Stage) (h : Handle) (bucket : Nat) : Prop :=
  ∃ (id : Nat) (stage : Stage), calls[id]? = some stage ∧ stage.Ahead h bucket

theorem Approached.set {calls : List Stage} {id : Nat} {stage next : Stage} {h : Handle}
    {bucket : Nat} (hcall : calls[id]? = some stage)
    (hahead : stage.Ahead h bucket → next.Ahead h bucket)
    (happroached : Approached calls h bucket) :
    Approached (calls.set id next) h bucket := by
  obtain ⟨other, before, hbefore, hcase⟩ := happroached
  by_cases hid : other = id
  · subst hid
    rw [hcall, Option.some.injEq] at hbefore
    subst hbefore
    obtain ⟨hlt, -⟩ := List.getElem?_eq_some_iff.mp hcall
    exact ⟨other, next, List.getElem?_set_self hlt, hahead hcase⟩
  · exact ⟨other, before, (List.getElem?_set_ne (Ne.symm hid)).trans hbefore, hcase⟩

/-- A creation inserts before the layouts it chose from are replaced, and a reconfiguration stores
its layouts when no records are being moved. -/
def Timely (t : Changeover) : Stage → Prop
  | .enter path layout =>
    t.engine.locate .histogram path = none → layout = t.engine.layouts.resolve path
  | .publish _ => ∀ stage ∈ t.calls, stage.onto? = none
  | _ => True

def Orderly : Changeover → List Nat → Prop
  | _, [] => True
  | t, id :: rest =>
    (∀ stage, t.calls[id]? = some stage → t.Timely stage) ∧ (t.step id).Orderly rest

/-- In an orderly run, a record that is not on the present layouts is still to be moved. -/
structure Sound (t : Changeover) : Prop where
  wellFormed : t.engine.WellFormed
  onto : ∀ stage : Stage, stage ∈ t.calls → ∀ layouts ∈ stage.onto?, layouts = t.engine.layouts
  current : ∀ k r, t.engine.store.get? k = some r → r.valid = true → r.kind = .histogram →
    r.body.Fits (t.engine.layouts.resolve r.path) ∨
      Approached t.calls k ((t.engine.store.table .histogram).bucketOf r.hash)

section Step

variable {t : Changeover} {id : Nat} {stage next : Stage}

theorem Sound.onto_set (h : t.Sound) (hnext : ∀ layouts ∈ next.onto?, layouts = t.engine.layouts) :
    ∀ stage : Stage, stage ∈ t.calls.set id next → ∀ layouts ∈ stage.onto?,
      layouts = t.engine.layouts := by
  intro other hother
  rcases List.mem_or_eq_of_mem_set hother with hold | rfl
  · exact h.onto other hold
  · exact hnext

theorem Sound.quiet (h : t.Sound) (hcall : t.calls[id]? = some stage)
    (honto : ∀ layouts ∈ next.onto?, layouts = t.engine.layouts)
    (hahead : ∀ k r, t.engine.store.get? k = some r → r.valid = true → r.kind = .histogram →
      stage.Ahead k ((t.engine.store.table .histogram).bucketOf r.hash) →
      next.Ahead k ((t.engine.store.table .histogram).bucketOf r.hash)) :
    Sound ⟨t.engine, t.calls.set id next⟩ where
  wellFormed := h.wellFormed
  onto := h.onto_set honto
  current k r hr hvalid hkind :=
    (h.current k r hr hvalid hkind).imp_right (.set hcall (hahead k r hr hvalid hkind))

theorem Sound.enter (h : t.Sound) {path : String} {layout : Layout}
    (hcall : t.calls[id]? = some (.enter path layout))
    (habsent : t.engine.locate .histogram path = none)
    (htimely : layout = t.engine.layouts.resolve path) (k : Handle) :
    Sound ⟨(t.engine.insert .histogram path layout).2, t.calls.set id (.obtained k)⟩ := by
  have hmoves := Engine.moves_insert h.wellFormed habsent layout
  refine ⟨hmoves.wellFormed, h.onto_set (Stage.forall_onto_of_none rfl),
    fun k r hr hvalid hkind => ?_⟩
  rw [Engine.get?_insert] at hr
  split at hr
  · cases hr
    left
    rw [htimely]
    exact t.engine.fits_newRecord .histogram path _
  · refine (h.current k r hr hvalid hkind).imp_right fun happroached => ?_
    rw [Table.bucketOf, Engine.size_insert]
    exact happroached.set hcall fun hahead => hahead

theorem Sound.publish (h : t.Sound) {layouts : LayoutSet}
    (hcall : t.calls[id]? = some (.publish layouts))
    (htimely : ∀ stage : Stage, stage ∈ t.calls → stage.onto? = none) :
    Sound ⟨t.engine.setLayouts layouts, t.calls.set id (.scan layouts 0)⟩ := by
  have hset : t.engine.Moves (t.engine.setLayouts layouts) :=
    Engine.moves_of_same h.wellFormed rfl rfl rfl rfl
  refine ⟨hset.wellFormed, fun stage hstage others hothers => ?_, fun k r _ _ _ => .inr ?_⟩
  · rcases List.mem_or_eq_of_mem_set hstage with hold | rfl
    · rw [htimely stage hold] at hothers
      cases hothers
    · exact (Option.some.inj hothers).symm
  · obtain ⟨hlt, -⟩ := List.getElem?_eq_some_iff.mp hcall
    exact ⟨id, .scan layouts 0, List.getElem?_set_self hlt, Nat.zero_le _⟩

theorem Sound.visit (h : t.Sound) {layouts : LayoutSet} {bucket : Nat} {k : Handle}
    {rest : List Handle} (hcall : t.calls[id]? = some (.visit layouts bucket (k :: rest))) :
    Sound ⟨t.engine.modifyRecord k fun r => r.retarget (layouts.resolve r.path),
      t.calls.set id (.visit layouts bucket rest)⟩ := by
  have hlayouts : layouts = t.engine.layouts :=
    h.onto _ (List.mem_of_getElem? hcall) layouts rfl
  have hmoves := Engine.moves_modifyRecord h.wellFormed k (f := fun r =>
    r.retarget (layouts.resolve r.path)) fun r => r.stays_retarget _
  refine ⟨hmoves.wellFormed, h.onto_set fun others hothers => ?_, fun other r hr hvalid hkind => ?_⟩
  · exact (Option.some.inj hothers).symm.trans hlayouts
  · rw [Engine.get?_modifyRecord] at hr
    split at hr
    · obtain ⟨old, -, rfl⟩ := Option.map_eq_some_iff.mp hr
      rw [hlayouts]
      exact .inl (Body.fits_retarget _ _)
    · rename_i hother
      refine (h.current other r hr hvalid hkind).imp_right (.set hcall fun hahead => ?_)
      exact hahead.imp_left fun hmem => (List.mem_cons.mp hmem).resolve_left hother

theorem Sound.idle (h : t.Sound) (hcall : t.calls[id]? = some stage)
    (hstage : ∀ k bucket, ¬ stage.Ahead k bucket) (hnext : next.onto? = none) :
    Sound ⟨t.engine, t.calls.set id next⟩ :=
  h.quiet hcall (Stage.forall_onto_of_none hnext) fun k _ _ _ _ hahead =>
    absurd hahead (hstage k _)

theorem Sound.step (h : t.Sound) (hcall : t.calls[id]? = some stage) (htimely : t.Timely stage) :
    (t.step id).Sound := by
  rw [step_of_some hcall]
  cases stage with
  | look path =>
    simp only [act]
    split <;> exact h.idle hcall (fun _ _ hahead => hahead) rfl
  | choose path => exact h.idle hcall (fun _ _ hahead => hahead) rfl
  | enter path layout =>
    simp only [act]
    split
    · exact h.idle hcall (fun _ _ hahead => hahead) rfl
    · rename_i habsent
      exact h.enter hcall habsent (htimely habsent) _
  | obtained k => exact h.idle hcall (fun _ _ hahead => hahead) rfl
  | build blocks =>
    simp only [act]
    split <;> exact h.idle hcall (fun _ _ hahead => hahead) rfl
  | publish layouts => exact h.publish hcall htimely
  | scan layouts bucket =>
    have honto := h.onto _ (List.mem_of_getElem? hcall) layouts rfl
    simp only [act]
    split
    · refine h.quiet hcall (fun others hothers => (Option.some.inj hothers).symm.trans honto) ?_
      intro k r hr hvalid hkind hahead
      -- The chain of the bucket has been loaded, with the valid records in it.
      rcases Nat.eq_or_lt_of_le hahead with rfl | hlater
      · exact .inl (hkind ▸ h.wellFormed.store.mem_chain k r hr hvalid)
      · exact .inr hlater
    · rename_i hend
      refine h.quiet hcall (Stage.forall_onto_of_none rfl) fun k r _ _ _ hahead => ?_
      have hbucket := Table.bucketOf_lt (h.wellFormed.store.size_pos .histogram) r.hash
      exact absurd (Nat.lt_of_le_of_lt hahead hbucket) hend
  | visit layouts bucket rest =>
    have honto := h.onto _ (List.mem_of_getElem? hcall) layouts rfl
    cases rest with
    | nil =>
      refine h.quiet hcall (fun others hothers => (Option.some.inj hothers).symm.trans honto) ?_
      exact fun k r _ _ _ hahead => hahead.resolve_left List.not_mem_nil
    | cons k rest =>
      simp only [act, moved]
      split
      · exact h.visit hcall
      · rename_i hinvalid
        refine h.quiet hcall (fun others hothers => (Option.some.inj hothers).symm.trans honto) ?_
        intro other r hr hvalid _ hahead
        refine hahead.imp_left fun hmem => (List.mem_cons.mp hmem).resolve_left ?_
        rintro rfl
        exact hinvalid (by rw [Store.isValid, hr, Option.any_some, hvalid])
  | replaced => exact h.idle hcall (fun _ _ hahead => hahead) rfl
  | refused cause => exact h.idle hcall (fun _ _ hahead => hahead) rfl

end Step

theorem Sound.run {t : Changeover} (h : t.Sound) {turns : List Nat} (horderly : t.Orderly turns) :
    (t.run turns).Sound := by
  induction turns generalizing t with
  | nil => exact h
  | cons id rest ih =>
    refine ih ?_ horderly.2
    cases hcall : t.calls[id]? with
    | none => rwa [step_of_none hcall]
    | some stage => exact h.step hcall (horderly.1 stage hcall)

theorem sound_start {e : Engine} (he : e.WellFormed) (h : e.LayoutsCurrent) (orders : List Order) :
    (start e orders).Sound where
  wellFormed := he
  onto stage hstage layouts hlayouts := by
    obtain ⟨order, -, rfl⟩ := List.mem_map.mp hstage
    cases order <;> cases hlayouts
  current k r hr hvalid _ := .inl (h k r hr hvalid)

theorem Sound.layoutsCurrent {t : Changeover} (h : t.Sound)
    (hfinished : ∀ stage ∈ t.calls, Stage.finished stage = true) : t.engine.LayoutsCurrent := by
  intro k r hr hvalid
  by_cases hkind : r.kind = .histogram
  · refine (h.current k r hr hvalid hkind).resolve_right ?_
    rintro ⟨id, stage, hcall, hahead⟩
    have hend := hfinished stage (List.mem_of_getElem? hcall)
    cases stage <;> first | exact hahead | cases hend
  · exact Body.fits_of_ne hkind

def Offered (e : Engine) (orders : List Order) (layouts : LayoutSet) : Prop :=
  layouts = e.layouts ∨
    ∃ blocks, .reconfigure blocks ∈ orders ∧ LayoutSet.ofConfig blocks = .ok layouts

def Stage.Founded (offered : LayoutSet → Prop) : Stage → Prop
  | enter path layout => ∃ layouts, offered layouts ∧ layout = layouts.resolve path
  | build blocks => ∀ layouts, LayoutSet.ofConfig blocks = .ok layouts → offered layouts
  | publish layouts => offered layouts
  | scan layouts _ => offered layouts
  | visit layouts _ _ => offered layouts
  | _ => True

/-- In any run, the sides of a record count by one and the same layout of its path. -/
structure Founded (offered : LayoutSet → Prop) (t : Changeover) : Prop where
  wellFormed : t.engine.WellFormed
  layouts : offered t.engine.layouts
  stages : ∀ stage ∈ t.calls, Stage.Founded offered stage
  records : ∀ k r, t.engine.store.get? k = some r → r.valid = true →
    ∃ layouts, offered layouts ∧ r.body.Fits (layouts.resolve r.path)

section Founded

variable {offered : LayoutSet → Prop} {t : Changeover} {id : Nat} {stage next : Stage}

theorem Founded.stages_set (h : t.Founded offered) (hnext : next.Founded offered) :
    ∀ stage ∈ t.calls.set id next, Stage.Founded offered stage := by
  intro other hother
  rcases List.mem_or_eq_of_mem_set hother with hold | rfl
  · exact h.stages other hold
  · exact hnext

theorem Founded.quiet (h : t.Founded offered) (hnext : next.Founded offered) :
    Founded offered ⟨t.engine, t.calls.set id next⟩ :=
  ⟨h.wellFormed, h.layouts, h.stages_set hnext, h.records⟩

theorem Founded.step (h : t.Founded offered) (hcall : t.calls[id]? = some stage) :
    (t.step id).Founded offered := by
  have hstage := h.stages stage (List.mem_of_getElem? hcall)
  rw [step_of_some hcall]
  cases stage with
  | look path =>
    simp only [act]
    split <;> exact h.quiet trivial
  | choose path => exact h.quiet ⟨_, h.layouts, rfl⟩
  | enter path layout =>
    simp only [act]
    split
    · exact h.quiet trivial
    · rename_i habsent
      refine ⟨(Engine.moves_insert h.wellFormed habsent layout).wellFormed, h.layouts,
        h.stages_set trivial, fun k r hr hvalid => ?_⟩
      rw [Engine.get?_insert] at hr
      split at hr
      · cases hr
        obtain ⟨layouts, hoffered, rfl⟩ := hstage
        exact ⟨layouts, hoffered, t.engine.fits_newRecord .histogram path _⟩
      · exact h.records k r hr hvalid
  | build blocks =>
    simp only [act]
    split
    · exact h.quiet (hstage _ ‹_›)
    · exact h.quiet trivial
  | publish layouts =>
    have hset : t.engine.Moves (t.engine.setLayouts layouts) :=
      Engine.moves_of_same h.wellFormed rfl rfl rfl rfl
    exact ⟨hset.wellFormed, hstage, h.stages_set hstage, h.records⟩
  | scan layouts bucket =>
    simp only [act]
    split
    · exact h.quiet hstage
    · exact h.quiet trivial
  | visit layouts bucket rest =>
    cases rest with
    | nil => exact h.quiet hstage
    | cons k rest =>
      simp only [act, moved]
      split
      · have hmoves := Engine.moves_modifyRecord h.wellFormed k (f := fun r =>
          r.retarget (layouts.resolve r.path)) fun r => r.stays_retarget _
        refine ⟨hmoves.wellFormed, h.layouts, h.stages_set hstage, fun other r hr hvalid => ?_⟩
        rw [Engine.get?_modifyRecord] at hr
        split at hr
        · obtain ⟨old, -, rfl⟩ := Option.map_eq_some_iff.mp hr
          exact ⟨layouts, hstage, Body.fits_retarget _ _⟩
        · exact h.records other r hr hvalid
      · exact h.quiet hstage
  | _ => exact h.quiet trivial

end Founded

section Alone

theorem run_append (t : Changeover) (turns more : List Nat) :
    t.run (turns ++ more) = (t.run turns).run more :=
  List.foldl_append

variable (layouts : LayoutSet)

theorem foldl_moved (hs : List Handle) (e : Engine) : hs.foldl (moved layouts) e =
    { e with store := e.store.modifyAll (hs.filter e.store.isValid) fun r =>
        r.retarget (layouts.resolve r.path) } := by
  induction hs generalizing e with
  | nil => rfl
  | cons h rest ih =>
    have hkept : (moved layouts e h).store.isValid = e.store.isValid := by
      unfold moved
      split
      · exact Store.isValid_of_face
          (Store.face_modify (fun r => r.stays_retarget (layouts.resolve r.path)) e.store h)
      · rfl
    rw [List.foldl_cons, ih, hkept, List.filter_cons]
    unfold moved
    split <;> rfl

theorem run_visit (bucket : Nat) (hs : List Handle) (e : Engine) :
    (Changeover.mk e [.visit layouts bucket hs]).run (List.replicate hs.length 0) =
      ⟨hs.foldl (moved layouts) e, [.visit layouts bucket []]⟩ := by
  induction hs generalizing e with
  | nil => rfl
  | cons h rest ih => exact ih (moved layouts e h)

theorem run_scan (count bucket : Nat) (e : Engine)
    (hcount : bucket + count = (e.store.table .histogram).size) :
    ∃ turns, (Changeover.mk e [.scan layouts bucket]).run turns =
      ⟨((List.range' bucket count).flatMap (e.store.table .histogram).chain).foldl
        (moved layouts) e, [.replaced]⟩ := by
  induction count generalizing bucket e with
  | zero =>
    refine ⟨[0], ?_⟩
    simp [run, step, act, ← hcount]
  | succ count ih =>
    have htable : ((((e.store.table .histogram).chain bucket).foldl (moved layouts) e).store.table
        .histogram) = e.store.table .histogram := by
      rw [foldl_moved]
      exact Store.table_modifyAll ..
    obtain ⟨turns, hturns⟩ := ih (bucket + 1)
      (((e.store.table .histogram).chain bucket).foldl (moved layouts) e) (by rw [htable]; omega)
    have hscan : (Changeover.mk e [.scan layouts bucket]).run [0] =
        ⟨e, [.visit layouts bucket ((e.store.table .histogram).chain bucket)]⟩ := by
      simp [run, step, act, ← hcount]
    refine ⟨[0] ++ List.replicate ((e.store.table .histogram).chain bucket).length 0 ++ [0] ++
      turns, ?_⟩
    rw [run_append, run_append, run_append, hscan, run_visit]
    refine hturns.trans ?_
    rw [htable, List.range'_succ, List.flatMap_cons, List.foldl_append]

/-- A reconfiguration that is alone leaves what it leaves in one go. -/
theorem reconfigure_alone (e : Engine) (blocks : List BlockConfig) :
    ∃ turns stage, Stage.finished stage = true ∧ (start e [.reconfigure blocks]).run turns =
      ⟨(e.reconfigure blocks).toOption.getD e, [stage]⟩ := by
  unfold Engine.reconfigure
  cases hlayouts : LayoutSet.ofConfig blocks with
  | error cause =>
    refine ⟨[0], .refused cause, rfl, ?_⟩
    simp [run, start, Order.first, step, act, hlayouts, bind, Except.bind, Except.toOption]
  | ok layouts =>
    obtain ⟨turns, hturns⟩ :=
      run_scan layouts (e.store.table .histogram).size 0 (e.setLayouts layouts)
        (Nat.zero_add _)
    refine ⟨[0, 0] ++ turns, .replaced, rfl, ?_⟩
    have hbuilt : (start e [.reconfigure blocks]).run [0, 0] =
        ⟨e.setLayouts layouts, [.scan layouts 0]⟩ := by
      simp [run, start, Order.first, step, act, hlayouts]
    have hvalid : e.store.valid .histogram =
        ((List.range' 0 (e.store.table .histogram).size).flatMap
          (e.store.table .histogram).chain).filter e.store.isValid := by
      simp [Store.valid, Store.shard, Table.shard, Table.shardBuckets]
    have hall : (e.setLayouts layouts).retargetAll = { e.setLayouts layouts with
        store := e.store.modifyAll (((List.range' 0 (e.store.table .histogram).size).flatMap
          (e.store.table .histogram).chain).filter e.store.isValid) fun r =>
            r.retarget (layouts.resolve r.path) } := by
      simp only [Engine.retargetAll, Engine.setLayouts, hvalid]
      rfl
    rw [run_append, hbuilt, hturns, foldl_moved]
    exact congrArg (Changeover.mk · [.replaced]) hall.symm

/-- A creation that is alone makes what it makes in one go. -/
theorem create_alone (e : Engine) (path : String) : (start e [.create path]).run [0, 0, 0] =
    ⟨(e.getOrCreate .histogram path).2, [.obtained (e.getOrCreate .histogram path).1]⟩ := by
  cases habsent : e.locate .histogram path with
  | some h =>
    have hstore : e.store.locate .histogram path = some h := habsent
    simp [run, start, Order.first, step, act, habsent, Engine.getOrCreate, hstore]
  | none =>
    have hstore : e.store.locate .histogram path = none := habsent
    simp [run, start, Order.first, step, act, habsent, Engine.getOrCreate, hstore,
      Engine.layoutFor]

end Alone

theorem run_founded {offered : LayoutSet → Prop} {t : Changeover} (h : t.Founded offered)
    (turns : List Nat) : (t.run turns).Founded offered := by
  induction turns generalizing t with
  | nil => exact h
  | cons id rest ih =>
    refine ih ?_
    cases hcall : t.calls[id]? with
    | none => rwa [step_of_none hcall]
    | some stage => exact h.step hcall

theorem founded_start {e : Engine} (he : e.WellFormed) (h : e.LayoutsCurrent)
    (orders : List Order) : (start e orders).Founded (Offered e orders) where
  wellFormed := he
  layouts := .inl rfl
  stages stage hstage := by
    obtain ⟨order, horder, rfl⟩ := List.mem_map.mp hstage
    cases order with
    | create path => trivial
    | reconfigure blocks => exact fun layouts hlayouts => .inr ⟨blocks, horder, hlayouts⟩
  records k r hr hvalid := ⟨_, .inl rfl, h k r hr hvalid⟩

/-- However creations and reconfigurations interleave, both sides of a valid histogram count by one
layout, which layouts that there were at some time have for its path. When all calls of an orderly
run have ended, the layouts stored last have it. -/
theorem records_current {c : EngineConfig} {e : Engine} (h : Engine.ofConfig c = .ok e)
    (calls : List Call) (orders : List Order) (turns : List Nat) :
    let t := (start (e.run calls) orders).run turns
    (∀ k r sides, t.engine.store.get? k = some r → r.valid = true → r.body = .histogram sides →
      ∃ layouts, Offered (e.run calls) orders layouts ∧
        sides.input.Fits (layouts.resolve r.path) ∧
        sides.processed.Fits (layouts.resolve r.path)) ∧
    ((start (e.run calls) orders).Orderly turns →
      (∀ stage ∈ t.calls, Stage.finished stage = true) → t.engine.LayoutsCurrent) := by
  intro t
  have he := (Engine.ofConfig_sound h).1
  have hrun := (Engine.leads_run he calls).wellFormed
  have hcurrent := (Engine.layoutsCurrent_ofConfig h).2.run he calls
  refine ⟨fun k r sides hr hvalid hbody => ?_, fun horderly => ?_⟩
  · obtain ⟨layouts, hoffered, hfits⟩ :=
      (run_founded (founded_start hrun hcurrent orders) turns).records k r hr hvalid
    exact ⟨layouts, hoffered, hfits sides hbody⟩
  · exact ((sound_start hrun hcurrent orders).run horderly).layoutsCurrent

theorem orderly_append {t : Changeover} {turns more : List Nat} :
    t.Orderly (turns ++ more) ↔ t.Orderly turns ∧ (t.run turns).Orderly more := by
  induction turns generalizing t with
  | nil => simp [Orderly, run]
  | cons id rest ih => simp only [List.cons_append, Orderly, ih, and_assoc]; rfl

theorem orderly_replicate {t : Changeover} {id : Nat} (stage : Stage)
    (hcall : t.calls[id]? = some stage)
    (hmoving : stage.onto?.isSome ∨ stage.finished = true) (n : Nat) :
    t.Orderly (List.replicate n id) := by
  induction n generalizing t stage with
  | zero => trivial
  | succ n ih =>
    have hnext : (t.step id).calls[id]? = some (act t.engine stage).2 := by
      obtain ⟨hlt, -⟩ := List.getElem?_eq_some_iff.mp hcall
      rw [step_of_some hcall]
      exact List.getElem?_set_self hlt
    refine ⟨fun other hother => ?_, ih _ hnext ?_⟩
    · rw [hcall, Option.some.injEq] at hother
      subst hother
      cases stage <;> first | trivial | simp [Stage.onto?, Stage.finished] at hmoving
    · cases stage with
      | scan layouts bucket =>
        simp only [act]
        split
        · exact .inl rfl
        · exact .inr rfl
      | visit layouts bucket rest => cases rest <;> exact .inl rfl
      | obtained | replaced | refused => exact .inr rfl
      | _ => simp [Stage.onto?, Stage.finished] at hmoving

def wide : BlockConfig := { name := "wide", bounds := [100] }

def wideLayouts : LayoutSet :=
  let layout : Layout := ⟨"wide", [100], ⟨[], [], false⟩, true⟩
  ⟨[layout], layout⟩

theorem ofConfig_wide : LayoutSet.ofConfig [wide] = .ok wideLayouts := by
  have hfinite : Float.isFinite (100 : Float) = true := by decide +kernel
  have hlayout : Layout.ofConfig wide = .ok wideLayouts.fallback := by
    simp only [Layout.ofConfig, wide, Layout.sortBounds, List.mergeSort_singleton, List.any_cons,
      hfinite]
    rfl
  simp only [LayoutSet.ofConfig, LayoutSet.build, hlayout]
  rfl

/-- A creation that has chosen its layout inserts the record after the layouts have been replaced,
and nothing moves it any more. -/
theorem created_stale : ∃ e, Engine.ofConfig (Engine.compact {}) = .ok e ∧
    let t := (start e [.create "a", .reconfigure [wide]]).run
      ([0, 0, 1] ++ (List.replicate 6 1 ++ [0]))
    (∀ stage ∈ t.calls, Stage.finished stage = true) ∧ ¬ t.engine.LayoutsCurrent := by
  -- The run from where the reconfiguration has built its layouts.
  have hcheck : (Engine.ofConfig (Engine.compact {})).toOption.any (fun e =>
      let chosen : Stage := .enter "a" (e.layouts.resolve "a")
      let t := (Changeover.mk e [chosen, .publish wideLayouts]).run (List.replicate 6 1 ++ [0])
      (e.locate .histogram "a").isNone && t.calls.all Stage.finished &&
        (t.engine.locate .histogram "a").any fun k => (t.engine.store.get? k).any fun r =>
          r.valid && r.body.counting?.any fun b =>
            decide (b.layout.bounds ≠ (t.engine.layouts.resolve r.path).bounds)) = true := by
    decide +kernel
  obtain ⟨e, he, hboth⟩ := Engine.exists_ofConfig hcheck
  simp only [Bool.and_eq_true, Option.isNone_iff_eq_none, List.all_eq_true] at hboth
  obtain ⟨⟨habsent, hfinished⟩, hstale⟩ := hboth
  have hbuilt : (start e [.create "a", .reconfigure [wide]]).run [0, 0, 1] =
      ⟨e, [.enter "a" (e.layouts.resolve "a"), .publish wideLayouts]⟩ := by
    simp [run, start, Order.first, step, act, habsent, ofConfig_wide]
  refine ⟨e, he, ?_⟩
  rw [run_append, hbuilt]
  refine ⟨hfinished, fun hcurrent => ?_⟩
  obtain ⟨k, -, hk⟩ := (Option.any_eq_true _ _).mp hstale
  obtain ⟨r, hr, hboth⟩ := (Option.any_eq_true _ _).mp hk
  obtain ⟨hvalid, hany⟩ := Bool.and_eq_true_iff.mp hboth
  obtain ⟨b, hb, hbounds⟩ := (Option.any_eq_true _ _).mp hany
  obtain ⟨sides, hbody, rfl⟩ := Body.counting?_eq_some.mp hb
  have hfits := (hcurrent k r hr hvalid sides hbody).1
  exact of_decide_eq_true hbounds (congrArg Layout.bounds hfits.uses)

def boundsOf (e : Engine) (path : String) : Option (List Float) := do
  let r ← e.store.get? (← e.locate .histogram path)
  return (← r.body.counting?).layout.bounds

def another : List Call := [.create .histogram "b"]

/-- One record is moved onto new layouts, and one is created from them in the meantime. -/
theorem records_current_created : ∃ e, Engine.ofConfig (Engine.compact {}) = .ok e ∧
    let t := (start (e.run another) [.create "a", .reconfigure [wide]]).run
      ([0, 1] ++ ([1, 0, 0] ++ List.replicate 8 1))
    (∀ stage ∈ t.calls, Stage.finished stage = true) ∧ t.engine.LayoutsCurrent ∧
      boundsOf (e.run another) "b" = some [1] ∧
      boundsOf t.engine "b" = some [100] ∧ boundsOf t.engine "a" = some [100] := by
  -- The run from where the reconfiguration has built its layouts.
  have hcheck : (Engine.ofConfig (Engine.compact {})).toOption.any (fun e =>
      let t := (Changeover.mk (e.run another) [.choose "a", .publish wideLayouts]).run
        ([1, 0, 0] ++ List.replicate 8 1)
      ((e.run another).locate .histogram "a").isNone && t.calls.all Stage.finished &&
        decide (boundsOf (e.run another) "b" = some [1]) &&
        decide (boundsOf t.engine "b" = some [100]) &&
        decide (boundsOf t.engine "a" = some [100])) = true := by
    decide +kernel
  obtain ⟨e, he, hall⟩ := Engine.exists_ofConfig hcheck
  simp only [Bool.and_eq_true, Option.isNone_iff_eq_none, List.all_eq_true,
    decide_eq_true_eq] at hall
  obtain ⟨⟨⟨⟨habsent, hfinished⟩, hbefore⟩, hmoved⟩, hcreated⟩ := hall
  have hbuilt : (start (e.run another) [.create "a", .reconfigure [wide]]).run [0, 1] =
      ⟨e.run another, [.choose "a", .publish wideLayouts]⟩ := by
    simp [run, start, Order.first, step, act, habsent, ofConfig_wide]
  have hset : ((e.run another).setLayouts wideLayouts).locate .histogram "a" = none := habsent
  obtain ⟨-, hcurrent⟩ := records_current he another [.create "a", .reconfigure [wide]]
    ([0, 1] ++ ([1, 0, 0] ++ List.replicate 8 1))
  refine ⟨e, he, ?_⟩
  rw [run_append, hbuilt] at hcurrent ⊢
  refine ⟨hfinished, hcurrent ?_ hfinished, hbefore, hmoved, hcreated⟩
  rw [orderly_append, hbuilt, orderly_append]
  refine ⟨?_, ?_, orderly_replicate (.scan wideLayouts 0) ?_ (.inl rfl) 8⟩
  · simp [Orderly, Timely, start, Order.first, step, act, habsent]
  · simp [Orderly, Timely, step, act, Stage.onto?, Engine.setLayouts]
  · simp [run, step, act, hset]

end Changeover

end Rollup
