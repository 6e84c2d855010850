import Mathlib.Algebra.GroupWithZero.Nat
import Rollup.Proofs.Engine.Arrivals
import Rollup.Proofs.Engine.Mirrors
import Rollup.Proofs.Store.Directory

/-! Layouts of histograms are up to date. Creations, swaps and reconfigurations each see to it that
both sides of a valid histogram count by the layout that its path has now. -/
namespace Rollup

namespace Buckets

/-- Counts by a layout: one count for each bucket, which together make up the whole. -/
structure Fits (b : Buckets) (layout : Layout) : Prop where
  uses : b.layout = layout
  size : b.counts.size = layout.bounds.length + 1
  sum : b.counts.sum = b.count

theorem fits_empty (layout : Layout) : (empty layout).Fits layout where
  uses := rfl
  size := Array.size_replicate
  sum := by simp [empty]

theorem Fits.bucketIndex_lt {b : Buckets} {layout : Layout} (h : b.Fits layout) (value : Float) :
    b.layout.bucketIndex value < b.counts.size := by
  rw [h.uses, h.size]
  exact layout.bucketIndex_lt value

theorem sum_modify {counts : Array Nat} {i : Nat} (hi : i < counts.size) :
    (counts.modify i (· + 1)).sum = counts.sum + 1 := by
  have hlt : i < counts.toList.length := hi
  rw [← Array.sum_toList, ← Array.sum_toList, Array.toList_modify,
    List.modify_eq_take_cons_drop hlt]
  conv_rhs => rw [← List.take_append_drop i counts.toList, ← List.getElem_cons_drop hlt]
  simp only [List.sum_append, List.sum_cons]
  omega

theorem Fits.add {b : Buckets} {layout : Layout} (h : b.Fits layout) (value : Float) :
    (b.add value).Fits layout where
  uses := h.uses
  size := (Array.size_modify ..).trans h.size
  sum := (sum_modify (h.bucketIndex_lt value)).trans (congrArg (· + 1) h.sum)

/-- Clears counts in place if the layout is known to be the one there is, else makes new ones. -/
def reset (same : Bool) (layout : Layout) (b : Buckets) : Buckets :=
  if same then { b with counts := b.counts.map fun _ => 0, count := 0 } else .empty layout

/-- Where counts fit, clearing them in place is as good as making new ones. -/
theorem Fits.reset_eq_empty {b : Buckets} {layout new : Layout} (h : b.Fits layout) {same : Bool}
    (hsame : same = true → new = b.layout) : b.reset same new = .empty new := by
  unfold reset
  split
  · rename_i hshared
    rw [hsame hshared, empty, Array.map_const', h.size, ← h.uses]
    rfl
  · rfl

end Buckets

def Body.Fits (body : Body) (layout : Layout) : Prop :=
  ∀ sides, body = .histogram sides → sides.input.Fits layout ∧ sides.processed.Fits layout

namespace Body

variable {body : Body} {layout : Layout}

def counting? : Body → Option Buckets
  | histogram sides => some sides.input
  | _ => none

theorem counting?_eq_some {b : Buckets} :
    body.counting? = some b ↔ ∃ sides, body = .histogram sides ∧ sides.input = b := by
  cases body <;> simp [counting?]

theorem fits_of_ne (h : body.kind ≠ .histogram) : body.Fits layout := by
  rintro sides rfl
  exact absurd rfl h

theorem fits_empty (layout : Layout) (predictor : Option Predictor) (kind : Kind) :
    (empty layout predictor kind).Fits layout := by
  intro sides hsides
  cases kind <;> cases hsides
  exact ⟨Buckets.fits_empty layout, Buckets.fits_empty layout⟩

theorem fits_retarget (layout : Layout) (body : Body) : (body.retarget layout).Fits layout := by
  intro sides hsides
  cases body <;> cases hsides
  exact ⟨Buckets.fits_empty layout, Buckets.fits_empty layout⟩

theorem Fits.update (h : body.Fits layout) (value : Float) (adjustment : Adjustment) :
    (body.update value adjustment).Fits layout := by
  intro sides hsides
  cases body <;> cases hsides
  exact ⟨(h _ rfl).1.add value, (h _ rfl).2⟩

theorem Fits.swap (h : body.Fits layout) : body.swap.Fits layout := by
  intro sides hsides
  cases body <;> cases hsides
  have hinput := (h _ rfl).1
  exact ⟨hinput.uses ▸ Buckets.fits_empty _, hinput⟩

end Body

def Call.layouts (old : LayoutSet) : Call → LayoutSet
  | .reconfigure blocks => (LayoutSet.ofConfig blocks).toOption.getD old
  | _ => old

namespace Engine

def LayoutsCurrent (e : Engine) : Prop :=
  ∀ k r, e.store.get? k = some r → r.valid = true → r.body.Fits (e.layouts.resolve r.path)

section Steps

variable {e e' : Engine}

theorem LayoutsCurrent.revises (h : e.LayoutsCurrent) {f : Handle → Record → Record}
    (hrevises : e.store.Revises e'.store f) (hlayouts : e'.layouts = e.layouts)
    (hf : ∀ k r layout, r.body.Fits layout → (f k r).body.Fits layout) : e'.LayoutsCurrent := by
  intro k r' hr' hvalid
  obtain ⟨r, hr, rfl, hfollows⟩ := hrevises.before hr'
  rw [hlayouts, hfollows.path]
  exact hf k r _ (h k r hr (hfollows.valid hvalid))

theorem LayoutsCurrent.modifyRecord (h : e.LayoutsCurrent) (k : Handle) {f : Record → Record}
    (hf : ∀ r, Record.Follows r (f r))
    (hbody : ∀ (r : Record) layout, r.body.Fits layout → (f r).body.Fits layout) :
    (e.modifyRecord k f).LayoutsCurrent :=
  h.revises (e.store.revises_modify k f fun r _ => hf r) rfl fun k r layout hfits => by
    split
    · exact hbody r layout hfits
    · exact hfits

theorem fits_newRecord (e : Engine) (kind : Kind) (path : String) (layout : Layout) :
    (e.newRecord kind path layout).body.Fits layout := by
  simp only [newRecord, Record.empty]
  exact Body.fits_empty _ _ _

theorem lasting_layoutsCurrent : Lasting LayoutsCurrent where
  measure h _ := h
  insert := by
    intro e _ h kind path _ k r hr hvalid
    rw [e.get?_insert] at hr
    split at hr
    · cases hr
      by_cases hkind : kind = .histogram
      · subst hkind
        exact e.fits_newRecord .histogram path _
      · exact Body.fits_of_ne fun hbody => hkind ((Body.kind_empty _ _ kind).symm.trans hbody)
    · exact h k r hr hvalid
  update _ h k value adjustment := h.modifyRecord k
    (fun r => (r.stays_update value adjustment).follows) fun _ _ hfits => hfits.update _ _

theorem LayoutsCurrent.remove (h : e.LayoutsCurrent) (kind : Kind) (path : String) :
    (e.remove kind path).2.LayoutsCurrent :=
  h.revises (Store.revises_remove kind path) rfl fun k r layout hfits => by
    split
    · exact hfits
    · exact hfits

theorem body_retargetAll (he : e.WellFormed) {k : Handle} {r : Record}
    (hr : e.retargetAll.store.get? k = some r) (hvalid : r.valid = true)
    (hkind : r.kind = .histogram) : r.body = .histogram
      ⟨.empty (e.layouts.resolve r.path), .empty (e.layouts.resolve r.path)⟩ := by
  obtain ⟨old, hold, hnew, hfollows⟩ := (revises_retargetAll he).before hr
  have hretargeted : k ∈ e.store.valid .histogram := by
    rw [Store.valid, Store.mem_shard he.store Nat.one_pos]
    refine ⟨old, hold, ?_⟩
    simp [Record.inShard, hfollows.valid hvalid, hfollows.kind.symm.trans hkind, Nat.mod_one]
  rw [if_pos hretargeted] at hnew
  have holdKind : old.body.kind = .histogram := hfollows.kind.symm.trans hkind
  rw [hfollows.path, hnew, Record.retarget]
  cases hbody : old.body with
  | histogram sides => rfl
  | _ => rw [hbody] at holdKind; cases holdKind

theorem layoutsCurrent_retargetAll (he : e.WellFormed) : e.retargetAll.LayoutsCurrent := by
  intro k r hr hvalid
  by_cases hkind : r.kind = .histogram
  · rw [body_retargetAll he hr hvalid hkind]
    exact Body.fits_empty _ none .histogram
  · exact Body.fits_of_ne hkind

theorem LayoutsCurrent.tick (he : e.WellFormed) (h : e.LayoutsCurrent) (nowMs : Nat)
    (took : Activity → Nat) : (e.tick nowMs took).LayoutsCurrent := by
  intro k r' hr' hvalid
  by_cases hkind : r'.kind = .histogram
  · cases hr : e.store.get? k with
    | none => rw [absent_tick nowMs took he hr] at hr'; cases hr'
    | some r =>
      obtain ⟨_, hlast, hfollows⟩ := (moves_tick nowMs took he).evolves k r hr
      rw [hr'] at hlast
      cases hlast
      have hother : r.kind ≠ .adder := by
        rw [← hfollows.kind, hkind]
        simp
      obtain ⟨_, hlast, hbody⟩ := get?_tick_other nowMs took he hr hother
      rw [hr'] at hlast
      cases hlast
      have hfits := h k r hr (hfollows.valid hvalid)
      have hlayouts : (e.tick nowMs took).layouts = e.layouts :=
        congrArg (·.2.1) (rules_tick nowMs took e)
      rw [hbody, hlayouts, hfollows.path]
      split
      · exact hfits.swap
      · exact hfits
  · exact Body.fits_of_ne hkind

theorem LayoutsCurrent.call (he : e.WellFormed) (h : e.LayoutsCurrent) (call : Call) :
    (e.call call).LayoutsCurrent := by
  refine lasting_layoutsCurrent.call he h call (fun kind path _ => h.remove kind path) ?_
    fun nowMs took _ => h.tick he nowMs took
  rintro blocks e' - hlayouts
  obtain ⟨layouts, rfl⟩ := reconfigure_eq hlayouts
  have hset : e.Moves (e.setLayouts layouts) := moves_of_same he rfl rfl rfl rfl
  exact layoutsCurrent_retargetAll hset.wellFormed

end Steps

section Run

variable {c : EngineConfig} {e : Engine}

theorem layouts_call (he : e.WellFormed) (call : Call) :
    (e.call call).layouts = call.layouts e.layouts := by
  by_cases hcall : ∃ blocks, call = .reconfigure blocks
  · obtain ⟨blocks, rfl⟩ := hcall
    simp only [Engine.call, reconfigure, Call.layouts]
    cases LayoutSet.ofConfig blocks <;> rfl
  · have hlasting : Lasting fun e' => e'.layouts = e.layouts :=
      ⟨fun h _ => h, fun _ h _ _ _ => h, fun _ h _ _ _ => h⟩
    have hkeeps : call.layouts e.layouts = e.layouts := by
      cases call with
      | reconfigure blocks => exact absurd ⟨blocks, rfl⟩ hcall
      | _ => rfl
    rw [hkeeps]
    exact hlasting.call he rfl call (fun kind path _ => rfl)
      (fun blocks _ heq => absurd ⟨blocks, heq⟩ hcall)
      fun nowMs took _ => congrArg (·.2.1) (rules_tick nowMs took e)

theorem layoutsCurrent_ofConfig (h : ofConfig c = .ok e) :
    LayoutSet.ofConfig c.histograms = .ok e.layouts ∧ e.LayoutsCurrent := by
  obtain ⟨settings, checks, layouts, definitions, hparts, rfl⟩ := ofConfig_eq h
  have hunbound := unbound_ofConfig hparts.settings checks layouts
  have hlayouts : Lasting fun e' => e'.layouts = layouts :=
    ⟨fun h _ => h, fun _ h _ _ _ => h, fun _ h _ _ _ => h⟩
  have hkept := hlayouts.bindSynthetics (fun h _ => h) hunbound rfl
    (activeDefinitions settings definitions)
  have hempty : (unbound settings checks layouts).LayoutsCurrent := by
    intro k r hr
    simp [unbound, Store.empty, Store.get?] at hr
  have hcurrent := lasting_layoutsCurrent.bindSynthetics
    (fun h k => h.modifyRecord k (fun r => r.stays_exempt.follows) fun _ _ hfits => hfits)
    hunbound hempty (activeDefinitions settings definitions)
  refine ⟨?_, hcurrent⟩
  rw [hparts.layouts]
  exact congrArg Except.ok hkept.symm

theorem layouts_run (he : e.WellFormed) (calls : List Call) : (e.run calls).layouts =
    calls.foldl (fun layouts call => call.layouts layouts) e.layouts := by
  induction calls using List.reverseRecOn with
  | nil => rfl
  | append_singleton calls last ih =>
    rw [run_snoc, layouts_call (leads_run he calls).wellFormed, ih, List.foldl_append]
    rfl

theorem LayoutsCurrent.run (h : e.LayoutsCurrent) (he : e.WellFormed) (calls : List Call) :
    (e.run calls).LayoutsCurrent := by
  induction calls using List.reverseRecOn with
  | nil => exact h
  | append_singleton calls last ih =>
    rw [run_snoc]
    exact ih.call (leads_run he calls).wellFormed last

/-- After any calls, both sides of every valid histogram count by the layout that the layouts
accepted last have for its path: each value has a count to go to, the counts make up the whole, and
clearing them in place is as good as making new ones. A reconfiguration leaves new layouts and
no counts, and a faulty one leaves everything as it was. -/
theorem layouts_current (h : ofConfig c = .ok e) (calls : List Call) :
    let now := e.run calls
    (∃ initial, LayoutSet.ofConfig c.histograms = .ok initial ∧
      now.layouts = calls.foldl (fun layouts call => call.layouts layouts) initial) ∧
    (∀ k r sides, now.store.get? k = some r → r.valid = true → r.body = .histogram sides →
      ∀ b ∈ [sides.input, sides.processed], b.Fits (now.layouts.resolve r.path) ∧
        (∀ value, b.layout.bucketIndex value < b.counts.size) ∧
        ∀ same new, (same = true → new = b.layout) → b.reset same new = .empty new) ∧
    (∀ blocks layouts, LayoutSet.ofConfig blocks = .ok layouts →
      ∃ after, now.reconfigure blocks = .ok after ∧ after.layouts = layouts ∧
        ∀ k r, after.store.get? k = some r → r.valid = true → r.kind = .histogram →
          r.body = .histogram ⟨.empty (layouts.resolve r.path), .empty (layouts.resolve r.path)⟩) ∧
    ∀ blocks cause, LayoutSet.ofConfig blocks = .error cause →
      now.reconfigure blocks = .error cause ∧ now.call (.reconfigure blocks) = now := by
  intro now
  have he := (ofConfig_sound h).1
  have hrun := (leads_run he calls).wellFormed
  obtain ⟨hinitial, hcurrent⟩ := layoutsCurrent_ofConfig h
  refine ⟨⟨e.layouts, hinitial, layouts_run he calls⟩, ?_, ?_, ?_⟩
  · intro k r sides hr hvalid hbody
    have hsides := hcurrent.run he calls k r hr hvalid sides hbody
    simp only [List.forall_mem_cons, List.not_mem_nil, false_implies, implies_true, and_true]
    exact ⟨⟨hsides.1, hsides.1.bucketIndex_lt, fun same new => hsides.1.reset_eq_empty⟩,
      hsides.2, hsides.2.bucketIndex_lt, fun same new => hsides.2.reset_eq_empty⟩
  · intro blocks layouts hlayouts
    have hset : now.Moves (now.setLayouts layouts) := moves_of_same hrun rfl rfl rfl rfl
    refine ⟨(now.setLayouts layouts).retargetAll, ?_, rfl, fun k r hr hvalid hkind => ?_⟩
    · rw [reconfigure, hlayouts]
      rfl
    · exact body_retargetAll hset.wellFormed hr hvalid hkind
  · intro blocks cause hlayouts
    have hfault : now.reconfigure blocks = .error cause := by
      rw [reconfigure, hlayouts]
      rfl
    exact ⟨hfault, by simp only [Engine.call, hfault]; rfl⟩

end Run

/-- A value is counted, and another one after the layouts have been replaced. -/
def relayed : List Call :=
  [.ingest ⟨"a", .histogram, 5, .set⟩, .reconfigure [], .ingest ⟨"a", .histogram, 7, .set⟩]

theorem layouts_current_relayed : ∃ e k r sides, ofConfig (compact {}) = .ok e ∧
    (e.run relayed).store.get? k = some r ∧ r.valid = true ∧ r.body = .histogram sides ∧
      sides.input.Fits ((e.run relayed).layouts.resolve r.path) ∧ sides.input.counts = #[0, 1] := by
  have hcheck : (ofConfig (compact {})).toOption.any (fun e =>
      ((e.run relayed).locate .histogram "a").any fun k =>
        ((e.run relayed).store.get? k).any fun r =>
          r.valid && r.body.counting?.any fun b => decide (b.counts = #[0, 1])) = true := by
    decide +kernel
  obtain ⟨e, he, hany⟩ := exists_ofConfig hcheck
  obtain ⟨k, -, hany⟩ := (Option.any_eq_true _ _).mp hany
  obtain ⟨r, hr, hboth⟩ := (Option.any_eq_true _ _).mp hany
  obtain ⟨hvalid, hany⟩ := Bool.and_eq_true_iff.mp hboth
  obtain ⟨b, hb, hcounts⟩ := (Option.any_eq_true _ _).mp hany
  obtain ⟨sides, hbody, rfl⟩ := Body.counting?_eq_some.mp hb
  obtain ⟨-, hsides, -⟩ := layouts_current he relayed
  exact ⟨e, k, r, sides, he, hr, hvalid, hbody,
    (hsides k r sides hr hvalid hbody sides.input List.mem_cons_self).1,
    of_decide_eq_true hcounts⟩

end Engine

end Rollup
