import Mathlib.Algebra.GroupWithZero.Nat
import Mathlib.Logic.Function.Basic
import Rollup.Proofs.Synthetic.Plan

/-! Synthetic adders by their paths. As long as nothing is removed, records, slots and the order in
which sources were found do not matter: in a tick the definitions take their turns over a table of
totals, one for every path with a record, and each reads what the earlier ones have left there. -/
namespace Rollup

namespace Definition

/-- What the target is given for the totals of the sources: zero if none of them has data, or too
many are without. -/
def result (d : Definition) (values : List Totals) : Totals :=
  let absent := values.countP fun v => v.count = 0
  if (∃ v ∈ values, 0 < v.count) ∧ absent ≤ d.maxAbsent then
    ⟨d.operation.apply values d.factor absent, (values.map (·.count)).sum⟩
  else .zero

/-- The turn of a definition. While one of its sources has no record, it changes nothing. -/
def turn (totals : String → Option Totals) (d : Definition) : String → Option Totals :=
  if ∀ path ∈ d.sources, (totals path).isSome then
    Function.update totals d.target (some (d.result (d.sources.filterMap totals)))
  else totals

theorem foldl_turn_of_ne {ds : List Definition} {path : String} (h : ∀ d ∈ ds, d.target ≠ path)
    (totals : String → Option Totals) : ds.foldl turn totals path = totals path := by
  induction ds generalizing totals with
  | nil => rfl
  | cons d rest ih =>
    rw [List.foldl_cons, ih fun d' hd' => h d' (List.mem_cons_of_mem _ hd')]
    unfold turn
    split
    · exact Function.update_of_ne (h d List.mem_cons_self).symm _ _
    · rfl

theorem evaluate_eq_result (d : Definition) (values : List Totals) :
    (Synthetic.evaluate d values).getD .zero = d.result values := by
  have hpoints : values.foldl (fun sum v => sum + v.count) 0 = (values.map (·.count)).sum := by
    rw [List.sum_eq_foldl, List.foldl_map]
  have hsome : 0 < (values.map (·.count)).sum ↔ ∃ v ∈ values, 0 < v.count := by
    rw [List.sum_pos_iff_exists_pos_nat]
    simp
  unfold Synthetic.evaluate result
  simp only [hpoints, hsome]
  split <;> rfl

end Definition

/-- What a tick takes from an adder: the points since the last one, and without any what its
predictor puts in their place. -/
def Record.intake (limit : Nat) (r : Record) : Totals :=
  match r.body with
  | .adder sides predictor =>
    if 0 < sides.input.count then sides.input
    else match predictor.bind fun p => (p.substitute limit).1 with
      | some total => ⟨total, 1⟩
      | none => sides.input
  | _ => .zero

theorem Record.totals_takeAdder (limit : Nat) (r : Record) :
    (r.takeAdder limit).totals = r.intake limit := by
  unfold takeAdder intake
  cases hbody : r.body with
  | adder sides predictor =>
    cases predictor with
    | none => simp [swap, totals, hbody, Body.swap]
    | some p =>
      simp only [swap, hbody, Body.swap, Sides.swap_processed, Option.bind_some]
      split
      · simp [totals]
      · cases (p.substitute limit).1 <;> rfl
  | _ => simp [swap, totals, hbody, Body.swap]

namespace Store

def totalsAt (s : Store) (path : String) : Option Totals :=
  (s.locate .adder path).map (Synthetic.totalsOf s)

theorem Settles.totalsAt {s s' : Store} {given : Handle → Option Totals} (h : s.Settles s' given)
    (hs : s.WellFormed) (path : String) : s'.totalsAt path =
      (s.locate .adder path).map fun k => (given k).getD (Synthetic.totalsOf s k) := by
  unfold Store.totalsAt
  rw [h.locate hs]
  refine Option.map_congr fun k hk => ?_
  obtain ⟨r, hr, -, hkind, -⟩ := hs.locate_eq_some_iff.mp hk
  exact h.totalsOf hr hkind

theorem Settles.totalsAt_of_none {s s' : Store} (h : s.Settles s' fun _ => none)
    (hs : s.WellFormed) (path : String) : s'.totalsAt path = s.totalsAt path :=
  h.totalsAt hs path

end Store

namespace Synthetic

/-- The target and the sources found so far are the records that lookups of their paths find. -/
structure Current (s : Synthetic) (store : Store) : Prop where
  target : store.locate .adder s.definition.target = some s.target
  source : List.Forall₂ (fun path slot => ∀ h ∈ slot, store.locate .adder path = some h)
    s.definition.sources s.sources

theorem Current.congr {s : Synthetic} {store store' : Store} (h : s.Current store)
    (hlocate : ∀ path, store'.locate .adder path = store.locate .adder path) :
    s.Current store' := by
  refine ⟨(hlocate _).trans h.target, h.source.imp fun path slot hslot k hk => ?_⟩
  rw [hlocate, hslot k hk]

theorem Current.filled_eq {s : Synthetic} {store : Store} (h : s.Current store) :
    filled s.definition.sources s.sources store =
      s.definition.sources.map (store.locate .adder) := by
  have hall : ∀ {paths slots}, List.Forall₂ (fun path slot => ∀ h ∈ slot,
      store.locate .adder path = some h) paths slots →
        filled paths slots store = paths.map (store.locate .adder) := by
    intro paths slots hslots
    induction hslots with
    | nil => rfl
    | @cons path slot paths slots hslot _ ih =>
      rw [filled_cons, ih, List.map_cons]
      cases slot with
      | none => rfl
      | some k => rw [hslot k rfl, Option.some_or]
  exact hall h.source

section Turn

variable {s : Synthetic} {store : Store}

theorem reads_prepare (hstore : store.WellFormed) (hs : s.Bound store) (h : s.Current store)
    (hmissing : ¬ 0 < (s.prepare store).synthetic.missing) :
    (s.prepare store).reads.map (·.totals) = s.definition.sources.filterMap store.totalsAt := by
  have hdefinition := (resolves_prepare hstore hs).definition
  have hsources := (prepare_spec hstore hs).1
  rw [h.filled_eq] at hsources
  have hzip : s.definition.sources.zip (s.definition.sources.map (store.locate .adder)) =
      s.definition.sources.map fun path => (path, store.locate .adder path) := by
    simpa using List.zip_map' (f := id) (g := store.locate .adder) (l := s.definition.sources)
  unfold Evaluation.reads
  rw [if_neg hmissing, hdefinition, hsources, hzip, List.filterMap_map, List.map_filterMap]
  congr 1
  funext path
  rw [Function.comp_apply, Option.map_map, ← (settles_prepare hstore hs).totalsAt_of_none hstore]
  unfold Store.totalsAt
  rw [(settles_prepare hstore hs).locate hstore]
  rfl

theorem written_prepare (hstore : store.WellFormed) (hs : s.Bound store) (h : s.Current store) :
    (s.prepare store).written =
      if ∀ path ∈ s.definition.sources, (store.totalsAt path).isSome then
        some (s.definition.result (s.definition.sources.filterMap store.totalsAt)) else none := by
  have hdefinition := (resolves_prepare hstore hs).definition
  have hpresent : 0 < (s.prepare store).synthetic.missing ↔
      ¬ ∀ path ∈ s.definition.sources, (store.totalsAt path).isSome := by
    rw [(bound_prepare hstore hs).missing, (prepare_spec hstore hs).1, h.filled_eq,
      List.count_pos_iff]
    simp [Store.totalsAt]
  unfold Evaluation.written
  by_cases hmissing : 0 < (s.prepare store).synthetic.missing
  · rw [if_pos hmissing, if_neg (hpresent.mp hmissing)]
  · rw [if_neg hmissing, if_pos (not_not.mp (mt hpresent.mpr hmissing)),
      reads_prepare hstore hs h hmissing, hdefinition, Definition.evaluate_eq_result]

theorem totalsAt_outcome (hstore : store.WellFormed) (hs : s.Bound store) (h : s.Current store) :
    (s.prepare store).outcome.totalsAt = s.definition.turn store.totalsAt := by
  have hsettles := (settles_prepare hstore hs).trans (s.prepare store).settles_outcome
  have htarget := (resolves_prepare hstore hs).target
  funext path
  rw [hsettles.totalsAt hstore]
  unfold Evaluation.gives Definition.turn
  simp only [Option.or_none, htarget, written_prepare hstore hs h]
  split
  · -- A path leads to the target exactly if it is that of the definition.
    by_cases hpath : path = s.definition.target
    · rw [hpath, Function.update_self, h.target, Option.map_some, if_pos rfl, Option.getD_some]
    · rw [Function.update_of_ne hpath]
      refine Option.map_congr fun k hk => ?_
      rw [if_neg, Option.getD_none]
      rintro rfl
      obtain ⟨r, hr, -, -, rfl⟩ := hstore.locate_eq_some_iff.mp hk
      obtain ⟨r', hr', -, -, hpath'⟩ := hstore.locate_eq_some_iff.mp h.target
      rw [hr] at hr'
      cases hr'
      exact hpath hpath'
  · simp only [ite_self, Option.getD_none]
    rfl

end Turn

theorem totalsAt_generateAll {ss : List Synthetic} {store : Store} (hstore : store.WellFormed)
    (hbound : ∀ s ∈ ss, s.Bound store) (hcurrent : ∀ s ∈ ss, s.Current store) :
    (generateAll ss store).2.2.totalsAt =
      (ss.map (·.definition)).foldl Definition.turn store.totalsAt := by
  induction ss generalizing store with
  | nil => rfl
  | cons s rest ih =>
    have hs := hbound s List.mem_cons_self
    have hsettles := (settles_prepare hstore hs).trans (s.prepare store).settles_outcome
    rw [generateAll_cons hstore hs, ih (hsettles.wellFormed hstore), totalsAt_outcome hstore hs
      (hcurrent s List.mem_cons_self), List.map_cons, List.foldl_cons]
    · exact fun s' hs' => (hbound s' (List.mem_cons_of_mem _ hs')).evolves hsettles.evolves
    · exact fun s' hs' => (hcurrent s' (List.mem_cons_of_mem _ hs')).congr
        (hsettles.locate hstore .adder)

end Synthetic

namespace Engine

def intake (e : Engine) (path : String) : Option Totals :=
  (e.locate .adder path).bind fun h =>
    (e.store.get? h).map (Record.intake e.settings.predictLimit)

def afterTurns (nowMs count : Nat) (e : Engine) : Store :=
  (Synthetic.generateAll ((e.taken nowMs).synthetics.take count) (e.taken nowMs).store).2.2

section Tick

variable {e : Engine} (nowMs : Nat)

theorem totalsAt_taken (he : e.WellFormed) (hcrew : 0 < e.crew .adder) :
    (e.taken nowMs).store.totalsAt = e.intake := by
  funext path
  unfold Store.totalsAt intake locate
  rw [locate_taken he, Option.map_eq_bind]
  refine Option.bind_congr fun k hk => ?_
  obtain ⟨r, hr, hvalid, hkind, -⟩ := he.store.locate_eq_some_iff.mp hk
  have hcovers : e.covers .adder r = true := by simp [covers, hvalid, hkind, hcrew]
  have htaken : (e.taken nowMs).store.get? k = some (r.takeAdder e.settings.predictLimit) := by
    rw [(revises_taken nowMs he).2.get, hr, Option.map_some, if_pos hcovers]
  rw [Function.comp_apply, Synthetic.totalsOf_eq htaken, Record.totals_takeAdder, hr,
    Option.map_some]

theorem totalsAt_afterTurns (he : e.WellFormed)
    (hcurrent : ∀ s ∈ e.synthetics, s.Current e.store) (hne : e.synthetics ≠ []) (count : Nat) :
    (e.afterTurns nowMs count).totalsAt =
      ((e.plan.map Prod.fst).take count).foldl Definition.turn e.intake := by
  have hmoves := (revises_taken nowMs he).1
  have hmem : ∀ s ∈ (e.taken nowMs).synthetics.take count, s ∈ e.synthetics := fun s hs =>
    synthetics_taken nowMs e ▸ List.mem_of_mem_take hs
  rw [afterTurns, Synthetic.totalsAt_generateAll hmoves.wellFormed.store, synthetics_taken,
    totalsAt_taken nowMs he (he.computing hne), List.map_take, plan, List.map_map]
  · rfl
  · exact fun s hs => hmoves.wellFormed.bound s (List.mem_of_mem_take hs)
  · exact fun s hs => (hcurrent s (hmem s hs)).congr (locate_taken he nowMs)

theorem isSome_afterTurns (he : e.WellFormed) (count : Nat) (path : String) :
    ((e.afterTurns nowMs count).totalsAt path).isSome = (e.locate .adder path).isSome := by
  have hmoves := (revises_taken nowMs he).1
  have hsettles := (Synthetic.generateAll_snd hmoves.wellFormed.store fun s hs =>
    hmoves.wellFormed.bound s (List.mem_of_mem_take (i := count) hs)).2
  rw [Store.totalsAt, Option.isSome_map, afterTurns, hsettles.locate hmoves.wellFormed.store,
    locate_taken he, locate]

theorem totalsAt_tick (took : Activity → Nat) (he : e.WellFormed) {path : String} {k : Handle}
    (hlocate : e.locate .adder path = some k) :
    some (Synthetic.totalsOf (e.tick nowMs took).store k) =
      (e.afterTurns nowMs e.synthetics.length).totalsAt path := by
  obtain ⟨r, hr, -, hkind, -⟩ := he.store.locate_eq_some_iff.mp hlocate
  obtain ⟨middle, last, hmiddle, hlast, -, -, hbody⟩ := get?_tick_adder nowMs took he hr hkind
  have hmoves := (revises_taken nowMs he).1
  have hcomputed : (e.computed nowMs took).store = e.afterTurns nowMs e.synthetics.length := by
    rw [computed, store_runSynthetics, afterTurns, synthetics_taken, List.take_length]
  have hkeeps : (e.computed nowMs took).store.locate .adder path = some k := by
    rw [computed, (settles_runSynthetics _ hmoves.wellFormed).locate hmoves.wellFormed.store,
      locate_taken he]
    exact hlocate
  have htotals : last.totals = middle.totals := by
    have hsame : last.totals =
        (if e.covers .adder r then (middle.reportAdder e.settings nowMs).2 else middle).totals := by
      unfold Record.totals
      rw [hbody]
    rw [hsame]
    split
    · exact middle.totals_reportAdder _ _
    · rfl
  rw [← hcomputed, Store.totalsAt, hkeeps, Option.map_some, Synthetic.totalsOf_eq hlast,
    Synthetic.totalsOf_eq hmiddle, htotals]

end Tick

def Known (e : Engine) (calls : List Call) (path : String) : Prop :=
  ∃ before, before <+: calls ∧ ((e.run before).locate .adder path).isSome

section Run

variable {c : EngineConfig} {e : Engine} {calls : List Call}

/-- Without removals synthetic adders hold on to what lookups find. -/
theorem current_run (h : ofConfig c = .ok e) (hkept : ∀ kind path, Call.remove kind path ∉ calls) :
    ∀ s ∈ (e.run calls).synthetics, s.Current (e.run calls).store := by
  have he := (ofConfig_sound h).1
  have hmoves := moves_run he hkept
  have hrun := hmoves.wellFormed
  intro s hs
  constructor
  · have hmem : (s.definition, s.target) ∈ (e.run calls).plan :=
      List.mem_map.mpr ⟨s, hs, rfl⟩
    rw [plan_run he] at hmem
    exact hrun.store.locate_eq_some_iff.mpr
      (hmoves.pins ((plan_ofConfig h).2 _ _ hmem)).holds
  · have hvalid : ∀ k, some k ∈ s.sources → (e.run calls).store.isValid k = true := by
      intro k hk
      refine (hmoves.source s hs k hk).resolve_left ?_
      rintro ⟨s', hs', hmem⟩
      exact unfound_ofConfig h s' hs' k hmem
    have hlinked := (hrun.bound s hs).linked
    rw [Synthetic.Linked, List.forall₂_iff_get] at hlinked
    rw [List.forall₂_iff_get]
    refine ⟨hlinked.1, fun i hi hi' k hk => ?_⟩
    obtain ⟨r, hr, hkind, hpath, -⟩ := hlinked.2 i hi hi' k hk
    have hfound := hvalid k (hk ▸ List.get_mem _ _)
    rw [Store.isValid, hr, Option.any_some] at hfound
    exact hrun.store.locate_eq_some_iff.mpr ⟨r, hr, hfound, hkind, hpath⟩

theorem locate_reconfigure (he : e.WellFormed) {blocks : List BlockConfig} {e' : Engine}
    (h : e.reconfigure blocks = .ok e') (kind : Kind) (path : String) :
    e'.locate kind path = e.locate kind path := by
  obtain ⟨layouts, rfl⟩ := reconfigure_eq h
  have hset : e.Moves (e.setLayouts layouts) := moves_of_same he rfl rfl rfl rfl
  exact (revises_retargetAll hset.wellFormed).locate hset.wellFormed.store (fun k r _ => by
    split
    · exact r.stays_retarget _
    · exact .refl r) kind path

theorem locate_source_tick (h : ofConfig c = .ok e)
    (hkept : ∀ kind path, Call.remove kind path ∉ calls) {s : Synthetic}
    (hs : s ∈ (e.run calls).synthetics) {path : String} (hpath : path ∈ s.definition.sources)
    {k : Handle} (hlocate : (e.run calls).locate .adder path = some k) (nowMs : Nat)
    (took : Activity → Nat) : ((e.run calls).tick nowMs took).locate .adder path = some k := by
  have hrun := (leads_run (ofConfig_sound h).1 calls).wellFormed
  obtain ⟨s', hs', hdefinition, -, hsources⟩ := (exists_completes hrun nowMs took).1 s hs
  have hafter : s'.Current ((e.run calls).tick nowMs took).store := by
    rw [← run_tick] at hs' ⊢
    exact current_run h (by simpa using hkept) s' hs'
  have hslots := hafter.source
  rw [hsources, (current_run h hkept s hs).filled_eq, hdefinition, List.forall₂_map_right_iff,
    List.forall₂_same] at hslots
  exact hslots path hpath k hlocate

theorem locate_source_run (h : ofConfig c = .ok e)
    (hkept : ∀ kind path, Call.remove kind path ∉ calls) {d : Definition}
    (hd : d ∈ e.plan.map Prod.fst) {path : String} (hpath : path ∈ d.sources)
    {before : List Call} (hpart : before <+: calls) {k : Handle}
    (hlocate : (e.run before).locate .adder path = some k) :
    (e.run calls).locate .adder path = some k := by
  have he := (ofConfig_sound h).1
  obtain ⟨rest, rfl⟩ := hpart
  induction rest using List.reverseRecOn with
  | nil => rwa [List.append_nil]
  | append_singleton rest last ih =>
    simp only [← List.append_assoc, List.mem_append, List.mem_singleton, not_or] at hkept ⊢
    have hrest : ∀ kind path, Call.remove kind path ∉ before ++ rest := fun kind path => by
      simpa using (hkept kind path).1
    have hheld := ih hrest
    have hrun := (leads_run he (before ++ rest)).wellFormed
    have hlast : ((e.run (before ++ rest)).call last).WellFormed :=
      (leads_call hrun last).wellFormed
    rw [run_snoc]
    refine hlast.store.locate_eq_some_iff.mpr ((lasting_holds .adder path k).call hrun
      (hrun.store.locate_eq_some_iff.mp hheld) last ?_ ?_ ?_)
    · rintro kind path' rfl
      exact absurd rfl (hkept kind path').2
    · rintro blocks e' - hlayouts
      exact (moves_reconfigure hrun hlayouts).wellFormed.store.locate_eq_some_iff.mp
        ((locate_reconfigure hrun hlayouts .adder path).trans hheld)
    · rintro nowMs took rfl
      obtain ⟨s, hs, hdefinition⟩ : ∃ s ∈ (e.run (before ++ rest)).synthetics,
          s.definition = d := by
        rw [← plan_run he (before ++ rest), plan, List.map_map] at hd
        exact List.mem_map.mp hd
      exact hlast.store.locate_eq_some_iff.mp
        (locate_source_tick h hrest hs (hdefinition ▸ hpath) hheld nowMs took)

theorem known_iff (h : ofConfig c = .ok e)
    (hkept : ∀ kind path, Call.remove kind path ∉ calls) {d : Definition}
    (hd : d ∈ e.plan.map Prod.fst) {path : String} (hpath : path ∈ d.sources) :
    e.Known calls path ↔ ((e.run calls).locate .adder path).isSome := by
  refine ⟨?_, fun hnow => ⟨calls, List.prefix_refl calls, hnow⟩⟩
  rintro ⟨before, hpart, hbefore⟩
  obtain ⟨k, hk⟩ := Option.isSome_iff_exists.mp hbefore
  rw [locate_source_run h hkept hd hpath hpart hk]
  rfl

/-- In a run without removals, every tick computes the synthetic adders one after the other, from
what it has taken in. As soon as each of its sources has had a record, the turn of one gives its
target the result for what is in its sources then, and otherwise changes nothing. What no earlier
one computes is what the tick has taken in, and the tick ends with what is there after the last
turn. -/
theorem turns_of_tick (h : ofConfig c = .ok e)
    (hkept : ∀ kind path, Call.remove kind path ∉ calls) (nowMs : Nat) (took : Activity → Nat) :
    ∃ definitions, Definition.ofConfigs 0 c.synthetics = .ok definitions ∧
      let now := e.run calls
      let active := activeDefinitions e.settings definitions
      let totals := fun i => (now.afterTurns nowMs i).totalsAt
      ∀ i d, active[i]? = some d →
        totals 0 = now.intake ∧
        ((∀ path ∈ d.sources, e.Known calls path) → totals (i + 1) =
          Function.update (totals i) d.target (some (d.result (d.sources.filterMap (totals i))))) ∧
        ((∃ path ∈ d.sources, ¬ e.Known calls path) → totals (i + 1) = totals i) ∧
        (∀ path, (∀ earlier ∈ active.take i, earlier.target ≠ path) →
          totals i path = now.intake path) ∧
        ∃ k, now.locate .adder d.target = some k ∧
          some (Synthetic.totalsOf (now.tick nowMs took).store k) =
            totals active.length d.target := by
  have he := (ofConfig_sound h).1
  have hrun := (leads_run he calls).wellFormed
  obtain ⟨⟨definitions, hdefinitions, hplan⟩, -⟩ := plan_ofConfig h
  refine ⟨definitions, hdefinitions, ?_⟩
  intro now active totals i d hd
  have hnow : now.plan.map Prod.fst = active := by rw [plan_run he, hplan]
  have hlength : now.synthetics.length = active.length := by
    rw [← hnow, plan, List.map_map, List.length_map]
  have hmem : d ∈ active := List.mem_of_getElem? hd
  have hne : now.synthetics ≠ [] := by
    rw [← List.length_pos_iff, hlength]
    exact List.length_pos_of_mem hmem
  have htotals : ∀ n, totals n = (active.take n).foldl Definition.turn now.intake := fun n => by
    rw [← hnow]
    exact totalsAt_afterTurns nowMs hrun (current_run h hkept) hne n
  have hturn : totals (i + 1) = d.turn (totals i) := by
    rw [htotals, htotals, List.take_add_one, hd, Option.toList_some, List.foldl_append,
      List.foldl_cons, List.foldl_nil]
  have hknown : (∀ path ∈ d.sources, (totals i path).isSome) ↔
      ∀ path ∈ d.sources, e.Known calls path := by
    refine forall₂_congr fun path hpath => ?_
    rw [isSome_afterTurns nowMs hrun, known_iff h hkept (hplan ▸ hmem) hpath]
  obtain ⟨s, hs, htarget⟩ : ∃ s ∈ now.synthetics, s.definition = d := by
    rw [← hnow, plan, List.map_map] at hmem
    exact List.mem_map.mp hmem
  have hlocate : now.locate .adder d.target = some s.target :=
    htarget ▸ (current_run h hkept s hs).target
  refine ⟨htotals 0, fun hall => ?_, ?_, fun path hearlier => ?_, s.target, hlocate, ?_⟩
  · rw [hturn, Definition.turn, if_pos (hknown.mpr hall)]
  · rintro ⟨path, hpath, hunknown⟩
    rw [hturn, Definition.turn, if_neg fun hall => hunknown (hknown.mp hall path hpath)]
  · rw [htotals, Definition.foldl_turn_of_ne hearlier]
  · rw [totalsAt_tick nowMs took hrun hlocate, hlength]

end Run

/-- Two adders, one of which counts the other twice. -/
def chaining : EngineConfig :=
  compact { synthetics := [{ target := "b", source := ["a"], operation := "sum" },
    { target := "c", source := ["b", "b"], operation := "sum" }] }

theorem turns_of_tick_chaining : ∃ e definitions d k, ofConfig chaining = .ok e ∧
    Definition.ofConfigs 0 chaining.synthetics = .ok definitions ∧
      (activeDefinitions e.settings definitions)[1]? = some d ∧
      let now := e.run [point "a" 5]
      now.locate .adder d.target = some k ∧
        some (Synthetic.totalsOf (now.tick 1000 fun _ => 0).store k) =
          (now.afterTurns 1000 2).totalsAt d.target ∧
        (Synthetic.totalsOf (now.tick 1000 fun _ => 0).store k).total = 10 := by
  have hcheck : (ofConfig chaining).toOption.any (fun e =>
      let now := e.run [point "a" 5]
      (Definition.ofConfigs 0 chaining.synthetics).toOption.any fun definitions =>
        let active := activeDefinitions e.settings definitions
        decide (active.length = 2) && active[1]?.any fun d =>
          (now.locate .adder d.target).any fun k =>
            decide ((Synthetic.totalsOf (now.tick 1000 fun _ => 0).store k).total = 10)) =
        true := by
    decide +kernel
  obtain ⟨e, he, hany⟩ := exists_ofConfig hcheck
  have hkept : ∀ kind path, Call.remove kind path ∉ [point "a" 5] := fun _ _ hmem => by
    cases List.mem_singleton.mp hmem
  obtain ⟨definitions, hdefinitions, hturns⟩ := turns_of_tick he hkept 1000 fun _ => 0
  simp only [hdefinitions, Except.toOption, Option.any_some, Bool.and_eq_true, decide_eq_true_eq]
    at hany
  obtain ⟨d, hd, hvalue⟩ := (Option.any_eq_true _ _).mp hany.2
  obtain ⟨-, -, -, -, k, hk, htotals⟩ := hturns 1 d hd
  rw [hk, Option.any_some, decide_eq_true_eq] at hvalue
  simp only [hany.1] at htotals
  exact ⟨e, definitions, d, k, he, hdefinitions, hd, hk, htotals, hvalue⟩

end Engine

end Rollup
