import Rollup.Proofs.Engine.Arrivals
import Rollup.Proofs.Engine.Mirrors
import Rollup.Proofs.Synthetic.Sources

/-! The plan of an engine: which definition writes to which record. It is drawn up when the engine
is built, and nothing changes it later. -/
namespace Rollup

def Store.Pins (s : Store) (path : String) (h : Handle) : Prop :=
  ∃ r, s.get? h = some r ∧ r.valid = true ∧ r.kind = .adder ∧ r.path = path ∧ r.idle = none

theorem Store.Pins.holds {s : Store} {path : String} {h : Handle} (hpins : s.Pins path h) :
    s.Holds .adder path h :=
  let ⟨r, hr, hvalid, hkind, hpath, _⟩ := hpins
  ⟨r, hr, hvalid, hkind, hpath⟩

theorem Store.Pins.keeps {s : Store} {path : String} {h : Handle} (hpins : s.Pins path h) :
    s.Keeps path h :=
  let ⟨r, hr, _, hkind, hpath, hidle⟩ := hpins
  ⟨r, hr, hkind, hpath, hidle⟩

namespace Engine

theorem Moves.pins {e e' : Engine} (h : e.Moves e') {path : String} {k : Handle}
    (hpins : e.store.Pins path k) : e'.store.Pins path k := by
  obtain ⟨r, hr, hvalid, hkind, hpath, hidle⟩ := hpins
  obtain ⟨r', hr', hfollows⟩ := h.evolves k r hr
  exact ⟨r', hr', (h.spares k r r' hr hr' hidle).trans hvalid, hfollows.kind.trans hkind,
    hfollows.path.trans hpath, hfollows.exempt hidle⟩

def plan (e : Engine) : List (Definition × Handle) :=
  e.synthetics.map fun s => (s.definition, s.target)

section Calls

variable {e : Engine}

theorem locate_taken (he : e.WellFormed) (nowMs : Nat) (path : String) :
    (e.taken nowMs).store.locate .adder path = e.store.locate .adder path :=
  (revises_taken nowMs he).2.locate he.store (fun k r _ => by
    split
    · exact r.stays_takeAdder _
    · exact .refl r) .adder path

theorem completes_tick (he : e.WellFormed) (nowMs : Nat) (took : Activity → Nat) :
    List.Forall₂ (Synthetic.Completes e.store) e.synthetics (e.tick nowMs took).synthetics := by
  have hmoves := (revises_taken nowMs he).1
  rw [synthetics_tick]
  refine (Synthetic.generateAll_spec hmoves.wellFormed.store ?_).1.imp ?_
  · exact synthetics_taken nowMs e ▸ hmoves.wellFormed.bound
  · rintro s s' ⟨hdefinition, htarget, hsources⟩
    exact ⟨hdefinition, htarget,
      hsources.trans (Synthetic.filled_congr (locate_taken he nowMs))⟩

theorem exists_completes (he : e.WellFormed) (nowMs : Nat) (took : Activity → Nat) :
    (∀ s ∈ e.synthetics, ∃ s' ∈ (e.tick nowMs took).synthetics,
      Synthetic.Completes e.store s s') ∧
    ∀ s' ∈ (e.tick nowMs took).synthetics, ∃ s ∈ e.synthetics,
      Synthetic.Completes e.store s s' := by
  have hall := completes_tick he nowMs took
  generalize e.synthetics = ss, (e.tick nowMs took).synthetics = ss' at hall
  induction hall with
  | nil => exact ⟨nofun, nofun⟩
  | cons hs _ ih =>
    simp only [List.mem_cons, exists_eq_or_imp, forall_eq_or_imp]
    exact ⟨⟨.inl hs, fun s hmem => .inr (ih.1 s hmem)⟩, .inl hs, fun s hmem => .inr (ih.2 s hmem)⟩

theorem plan_tick (he : e.WellFormed) (nowMs : Nat) (took : Activity → Nat) :
    (e.tick nowMs took).plan = e.plan := by
  have hall : ∀ {ss ss' : List Synthetic}, List.Forall₂ (Synthetic.Completes e.store) ss ss' →
      (ss'.map fun s => (s.definition, s.target)) = ss.map fun s => (s.definition, s.target) := by
    intro ss ss' hss
    induction hss with
    | nil => rfl
    | @cons s s' _ _ hs _ ih => simp only [List.map_cons, ih, hs.definition, hs.target]
  exact hall (completes_tick he nowMs took)

theorem plan_call (he : e.WellFormed) (call : Call) : (e.call call).plan = e.plan := by
  have hlasting : Lasting fun e' => e'.plan = e.plan :=
    ⟨fun h _ => h, fun _ h _ _ _ => h, fun _ h _ _ _ => h⟩
  refine hlasting.call he rfl call (fun kind path _ => rfl) ?_ fun nowMs took _ =>
    plan_tick he nowMs took
  rintro blocks e' - hlayouts
  obtain ⟨layouts, rfl⟩ := reconfigure_eq hlayouts
  rfl

theorem plan_run (he : e.WellFormed) (calls : List Call) : (e.run calls).plan = e.plan := by
  induction calls using List.reverseRecOn with
  | nil => rfl
  | append_singleton calls last ih =>
    rw [run_snoc, plan_call (leads_run he calls).wellFormed, ih]

end Calls

section OfConfig

variable {e : Engine}

theorem pins_bindSynthetic (he : e.WellFormed) (definition : Definition) :
    (e.bindSynthetic definition).2.store.Pins definition.target
      (e.bindSynthetic definition).1.target := by
  obtain ⟨r, hr, hvalid, hkind, hpath⟩ := holds_getOrCreate he .adder definition.target
  have hget : (e.bindSynthetic definition).2.store.get? (e.bindSynthetic definition).1.target =
      ((e.getOrCreate .adder definition.target).2.store.get?
        (e.getOrCreate .adder definition.target).1).map Record.exempt :=
    (Store.get?_modify _ _ _ _).trans (if_pos rfl)
  exact ⟨r.exempt, by rw [hget, hr]; rfl, hvalid, hkind, hpath, rfl⟩

theorem pins_bindSynthetics (he : e.WellFormed) (definitions : List Definition) :
    ∀ s ∈ (e.bindSynthetics definitions).1,
      (e.bindSynthetics definitions).2.store.Pins s.definition.target s.target := by
  induction definitions generalizing e with
  | nil => exact fun s hs => nomatch hs
  | cons definition rest ih =>
    have hcreate := moves_getOrCreate he .adder definition.target
    have hfirst : e.Moves (e.bindSynthetic definition).2 :=
      hcreate.trans (moves_modifyRecord hcreate.wellFormed _ fun r => r.stays_exempt)
    intro s hs
    rcases List.mem_cons.mp hs with rfl | hs
    · exact (moves_bindSynthetics hfirst.wellFormed rest).pins (pins_bindSynthetic he definition)
    · exact ih hfirst.wellFormed s hs

theorem definitions_bindSynthetics (definitions : List Definition) (e : Engine) :
    (e.bindSynthetics definitions).1.map (·.definition) = definitions := by
  induction definitions generalizing e with
  | nil => rfl
  | cons definition rest ih => exact congrArg (definition :: ·) (ih _)

theorem plan_ofConfig {c : EngineConfig} (h : ofConfig c = .ok e) :
    (∃ definitions, Definition.ofConfigs 0 c.synthetics = .ok definitions ∧
      e.plan.map Prod.fst = activeDefinitions e.settings definitions) ∧
      ∀ d k, (d, k) ∈ e.plan → e.store.Pins d.target k := by
  obtain ⟨settings, checks, layouts, definitions, hparts, rfl⟩ := ofConfig_eq h
  have hunbound := unbound_ofConfig hparts.settings checks layouts
  refine ⟨⟨definitions, hparts.definitions, ?_⟩, ?_⟩
  · rw [settings_assembled hparts, plan, List.map_map]
    exact definitions_bindSynthetics _ _
  · intro d k hmem
    obtain ⟨s, hs, heq⟩ := List.mem_map.mp hmem
    cases heq
    exact pins_bindSynthetics hunbound _ s hs

end OfConfig

end Engine

end Rollup
