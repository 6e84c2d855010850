import Rollup.Proofs.Document.Reading
import Rollup.Proofs.Engine.Steps
import Rollup.Proofs.Synthetic.Domain
import Rollup.Proofs.Synthetic.Plan

/-! Applications of operations. A definition that is accepted has the sources that its operation
needs, and a synthetic adder holds a record for each of them before it applies the operation. -/
namespace Rollup

structure Application where
  operation : Operation
  values : List Totals
  factor : Float
  absent : Nat

namespace Application

def result (a : Application) : Float := a.operation.apply a.values a.factor a.absent

def points (a : Application) : Nat := a.values.foldl (fun sum v => sum + v.count) 0

theorem countP_lt_length {a : Application} (h : 0 < a.points) :
    (a.values.countP fun v => v.count = 0) < a.values.length := by
  rw [points, ← List.foldl_map, ← List.sum_eq_foldl, List.sum_pos_iff_exists_pos_nat] at h
  obtain ⟨count, hmem, hpos⟩ := h
  obtain ⟨v, hv, rfl⟩ := List.mem_map.mp hmem
  exact List.countP_lt_length_iff.mpr ⟨v, hv, decide_eq_false (Nat.ne_of_gt hpos)⟩

end Application

namespace Definition

def application (d : Definition) (values : List Totals) : Option Application :=
  let absent := values.countP fun v => v.count = 0
  let a : Application := ⟨d.operation, values, d.factor, absent⟩
  if 0 < a.points ∧ absent ≤ d.maxAbsent then some a else none

theorem application_eq {d : Definition} {values : List Totals} {a : Application}
    (h : d.application values = some a) :
    ⟨d.operation, values, d.factor, values.countP fun v => v.count = 0⟩ = a ∧ 0 < a.points := by
  simp only [application] at h
  split at h
  · rename_i hqualifies
    cases h
    exact ⟨rfl, hqualifies.1⟩
  · cases h

/-- What an enabled definition takes over from a configuration that passes the checks. -/
structure Accepts (c : SyntheticConfig) (d : Definition) : Prop where
  target : d.target = c.target
  sources : d.sources = c.source
  operation : Operation.ofName? c.operation = some d.operation
  factor : d.factor = c.factor
  enough : d.operation.leastSources ≤ c.source.length

theorem accepts_ofConfig {index : Nat} {c : SyntheticConfig} {found : Option Definition}
    (h : ofConfig index c = .ok found) :
    if c.enable then ∃ d, found = some d ∧ Accepts c d else found = none := by
  simp only [ofConfig] at h
  obtain ⟨-, h⟩ := of_check_eq_ok h
  obtain ⟨-, h⟩ := of_check_eq_ok h
  obtain ⟨-, h⟩ := of_check_eq_ok h
  split at h
  · rename_i op hop
    obtain ⟨-, h⟩ := of_check_eq_ok h
    obtain ⟨henough, h⟩ := of_check_eq_ok h
    by_cases henable : c.enable = true
    · rw [if_neg (by simp [henable])] at h
      cases h
      rw [if_pos henable]
      exact ⟨_, rfl, rfl, rfl, hop, rfl, Nat.le_of_not_lt henough⟩
    · rw [if_pos (by simp [henable])] at h
      cases h
      rw [if_neg henable]
  · cases h

theorem accepts_ofConfigs {index : Nat} {cs : List SyntheticConfig} {ds : List Definition}
    (h : ofConfigs index cs = .ok ds) : List.Forall₂ Accepts (cs.filter (·.enable)) ds := by
  induction cs generalizing index ds with
  | nil =>
    cases h
    exact .nil
  | cons c rest ih =>
    rw [ofConfigs] at h
    obtain ⟨found, hfound, h⟩ := bind_eq_ok_iff.mp h
    obtain ⟨more, hmore, h⟩ := bind_eq_ok_iff.mp h
    cases h
    have hfirst := accepts_ofConfig hfound
    by_cases henable : c.enable
    · rw [if_pos henable] at hfirst
      obtain ⟨d, rfl, haccepts⟩ := hfirst
      rw [List.filter_cons_of_pos henable]
      exact .cons haccepts (ih hmore)
    · rw [if_neg henable] at hfirst
      rw [List.filter_cons_of_neg henable, hfirst]
      exact ih hmore

theorem exists_accepted {index : Nat} {cs : List SyntheticConfig} {ds : List Definition}
    (h : ofConfigs index cs = .ok ds) {i : Nat} {d : Definition} (hd : ds[i]? = some d) :
    ∃ c, (cs.filter (·.enable))[i]? = some c ∧ Accepts c d := by
  have haccepts := accepts_ofConfigs h
  obtain ⟨hi, rfl⟩ := List.getElem?_eq_some_iff.mp hd
  have hi' := haccepts.length_eq ▸ hi
  exact ⟨_, List.getElem?_eq_getElem hi', haccepts.get hi' hi⟩

end Definition

namespace Synthetic

theorem evaluate_eq_application (d : Definition) (values : List Totals) :
    evaluate d values = (d.application values).map fun a => ⟨a.result, a.points⟩ := by
  unfold Definition.application
  rw [apply_ite (Option.map _)]
  rfl

/-- One total for each path, in order, which is that of a record of the path. -/
def Supplies (store : Store) (paths : List String) (values : List Totals) : Prop :=
  List.Forall₂ (fun path v => ∃ h, store.Keeps path h ∧ v = totalsOf store h) paths values

/-- Without an empty slot, no total takes the place of another. -/
theorem Linked.supplies {paths : List String} {slots : List (Option Handle)} {store : Store}
    (hlinked : Linked paths slots store) (hfull : slots.count none = 0) :
    Supplies store paths ((slots.filterMap id).map (totalsOf store)) := by
  induction hlinked with
  | nil => exact .nil
  | @cons path slot paths slots hslot _ ih =>
    cases slot with
    | none => simp at hfull
    | some h =>
      rw [List.count_cons_of_ne (by simp)] at hfull
      exact .cons ⟨h, hslot h rfl, rfl⟩ (ih hfull)

namespace Evaluation

def application (v : Evaluation) : Option Application :=
  if 0 < v.synthetic.missing then none
  else v.synthetic.definition.application
    ((v.synthetic.sources.filterMap id).map (totalsOf v.store))

end Evaluation

/-- A synthetic adder applies its operation exactly when it writes a value, which is the result. -/
theorem generate_eq (s : Synthetic) (store : Store) :
    s.generate store =
      let v := s.prepare store
      let target := fun totals => v.store.modify v.synthetic.target (overwrite totals)
      match v.application with
      | some a => (true, v.synthetic, target ⟨a.result, a.points⟩)
      | none => (false, v.synthetic, if 0 < v.synthetic.missing then v.store else target .zero) := by
  unfold generate Evaluation.application
  simp only [prepare, evaluate_eq_application]
  by_cases hmissing : 0 < (s.resolve store).1.missing
  · simp only [hmissing, if_true]
  · simp only [hmissing, if_false]
    cases Definition.application _ _ <;> rfl

section Evaluation

variable {v : Evaluation} {store : Store}

theorem Evaluation.application_eq {a : Application} (ha : v.application = some a) :
    ¬ 0 < v.synthetic.missing ∧ v.synthetic.definition.application
      ((v.synthetic.sources.filterMap id).map (totalsOf v.store)) = some a := by
  unfold Evaluation.application at ha
  split at ha
  · cases ha
  · exact ⟨‹_›, ha⟩

theorem Evaluation.written_of_application (hbound : v.synthetic.Bound v.store) {a : Application}
    (ha : v.application = some a) : v.written = some ⟨a.result, a.points⟩ := by
  obtain ⟨hmissing, ha⟩ := application_eq ha
  rw [totals_of_linked hbound.linked] at ha
  unfold Evaluation.written Evaluation.reads
  rw [if_neg hmissing, if_neg hmissing, evaluate_eq_application, ha]
  rfl

theorem Evaluation.meets_of_application (hbound : v.synthetic.Bound v.store)
    (henough : v.synthetic.definition.operation.leastSources ≤
      v.synthetic.definition.sources.length)
    {a : Application} (ha : v.application = some a) :
    a.operation = v.synthetic.definition.operation ∧ a.factor = v.synthetic.definition.factor ∧
      Supplies v.store v.synthetic.definition.sources a.values ∧
      a.operation.Meets a.values a.absent := by
  obtain ⟨hmissing, ha⟩ := application_eq ha
  have hfull : v.synthetic.sources.count none = 0 := by
    rw [← hbound.missing]
    exact Nat.eq_zero_of_not_pos hmissing
  have hsupplies := hbound.linked.supplies hfull
  obtain ⟨rfl, hpoints⟩ := Definition.application_eq ha
  refine ⟨rfl, rfl, hsupplies, ⟨?_, rfl, Application.countP_lt_length hpoints⟩⟩
  rw [← hsupplies.length_eq]
  exact henough

theorem plan_evaluations {ss : List Synthetic} (hstore : store.WellFormed)
    (hs : ∀ s ∈ ss, s.Bound store) :
    (evaluations ss store).map (fun v => (v.synthetic.definition, v.synthetic.target)) =
      ss.map fun s => (s.definition, s.target) := by
  induction ss generalizing store with
  | nil => rfl
  | cons s rest ih =>
    have hbound := hs s List.mem_cons_self
    have hresolves := resolves_prepare hstore hbound
    have hsettles := (settles_prepare hstore hbound).trans (s.prepare store).settles_outcome
    rw [evaluations, List.map_cons, List.map_cons, hresolves.definition, hresolves.target,
      ih (hsettles.wellFormed hstore) fun s' hmem =>
        (hs s' (List.mem_cons_of_mem _ hmem)).evolves hsettles.evolves]

end Evaluation

end Synthetic

inductive Occurrence
  | call (c : Call)
  | turn (s : Step)

namespace Engine

def occur (e : Engine) : Occurrence → Engine
  | .call c => e.call c
  | .turn s => e.step s

def course (e : Engine) (past : List Occurrence) : Engine := past.foldl occur e

def evaluationsIn (e : Engine) : Occurrence → List Synthetic.Evaluation
  | .call (.tick nowMs _) => e.evaluations nowMs
  | .turn (.compute _) => Synthetic.evaluations e.synthetics e.store
  | _ => []

section Course

variable {e : Engine}

theorem plan_runSynthetics (he : e.WellFormed) (took : Nat) :
    (e.runSynthetics took).plan = e.plan := by
  rw [plan, synthetics_runSynthetics took he, List.map_map]
  exact Synthetic.plan_evaluations he.store he.bound

theorem plan_of_rules {e e' : Engine} (h : e'.rules = e.rules) : e'.plan = e.plan :=
  congrArg (fun rules => rules.2.2.map fun s => (s.definition, s.target)) h

theorem plan_step (he : e.WellFormed) (step : Step) : (e.step step).plan = e.plan := by
  cases step with
  | point p => exact plan_call he (.ingest p)
  | text text => exact plan_call he (.text text)
  | compute took => exact plan_runSynthetics he took
  | take nowMs id => exact plan_of_rules (rules_onWorker _ _ _ _)
  | report nowMs took id =>
    exact plan_of_rules ((rules_finishShard _ _ _ _).trans (rules_onWorker _ _ _ _))
  | pass nowMs took kind id =>
    exact plan_of_rules ((rules_finishShard _ _ _ _).trans (rules_onWorker _ _ _ _))
  | collect took => exact plan_of_rules (rules_collect took e)

theorem leads_occur (he : e.WellFormed) (o : Occurrence) :
    e.Leads (e.occur o) ∧ (e.occur o).plan = e.plan := by
  cases o with
  | call c => exact ⟨leads_call he c, plan_call he c⟩
  | turn s => exact ⟨(moves_step he s).toLeads, plan_step he s⟩

theorem leads_course (he : e.WellFormed) (past : List Occurrence) :
    e.Leads (e.course past) ∧ (e.course past).plan = e.plan := by
  induction past generalizing e with
  | nil => exact ⟨.refl he, rfl⟩
  | cons first rest ih =>
    obtain ⟨hfirst, hplan⟩ := leads_occur he first
    obtain ⟨hrest, hplan'⟩ := ih hfirst.wellFormed
    exact ⟨hfirst.trans hrest, hplan'.trans hplan⟩

theorem exists_evaluationsIn (he : e.WellFormed) (o : Occurrence) {i : Nat}
    {v : Synthetic.Evaluation} (hv : (e.evaluationsIn o)[i]? = some v) :
    ∃ now : Engine, now.WellFormed ∧ now.plan = e.plan ∧
      (Synthetic.evaluations now.synthetics now.store)[i]? = some v := by
  unfold evaluationsIn at hv
  split at hv
  · rename_i nowMs took
    exact ⟨e.taken nowMs, (revises_taken nowMs he).1.wellFormed, plan_of_rules (rules_taken nowMs e),
      hv⟩
  · exact ⟨e, he, rfl, hv⟩
  · simp at hv

end Course

/-- Whatever an engine goes through, each use of an operation is that of an enabled definition, in
order. It is given one total for each source of the definition, in order, as many as the operation
needs, and some of them with data, so that the operation has a value, which is what the target is
given. -/
theorem applications_meet {c : EngineConfig} {e : Engine} (h : ofConfig c = .ok e)
    (past : List Occurrence) (next : Occurrence) (i : Nat) (v : Synthetic.Evaluation)
    (hv : ((e.course past).evaluationsIn next)[i]? = some v) (a : Application)
    (ha : v.application = some a) :
    ∃ d, (c.synthetics.filter (·.enable))[i]? = some d ∧
      Operation.ofName? d.operation = some a.operation ∧ a.factor = d.factor ∧
      Synthetic.Supplies v.store d.source a.values ∧ a.operation.Meets a.values a.absent ∧
      a.operation.value? a.values a.factor a.absent = some a.result ∧
      v.written = some ⟨a.result, a.points⟩ := by
  have he := (ofConfig_sound h).1
  obtain ⟨hcourse, hplan⟩ := leads_course he past
  obtain ⟨now, hnow, hplan', hv⟩ := exists_evaluationsIn hcourse.wellFormed next hv
  have hbound := (Synthetic.takes_evaluation hnow.store hnow.bound hv).bound
  obtain ⟨⟨definitions, hdefinitions, hactive⟩, -⟩ := plan_ofConfig h
  -- The definition is one that was accepted when the engine was built.
  have hmem : (e.plan.map Prod.fst)[i]? = some v.synthetic.definition := by
    rw [← hplan, ← hplan', plan, ← Synthetic.plan_evaluations hnow.store hnow.bound, List.map_map,
      List.getElem?_map, hv]
    rfl
  have hdefinition : definitions[i]? = some v.synthetic.definition := by
    rw [hactive, activeDefinitions] at hmem
    split at hmem
    · exact hmem
    · simp at hmem
  obtain ⟨d, hd, haccepts⟩ := Definition.exists_accepted hdefinitions hdefinition
  have henough : v.synthetic.definition.operation.leastSources ≤
      v.synthetic.definition.sources.length := haccepts.sources ▸ haccepts.enough
  obtain ⟨hoperation, hfactor, hsupplies, hmeets⟩ :=
    Synthetic.Evaluation.meets_of_application hbound henough ha
  exact ⟨d, hd, hoperation ▸ haccepts.operation, hfactor.trans haccepts.factor,
    haccepts.sources ▸ hsupplies, hmeets, hmeets.value?_eq a.factor,
    Synthetic.Evaluation.written_of_application hbound ha⟩

/-- A mean of the sources with data, one of which counts twice. -/
def averaging : EngineConfig :=
  compact { synthetics := [{ target := "t", source := ["a", "b", "a"], operation := "meanIf" }] }

/-- One of its sources has no data. -/
def halfway : List Occurrence :=
  [.call (.create .adder "b"), .call (point "a" 6), .turn (.take 1000 0)]

theorem applications_meet_averaging : ∃ e v a, ofConfig averaging = .ok e ∧
    ((e.course halfway).evaluationsIn (.turn (.compute 0)))[0]? = some v ∧
      v.application = some a ∧ a.values.map (·.total) = [6, 0, 6] ∧ a.absent = 1 ∧
      a.operation.Meets a.values a.absent ∧
      a.operation.value? a.values a.factor a.absent = some 6 := by
  have hcheck : (ofConfig averaging).toOption.any (fun e =>
      ((e.course halfway).evaluationsIn (.turn (.compute 0)))[0]?.any fun v =>
        v.application.any fun a => decide (a.values.map (·.total) = [6, 0, 6]) &&
          decide (a.absent = 1) && decide (a.result = 6)) = true := by
    decide +kernel
  obtain ⟨e, he, hany⟩ := exists_ofConfig hcheck
  obtain ⟨v, hv, hany⟩ := (Option.any_eq_true _ _).mp hany
  obtain ⟨a, ha, hshows⟩ := (Option.any_eq_true _ _).mp hany
  simp only [Bool.and_eq_true, decide_eq_true_eq] at hshows
  obtain ⟨⟨hvalues, habsent⟩, hresult⟩ := hshows
  obtain ⟨-, -, -, -, -, hmeets, hdefined, -⟩ :=
    applications_meet he halfway (.turn (.compute 0)) 0 v hv a ha
  exact ⟨e, v, a, he, hv, ha, hvalues, habsent, hmeets, hresult ▸ hdefined⟩

end Engine

end Rollup
