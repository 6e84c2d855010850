import Rollup.Proofs.Engine.Calls

/-! Which totals a synthetic adder reads. A source that was found is held for good, so that a read
is fresh exactly as long as the record found first has not been removed. -/
namespace Rollup

namespace Engine

/-- A read takes what the valid record of its path has swapped in, or had substituted, in this tick,
unless an earlier evaluation of the tick has given it other totals. -/
structure ReadsFresh (e : Engine) (earlier : List Synthetic.Evaluation) (read : Synthetic.Read) :
    Prop where
  found : e.locate .adder read.path = some read.source
  totals : ∃ r, e.store.get? read.source = some r ∧ read.totals =
    (Synthetic.givenTo earlier read.source).getD (r.takeAdder e.settings.predictLimit).totals

def Removed (e : Engine) (calls : List Call) (h : Handle) : Prop :=
  ∃ before path, before ++ [.remove .adder path] <+: calls ∧
    (e.run before).locate .adder path = some h

section Removed

variable {e : Engine} {calls : List Call} {h : Handle}

theorem Removed.snoc (hremoved : e.Removed calls h) (last : Call) :
    e.Removed (calls ++ [last]) h := by
  obtain ⟨before, path, hpart, hlocate⟩ := hremoved
  exact ⟨before, path, hpart.trans (List.prefix_append calls [last]), hlocate⟩

theorem not_valid_of_removed (he : e.WellFormed) (hremoved : e.Removed calls h) :
    (e.run calls).store.isValid h = false := by
  obtain ⟨before, path, ⟨rest, rfl⟩, hlocate⟩ := hremoved
  have hbefore := (leads_run he before).wellFormed
  obtain ⟨r, hr, -⟩ := hbefore.store.locate_eq_some_iff.mp hlocate
  have hafter : (e.run (before ++ [.remove .adder path])).store.get? h = some r.invalidate := by
    rw [run_snoc]
    refine (get?_remove _ _ _ _).trans ?_
    rw [if_pos hlocate, hr, Option.map_some]
  rw [run_append, ← Bool.not_eq_true]
  intro hvalid
  have hearlier := (leads_run (leads_run he _).wellFormed rest).evolves.valid_before hafter hvalid
  rw [Store.isValid, hafter] at hearlier
  cases hearlier

theorem valid_or_removed (he : e.WellFormed)
    (hnew : ∀ s ∈ e.synthetics, ∀ h, some h ∉ s.sources) {s : Synthetic}
    (hs : s ∈ (e.run calls).synthetics) (hmem : some h ∈ s.sources) :
    (e.run calls).store.isValid h = true ∨ e.Removed calls h := by
  induction calls using List.reverseRecOn generalizing s with
  | nil => exact absurd hmem (hnew s hs h)
  | append_singleton calls last ih =>
    have hrun := (leads_run he calls).wellFormed
    -- Whatever was a source before has kept its record, which is exempt.
    have hkept : (∃ s ∈ (e.run calls).synthetics, some h ∈ s.sources) →
        (∀ r r', (e.run calls).store.get? h = some r → r.kind = .adder → r.valid = true →
          r.idle = none → ((e.run calls).call last).store.get? h = some r' →
          r'.valid = true ∨ e.Removed (calls ++ [last]) h) →
        ((e.run calls).call last).store.isValid h = true ∨ e.Removed (calls ++ [last]) h := by
      rintro ⟨s, hs, hmem⟩ hstep
      rcases ih hs hmem with hvalid | hremoved
      · obtain ⟨-, r, hr, hkind, -, hidle⟩ := (hrun.bound s hs).linked.keeps hmem
        obtain ⟨r', hr', -⟩ := (leads_call hrun last).evolves h r hr
        rw [Store.isValid, hr, Option.any_some] at hvalid
        rw [Store.isValid, hr', Option.any_some]
        exact hstep r r' hr hkind hvalid hidle hr'
      · exact .inr (hremoved.snoc last)
    rw [run_snoc] at hs ⊢
    by_cases hcall : ∃ kind path, last = .remove kind path
    · obtain ⟨kind, path, rfl⟩ := hcall
      refine hkept ⟨s, hs, hmem⟩ fun r r' hr hkind hvalid _ hr' => ?_
      have hget : ((e.run calls).call (.remove kind path)).store.get? h = _ :=
        get?_remove (e.run calls) kind path h
      rw [hr'] at hget
      by_cases hlocate : (e.run calls).locate kind path = some h
      · obtain ⟨r'', hr'', -, rfl, -⟩ := hrun.store.locate_eq_some_iff.mp hlocate
        rw [hr] at hr''
        cases hr''
        exact .inr ⟨calls, path, hkind ▸ List.prefix_refl _, hkind ▸ hlocate⟩
      · rw [if_neg hlocate, hr, Option.some.injEq] at hget
        exact .inl (hget ▸ hvalid)
    · have hmoves := moves_call hrun last fun kind path heq => hcall ⟨kind, path, heq⟩
      rcases hmoves.source s hs h hmem with hold | hvalid
      · refine hkept hold fun r r' hr _ hvalid hidle hr' => .inl ?_
        rw [hmoves.spares h r r' hr hr' hidle, hvalid]
      · exact .inl hvalid

end Removed

section Reads

variable {e : Engine} (nowMs : Nat)

theorem mem_of_read {v : Synthetic.Evaluation} {read : Synthetic.Read} (hread : read ∈ v.reads) :
    (read.path, some read.source) ∈ v.synthetic.definition.sources.zip v.synthetic.sources ∧
      read.totals = Synthetic.totalsOf v.store read.source := by
  unfold Synthetic.Evaluation.reads at hread
  split at hread
  · cases hread
  · obtain ⟨⟨path, slot⟩, hmem, hslot⟩ := List.mem_filterMap.mp hread
    obtain ⟨h, rfl, rfl⟩ := Option.map_eq_some_iff.mp hslot
    exact ⟨hmem, rfl⟩

theorem read_spec (he : e.WellFormed) {i : Nat} {v : Synthetic.Evaluation}
    (hv : (e.evaluations nowMs)[i]? = some v) {read : Synthetic.Read} (hread : read ∈ v.reads) :
    ∃ r, e.store.get? read.source = some r ∧ r.kind = .adder ∧ r.path = read.path ∧
      read.totals = (Synthetic.givenTo ((e.evaluations nowMs).take i) read.source).getD
        (if r.valid then r.takeAdder e.settings.predictLimit else r).totals ∧
      ((∃ s ∈ e.synthetics, some read.source ∈ s.sources) ∨ r.valid = true) := by
  obtain ⟨hmoves, htaken⟩ := revises_taken nowMs he
  obtain ⟨hmem, htotals⟩ := mem_of_read hread
  have htakes := Synthetic.takes_evaluation hmoves.wellFormed.store hmoves.wellFormed.bound hv
  obtain ⟨s, hs, hresolves⟩ := htakes.resolves
  -- The record is followed back from the evaluation over the taking to the start of the tick.
  obtain ⟨last, hlast, hkind, hpath, -⟩ :=
    List.forall₂_zip htakes.bound.linked hmem read.source rfl
  obtain ⟨f, hrevises, -⟩ := id htakes.settles
  obtain ⟨middle, hmiddle, -, hfollows⟩ := hrevises.before hlast
  obtain ⟨r, hr, hmiddle', hfollows'⟩ := htaken.before hmiddle
  have hmiddleKind : middle.kind = .adder := hfollows.kind.symm.trans hkind
  have hrKind : r.kind = .adder := hfollows'.kind.symm.trans hmiddleKind
  have hcovers : e.covers .adder r = r.valid := by
    have hcrew := hmoves.wellFormed.computing (List.ne_nil_of_mem (List.mem_of_getElem? hs))
    rw [hmoves.crew] at hcrew
    simp [covers, hrKind, hcrew]
  rw [hcovers] at hmiddle'
  have hvalid : (e.taken nowMs).store.isValid read.source = true → r.valid = true := by
    intro hvalid
    rw [Store.isValid, hmiddle, Option.any_some] at hvalid
    exact hfollows'.valid hvalid
  refine ⟨r, hr, hrKind, hfollows'.path.symm.trans (hfollows.path.symm.trans hpath), ?_, ?_⟩
  · rw [htotals, htakes.settles.totalsOf hmiddle hmiddleKind, Synthetic.totalsOf_eq hmiddle,
      hmiddle']
    rfl
  · rcases hresolves.source _ (List.of_mem_zip hmem).2 with hold | hfound
    · exact (hmoves.source s (List.mem_of_getElem? hs) _ hold).imp_right hvalid
    · exact .inr (hvalid hfound)

end Reads

/-- A read is fresh exactly if its record has never been removed; otherwise it takes what the
removed record held before the tick, unless the tick has computed that. -/
theorem reads_fresh_iff {c : EngineConfig} {e : Engine} (h : ofConfig c = .ok e)
    (calls : List Call) (nowMs i : Nat) (v : Synthetic.Evaluation)
    (hv : ((e.run calls).evaluations nowMs)[i]? = some v) (read : Synthetic.Read)
    (hread : read ∈ v.reads) :
    let earlier := ((e.run calls).evaluations nowMs).take i
    ((e.run calls).ReadsFresh earlier read ↔ ¬ e.Removed calls read.source) ∧
      (e.Removed calls read.source → ∃ r, (e.run calls).store.get? read.source = some r ∧
        r.valid = false ∧
        read.totals = (Synthetic.givenTo earlier read.source).getD r.totals) := by
  intro earlier
  have he := (ofConfig_sound h).1
  have hrun := (leads_run he calls).wellFormed
  obtain ⟨r, hr, hkind, hpath, htotals, hsource⟩ := read_spec nowMs hrun hv hread
  have hvalid : (e.run calls).store.isValid read.source = r.valid := by
    rw [Store.isValid, hr, Option.any_some]
  have hremoved : e.Removed calls read.source → r.valid = false := by
    intro hremoved
    rw [← hvalid]
    exact not_valid_of_removed he hremoved
  have hkept : ¬ e.Removed calls read.source → r.valid = true := by
    intro hnot
    rcases hsource with ⟨s, hs, hmem⟩ | hfound
    · rw [← hvalid]
      exact (valid_or_removed he (unfound_ofConfig h) hs hmem).resolve_right hnot
    · exact hfound
  refine ⟨⟨fun hfresh hgone => ?_, fun hnot => ⟨?_, r, hr, ?_⟩⟩,
    fun hgone => ⟨r, hr, hremoved hgone, ?_⟩⟩
  · -- A lookup only finds valid records.
    obtain ⟨r', hr', hfound, -⟩ := hrun.store.locate_eq_some_iff.mp hfresh.found
    rw [hr] at hr'
    cases hr'
    rw [hremoved hgone] at hfound
    cases hfound
  · exact hrun.store.locate_eq_some_iff.mpr ⟨r, hr, hkept hnot, hkind, hpath⟩
  · rw [htotals, if_pos (hkept hnot)]
  · rw [htotals, hremoved hgone]
    rfl

def copying : EngineConfig :=
  compact { synthetics := [{ target := "t", source := ["a"], operation := "sum" }] }

theorem reads_fresh_iff_copying : ∃ e v read, ofConfig copying = .ok e ∧
    ((e.run [point "a" 5]).evaluations 1000)[0]? = some v ∧ read ∈ v.reads ∧
      ((e.run [point "a" 5]).ReadsFresh [] read ↔ ¬ e.Removed [point "a" 5] read.source) := by
  have hcheck : (ofConfig copying).toOption.any (fun e =>
      ((e.run [point "a" 5]).evaluations 1000)[0]?.any fun v => v.reads.any fun _ => true) =
        true := by
    decide +kernel
  obtain ⟨e, he, hany⟩ := exists_ofConfig hcheck
  obtain ⟨v, hv, hreads⟩ := (Option.any_eq_true _ _).mp hany
  obtain ⟨read, hread, -⟩ := List.any_eq_true.mp hreads
  exact ⟨e, v, read, he, hv, hread, (reads_fresh_iff he [point "a" 5] 1000 0 v hv read hread).1⟩

/-- A removed record still counts, with what it took before it was removed, while the points of the
record that has replaced it do not. -/
theorem removed_source_read : ∃ e, ofConfig copying = .ok e ∧
    let now := e.run [point "a" 5, pause 1000, .remove .adder "a", point "a" 7]
    ∃ v, (now.evaluations 2000)[0]? = some v ∧ v.written.map (·.total) = some 5 ∧
      ∃ read ∈ v.reads, ¬ now.ReadsFresh [] read := by
  have hcheck : (ofConfig copying).toOption.any (fun e =>
      let now := e.run [point "a" 5, pause 1000, .remove .adder "a", point "a" 7]
      (now.evaluations 2000)[0]?.any fun v => decide (v.written.map (·.total) = some 5) &&
        v.reads.any fun read => decide (now.locate .adder read.path ≠ some read.source)) = true := by
    decide +kernel
  obtain ⟨e, he, hany⟩ := exists_ofConfig hcheck
  obtain ⟨v, hv, hboth⟩ := (Option.any_eq_true _ _).mp hany
  obtain ⟨htotal, hreads⟩ := Bool.and_eq_true_iff.mp hboth
  obtain ⟨read, hread, hlocate⟩ := List.any_eq_true.mp hreads
  exact ⟨e, he, v, hv, of_decide_eq_true htotal, read, hread,
    fun hfresh => of_decide_eq_true hlocate hfresh.found⟩

end Engine

end Rollup
