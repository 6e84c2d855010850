import Rollup.Proofs.Synthetic.Evaluation

/-! Where sources come from. An empty slot takes the record that a lookup of its path finds, a
filled one keeps what it has, and the records in the slots are those that are exempt from
collection. -/
namespace Rollup

namespace Store

variable {s s' : Store}

theorem Revises.locate {f : Handle → Record → Record} (h : s.Revises s' f) (hs : s.WellFormed)
    (hf : ∀ k r, s.get? k = some r → r.Stays (f k r)) (kind : Kind) (path : String) :
    s'.locate kind path = s.locate kind path := by
  ext k
  rw [(h.wellFormed hs).locate_eq_some_iff, hs.locate_eq_some_iff]
  constructor
  · rintro ⟨r', hr', hvalid, hkind, hpath⟩
    obtain ⟨r, hr, rfl, hfollows⟩ := h.before hr'
    exact ⟨r, hr, hfollows.valid hvalid, hfollows.kind.symm.trans hkind,
      hfollows.path.symm.trans hpath⟩
  · rintro ⟨r, hr, hvalid, hkind, hpath⟩
    have hstays := hf k r hr
    exact ⟨f k r, by rw [h.get, hr, Option.map_some], hstays.valid.trans hvalid,
      hstays.follows.kind.trans hkind, hstays.follows.path.trans hpath⟩

theorem Settles.locate {totals : Handle → Option Totals} (h : s.Settles s' totals)
    (hs : s.WellFormed) (kind : Kind) (path : String) :
    s'.locate kind path = s.locate kind path :=
  let ⟨_, hrevises, hf⟩ := h
  hrevises.locate hs (fun k r hr => (hf k r hr).1) kind path

end Store

theorem Record.idle_overwrite (totals : Totals) (r : Record) :
    (Synthetic.overwrite totals r).idle = r.idle := by
  unfold Synthetic.overwrite
  split <;> rfl

namespace Synthetic

variable {paths : List String} {slots : List (Option Handle)} {store : Store}

def filled (paths : List String) (slots : List (Option Handle)) (store : Store) :
    List (Option Handle) :=
  List.zipWith (fun path slot => slot.or (store.locate .adder path)) paths slots

@[simp] theorem filled_cons (path : String) (slot : Option Handle) :
    filled (path :: paths) (slot :: slots) store =
      slot.or (store.locate .adder path) :: filled paths slots store := rfl

theorem filled_congr {store' : Store}
    (h : ∀ path, store'.locate .adder path = store.locate .adder path) :
    filled paths slots store' = filled paths slots store := by
  unfold filled
  simp only [h]

theorem filled_of_count (hlinked : Linked paths slots store) (hnone : slots.count none = 0) :
    filled paths slots store = slots := by
  induction hlinked with
  | nil => rfl
  | @cons path slot paths slots _ _ ih =>
    cases slot with
    | none => simp at hnone
    | some h =>
      rw [List.count_cons_of_ne (by simp)] at hnone
      exact congrArg (some h :: ·) (ih hnone)

theorem findSources_spec (hstore : store.WellFormed) (hlinked : Linked paths slots store) :
    (findSources paths slots store).1 = filled paths slots store ∧
      ∀ k r, store.get? k = some r → ∃ r', (findSources paths slots store).2.2.get? k = some r' ∧
        r'.idle = if some k ∈ filled paths slots store then none else r.idle := by
  induction paths generalizing slots store with
  | nil =>
    cases hlinked
    exact ⟨rfl, fun k r hr => ⟨r, hr, rfl⟩⟩
  | cons path paths ih =>
    cases hlinked with
    | @cons _ slot _ slots hslot hrest =>
    unfold findSources
    cases slot with
    | some h =>
      obtain ⟨hslots, hidle⟩ := ih hstore hrest
      refine ⟨congrArg (some h :: ·) hslots, fun k r hr => ?_⟩
      obtain ⟨r', hr', hidle'⟩ := hidle k r hr
      refine ⟨r', hr', hidle'.trans ?_⟩
      -- A source that was found before has been exempted then.
      have hknown : k = h → r.idle = none := by
        rintro rfl
        obtain ⟨r'', hr'', -, -, hidle''⟩ := hslot k rfl
        rw [hr] at hr''
        cases hr''
        exact hidle''
      by_cases hk : k = h
      · simp [hk, hknown hk]
      · simp [hk]
    | none =>
      cases hlocate : store.locate .adder path with
      | none =>
        obtain ⟨hslots, hidle⟩ := ih hstore hrest
        simp only [filled_cons, hlocate, Option.or_none, List.mem_cons, reduceCtorEq, false_or]
        exact ⟨congrArg (none :: ·) hslots, hidle⟩
      | some h =>
        have hexempt := store.settles_exempt h
        obtain ⟨hslots, hidle⟩ :=
          ih (hexempt.wellFormed hstore) (Linked.evolves hrest hexempt.evolves)
        rw [filled_congr (hexempt.locate hstore .adder)] at hslots hidle
        rw [filled_cons, hlocate, Option.none_or]
        refine ⟨congrArg (some h :: ·) hslots, fun k r hr => ?_⟩
        obtain ⟨r', hr', hidle'⟩ := hidle k (if k = h then r.exempt else r) (by
          rw [Store.get?_modify, hr]
          split <;> rfl)
        refine ⟨r', hr', hidle'.trans ?_⟩
        by_cases hk : k = h
        · simp [hk, Record.exempt]
        · simp [hk]

section Prepare

variable {s : Synthetic}

theorem prepare_spec (hstore : store.WellFormed) (hs : s.Bound store) :
    (s.prepare store).synthetic.sources = filled s.definition.sources s.sources store ∧
      ∀ k r, store.get? k = some r → ∃ r', (s.prepare store).store.get? k = some r' ∧
        r'.idle = if some k ∈ (s.prepare store).synthetic.sources then none else r.idle := by
  unfold prepare resolve
  split
  · rename_i hmissing
    refine ⟨(filled_of_count hs.linked (hs.missing.symm.trans hmissing)).symm, fun k r hr => ?_⟩
    refine ⟨r, hr, ?_⟩
    split
    · rename_i hmem
      obtain ⟨path, r', hr', -, -, hidle⟩ := hs.linked.keeps hmem
      rw [hr] at hr'
      cases hr'
      exact hidle
    · rfl
  · obtain ⟨hslots, hidle⟩ := findSources_spec hstore hs.linked
    rw [← hslots] at hidle
    exact ⟨hslots, hidle⟩

end Prepare

structure Completes (store : Store) (s s' : Synthetic) : Prop where
  definition : s'.definition = s.definition
  target : s'.target = s.target
  sources : s'.sources = filled s.definition.sources s.sources store

/-- All look up their sources in the same tables, and what any of them finds is exempt. -/
theorem generateAll_spec {ss : List Synthetic} (hstore : store.WellFormed)
    (hs : ∀ s ∈ ss, s.Bound store) :
    List.Forall₂ (Completes store) ss (generateAll ss store).2.1 ∧
      ∀ k r, store.get? k = some r → ∃ r', (generateAll ss store).2.2.get? k = some r' ∧
        r'.idle = if ∃ s ∈ (generateAll ss store).2.1, some k ∈ s.sources then none
          else r.idle := by
  induction ss generalizing store with
  | nil => exact ⟨.nil, fun k r hr => ⟨r, hr, by simp [generateAll]⟩⟩
  | cons s rest ih =>
    have hbound := hs s List.mem_cons_self
    have hprepare := settles_prepare hstore hbound
    have houtcome := hprepare.trans (s.prepare store).settles_outcome
    obtain ⟨hsources, hidle⟩ := prepare_spec hstore hbound
    obtain ⟨hrest, hidleRest⟩ := ih (houtcome.wellFormed hstore) fun s' hmem =>
      (hs s' (List.mem_cons_of_mem _ hmem)).evolves houtcome.evolves
    have hresolves := resolves_prepare hstore hbound
    rw [generateAll_cons hstore hbound]
    refine ⟨.cons ⟨hresolves.definition, hresolves.target, hsources⟩ (hrest.imp ?_), ?_⟩
    · rintro a b ⟨hdefinition, htarget, hfilled⟩
      exact ⟨hdefinition, htarget,
        hfilled.trans (filled_congr (houtcome.locate hstore .adder))⟩
    · intro k r hr
      obtain ⟨r', hr', hidle⟩ := hidle k r hr
      obtain ⟨r'', hr'', hidle'⟩ : ∃ r'', (s.prepare store).outcome.get? k = some r'' ∧
          r''.idle = r'.idle := by
        unfold Evaluation.outcome
        cases (s.prepare store).written with
        | none => exact ⟨r', hr', rfl⟩
        | some totals =>
          refine ⟨_, by rw [Store.get?_modify, hr', Option.map_some, ← apply_ite some], ?_⟩
          split
          · exact r'.idle_overwrite totals
          · rfl
      obtain ⟨last, hlast, hidle''⟩ := hidleRest k r'' hr''
      refine ⟨last, hlast, ?_⟩
      rw [hidle'', hidle', hidle]
      simp only [List.mem_cons, exists_eq_or_imp]
      by_cases hfirst : some k ∈ (s.prepare store).synthetic.sources
      · simp [hfirst]
      · simp [hfirst]

end Synthetic

end Rollup
