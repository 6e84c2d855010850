import Mathlib.Logic.Basic
import Rollup.Synthetic

/-! Synthetic adders see of a store only which records lookups find and which totals these hold.
Over stores that agree in that they take the same sources, and write the same totals. -/
namespace Rollup

namespace Synthetic

/-- A relation of stores that synthetic adders cannot tell apart. -/
structure Indistinct (R : Store → Store → Prop) : Prop where
  locate : ∀ {s s'}, R s s' → ∀ path, s'.locate .adder path = s.locate .adder path
  totals : ∀ {s s'}, R s s' → totalsOf s' = totalsOf s
  exempt : ∀ {s s'}, R s s' → ∀ h, R (s.modify h Record.exempt) (s'.modify h Record.exempt)
  overwrite : ∀ {s s'}, R s s' → ∀ h totals,
    R (s.modify h (overwrite totals)) (s'.modify h (overwrite totals))

namespace Indistinct

variable {R : Store → Store → Prop} {store store' : Store}

theorem findSources (hR : Indistinct R) (h : R store store') (paths : List String)
    (slots : List (Option Handle)) :
    (Synthetic.findSources paths slots store').1 = (Synthetic.findSources paths slots store).1 ∧
      (Synthetic.findSources paths slots store').2.1 =
        (Synthetic.findSources paths slots store).2.1 ∧
      R (Synthetic.findSources paths slots store).2.2
        (Synthetic.findSources paths slots store').2.2 := by
  induction paths generalizing slots store store' with
  | nil => cases slots <;> exact ⟨rfl, rfl, h⟩
  | cons path paths ih =>
    cases slots with
    | nil => exact ⟨rfl, rfl, h⟩
    | cons slot slots =>
      unfold Synthetic.findSources
      cases slot with
      | some k =>
        obtain ⟨hslots, hfound, hstore⟩ := ih h slots
        exact ⟨congrArg (some k :: ·) hslots, hfound, hstore⟩
      | none =>
        simp only [hR.locate h]
        cases store.locate .adder path with
        | none =>
          obtain ⟨hslots, hfound, hstore⟩ := ih h slots
          exact ⟨congrArg (none :: ·) hslots, hfound, hstore⟩
        | some k =>
          obtain ⟨hslots, hfound, hstore⟩ := ih (hR.exempt h k) slots
          exact ⟨congrArg (some k :: ·) hslots, congrArg (· + 1) hfound, hstore⟩

theorem resolve (hR : Indistinct R) (h : R store store') (s : Synthetic) :
    (s.resolve store').1 = (s.resolve store).1 ∧
      R (s.resolve store).2 (s.resolve store').2 := by
  unfold Synthetic.resolve
  split
  · exact ⟨rfl, h⟩
  · obtain ⟨hslots, hfound, hstore⟩ := hR.findSources h s.definition.sources s.sources
    refine ⟨?_, hstore⟩
    simp only [hslots, hfound]

theorem generate (hR : Indistinct R) (h : R store store') (s : Synthetic) :
    (s.generate store').2.1 = (s.generate store).2.1 ∧
      R (s.generate store).2.2 (s.generate store').2.2 := by
  obtain ⟨hresolved, hstore⟩ := hR.resolve h s
  unfold Synthetic.generate
  simp only [hresolved, hR.totals hstore]
  split
  · exact ⟨rfl, hstore⟩
  · split
    · exact ⟨rfl, hR.overwrite hstore _ _⟩
    · exact ⟨rfl, hR.overwrite hstore _ _⟩

theorem generateAll (hR : Indistinct R) (h : R store store') (ss : List Synthetic) :
    (Synthetic.generateAll ss store').2.1 = (Synthetic.generateAll ss store).2.1 ∧
      R (Synthetic.generateAll ss store).2.2 (Synthetic.generateAll ss store').2.2 := by
  induction ss generalizing store store' with
  | nil => exact ⟨rfl, h⟩
  | cons s rest ih =>
    obtain ⟨hfirst, hstore⟩ := hR.generate h s
    obtain ⟨hrest, hlast⟩ := ih hstore
    exact ⟨congrArg₂ List.cons hfirst hrest, hlast⟩

end Indistinct

section View

variable {β : Type} {view : Store → β}
  (hexempt : ∀ store h, view (store.modify h Record.exempt) = view store)
  (hoverwrite : ∀ store h totals, view (store.modify h (overwrite totals)) = view store)

include hexempt

theorem view_findSources (paths : List String) (slots : List (Option Handle)) (store : Store) :
    view (findSources paths slots store).2.2 = view store := by
  induction paths generalizing slots store with
  | nil => cases slots <;> rfl
  | cons path paths ih =>
    cases slots with
    | nil => rfl
    | cons slot slots =>
      unfold findSources
      cases slot with
      | some k => exact ih slots store
      | none =>
        simp only
        cases store.locate .adder path with
        | none => exact ih slots store
        | some k => exact (ih slots _).trans (hexempt store k)

theorem view_resolve (s : Synthetic) (store : Store) :
    view (s.resolve store).2 = view store := by
  unfold resolve
  split
  · rfl
  · exact view_findSources hexempt _ _ store

include hoverwrite

theorem view_generate (s : Synthetic) (store : Store) :
    view (s.generate store).2.2 = view store := by
  have hresolve := view_resolve hexempt s store
  unfold generate
  simp only
  split
  · exact hresolve
  · split <;> exact (hoverwrite _ _ _).trans hresolve

/-- What neither an exemption nor an overwritten total changes, no evaluation does. -/
theorem view_generateAll (ss : List Synthetic) (store : Store) :
    view (generateAll ss store).2.2 = view store := by
  induction ss generalizing store with
  | nil => rfl
  | cons s rest ih => exact (ih _).trans (view_generate hexempt hoverwrite s store)

end View

end Synthetic

end Rollup
