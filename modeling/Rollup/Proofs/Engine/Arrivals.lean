import Rollup.Proofs.Engine.Calls

/-! Arrivals. Points and creations only insert records for paths that have none, update records and
leave signals, so that a property which these three keep outlasts whatever comes in. -/
namespace Rollup

namespace Engine

structure Lasting (P : Engine → Prop) : Prop where
  measure : ∀ {e : Engine}, P e → ∀ signal, P (e.measure signal)
  insert : ∀ {e : Engine}, e.WellFormed → P e → ∀ {kind path}, e.locate kind path = none →
    P (e.insert kind path (e.layoutFor kind path)).2
  update : ∀ {e : Engine}, e.WellFormed → P e → ∀ h value adjustment,
    P (e.modifyRecord h (Record.update value adjustment))

namespace Lasting

variable {P : Engine → Prop} {e : Engine}

theorem getOrCreate (hP : Lasting P) (he : e.WellFormed) (h : P e) (kind : Kind) (path : String) :
    P (e.getOrCreate kind path).2 := by
  unfold Engine.getOrCreate
  cases habsent : e.store.locate kind path with
  | some k => exact h
  | none => exact hP.insert he h habsent

theorem accept (hP : Lasting P) (he : e.WellFormed) (h : P e) (p : Point) : P (e.accept p) :=
  hP.update (moves_getOrCreate he p.kind p.path).wellFormed (hP.getOrCreate he h p.kind p.path)
    _ _ _

theorem ingest (hP : Lasting P) (he : e.WellFormed) (h : P e) (p : Point) :
    P ((e.ingest p).toOption.getD e) := by
  unfold Engine.ingest
  split
  · exact h
  · exact hP.accept he h p

theorem ingestLine (hP : Lasting P) (he : e.WellFormed) (h : P e) (counts : LineCounts)
    (line : Except LineError Point) : P (Engine.ingestLine (counts, e) line).2 := by
  simp only [Engine.ingestLine]
  split
  · exact hP.accept he h _
  · exact hP.measure h _
  · exact h

theorem measureAll (hP : Lasting P) (h : P e) (signals : List Signal) :
    P (e.measureAll signals) := by
  induction signals generalizing e with
  | nil => exact h
  | cons signal rest ih => exact ih (hP.measure h signal)

theorem ingestText (hP : Lasting P) (he : e.WellFormed) (h : P e) (text : List Char) :
    P (e.ingestText text).2 := by
  have hlines : ∀ (lines : List (Except LineError Point)) (counts : LineCounts) (e' : Engine),
      e'.WellFormed → P e' → P (lines.foldl Engine.ingestLine (counts, e')).2 := by
    intro lines
    induction lines with
    | nil => exact fun _ _ _ h' => h'
    | cons line rest ih =>
      intro counts e' he' h'
      exact ih _ _ (moves_ingestLine he' counts line).wellFormed (hP.ingestLine he' h' counts line)
  exact hP.measureAll (hlines (Point.ofText text) {} e he h) _

theorem updateRecord (hP : Lasting P) (he : e.WellFormed) (h : P e) (k : Handle) (value : Float)
    (adjustment : Adjustment) : P ((e.updateRecord k value adjustment).toOption.getD e) := by
  unfold Engine.updateRecord
  split
  · exact h
  · exact hP.update he h k value adjustment

theorem call (hP : Lasting P) (he : e.WellFormed) (h : P e) (call : Call)
    (hremove : ∀ kind path, call = .remove kind path → P (e.remove kind path).2)
    (hreconfigure : ∀ blocks e', call = .reconfigure blocks → e.reconfigure blocks = .ok e' → P e')
    (htick : ∀ nowMs took, call = .tick nowMs took → P (e.tick nowMs took)) :
    P (e.call call) := by
  cases call with
  | ingest p => exact hP.ingest he h p
  | text text => exact hP.ingestText he h text
  | create kind path => exact hP.getOrCreate he h kind path
  | remove kind path => exact hremove kind path rfl
  | update k value adjustment => exact hP.updateRecord he h k value adjustment
  | reconfigure blocks =>
    simp only [Engine.call]
    cases hlayouts : e.reconfigure blocks with
    | error cause => exact h
    | ok e' => exact hreconfigure blocks e' rfl hlayouts
  | tick nowMs took => exact htick nowMs took rfl

theorem bindSynthetics (hP : Lasting P)
    (hexempt : ∀ {e : Engine}, P e → ∀ h, P (e.modifyRecord h Record.exempt)) (he : e.WellFormed)
    (h : P e) (definitions : List Definition) : P (e.bindSynthetics definitions).2 := by
  induction definitions generalizing e with
  | nil => exact h
  | cons definition rest ih =>
    have hcreate := moves_getOrCreate he .adder definition.target
    exact ih (moves_modifyRecord hcreate.wellFormed _ fun r => r.stays_exempt).wellFormed
      (hexempt (hP.getOrCreate he h .adder definition.target) _)

end Lasting

theorem lasting_holds (kind : Kind) (path : String) (k : Handle) :
    Lasting fun e => e.store.Holds kind path k where
  measure h _ := h
  insert := by
    rintro e - ⟨r, hr, hholds⟩ kind' path' -
    exact ⟨r, Store.get?_insert_of_some hr _, hholds⟩
  update := by
    rintro e - ⟨r, hr, hvalid, hkind, hpath⟩ h value adjustment
    have hstays : r.Stays (if k = h then r.update value adjustment else r) := by
      split
      · exact r.stays_update value adjustment
      · exact .refl r
    refine ⟨_, ?_, hstays.valid.trans hvalid, hstays.follows.kind.trans hkind,
      hstays.follows.path.trans hpath⟩
    rw [get?_modifyRecord, hr, Option.map_some, ← apply_ite some]

end Engine

end Rollup
