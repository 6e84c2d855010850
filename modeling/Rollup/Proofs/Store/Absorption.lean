import Rollup.Proofs.Synthetic.Evaluation
import Rollup.Proofs.Synthetic.Simulation

/-! Points that wait in the records of a store. They change the input side alone, so that whatever
is done between two swaps does the same with these points as without them. -/
namespace Rollup

namespace Record

def face (r : Record) : String × UInt64 × Kind × Bool := (r.path, r.hash, r.kind, r.valid)

theorem Stays.face {r r' : Record} (h : r.Stays r') : r'.face = r.face := by
  unfold Record.face
  rw [h.follows.path, h.follows.hash, h.follows.kind, h.valid]

def receives (r : Record) (p : Point) : Bool := r.valid && r.kind == p.kind && r.path == p.path

def absorb (ps : List Point) (r : Record) : Record :=
  (ps.filter r.receives).foldl (fun r p => r.update p.value p.adjustment) r

theorem Stays.receives {r r' : Record} (h : r.Stays r') : r'.receives = r.receives := by
  funext p
  unfold Record.receives
  rw [h.valid, h.follows.kind, h.follows.path]

section Absorb

variable (ps : List Point) (r : Record)

theorem stays_absorb : r.Stays (r.absorb ps) := by
  have hall : ∀ (ps : List Point) (r : Record),
      r.Stays (ps.foldl (fun r p => r.update p.value p.adjustment) r) := by
    intro ps
    induction ps with
    | nil => exact Stays.refl
    | cons p rest ih => exact fun r => (r.stays_update p.value p.adjustment).trans (ih _)
  exact hall _ r

theorem absorb_append (qs : List Point) : r.absorb (ps ++ qs) = (r.absorb ps).absorb qs := by
  rw [absorb.eq_1 qs, (r.stays_absorb ps).receives]
  unfold absorb
  rw [List.filter_append, List.foldl_append]

theorem absorb_singleton (p : Point) :
    r.absorb [p] = if r.receives p then r.update p.value p.adjustment else r := by
  unfold absorb
  by_cases hp : r.receives p = true <;> simp [hp]

variable {ps r}

theorem absorb_of_none (h : ∀ p ∈ ps, r.receives p = false) : r.absorb ps = r := by
  rw [absorb, List.filter_eq_nil_iff.mpr fun p hp => by simp [h p hp]]
  rfl

theorem absorb_congr {qs : List Point} (h : ps.filter r.receives = qs.filter r.receives) :
    r.absorb ps = r.absorb qs := by
  rw [absorb, h, absorb]

/-- What reads no input does not see the points. -/
theorem view_absorb {β : Type} (view : Record → β)
    (hview : ∀ r value adjustment, view (r.update value adjustment) = view r) (ps : List Point)
    (r : Record) : view (r.absorb ps) = view r := by
  unfold absorb
  generalize ps.filter r.receives = qs
  induction qs generalizing r with
  | nil => rfl
  | cons p rest ih => rw [List.foldl_cons, ih, hview]

/-- What leaves the input alone may come before the points or after them. -/
theorem absorb_comm {f : Record → Record} (hf : ∀ r, Stays r (f r))
    (hcomm : ∀ r value adjustment, f (r.update value adjustment) = (f r).update value adjustment)
    (ps : List Point) (r : Record) : f (r.absorb ps) = (f r).absorb ps := by
  unfold absorb
  rw [(hf r).receives]
  generalize ps.filter r.receives = qs
  induction qs generalizing r with
  | nil => rfl
  | cons p rest ih => rw [List.foldl_cons, ih, hcomm, List.foldl_cons]

end Absorb

variable (ps : List Point) (r : Record)

theorem totals_absorb : (r.absorb ps).totals = r.totals :=
  view_absorb totals (fun r _ _ => r.totals_update _ _) ps r

theorem exempt_absorb : (r.absorb ps).exempt = r.exempt.absorb ps :=
  absorb_comm stays_exempt (fun _ _ _ => rfl) ps r

theorem overwrite_absorb (totals : Totals) :
    Synthetic.overwrite totals (r.absorb ps) = (Synthetic.overwrite totals r).absorb ps := by
  refine absorb_comm (stays_overwrite totals) (fun r value adjustment => ?_) ps r
  unfold Synthetic.overwrite update
  cases hbody : r.body with
  | adder sides predictor => rfl
  | _ => simp only [Body.update, hbody]

theorem report_update (settings : Settings) (nowMs : Nat) (value : Float)
    (adjustment : Adjustment) : (r.update value adjustment).reportAdder settings nowMs =
      ((r.reportAdder settings nowMs).1,
        (r.reportAdder settings nowMs).2.update value adjustment) := by
  unfold reportAdder update
  cases hbody : r.body with
  | adder sides predictor =>
    cases predictor with
    | none => simp only [Body.update, hbody]
    | some p =>
      simp only [Body.update]
      split <;> rfl
  | _ => simp only [Body.update, hbody]

theorem report_absorb (settings : Settings) (nowMs : Nat) :
    ((r.absorb ps).reportAdder settings nowMs).1 = (r.reportAdder settings nowMs).1 :=
  view_absorb (fun r => (r.reportAdder settings nowMs).1)
    (fun r value adjustment => by rw [report_update]) ps r

theorem reportAdder_absorb (settings : Settings) (nowMs : Nat) :
    ((r.absorb ps).reportAdder settings nowMs).2 =
      (r.reportAdder settings nowMs).2.absorb ps :=
  absorb_comm (f := fun r => (r.reportAdder settings nowMs).2) (stays_reportAdder settings nowMs)
    (fun r value adjustment => by rw [report_update]) ps r

end Record

namespace Store

/-- What decides which record a lookup finds, and in which shard a record is. -/
def face (s : Store) : PerKind Table × (Handle → Option (String × UInt64 × Kind × Bool)) :=
  (s.tables, fun h => (s.get? h).map Record.face)

section Face

variable {s s' : Store}

theorem face_eq (htables : s'.tables = s.tables)
    (hget : ∀ h, (s'.get? h).map Record.face = (s.get? h).map Record.face) : s'.face = s.face :=
  Prod.ext htables (funext hget)

theorem table_of_face (h : s'.face = s.face) : s'.table = s.table := by
  funext kind
  exact congrArg (fun face => face.1.get kind) h

theorem any_of_face (h : s'.face = s.face) {test : Record → Bool}
    (htest : ∀ r r', Record.face r' = Record.face r → test r' = test r) (k : Handle) :
    (s'.get? k).any test = (s.get? k).any test := by
  have hface : (s'.get? k).map Record.face = (s.get? k).map Record.face :=
    congrFun (congrArg Prod.snd h) k
  cases hr : s.get? k with
  | none =>
    rw [hr, Option.map_none, Option.map_eq_none_iff] at hface
    rw [hface]
  | some r =>
    rw [hr, Option.map_some, Option.map_eq_some_iff] at hface
    obtain ⟨r', hr', hsame⟩ := hface
    rw [hr']
    exact htest r r' hsame

theorem isValid_of_face (h : s'.face = s.face) : s'.isValid = s.isValid :=
  funext fun k => any_of_face h (fun _ _ hsame => congrArg (·.2.2.2) hsame) k

theorem locate_of_face (h : s'.face = s.face) : s'.locate = s.locate := by
  funext kind path
  unfold Store.locate
  rw [table_of_face h]
  simp only
  congr 1
  funext k
  refine any_of_face h (fun r r' hsame => ?_) k
  simp only [Record.face, Prod.mk.injEq] at hsame
  unfold Record.answersTo
  rw [hsame.1, hsame.2.1, hsame.2.2.2]

theorem shard_of_face (h : s'.face = s.face) : s'.shard = s.shard := by
  funext kind shard shards
  unfold Store.shard
  rw [table_of_face h, isValid_of_face h]

theorem face_modify {f : Record → Record} (hf : ∀ r, Record.Stays r (f r)) (s : Store)
    (k : Handle) : (s.modify k f).face = s.face := by
  refine face_eq rfl fun h => ?_
  rw [get?_modify]
  split
  · rw [Option.map_map]
    congr 1
    funext r
    exact (hf r).face
  · rfl

theorem face_modifyAll {f : Record → Record} (hf : ∀ r, Record.Stays r (f r)) (s : Store)
    (hs : List Handle) : (s.modifyAll hs f).face = s.face := by
  induction hs generalizing s with
  | nil => rfl
  | cons h rest ih => exact (ih (s.modify h f)).trans (face_modify hf s h)

end Face

theorem WellFormed.receives_iff {s : Store} (hs : s.WellFormed) {k : Handle} {r : Record}
    (hr : s.get? k = some r) {p : Point} :
    r.receives p = true ↔ s.locate p.kind p.path = some k := by
  rw [hs.locate_eq_some_iff]
  constructor
  · intro hreceives
    simp only [Record.receives, Bool.and_eq_true, beq_iff_eq] at hreceives
    exact ⟨r, hr, hreceives.1.1, hreceives.1.2, hreceives.2⟩
  · rintro ⟨r', hr', hvalid, hkind, hpath⟩
    rw [hr] at hr'
    cases hr'
    simp [Record.receives, hvalid, hkind, hpath]

structure Absorbs (ps : List Point) (s s' : Store) : Prop where
  tables : s'.tables = s.tables
  get : ∀ h, s'.get? h = (s.get? h).map (Record.absorb ps)

namespace Absorbs

variable {ps qs : List Point} {s s' s'' : Store}

theorem refl (s : Store) : s.Absorbs [] s :=
  ⟨rfl, fun _ => Option.map_id'.symm⟩

theorem trans (h : s.Absorbs ps s') (h' : s'.Absorbs qs s'') : s.Absorbs (ps ++ qs) s'' where
  tables := h'.tables.trans h.tables
  get k := by
    rw [h'.get, h.get, Option.map_map]
    congr 1
    funext r
    exact (r.absorb_append ps qs).symm

theorem face (h : s.Absorbs ps s') : s'.face = s.face := by
  refine face_eq h.tables fun k => ?_
  rw [h.get, Option.map_map]
  congr 1
  funext r
  exact (r.stays_absorb ps).face

theorem modify (h : s.Absorbs ps s') {f : Record → Record}
    (hcomm : ∀ r, f (r.absorb ps) = (f r).absorb ps) (k : Handle) :
    (s.modify k f).Absorbs ps (s'.modify k f) where
  tables := h.tables
  get other := by
    rw [get?_modify, get?_modify, h.get]
    split
    · rw [Option.map_map, Option.map_map]
      congr 1
      funext r
      exact hcomm r
    · rfl

theorem point {k : Handle} {p : Point} (hs : s.WellFormed)
    (hlocate : s.locate p.kind p.path = some k) :
    s.Absorbs [p] (s.modify k (Record.update p.value p.adjustment)) where
  tables := rfl
  get other := by
    rw [get?_modify]
    cases hr : s.get? other with
    | none => simp
    | some r =>
      have hreceives : r.receives p = true ↔ other = k := by
        rw [hs.receives_iff hr, hlocate, Option.some.injEq, eq_comm]
      by_cases hk : other = k
      · simp [hk, Record.absorb_singleton, hreceives.mpr hk]
      · simp [hk, Record.absorb_singleton, hreceives]

end Absorbs

end Store

theorem Synthetic.indistinct_absorbs (ps : List Point) : Indistinct (Store.Absorbs ps) where
  locate h path := by rw [Store.locate_of_face h.face]
  totals h := by
    funext k
    cases hr : Store.get? _ k with
    | none => rw [totalsOf_none (by rw [h.get, hr]; rfl), totalsOf_none hr]
    | some r => rw [totalsOf_eq (by rw [h.get, hr]; rfl), totalsOf_eq hr, r.totals_absorb ps]
  exempt h k := h.modify (fun r => r.exempt_absorb ps) k
  overwrite h k totals := h.modify (fun r => r.overwrite_absorb ps totals) k

end Rollup
