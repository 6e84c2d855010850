import Rollup.Proofs.Engine.Calls
import Rollup.Proofs.Forecast.Row

/-! Predictors in an engine. A predictor starts over only after as many ticks in a row as its limit
in which it stood in for missing input; what such a tick reports is the prediction, unless a
synthetic adder has computed the record in between. -/
namespace Rollup

def Body.predictor : Body → Option Predictor
  | adder _ predictor => predictor
  | _ => none

namespace Body

theorem predictor_given (totals : Option Totals) (body : Body) :
    (body.given totals).predictor = body.predictor := by
  cases body <;> cases totals <;> rfl

theorem predictor_update (value : Float) (adjustment : Adjustment) (body : Body) :
    (body.update value adjustment).predictor = body.predictor := by
  cases body <;> rfl

theorem predictor_retarget (layout : Layout) (body : Body) :
    (body.retarget layout).predictor = body.predictor := by
  cases body <;> rfl

theorem eq_of_predictor {body : Body} {p : Predictor} (h : body.predictor = some p) :
    ∃ sides, body = .adder sides (some p) := by
  cases body with
  | adder sides predictor => exact ⟨sides, by rw [show predictor = some p from h]⟩
  | _ => cases h

end Body

namespace Record

variable {r : Record} {p : Predictor}

def standIn (limit : Nat) (r : Record) : Option Float :=
  match r.body with
  | .adder sides (some p) => if 0 < sides.input.count then none else (p.substitute limit).1
  | _ => none

theorem predictor_takeAdder (hp : r.body.predictor = some p) (limit : Nat) :
    ∃ q, (r.takeAdder limit).body.predictor = some q ∧ q.valid = p.valid ∧
      ((r.standIn limit = none ∧ q = p) ∨
        ∃ value, r.standIn limit = some value ∧ q.row = p.substituted + 1 ∧
          (r.takeAdder limit).totals = ⟨value, 1⟩) := by
  obtain ⟨sides, hbody⟩ := Body.eq_of_predictor hp
  unfold takeAdder standIn
  simp only [swap, hbody, Body.swap, Sides.swap_processed]
  by_cases hinput : 0 < sides.input.count
  · simp only [hinput, if_true]
    exact ⟨p, rfl, rfl, .inl ⟨trivial, rfl⟩⟩
  · simp only [hinput, if_false]
    cases hvalue : (p.substitute limit).1 with
    | none =>
      refine ⟨_, rfl, ?_, .inl ⟨rfl, ?_⟩⟩ <;> rw [Predictor.substitute_eq_none hvalue]
    | some value =>
      obtain ⟨-, -, hnext⟩ := Predictor.substitute_eq_some hvalue
      refine ⟨_, rfl, ?_, .inr ⟨value, rfl, ?_, rfl⟩⟩ <;> rw [hnext]
      rfl

theorem totals_of_given {r' : Record} {totals : Option Totals} (hp : r.body.predictor = some p)
    (hbody : r'.body = r.body.given totals) : r'.totals = totals.getD r.totals := by
  obtain ⟨sides, hr⟩ := Body.eq_of_predictor hp
  unfold Record.totals
  rw [hbody, hr]
  cases totals <;> rfl

theorem predictor_swap (r : Record) : r.swap.body.predictor = r.body.predictor := by
  unfold swap
  cases r.body <;> rfl

theorem isSome_predictor_takeAdder (limit : Nat) (r : Record) :
    (r.takeAdder limit).body.predictor.isSome = r.body.predictor.isSome := by
  have hswap := r.predictor_swap
  unfold takeAdder
  simp only
  split
  · rename_i sides predictor hbody
    rw [← hswap, hbody]
    split
    · rw [hbody]
    · rfl
  · rw [hswap]

section Report

variable (settings : Settings) (nowMs : Nat)

theorem isSome_predictor_reportAdder (r : Record) :
    (r.reportAdder settings nowMs).2.body.predictor.isSome = r.body.predictor.isSome := by
  unfold reportAdder
  simp only
  split
  · rename_i sides predictor hbody
    rw [hbody]
    split <;> rfl
  · rfl
  · rfl

def inputName (r : Record) : String := settings.reportName .adder r.path ++ ".input"

theorem predictor_reportAdder (hp : r.body.predictor = some p) :
    (r.reportAdder settings nowMs).2.body.predictor =
      some (p.observe (nowMs.toFloat / 1000.0) r.totals.total
        (nowMs.toFloat / 1000.0 + settings.periodSeconds) settings.predictLimit).2 := by
  obtain ⟨sides, hbody⟩ := Body.eq_of_predictor hp
  unfold reportAdder Record.totals
  simp only [hbody]
  split <;> rfl

theorem head_reportAdder (hp : r.body.predictor = some p) :
    (r.reportAdder settings nowMs).1.readings.head? =
      some (.of (r.inputName settings) r.totals.total) := by
  obtain ⟨sides, hbody⟩ := Body.eq_of_predictor hp
  unfold reportAdder Record.totals
  simp only [hbody]
  split <;> rfl

end Report

end Record

namespace Engine

def predictor (e : Engine) (k : Handle) : Option Predictor :=
  (e.store.get? k).bind fun r => r.body.predictor

structure View where
  name : String
  /-- What the predictor has put in the place of missing input. -/
  standIn : Option Float
  /-- What a synthetic adder has put in the place of that. -/
  given : Option Totals
  /-- The first reading that is reported. -/
  reported : Option Reading

def view (e : Engine) (nowMs : Nat) (took : Activity → Nat) (k : Handle) : Option View :=
  match e.store.get? k, (e.computed nowMs took).store.get? k with
  | some r, some middle =>
    if e.covers .adder r && r.body.predictor.isSome then
      some ⟨r.inputName e.settings, r.standIn e.settings.predictLimit,
        Synthetic.givenTo (e.evaluations nowMs) k,
        (middle.reportAdder e.settings nowMs).1.readings.head?⟩
    else none
  | _, _ => none

def views (k : Handle) : Engine → List Call → List (Option View)
  | _, [] => []
  | e, .tick nowMs took :: rest => e.view nowMs took k :: views k (e.tick nowMs took) rest
  | e, call :: rest => views k (e.call call) rest

/-- The predictor has stood in, and what is reported is its prediction, unless it was overwritten.
-/
def View.Substituted (view : View) : Prop :=
  ∃ value, view.standIn = some value ∧
    view.reported = some (.of view.name ((view.given.map (·.total)).getD value))

def View.Genuine (view : View) : Prop :=
  ∃ value, view.standIn = some value ∧ view.reported = some (.of view.name value)

def View.Overwritten (view : View) : Prop :=
  view.standIn.isSome = true ∧ ∃ totals ∈ view.given, view.standIn ≠ some totals.total

theorem View.Substituted.genuine_iff {view : View} (h : view.Substituted) :
    view.Genuine ↔ ¬ view.Overwritten := by
  obtain ⟨value, hstandIn, hreported⟩ := h
  unfold Genuine Overwritten
  rw [hstandIn, hreported]
  cases view.given with
  | none => simp
  | some totals => simp [Reading.of, eq_comm]

section Views

variable (k : Handle) (e : Engine) (calls : List Call)

theorem views_snoc_tick (nowMs : Nat) (took : Activity → Nat) :
    views k e (calls ++ [.tick nowMs took]) =
      views k e calls ++ [(e.run calls).view nowMs took k] := by
  induction calls generalizing e with
  | nil => rfl
  | cons first rest ih =>
    cases first with
    | tick now took' => simp only [List.cons_append, views, ih, run_cons, Engine.call]
    | _ => exact ih _

theorem views_snoc_call {last : Call} (hlast : ∀ nowMs took, last ≠ .tick nowMs took) :
    views k e (calls ++ [last]) = views k e calls := by
  induction calls generalizing e with
  | nil =>
    cases last with
    | tick nowMs took => exact absurd rfl (hlast nowMs took)
    | _ => rfl
  | cons first rest ih =>
    cases first with
    | tick nowMs took => simp only [List.cons_append, views, ih]
    | _ => exact ih _

end Views

def Inherits (e e' : Engine) : Prop :=
  ∀ k p, e'.predictor k = some p → e.predictor k = some p ∨ p = .empty e.settings.predictSize

section Inherits

variable {e e' : Engine}

theorem Inherits.refl (e : Engine) : e.Inherits e := fun _ _ hp => .inl hp

theorem Inherits.trans {e'' : Engine} (h : e.Inherits e') (h' : e'.Inherits e'')
    (hsettings : e'.settings = e.settings) : e.Inherits e'' := by
  intro k p hp
  rcases h' k p hp with hold | hnew
  · exact h k p hold
  · exact .inr (hsettings ▸ hnew)

theorem inherits_of_revises {f : Handle → Record → Record} (hstore : e.store.Revises e'.store f)
    (hf : ∀ k r, (f k r).body.predictor = r.body.predictor) : e.Inherits e' := by
  intro k p hp
  obtain ⟨r', hr', hpredictor⟩ := Option.bind_eq_some_iff.mp hp
  obtain ⟨r, hr, rfl, -⟩ := hstore.before hr'
  exact .inl (Option.bind_eq_some_iff.mpr ⟨r, hr, hf k r ▸ hpredictor⟩)

theorem inherits_modifyRecord (e : Engine) (h : Handle) {f : Record → Record}
    (hfollows : ∀ r, Record.Follows r (f r))
    (hf : ∀ r, (f r).body.predictor = r.body.predictor) : e.Inherits (e.modifyRecord h f) :=
  inherits_of_revises (e.store.revises_modify h f fun r _ => hfollows r) fun k r => by
    split
    · exact hf r
    · rfl

theorem inherits_getOrCreate (e : Engine) (kind : Kind) (path : String) :
    e.Inherits (e.getOrCreate kind path).2 := by
  intro k p hp
  rcases get?_getOrCreate e kind path k with hsame | ⟨-, -, -, hadded⟩
  · rw [predictor, hsame] at hp
    exact .inl hp
  · obtain ⟨layout, predictor, kind', hbody, hnew⟩ :=
      newBody_newRecord e kind path (e.layoutFor kind path)
    rw [Engine.predictor, hadded, Option.bind_some, hbody] at hp
    cases kind' with
    | adder => exact .inr (hnew p hp)
    | _ => cases hp

theorem inherits_accept (he : e.WellFormed) (p : Point) : e.Inherits (e.accept p) :=
  (inherits_getOrCreate e p.kind p.path).trans
    (inherits_modifyRecord _ _ (fun r => (r.stays_update _ _).follows)
      fun r => Body.predictor_update _ _ r.body)
    (moves_getOrCreate he p.kind p.path).settings

theorem inherits_ingestText (he : e.WellFormed) (text : List Char) :
    e.Inherits (e.ingestText text).2 := by
  have hline : ∀ (counts : LineCounts) (e' : Engine) (line : Except LineError Point),
      e'.WellFormed → e'.Inherits (ingestLine (counts, e') line).2 := by
    intro counts e' line he'
    simp only [ingestLine]
    split
    · exact inherits_accept he' _
    · exact .refl e'
    · exact .refl e'
  have hlines : ∀ (lines : List (Except LineError Point)) (counts : LineCounts) (e' : Engine),
      e'.WellFormed → e'.Inherits (lines.foldl ingestLine (counts, e')).2 := by
    intro lines
    induction lines with
    | nil => exact fun _ e' _ => .refl e'
    | cons line rest ih =>
      intro counts e' he'
      have hfirst := moves_ingestLine he' counts line
      exact (hline counts e' line he').trans (ih _ _ hfirst.wellFormed) hfirst.settings
  have hall := hlines (Point.ofText text) {} e he
  intro k p hp
  refine hall k p ?_
  unfold predictor
  exact (congrArg (fun s : Store => (s.get? k).bind fun r => r.body.predictor)
    (store_measureAll _ _)).symm.trans hp

theorem inherits_call (he : e.WellFormed) {call : Call}
    (hcall : ∀ nowMs took, call ≠ .tick nowMs took) : e.Inherits (e.call call) := by
  cases call with
  | tick nowMs took => exact absurd rfl (hcall nowMs took)
  | ingest p =>
    simp only [Engine.call, ingest]
    split
    · exact .refl e
    · exact inherits_accept he p
  | text text => exact inherits_ingestText he text
  | create kind path => exact inherits_getOrCreate e kind path
  | remove kind path =>
    intro k p hp
    have hget : (e.call (.remove kind path)).store.get? k = _ := get?_remove e kind path k
    rw [predictor, hget] at hp
    refine .inl ?_
    unfold predictor
    split at hp
    · cases hr : e.store.get? k with
      | none => rw [hr] at hp; cases hp
      | some r => rw [hr] at hp; exact hp
    · exact hp
  | update h value adjustment =>
    simp only [Engine.call, updateRecord]
    split
    · exact .refl e
    · exact inherits_modifyRecord e h (fun r => (r.stays_update value adjustment).follows)
        fun r => Body.predictor_update value adjustment r.body
  | reconfigure blocks =>
    simp only [Engine.call]
    cases hlayouts : e.reconfigure blocks with
    | error cause => exact .refl e
    | ok e' =>
      obtain ⟨layouts, rfl⟩ := reconfigure_eq hlayouts
      have hset : e.Moves (e.setLayouts layouts) := moves_of_same he rfl rfl rfl rfl
      refine inherits_of_revises (revises_retargetAll hset.wellFormed) fun k r => ?_
      split
      · exact Body.predictor_retarget _ r.body
      · rfl

end Inherits

def View.row (view : View) (p : Predictor) : Nat :=
  if view.standIn.isSome then p.substituted + 1 else 0

structure Advances (limit : Nat) (p q : Predictor) (view : View) : Prop where
  settled : q.Settled limit
  counts : q.substituted = view.row p ∨ (q.substituted = 0 ∧ q.valid = false)
  lapses : p.valid = true → q.valid = false → limit ≤ view.row p
  reports : view.standIn.isSome = true → view.Substituted

theorem genuine_row_iff {row : List (Option View)}
    (hall : ∀ view ∈ row, ∃ v, view = some v ∧ v.Substituted) :
    (∀ view ∈ row, ∃ v, view = some v ∧ v.Genuine) ↔ ∀ v, some v ∈ row → ¬ v.Overwritten := by
  constructor
  · intro hgenuine v hv
    obtain ⟨v', heq, hv'⟩ := hgenuine _ hv
    obtain ⟨v'', heq', hsubstituted⟩ := hall _ hv
    cases heq
    cases heq'
    exact hsubstituted.genuine_iff.mp hv'
  · intro hclean view hview
    obtain ⟨v, rfl, hsubstituted⟩ := hall view hview
    exact ⟨v, rfl, hsubstituted.genuine_iff.mpr (hclean v hview)⟩

theorem Advances.ends {limit : Nat} {p q : Predictor} {view : View}
    (hadvances : Advances limit p q view) (hfalse : ¬ view.Genuine) :
    (¬ view.Overwritten → q.substituted = 0) ∧
      (view.Overwritten → q.valid = false ∨ q.substituted = p.substituted + 1) := by
  have hcounts := hadvances.counts
  unfold View.row at hcounts
  constructor
  · intro hclean
    have hnone : ¬ view.standIn.isSome = true := fun hstood =>
      hfalse ((hadvances.reports hstood).genuine_iff.mpr hclean)
    rw [if_neg hnone] at hcounts
    exact hcounts.elim id And.left
  · rintro ⟨hstood, -⟩
    rw [if_pos hstood] at hcounts
    exact hcounts.symm.imp_left And.right

section Tick

variable {e : Engine} {k : Handle} {p : Predictor}

theorem covers_iff {e : Engine} {kind : Kind} {k : Handle} {r : Record}
    (hr : e.store.get? k = some r) (hkind : r.kind = kind) :
    e.covers kind r = true ↔ e.store.isValid k = true ∧ 0 < e.crew kind := by
  simp [covers, Store.isValid, hr, hkind]

/-- The row of the predictor between the halves of a tick is that of the view. -/
theorem View.row_eq {view : View} {q : Predictor} (hsettled : p.substituting = false)
    (hcases : (view.standIn = none ∧ q = p) ∨
      ∃ value, view.standIn = some value ∧ q.row = p.substituted + 1) :
    view.row p = q.row := by
  unfold row
  rcases hcases with ⟨hnone, rfl⟩ | ⟨value, hsome, hrow⟩
  · simp only [hnone, Option.isSome_none, Bool.false_eq_true, if_false, Predictor.row, hsettled]
  · simp only [hsome, Option.isSome_some, if_true, hrow]

theorem advances_tick (he : e.WellFormed) (hp : e.predictor k = some p)
    (hsettled : p.Settled e.settings.predictLimit) (nowMs : Nat) (took : Activity → Nat) :
    ∃ q, (e.tick nowMs took).predictor k = some q ∧
      ((¬ (e.store.isValid k = true ∧ 0 < e.crew .adder) ∧ e.view nowMs took k = none ∧ q = p) ∨
        ((e.store.isValid k = true ∧ 0 < e.crew .adder) ∧
          ∃ view, e.view nowMs took k = some view ∧
            Advances e.settings.predictLimit p q view)) := by
  obtain ⟨r, hr, hpredictor⟩ := Option.bind_eq_some_iff.mp hp
  have hkind : r.kind = .adder := by
    obtain ⟨sides, hbody⟩ := Body.eq_of_predictor hpredictor
    rw [Record.kind, hbody]
    rfl
  obtain ⟨middle, last, hmiddle, hlast, hvalid, hbody, hlastBody⟩ :=
    get?_tick_adder nowMs took he hr hkind
  have hview : e.view nowMs took k = if e.covers .adder r then
      some ⟨r.inputName e.settings, r.standIn e.settings.predictLimit,
        Synthetic.givenTo (e.evaluations nowMs) k,
        (middle.reportAdder e.settings nowMs).1.readings.head?⟩ else none := by
    simp only [view, hr, hmiddle, hpredictor, Option.isSome_some, Bool.and_true]
  have hnext : (e.tick nowMs took).predictor k = last.body.predictor := by
    rw [predictor, hlast, Option.bind_some]
  rw [hnext, hlastBody, hview, ← covers_iff hr hkind]
  by_cases hcovers : e.covers .adder r = true
  · simp only [hcovers, if_true] at hbody ⊢
    obtain ⟨q, hq, hqvalid, hcases⟩ := Record.predictor_takeAdder hpredictor e.settings.predictLimit
    have hqmiddle : middle.body.predictor = some q := by rw [hbody, Body.predictor_given, hq]
    obtain ⟨hobserved, hcounts, hlapses⟩ := q.observe_row (nowMs.toFloat / 1000.0)
      middle.totals.total (nowMs.toFloat / 1000.0 + e.settings.periodSeconds)
      e.settings.predictLimit
    have hstood : (r.standIn e.settings.predictLimit = none ∧ q = p) ∨
        ∃ value, r.standIn e.settings.predictLimit = some value ∧
          q.row = p.substituted + 1 := by
      rcases hcases with hnone | ⟨value, hsome, hrow, -⟩
      · exact .inl hnone
      · exact .inr ⟨value, hsome, hrow⟩
    have hrow : ∀ {view : View}, view.standIn = r.standIn e.settings.predictLimit →
        view.row p = q.row := fun hview => View.row_eq hsettled.settled (hview ▸ hstood)
    refine ⟨_, Record.predictor_reportAdder e.settings nowMs hqmiddle,
      .inr ⟨trivial, _, rfl, hobserved, ?_, ?_, fun hstood => ?_⟩⟩
    · rw [hrow rfl]
      exact hcounts
    · rw [hrow rfl, ← hqvalid]
      exact hlapses
    · rcases hcases with ⟨hnone, -⟩ | ⟨value, hsome, -, htotals⟩
      · rw [hnone] at hstood
        cases hstood
      · obtain ⟨middle', hmiddle', hfollows⟩ := (moves_computed nowMs took he).evolves k r hr
        rw [hmiddle] at hmiddle'
        cases hmiddle'
        have hname : middle.inputName e.settings = r.inputName e.settings := by
          rw [Record.inputName, hfollows.path, Record.inputName]
        have htotal : middle.totals.total =
            ((Synthetic.givenTo (e.evaluations nowMs) k).map (·.total)).getD value := by
          rw [Record.totals_of_given hq hbody, htotals]
          cases Synthetic.givenTo (e.evaluations nowMs) k <;> rfl
        refine ⟨value, hsome, ?_⟩
        rw [Record.head_reportAdder e.settings nowMs hqmiddle, hname, htotal]
  · simp only [hcovers, if_false, Bool.false_eq_true] at hbody ⊢
    refine ⟨p, ?_, .inl ⟨not_false, trivial, rfl⟩⟩
    rw [hbody, Body.predictor_given, hpredictor]

end Tick

section Origin

variable {e e' : Engine}

theorem isSome_predictor_of_revises {f : Handle → Record → Record}
    (hstore : e.store.Revises e'.store f)
    (hf : ∀ k r, e.store.get? k = some r →
      (f k r).body.predictor.isSome = r.body.predictor.isSome) (k : Handle) :
    (e'.predictor k).isSome = (e.predictor k).isSome := by
  unfold predictor
  rw [hstore.get]
  cases hr : e.store.get? k with
  | none => rfl
  | some r => exact hf k r hr

theorem isSome_predictor_tick (he : e.WellFormed) (nowMs : Nat) (took : Activity → Nat)
    (k : Handle) : ((e.tick nowMs took).predictor k).isSome = (e.predictor k).isSome := by
  obtain ⟨htaken, htaken'⟩ := revises_taken nowMs he
  obtain ⟨f, hcomputed, hf⟩ := settles_runSynthetics (took .synthetics) htaken.wellFormed
  obtain ⟨-, hreported⟩ := revises_tickAdders nowMs took he
  obtain ⟨hpassed, hpassed'⟩ := revises_passed nowMs took he
  have hcollected := revises_collect hpassed.wellFormed (took .collection)
  calc ((e.tick nowMs took).predictor k).isSome
    _ = ((e.passed nowMs took).predictor k).isSome :=
      isSome_predictor_of_revises hcollected (fun k r _ => by
        split
        · rw [body_collected]
        · rfl) k
    _ = ((e.tickAdders nowMs took).predictor k).isSome :=
      isSome_predictor_of_revises hpassed' (fun k r _ => by
        split
        · rw [Record.predictor_swap]
        · rfl) k
    _ = ((e.computed nowMs took).predictor k).isSome :=
      isSome_predictor_of_revises hreported (fun k r _ => by
        split
        · exact Record.isSome_predictor_reportAdder _ _ r
        · rfl) k
    _ = ((e.taken nowMs).predictor k).isSome :=
      isSome_predictor_of_revises hcomputed (fun k r hr => by
        rw [(hf k r hr).2, Body.predictor_given]) k
    _ = (e.predictor k).isSome :=
      isSome_predictor_of_revises htaken' (fun k r _ => by
        split
        · exact Record.isSome_predictor_takeAdder _ r
        · rfl) k

end Origin

section Run

variable {e : Engine} {calls : List Call} {k : Handle} {p : Predictor}

/-- A predictor in a run: the last ticks, as many as it counts, were substitutions. -/
structure Tracked (e : Engine) (calls : List Call) (k : Handle) (p : Predictor) : Prop where
  settled : p.Settled e.settings.predictLimit
  row : (e.run calls).store.isValid k = true → 0 < e.crew .adder → ∃ row, row <:+ views k e calls ∧
    row.length = p.substituted ∧ ∀ view ∈ row, ∃ v, view = some v ∧ v.Substituted

theorem tracked_empty (e : Engine) (calls : List Call) (k : Handle) (size : Nat) :
    Tracked e calls k (.empty size) :=
  ⟨Predictor.settled_empty _ size, fun _ _ => ⟨[], List.nil_suffix, rfl, fun _ h => nomatch h⟩⟩

theorem row_snoc {q : Predictor} {nowMs : Nat} {took : Activity → Nat} {view : View}
    (hrow : ∃ row, row <:+ views k e calls ∧ row.length = p.substituted ∧
      ∀ view ∈ row, ∃ v, view = some v ∧ v.Substituted)
    (hview : (e.run calls).view nowMs took k = some view)
    (hadvances : Advances e.settings.predictLimit p q view) {n : Nat}
    (hn : n = view.row p ∨ n = 0) :
    ∃ row, row <:+ views k e (calls ++ [.tick nowMs took]) ∧ row.length = n ∧
      ∀ view ∈ row, ∃ v, view = some v ∧ v.Substituted := by
  by_cases hzero : n = 0
  · exact ⟨[], List.nil_suffix, hzero.symm, fun _ h => nomatch h⟩
  · obtain ⟨row, ⟨before, hbefore⟩, hlength, hall⟩ := hrow
    have hlong := hn.resolve_right hzero
    have hstood : view.standIn.isSome = true := by
      by_contra hnot
      rw [View.row, if_neg hnot] at hlong
      exact hzero hlong
    rw [View.row, if_pos hstood] at hlong
    refine ⟨row ++ [some view], ⟨before, ?_⟩, by simp [hlength, hlong], ?_⟩
    · rw [views_snoc_tick, hview, ← List.append_assoc, hbefore]
    · intro v hv
      rcases List.mem_append.mp hv with hv | hv
      · exact hall v hv
      · rw [List.mem_singleton] at hv
        exact ⟨view, hv, hadvances.reports hstood⟩

theorem Tracked.tick (htracked : Tracked e calls k p) (he : e.WellFormed)
    (hp : (e.run calls).predictor k = some p) (nowMs : Nat) (took : Activity → Nat) :
    ∃ q, ((e.run calls).tick nowMs took).predictor k = some q ∧
      Tracked e (calls ++ [.tick nowMs took]) k q ∧
        ((q = p ∧ (e.run calls).view nowMs took k = none) ∨
          ∃ view, (e.run calls).view nowMs took k = some view ∧
            Advances e.settings.predictLimit p q view ∧ ∀ n, (n = view.row p ∨ n = 0) →
              ∃ row, row <:+ views k e (calls ++ [.tick nowMs took]) ∧ row.length = n ∧
                ∀ view ∈ row, ∃ v, view = some v ∧ v.Substituted) := by
  have hrun := leads_run he calls
  obtain ⟨hsettled, hrow⟩ := htracked
  obtain ⟨r, hr, -⟩ := Option.bind_eq_some_iff.mp hp
  have hevolves := (leads_call hrun.wellFormed (.tick nowMs took)).evolves
  rw [← run_snoc] at hevolves
  have hadvances := advances_tick hrun.wellFormed hp (by rw [hrun.settings]; exact hsettled)
    nowMs took
  rw [hrun.settings, hrun.crew] at hadvances
  obtain ⟨q, hq, ⟨hidle, hview, rfl⟩ | ⟨⟨hvalid, hcrew⟩, view, hview, hadvances⟩⟩ := hadvances
  · exact ⟨q, hq, ⟨hsettled, fun hvalid hcrew =>
      absurd ⟨hevolves.valid_before hr hvalid, hcrew⟩ hidle⟩, .inl ⟨rfl, hview⟩⟩
  · have hrows := fun n => row_snoc (n := n) (hrow hvalid hcrew) hview hadvances
    exact ⟨q, hq, ⟨hadvances.settled, fun _ _ => hrows _ (hadvances.counts.imp_right And.left)⟩,
      .inr ⟨view, hview, hadvances, hrows⟩⟩

theorem tracked_run {c : EngineConfig} (h : ofConfig c = .ok e)
    (hp : (e.run calls).predictor k = some p) : Tracked e calls k p := by
  obtain ⟨he, hnew⟩ := ofConfig_sound h
  induction calls using List.reverseRecOn generalizing p with
  | nil =>
    obtain ⟨r, hr, hpredictor⟩ := Option.bind_eq_some_iff.mp hp
    obtain ⟨layout, predictor, kind, hbody, hempty⟩ := hnew k r hr
    rw [hbody] at hpredictor
    cases kind with
    | adder =>
      rw [hempty p hpredictor]
      exact tracked_empty e [] k _
    | _ => cases hpredictor
  | append_singleton calls last ih =>
    have hrun := leads_run he calls
    rw [run_snoc] at hp
    by_cases hlast : ∃ nowMs took, last = .tick nowMs took
    · obtain ⟨nowMs, took, rfl⟩ := hlast
      have hsome := isSome_predictor_tick hrun.wellFormed nowMs took k
      change ((e.run calls).tick nowMs took).predictor k = some p at hp
      rw [hp] at hsome
      obtain ⟨old, hold⟩ := Option.isSome_iff_exists.mp hsome.symm
      obtain ⟨q, hq, htracked, -⟩ := (ih hold).tick he hold nowMs took
      rw [hp] at hq
      cases hq
      exact htracked
    · have hcall : ∀ nowMs took, last ≠ .tick nowMs took := fun nowMs took heq =>
        hlast ⟨nowMs, took, heq⟩
      rcases inherits_call hrun.wellFormed hcall k p hp with hold | rfl
      · obtain ⟨r, hr, -⟩ := Option.bind_eq_some_iff.mp hold
        have hevolves := (leads_call hrun.wellFormed last).evolves
        rw [← run_snoc] at hevolves
        obtain ⟨hsettled, hrow⟩ := ih hold
        refine ⟨hsettled, fun hvalid hcrew => ?_⟩
        rw [views_snoc_call k e calls hcall]
        exact hrow (hevolves.valid_before hr hvalid) hcrew
      · exact tracked_empty _ _ _ _

end Run

/-- When a predictor starts over, it has stood in for missing input in as many ticks in a row as its
limit says, the last one included. These ticks have reported its predictions exactly if no synthetic
adder has overwritten one. A tick that does not report a prediction ends the row, but an overwritten
one counts. -/
theorem restart_after_row {c : EngineConfig} {e : Engine} (h : ofConfig c = .ok e)
    (calls : List Call) (nowMs : Nat) (took : Activity → Nat) (k : Handle) (p : Predictor)
    (hp : (e.run calls).predictor k = some p) :
    ∃ q, ((e.run calls).tick nowMs took).predictor k = some q ∧
      (p.valid = true → q.valid = false → 0 < e.settings.predictLimit ∧
        ∃ row, row <:+ views k e (calls ++ [.tick nowMs took]) ∧
          row.length = e.settings.predictLimit ∧
          (∀ view ∈ row, ∃ v, view = some v ∧ v.Substituted) ∧
          ((∀ view ∈ row, ∃ v, view = some v ∧ v.Genuine) ↔
            ∀ v, some v ∈ row → ¬ v.Overwritten)) ∧
      ∀ view, (e.run calls).view nowMs took k = some view → ¬ view.Genuine →
        (¬ view.Overwritten → q.substituted = 0) ∧
          (view.Overwritten → q.valid = false ∨ q.substituted = p.substituted + 1) := by
  have he := (ofConfig_sound h).1
  have htracked := tracked_run h hp
  obtain ⟨q, hq, -, ⟨rfl, hview⟩ | ⟨view, hview, hadvances, hrows⟩⟩ :=
    htracked.tick he hp nowMs took
  · refine ⟨q, hq, fun hvalid hgone => ?_, fun other hother _ => ?_⟩
    · rw [hvalid] at hgone
      cases hgone
    · rw [hview] at hother
      cases hother
  · refine ⟨q, hq, fun hvalid hgone => ?_, fun other hother hfalse => ?_⟩
    · -- The row cannot have been longer than one short of the limit.
      have hbelow := htracked.settled.below hvalid
      have hlapses := hadvances.lapses hvalid hgone
      have hlong : view.row p = e.settings.predictLimit := by
        unfold View.row at hlapses ⊢
        split at hlapses
        · rename_i hstood
          rw [if_pos hstood]
          omega
        · omega
      obtain ⟨row, hlast, hlength, hall⟩ := hrows _ (.inl hlong.symm)
      exact ⟨by omega, row, hlast, hlength, hall, genuine_row_iff hall⟩
    · rw [hview] at hother
      cases hother
      exact hadvances.ends hfalse

/-- An adder that sums one other, with a predictor that stands in three times. -/
def predicting : EngineConfig :=
  compact { predict := { enable := true, size := 10, selection := { fallback := true } },
            synthetics := [{ target := "t", source := ["a"], operation := "sum" }] }

def squares (ticks : Nat) : List Call :=
  (List.range ticks).flatMap fun i => [point "a" (i * i).toFloat, pause (1000 * (i + 1))]

theorem restart_after_row_squares : ∃ e p q, ofConfig predicting = .ok e ∧
    (e.run (squares 12)).predictor 0 = some p ∧
      ((e.run (squares 12)).tick 13000 fun _ => 0).predictor 0 = some q ∧
        p.valid = true ∧ q.valid = false ∧ (0 < e.settings.predictLimit ∧
          ∃ row, row <:+ views 0 e (squares 12 ++ [pause 13000]) ∧
            row.length = e.settings.predictLimit ∧
            (∀ view ∈ row, ∃ v, view = some v ∧ v.Substituted) ∧
            ((∀ view ∈ row, ∃ v, view = some v ∧ v.Genuine) ↔
              ∀ v, some v ∈ row → ¬ v.Overwritten)) := by
  have hcheck : (ofConfig predicting).toOption.any (fun e =>
      ((e.run (squares 12)).predictor 0).any fun p => p.valid &&
        (((e.run (squares 12)).tick 13000 fun _ => 0).predictor 0).any fun q => !q.valid) =
          true := by
    decide +kernel
  obtain ⟨e, he, hany⟩ := exists_ofConfig hcheck
  obtain ⟨p, hp, hboth⟩ := (Option.any_eq_true _ _).mp hany
  obtain ⟨hvalid, hrest⟩ := Bool.and_eq_true_iff.mp hboth
  obtain ⟨q, hq, hgone⟩ := (Option.any_eq_true _ _).mp hrest
  obtain ⟨q', hq', hrow, -⟩ := restart_after_row he (squares 12) 13000 (fun _ => 0) 0 p hp
  rw [hq] at hq'
  cases hq'
  have hinvalid : q.valid = false := Bool.not_eq_true _ ▸ by simpa using hgone
  exact ⟨e, p, q, he, hp, hq, hvalid, hinvalid, hrow hvalid hinvalid⟩

/-- A synthetic adder has reported what it computed, and yet its predictor starts over as if it had
stood in. -/
theorem restart_of_computed : ∃ e p q v, ofConfig predicting = .ok e ∧
    let calls := squares 12 ++ [point "a" 144]
    (e.run calls).predictor 0 = some p ∧ p.valid = true ∧
      ((e.run calls).tick 13000 fun _ => 0).predictor 0 = some q ∧ q.valid = false ∧
        (e.run calls).view 13000 (fun _ => 0) 0 = some v ∧
          v.reported.map (·.value) ≠ v.standIn := by
  have hcheck : (ofConfig predicting).toOption.any (fun e =>
      let now := e.run (squares 12 ++ [point "a" 144])
      (now.predictor 0).any fun p => p.valid &&
        ((now.tick 13000 fun _ => 0).predictor 0).any fun q => !q.valid &&
          (now.view 13000 (fun _ => 0) 0).any fun v =>
            decide (v.reported.map (·.value) ≠ v.standIn)) = true := by
    decide +kernel
  obtain ⟨e, he, hany⟩ := exists_ofConfig hcheck
  obtain ⟨p, hp, hany⟩ := (Option.any_eq_true _ _).mp hany
  obtain ⟨hvalid, hany⟩ := Bool.and_eq_true_iff.mp hany
  obtain ⟨q, hq, hany⟩ := (Option.any_eq_true _ _).mp hany
  obtain ⟨hgone, hany⟩ := Bool.and_eq_true_iff.mp hany
  obtain ⟨v, hv, hdiffers⟩ := (Option.any_eq_true _ _).mp hany
  exact ⟨e, p, q, v, he, hp, hvalid, hq, by simpa using hgone, hv, of_decide_eq_true hdiffers⟩

end Engine

end Rollup
