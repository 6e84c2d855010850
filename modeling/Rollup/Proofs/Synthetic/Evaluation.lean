import Mathlib.Data.List.Forall2
import Rollup.Proofs.Record.Passing

/-! The synthetic adders of a tick, one evaluation after the other. What is left in the store is
what each evaluation wrote to its target, and nothing else but exemptions from collection. -/
namespace Rollup

/-- What the last swap, substitution or computation left on the processed side. -/
def Record.totals (r : Record) : Totals :=
  match r.body with
  | .adder sides _ => sides.processed
  | _ => .zero

namespace Record

theorem totals_update (value : Float) (adjustment : Adjustment) (r : Record) :
    (r.update value adjustment).totals = r.totals := by
  unfold update totals
  cases r.body <;> rfl

theorem totals_reportAdder (settings : Settings) (nowMs : Nat) (r : Record) :
    (r.reportAdder settings nowMs).2.totals = r.totals := by
  unfold reportAdder
  simp only
  split
  · rename_i sides predictor hbody
    split <;> simp only [totals, hbody]
  · rfl
  · rfl

end Record

def Body.given : Option Totals → Body → Body
  | some totals, adder sides predictor => .adder ⟨sides.input, totals⟩ predictor
  | _, body => body

namespace Body

@[simp] theorem given_given (old new : Option Totals) (body : Body) :
    (body.given old).given new = body.given (new.or old) := by
  cases body <;> cases old <;> cases new <;> rfl

theorem given_of_ne (totals : Option Totals) {body : Body} (h : body.kind ≠ .adder) :
    body.given totals = body := by
  cases body with
  | adder sides predictor => exact absurd rfl h
  | _ => cases totals <;> rfl

@[simp] theorem pending_given (totals : Option Totals) (body : Body) :
    (body.given totals).pending = body.pending := by
  cases body <;> cases totals <;> rfl

end Body

theorem Record.body_overwrite (totals : Totals) (r : Record) :
    (Synthetic.overwrite totals r).body = r.body.given (some totals) := by
  unfold Synthetic.overwrite
  split
  · rename_i hbody
    simp only [hbody, Body.given]
  · rename_i hother
    cases hbody : r.body with
    | adder sides predictor => exact absurd hbody (hother sides predictor)
    | _ => rfl

namespace Store

def Keeps (s : Store) (path : String) (h : Handle) : Prop :=
  ∃ r, s.get? h = some r ∧ r.kind = .adder ∧ r.path = path ∧ r.idle = none

theorem Evolves.keeps {s s' : Store} (h : s.Evolves s') {path : String} {k : Handle}
    (hk : s.Keeps path k) : s'.Keeps path k := by
  obtain ⟨r, hr, hkind, hpath, hidle⟩ := hk
  obtain ⟨r', hr', hfollows⟩ := h k r hr
  exact ⟨r', hr', hfollows.kind.trans hkind, hfollows.path.trans hpath, hfollows.exempt hidle⟩

/-- Nothing happened to the points of a store, except that some totals were replaced. -/
def Settles (s s' : Store) (totals : Handle → Option Totals) : Prop :=
  ∃ f, s.Revises s' f ∧ ∀ h r, s.get? h = some r → r.Stays (f h r) ∧
    (f h r).body = r.body.given (totals h)

namespace Settles

variable {s s' : Store} {totals : Handle → Option Totals}

theorem refl (s : Store) : s.Settles s fun _ => none :=
  ⟨_, .refl s, fun _ r _ => ⟨.refl r, rfl⟩⟩

theorem trans {s'' : Store} {more : Handle → Option Totals} (h : s.Settles s' totals)
    (h' : s'.Settles s'' more) : s.Settles s'' fun k => (more k).or (totals k) := by
  obtain ⟨f, hrevises, hf⟩ := h
  obtain ⟨g, hrevises', hg⟩ := h'
  refine ⟨_, hrevises.trans hrevises', fun k r hr => ?_⟩
  have hr' : s'.get? k = some (f k r) := by rw [hrevises.get, hr, Option.map_some]
  obtain ⟨hstays, hbody⟩ := hf k r hr
  obtain ⟨hstays', hbody'⟩ := hg k (f k r) hr'
  exact ⟨hstays.trans hstays', by rw [hbody', hbody, Body.given_given]⟩

theorem evolves (h : s.Settles s' totals) : s.Evolves s' :=
  let ⟨_, hrevises, _⟩ := h
  hrevises.evolves

theorem wellFormed (h : s.Settles s' totals) (hs : s.WellFormed) : s'.WellFormed :=
  let ⟨_, hrevises, _⟩ := h
  hrevises.wellFormed hs

theorem get (h : s.Settles s' totals) {k : Handle} {r : Record} (hr : s.get? k = some r) :
    ∃ r', s'.get? k = some r' ∧ r.Stays r' ∧ r'.body = r.body.given (totals k) := by
  obtain ⟨f, hrevises, hf⟩ := h
  exact ⟨f k r, by rw [hrevises.get, hr, Option.map_some], hf k r hr⟩

theorem isValid (h : s.Settles s' totals) (k : Handle) : s'.isValid k = s.isValid k := by
  unfold Store.isValid
  cases hr : s.get? k with
  | none =>
    obtain ⟨f, hrevises, -⟩ := h
    rw [hrevises.get, hr]
    rfl
  | some r =>
    obtain ⟨r', hr', hstays, -⟩ := h.get hr
    rw [hr', Option.any_some, Option.any_some, hstays.valid]

theorem totalsOf (h : s.Settles s' totals) {k : Handle} {r : Record} (hr : s.get? k = some r)
    (hkind : r.kind = .adder) :
    Synthetic.totalsOf s' k = (totals k).getD (Synthetic.totalsOf s k) := by
  obtain ⟨r', hr', -, hbody⟩ := h.get hr
  unfold Synthetic.totalsOf
  rw [hr, hr', Option.map_some, Option.map_some, hbody]
  cases hadder : r.body with
  | adder sides predictor => cases totals k <;> rfl
  | _ => rw [Record.kind, hadder] at hkind; cases hkind

end Settles

theorem settles_exempt (s : Store) (h : Handle) :
    s.Settles (s.modify h Record.exempt) fun _ => none :=
  ⟨_, s.revises_modify h _ fun r _ => r.stays_exempt.follows, fun k r _ => by
    split
    · exact ⟨r.stays_exempt, rfl⟩
    · exact ⟨.refl r, rfl⟩⟩

theorem settles_overwrite (s : Store) (target : Handle) (totals : Totals) :
    s.Settles (s.modify target (Synthetic.overwrite totals)) fun h =>
      if h = target then some totals else none :=
  ⟨_, s.revises_modify target _ fun r _ => (r.stays_overwrite totals).follows, fun k r _ => by
    by_cases hk : k = target
    · simp only [hk, if_true]
      exact ⟨r.stays_overwrite totals, r.body_overwrite totals⟩
    · simp only [hk, if_false]
      exact ⟨.refl r, rfl⟩⟩

end Store

namespace Synthetic

theorem totalsOf_eq {store : Store} {h : Handle} {r : Record} (hr : store.get? h = some r) :
    totalsOf store h = r.totals := by
  unfold totalsOf Record.totals
  rw [hr, Option.map_some]
  cases r.body <;> rfl

theorem totalsOf_none {store : Store} {h : Handle} (hnone : store.get? h = none) :
    totalsOf store h = .zero := by
  rw [totalsOf, hnone]
  rfl

def Linked (paths : List String) (slots : List (Option Handle)) (store : Store) : Prop :=
  List.Forall₂ (fun path slot => ∀ h ∈ slot, store.Keeps path h) paths slots

theorem Linked.evolves {paths : List String} {slots : List (Option Handle)} {store store' : Store}
    (h : Linked paths slots store) (hevolves : store.Evolves store') :
    Linked paths slots store' :=
  h.imp fun _ _ hkeeps k hk => hevolves.keeps (hkeeps k hk)

theorem Linked.keeps {paths : List String} {slots : List (Option Handle)} {store : Store}
    (hlinked : Linked paths slots store) {h : Handle} (hmem : some h ∈ slots) :
    ∃ path, store.Keeps path h := by
  induction hlinked with
  | nil => cases hmem
  | @cons path slot paths slots hslot _ ih =>
    rcases List.mem_cons.mp hmem with rfl | hmem
    · exact ⟨path, hslot h rfl⟩
    · exact ih hmem

structure Finds (paths : List String) (slots : List (Option Handle)) (store : Store)
    (slots' : List (Option Handle)) (found : Nat) (store' : Store) : Prop where
  settles : store.Settles store' fun _ => none
  linked : Linked paths slots' store'
  missing : slots'.count none + found = slots.count none
  source : ∀ h, some h ∈ slots' → some h ∈ slots ∨ store.isValid h = true

theorem finds {paths : List String} {slots : List (Option Handle)} {store : Store}
    (hstore : store.WellFormed) (hlinked : Linked paths slots store) :
    Finds paths slots store (findSources paths slots store).1 (findSources paths slots store).2.1
      (findSources paths slots store).2.2 := by
  induction paths generalizing slots store with
  | nil =>
    cases hlinked
    exact ⟨.refl store, .nil, rfl, fun h hmem => nomatch hmem⟩
  | cons path paths ih =>
    cases hlinked with
    | @cons _ slot _ slots hslot hrest =>
    unfold findSources
    cases slot with
    | some h =>
      obtain ⟨hsettles, hlinked, hmissing, hsource⟩ := ih hstore hrest
      refine ⟨hsettles, .cons ?_ hlinked, ?_, ?_⟩
      · exact fun k hk => hsettles.evolves.keeps (hslot k hk)
      · simpa using hmissing
      · intro k hmem
        rcases List.mem_cons.mp hmem with hk | hmem
        · exact .inl (List.mem_cons.mpr (.inl hk))
        · exact (hsource k hmem).imp_left (List.mem_cons_of_mem _)
    | none =>
      cases hlocate : store.locate .adder path with
      | none =>
        have hfinds := ih hstore hrest
        simp only
        generalize findSources paths slots store = result at hfinds ⊢
        obtain ⟨hsettles, hlinked, hmissing, hsource⟩ := hfinds
        refine ⟨hsettles, .cons (fun k hk => nomatch hk) hlinked, ?_, ?_⟩
        · rw [List.count_cons_self, List.count_cons_self, ← hmissing]
          exact Nat.add_right_comm _ _ _
        · intro k hmem
          rcases List.mem_cons.mp hmem with hk | hmem
          · cases hk
          · exact (hsource k hmem).imp_left (List.mem_cons_of_mem _)
      | some h =>
        obtain ⟨r, hr, hvalid, hkind, hpath⟩ := hstore.locate_eq_some_iff.mp hlocate
        have hexempt := store.settles_exempt h
        have hfinds := ih (hexempt.wellFormed hstore) (Linked.evolves hrest hexempt.evolves)
        simp only
        generalize findSources paths slots (store.modify h Record.exempt) = result at hfinds ⊢
        obtain ⟨hsettles, hlinked, hmissing, hsource⟩ := hfinds
        refine ⟨hexempt.trans hsettles, .cons ?_ hlinked, ?_, ?_⟩
        · -- The new source has just been exempted.
          have hkeeps : (store.modify h Record.exempt).Keeps path h :=
            ⟨r.exempt, by rw [Store.get?_modify, if_pos rfl, hr]; rfl, hkind, hpath, rfl⟩
          intro k hk
          cases hk
          exact hsettles.evolves.keeps hkeeps
        · rw [List.count_cons_of_ne (by simp), List.count_cons_self, ← hmissing]
          exact (Nat.add_assoc _ _ _).symm
        · intro k hmem
          rcases List.mem_cons.mp hmem with hk | hmem
          · cases hk
            exact .inr (by rw [Store.isValid, hr, Option.any_some, hvalid])
          · rw [← hexempt.isValid k]
            exact (hsource k hmem).imp_left (List.mem_cons_of_mem _)

/-- A synthetic adder holds on to the sources found so far, and counts the others. -/
structure Bound (s : Synthetic) (store : Store) : Prop where
  linked : Linked s.definition.sources s.sources store
  missing : s.missing = s.sources.count none

theorem Bound.evolves {s : Synthetic} {store store' : Store} (h : s.Bound store)
    (hevolves : store.Evolves store') : s.Bound store' :=
  ⟨h.linked.evolves hevolves, h.missing⟩

theorem bound_bind (definition : Definition) (target : Handle) (store : Store) :
    (bind definition target).Bound store := by
  constructor
  · unfold Linked bind
    rw [List.forall₂_map_right_iff, List.forall₂_same]
    exact fun path _ h hmem => nomatch hmem
  · unfold bind
    simp

/-- A later state of a synthetic adder: what it found since, it found valid. -/
structure Resolves (s s' : Synthetic) (store : Store) : Prop where
  definition : s'.definition = s.definition
  target : s'.target = s.target
  source : ∀ h, some h ∈ s'.sources → some h ∈ s.sources ∨ store.isValid h = true

/-- An evaluation: a synthetic adder that has looked for its sources, and the store that it reads.
-/
structure Evaluation where
  synthetic : Synthetic
  store : Store

structure Read where
  path : String
  source : Handle
  totals : Totals

def prepare (s : Synthetic) (store : Store) : Evaluation :=
  ⟨(s.resolve store).1, (s.resolve store).2⟩

namespace Evaluation

/-- Nothing is read while a source is missing. -/
def reads (v : Evaluation) : List Read :=
  if 0 < v.synthetic.missing then []
  else (v.synthetic.definition.sources.zip v.synthetic.sources).filterMap fun (path, slot) =>
    slot.map fun h => ⟨path, h, totalsOf v.store h⟩

/-- What the target is given, if it is computed at all. -/
def written (v : Evaluation) : Option Totals :=
  if 0 < v.synthetic.missing then none
  else some ((evaluate v.synthetic.definition (v.reads.map (·.totals))).getD .zero)

def gives (v : Evaluation) (h : Handle) : Option Totals :=
  if h = v.synthetic.target then v.written else none

def outcome (v : Evaluation) : Store :=
  match v.written with
  | some totals => v.store.modify v.synthetic.target (overwrite totals)
  | none => v.store

theorem settles_outcome (v : Evaluation) : v.store.Settles v.outcome v.gives := by
  unfold outcome gives
  cases v.written with
  | none =>
    simp only [ite_self]
    exact .refl v.store
  | some totals => exact v.store.settles_overwrite v.synthetic.target totals

end Evaluation

def evaluations : List Synthetic → Store → List Evaluation
  | [], _ => []
  | s :: rest, store => s.prepare store :: evaluations rest (s.prepare store).outcome

def givenTo : List Evaluation → Handle → Option Totals
  | [], _ => none
  | v :: rest, h => (givenTo rest h).or (v.gives h)

section Prepare

variable {s : Synthetic} {store : Store}

theorem settles_prepare (hstore : store.WellFormed) (hs : s.Bound store) :
    store.Settles (s.prepare store).store fun _ => none := by
  unfold prepare resolve
  split
  · exact .refl store
  · exact (finds hstore hs.linked).settles

theorem bound_prepare (hstore : store.WellFormed) (hs : s.Bound store) :
    (s.prepare store).synthetic.Bound (s.prepare store).store := by
  unfold prepare resolve
  split
  · exact hs
  · have hfinds := finds hstore hs.linked
    refine ⟨hfinds.linked, ?_⟩
    change s.missing - (findSources s.definition.sources s.sources store).2.1 = _
    rw [hs.missing, ← hfinds.missing, Nat.add_sub_cancel]

theorem resolves_prepare (hstore : store.WellFormed) (hs : s.Bound store) :
    s.Resolves (s.prepare store).synthetic store := by
  unfold prepare resolve
  split
  · exact ⟨rfl, rfl, fun h hmem => .inl hmem⟩
  · exact ⟨rfl, rfl, (finds hstore hs.linked).source⟩

theorem totals_of_linked {paths : List String} {slots : List (Option Handle)} {store : Store}
    (hlinked : Linked paths slots store) :
    (slots.filterMap id).map (totalsOf store) =
      ((paths.zip slots).filterMap fun (path, slot) =>
        slot.map fun h => Read.mk path h (totalsOf store h)).map (·.totals) := by
  induction hlinked with
  | nil => rfl
  | @cons path slot paths slots hslot hrest ih =>
    cases slot with
    | none => simpa using ih
    | some h => simpa using ih

theorem generate_snd (hstore : store.WellFormed) (hs : s.Bound store) :
    (s.generate store).2 = ((s.prepare store).synthetic, (s.prepare store).outcome) := by
  have hlinked := (bound_prepare hstore hs).linked
  unfold generate Evaluation.outcome Evaluation.written Evaluation.reads
  by_cases hmissing : 0 < (s.resolve store).1.missing
  · simp [prepare, hmissing]
  · have hvalues := totals_of_linked hlinked
    simp only [prepare] at hvalues
    simp only [prepare, hmissing, if_false, hvalues]
    cases evaluate _ _ <;> rfl

end Prepare

section GenerateAll

variable {ss : List Synthetic} {store : Store}

theorem generateAll_cons (hstore : store.WellFormed) {s : Synthetic} (hs : s.Bound store)
    (rest : List Synthetic) :
    (generateAll (s :: rest) store).2 =
      ((s.prepare store).synthetic :: (generateAll rest (s.prepare store).outcome).2.1,
        (generateAll rest (s.prepare store).outcome).2.2) := by
  rw [show (generateAll (s :: rest) store).2 =
      ((s.generate store).2.1 :: (generateAll rest (s.generate store).2.2).2.1,
        (generateAll rest (s.generate store).2.2).2.2) from rfl, generate_snd hstore hs]

theorem generateAll_snd (hstore : store.WellFormed) (hs : ∀ s ∈ ss, s.Bound store) :
    (generateAll ss store).2.1 = (evaluations ss store).map (·.synthetic) ∧
      store.Settles (generateAll ss store).2.2 (givenTo (evaluations ss store)) := by
  induction ss generalizing store with
  | nil => exact ⟨rfl, .refl store⟩
  | cons s rest ih =>
    have hbound := hs s List.mem_cons_self
    have hsettles := (settles_prepare hstore hbound).trans (s.prepare store).settles_outcome
    obtain ⟨hsynthetics, hrest⟩ := ih (hsettles.wellFormed hstore) fun s' hmem =>
      (hs s' (List.mem_cons_of_mem _ hmem)).evolves hsettles.evolves
    rw [generateAll_cons hstore hbound]
    simp only [evaluations, List.map_cons, hsynthetics, true_and]
    have htrans := hsettles.trans hrest
    simp only [Option.or_none] at htrans
    exact htrans

/-- The place of one evaluation in its tick: it reads what the earlier ones have left. -/
structure Takes (ss : List Synthetic) (store : Store) (i : Nat) (v : Evaluation) : Prop where
  settles : store.Settles v.store (givenTo ((evaluations ss store).take i))
  bound : v.synthetic.Bound v.store
  resolves : ∃ s, ss[i]? = some s ∧ s.Resolves v.synthetic store
  evolves : v.store.Evolves (generateAll ss store).2.2

theorem takes_evaluation (hstore : store.WellFormed) (hs : ∀ s ∈ ss, s.Bound store) {i : Nat}
    {v : Evaluation} (hv : (evaluations ss store)[i]? = some v) : Takes ss store i v := by
  induction ss generalizing store i with
  | nil => simp [evaluations] at hv
  | cons s rest ih =>
    have hbound := hs s List.mem_cons_self
    have hprepare := settles_prepare hstore hbound
    have hsettles := hprepare.trans (s.prepare store).settles_outcome
    have houtcome := hsettles.wellFormed hstore
    have hrest : ∀ s' ∈ rest, s'.Bound (s.prepare store).outcome := fun s' hmem =>
      (hs s' (List.mem_cons_of_mem _ hmem)).evolves hsettles.evolves
    have hfinal : (generateAll (s :: rest) store).2.2 =
        (generateAll rest (s.prepare store).outcome).2.2 := by
      rw [generateAll_cons hstore hbound]
    cases i with
    | zero =>
      simp only [evaluations, List.getElem?_cons_zero, Option.some.injEq] at hv
      subst hv
      refine ⟨hprepare, bound_prepare hstore hbound, ⟨s, rfl, resolves_prepare hstore hbound⟩, ?_⟩
      rw [hfinal]
      exact (s.prepare store).settles_outcome.evolves.trans
        (generateAll_snd houtcome hrest).2.evolves
    | succ i =>
      simp only [evaluations, List.getElem?_cons_succ] at hv
      obtain ⟨hearlier, hbound', ⟨s', hs', hresolves⟩, hevolves⟩ := ih houtcome hrest hv
      refine ⟨?_, hbound', ⟨s', hs', hresolves.definition, hresolves.target, ?_⟩, ?_⟩
      · have htrans := hsettles.trans hearlier
        simp only [Option.or_none] at htrans
        exact htrans
      · intro h hmem
        rw [← hsettles.isValid h]
        exact hresolves.source h hmem
      · rw [hfinal]
        exact hevolves

end GenerateAll

end Synthetic

end Rollup
