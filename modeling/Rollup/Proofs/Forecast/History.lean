import Rollup.Proofs.Forecast.Row

/-! A predictor and its past. The ring holds the latest observations, across resets too, while
validity and the row of substitutions count from the last reset only. Both are read off the events
of a run here, the newest first, and every answer of the predictor follows from them. -/
namespace Rollup

namespace Predictor

def inOrder (p : Predictor) : List Observation :=
  p.history.toList.drop p.next ++ p.history.toList.take p.next

section Ring

structure Ringed (p : Predictor) : Prop where
  fits : p.history.size ≤ p.size
  next_lt : p.next < p.size
  unturned : p.history.size < p.size → p.next = 0

variable {p : Predictor}

theorem ringed_empty (size : Nat) : (empty size).Ringed :=
  ⟨Nat.zero_le _, Nat.lt_of_lt_of_le Nat.two_pos (Nat.le_max_right size leastSize), fun _ => rfl⟩

theorem Ringed.push (h : p.Ringed) (o : Observation) : (p.push o).Ringed := by
  unfold Predictor.push
  split
  · rename_i hroom
    exact ⟨Array.size_push o ▸ hroom, h.next_lt, fun _ => h.unturned hroom⟩
  · rename_i hfull
    exact ⟨by simpa using h.fits, Nat.mod_lt _ (Nat.zero_lt_of_lt h.next_lt),
      fun hroom => absurd (by simpa using hroom) hfull⟩

theorem Ringed.copy {q : Predictor} (h : p.Ringed) (hhistory : q.history = p.history)
    (hnext : q.next = p.next) (hsize : q.size = p.size) : q.Ringed :=
  ⟨by rw [hhistory, hsize]; exact h.fits, by rw [hnext, hsize]; exact h.next_lt,
    by rw [hhistory, hnext, hsize]; exact h.unturned⟩

theorem inOrder_push_of_room (h : p.Ringed) (hroom : p.history.size < p.size) (o : Observation) :
    (p.push o).inOrder = p.inOrder ++ [o] := by
  simp [Predictor.push, hroom, inOrder, h.unturned hroom]

theorem inOrder_push_of_full (h : p.Ringed) (hfull : p.history.size = p.size) (o : Observation) :
    (p.push o).inOrder = p.inOrder.tail ++ [o] := by
  have hlength : p.history.toList.length = p.size := by simpa using hfull
  have hnext : p.next < p.history.toList.length := hlength ▸ h.next_lt
  have hdrop : p.history.toList.drop p.next =
      p.history.toList[p.next] :: p.history.toList.drop (p.next + 1) :=
    List.drop_eq_getElem_cons hnext
  have hset : p.history.toList.set p.next o =
      p.history.toList.take p.next ++ o :: p.history.toList.drop (p.next + 1) :=
    List.set_eq_take_append_cons_drop.trans (if_pos hnext)
  have htake : (p.history.toList.take p.next).length = p.next :=
    List.length_take_of_le (Nat.le_of_lt hnext)
  simp only [Predictor.push, hfull, Nat.lt_irrefl, if_false, inOrder, Array.toList_setIfInBounds,
    hset, hdrop]
  rcases Nat.lt_or_eq_of_le (Nat.succ_le_of_lt h.next_lt) with hinside | hlast
  · rw [Nat.mod_eq_of_lt hinside]
    simp [List.drop_append, List.take_append, htake, List.drop_take, List.take_take]
  · -- the slot was the last one, so the ring starts at its front again
    have hrest : p.history.toList.drop (p.next + 1) = [] :=
      List.drop_eq_nil_of_le (by omega)
    rw [show p.next + 1 = p.size from hlast, Nat.mod_self, ← hlast, Nat.succ_eq_add_one, hrest]
    simp

theorem length_inOrder (h : p.Ringed) : p.inOrder.length = p.history.size := by
  have hnext : p.next ≤ p.history.size := by
    have := h.next_lt
    have := h.unturned
    omega
  simp only [inOrder, List.length_append, List.length_drop, List.length_take, Array.length_toList]
  omega

theorem inOrder_push (h : p.Ringed) (o : Observation) {points : List Observation}
    (hstored : p.inOrder = (points.take p.size).reverse) :
    (p.push o).inOrder = ((o :: points).take p.size).reverse := by
  obtain ⟨n, hn⟩ : ∃ n, p.size = n + 1 :=
    Nat.exists_eq_add_of_lt (Nat.zero_lt_of_lt h.next_lt) |>.imp fun _ => by omega
  have hlength := length_inOrder h
  rw [hstored, List.length_reverse, List.length_take] at hlength
  rw [hn, List.take_succ_cons, List.reverse_cons]
  rcases Nat.lt_or_eq_of_le h.fits with hroom | hfull
  · rw [inOrder_push_of_room h hroom, hstored, List.take_of_length_le (by omega),
      List.take_of_length_le (by omega)]
  · rw [inOrder_push_of_full h hfull, hstored, List.tail_reverse, List.dropLast_eq_take,
      List.take_take, List.length_take, hn]
    congr 3
    omega

theorem oldest_eq (h : p.Ringed) : p.oldest = p.inOrder.head? := by
  rw [oldest, inOrder, List.head?_append, List.head?_drop, Array.getElem?_toList]
  cases hfirst : p.history[p.next]? with
  | some first => rfl
  | none =>
    have hbeyond : p.history.size ≤ p.next := Array.getElem?_eq_none_iff.mp hfirst
    have hnext : p.next = 0 := h.unturned (Nat.lt_of_le_of_lt hbeyond h.next_lt)
    simp [hnext]

theorem newest_eq (h : p.Ringed) : p.newest = p.inOrder.getLast? := by
  rw [newest, inOrder, List.getLast?_append]
  rcases Nat.eq_zero_or_pos p.next with hzero | hpos
  · rw [hzero]
    rcases Nat.eq_zero_or_pos p.history.size with hempty | hsome
    · simp [Array.size_eq_zero_iff.mp hempty]
    · rw [Nat.zero_add, Nat.max_eq_left hsome, Nat.mod_eq_of_lt (Nat.sub_lt hsome Nat.one_pos)]
      simp [List.getLast?_eq_getElem?]
  · have hfull : p.history.size = p.size := by
      have := h.fits
      have := h.unturned
      omega
    have hnext := h.next_lt
    have hindex : (p.next + p.history.size - 1) % max p.history.size 1 = p.next - 1 := by
      rw [Nat.max_eq_left (by omega), show p.next + p.history.size - 1 =
        p.next - 1 + p.history.size by omega, Nat.add_mod_right, Nat.mod_eq_of_lt (by omega)]
    have hslot : p.next - 1 < p.history.size := by omega
    rw [hindex, List.getLast?_take, if_neg (Nat.ne_of_gt hpos), Array.getElem?_toList,
      Array.getElem?_eq_getElem hslot]
    rfl

end Ring

inductive Act where
  | substitute
  | observe (time value nextTime : Float)

inductive Event where
  /-- What stood in for a tick, if anything did. -/
  | substituted (value : Option Float)
  /-- The forecast that an observation gave, and whether it made the predictor start over. -/
  | observed (point : Observation) (forecast : Option Forecast) (reset : Bool)

namespace Event

def point? : Event → Option Observation
  | substituted _ => none
  | observed point _ _ => some point

def forecast? : Event → Option Forecast
  | substituted _ => none
  | observed _ forecast _ => forecast

def reset : Event → Bool
  | substituted _ => false
  | observed _ _ reset => reset

end Event

/-- The events so far, the newest first. -/
abbrev Past := List Event

namespace Past

def observations (past : Past) : List Observation := past.filterMap Event.point?

/-- The observations since creation or the last reset. -/
def recent (past : Past) : List Observation := observations (past.takeWhile fun e => !e.reset)

def latest (past : Past) : Option Forecast := past.findSome? Event.forecast?

/-- A value has stood in since the last observation. -/
def awaits : Past → Bool
  | .substituted value :: past => value.isSome || awaits past
  | _ => false

/-- The values that have stood in since the later of the last reset and the last observation before
which none had. -/
def row : Past → Nat
  | [] => 0
  | .substituted value :: past => row past + value.toList.length
  | .observed _ _ reset :: past => if awaits past && !reset then row past else 0

def rowFound (past : Past) : Nat := if past.awaits then past.row else 0

section Observed

variable (o : Observation) (forecast : Option Forecast) (past : Past)

theorem recent_reset : recent (.observed o forecast true :: past) = [] := rfl

theorem recent_observed : recent (.observed o forecast false :: past) = o :: past.recent := rfl

theorem row_reset : row (.observed o forecast true :: past) = 0 := by
  simp [row]

theorem row_observed : row (.observed o forecast false :: past) = past.rowFound := by
  simp [row, rowFound]

end Observed

end Past

/-- An observation that takes the validity of a predictor makes it start over. -/
def startsOver (p q : Predictor) : Bool := p.valid && !q.valid

def act (limit : Nat) (p : Predictor) : Act → Event × Predictor
  | .substitute =>
    let (value, q) := p.substitute limit
    (.substituted value, q)
  | .observe time value nextTime =>
    let (forecast, q) := p.observe time value nextTime limit
    (.observed ⟨time, value⟩ forecast (p.startsOver q), q)

def step (limit : Nat) : Past × Predictor → Act → Past × Predictor
  | (past, p), a => ((p.act limit a).1 :: past, (p.act limit a).2)

def run (limit : Nat) (p : Predictor) (acts : List Act) : Past × Predictor :=
  acts.foldl (step limit) ([], p)

section Absorb

variable (p : Predictor) (o : Observation)

@[simp] theorem size_push : (p.push o).size = p.size := by
  unfold push
  split <;> rfl

@[simp] theorem filled_push : (p.push o).filled = p.filled := by
  unfold push
  split <;> rfl

theorem endRow_eq : p.endRow = { p with substituting := false, substituted := p.row } := by
  cases hsubstituting : p.substituting <;> simp [endRow, row, hsubstituting]

theorem fill_eq : p.fill = { p with
    filled := if p.valid then p.filled else p.filled + 1
    valid := p.valid || decide (p.size ≤ p.filled + 1) } := by
  obtain ⟨_, _, _, _, valid, _, _, _⟩ := p
  cases valid <;> simp [fill]

def absorb : Predictor := { p.push o with
  substituting := false
  substituted := p.row
  filled := if p.valid then p.filled else p.filled + 1
  valid := p.valid || decide (p.size ≤ p.filled + 1) }

theorem observe_eq (time value nextTime : Float) (limit : Nat) :
    let r := p.absorb ⟨time, value⟩
    let learnt := r.learn time nextTime
    p.observe time value nextTime limit =
      if r.valid then
        (some ⟨if p.valid then some (p.prediction - value) else none, learnt.1,
          learnt.2.prediction⟩, learnt.2.resetAfter limit)
      else (none, r) := by
  have habsorb : ((p.push ⟨time, value⟩).endRow).fill = p.absorb ⟨time, value⟩ := by
    rw [fill_eq, endRow_eq]
    simp [absorb]
  unfold observe
  simp only [habsorb]
  cases (p.absorb ⟨time, value⟩).valid <;> rfl

theorem learn_eq {first last : Observation} (hfirst : p.oldest = some first)
    (hlast : p.newest = some last) (time nextTime : Float) :
    let line := Line.fitted p.history.toList first.time last.time
    p.learn time nextTime = (line, { p with prediction := line.eval nextTime }) := by
  rw [learn, hfirst, hlast]

theorem history_resetAfter (limit : Nat) : (p.resetAfter limit).history = p.history := by
  unfold resetAfter
  split <;> rfl

end Absorb

structure Reflects (size : Nat) (past : Past) (p : Predictor) : Prop where
  size_eq : p.size = size
  ringed : p.Ringed
  stored : p.inOrder = (past.observations.take size).reverse
  valid_iff : p.valid = true ↔ size ≤ past.recent.length
  filled_eq : p.valid = false → p.filled = past.recent.length
  substituting_eq : p.substituting = past.awaits
  substituted_eq : p.substituted = past.row
  prediction_eq : p.valid = true → past.latest.map (·.prediction) = some p.prediction
  valid_of_row : 0 < past.row → p.valid = true

namespace Reflects

variable {size : Nat} {past : Past} {p : Predictor}

theorem nil (hsize : leastSize ≤ size) : Reflects size [] (empty size) where
  size_eq := Nat.max_eq_left hsize
  ringed := ringed_empty size
  stored := by simp [inOrder, empty, Past.observations]
  valid_iff := iff_of_false Bool.false_ne_true
    (Nat.not_le_of_lt (Nat.lt_of_lt_of_le (by decide) hsize))
  filled_eq := fun _ => rfl
  substituting_eq := rfl
  substituted_eq := rfl
  prediction_eq := fun h => nomatch h
  valid_of_row := fun h => nomatch h

theorem substitute (h : Reflects size past p) (limit : Nat) :
    Reflects size (.substituted (p.substitute limit).1 :: past) (p.substitute limit).2 := by
  cases hvalue : (p.substitute limit).1 with
  | none =>
    rw [substitute_eq_none hvalue]
    exact { h with }
  | some value =>
    obtain ⟨hvalid, -, hnext⟩ := substitute_eq_some hvalue
    rw [hnext]
    exact { h with
      ringed := h.ringed.copy rfl rfl rfl
      substituting_eq := rfl
      substituted_eq := congrArg (· + 1) h.substituted_eq
      valid_of_row := fun _ => hvalid }

section Observe

theorem row_eq (h : Reflects size past p) : p.row = past.rowFound := by
  rw [Predictor.row, h.substituting_eq, h.substituted_eq, Past.rowFound]

theorem valid_of_rowFound (h : Reflects size past p) (hrow : 0 < past.rowFound) :
    p.valid = true := by
  unfold Past.rowFound at hrow
  split at hrow
  · exact h.valid_of_row hrow
  · cases hrow

theorem valid_absorb (h : Reflects size past p) (o : Observation) :
    (p.absorb o).valid = true ↔ size ≤ past.recent.length + 1 := by
  cases hvalid : p.valid with
  | false => simp [Predictor.absorb, hvalid, h.filled_eq hvalid, h.size_eq]
  | true => simp [Predictor.absorb, hvalid, Nat.le_succ_of_le (h.valid_iff.mp hvalid)]

theorem stored_push (h : Reflects size past p) (o : Observation) :
    (p.push o).inOrder = ((o :: past.observations).take size).reverse := by
  rw [← h.size_eq, inOrder_push h.ringed o (h.size_eq ▸ h.stored)]

theorem absorb (h : Reflects size past p) (o : Observation) {forecast : Option Forecast}
    {prediction : Float}
    (hprediction : (p.absorb o).valid = true →
      (forecast.or past.latest).map (·.prediction) = some prediction) :
    Reflects size (.observed o forecast false :: past)
      { p.absorb o with prediction := prediction } where
  size_eq := (p.size_push o).trans h.size_eq
  ringed := (h.ringed.push o).copy rfl rfl rfl
  stored := h.stored_push o
  valid_iff := h.valid_absorb o
  filled_eq := by
    intro hvalid
    have hbefore : p.valid = false := by
      cases hp : p.valid with
      | false => rfl
      | true => simp [Predictor.absorb, hp] at hvalid
    simp [Predictor.absorb, hbefore, h.filled_eq hbefore, Past.recent_observed]
  substituting_eq := rfl
  substituted_eq := h.row_eq.trans (Past.row_observed ..).symm
  prediction_eq := fun hvalid => by
    have := hprediction hvalid
    cases forecast <;> exact this
  valid_of_row := by
    rw [Past.row_observed]
    intro hrow
    simp [Predictor.absorb, h.valid_of_rowFound hrow]

/-- A reset forgets how many observations and substitutions there were, but not what was stored. -/
theorem reset (hsize : 0 < size) {o : Observation} {forecast : Option Forecast}
    (h : Reflects size (.observed o forecast false :: past) p) :
    Reflects size (.observed o forecast true :: past)
      { p with valid := false, filled := 0, substituted := 0 } := { h with
  ringed := h.ringed.copy rfl rfl rfl
  valid_iff := by simp [Past.recent_reset, Nat.ne_of_gt hsize]
  filled_eq := fun _ => rfl
  substituted_eq := (Past.row_reset ..).symm
  prediction_eq := fun h => nomatch h
  valid_of_row := fun h => by rw [Past.row_reset] at h; cases h }

theorem observe_cases (h : Reflects size past p) (hsize : 0 < size) (time value nextTime : Float)
    (limit : Nat) :
    let r := p.absorb ⟨time, value⟩
    (past.recent.length + 1 < size ∧ p.observe time value nextTime limit = (none, r)) ∨
      (size ≤ past.recent.length + 1 ∧ ∃ first line,
        ((⟨time, value⟩ :: past.observations).take size).getLast? = some first ∧
        line = Line.fitted r.history.toList first.time time ∧
        p.observe time value nextTime limit =
          (some ⟨if p.valid then some (p.prediction - value) else none, line, line.eval nextTime⟩,
            { r with prediction := line.eval nextTime }.resetAfter limit)) := by
  intro r
  have hvalid : r.valid = true ↔ size ≤ past.recent.length + 1 := h.valid_absorb _
  rw [p.observe_eq time value nextTime limit]
  by_cases hfull : size ≤ past.recent.length + 1
  · right
    have hringed : r.Ringed := (h.ringed.push ⟨time, value⟩).copy rfl rfl rfl
    have hstored : r.inOrder = _ := h.stored_push ⟨time, value⟩
    have hlast : r.newest = some ⟨time, value⟩ := by
      rw [newest_eq hringed, hstored, List.getLast?_reverse, List.head?_take,
        if_neg (Nat.ne_of_gt hsize)]
      rfl
    obtain ⟨first, hearliest⟩ : ∃ first,
        ((⟨time, value⟩ :: past.observations).take size).getLast? = some first :=
      ⟨_, List.getLast?_eq_some_getLast (by simp [Nat.ne_of_gt hsize])⟩
    have hfirst : r.oldest = some first := by
      rw [oldest_eq hringed, hstored, List.head?_reverse, hearliest]
    refine ⟨hfull, first, _, hearliest, rfl, ?_⟩
    rw [if_pos (hvalid.mpr hfull), learn_eq r hfirst hlast]
  · exact .inl ⟨Nat.lt_of_not_le hfull, if_neg (hfull ∘ hvalid.mp)⟩

theorem resetAfter (hsize : 0 < size) {limit : Nat} {r : Predictor} {o : Observation}
    {forecast : Option Forecast} (h : Reflects size (.observed o forecast false :: past) r)
    (hrow : r.substituted = past.rowFound) (hvalid : r.valid = true)
    (hfound : limit ≤ past.rowFound → p.valid = true) :
    (p.startsOver (r.resetAfter limit) = true ↔ limit ≤ past.rowFound) ∧
      Reflects size (.observed o forecast (p.startsOver (r.resetAfter limit)) :: past)
        (r.resetAfter limit) := by
  by_cases hreached : limit ≤ past.rowFound
  · have hover : r.resetAfter limit = { r with valid := false, filled := 0, substituted := 0 } :=
      if_pos (hrow ▸ hreached)
    have hstarts : p.startsOver (r.resetAfter limit) = true := by
      simp [startsOver, hover, hfound hreached]
    rw [hstarts, hover]
    exact ⟨iff_of_true rfl hreached, h.reset hsize⟩
  · have hkept : r.resetAfter limit = r := if_neg (hrow ▸ hreached)
    have hstays : p.startsOver r = false := by simp [startsOver, hvalid]
    rw [hkept, hstays]
    exact ⟨iff_of_false Bool.false_ne_true hreached, h⟩

theorem observe (h : Reflects size past p) (hsize : 0 < size) {limit : Nat} (hlimit : 0 < limit)
    (time value nextTime : Float) :
    let forecast := (p.observe time value nextTime limit).1
    let q := (p.observe time value nextTime limit).2
    (p.startsOver q = true ↔ limit ≤ past.rowFound) ∧
      Reflects size (.observed ⟨time, value⟩ forecast (p.startsOver q) :: past) q := by
  have hvalid := h.valid_absorb ⟨time, value⟩
  have hrow : (p.absorb ⟨time, value⟩).substituted = past.rowFound := h.row_eq
  have hfound : limit ≤ past.rowFound → p.valid = true :=
    fun hreached => h.valid_of_rowFound (Nat.lt_of_lt_of_le hlimit hreached)
  rcases h.observe_cases hsize time value nextTime limit with
    ⟨hfilling, hobserve⟩ | ⟨hfull, first, line, -, -, hobserve⟩
  · have hbefore : p.valid = false := by
      cases hp : p.valid with
      | false => rfl
      | true => exact absurd (h.valid_iff.mp hp) (by omega)
    have hunreached : ¬ limit ≤ past.rowFound := fun hreached => by
      simp [hbefore] at hfound
      omega
    rw [hobserve]
    simp only [startsOver, hbefore, Bool.false_and, Bool.false_eq_true, false_iff]
    refine ⟨hunreached, h.absorb _ fun hr => absurd (hvalid.mp hr) (by omega)⟩
  · rw [hobserve]
    exact resetAfter hsize (h.absorb ⟨time, value⟩ fun _ => rfl) hrow (hvalid.mpr hfull) hfound

theorem valid_observe (h : Reflects size past p) (hsize : 0 < size) {limit : Nat}
    (hlimit : 0 < limit) (time value nextTime : Float) :
    let q := (p.observe time value nextTime limit).2
    q.valid = true ↔ size ≤ past.recent.length + 1 ∧ p.startsOver q = false := by
  intro q
  rw [(h.observe hsize hlimit time value nextTime).2.valid_iff]
  cases p.startsOver q with
  | false => simp [Past.recent_observed]
  | true => simp [Past.recent_reset, Nat.ne_of_gt hsize]

theorem diff_eq (h : Reflects size past p) (value : Float) :
    (if p.valid then some (p.prediction - value) else none) =
      if p.valid then past.latest.map (·.prediction - value) else none := by
  split
  · rename_i hvalid
    have hlatest := congrArg (Option.map (· - value)) (h.prediction_eq hvalid)
    rw [Option.map_map] at hlatest
    exact hlatest.symm
  · rfl

theorem forecast_observe (h : Reflects size past p) (hsize : 0 < size)
    (time value nextTime : Float) (limit : Nat) :
    let forecast := (p.observe time value nextTime limit).1
    let q := (p.observe time value nextTime limit).2
    (forecast.isSome = true ↔ size ≤ past.recent.length + 1) ∧
      ∀ f ∈ forecast,
        f.diff = (if p.valid then past.latest.map (·.prediction - value) else none) ∧
        f.prediction = f.line.eval nextTime ∧
        ∃ first, ((⟨time, value⟩ :: past.observations).take size).getLast? = some first ∧
          f.line = Line.fitted q.history.toList first.time time := by
  rcases h.observe_cases hsize time value nextTime limit with
    ⟨hfilling, hobserve⟩ | ⟨hfull, first, line, hfirst, hline, hobserve⟩
  · rw [hobserve]
    exact ⟨iff_of_false Bool.false_ne_true (Nat.not_le_of_lt hfilling), fun f hf => nomatch hf⟩
  · rw [hobserve]
    refine ⟨iff_of_true rfl hfull, ?_⟩
    rintro _ ⟨⟩
    exact ⟨h.diff_eq value, rfl, first, hfirst, by rw [hline, history_resetAfter]⟩

end Observe

theorem run (hsize : leastSize ≤ size) {limit : Nat} (hlimit : 0 < limit) (acts : List Act) :
    Reflects size ((empty size).run limit acts).1 ((empty size).run limit acts).2 := by
  have hstep : ∀ state a, Reflects size state.1 state.2 →
      Reflects size (step limit state a).1 (step limit state a).2 := by
    intro state a h
    cases a with
    | substitute => exact h.substitute limit
    | observe time value nextTime =>
      exact (h.observe (Nat.lt_of_lt_of_le (by decide) hsize) hlimit time value nextTime).2
  suffices ∀ state, Reflects size state.1 state.2 →
      Reflects size (acts.foldl (step limit) state).1 (acts.foldl (step limit) state).2 from
    this _ (nil hsize)
  induction acts with
  | nil => exact fun _ h => h
  | cons a rest ih => exact fun state h => ih _ (hstep state a h)

end Reflects

theorem isSome_substitute (p : Predictor) (limit : Nat) :
    (p.substitute limit).1.isSome = true ↔ p.valid = true ∧ p.substituted < limit := by
  cases hvalid : p.valid <;> by_cases hlimit : limit ≤ p.substituted <;>
    simp [substitute, hvalid, hlimit, Nat.lt_of_not_le, Nat.not_lt_of_le]

/-- All answers of a predictor follow from its past. It stores the latest observations. It is valid
once enough of them are recent, unless the row of substitutions has reached the limit, which resets
it. A valid predictor with a shorter row stands in with its latest prediction. -/
theorem answers_of_past {size limit : Nat} (hsize : 2 ≤ size) (hlimit : 0 < limit)
    (acts : List Act) :
    let past := ((empty size).run limit acts).1
    let p := ((empty size).run limit acts).2
    (p.inOrder = (past.observations.take size).reverse ∧
        p.oldest = (past.observations.take size).getLast? ∧ p.newest = past.observations.head?) ∧
      (p.valid = true ↔ size ≤ past.recent.length) ∧
      ((p.substitute limit).1.isSome = true ↔ p.valid = true ∧ past.row < limit) ∧
      (∀ value ∈ (p.substitute limit).1, past.latest.map (·.prediction) = some value) ∧
      ∀ time value nextTime,
        let forecast := (p.observe time value nextTime limit).1
        let q := (p.observe time value nextTime limit).2
        (q.valid = true ↔ size ≤ past.recent.length + 1 ∧ p.startsOver q = false) ∧
          (p.startsOver q = true ↔ limit ≤ past.rowFound) ∧
          (forecast.isSome = true ↔ size ≤ past.recent.length + 1) ∧
          ∀ f ∈ forecast,
            f.diff = (if p.valid then past.latest.map (·.prediction - value) else none) ∧
            f.prediction = f.line.eval nextTime ∧
            ∃ first, ((⟨time, value⟩ :: past.observations).take size).getLast? = some first ∧
              f.line = Line.fitted q.history.toList first.time time := by
  intro past p
  have h : Reflects size past p := Reflects.run hsize hlimit acts
  have hpositive : 0 < size := Nat.lt_of_lt_of_le (by decide) hsize
  refine ⟨⟨h.stored, ?_, ?_⟩, h.valid_iff, ?_, ?_, fun time value nextTime => ?_⟩
  · rw [oldest_eq h.ringed, h.stored, List.head?_reverse]
  · rw [newest_eq h.ringed, h.stored, List.getLast?_reverse, List.head?_take,
      if_neg (Nat.ne_of_gt hpositive)]
  · rw [isSome_substitute, h.substituted_eq]
  · intro value hvalue
    obtain ⟨hvalid, rfl, -⟩ := substitute_eq_some hvalue
    exact h.prediction_eq hvalid
  · exact ⟨h.valid_observe hpositive hlimit time value nextTime,
      (h.observe hpositive hlimit time value nextTime).1,
      h.forecast_observe hpositive time value nextTime limit⟩

/-- After a single value has stood in with a limit of one, nothing else stands in, and the next
observation gives a last forecast and makes the predictor start over. -/
theorem answers_of_past_limit_one :
    let p := ((empty 2).run 1 [.observe 0 1 1, .observe 1 2 2, .substitute]).2
    2 ≤ 2 ∧ 0 < 1 ∧ p.oldest = some ⟨0, 1⟩ ∧ (p.substitute 1).1 = none ∧
      (p.observe 2 3 3 1).1.isSome = true ∧ (p.observe 2 3 3 1).2.valid = false := by
  obtain ⟨⟨-, holdest, -⟩, -, hstands, -, hobserve⟩ := answers_of_past (by decide : 2 ≤ 2)
    (by decide : 0 < 1) [.observe 0 1 1, .observe 1 2 2, .substitute]
  obtain ⟨hvalid, hreset, hforecast, -⟩ := hobserve 2 3 3
  refine ⟨by decide, by decide, holdest, ?_, hforecast.mpr (by decide), ?_⟩
  · exact Option.not_isSome_iff_eq_none.mp fun hsome =>
      absurd (hstands.mp hsome).2 (by decide)
  · exact Bool.eq_false_iff.mpr fun h =>
      absurd (hreset.mpr (by decide)) (by rw [(hvalid.mp h).2]; decide)

end Predictor

end Rollup
