import Mathlib.Data.List.Basic
import Mathlib.Order.Bounds.Basic
import Rollup.Schedule

/-! When ticks are due. They stay on a grid as wide as the period whatever the clock does, and of
the grid a wait leaves out what is over by its last reading of the clock, and no more. -/
namespace Rollup.Schedule

section Start

/-- The multiples of the period, each later by the offset within a period. -/
def grid (period offset : Nat) : Set Nat := {t | ∃ n, t = n * period + offset % period}

def coming (period offset now : Nat) : Set Nat := {t ∈ grid period offset | now < t}

variable {period offset now : Nat}

theorem isLeast_grid_from (hperiod : 0 < period) (offset n : Nat) :
    IsLeast {t ∈ grid period offset | n * period ≤ t} (n * period + offset % period) := by
  have hoffset : offset % period < period := Nat.mod_lt _ hperiod
  refine ⟨⟨⟨n, rfl⟩, Nat.le_add_right _ _⟩, ?_⟩
  rintro t ⟨⟨k, rfl⟩, hfrom⟩
  have hk : n ≤ k := by
    have hlt : n * period < (k + 1) * period := by
      rw [Nat.succ_mul]
      omega
    exact Nat.le_of_lt_succ (Nat.lt_of_mul_lt_mul_right hlt)
  have hle : n * period ≤ k * period := Nat.mul_le_mul_right period hk
  omega

theorem isLeast_coming_of_lt (hperiod : 0 < period) (h : now % period < offset % period) :
    IsLeast (coming period offset now) (now / period * period + offset % period) := by
  have hnow : now / period * period + now % period = now := Nat.div_add_mod' now period
  obtain ⟨hmem, hleast⟩ := isLeast_grid_from hperiod offset (now / period)
  refine ⟨⟨hmem.1, by omega⟩, ?_⟩
  rintro t ⟨hgrid, hlater⟩
  exact hleast ⟨hgrid, by omega⟩

theorem isLeast_coming_of_le (hperiod : 0 < period) (h : offset % period ≤ now % period) :
    IsLeast (coming period offset now) ((now / period + 1) * period + offset % period) := by
  have hnow : now / period * period + now % period = now := Nat.div_add_mod' now period
  have hwithin : now % period < period := Nat.mod_lt _ hperiod
  obtain ⟨hmem, hleast⟩ := isLeast_grid_from hperiod offset (now / period + 1)
  refine ⟨⟨hmem.1, ?_⟩, ?_⟩
  · rw [Nat.succ_mul]
    omega
  · rintro t ⟨⟨n, rfl⟩, hlater⟩
    refine hleast ⟨⟨n, rfl⟩, ?_⟩
    have hn : now / period + 1 ≤ n := by
      by_contra hnot
      have hle : n * period ≤ now / period * period :=
        Nat.mul_le_mul_right period (by omega)
      omega
    have hle := Nat.mul_le_mul_right period hn
    omega

theorem start_of_pos (hperiod : 0 < period) (offset : Nat) (sync : Bool) (now : Nat) :
    start period offset sync now =
      ⟨period, if sync then (now / period + 1) * period + offset % period
        else now + period + offset % period⟩ := by
  have hmax : max 1 period = period := by omega
  rw [start, hmax]

theorem next_start_synced (hperiod : 0 < period) (offset now : Nat) :
    (start period offset true now).next = (now / period + 1) * period + offset % period := by
  simp only [start_of_pos hperiod, if_true]

/-- In sync, the first tick is the least time on the grid after the period that is under way, so it
is the next one on the grid only if that period has none to come any more, and otherwise a period
late. Out of sync, the offset within the period is added to the period. -/
theorem first_tick (hperiod : 0 < period) (offset now : Nat) :
    IsLeast {t ∈ grid period offset | (now / period + 1) * period ≤ t}
        (start period offset true now).next ∧
      (IsLeast (coming period offset now) (start period offset true now).next ↔
        offset % period ≤ now % period) ∧
      (now % period < offset % period →
        IsLeast (coming period offset now) ((start period offset true now).next - period) ∧
          now + period < (start period offset true now).next) ∧
      (start period offset false now).next = now + period + offset % period ∧
      ((start period offset false now).next = now + period ↔ period ∣ offset) := by
  have hfree : (start period offset false now).next = now + period + offset % period := by
    simp only [start_of_pos hperiod, Bool.false_eq_true, if_false]
  have hlate : (now / period + 1) * period + offset % period =
      now / period * period + offset % period + period := by
    rw [Nat.succ_mul]
    omega
  have hnow : now / period * period + now % period = now := Nat.div_add_mod' now period
  rw [next_start_synced hperiod, hfree]
  refine ⟨isLeast_grid_from hperiod offset _, ⟨?_, isLeast_coming_of_le hperiod⟩, ?_, rfl, ?_⟩
  · intro hleast
    by_contra hbefore
    have hearlier := (isLeast_coming_of_lt hperiod (Nat.lt_of_not_le hbefore)).unique hleast
    omega
  · intro hbefore
    rw [hlate, Nat.add_sub_cancel]
    exact ⟨isLeast_coming_of_lt hperiod hbefore, by omega⟩
  · rw [Nat.dvd_iff_mod_eq_zero]
    omega

/-- A schedule made half a second before a time of the grid. -/
theorem first_tick_half : 0 < 1000 ∧ 5000 % 1000 < 1500 % 1000 ∧
    IsLeast (coming 1000 1500 5000) 5500 ∧ (start 1000 1500 true 5000).next = 6500 ∧
    (start 1000 1500 false 5000).next = 6500 := by
  have hperiod : 0 < 1000 := by decide
  have hbefore : 5000 % 1000 < 1500 % 1000 := by decide
  obtain ⟨-, -, hlate, hfree, -⟩ := first_tick hperiod 1500 5000
  exact ⟨hperiod, hbefore, (hlate hbefore).1, rfl, hfree⟩

/-- With almost a whole period of offset, the first tick is up to two periods away, in sync and out
of sync. -/
theorem first_tick_overdue : ¬ IsLeast (coming 1000 999 0) (start 1000 999 true 0).next ∧
    (start 1000 999 false 0).next ≠ 0 + 1000 := by
  have hcoming : 999 ∈ coming 1000 999 0 := ⟨⟨0, rfl⟩, by decide⟩
  refine ⟨fun hleast => ?_, by decide⟩
  have hle : (start 1000 999 true 0).next ≤ 999 := hleast.2 hcoming
  exact absurd hle (by decide)

end Start

section Waits

variable {s s' : Schedule} {readings rest : List Nat} {tick : Nat}

theorem wait?_eq_some (h : wait? readings s = some (tick, s', rest)) :
    ∃ early due last, readings = early ++ due :: last :: rest ∧ (∀ now ∈ early, now < s.next) ∧
      s.next ≤ due ∧ tick = s.next ∧ s' = s.fire.2.skip (s.fire.2.missed last) := by
  fun_induction wait? readings s with
  | case1 => cases h
  | case2 => cases h
  | case3 due s hdue last readings tick' s'' hfire =>
    cases h
    cases hfire
    exact ⟨[], due, last, rfl, by simp, of_decide_eq_true hdue, rfl, rfl⟩
  | case4 now readings s hearly ih =>
    obtain ⟨early, due, last, rfl, hearlier, hrest⟩ := ih h
    have hnow : now < s.next := by simpa [isDue] using hearly
    exact ⟨now :: early, due, last, rfl, List.forall_mem_cons.mpr ⟨hnow, hearlier⟩, hrest⟩

theorem wait?_eq_none (h : wait? readings s = none) : ∀ now ∈ readings.dropLast, now < s.next := by
  fun_induction wait? readings s with
  | case1 => simp
  | case2 => simp
  | case3 => cases h
  | case4 now readings s hearly ih =>
    have hnow : now < s.next := by simpa [isDue] using hearly
    cases readings with
    | nil => simp
    | cons after readings =>
      rw [List.dropLast_cons_cons]
      exact List.forall_mem_cons.mpr ⟨hnow, ih h⟩

theorem length_lt_of_wait? (h : wait? readings s = some (tick, s', rest)) :
    rest.length < readings.length := by
  obtain ⟨early, due, last, rfl, -⟩ := wait?_eq_some h
  simp only [List.length_append, List.length_cons]
  omega

theorem lt_missed_iff (hperiod : 0 < s.period) (now n : Nat) :
    n < s.missed now ↔ s.next + n * s.period ≤ now := by
  by_cases hdue : s.next ≤ now
  · rw [missed, isDue, if_pos (decide_eq_true hdue), Nat.lt_succ_iff,
      Nat.le_div_iff_mul_le hperiod]
    omega
  · rw [missed, isDue, if_neg (mt of_decide_eq_true hdue)]
    omega

theorem isLeast_next (hperiod : 0 < s.period) (last : Nat) :
    IsLeast {t | last < t ∧ ∃ n, 0 < n ∧ t = s.next + n * s.period}
      (s.fire.2.skip (s.fire.2.missed last)).next := by
  have hover : ∀ n, n < s.fire.2.missed last ↔ s.next + s.period + n * s.period ≤ last :=
    fun n => lt_missed_iff (s := s.fire.2) hperiod last n
  have hnext : (s.fire.2.skip (s.fire.2.missed last)).next =
      s.next + (s.fire.2.missed last + 1) * s.period := by
    rw [Nat.succ_mul, Nat.add_comm (_ * _), ← Nat.add_assoc]
    rfl
  rw [hnext]
  refine ⟨⟨?_, _, Nat.succ_pos _, rfl⟩, ?_⟩
  · have hlast := mt (hover (s.fire.2.missed last)).mpr (Nat.lt_irrefl _)
    rw [Nat.succ_mul]
    omega
  · rintro t ⟨hlater, n, hn, rfl⟩
    cases n with
    | zero => exact absurd hn (Nat.lt_irrefl 0)
    | succ n =>
      rw [Nat.succ_mul] at hlater ⊢
      have hn : ¬ n < s.fire.2.missed last := by
        rw [hover]
        omega
      have hle := Nat.mul_le_mul_right s.period (Nat.le_of_not_lt hn)
      rw [Nat.succ_mul]
      omega

/-- If the clock did not go back before the tick, the next one is no more than a period away. -/
theorem next_le (hperiod : 0 < s.period) {last : Nat} (hlast : s.next ≤ last) :
    (s.fire.2.skip (s.fire.2.missed last)).next ≤ last + s.period := by
  change s.next + s.period + s.fire.2.missed last * s.period ≤ last + s.period
  cases hmissed : s.fire.2.missed last with
  | zero =>
    rw [Nat.zero_mul]
    omega
  | succ n =>
    have hover : s.next + s.period + n * s.period ≤ last :=
      (lt_missed_iff (s := s.fire.2) hperiod last n).mp (hmissed ▸ Nat.lt_succ_self n)
    rw [Nat.succ_mul]
    omega

end Waits

structure Wait where
  /-- What the clock read. -/
  readings : List Nat
  tick : Nat
  /-- When the tick after it is due. -/
  next : Nat
  deriving DecidableEq, Repr

/-- A wait that keeps to the schedule. The first reading that has reached the tick lets it through,
and the one after it tells which tick is next. -/
structure Wait.Punctual (period : Nat) (early : List Nat) (due last : Nat) (w : Wait) : Prop where
  readings : w.readings = early ++ [due, last]
  early : ∀ now ∈ early, now < w.tick
  due : w.tick ≤ due
  next : IsLeast {t | last < t ∧ ∃ n, 0 < n ∧ t = w.tick + n * period} w.next
  soon : w.tick ≤ last → w.next ≤ last + period

def run (readings : List Nat) (s : Schedule) : List Wait :=
  match h : s.wait? readings with
  | none => []
  | some (tick, s', rest) =>
    have := length_lt_of_wait? h
    ⟨readings.take (readings.length - rest.length), tick, s'.next⟩ :: run rest s'
  termination_by readings.length

section Run

variable {s s' : Schedule} {readings rest : List Nat} {tick : Nat}

theorem wait_of_wait? (hperiod : 0 < s.period) (h : wait? readings s = some (tick, s', rest)) :
    tick = s.next ∧ s'.period = s.period ∧ (∃ n, 0 < n ∧ s'.next = s.next + n * s.period) ∧
      ∃ taken early due last, readings = taken ++ rest ∧
        readings.take (readings.length - rest.length) = taken ∧
        Wait.Punctual s.period early due last ⟨taken, tick, s'.next⟩ := by
  obtain ⟨early, due, last, rfl, hearly, hdue, rfl, rfl⟩ := wait?_eq_some h
  have hnext := isLeast_next hperiod last
  have happend : early ++ due :: last :: rest = (early ++ [due, last]) ++ rest := by simp
  refine ⟨rfl, rfl, hnext.1.2, early ++ [due, last], early, due, last, happend, ?_, rfl, hearly,
    hdue, hnext, next_le hperiod⟩
  rw [happend, List.length_append, Nat.add_sub_cancel, List.take_left]

theorem punctual_run (hperiod : 0 < s.period) (readings : List Nat) :
    ∀ w ∈ s.run readings, ∃ early due last, w.Punctual s.period early due last := by
  fun_induction run readings s with
  | case1 => simp
  | case2 readings s tick s' rest h _ ih =>
    obtain ⟨-, hsame, -, taken, early, due, last, -, htaken, hpunctual⟩ := wait_of_wait? hperiod h
    rw [hsame] at ih
    rw [htaken]
    exact List.forall_mem_cons.mpr ⟨⟨early, due, last, hpunctual⟩, ih hperiod⟩

theorem ticks_run (readings : List Nat) (s : Schedule) : (s.run readings).map Wait.tick =
    (s.next :: (s.run readings).map Wait.next).dropLast := by
  fun_induction run readings s with
  | case1 => rfl
  | case2 readings s tick s' rest h _ ih =>
    obtain ⟨-, -, -, -, -, -, rfl, -⟩ := wait?_eq_some h
    rw [List.map_cons, List.map_cons, List.dropLast_cons_cons, ih]

theorem readings_run (hperiod : 0 < s.period) (readings : List Nat) :
    ∃ rest, readings = (s.run readings).flatMap Wait.readings ++ rest ∧
      ∀ now ∈ rest.dropLast, now < ((s.run readings).map Wait.next).getLastD s.next := by
  fun_induction run readings s with
  | case1 readings s h => exact ⟨readings, rfl, wait?_eq_none h⟩
  | case2 readings s tick s' rest h _ ih =>
    obtain ⟨-, hsame, -, taken, -, -, -, hreadings, htaken, -⟩ := wait_of_wait? hperiod h
    rw [hsame] at ih
    obtain ⟨left, hleft, hearly⟩ := ih hperiod
    refine ⟨left, ?_, ?_⟩
    · rw [List.flatMap_cons, htaken, List.append_assoc, ← hleft, hreadings]
    · rwa [List.map_cons, List.getLastD_cons]

theorem exists_tick_eq (hperiod : 0 < s.period) (readings : List Nat) :
    ∀ w ∈ s.run readings, ∃ n, w.tick = s.next + n * s.period := by
  fun_induction run readings s with
  | case1 => simp
  | case2 readings s tick s' rest h _ ih =>
    obtain ⟨rfl, hsame, ⟨n, -, hnext⟩, -⟩ := wait_of_wait? hperiod h
    rw [hsame] at ih
    refine List.forall_mem_cons.mpr ⟨⟨0, by simp⟩, fun w hw => ?_⟩
    obtain ⟨k, hk⟩ := ih hperiod w hw
    exact ⟨n + k, by rw [hk, hnext, Nat.add_mul, Nat.add_assoc]⟩

theorem spaced_run (hperiod : 0 < s.period) (readings : List Nat) :
    ((s.run readings).map Wait.tick).Pairwise fun a b => ∃ n, 0 < n ∧ b = a + n * s.period := by
  fun_induction run readings s with
  | case1 => exact .nil
  | case2 readings s tick s' rest h _ ih =>
    obtain ⟨rfl, hsame, ⟨n, hn, hnext⟩, -⟩ := wait_of_wait? hperiod h
    rw [hsame] at ih
    refine List.pairwise_cons.mpr ⟨fun later hlater => ?_, ih hperiod⟩
    obtain ⟨w, hw, rfl⟩ := List.mem_map.mp hlater
    obtain ⟨k, hk⟩ := exists_tick_eq (hsame ▸ hperiod) rest w hw
    exact ⟨n + k, by omega, by rw [hk, hnext, hsame, Nat.add_mul, Nat.add_assoc]⟩

/-- Whatever the clock reads, ticks come at distances of whole periods, each when a reading has
reached it. A wait that ends goes on to the first tick that is later than its last reading, so that
those between are the ones that are over, and none of them is returned. -/
theorem run_keeps_grid {period : Nat} (hperiod : 0 < period) (offset : Nat) (sync : Bool)
    (now : Nat) (readings : List Nat) :
    let s := start period offset sync now
    let waits := s.run readings
    (waits.map Wait.tick).Pairwise (fun a b => ∃ n, 0 < n ∧ b = a + n * period) ∧
      waits.map Wait.tick = (s.next :: waits.map Wait.next).dropLast ∧
      (∀ w ∈ waits, (sync = true → w.tick ∈ grid period offset) ∧
        ∃ early due last, w.Punctual period early due last) ∧
      ∃ rest, readings = waits.flatMap Wait.readings ++ rest ∧
        ∀ now ∈ rest.dropLast, now < (waits.map Wait.next).getLastD s.next := by
  intro s waits
  have hsame : s.period = period := by simp only [s, start_of_pos hperiod]
  have hpos : 0 < s.period := hsame ▸ hperiod
  rw [← hsame]
  refine ⟨spaced_run hpos readings, ticks_run readings s, fun w hw => ⟨?_, ?_⟩,
    readings_run hpos readings⟩
  · rintro rfl
    obtain ⟨n, hn⟩ := exists_tick_eq hpos readings w hw
    refine ⟨now / period + 1 + n, ?_⟩
    rw [hn, next_start_synced hperiod, hsame, Nat.add_mul (now / period + 1)]
    omega
  · exact punctual_run hpos readings w hw

/-- The clock goes back after the first tick, and jumps over three others after the second. -/
theorem run_keeps_grid_jumping : 0 < 10 ∧
    run [9, 12, 14, 8, 23, 60, 61, 70, 70, 72] (start 10 3 true 7) =
      [⟨[9, 12, 14, 8], 13, 23⟩, ⟨[23, 60], 23, 63⟩, ⟨[61, 70, 70], 63, 73⟩] ∧
    [13, 23, 63].Pairwise (fun a b => ∃ n, 0 < n ∧ b = a + n * 10) ∧
    23 ∈ grid 10 3 ∧ ∃ early due last, Wait.Punctual 10 early due last ⟨[23, 60], 23, 63⟩ := by
  have hperiod : 0 < 10 := by decide
  have hrun : run [9, 12, 14, 8, 23, 60, 61, 70, 70, 72] (start 10 3 true 7) =
      [⟨[9, 12, 14, 8], 13, 23⟩, ⟨[23, 60], 23, 63⟩, ⟨[61, 70, 70], 63, 73⟩] := by
    decide +kernel
  have hkeeps := run_keeps_grid hperiod 3 true 7 [9, 12, 14, 8, 23, 60, 61, 70, 70, 72]
  simp only [hrun] at hkeeps
  obtain ⟨hspaced, -, hwaits, -⟩ := hkeeps
  have hsecond := hwaits ⟨[23, 60], 23, 63⟩ (by simp)
  exact ⟨hperiod, hrun, hspaced, hsecond.1 trivial, hsecond.2⟩

end Run

end Rollup.Schedule
