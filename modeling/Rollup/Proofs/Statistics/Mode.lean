import Rollup.Proofs.Number.Comparison
import Rollup.Statistics.Mode

/-! The mode of a batch in ascending order. Equal values stand together in it, so that a value
occurs as often as its run is long, and of several runs of one length the first has the lowest
value. -/
namespace Rollup.Mode

deriving instance DecidableEq for Mode

/-- How often a value occurs. Both zeros are one value. -/
def occurrences (xs : List Float) (x : Float) : Nat := xs.countP (· == x)

/-- A value that repeats and occurs as often as any, the lowest of those that do. Of values that are
equal it is the one that comes first. -/
structure IsModeOf (xs : List Float) (m : Mode) : Prop where
  repeats : 2 ≤ m.count
  count : occurrences xs m.value = m.count
  most : ∀ x ∈ xs, occurrences xs x ≤ m.count
  lowest : ∀ x ∈ xs, occurrences xs x = m.count → m.value ≤ x
  first : xs.find? (· == m.value) = some m.value

def Settles (xs : List Float) : Option Mode → Prop
  | none => ∀ x ∈ xs, occurrences xs x ≤ 1
  | some m => IsModeOf xs m

structure Ends (lower block : List Float) (run : Mode) : Prop where
  finite : ∀ x ∈ lower ++ block, x.isFinite
  head : block.head? = some run.value
  count : block.length = run.count
  equal : ∀ x ∈ block, x.place = run.value.place
  lower : ∀ x ∈ lower, x.place < run.value.place

variable {xs lower block rest : List Float} {best : Option Mode} {run m : Mode} {x : Float}

theorem occurrences_append (xs ys : List Float) (x : Float) :
    occurrences (xs ++ ys) x = occurrences xs x + occurrences ys x :=
  List.countP_append

theorem IsModeOf.mem (h : IsModeOf xs m) : m.value ∈ xs := List.mem_of_find?_eq_some h.first

theorem IsModeOf.exists_repeated (h : IsModeOf xs m) : ∃ x ∈ xs, 1 < occurrences xs x :=
  ⟨m.value, h.mem, h.count ▸ h.repeats⟩

theorem IsModeOf.eq {m' : Mode} (hfinite : ∀ x ∈ xs, x.isFinite) (h : IsModeOf xs m)
    (h' : IsModeOf xs m') : m = m' := by
  have hfin := hfinite _ h.mem
  have hfin' := hfinite _ h'.mem
  have hcount : m.count = m'.count :=
    Nat.le_antisymm (h.count ▸ h'.most _ h.mem) (h'.count ▸ h.most _ h'.mem)
  have hle : m.value ≤ m'.value := h.lowest _ h'.mem (h'.count.trans hcount.symm)
  have hge : m'.value ≤ m.value := h'.lowest _ h.mem (h.count.trans hcount)
  rw [Float.le_iff_place hfin hfin'] at hle
  rw [Float.le_iff_place hfin' hfin] at hge
  have hsame : xs.find? (· == m.value) = xs.find? (· == m'.value) := by
    refine List.find?_congr fun x hx => ?_
    rw [Bool.eq_iff_iff, Float.beq_iff_place (hfinite x hx) hfin,
      Float.beq_iff_place (hfinite x hx) hfin', Int.le_antisymm hle hge]
  have hvalue : some m.value = some m'.value := h.first.symm.trans (hsame.trans h'.first)
  obtain ⟨value, count⟩ := m
  cases hcount
  cases hvalue
  rfl

namespace Ends

theorem value_mem (h : Ends lower block run) : run.value ∈ block := List.mem_of_head? h.head

theorem finite_value (h : Ends lower block run) : run.value.isFinite :=
  h.finite _ (List.mem_append_right _ h.value_mem)

theorem occurrences_lower (h : Ends lower block run) (hx : x ∈ lower) :
    occurrences (lower ++ block) x = occurrences lower x := by
  have hnone : occurrences block x = 0 := by
    refine List.countP_eq_zero.mpr fun y hy heq => ?_
    rw [Float.beq_iff_place (h.finite y (List.mem_append_right _ hy))
      (h.finite x (List.mem_append_left _ hx)), h.equal y hy] at heq
    exact (h.lower x hx).ne' heq
  rw [occurrences_append, hnone, Nat.add_zero]

theorem occurrences_block (h : Ends lower block run) (hx : x ∈ block) :
    occurrences (lower ++ block) x = run.count := by
  have hfinite := h.finite x (List.mem_append_right _ hx)
  have hnone : occurrences lower x = 0 := by
    refine List.countP_eq_zero.mpr fun y hy heq => ?_
    rw [Float.beq_iff_place (h.finite y (List.mem_append_left _ hy)) hfinite, h.equal x hx] at heq
    exact (h.lower y hy).ne heq
  have hall : occurrences block x = block.length := by
    refine List.countP_eq_length.mpr fun y hy => ?_
    rw [Float.beq_iff_place (h.finite y (List.mem_append_right _ hy)) hfinite, h.equal y hy,
      h.equal x hx]
  rw [occurrences_append, hnone, hall, Nat.zero_add, h.count]

theorem find_value (h : Ends lower block run) :
    (lower ++ block).find? (· == run.value) = some run.value := by
  have hnone : lower.find? (· == run.value) = none := by
    refine List.find?_eq_none.mpr fun y hy heq => ?_
    rw [Float.beq_iff_place (h.finite y (List.mem_append_left _ hy)) h.finite_value] at heq
    exact (h.lower y hy).ne heq
  obtain ⟨tail, hblock⟩ := List.head?_eq_some_iff.mp h.head
  have hself : run.value == run.value := (Float.beq_iff_place h.finite_value h.finite_value).mpr rfl
  rw [List.find?_append, hnone, Option.none_or, hblock]
  exact List.find?_cons_of_pos hself

theorem isModeOf_run (h : Ends lower block run) (hrepeats : 1 < run.count)
    (hfewer : ∀ x ∈ lower, occurrences lower x < run.count) : IsModeOf (lower ++ block) run where
  repeats := hrepeats
  count := h.occurrences_block h.value_mem
  most x hx := by
    rcases List.mem_append.mp hx with hlower | hblock
    · rw [h.occurrences_lower hlower]
      exact (hfewer x hlower).le
    · exact (h.occurrences_block hblock).le
  lowest x hx hcount := by
    rcases List.mem_append.mp hx with hlower | hblock
    · rw [h.occurrences_lower hlower] at hcount
      exact absurd hcount (hfewer x hlower).ne
    · rw [Float.le_iff_place h.finite_value (h.finite x hx), h.equal x hblock]
  first := h.find_value

theorem isModeOf_before (h : Ends lower block run) (hbest : IsModeOf lower m)
    (hlonger : run.count ≤ m.count) : IsModeOf (lower ++ block) m where
  repeats := hbest.repeats
  count := (h.occurrences_lower hbest.mem).trans hbest.count
  most x hx := by
    rcases List.mem_append.mp hx with hlower | hblock
    · rw [h.occurrences_lower hlower]
      exact hbest.most x hlower
    · rwa [h.occurrences_block hblock]
  lowest x hx hcount := by
    rcases List.mem_append.mp hx with hlower | hblock
    · rw [h.occurrences_lower hlower] at hcount
      exact hbest.lowest x hlower hcount
    · rw [Float.le_iff_place (h.finite _ (List.mem_append_left _ hbest.mem)) (h.finite x hx),
        h.equal x hblock]
      exact (h.lower _ hbest.mem).le
  first := by rw [List.find?_append, hbest.first, Option.some_or]

theorem settles_better (h : Ends lower block run) (hbest : Settles lower best) :
    Settles (lower ++ block) (better best run) := by
  unfold better
  cases best with
  | none =>
    split
    · rename_i hlonger
      have hrepeats : 1 < run.count := by simpa using hlonger
      exact h.isModeOf_run hrepeats fun x hx => (hbest x hx).trans_lt hrepeats
    · rename_i hsingle
      have hle : run.count ≤ 1 := by simpa using hsingle
      intro x hx
      rcases List.mem_append.mp hx with hlower | hblock
      · rw [h.occurrences_lower hlower]
        exact hbest x hlower
      · rwa [h.occurrences_block hblock]
  | some m =>
    have hm : IsModeOf lower m := hbest
    split
    · rename_i hlonger
      obtain ⟨hrepeats, hmore⟩ : 1 < run.count ∧ m.count < run.count := by simpa using hlonger
      exact h.isModeOf_run hrepeats fun x hx => (hm.most x hx).trans_lt hmore
    · rename_i hshorter
      have hle : run.count ≤ m.count := by
        have := hm.repeats
        simp only [Option.all_some, Bool.and_eq_true, decide_eq_true_eq, not_and] at hshorter
        omega
      exact h.isModeOf_before hm hle

theorem extend (h : Ends lower block run) (hfinite : x.isFinite) (heq : x == run.value) :
    Ends lower (block ++ [x]) { run with count := run.count + 1 } where
  finite y hy := by
    rw [← List.append_assoc, List.mem_append, List.mem_singleton] at hy
    exact hy.elim (h.finite y) (· ▸ hfinite)
  head := by rw [List.head?_append, h.head, Option.some_or]
  count := by rw [List.length_append, h.count, List.length_singleton]
  equal y hy := by
    rw [List.mem_append, List.mem_singleton] at hy
    exact hy.elim (h.equal y) (· ▸ (Float.beq_iff_place hfinite h.finite_value).mp heq)
  lower := h.lower

theorem next (h : Ends lower block run) (hfinite : x.isFinite)
    (hle : run.value.place ≤ x.place) (hne : ¬ x == run.value) :
    Ends (lower ++ block) [x] ⟨x, 1⟩ := by
  rw [Float.beq_iff_place hfinite h.finite_value] at hne
  have hlt : run.value.place < x.place := lt_of_le_of_ne hle (Ne.symm hne)
  exact {
    finite := fun y hy => by
      rw [List.mem_append, List.mem_singleton] at hy
      exact hy.elim (h.finite y) (· ▸ hfinite)
    head := rfl
    count := rfl
    equal := fun y hy => by rw [List.mem_singleton.mp hy]
    lower := fun y hy => (List.mem_append.mp hy).elim (fun hlower => (h.lower y hlower).trans hlt)
      fun hblock => (h.equal y hblock).trans_lt hlt }

end Ends

theorem settles_findFrom (h : Ends lower block run) (hbest : Settles lower best)
    (hfinite : ∀ x ∈ rest, x.isFinite)
    (hsorted : (run.value :: rest).Pairwise fun x y => x.place ≤ y.place) :
    Settles (lower ++ block ++ rest) (findFrom best run rest) := by
  induction rest generalizing lower block best run with
  | nil =>
    rw [List.append_nil]
    exact h.settles_better hbest
  | cons x rest ih =>
    rw [List.forall_mem_cons] at hfinite
    obtain ⟨hfirst, htail⟩ := List.pairwise_cons.mp hsorted
    rw [findFrom, List.append_cons]
    split
    · rename_i heq
      rw [List.append_assoc lower block [x]]
      refine ih (h.extend hfinite.1 heq) hbest hfinite.2 ?_
      exact List.pairwise_cons.mpr ⟨fun y hy => hfirst y (List.mem_cons_of_mem _ hy),
        (List.pairwise_cons.mp htail).2⟩
    · rename_i hne
      exact ih (h.next hfinite.1 (hfirst x List.mem_cons_self) hne) (h.settles_better hbest)
        hfinite.2 htail

theorem settles_find (hfinite : ∀ x ∈ xs, x.isFinite)
    (hsorted : xs.Pairwise fun x y => x.place ≤ y.place) : Settles xs (find xs) := by
  cases xs with
  | nil => exact fun x hx => absurd hx List.not_mem_nil
  | cons x rest =>
    rw [List.forall_mem_cons] at hfinite
    have hstart : Ends [] [x] ⟨x, 1⟩ := {
      finite := fun y hy => by rw [List.mem_singleton.mp hy]; exact hfinite.1
      head := rfl
      count := rfl
      equal := fun y hy => by rw [List.mem_singleton.mp hy]
      lower := fun y hy => absurd hy List.not_mem_nil }
    exact settles_findFrom hstart (fun y hy => absurd hy List.not_mem_nil) hfinite.2 hsorted

/-- Of finite values in total order there is no mode if none repeats, and what is found otherwise is
the lowest of the values that occur most often. -/
theorem find_eq_some_iff (hfinite : ∀ x ∈ xs, x.isFinite)
    (hsorted : xs.Pairwise fun x y => DoubleBits.rank x.toBits ≤ DoubleBits.rank y.toBits) :
    (find xs = none ↔ ∀ x ∈ xs, occurrences xs x ≤ 1) ∧
      ∀ m, find xs = some m ↔ IsModeOf xs m := by
  have hfound := settles_find hfinite (hsorted.imp DoubleBits.place_le_of_rank_le)
  cases hfind : find xs with
  | none =>
    rw [hfind] at hfound
    refine ⟨iff_of_true rfl hfound, fun m => iff_of_false nofun fun h => ?_⟩
    obtain ⟨x, hx, hrepeated⟩ := h.exists_repeated
    exact Nat.not_le.mpr hrepeated (hfound x hx)
  | some found =>
    rw [hfind] at hfound
    have hmode : IsModeOf xs found := hfound
    refine ⟨iff_of_false nofun fun hsingle => ?_, fun m => ⟨?_, fun h => ?_⟩⟩
    · obtain ⟨x, hx, hrepeated⟩ := hmode.exists_repeated
      exact Nat.not_le.mpr hrepeated (hsingle x hx)
    · rintro ⟨⟩
      exact hmode
    · rw [hmode.eq hfinite h]

/-- Two runs of two, the first of them with both zeros. -/
theorem find_eq_some_iff_zeros :
    let xs : List Float := [-1, -0.0, 0, 2.5, 2.5]
    (∀ x ∈ xs, x.isFinite) ∧
      (xs.Pairwise fun x y => DoubleBits.rank x.toBits ≤ DoubleBits.rank y.toBits) ∧
      find xs = some ⟨-0.0, 2⟩ ∧ IsModeOf xs ⟨-0.0, 2⟩ := by
  intro xs
  have hfinite : ∀ x ∈ xs, x.isFinite := by decide +kernel
  have hsorted : xs.Pairwise fun x y => DoubleBits.rank x.toBits ≤ DoubleBits.rank y.toBits := by
    decide +kernel
  have hfind : find xs = some ⟨-0.0, 2⟩ := by decide +kernel
  exact ⟨hfinite, hsorted, hfind, ((find_eq_some_iff hfinite hsorted).2 _).mp hfind⟩

end Rollup.Mode
