import Rollup.Proofs.Sorting.Arrangement

/-! Quicksort never leaves its array and sorts it. No scan runs out, since the walls that it closes
in on stay behind it: keys that are not above the pivot below `left`, and keys that are not below it
above `right`. -/
namespace Rollup.Sorting

variable {keys : Array UInt64} {pivot : UInt64} {low high left right middle : Nat}

theorem scanUp_spec (i stop : Nat) (hi : i ≤ stop) (hstop : stop < keys.size)
    (hwall : pivot ≤ keys[stop]!) :
    ∃ j, scanUp keys pivot i = some j ∧ i ≤ j ∧ j ≤ stop ∧ pivot ≤ keys[j]! ∧
      ∀ k, i ≤ k → k < j → keys[k]! ≤ pivot := by
  induction i using scanUp.induct keys pivot with
  | case1 i hsize hbelow ih =>
    have hne : i ≠ stop := by grind
    obtain ⟨j, hj, hij, hrest⟩ := ih (by omega)
    refine ⟨j, ?_, by omega, hrest.1, hrest.2.1, ?_⟩
    · rw [scanUp, dif_pos hsize, if_pos hbelow, hj]
    · intro k hk hkj
      by_cases hki : k = i
      · grind
      · exact hrest.2.2 k (by omega) hkj
  | case2 i hsize hbelow =>
    refine ⟨i, ?_, Nat.le_refl i, hi, ?_, ?_⟩
    · rw [scanUp, dif_pos hsize, if_neg hbelow]
    · grind
    · intro k hk hki
      omega
  | case3 i hsize => exact absurd (by omega) hsize

theorem scanDown_spec (i stop : Nat) (hi : stop ≤ i) (hsize : i < keys.size)
    (hwall : keys[stop]! ≤ pivot) :
    ∃ j, scanDown keys pivot i = some j ∧ stop ≤ j ∧ j ≤ i ∧ keys[j]! ≤ pivot ∧
      ∀ k, j < k → k ≤ i → pivot ≤ keys[k]! := by
  induction i with
  | zero =>
    have hstop : stop = 0 := by omega
    subst hstop
    refine ⟨0, ?_, Nat.le_refl 0, Nat.le_refl 0, hwall, ?_⟩
    · simp only [scanDown]
      grind
    · intro k hk hk0
      omega
  | succ i ih =>
    simp only [scanDown, Array.getElem?_eq_getElem hsize]
    split_ifs with habove
    · have hne : stop ≠ i + 1 := by grind
      obtain ⟨j, hj, hstopj, hji, hle, hrest⟩ := ih (by omega) (by omega)
      refine ⟨j, hj, hstopj, by omega, hle, ?_⟩
      intro k hk hki
      by_cases hkey : k = i + 1
      · grind
      · exact hrest k hk (by omega)
    · refine ⟨i + 1, rfl, hi, Nat.le_refl _, by grind, ?_⟩
      intro k hk hki
      omega

structure Walls (keys : Array UInt64) (pivot : UInt64) (low high left right : Nat) : Prop where
  below : ∀ k, low ≤ k → k < left → keys[k]! ≤ pivot
  above : ∀ k, right < k → k ≤ high → pivot ≤ keys[k]!

theorem Walls.mono {left' : Nat} (h : Walls keys pivot low high left right) (hle : left' ≤ left) :
    Walls keys pivot low high left' right :=
  ⟨fun k hk hkl => h.below k hk (Nat.lt_of_lt_of_le hkl hle), h.above⟩

/-- A cut leaves its range in two parts, none of them the whole, and between them perhaps a pivot.
-/
structure Cut.Sound (low high : Nat) (keys : Array UInt64) (c : Cut) : Prop where
  rearranged : Rearranged low high keys c.keys
  lower : low ≤ c.right
  apart : c.right < c.left
  upper : c.left ≤ high
  walls : ∃ pivot, Walls c.keys pivot low high (c.right + 1) c.right

theorem Cut.Sound.trans {keys' : Array UInt64} {c : Cut} (h : Rearranged low high keys keys')
    (hc : c.Sound low high keys') : c.Sound low high keys where
  rearranged := h.trans hc.rearranged
  lower := hc.lower
  apart := hc.apart
  upper := hc.upper
  walls := hc.walls

theorem follow_get! (middle left right : Nat) (hmiddle : middle < keys.size)
    (hleft : left < keys.size)
    (hright : right < keys.size) :
    (keys.swapIfInBounds left right)[follow middle left right]! = keys[middle]! := by
  rw [swap_get! hleft hright, follow]
  grind

theorem Walls.swap (h : Walls keys pivot low high left right)
    (hlr : left < right) (hsize : right < keys.size) (hleft : pivot ≤ keys[left]!)
    (hright : keys[right]! ≤ pivot) :
    Walls (keys.swapIfInBounds left right) pivot low high (left + 1) (right - 1) where
  below k hk hkl := by
    rw [swap_get! (by omega) hsize]
    split_ifs with hkleft hkright
    · exact hright
    · omega
    · exact h.below k hk (by omega)
  above k hkr hk := by
    rw [swap_get! (by omega) hsize]
    split_ifs with hkleft hkright
    · omega
    · exact hleft
    · exact h.above k (by omega) hk

theorem Walls.close {left' right' : Nat} (h : Walls keys pivot low high left right)
    (hleft : ∀ k, left ≤ k → k < left' → keys[k]! ≤ pivot)
    (hright : ∀ k, right' < k → k ≤ right → pivot ≤ keys[k]!) :
    Walls keys pivot low high left' right' where
  below k hk hkl := by
    by_cases hbefore : k < left
    · exact h.below k hk hbefore
    · exact hleft k (by omega) hkl
  above k hkr hk := by
    by_cases hafter : right < k
    · exact h.above k hafter hk
    · exact hright k hkr (by omega)

theorem collapse_sound (fuel : Nat) (hwalls : Walls keys keys[middle]! low high left right)
    (hmiddle : low ≤ middle ∧ middle ≤ high) (hlow : low < left) (hlr : left ≤ right)
    (hhigh : right < high) (hsize : high < keys.size) (hfuel : right - left < fuel) :
    ∃ c, collapse fuel keys middle left right = some c ∧ c.Sound low high keys := by
  induction fuel generalizing keys middle left right with
  | zero => omega
  | succ fuel ih =>
    obtain ⟨i, hup, hli, hiright, hgei, hbelow⟩ := scanUp_spec left (right + 1)
      (by omega) (by omega) (hwalls.above (right + 1) (by omega) (by omega))
    obtain ⟨j, hdown, hleftj, hjr, hlej, habove⟩ := scanDown_spec right (left - 1)
      (by omega) (by omega) (hwalls.below (left - 1) (by omega) (by omega))
    have hclosed := hwalls.close hbelow habove
    have hpivot : keys[middle]? = some keys[middle]! := by grind
    simp only [collapse, hpivot, hup, hdown, Option.bind_eq_bind, Option.bind_some]
    split_ifs with hij hmet heq
    · have hswapped := hclosed.swap hij (by omega) hgei hlej
      exact ⟨_, rfl, {
        rearranged := Rearranged.refl.swap (by omega) (by omega)
        lower := show low ≤ j - 1 by omega
        apart := show j - 1 < i + 1 by omega
        upper := show i + 1 ≤ high by omega
        walls := ⟨_, hswapped.mono (show j - 1 + 1 ≤ i + 1 by omega)⟩ }⟩
    · have hpivot' : (keys.swapIfInBounds i j)[follow middle i j]! = keys[middle]! :=
        follow_get! middle i j (by omega) (by omega) (by omega)
      have hswapped := hclosed.swap hij (by omega) hgei hlej
      rw [← hpivot'] at hswapped
      obtain ⟨c, hc, hsound⟩ := ih hswapped
        (by unfold follow; split_ifs <;> omega) (by omega) (by omega) (by omega)
        (by rw [Array.size_swapIfInBounds]; exact hsize) (by omega)
      exact ⟨c, hc, hsound.trans (Rearranged.refl.swap (by omega) (by omega))⟩
    · -- both scans stop at one key, which is equal to the pivot and belongs to neither part
      have hstopped : Walls keys keys[middle]! low high i (j - 1) :=
        hclosed.close (by omega) fun k hkj hk => by
          have hkey : k = i := by omega
          rw [hkey]
          exact hgei
      exact ⟨_, rfl, {
        rearranged := .refl
        lower := show low ≤ j - 1 by omega
        apart := show j - 1 < i + 1 by omega
        upper := show i + 1 ≤ high by omega
        walls := ⟨_, hstopped.mono (show j - 1 + 1 ≤ i by omega)⟩ }⟩
    · exact ⟨_, rfl, {
        rearranged := .refl
        lower := show low ≤ j by omega
        apart := show j < i by omega
        upper := show i ≤ high by omega
        walls := ⟨_, hclosed.mono (show j + 1 ≤ i by omega)⟩ }⟩

theorem order_eq {i j : Nat} (hi : i < keys.size) (hj : j < keys.size) :
    order keys i j = some (if keys[j]! < keys[i]! then keys.swapIfInBounds i j else keys) := by
  have hifst : keys[i]? = some keys[i]! := by grind
  have hjsnd : keys[j]? = some keys[j]! := by grind
  simp only [order, hifst, hjsnd, Option.bind_eq_bind, Option.bind_some, Option.pure_def]

theorem order_spec {i j : Nat} (hi : low ≤ i ∧ i ≤ high) (hj : low ≤ j ∧ j ≤ high)
    (hsize : high < keys.size) :
    ∃ ordered, order keys i j = some ordered ∧ Rearranged low high keys ordered ∧
      ordered[i]! ≤ ordered[j]! ∧ ∀ bound, keys[i]! ≤ bound → keys[j]! ≤ bound →
        ordered[j]! ≤ bound := by
  refine ⟨_, order_eq (by omega) (by omega), ?_, ?_, ?_⟩
  · split_ifs
    · exact Rearranged.refl.swap hi hj
    · exact .refl
  · grind
  · grind

theorem medianOfThree_spec (hlow : low < middle) (hhigh : middle < high)
    (hsize : high < keys.size) :
    ∃ ordered, medianOfThree keys low middle high = some ordered ∧
      Rearranged low high keys ordered ∧
      ordered[low]! ≤ ordered[middle]! ∧ ordered[middle]! ≤ ordered[high]! := by
  obtain ⟨ordered, horder, hrearranged, hle, -⟩ := order_spec
    (show low ≤ low ∧ low ≤ high by omega) (show low ≤ middle ∧ middle ≤ high by omega) hsize
  have hsize' := hrearranged.size
  have hmiddle : ordered[middle]? = some ordered[middle]! := by grind
  have hlast : ordered[high]? = some ordered[high]! := by grind
  simp only [medianOfThree, horder, hmiddle, hlast, Option.bind_eq_bind, Option.bind_some]
  split_ifs with habove
  · have hswapped := hrearranged.swap (i := middle) (j := high) (by omega) (by omega)
    have hinner : middle < (ordered.swapIfInBounds middle high).size := by
      rw [hswapped.size]
      omega
    obtain ⟨last, hagain, hlast, hbelow, hbound⟩ := order_spec
      (show low ≤ low ∧ low ≤ middle by omega) (show low ≤ middle ∧ middle ≤ middle by omega) hinner
    refine ⟨last, hagain, hswapped.trans (hlast.mono (Nat.le_refl low) (by omega)), hbelow, ?_⟩
    rw [hlast.get!_outside (k := high) (by omega)]
    exact hbound _ (by grind) (by grind)
  · exact ⟨ordered, rfl, hrearranged, hle, by grind⟩

theorem partition_sound (hspan : low + 2 ≤ high) (hsize : high < keys.size) :
    ∃ c, partition keys low high = some c ∧ c.Sound low high keys := by
  have hlow : low < low + (high - low) / 2 := by omega
  have hhigh : low + (high - low) / 2 < high := by omega
  obtain ⟨ordered, hordered, hrearranged, hbelow, habove⟩ := medianOfThree_spec hlow hhigh hsize
  have hwalls : Walls ordered ordered[low + (high - low) / 2]! low high (low + 1) (high - 1) := by
    constructor
    · intro k hk hkl
      rwa [show k = low by omega]
    · intro k hkr hk
      rwa [show k = high by omega]
  have hsize' := hrearranged.size
  obtain ⟨c, hc, hsound⟩ := collapse_sound ordered.size hwalls (by omega) (by omega)
    (by omega) (by omega) (by omega) (by omega)
  refine ⟨c, ?_, hsound.trans hrearranged⟩
  simp only [partition, hordered, Option.bind_eq_bind, Option.bind_some, hc]

def Leads (keys : Array UInt64) (r : Nat) : Prop :=
  ∀ i j, i ≤ r → r < j → j < keys.size → keys[i]! ≤ keys[j]!

/-- What partitioning keeps true: the least keys stand up to some `r`, and if these are not few they
are a range of the work, which has no other range among them. -/
structure Underway (keys : Array UInt64) (work : List (Nat × Nat)) : Prop where
  wide : ∀ range ∈ work, range.1 + smallSpan ≤ range.2 ∧ range.2 < keys.size
  front : ∃ r, r < keys.size ∧ Leads keys r ∧ (r ≤ smallSpan ∨ (0, r) ∈ work) ∧
    ∀ range ∈ work.erase (0, r), r < range.1

variable {work rest : List (Nat × Nat)} {c : Cut}

theorem Underway.perm {work' : List (Nat × Nat)} (h : Underway keys work)
    (hperm : work.Perm work') :
    Underway keys work' := by
  obtain ⟨r, hr, hleads, hfew, hothers⟩ := h.front
  exact ⟨fun range hrange => h.wide range (hperm.mem_iff.mpr hrange), r, hr, hleads,
    hfew.imp_right hperm.mem_iff.mp,
    fun range hrange => hothers range ((hperm.erase (0, r)).mem_iff.mpr hrange)⟩

def wideParts (low left right high : Nat) : List (Nat × Nat) :=
  [(low, right), (left, high)].filter fun range => smallSpan < range.2 - range.1

theorem pending_perm (low left right high : Nat) :
    (pending low left right high).Perm (wideParts low left right high) := by
  simp only [pending, wideParts, List.filter_cons, List.filter_nil, decide_eq_true_eq,
    ← Nat.not_le]
  split_ifs <;> first | exact .refl _ | exact List.Perm.swap ..

theorem mem_wideParts {range : Nat × Nat} : range ∈ wideParts low left right high ↔
    (range = (low, right) ∨ range = (left, high)) ∧ smallSpan < range.2 - range.1 := by
  simp [wideParts, List.mem_filter]

theorem Leads.rearranged {keys' : Array UInt64} {r : Nat} (h : Leads keys r)
    (hrearranged : Rearranged low high keys keys') (hsize : high < keys.size)
    (hside : high ≤ r ∨ r < low) : Leads keys' r := by
  intro i j hi hrj hj
  rw [hrearranged.size] at hj
  rcases hside with hhigh | hlow
  · rw [hrearranged.get!_outside (k := j) (by omega)]
    by_cases hin : low ≤ i ∧ i ≤ high
    · exact hrearranged.forall_range (P := (· ≤ keys[j]!)) hsize
        (fun k _ hk => h k j (by omega) hrj hj) i hin.1 hin.2
    · rw [hrearranged.get!_outside (by omega)]
      exact h i j hi hrj hj
  · rw [hrearranged.get!_outside (k := i) (by omega)]
    by_cases hin : low ≤ j ∧ j ≤ high
    · exact hrearranged.forall_range (P := (keys[i]! ≤ ·)) hsize
        (fun k hk hkh => h i k hi (by omega) (by omega)) j hin.1 hin.2
    · rw [hrearranged.get!_outside (by omega)]
      exact h i j hi hrj hj

theorem Cut.Sound.leads (hc : c.Sound 0 high keys) (h : Leads keys high)
    (hsize : high < keys.size) : Leads c.keys c.right := by
  obtain ⟨pivot, hwalls⟩ := hc.walls
  have happart := hc.apart
  have hupper := hc.upper
  intro i j hi hrj hj
  by_cases hin : j ≤ high
  · exact UInt64.le_trans (hwalls.below i (by omega) (by omega)) (hwalls.above j hrj hin)
  · exact h.rearranged hc.rearranged hsize (.inl (Nat.le_refl _)) i j (by omega) (by omega) hj

theorem Underway.wide_cut (h : Underway keys ((low, high) :: rest)) (hc : c.Sound low high keys) :
    ∀ range ∈ wideParts low c.left c.right high ++ rest,
      range.1 + smallSpan ≤ range.2 ∧ range.2 < c.keys.size := by
  obtain ⟨-, hsize⟩ := h.wide (low, high) List.mem_cons_self
  have happart := hc.apart
  have hupper := hc.upper
  intro range hrange
  rw [hc.rearranged.size]
  rcases List.mem_append.mp hrange with hpart | hrest
  · obtain ⟨rfl | rfl, hpart⟩ := mem_wideParts.mp hpart
    · simp only at hpart hsize ⊢
      omega
    · simp only at hpart hsize ⊢
      omega
  · exact h.wide range (List.mem_cons_of_mem _ hrest)

theorem front_wideParts (happart : right < left)
    (hrest : ∀ range ∈ rest, right < range.1) :
    (right ≤ smallSpan ∨ (0, right) ∈ wideParts 0 left right high ++ rest) ∧
      ∀ range ∈ (wideParts 0 left right high ++ rest).erase (0, right), right < range.1 := by
  by_cases hsmall : right ≤ smallSpan
  · refine ⟨.inl hsmall, fun range hrange => ?_⟩
    rcases List.mem_append.mp (List.mem_of_mem_erase hrange) with hpart | hpart
    · obtain ⟨rfl | rfl, hpart⟩ := mem_wideParts.mp hpart
      · simp only at hpart
        omega
      · exact happart
    · exact hrest range hpart
  · have hparts : wideParts 0 left right high =
        (0, right) :: [(left, high)].filter fun range => smallSpan < range.2 - range.1 := by
      simp [wideParts, Nat.not_le.mp hsmall]
    rw [hparts, List.cons_append, List.erase_cons_head]
    refine ⟨.inr List.mem_cons_self, fun range hrange => ?_⟩
    rcases List.mem_append.mp hrange with hpart | hpart
    · rw [List.mem_singleton.mp (List.mem_filter.mp hpart).1]
      exact happart
    · exact hrest range hpart

theorem beyond_wideParts {r : Nat} (hlow : r < low) (hleft : low ≤ left)
    (hrest : ∀ range ∈ rest.erase (0, r), r < range.1) :
    ∀ range ∈ (wideParts low left right high ++ rest).erase (0, r), r < range.1 := by
  have hpart : ∀ range ∈ wideParts low left right high, r < range.1 := by
    intro range hrange
    obtain ⟨rfl | rfl, -⟩ := mem_wideParts.mp hrange
    · exact hlow
    · exact Nat.lt_of_lt_of_le hlow hleft
  rw [List.erase_append_right _ fun hmem => Nat.not_lt_zero _ (hpart _ hmem)]
  intro range hrange
  exact (List.mem_append.mp hrange).elim (hpart range) (hrest range)

theorem Underway.cut (h : Underway keys ((low, high) :: rest)) (hc : c.Sound low high keys) :
    Underway c.keys (pending low c.left c.right high ++ rest) := by
  obtain ⟨-, hsize⟩ := h.wide (low, high) List.mem_cons_self
  obtain ⟨r, hr, hleads, hfew, hothers⟩ := h.front
  have hlower := hc.lower
  have happart := hc.apart
  have hupper := hc.upper
  refine Underway.perm ⟨h.wide_cut hc, ?_⟩
    ((pending_perm low c.left c.right high).symm.append_right rest)
  by_cases hfront : (low, high) = (0, r)
  · -- the front itself is cut, and its lower part is the new front
    cases hfront
    rw [List.erase_cons_head] at hothers
    have hrest : ∀ range ∈ rest, c.right < range.1 := fun range hrange =>
      Nat.lt_trans (by omega) (hothers range hrange)
    exact ⟨c.right, by rw [hc.rearranged.size]; omega, hc.leads hleads hsize,
      front_wideParts happart hrest⟩
  · rw [List.erase_cons_tail (by simpa using hfront)] at hothers
    have hlow : r < low := hothers (low, high) List.mem_cons_self
    refine ⟨r, ?_, hleads.rearranged hc.rearranged hsize (.inr hlow), ?_, ?_⟩
    · rw [hc.rearranged.size]
      exact hr
    · refine hfew.imp_right fun hmem => List.mem_append_right _ ?_
      exact (List.mem_cons.mp hmem).resolve_left fun heq => hfront heq.symm
    · exact beyond_wideParts hlow (by omega) fun range hrange =>
        hothers range (List.mem_cons_of_mem _ hrange)

def span (work : List (Nat × Nat)) : Nat := (work.map fun range => range.2 - range.1).sum

theorem span_cut (hc : c.Sound low high keys) :
    span (pending low c.left c.right high ++ rest) < span ((low, high) :: rest) := by
  have hlower := hc.lower
  have happart := hc.apart
  have hupper := hc.upper
  simp only [span, pending]
  split_ifs <;> simp <;> omega

theorem partitionAll_spec (fuel : Nat) (h : Underway keys work) (hfuel : span work ≤ fuel) :
    ∃ keys', partitionAll fuel keys work = some keys' ∧ keys'.Perm keys ∧ Underway keys' [] := by
  induction fuel generalizing keys work with
  | zero =>
    cases work with
    | nil => exact ⟨keys, rfl, .refl _, h⟩
    | cons range rest =>
      have := (h.wide range List.mem_cons_self).1
      simp only [span, List.map_cons, List.sum_cons, smallSpan] at hfuel this
      omega
  | succ fuel ih =>
    cases work with
    | nil => exact ⟨keys, by simp [partitionAll], .refl _, h⟩
    | cons range rest =>
      obtain ⟨low, high⟩ := range
      obtain ⟨hspan, hsize⟩ := h.wide (low, high) List.mem_cons_self
      have htwo : low + 2 ≤ high := Nat.le_trans (Nat.add_le_add_left (by decide) low) hspan
      obtain ⟨c, hcut, hc⟩ := partition_sound htwo hsize
      have hless : span (pending low c.left c.right high ++ rest) < span ((low, high) :: rest) :=
        span_cut hc
      obtain ⟨keys', hrest, hperm, hdone⟩ := ih (h.cut hc) (by omega)
      refine ⟨keys', ?_, hperm.trans hc.rearranged.perm, hdone⟩
      simp only [partitionAll, hcut, Option.bind_eq_bind, Option.bind_some, hrest]

theorem leastUpTo_spec {i : Nat} (hi : i < keys.size) :
    ∃ least, leastUpTo keys i = some least ∧ least ≤ i ∧ ∀ k, k ≤ i → keys[least]! ≤ keys[k]! := by
  induction i with
  | zero =>
    refine ⟨0, rfl, Nat.le_refl 0, fun k hk => ?_⟩
    rw [Nat.le_zero.mp hk]
    exact UInt64.le_refl _
  | succ i ih =>
    obtain ⟨least, hfound, hle, hleast⟩ := ih (by omega)
    have hnext : keys[i + 1]? = some keys[i + 1]! := by grind
    have hbefore : keys[least]? = some keys[least]! := by grind
    simp only [leastUpTo, hfound, hnext, hbefore, Option.bind_eq_bind, Option.bind_some]
    refine ⟨_, rfl, by split_ifs <;> omega, fun k hk => ?_⟩
    by_cases hki : k = i + 1
    · grind
    · have := hleast k (by omega)
      grind

/-- The key at `i` is on its way down among the keys up to `n`, which are in order but for it. -/
structure Sinking (keys : Array UInt64) (i n : Nat) : Prop where
  others : ∀ a b, a < b → b ≤ n → a ≠ i → b ≠ i → keys[a]! ≤ keys[b]!
  behind : ∀ b, i < b → b ≤ n → keys[i]! ≤ keys[b]!

theorem sink_spec {i n : Nat} (hi : 0 < i) (hin : i ≤ n) (hn : n < keys.size)
    (h : Sinking keys i n) (hleast : ∀ k, k < keys.size → keys[0]! ≤ keys[k]!) :
    ∃ keys', sink keys i = some keys' ∧ Rearranged 1 n keys keys' ∧
      ∀ a b, a < b → b ≤ n → keys'[a]! ≤ keys'[b]! := by
  induction i generalizing keys with
  | zero => omega
  | succ i ih =>
    have hsink : sink keys (i + 1) = if keys[i + 1]! < keys[i]! then
        sink (keys.swapIfInBounds i (i + 1)) i else some keys := by
      simp only [sink]
      grind
    rw [hsink]
    split_ifs with hbelow
    · -- the sentinel is not above the key
      have hpos : 0 < i := by
        have := hleast (i + 1) (by omega)
        grind
      have hswap : ∀ k, (keys.swapIfInBounds i (i + 1))[k]! =
          if k = i then keys[i + 1]! else if k = i + 1 then keys[i]! else keys[k]! :=
        fun k => swap_get! (by omega) (by omega)
      have hsinking : Sinking (keys.swapIfInBounds i (i + 1)) i n := by
        constructor
        · intro a b hab hb ha hbi
          have := h.others
          grind
        · intro b hb hbn
          have := h.behind
          grind
      have hleast' : ∀ k, k < (keys.swapIfInBounds i (i + 1)).size →
          (keys.swapIfInBounds i (i + 1))[0]! ≤ (keys.swapIfInBounds i (i + 1))[k]! := by
        intro k hk
        have := hleast
        grind
      obtain ⟨keys', hkeys', hrearranged, hsorted⟩ := ih hpos (by omega)
        (by rw [Array.size_swapIfInBounds]; exact hn) hsinking hleast'
      exact ⟨keys', hkeys', (Rearranged.refl.swap (by omega) (by omega)).trans hrearranged, hsorted⟩
    · refine ⟨keys, rfl, .refl, fun a b hab hb => ?_⟩
      have hbefore : keys[i]! ≤ keys[i + 1]! := by grind
      by_cases ha : a = i + 1
      · exact ha ▸ h.behind b (by omega) hb
      · by_cases hbi : b = i + 1
        · by_cases hai : a = i
          · grind
          · exact hbi ▸ UInt64.le_trans (h.others a i (by omega) (by omega) ha (by omega)) hbefore
        · exact h.others a b hab hb ha hbi

theorem sinkAll_spec (count i : Nat) (hi : 0 < i) (hsize : i + count = keys.size)
    (hsorted : ∀ a b, a < b → b < i → keys[a]! ≤ keys[b]!)
    (hleast : ∀ k, k < keys.size → keys[0]! ≤ keys[k]!) :
    ∃ sorted, sinkAll count keys i = some sorted ∧ Arranges keys sorted := by
  induction count generalizing keys i with
  | zero =>
    exact ⟨keys, rfl, .refl _, ascending_of_get! fun a b hab hb => hsorted a b hab (by omega)⟩
  | succ count ih =>
    have hsinking : Sinking keys i i := by
      constructor
      · exact fun a b hab hb _ hbi => hsorted a b hab (by omega)
      · intro b hb hbi
        omega
    obtain ⟨keys', hsink, hrearranged, hsorted'⟩ :=
      sink_spec hi (Nat.le_refl i) (by omega) hsinking hleast
    have hsize' := hrearranged.size
    have hleast' : ∀ k, k < keys'.size → keys'[0]! ≤ keys'[k]! := by
      intro k hk
      rw [hrearranged.get!_outside (k := 0) (by omega)]
      by_cases hin : 1 ≤ k ∧ k ≤ i
      · exact hrearranged.forall_range (P := (keys[0]! ≤ ·)) (by omega)
          (fun k _ hk => hleast k (by omega)) k hin.1 hin.2
      · rw [hrearranged.get!_outside (by omega)]
        exact hleast k (by omega)
    obtain ⟨sorted, hrest, harranges⟩ := ih (i + 1) (by omega) (by omega)
      (fun a b hab hb => hsorted' a b hab (by omega)) hleast'
    refine ⟨sorted, ?_, harranges.perm.trans hrearranged.perm, harranges.ascending⟩
    simp only [sinkAll, hsink, Option.bind_eq_bind, Option.bind_some, hrest]

theorem insertionPass_spec (h : Underway keys []) (hsize : 2 ≤ keys.size) :
    ∃ sorted, insertionPass keys = some sorted ∧ Arranges keys sorted := by
  obtain ⟨r, hr, hleads, hfew, -⟩ := h.front
  have hsmall : r ≤ smallSpan := hfew.resolve_right List.not_mem_nil
  obtain ⟨m, hfound, hm, hleast⟩ := leastUpTo_spec (i := min (keys.size - 1) smallSpan)
    (show _ < keys.size by omega)
  have hbelow : ∀ k, k < keys.size → keys[m]! ≤ keys[k]! := by
    intro k hk
    by_cases hkr : k ≤ r
    · exact hleast k (by omega)
    · exact UInt64.le_trans (hleast 0 (by omega)) (hleads 0 k (by omega) (by omega) hk)
  have hrearranged : Rearranged 0 (keys.size - 1) keys (keys.swapIfInBounds m 0) :=
    Rearranged.refl.swap (by omega) (by omega)
  have hfront : ∀ k, k < (keys.swapIfInBounds m 0).size →
      (keys.swapIfInBounds m 0)[0]! ≤ (keys.swapIfInBounds m 0)[k]! := by
    intro k hk
    rw [hrearranged.size] at hk
    have hzero : (keys.swapIfInBounds m 0)[0]! = keys[m]! := by grind
    rw [hzero]
    exact hrearranged.forall_range (P := (keys[m]! ≤ ·)) (by omega)
      (fun k _ hk => hbelow k (by omega)) k (by omega) (by omega)
  obtain ⟨sorted, hsorted, harranges⟩ := sinkAll_spec (keys.size - 1 - 1) 2 (by omega)
    (by rw [hrearranged.size]; omega)
    (fun a b hab hb => (show a = 0 by omega) ▸ hfront b (by rw [hrearranged.size]; omega)) hfront
  refine ⟨sorted, ?_, harranges.perm.trans hrearranged.perm, harranges.ascending⟩
  simp only [insertionPass, hfound, Option.bind_eq_bind, Option.bind_some, hsorted]

theorem underway_start (hsize : 0 < keys.size) :
    Underway keys (if smallSpan < keys.size then [(0, keys.size - 1)] else []) := by
  have hleads : Leads keys (keys.size - 1) := by
    intro i j hi hlast hj
    omega
  split_ifs with hwide
  · refine ⟨?_, keys.size - 1, by omega, hleads, .inr List.mem_cons_self, by simp⟩
    intro range hrange
    rw [List.mem_singleton.mp hrange]
    exact ⟨show 0 + smallSpan ≤ keys.size - 1 by omega, show keys.size - 1 < keys.size by omega⟩
  · refine ⟨by simp, keys.size - 1, by omega, hleads, .inl (by omega), by simp⟩

theorem quick?_spec (keys : Array UInt64) :
    ∃ sorted, quick? keys = some sorted ∧ Arranges keys sorted := by
  by_cases hsmall : keys.size < 2
  · exact ⟨keys, if_pos hsmall, .refl _, ascending_of_get! fun i j hij hj => by omega⟩
  · have hfuel : span (if smallSpan < keys.size then [(0, keys.size - 1)] else []) ≤ keys.size := by
      split_ifs
      · simp [span]
      · exact Nat.zero_le _
    obtain ⟨keys', hpart, hperm, hdone⟩ :=
      partitionAll_spec keys.size (underway_start (by omega)) hfuel
    obtain ⟨sorted, hpass, harranges⟩ :=
      insertionPass_spec hdone (by rw [hperm.size_eq]; omega)
    refine ⟨sorted, ?_, harranges.perm.trans hperm, harranges.ascending⟩
    rw [quick?, if_neg hsmall]
    simp only [hpart, Option.bind_eq_bind, Option.bind_some, hpass]

end Rollup.Sorting
