import Rollup.Proofs.Document.Reading
import Rollup.Proofs.Number.Comparison
import Rollup.Proofs.Statistics.Batch

/-! The order statistics of a report. The sorts arrange a batch by the total order of doubles, which
refines the numeric order, so that samples are in order wherever the fractions they stand at are,
and the label of a threshold tells its fraction. -/
namespace Rollup

namespace Threshold

section Labels

structure Accepted (t : Threshold) : Prop where
  top : t.top = percent ∨ t.top = perMille
  positive : 0 < t.value
  proper : t.value < t.top
  uneven : t.value ≠ t.top / 2
  label : t.label = labelOf t.value t.top

theorem accepted_read {text : List Char} {t : Threshold} (h : read text = .ok t) : t.Accepted := by
  obtain ⟨digits, top, hparts, htop⟩ : ∃ digits top,
      (if text.getLast? = some 'm' then (text.dropLast, perMille) else (text, percent)) =
        (digits, top) ∧ (top = percent ∨ top = perMille) := by
    split_ifs
    · exact ⟨_, _, rfl, .inr rfl⟩
    · exact ⟨_, _, rfl, .inl rfl⟩
  simp only [read, hparts] at h
  split at h
  · cases h
  · split_ifs at h with hrange hmedian
    cases h
    obtain ⟨hpositive, hproper⟩ := not_or.mp hrange
    exact ⟨htop, Nat.pos_of_ne_zero hpositive, Nat.lt_of_not_le hproper, hmedian, rfl⟩

theorem accepted_readAll {text : String} {ts : List Threshold} (h : readAll text = .ok ts) :
    ∀ t ∈ ts, t.Accepted := by
  obtain ⟨thresholds, hread, h⟩ := bind_eq_ok_iff.mp h
  have haccepted := forall_mem_of_mapM (fun _ _ => accepted_read) hread
  split at h
  · cases h
  · cases h
    exact haccepted

theorem toList_padded (width n : Nat) : (padded width n).toList =
    List.replicate (width - (Nat.toDigits 10 n).length) '0' ++ Nat.toDigits 10 n := by
  have hdigits : (toString n).toList = Nat.toDigits 10 n := Nat.toList_repr
  simp only [padded, String.toList_append, String.toList_ofList, ← String.length_toList, hdigits]

theorem ofDigitChars_padded (width n : Nat) :
    Nat.ofDigitChars 10 (padded width n).toList 0 = n := by
  have hzeros : ∀ zeros : Nat, Nat.ofDigitChars 10
      (List.replicate zeros '0' ++ Nat.toDigits 10 n) 0 = n := by
    intro zeros
    induction zeros with
    | zero => exact Nat.ofDigitChars_ten_toDigits
    | succ zeros ih =>
      rw [List.replicate_succ, List.cons_append, Nat.ofDigitChars_cons]
      exact ih
  rw [toList_padded]
  exact hzeros _

theorem length_padded {width n : Nat} (hwidth : 0 < width) (h : n < 10 ^ width) :
    (padded width n).toList.length = width := by
  have hle : (Nat.toDigits 10 n).length ≤ width :=
    (Nat.length_toDigits_le_iff (by decide) hwidth).mpr h
  rw [toList_padded, List.length_append, List.length_replicate]
  omega

theorem toList_labelOf (value top : Nat) : (labelOf value top).toList =
    (if value < top / 2 then "lower_" else "upper_").toList ++
      (padded (if top = perMille then 3 else 2) value).toList := by
  rw [labelOf, String.toList_append]

namespace Accepted

variable {t u : Threshold}

theorem digits_eq (h : t.Accepted) : t.label.toList.drop 6 =
    (padded (if t.top = perMille then 3 else 2) t.value).toList := by
  rw [h.label, toList_labelOf]
  split <;> rfl

theorem top_eq (h : t.Accepted) : t.top = 10 ^ (if t.top = perMille then 3 else 2) := by
  rcases h.top with htop | htop
  · rw [htop]; rfl
  · rw [htop]; rfl

theorem width_eq (h : t.Accepted) :
    (t.label.toList.drop 6).length = if t.top = perMille then 3 else 2 := by
  have hwidth : 0 < if t.top = perMille then 3 else 2 := by
    split <;> decide
  rw [h.digits_eq]
  exact length_padded hwidth (h.top_eq ▸ h.proper)

theorem eq_of_label (h : t.Accepted) (h' : u.Accepted) (hlabel : t.label = u.label) : t = u := by
  have hvalue : t.value = u.value := by
    rw [← ofDigitChars_padded _ t.value, ← h.digits_eq, hlabel, h'.digits_eq, ofDigitChars_padded]
  have hwidth := h.width_eq
  rw [hlabel, h'.width_eq] at hwidth
  have htop : t.top = u.top := by
    calc t.top
      _ = 10 ^ (if t.top = perMille then 3 else 2) := h.top_eq
      _ = 10 ^ (if u.top = perMille then 3 else 2) := by rw [← hwidth]
      _ = u.top := h'.top_eq.symm
  cases t
  cases u
  cases hvalue
  cases htop
  cases hlabel
  rfl

theorem side (h : t.Accepted) :
    "lower_".toList <+: t.label.toList ∧ t.value * 2 < t.top ∨
      "upper_".toList <+: t.label.toList ∧ t.top < t.value * 2 := by
  have hlabel := toList_labelOf t.value t.top
  rw [← h.label] at hlabel
  have heven : t.top = 2 * (t.top / 2) := by
    rcases h.top with htop | htop
    · rw [htop]; rfl
    · rw [htop]; rfl
  have huneven := h.uneven
  by_cases hlower : t.value < t.top / 2
  · rw [if_pos hlower] at hlabel
    exact .inl ⟨⟨_, hlabel.symm⟩, by omega⟩
  · rw [if_neg hlower] at hlabel
    exact .inr ⟨⟨_, hlabel.symm⟩, by omega⟩

end Accepted

def always : List Threshold := [⟨0, 1, "lower"⟩, ⟨1, 2, "median"⟩, ⟨1, 1, "upper"⟩]

abbrev reported (ts : List Threshold) : List Threshold := always ++ ts

def otherLabels : List String :=
  ["count", "sum", "mean", "spread", "stddev", "skewness", "kurtosis", "mode", "mode_ct"]

theorem Accepted.label_ne {t : Threshold} (h : t.Accepted) :
    ∀ label ∈ otherLabels ++ always.map Threshold.label, t.label ≠ label := by
  have hplain : ∀ label ∈ otherLabels ++ always.map Threshold.label,
      ¬ "lower_".toList <+: label.toList ∧ ¬ "upper_".toList <+: label.toList := by
    decide
  rintro label hmem rfl
  obtain ⟨hlower, hupper⟩ := hplain _ hmem
  rcases h.side with hside | hside
  · exact hlower hside.1
  · exact hupper hside.1

section Reported

variable {ts : List Threshold} (h : ∀ t ∈ ts, t.Accepted)

include h

theorem label_notMem_of_reported : ∀ t ∈ reported ts, t.label ∉ otherLabels := by
  have halways : ∀ t ∈ always, t.label ∉ otherLabels := by decide
  intro t ht
  rcases List.mem_append.mp ht with ht | ht
  · exact halways t ht
  · exact fun hmem => (h t ht).label_ne _ (List.mem_append_left _ hmem) rfl

theorem eq_of_reported : ∀ t ∈ reported ts, ∀ u ∈ reported ts, t.label = u.label → t = u := by
  have halways : ∀ t ∈ always, ∀ u ∈ always, t.label = u.label → t = u := by decide
  have hother : ∀ t ∈ ts, ∀ u ∈ always, t.label ≠ u.label := fun t ht u hu =>
    (h t ht).label_ne _ (List.mem_append_right _ (List.mem_map_of_mem hu))
  intro t ht u hu hlabel
  rcases List.mem_append.mp ht with ht | ht
  · rcases List.mem_append.mp hu with hu | hu
    · exact halways t ht u hu hlabel
    · exact absurd hlabel.symm (hother u hu t ht)
  · rcases List.mem_append.mp hu with hu | hu
    · exact absurd hlabel (hother t ht u hu)
    · exact (h t ht).eq_of_label (h u hu) hlabel

theorem proper_of_reported : ∀ t ∈ reported ts, 0 < t.top ∧ t.value ≤ t.top := by
  have halways : ∀ t ∈ always, 0 < t.top ∧ t.value ≤ t.top := by decide
  intro t ht
  rcases List.mem_append.mp ht with ht | ht
  · exact halways t ht
  · have hproper := (h t ht).proper
    omega

end Reported

end Labels

end Threshold

namespace Stats

structure Sorted (batch sorted : Array Float) : Prop where
  perm : sorted.Perm batch
  ascending : sorted.toList.Pairwise fun x y => DoubleBits.rank x.toBits ≤ DoubleBits.rank y.toBits

theorem sorted_sortSamples (threshold : Nat) (batch : Array Float) (w : Sorting.Workspace) :
    Sorted batch (Sorting.sortSamples threshold batch w).1 := by
  have hranks := Sorting.ranks_sortBy (.forLength batch.size threshold) (batch.map Float.toBits) w
  simp only [Sorting.sortSamples]
  generalize (Sorting.sortBy _ _ w).1 = patterns at hranks
  have hperm : patterns.toList.Perm (batch.toList.map Float.toBits) := by
    simpa using hranks.perm.toList
  refine ⟨?_, ?_⟩
  · have hback : (batch.toList.map Float.toBits).map Float.ofBits = batch.toList := by
      simp [List.map_map, Function.comp_def]
    rw [Array.perm_iff_toList_perm, Array.toList_map, ← hback]
    exact hperm.map _
  · rw [Array.toList_map, List.pairwise_map]
    refine hranks.ascending.imp_of_mem fun hp hq hle => ?_
    have hback : ∀ bits ∈ patterns.toList, (Float.ofBits bits).toBits = bits := by
      intro bits hbits
      obtain ⟨x, -, rfl⟩ := List.mem_map.mp (hperm.mem_iff.mp hbits)
      rw [Float.ofBits_toBits]
    rwa [hback _ hp, hback _ hq]

section Samples

variable {batch sorted : Array Float} (h : Sorted batch sorted) (hfinite : ∀ x ∈ batch, x.isFinite)

include h hfinite

theorem Sorted.le {i j : Nat} (hij : i ≤ j) (hj : j < sorted.size) : sorted[i]! ≤ sorted[j]! := by
  have hmem : ∀ k, (hk : k < sorted.size) → sorted[k].isFinite := fun k hk =>
    hfinite _ (h.perm.mem_iff.mp (Array.getElem_mem hk))
  have hi : i < sorted.size := Nat.lt_of_le_of_lt hij hj
  rw [getElem!_pos sorted i hi, getElem!_pos sorted j hj,
    Float.le_iff_place (hmem i hi) (hmem j hj)]
  rcases Nat.eq_or_lt_of_le hij with rfl | hlt
  · exact Int.le_refl _
  · exact DoubleBits.place_le_of_rank_le (List.pairwise_iff_getElem.mp h.ascending i j hi hj hlt)

end Samples

end Stats

namespace Threshold

def sample (t : Threshold) (sorted : Array Float) : Float :=
  sorted[t.value * (sorted.size - 1) / t.top]!

variable {t u : Threshold}

theorem index_lt (hproper : t.value ≤ t.top) {count : Nat} (hcount : 0 < count) :
    t.value * (count - 1) / t.top < count := by
  rw [Nat.mul_comm]
  exact fractionIndex_lt hcount hproper

theorem sampleAt_eq (hproper : t.value ≤ t.top) {sorted : Array Float} (hsize : 0 < sorted.size) :
    Stats.sampleAt sorted t.value t.top = t.sample sorted := by
  have hindex := index_lt hproper hsize
  rw [Stats.sampleAt, fractionIndex, Nat.mul_comm, Array.getElem?_eq_getElem hindex, sample,
    getElem!_pos sorted _ hindex]
  rfl

end Threshold

namespace Stats

section Readings

variable {settings : Settings} {checks : List Check} {name : String} {sorted : Array Float}

private theorem dotted (name : String) {label suffix : String} (h : "." ++ label = suffix) :
    name ++ suffix = name ++ "." ++ label := by
  rw [String.append_assoc, h]

theorem mem_readings {t : Threshold} (ht : t ∈ Threshold.reported settings.thresholds) :
    thresholdReading name sorted t ∈ readings settings checks name sorted := by
  simp only [readings, List.mem_append]
  rcases List.mem_append.mp ht with ht | ht
  · refine .inl (.inl (.inl ?_))
    simp only [Threshold.always, List.mem_cons, List.not_mem_nil, or_false] at ht
    rcases ht with rfl | rfl | rfl
    · simp [thresholdReading, basicReadings, ← dotted name (rfl : "." ++ "lower" = ".lower")]
    · simp [thresholdReading, basicReadings, ← dotted name (rfl : "." ++ "median" = ".median")]
    · simp [thresholdReading, basicReadings, ← dotted name (rfl : "." ++ "upper" = ".upper")]
  · exact .inl (.inl (.inr (List.mem_map_of_mem ht)))

theorem readings_cases {reading : Reading} (h : reading ∈ readings settings checks name sorted) :
    (∃ t ∈ Threshold.reported settings.thresholds, reading = thresholdReading name sorted t) ∨
      ∃ label ∈ Threshold.otherLabels, reading.name = name ++ "." ++ label := by
  have hother : ∀ (label : String) {suffix : String}, "." ++ label = suffix →
      label ∈ Threshold.otherLabels →
      ∃ label ∈ Threshold.otherLabels, name ++ suffix = name ++ "." ++ label :=
    fun label _ hsuffix hlabel => ⟨label, hlabel, dotted name hsuffix⟩
  simp only [readings, List.mem_append] at h
  obtain ((hbasic | hthreshold) | hmoments) | hmode := h
  · have halways : ∀ {t : Threshold} {suffix : String}, t ∈ Threshold.always →
        "." ++ t.label = suffix →
        ∃ t' ∈ Threshold.reported settings.thresholds,
          Reading.of (name ++ suffix) (sampleAt sorted t.value t.top) =
            thresholdReading name sorted t' := fun ht hsuffix =>
      ⟨_, List.mem_append_left _ ht, congrArg (Reading.of · _) (dotted name hsuffix)⟩
    simp only [basicReadings, List.mem_cons, List.not_mem_nil, or_false] at hbasic
    rcases hbasic with rfl | rfl | rfl | rfl | rfl | rfl | rfl
    · exact .inr (hother "count" rfl (by decide))
    · exact .inr (hother "sum" rfl (by decide))
    · exact .inr (hother "mean" rfl (by decide))
    · exact .inl (halways (t := ⟨1, 1, "upper"⟩) (by decide) rfl)
    · exact .inl (halways (t := ⟨0, 1, "lower"⟩) (by decide) rfl)
    · exact .inl (halways (t := ⟨1, 2, "median"⟩) (by decide) rfl)
    · exact .inr (hother "spread" rfl (by decide))
  · obtain ⟨t, ht, rfl⟩ := List.mem_map.mp hthreshold
    exact .inl ⟨t, List.mem_append_right _ ht, rfl⟩
  · split at hmoments
    · obtain ⟨m, -, hreading⟩ := List.mem_flatMap.mp hmoments
      simp only [momentReadings, List.mem_cons, List.not_mem_nil, or_false] at hreading
      rcases hreading with rfl | rfl | rfl
      · exact .inr (hother "stddev" rfl (by decide))
      · exact .inr (hother "skewness" rfl (by decide))
      · exact .inr (hother "kurtosis" rfl (by decide))
    · cases hmoments
  · split at hmode
    · obtain ⟨m, -, hreading⟩ := List.mem_flatMap.mp hmode
      simp only [modeReadings, List.mem_cons, List.not_mem_nil, or_false] at hreading
      rcases hreading with rfl | rfl
      · exact .inr (hother "mode" rfl (by decide))
      · exact .inr (hother "mode_ct" rfl (by decide))
    · cases hmode

theorem eq_thresholdReading (haccepted : ∀ t ∈ settings.thresholds, t.Accepted) {t : Threshold}
    (ht : t ∈ Threshold.reported settings.thresholds) {reading : Reading}
    (h : reading ∈ readings settings checks name sorted)
    (hname : reading.name = name ++ "." ++ t.label) : reading = thresholdReading name sorted t := by
  rcases readings_cases h with ⟨u, hu, rfl⟩ | ⟨label, hlabel, hother⟩
  · have hlabel : t.label = u.label := (String.append_right_inj _).mp hname.symm
    rw [Threshold.eq_of_reported haccepted t ht u hu hlabel]
  · rw [hother] at hname
    have hsame : label = t.label := (String.append_right_inj _).mp hname
    exact absurd (hsame ▸ hlabel) (Threshold.label_notMem_of_reported haccepted t ht)

end Readings

section Order

variable {batch sorted : Array Float} (h : Sorted batch sorted) (hfinite : ∀ x ∈ batch, x.isFinite)
  (hsize : 0 < sorted.size) {t u : Threshold}

include h hfinite hsize

theorem Sorted.sample_le (ht : 0 < t.top) (hu : 0 < u.top ∧ u.value ≤ u.top)
    (hle : t.value * u.top ≤ u.value * t.top) : t.sample sorted ≤ u.sample sorted := by
  have hindex : fractionIndex sorted.size t.value t.top ≤ fractionIndex sorted.size u.value u.top :=
    fractionIndex_mono ht hu.1 hle
  rw [fractionIndex, fractionIndex, Nat.mul_comm _ t.value, Nat.mul_comm _ u.value] at hindex
  exact h.le hfinite hindex (Threshold.index_lt hu.2 hsize)

theorem Sorted.between (ht : t.Accepted) :
    ("lower_".toList <+: t.label.toList ∧ sorted[0]! ≤ t.sample sorted ∧
      t.sample sorted ≤ sorted[(sorted.size - 1) / 2]!) ∨
    ("upper_".toList <+: t.label.toList ∧ sorted[(sorted.size - 1) / 2]! ≤ t.sample sorted ∧
      t.sample sorted ≤ sorted[sorted.size - 1]!) := by
  have hlower : sorted[0]! = Threshold.sample ⟨0, 1, "lower"⟩ sorted := by
    simp [Threshold.sample]
  have hmedian : sorted[(sorted.size - 1) / 2]! = Threshold.sample ⟨1, 2, "median"⟩ sorted := by
    simp [Threshold.sample]
  have hupper : sorted[sorted.size - 1]! = Threshold.sample ⟨1, 1, "upper"⟩ sorted := by
    simp [Threshold.sample]
  have hproper : 0 < t.top ∧ t.value ≤ t.top :=
    ⟨Nat.zero_lt_of_lt ht.proper, Nat.le_of_lt ht.proper⟩
  rw [hlower, hmedian, hupper]
  rcases ht.side with ⟨hlabel, hhalf⟩ | ⟨hlabel, hhalf⟩
  · refine .inl ⟨hlabel, h.sample_le hfinite hsize (by decide) hproper ?_,
      h.sample_le hfinite hsize hproper.1 (by decide) ?_⟩
    · dsimp only
      omega
    · dsimp only
      omega
  · refine .inr ⟨hlabel, h.sample_le hfinite hsize (by decide) hproper ?_,
      h.sample_le hfinite hsize hproper.1 (by decide) ?_⟩
    · dsimp only
      omega
    · dsimp only
      omega

end Order

end Stats

namespace Record

/-- The ends of a batch, its median and each threshold are reported, as the sample at their fraction
of the way from the first to the last of the sorted batch, rounded down. Greater fractions never
have lesser samples, so that lower thresholds lie below the median and upper ones above it. -/
theorem order_statistics {r : Record} {sides : Sides Samples} (hbody : r.body = .stats sides)
    (htallied : sides.input.Tallied) (hsome : 0 < sides.input.flatten.size)
    (hfinite : ∀ x ∈ sides.input.flatten, x.isFinite) {settings : Settings} {text : String}
    (hread : Threshold.readAll text = .ok settings.thresholds) (w : Sorting.Workspace) :
    let batch := sides.input.flatten
    let name := settings.reportName .stats r.path
    let report := (r.passStats settings w).1.readings
    let reported := Threshold.reported settings.thresholds
    ∃ sorted, Stats.Sorted batch sorted ∧
      (∀ t ∈ reported, t.value * (batch.size - 1) / t.top < batch.size ∧
        .of (name ++ "." ++ t.label) (t.sample sorted) ∈ report ∧
        ∀ reading ∈ report, reading.name = name ++ "." ++ t.label →
          reading.value = t.sample sorted) ∧
      (∀ t ∈ reported, ∀ u ∈ reported, t.value * u.top ≤ u.value * t.top →
        t.sample sorted ≤ u.sample sorted) ∧
      ∀ t ∈ settings.thresholds,
        ("lower_".toList <+: t.label.toList ∧ sorted[0]! ≤ t.sample sorted ∧
          t.sample sorted ≤ sorted[(batch.size - 1) / 2]!) ∨
        ("upper_".toList <+: t.label.toList ∧ sorted[(batch.size - 1) / 2]! ≤ t.sample sorted ∧
          t.sample sorted ≤ sorted[batch.size - 1]!) := by
  intro batch name report reported
  have haccepted := Threshold.accepted_readAll hread
  have hproper := Threshold.proper_of_reported haccepted
  let sorted := (Sorting.sortSamples settings.sortThreshold batch w).1
  have hsorted : Stats.Sorted batch sorted := Stats.sorted_sortSamples _ batch w
  have hsize : sorted.size = batch.size := hsorted.perm.size_eq
  have hpos : 0 < sorted.size := hsize ▸ hsome
  have hreport : report = Stats.readings settings r.checks name sorted := by
    have hcount : ¬ sides.input.count = 0 := by
      rw [htallied]
      exact Nat.pos_iff_ne_zero.mp hsome
    simp only [report, passStats_report hbody, if_neg hcount]
    rfl
  rw [hreport, ← hsize]
  refine ⟨sorted, hsorted, fun t ht => ⟨Threshold.index_lt (hproper t ht).2 hpos, ?_⟩,
    fun t ht u hu => hsorted.sample_le hfinite hpos (hproper t ht).1 (hproper u hu),
    fun t ht => hsorted.between hfinite hpos (haccepted t ht)⟩
  have hreading : Stats.thresholdReading name sorted t =
      .of (name ++ "." ++ t.label) (t.sample sorted) := by
    rw [Stats.thresholdReading, Threshold.sampleAt_eq (hproper t ht).2 hpos]
  rw [← hreading]
  refine ⟨Stats.mem_readings ht, fun reading hmem hname => ?_⟩
  rw [Stats.eq_thresholdReading haccepted ht hmem hname, hreading]
  rfl

/-- Four samples in two chunks, with both zeros, and thresholds in percent and per mille. -/
theorem order_statistics_mixed :
    let sides : Sides Samples := ⟨⟨#[#[3, -0.0], #[0, 1.5]], 4⟩, .empty⟩
    let r : Record := .empty "x" 0 [.moments, .mode] (.stats sides)
    let thresholds : List Threshold := [⟨90, 100, "upper_90"⟩, ⟨250, 1000, "lower_250"⟩]
    sides.input.Tallied ∧ 0 < sides.input.flatten.size ∧
      (∀ x ∈ sides.input.flatten, x.isFinite) ∧
      Threshold.readAll " 90,,250m" = .ok thresholds ∧
      ∃ settings : Settings, settings.thresholds = thresholds ∧
        ∃ sorted, Stats.Sorted sides.input.flatten sorted ∧
          .of (settings.reportName .stats "x" ++ "." ++ "upper_90") sorted[2]! ∈
            (r.passStats settings {}).1.readings ∧
          sorted[0]! ≤ sorted[1]! ∧ sorted[1]! ≤ sorted[2]! := by
  intro sides r thresholds
  have hflatten : sides.input.flatten = #[3, -0.0, 0, 1.5] := by simp [Samples.flatten, sides]
  have htallied : sides.input.Tallied := by simp [Samples.Tallied, Samples.flatten, sides]
  have hsome : 0 < sides.input.flatten.size := by simp [hflatten]
  have hfinite : ∀ x ∈ sides.input.flatten, x.isFinite := by
    rw [hflatten]
    decide +kernel
  have hread : Threshold.readAll " 90,,250m" = .ok thresholds := by decide +kernel
  have hbuilt : (Settings.ofConfig {}).toBool = true := by decide +kernel
  cases hsettings : Settings.ofConfig {} with
  | error cause => simp [hsettings, Except.toBool] at hbuilt
  | ok default =>
    let settings : Settings := { default with thresholds := thresholds }
    have hread' : Threshold.readAll " 90,,250m" = .ok settings.thresholds := hread
    obtain ⟨sorted, hsorted, hreported, -, hbetween⟩ :=
      order_statistics (r := r) rfl htallied hsome hfinite hread' {}
    have hsize : sorted.size = 4 := by rw [hsorted.perm.size_eq, hflatten]; rfl
    simp only [Threshold.sample, hsize, hflatten] at hreported hbetween
    have hupper := (hreported ⟨90, 100, "upper_90"⟩ (by simp [settings, thresholds])).2.1
    refine ⟨htallied, hsome, hfinite, hread, settings, rfl, sorted, hsorted, hupper, ?_, ?_⟩
    · rcases hbetween ⟨250, 1000, "lower_250"⟩ (by simp [settings, thresholds]) with h | h
      · exact h.2.2
      · exact absurd h.1 (by decide)
    · rcases hbetween ⟨90, 100, "upper_90"⟩ (by simp [settings, thresholds]) with h | h
      · exact absurd h.1 (by decide)
      · exact h.2.1

end Record

end Rollup
