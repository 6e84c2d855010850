import Rollup.Pass
import Rollup.Proofs.Document.Reading
import Rollup.Proofs.Histogram.Currency
import Rollup.Proofs.Number.Comparison
import Rollup.Proofs.Record.Buffering

/-! Reports of histograms. The bounds of an accepted layout ascend strictly, so that every value
lies in one bucket, and a report says of each bucket how many of the values since the last report or
reconfiguration lie in it. -/
namespace Rollup

theorem Update.applies_iff {u : Update} : u.applies = true ↔ u.value.isFinite = true := by
  rw [applies, UpdateError.ofValue?]
  cases u.value.isFinite with
  | true => exact iff_of_true rfl rfl
  | false => exact iff_of_false (fun h => nomatch h) (fun h => nomatch h)

namespace Layout

structure Ascends (bounds : List Float) : Prop where
  finite : ∀ b ∈ bounds, b.isFinite
  pairwise : bounds.Pairwise (· < ·)

theorem sortBounds_perm (bounds : List Float) : (sortBounds bounds).Perm bounds :=
  List.mergeSort_perm bounds _

theorem sortBounds_pairwise (bounds : List Float) : (sortBounds bounds).Pairwise fun a b =>
    DoubleBits.orderKey a.toBits ≤ DoubleBits.orderKey b.toBits := by
  refine (List.pairwise_mergeSort (fun a b c hab hbc => ?_) (fun a b => ?_) bounds).imp
    of_decide_eq_true
  · exact decide_eq_true (UInt64.le_trans (of_decide_eq_true hab) (of_decide_eq_true hbc))
  · simpa using UInt64.le_total _ _

/-- In the total order equal bounds would be neighbours. -/
theorem pairwise_lt {bounds : List Float} (hfinite : ∀ b ∈ bounds, b.isFinite)
    (hsorted : bounds.Pairwise fun a b =>
      DoubleBits.orderKey a.toBits ≤ DoubleBits.orderKey b.toBits)
    (hdistinct : hasEqualNeighbours bounds = false) : bounds.Pairwise (· < ·) := by
  induction bounds with
  | nil => exact .nil
  | cons a rest ih =>
    obtain ⟨ha, hrest⟩ := List.forall_mem_cons.mp hfinite
    cases rest with
    | nil => exact List.pairwise_singleton _ _
    | cons b rest =>
      simp only [hasEqualNeighbours, Bool.or_eq_false_iff] at hdistinct
      have hb := hrest b List.mem_cons_self
      have htail := ih hrest (List.pairwise_cons.mp hsorted).2 hdistinct.2
      have hab : a < b := Float.lt_of_orderKey_le ha hb
        ((List.pairwise_cons.mp hsorted).1 b List.mem_cons_self) (by simp [hdistinct.1])
      refine List.pairwise_cons.mpr ⟨List.forall_mem_cons.mpr ⟨hab, fun c hc => ?_⟩, htail⟩
      exact Float.lt_trans ha hb (hrest c (List.mem_cons_of_mem b hc)) hab
        ((List.pairwise_cons.mp htail).1 c hc)

structure Sorts (l : Layout) (c : BlockConfig) : Prop where
  ascends : Ascends l.bounds
  perm : l.bounds.Perm c.bounds

theorem sorts_ofConfig {c : BlockConfig} {l : Layout} (h : ofConfig c = .ok l) : l.Sorts c := by
  simp only [ofConfig] at h
  split_ifs at h with hnone hmany hinfinite hequal
  obtain ⟨selection, -, hl⟩ := bind_eq_ok_iff.mp h
  cases hl
  have hperm := sortBounds_perm c.bounds
  have hfinite : ∀ b ∈ sortBounds c.bounds, b.isFinite := by
    intro b hb
    simp only [List.any_eq_true, Bool.not_eq_true', not_exists, not_and, Bool.not_eq_false]
      at hinfinite
    exact hinfinite b (hperm.mem_iff.mp hb)
  exact ⟨⟨hfinite, pairwise_lt hfinite (sortBounds_pairwise c.bounds) (by simpa using hequal)⟩,
    hperm⟩

theorem ascends_standard : Ascends standard.bounds where
  finite := by
    have hone : (1.0 : Float).isFinite = true := by decide +kernel
    simpa [standard] using hone
  pairwise := List.pairwise_singleton _ _

end Layout

namespace LayoutSet

variable {blocks : List BlockConfig} {set : LayoutSet}

theorem sorts_build {marked marked' : Option Layout} {layouts : List Layout}
    (h : build marked blocks = .ok (layouts, marked')) :
    List.Forall₂ Layout.Sorts layouts blocks ∧ ∀ l ∈ marked', l ∈ layouts ∨ marked = some l := by
  induction blocks generalizing marked layouts with
  | nil =>
    cases h
    exact ⟨.nil, fun l hl => .inr hl⟩
  | cons c rest ih =>
    rw [build] at h
    obtain ⟨layout, hlayout, h⟩ := bind_eq_ok_iff.mp h
    have hsorts := Layout.sorts_ofConfig hlayout
    split_ifs at h with hdefault hsecond
    · cases h
    · obtain ⟨⟨more, marked''⟩, hmore, h⟩ := bind_eq_ok_iff.mp h
      cases h
      obtain ⟨hrest, hmarked⟩ := ih hmore
      refine ⟨.cons ⟨hsorts.ascends, hsorts.perm⟩ hrest, fun l hl => .inl ?_⟩
      obtain hin | hself := hmarked l hl
      · exact List.mem_cons_of_mem _ hin
      · cases hself
        exact List.mem_cons_self
    · obtain ⟨⟨more, marked''⟩, hmore, h⟩ := bind_eq_ok_iff.mp h
      cases h
      obtain ⟨hrest, hmarked⟩ := ih hmore
      exact ⟨.cons hsorts hrest, fun l hl => (hmarked l hl).imp_left (List.mem_cons_of_mem _)⟩

theorem sorts_ofConfig (h : ofConfig blocks = .ok set) :
    (blocks = [] ∧ set = standard ∨ List.Forall₂ Layout.Sorts set.layouts blocks) ∧
      set.fallback ∈ set.layouts := by
  cases blocks with
  | nil =>
    cases h
    exact ⟨.inl ⟨rfl, rfl⟩, List.mem_singleton_self _⟩
  | cons first rest =>
    simp only [ofConfig] at h
    split_ifs at h with hmany
    · cases h
    obtain ⟨⟨layouts, marked⟩, hbuilt, h⟩ := bind_eq_ok_iff.mp h
    obtain ⟨hsorts, hmarked⟩ := sorts_build hbuilt
    cases hfallback : marked <|> layouts.find? (·.enabled) with
    | none => simp only [hfallback] at h; cases h
    | some fallback =>
      simp only [hfallback] at h
      cases h
      refine ⟨.inr hsorts, ?_⟩
      cases marked with
      | none => exact List.mem_of_find?_eq_some hfallback
      | some l =>
        cases hfallback
        exact (hmarked _ rfl).resolve_right (fun h => nomatch h)

theorem ascends_of_mem (h : ofConfig blocks = .ok set) {l : Layout} (hl : l ∈ set.layouts) :
    Layout.Ascends l.bounds := by
  obtain ⟨-, rfl⟩ | hsorts := (sorts_ofConfig h).1
  · cases List.mem_singleton.mp hl
    exact Layout.ascends_standard
  · exact ((List.forall₂_and_left _ _).mp (hsorts.imp fun _ _ h => ⟨h.ascends, h⟩)).1 l hl

theorem resolve_mem (h : ofConfig blocks = .ok set) (path : String) :
    set.resolve path ∈ set.layouts := by
  rw [resolve]
  cases hfound : set.layouts.find? fun l => l.enabled && l.selection.selects path with
  | none => exact (sorts_ofConfig h).2
  | some l => exact List.mem_of_find?_eq_some hfound

end LayoutSet

namespace Layout

/-- Whether a value is above the bound before the one at `index`, and not above that one. Past the
last bound there is no upper limit. -/
def covers (bounds : List Float) (index : Nat) (value : Float) : Bool :=
  (bounds.take index).getLast?.all (fun low => low < value) &&
    bounds[index]?.all fun high => value ≤ high

def share (bounds values : List Float) (index : Nat) : Nat := values.countP (covers bounds index)

section Buckets

variable {bounds : List Float} {value : Float}

theorem findIdx_eq_iff {p : α → Bool} {xs : List α} {i : Nat} (hi : i ≤ xs.length) :
    xs.findIdx p = i ↔ (∀ x ∈ xs.take i, p x = false) ∧ ∀ x ∈ xs[i]?, p x = true := by
  obtain hlt | rfl := Nat.lt_or_eq_of_le hi
  · rw [List.findIdx_eq hlt, and_comm, List.getElem?_eq_getElem hlt]
    refine and_congr ?_ (by simp)
    rw [List.forall_mem_iff_getElem]
    simp only [List.length_take, List.getElem_take]
    exact ⟨fun h j hj => h j (by omega), fun h j hj => h j (by omega)⟩
  · simp [List.findIdx_eq_length]

theorem forall_lt_iff (h : Ascends bounds) (hvalue : value.isFinite) :
    (∀ b ∈ bounds, b < value) ↔ ∀ low ∈ bounds.getLast?, low < value := by
  cases hlast : bounds.getLast? with
  | none => simp [List.getLast?_eq_none_iff.mp hlast]
  | some low =>
    obtain ⟨front, rfl⟩ := List.getLast?_eq_some_iff.mp hlast
    simp only [List.forall_mem_append, List.forall_mem_singleton, Option.mem_some_iff, forall_eq']
    refine and_iff_right_of_imp fun hlow b hb => ?_
    have hb' : b ∈ front ++ [low] := List.mem_append_left _ hb
    have hlow' : low ∈ front ++ [low] := List.mem_append_right _ (List.mem_singleton_self _)
    have hblow := (List.pairwise_append.mp h.pairwise).2.2 b hb low (List.mem_singleton_self _)
    exact Float.lt_trans (h.finite b hb') (h.finite low hlow') hvalue hblow hlow

theorem bucketIndex_eq_iff {l : Layout} (h : Ascends l.bounds) (hvalue : value.isFinite)
    {index : Nat} (hindex : index < l.bucketCount) :
    l.bucketIndex value = index ↔ covers l.bounds index value = true := by
  have htake : Ascends (l.bounds.take index) :=
    ⟨fun b hb => h.finite b (List.mem_of_mem_take hb), h.pairwise.take⟩
  rw [bucketIndex, findIdx_eq_iff (Nat.le_of_lt_succ hindex), covers, Bool.and_eq_true,
    Option.all_eq_true, Option.all_eq_true]
  refine and_congr ?_ Iff.rfl
  refine Iff.trans ?_ ((forall_lt_iff htake hvalue).trans (by simp))
  refine forall₂_congr fun b hb => ?_
  rw [decide_eq_false_iff_not, Float.not_le_iff_lt hvalue (htake.finite b hb)]

theorem sum_tally (l : Layout) (us : List Update) : (Update.tally l us).sum = us.length := by
  induction us using List.reverseRecOn with
  | nil => simp [Update.tally_nil]
  | append_singleton us u ih =>
    have hindex : l.bucketIndex u.value < (Update.tally l us).size := by
      rw [Update.tally, Array.size_ofFn]
      exact l.bucketIndex_lt u.value
    rw [Update.tally_snoc, Buckets.sum_modify hindex, ih, List.length_append, List.length_singleton]

theorem tally_eq_share {l : Layout} (h : Ascends l.bounds) {us : List Update}
    (hus : ∀ u ∈ us, u.applies) : Update.tally l us =
      Array.ofFn fun bucket : Fin l.bucketCount => share l.bounds (us.map (·.value)) bucket := by
  refine congrArg Array.ofFn (funext fun bucket => ?_)
  rw [share, List.countP_map]
  refine List.countP_congr fun u hu => ?_
  rw [beq_iff_eq, bucketIndex_eq_iff h (Update.applies_iff.mp (hus u hu)) bucket.isLt]
  rfl

theorem sum_share {l : Layout} (h : Ascends l.bounds) {us : List Update}
    (hus : ∀ u ∈ us, u.applies) :
    ∑ index ∈ Finset.range l.bucketCount, share l.bounds (us.map (·.value)) index = us.length := by
  rw [← sum_tally l us, tally_eq_share h hus, ← Array.sum_toList, Array.toList_ofFn, List.sum_ofFn]
  exact (Fin.sum_univ_eq_sum_range _ _).symm

end Buckets

end Layout

namespace Record

def partitionReadings (name : String) (bounds values : List Float) : List Reading :=
  (bounds.zipIdx.flatMap fun (bound, index) =>
      bucketReadings name bound (Layout.share bounds values index) index) ++
    [.of (name ++ ".inf.count") (Layout.share bounds values bounds.length).toFloat,
      .of (name ++ ".total") values.length.toFloat]

theorem histogramReadings_eq {name : String} {l : Layout} (h : Layout.Ascends l.bounds)
    {us : List Update} (hus : ∀ u ∈ us, u.applies) :
    histogramReadings name ⟨l, Update.tally l us, us.length⟩ =
      partitionReadings name l.bounds (us.map (·.value)) := by
  have hcounts : (l.bounds.zip (Update.tally l us).toList).zipIdx = l.bounds.zipIdx.map
      fun (bound, index) =>
        ((bound, Layout.share l.bounds (us.map (·.value)) index), index) := by
    rw [Layout.tally_eq_share h hus]
    refine List.ext_getElem (by simp [Layout.bucketCount]) fun i hi hi' => ?_
    simp
  have hoverflow : Buckets.overflow ⟨l, Update.tally l us, us.length⟩ =
      Layout.share l.bounds (us.map (·.value)) l.bounds.length := by
    simp only [Buckets.overflow, Layout.tally_eq_share h hus]
    simp [Array.back?, Layout.bucketCount]
  simp only [histogramReadings, hcounts, hoverflow, partitionReadings, List.flatMap_map,
    List.length_map]

inductive Occasion
  | offer (u : Update)
  | pass
  | reconfigure (blocks : List BlockConfig)

def Occasion.layouts (old : LayoutSet) : Occasion → LayoutSet
  | .reconfigure blocks => (LayoutSet.ofConfig blocks).toOption.getD old
  | _ => old

/-- The values that are still to be reported. Faulty layouts drop none. -/
def Occasion.waiting (us : List Update) : Occasion → List Update
  | .offer u => if u.applies then us ++ [u] else us
  | .pass => []
  | .reconfigure blocks => if (LayoutSet.ofConfig blocks).isOk then [] else us

def meet (settings : Settings) (r : Record) : Occasion → Record
  | .offer u => r.offer u
  | .pass => (r.passHistogram settings).2
  | .reconfigure blocks =>
    match LayoutSet.ofConfig blocks with
    | .ok set => r.retarget (set.resolve r.path)
    | .error _ => r

structure Counts (path : String) (layout : Layout) (us : List Update) (r : Record) : Prop where
  path_eq : r.path = path
  applied : ∀ u ∈ us, u.applies
  input : ∃ sides : Sides Buckets, r.body = .histogram sides ∧
    sides.input = ⟨layout, Update.tally layout us, us.length⟩

section Occasions

variable {path : String} {layout : Layout} {us : List Update} {r : Record}

theorem counts_empty (path : String) (id : Nat) (checks : List Check) (layout : Layout)
    (predictor : Option Predictor) :
    (empty path id checks (.empty layout predictor .histogram)).Counts path layout [] where
  path_eq := rfl
  applied := nofun
  input := ⟨_, rfl, by simp only [Buckets.empty, Update.tally_nil, List.length_nil]⟩

theorem Counts.offer (h : r.Counts path layout us) (u : Update) :
    (r.offer u).Counts path layout (Occasion.waiting us (.offer u)) := by
  obtain ⟨sides, hbody, hinput⟩ := h.input
  rw [Record.offer, Occasion.waiting]
  split_ifs with hu
  · refine ⟨h.path_eq, List.forall_mem_append.mpr ⟨h.applied, List.forall_mem_singleton.mpr hu⟩,
      ⟨sides.input.add u.value, sides.processed⟩, ?_, ?_⟩
    · rw [Record.update, hbody]
      rfl
    · simp [hinput, Buckets.add, Update.tally_snoc]
  · exact h

theorem Counts.pass (h : r.Counts path layout us) (settings : Settings) :
    (r.passHistogram settings).2.Counts path layout [] := by
  obtain ⟨sides, hbody, hinput⟩ := h.input
  rw [passHistogram_snd]
  refine ⟨h.path_eq, nofun, sides.swap Buckets.recycle, ?_, ?_⟩
  · rw [swap, hbody]
    rfl
  · simp [Buckets.recycle, Buckets.empty, hinput, Update.tally_nil]

theorem Counts.retarget (h : r.Counts path layout us) (new : Layout) :
    (r.retarget new).Counts path new [] := by
  obtain ⟨sides, hbody, -⟩ := h.input
  refine ⟨h.path_eq, nofun, ⟨.empty new, .empty new⟩, ?_, ?_⟩
  · rw [Record.retarget, hbody]
    rfl
  · simp only [Buckets.empty, Update.tally_nil, List.length_nil]

theorem Counts.meet {set : LayoutSet} (h : r.Counts path (set.resolve path) us)
    (settings : Settings) (occasion : Occasion) :
    (r.meet settings occasion).Counts path ((occasion.layouts set).resolve path)
      (occasion.waiting us) := by
  cases occasion with
  | offer u => exact h.offer u
  | pass => exact h.pass settings
  | reconfigure blocks =>
    simp only [Record.meet, Occasion.layouts, Occasion.waiting]
    cases LayoutSet.ofConfig blocks with
    | error cause => exact h
    | ok new => exact h.path_eq ▸ h.retarget (new.resolve r.path)

theorem Counts.run {set : LayoutSet} (h : r.Counts path (set.resolve path) us)
    (settings : Settings) (occasions : List Occasion) :
    (occasions.foldl (Record.meet settings) r).Counts path
      ((occasions.foldl Occasion.layouts set).resolve path)
      (occasions.foldl Occasion.waiting us) := by
  induction occasions generalizing r set us with
  | nil => exact h
  | cons first rest ih => exact ih (h.meet settings first)

theorem Counts.report (h : r.Counts path layout us) (hascends : Layout.Ascends layout.bounds)
    (settings : Settings) : (r.passHistogram settings).1.readings =
      if us.isEmpty then []
      else partitionReadings (settings.reportName .histogram path) layout.bounds
        (us.map (·.value)) := by
  obtain ⟨sides, hbody, hinput⟩ := h.input
  simp only [passHistogram, swap, hbody, Body.swap, Sides.swap_processed, hinput]
  by_cases hnone : us = []
  · rw [hnone]
    rfl
  · rw [if_neg (mt List.length_eq_zero_iff.mp hnone), if_neg (by simpa using hnone)]
    simp only [h.path_eq]
    exact histogramReadings_eq hascends h.applied

end Occasions

theorem Occasion.accepted_layouts {blocks : List BlockConfig} {set : LayoutSet}
    (h : LayoutSet.ofConfig blocks = .ok set) (occasion : Occasion) :
    ∃ accepted, LayoutSet.ofConfig accepted = .ok (occasion.layouts set) := by
  cases occasion with
  | reconfigure new =>
    rw [Occasion.layouts]
    cases hnew : LayoutSet.ofConfig new with
    | error cause => exact ⟨blocks, h⟩
    | ok next => exact ⟨new, hnew⟩
  | _ => exact ⟨blocks, h⟩

theorem accepted_foldl {blocks : List BlockConfig} {set : LayoutSet}
    (h : LayoutSet.ofConfig blocks = .ok set) (occasions : List Occasion) :
    ∃ accepted, LayoutSet.ofConfig accepted = .ok (occasions.foldl Occasion.layouts set) := by
  induction occasions generalizing blocks set with
  | nil => exact ⟨blocks, h⟩
  | cons first rest ih =>
    obtain ⟨accepted, hnext⟩ := first.accepted_layouts h
    exact ih hnext

/-- The bounds of accepted layouts ascend strictly, and a report says for each bound how many of the
values since the last report or reconfiguration lie above the bound before it and not above itself,
how many lie above the last one, and how many there are, which is the sum of the others. -/
theorem report_partitions {blocks : List BlockConfig} {set : LayoutSet}
    (h : LayoutSet.ofConfig blocks = .ok set) (path : String) (id : Nat) (checks : List Check)
    (settings : Settings) (occasions : List Occasion) :
    let new := empty path id checks (.empty (set.resolve path) none .histogram)
    let r := occasions.foldl (meet settings) new
    let bounds := ((occasions.foldl Occasion.layouts set).resolve path).bounds
    let values := (occasions.foldl Occasion.waiting []).map (·.value)
    (blocks = [] ∧ set = .standard ∨ List.Forall₂ Layout.Sorts set.layouts blocks) ∧
      bounds.Pairwise (· < ·) ∧
      (r.passHistogram settings).1.readings =
        (if values.isEmpty then []
        else partitionReadings (settings.reportName .histogram path) bounds values) ∧
      (∑ index ∈ Finset.range bounds.length, Layout.share bounds values index) +
        Layout.share bounds values bounds.length = values.length := by
  intro new r bounds values
  obtain ⟨accepted, hnow⟩ := accepted_foldl h occasions
  have hascends := LayoutSet.ascends_of_mem hnow (LayoutSet.resolve_mem hnow path)
  have hcounts := (counts_empty path id checks (set.resolve path) none).run settings occasions
  refine ⟨(LayoutSet.sorts_ofConfig h).1, hascends.pairwise, ?_, ?_⟩
  · rw [hcounts.report hascends, List.isEmpty_map]
  · rw [← Finset.sum_range_succ]
    exact (Layout.sum_share hascends hcounts.applied).trans (List.length_map _).symm

def unordered : BlockConfig := { name := "wide", bounds := [100, 1, 10] }

def orderedLayouts : LayoutSet :=
  let layout : Layout := ⟨"wide", [1, 10, 100], ⟨[], [], false⟩, true⟩
  ⟨[layout], layout⟩

theorem ofConfig_unordered : LayoutSet.ofConfig [unordered] = .ok orderedLayouts := by
  have hsorted : Layout.sortBounds [100, 1, 10] = [1, 10, 100] := by
    have hfirst : DoubleBits.orderKey (Float.toBits 1) ≤ DoubleBits.orderKey (Float.toBits 10) := by
      decide +kernel
    have hsecond :
        ¬ DoubleBits.orderKey (Float.toBits 100) ≤ DoubleBits.orderKey (Float.toBits 1) := by
      decide +kernel
    have hthird :
        ¬ DoubleBits.orderKey (Float.toBits 100) ≤ DoubleBits.orderKey (Float.toBits 10) := by
      decide +kernel
    simp [Layout.sortBounds, List.mergeSort, List.MergeSort.Internal.splitInTwo, hfirst, hsecond,
      hthird]
  have hlayout : Layout.ofConfig unordered = .ok orderedLayouts.fallback := by
    have hfinite : ([100, 1, 10].any fun b : Float => !b.isFinite) = false := by decide +kernel
    have hdistinct : Layout.hasEqualNeighbours [1, 10, 100] = false := by decide +kernel
    simp only [Layout.ofConfig, unordered, hsorted, hfinite, hdistinct]
    rfl
  simp only [LayoutSet.ofConfig, LayoutSet.build, hlayout]
  rfl

/-- A value that is reported, three more with one that is no number among them, and layouts that are
refused. -/
def visits : List Occasion :=
  [.offer ⟨10, .set⟩, .pass, .offer ⟨7, .set⟩, .offer ⟨1000, .set⟩, .offer ⟨0 / 0, .set⟩,
    .reconfigure [{}], .offer ⟨1, .set⟩]

theorem report_partitions_unordered : ∃ settings, Settings.ofConfig {} = .ok settings ∧
    LayoutSet.ofConfig [unordered] = .ok orderedLayouts ∧
    let new := empty "a" 0 [] (.empty (orderedLayouts.resolve "a") none .histogram)
    ((visits.foldl (meet settings) new).passHistogram settings).1.readings =
      partitionReadings (settings.reportName .histogram "a") [1, 10, 100] [7, 1000, 1] ∧
    (List.range 4).map (Layout.share [1, 10, 100] [7, 1000, 1]) = [1, 1, 0, 1] := by
  have hbuilt : (Settings.ofConfig {}).toBool = true := by decide +kernel
  have hvalues : (visits.foldl Occasion.waiting []).map (·.value) = [7, 1000, 1] := by
    decide +kernel
  have hbounds : ((visits.foldl Occasion.layouts orderedLayouts).resolve "a").bounds =
      [1, 10, 100] := by
    decide +kernel
  cases hsettings : Settings.ofConfig {} with
  | error cause => simp [hsettings, Except.toBool] at hbuilt
  | ok settings =>
    have hreport := (report_partitions ofConfig_unordered "a" 0 [] settings visits).2.2.1
    rw [hvalues, hbounds] at hreport
    exact ⟨settings, rfl, ofConfig_unordered, hreport, by decide +kernel⟩

end Record

end Rollup
