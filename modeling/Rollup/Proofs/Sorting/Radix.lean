import Mathlib.Logic.Function.Basic
import Rollup.Proofs.Sorting.Arrangement

/-! The radix sort stays within its buffers and sorts, whatever they held. A pass deals the keys out
by digit and keeps the order within each digit, so that it extends an order by the lower digits. -/
namespace Rollup.Sorting

variable {pass : Nat} {keys : List UInt64}

theorem radix_eq : radix = 2 ^ digitBits := rfl

theorem digit_lt (pass : Nat) (key : UInt64) : digit pass key < radix :=
  Nat.mod_lt _ (by decide)

section Dealing

def dealt (pass : Nat) (keys : List UInt64) : List UInt64 :=
  (List.range radix).flatMap fun d => keys.filter (digit pass · = d)

theorem dealt_perm (pass : Nat) (keys : List UInt64) : (dealt pass keys).Perm keys := by
  have hupTo : ∀ n, ((List.range n).flatMap fun d => keys.filter (digit pass · = d)).Perm
      (keys.filter (digit pass · < n)) := by
    intro n
    induction n with
    | zero => simp
    | succ n ih =>
      have hsplit := List.filter_append_perm (digit pass · < n) (keys.filter (digit pass · < n + 1))
      rw [List.filter_filter, List.filter_filter] at hsplit
      have hbelow : keys.filter (fun key => digit pass key < n && digit pass key < n + 1) =
          keys.filter (digit pass · < n) := by
        refine List.filter_congr fun key _ => ?_
        rw [← Bool.decide_and, decide_eq_decide]
        omega
      have hlast : keys.filter (fun key => !decide (digit pass key < n) && digit pass key < n + 1) =
          keys.filter (digit pass · = n) := by
        refine List.filter_congr fun key _ => ?_
        rw [← decide_not, ← Bool.decide_and, decide_eq_decide]
        omega
      rw [hbelow, hlast] at hsplit
      rw [List.range_succ, List.flatMap_append, List.flatMap_singleton]
      exact (ih.append_right _).trans hsplit
  have hall : keys.filter (digit pass · < radix) = keys :=
    List.filter_eq_self.mpr fun key _ => decide_eq_true (digit_lt pass key)
  have hdealt := hupTo radix
  rwa [hall] at hdealt

def lowerDigits (pass : Nat) (key : UInt64) : Nat := key.toNat % 2 ^ (digitBits * pass)

theorem lowerDigits_succ (pass : Nat) (key : UInt64) :
    lowerDigits (pass + 1) key =
      lowerDigits pass key + 2 ^ (digitBits * pass) * digit pass key := by
  rw [lowerDigits, Nat.mul_succ, Nat.pow_add, Nat.mod_mul, digit, Nat.shiftRight_eq_div_pow,
    radix_eq]
  rfl

theorem lowerDigits_lt (pass : Nat) (key : UInt64) :
    lowerDigits pass key < 2 ^ (digitBits * pass) := Nat.mod_lt _ (Nat.two_pow_pos _)

theorem pairwise_dealt (h : keys.Pairwise fun a b => lowerDigits pass a ≤ lowerDigits pass b) :
    (dealt pass keys).Pairwise fun a b => lowerDigits (pass + 1) a ≤ lowerDigits (pass + 1) b := by
  have hsame : ∀ d, (keys.filter (digit pass · = d)).Pairwise fun a b =>
      lowerDigits (pass + 1) a ≤ lowerDigits (pass + 1) b := by
    intro d
    refine (h.filter _).imp_of_mem fun ha hb hle => ?_
    rw [lowerDigits_succ, lowerDigits_succ, of_decide_eq_true (List.mem_filter.mp ha).2,
      of_decide_eq_true (List.mem_filter.mp hb).2]
    exact Nat.add_le_add_right hle _
  have hless : ∀ a b : UInt64, digit pass a < digit pass b →
      lowerDigits (pass + 1) a ≤ lowerDigits (pass + 1) b := by
    intro a b hab
    rw [lowerDigits_succ, lowerDigits_succ]
    calc lowerDigits pass a + 2 ^ (digitBits * pass) * digit pass a
        ≤ 2 ^ (digitBits * pass) * (digit pass a + 1) := by
          have := lowerDigits_lt pass a
          rw [Nat.mul_succ]
          omega
      _ ≤ 2 ^ (digitBits * pass) * digit pass b := Nat.mul_le_mul_left _ hab
      _ ≤ lowerDigits pass b + 2 ^ (digitBits * pass) * digit pass b := Nat.le_add_left _ _
  refine List.pairwise_flatMap.mpr ⟨fun d _ => hsame d, ?_⟩
  refine List.pairwise_lt_range.imp fun hcd a ha b hb => hless a b ?_
  rwa [of_decide_eq_true (List.mem_filter.mp ha).2, of_decide_eq_true (List.mem_filter.mp hb).2]

end Dealing

section Counting

theorem digitCounts_toList (pass : Nat) (keys : Array UInt64) :
    (digitCounts pass keys).toList =
      (List.range radix).map fun d => keys.toList.countP (digit pass · = d) := by
  have hcounts : ∀ (keys : List UInt64) (counts : Array Nat) (d : Nat),
      (keys.foldl (fun counts key => counts.modify (digit pass key) (· + 1)) counts)[d]? =
        counts[d]?.map (· + keys.countP (digit pass · = d)) := by
    intro keys
    induction keys with
    | nil => simp
    | cons key rest ih =>
      intro counts d
      rw [List.foldl_cons, ih, Array.getElem?_modify, List.countP_cons]
      by_cases hkey : digit pass key = d
      · cases counts[d]? with
        | none => simp [hkey]
        | some count =>
          simp only [hkey, if_true, Option.map_some, Option.some.injEq, decide_true]
          omega
      · simp [hkey]
  refine List.ext_getElem? fun d => ?_
  rw [Array.getElem?_toList, digitCounts, ← Array.foldl_toList, hcounts]
  by_cases hd : d < radix <;> simp [hd]

/-- The counts do not depend on the order of the keys, so that those of the unsorted keys hold good
for every pass. -/
theorem digitCounts_eq_of_perm {keys keys' : Array UInt64} (h : keys.Perm keys') (pass : Nat) :
    digitCounts pass keys = digitCounts pass keys' := by
  rw [← Array.toList_inj, digitCounts_toList, digitCounts_toList]
  exact List.map_congr_left fun d _ => h.toList.countP_eq _

theorem startsOf_toList (counts : Array Nat) :
    (startsOf counts).toList =
      (List.range counts.size).map fun d => (counts.toList.take d).sum := by
  have hstarts : ∀ (counts : List Nat) (starts : Array Nat) (sum : Nat),
      (counts.foldl (fun state count => (state.1.push state.2, state.2 + count))
        (starts, sum)).1.toList =
        starts.toList ++ (List.range counts.length).map fun d => sum + (counts.take d).sum := by
    intro counts
    induction counts with
    | nil => simp
    | cons count rest ih =>
      intro starts sum
      rw [List.foldl_cons, ih, List.length_cons, List.range_succ_eq_map]
      simp [Nat.add_assoc]
  rw [startsOf, ← Array.foldl_toList]
  refine (hstarts counts.toList _ 0).trans ?_
  simp

end Counting

section Scattering

variable {target : Array UInt64} {starts : Array Nat}

theorem flatMap_range_split {d n : Nat} (h : d < n) (f : Nat → List UInt64) :
    (List.range n).flatMap f =
      (List.range d).flatMap f ++ (f d ++ (List.range' (d + 1) (n - d - 1)).flatMap f) := by
  have hsplit : List.range n = List.range d ++ d :: List.range' (d + 1) (n - d - 1) := by
    have happend := List.range'_append_1 (s := 0) (m := d) (n := n - d - 1 + 1)
    rw [Nat.zero_add, show d + (n - d - 1 + 1) = n by omega] at happend
    rw [← List.range'_succ, List.range_eq_range', List.range_eq_range', happend]
  rw [hsplit, List.flatMap_append, List.flatMap_cons]

theorem set_first_free {written free : Nat → List UInt64} {d p : Nat} {place key : UInt64}
    {others : List UInt64} (hd : d < radix)
    (hfree : free d = place :: others)
    (hp : p = ((List.range d).flatMap fun c => written c ++ free c).length + (written d).length) :
    ((List.range radix).flatMap fun c => written c ++ free c).set p key =
      (List.range radix).flatMap fun c => Function.update written d (written d ++ [key]) c ++
        Function.update free d others c := by
  have hothers : ∀ c, c ≠ d → Function.update written d (written d ++ [key]) c ++
      Function.update free d others c = written c ++ free c := by
    intro c hc
    rw [Function.update_of_ne hc, Function.update_of_ne hc]
  have hbefore : ((List.range d).flatMap fun c =>
      Function.update written d (written d ++ [key]) c ++ Function.update free d others c) =
        (List.range d).flatMap fun c => written c ++ free c :=
    List.flatMap_congr fun c hc => hothers c (Nat.ne_of_lt (List.mem_range.mp hc))
  have hafter : ((List.range' (d + 1) (radix - d - 1)).flatMap fun c =>
      Function.update written d (written d ++ [key]) c ++ Function.update free d others c) =
        (List.range' (d + 1) (radix - d - 1)).flatMap fun c => written c ++ free c :=
    List.flatMap_congr fun c hc => hothers c (Nat.ne_of_gt (List.mem_range'_1.mp hc).1)
  rw [flatMap_range_split hd, flatMap_range_split hd, hbefore, hafter, Function.update_self,
    Function.update_self, hfree, hp]
  simp

theorem length_write {written free : Nat → List UInt64} {d : Nat} {place : UInt64}
    {others : List UInt64} (key : UInt64) (hplace : free d = place :: others) (c : Nat) :
    (Function.update written d (written d ++ [key]) c ++ Function.update free d others c).length =
      (written c ++ free c).length := by
  by_cases hcd : c = d
  · subst hcd
    simp [hplace]
  · rw [Function.update_of_ne hcd, Function.update_of_ne hcd]

/-- A scatter under way. The places of a digit are those written and those still free, which are
as many as its keys to come. -/
structure Scattering (pass : Nat) (rest : List UInt64) (starts : Array Nat) (target : Array UInt64)
    (written free : Nat → List UInt64) : Prop where
  places : target.toList = (List.range radix).flatMap fun d => written d ++ free d
  enough : ∀ d, d < radix → (free d).length = rest.countP (digit pass · = d)
  counted : ∀ d, d < radix → starts[d]? =
    some (((List.range d).flatMap fun c => written c ++ free c).length + (written d).length)

namespace Scattering

variable {key : UInt64} {rest : List UInt64} {written free : Nat → List UInt64}

theorem exists_place (h : Scattering pass (key :: rest) starts target written free) :
    ∃ place others, free (digit pass key) = place :: others := by
  refine List.exists_cons_of_length_pos ?_
  rw [h.enough _ (digit_lt pass key), List.countP_cons_of_pos (by simp)]
  exact Nat.succ_pos _

variable {place : UInt64} {others : List UInt64} {p : Nat}

theorem lt_size (h : Scattering pass (key :: rest) starts target written free)
    (hplace : free (digit pass key) = place :: others)
    (hposition : starts[digit pass key]? = some p) : p < target.size := by
  rw [h.counted _ (digit_lt pass key), Option.some.injEq] at hposition
  rw [← Array.length_toList, h.places, flatMap_range_split (digit_lt pass key), ← hposition, hplace]
  simp

theorem write (h : Scattering pass (key :: rest) starts target written free)
    (hplace : free (digit pass key) = place :: others)
    (hposition : starts[digit pass key]? = some p) (hlt : p < target.size) :
    Scattering pass rest (starts.modify (digit pass key) (· + 1)) (target.set p key hlt)
      (Function.update written (digit pass key) (written (digit pass key) ++ [key]))
      (Function.update free (digit pass key) others) := by
  have hstart := h.counted _ (digit_lt pass key)
  rw [hposition, Option.some.injEq] at hstart
  constructor
  case places => rw [Array.toList_set, h.places, set_first_free (digit_lt pass key) hplace hstart]
  case enough =>
    intro c hc
    have hcount := h.enough c hc
    by_cases hcd : c = digit pass key
    · subst hcd
      rw [hplace, List.countP_cons_of_pos (by simp)] at hcount
      rw [Function.update_self]
      exact Nat.succ.inj hcount
    · rw [Function.update_of_ne hcd, hcount,
        List.countP_cons_of_neg (by simpa using Ne.symm hcd)]
  case counted =>
    intro c hc
    rw [Array.getElem?_modify, h.counted c hc, List.length_flatMap, List.length_flatMap]
    simp only [length_write key hplace]
    by_cases hcd : digit pass key = c
    · subst hcd
      simp [Nat.add_assoc]
    · simp [hcd, Function.update_of_ne (Ne.symm hcd)]

end Scattering

theorem scatter_spec {rest : List UInt64} {written free : Nat → List UInt64}
    (h : Scattering pass rest starts target written free) :
    ∃ sorted, scatter pass rest starts target = some sorted ∧
      sorted.toList = (List.range radix).flatMap fun d =>
        written d ++ rest.filter (digit pass · = d) := by
  induction rest generalizing target starts written free with
  | nil =>
    refine ⟨target, rfl, ?_⟩
    rw [h.places]
    refine List.flatMap_congr fun d hd => ?_
    have hempty := h.enough d (List.mem_range.mp hd)
    rw [List.countP_nil, List.length_eq_zero_iff] at hempty
    rw [hempty, List.filter_nil]
  | cons key rest ih =>
    obtain ⟨place, others, hplace⟩ := h.exists_place
    obtain ⟨p, hposition⟩ : ∃ p, starts[digit pass key]? = some p :=
      ⟨_, h.counted _ (digit_lt pass key)⟩
    have hlt := h.lt_size hplace hposition
    obtain ⟨sorted, hsorted, htoList⟩ := ih (h.write hplace hposition hlt)
    refine ⟨sorted, ?_, ?_⟩
    · simp only [scatter, hposition, Option.bind_eq_bind, Option.bind_some, dif_pos hlt, hsorted]
    · rw [htoList]
      refine List.flatMap_congr fun c _ => ?_
      by_cases hcd : c = digit pass key
      · subst hcd
        simp
      · rw [Function.update_of_ne hcd, List.filter_cons_of_neg (by simpa using Ne.symm hcd)]

theorem exists_places {n : Nat} (sizes : Nat → Nat) (buffer : List UInt64)
    (h : buffer.length = ((List.range n).map sizes).sum) :
    ∃ free : Nat → List UInt64, buffer = (List.range n).flatMap free ∧
      ∀ d, d < n → (free d).length = sizes d := by
  induction n generalizing buffer with
  | zero => exact ⟨fun _ => [], List.length_eq_zero_iff.mp h, by simp⟩
  | succ n ih =>
    rw [List.range_succ, List.map_append, List.sum_append, List.map_singleton,
      List.sum_singleton] at h
    obtain ⟨free, hfree, hlength⟩ := ih (buffer.take (buffer.length - sizes n)) (by
      rw [List.length_take]
      omega)
    refine ⟨Function.update free n (buffer.drop (buffer.length - sizes n)), ?_, fun d hd => ?_⟩
    · have hbefore : (List.range n).flatMap (Function.update free n
          (buffer.drop (buffer.length - sizes n))) = (List.range n).flatMap free :=
        List.flatMap_congr fun d hd =>
          Function.update_of_ne (Nat.ne_of_lt (List.mem_range.mp hd)) _ _
      rw [List.range_succ, List.flatMap_append, hbefore, ← hfree, List.flatMap_singleton,
        Function.update_self, List.take_append_drop]
    · by_cases hdn : d = n
      · rw [hdn, Function.update_self, List.length_drop]
        omega
      · rw [Function.update_of_ne hdn]
        exact hlength d (by omega)

theorem scatter_dealt {counted source : Array UInt64} (pass : Nat) (h : target.size = source.size)
    (hcounted : source.Perm counted) :
    ∃ sorted, scatter pass source.toList (startsOf (digitCounts pass counted)) target =
        some sorted ∧
      sorted.toList = dealt pass source.toList := by
  rw [← digitCounts_eq_of_perm hcounted]
  have hlength : target.toList.length =
      ((List.range radix).map fun d => source.toList.countP (digit pass · = d)).sum := by
    have hdealt := (dealt_perm pass source.toList).length_eq
    rw [dealt, List.length_flatMap] at hdealt
    rw [Array.length_toList, h, ← Array.length_toList, ← hdealt]
    simp only [List.countP_eq_length_filter]
  obtain ⟨free, htarget, hfree⟩ := exists_places _ target.toList hlength
  have hstarts : ∀ d, d < radix → (startsOf (digitCounts pass source))[d]? =
      some (((List.range d).flatMap fun c => [] ++ free c).length + ([] : List UInt64).length) := by
    intro d hd
    have hsize : (digitCounts pass source).size = radix := by
      rw [← Array.length_toList, digitCounts_toList, List.length_map, List.length_range]
    rw [← Array.getElem?_toList, startsOf_toList, digitCounts_toList, hsize, List.getElem?_map,
      List.getElem?_range hd, Option.map_some, ← List.map_take, List.take_range,
      Nat.min_eq_left (Nat.le_of_lt hd), List.length_flatMap]
    refine congrArg (fun sizes => some (List.sum sizes)) (List.map_congr_left fun c hc => ?_)
    exact (hfree c (Nat.lt_trans (List.mem_range.mp hc) hd)).symm
  have hstart : Scattering pass source.toList (startsOf (digitCounts pass source)) target
      (fun _ => []) free := ⟨htarget, hfree, hstarts⟩
  obtain ⟨sorted, hsorted, htoList⟩ := scatter_spec hstart
  exact ⟨sorted, hsorted, htoList⟩

theorem radixPasses_spec {counted source : Array UInt64} (count pass : Nat)
    (h : target.size = source.size) (hcounted : source.Perm counted)
    (hsource : source.toList.Pairwise fun a b => lowerDigits pass a ≤ lowerDigits pass b) :
    ∃ sorted scratch, radixPasses ((List.range' pass count).map fun pass =>
        startsOf (digitCounts pass counted)) pass source target = some (sorted, scratch) ∧
      sorted.Perm source ∧
      sorted.toList.Pairwise fun a b =>
        lowerDigits (pass + count) a ≤ lowerDigits (pass + count) b := by
  induction count generalizing pass source target with
  | zero => exact ⟨source, target, rfl, .refl _, hsource⟩
  | succ count ih =>
    obtain ⟨dealtKeys, hpass, hdealt⟩ := scatter_dealt pass h hcounted
    have hperm : dealtKeys.Perm source :=
      Array.perm_iff_toList_perm.mpr (hdealt ▸ dealt_perm pass source.toList)
    have hsize : source.size = dealtKeys.size := hperm.size_eq.symm
    obtain ⟨sorted, scratch, hrest, hsorted, hpairwise⟩ := ih (pass + 1) hsize
      (hperm.trans hcounted) (hdealt ▸ pairwise_dealt hsource)
    refine ⟨sorted, scratch, ?_, hsorted.trans hperm, ?_⟩
    · simp only [List.range'_succ, List.map_cons, radixPasses, hpass, Option.bind_eq_bind,
        Option.bind_some, hrest]
    · rwa [Nat.add_right_comm, Nat.add_assoc] at hpairwise

theorem radix?_spec (keys : Array UInt64) (w : Workspace) :
    ∃ sorted after, radix? keys w = some (sorted, after) ∧ Arranges keys sorted := by
  by_cases hsmall : keys.size < 2
  · exact ⟨keys, w, if_pos hsmall, .refl _, ascending_of_get! fun i j hij hj => by omega⟩
  · have hplaces : (w.places keys.size).size = keys.size := by
      simp [Workspace.places]
      omega
    have hnone : keys.toList.Pairwise fun a b => lowerDigits 0 a ≤ lowerDigits 0 b :=
      List.pairwise_of_forall fun a b => by simp [lowerDigits, Nat.mod_one]
    obtain ⟨sorted, scratch, hpasses, hperm, hpairwise⟩ :=
      radixPasses_spec passes 0 hplaces (.refl keys) hnone
    have hall : ∀ key, lowerDigits (0 + passes) key = key.toNat := fun key =>
      Nat.mod_eq_of_lt (Nat.lt_of_lt_of_le key.toNat_lt (by decide))
    refine ⟨sorted, ⟨scratch⟩, ?_, hperm, ?_⟩
    · simp only [radix?, if_neg hsmall, startsOfAll, List.range_eq_range', hpasses,
        Option.bind_eq_bind, Option.bind_some]
    · simp only [hall] at hpairwise
      exact hpairwise.imp UInt64.le_iff_toNat_le.mpr

end Scattering

end Rollup.Sorting
