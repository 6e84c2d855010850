import Rollup.Proofs.Document.Reading
import Rollup.Proofs.Document.Spelling

/-! Sections of the engine configuration come back as they were written, provided that their numbers
are such as can be read. -/
namespace Rollup

open Document Section

def SameUnder (keys : List String) (entries entries' : List (String × Document)) : Prop :=
  ∀ key ∈ keys, entries.filter (·.1 == key) = entries'.filter (·.1 == key)

section SameUnder

variable {keys : List String} {entries : List (String × Document)}
  {others : List (String × Document)}

theorem filter_of_notMem (h : ∀ key ∈ others.map Prod.fst, key ∉ keys) {key : String}
    (hkey : key ∈ keys) : others.filter (·.1 == key) = [] := by
  rw [List.filter_eq_nil_iff]
  intro entry hentry heq
  apply h entry.1 (List.mem_map_of_mem hentry)
  rwa [eq_of_beq heq]

theorem sameUnder_append (h : ∀ key ∈ others.map Prod.fst, key ∉ keys) :
    SameUnder keys (entries ++ others) entries := by
  intro key hkey
  rw [List.filter_append, filter_of_notMem h hkey, List.append_nil]

theorem sameUnder_prepend (h : ∀ key ∈ others.map Prod.fst, key ∉ keys) :
    SameUnder keys (others ++ entries) entries := by
  intro key hkey
  rw [List.filter_append, filter_of_notMem h hkey, List.nil_append]

end SameUnder

namespace SelectionConfig

def keys : List String := ["whitelist", "blacklist", "fallback_match"]

/-- The selection shares its map with the section that it is flattened into. -/
theorem ofSection_found (a : Access) (c : SelectionConfig) {entries : List (String × Document)}
    (h : SameUnder keys entries c.entries) : ofSection (.found a entries) = .ok c := by
  have hwhite : entries.filter (·.1 == "whitelist") = [("whitelist", .ofTexts c.whitelist)] := by
    simp [h "whitelist" (by decide), SelectionConfig.entries]
  have hblack : entries.filter (·.1 == "blacklist") = [("blacklist", .ofTexts c.blacklist)] := by
    simp [h "blacklist" (by decide), SelectionConfig.entries]
  have hfallback : entries.filter (·.1 == "fallback_match") =
      [("fallback_match", .bool c.fallback)] := by
    simp [h "fallback_match" (by decide), SelectionConfig.entries]
  simp only [ofSection, read_found a hwhite (readTexts_found a c.whitelist),
    read_found a hblack (readTexts_found a c.blacklist),
    read_found a hfallback (readBool_found a c.fallback)]
  rfl

end SelectionConfig

namespace KindConfig

def keys : List String := ["enable", "threads", "prefix", "hash_size"]

structure InRange (c : KindConfig) : Prop where
  threads : ∀ n ∈ c.threads, n ≤ maxWord
  tableSize : ∀ n ∈ c.tableSize, n ≤ maxWord

theorem ofSection_found (a : Access) {c : KindConfig} (hc : c.InRange)
    {entries : List (String × Document)} (h : SameUnder keys entries c.entries) :
    ofSection (.found a entries) = .ok c := by
  have henable : entries.filter (·.1 == "enable") = [("enable", .bool c.enable)] := by
    simp [h "enable" (by decide), KindConfig.entries, filter_optionalEntry]
  have hthreads : entries.filter (·.1 == "threads") = optionalEntry "threads" .ofNat c.threads := by
    simp [h "threads" (by decide), KindConfig.entries, filter_optionalEntry]
  have hprefix : entries.filter (·.1 == "prefix") = optionalEntry "prefix" .text c.pathPrefix := by
    simp [h "prefix" (by decide), KindConfig.entries, filter_optionalEntry]
  have hsize : entries.filter (·.1 == "hash_size") =
      optionalEntry "hash_size" .ofNat c.tableSize := by
    simp [h "hash_size" (by decide), KindConfig.entries, filter_optionalEntry]
  simp only [ofSection, read_found a henable (readBool_found a c.enable),
    read_optional a hthreads fun n hn => readOptional_found_word a (hc.threads n hn),
    read_optional a hprefix fun s _ => readOptional_found_text a s,
    read_optional a hsize fun n hn => readOptional_found_word a (hc.tableSize n hn)]
  rfl

theorem ofDocument_spelled {c : KindConfig} (hc : c.InRange) :
    ofDocument c.toDocument.spelled = .ok c := by
  rw [ofDocument, toDocument, Section.ofFields_spelled]
  exact ofSection_found .own hc fun _ _ => rfl

theorem inRange_default : InRange {} := ⟨nofun, nofun⟩

theorem inRange_of_section {s : Section} {c : KindConfig} (h : ofSection s = .ok c) :
    c.InRange := by
  simp only [ofSection, bind_eq_ok_iff] at h
  obtain ⟨_, -, threads, hthreads, _, -, size, hsize, hc⟩ := h
  cases hc
  exact ⟨(gives_read (gives_readOptional gives_readWord) inRange_default.threads) hthreads,
    (gives_read (gives_readOptional gives_readWord) inRange_default.tableSize) hsize⟩

theorem gives_ofDocument : Gives ofDocument InRange := by
  intro d c h
  obtain ⟨s, -, hc⟩ := bind_eq_ok_iff.mp h
  exact inRange_of_section hc

end KindConfig

namespace StatsConfig

structure InRange (c : StatsConfig) : Prop where
  base : c.base.InRange
  sortThreshold : c.sortThreshold ≤ maxWord

theorem ofDocument_spelled {c : StatsConfig} (hc : c.InRange) :
    ofDocument c.toDocument.spelled = .ok c := by
  have hbase : KindConfig.ofSection (found .shared c.entries) = .ok c.base :=
    KindConfig.ofSection_found .shared hc.base (sameUnder_append (by simp [KindConfig.keys]))
  have hthresholds : c.entries.filter (·.1 == "thresholds") =
      [("thresholds", .text c.thresholds)] := by
    simp [entries, KindConfig.entries, filter_optionalEntry]
  have hsort : c.entries.filter (·.1 == "qsort_threshold") =
      [("qsort_threshold", .ofNat c.sortThreshold)] := by
    simp [entries, KindConfig.entries, filter_optionalEntry]
  rw [ofDocument, toDocument, Section.ofDocument_spelled, ok_bind, settle_found]
  simp only [hbase, read_found .own hthresholds (readText_found .own c.thresholds),
    read_found .own hsort (readWord_found .own hc.sortThreshold)]
  rfl

theorem inRange_default : InRange {} := ⟨KindConfig.inRange_default, by decide⟩

theorem gives_ofDocument : Gives ofDocument InRange := by
  intro d c h
  simp only [ofDocument, bind_eq_ok_iff] at h
  obtain ⟨s, -, base, hbase, _, -, sortThreshold, hsort, hc⟩ := h
  cases hc
  exact ⟨KindConfig.inRange_of_section hbase,
    (gives_read gives_readWord inRange_default.sortThreshold) hsort⟩

end StatsConfig

/-- A section of a switch, a number under a name of its own, and a selection. -/
def readSwitched (name : String) (enable : Bool) (number : Nat)
    (make : Bool → Nat → SelectionConfig → α) (doc : Document) : Except FormError α := do
  let s ← Section.ofDocument doc
  let enable ← s.read "enable" enable Document.readBool
  let number ← s.read name number Document.readWord
  let selection ← SelectionConfig.ofSection s.settle
  return make enable number selection

def switchedEntries (name : String) (enable : Bool) (number : Nat) (c : SelectionConfig) :
    List (String × Document) :=
  [("enable", .bool enable), (name, .ofNat number)] ++ c.entries

section Switched

variable (name : String) {usualEnable : Bool} {usual : Nat}
  {make : Bool → Nat → SelectionConfig → α}

theorem readSwitched_spelled (hname : name ∉ "enable" :: SelectionConfig.keys) (enable : Bool)
    {number : Nat} (hnumber : number ≤ maxWord) (selection : SelectionConfig) :
    readSwitched name usualEnable usual make
      (Document.map (switchedEntries name enable number selection)).spelled =
        .ok (make enable number selection) := by
  simp only [SelectionConfig.keys, List.mem_cons, List.not_mem_nil, or_false, not_or] at hname
  obtain ⟨hswitch, hwhite, hblack, hfallback⟩ := hname
  have hnames : ((switchedEntries name enable number selection).map Prod.fst).Nodup := by
    simp [switchedEntries, SelectionConfig.entries, hwhite, hblack, hfallback, Ne.symm hswitch]
  have henable : ("enable", .bool enable) ∈ switchedEntries name enable number selection := by
    simp [switchedEntries]
  have hentry : (name, .ofNat number) ∈ switchedEntries name enable number selection := by
    simp [switchedEntries]
  have hselection : SelectionConfig.ofSection
      (found .shared (switchedEntries name enable number selection)) = .ok selection :=
    SelectionConfig.ofSection_found .shared selection
      (sameUnder_prepend (by simp [SelectionConfig.keys, hwhite, hblack, hfallback]))
  rw [readSwitched, Section.ofDocument_spelled, ok_bind, settle_found]
  simp only [read_entry .own hnames henable (readBool_found .own enable),
    read_entry .own hnames hentry (readWord_found .own hnumber), hselection]
  rfl

theorem gives_readSwitched {P : α → Prop} (husual : usual ≤ maxWord)
    (hmake : ∀ enable number selection, number ≤ maxWord → P (make enable number selection)) :
    Gives (readSwitched name usualEnable usual make) P := by
  intro d c h
  simp only [readSwitched, bind_eq_ok_iff] at h
  obtain ⟨s, -, enable, -, number, hnumber, selection, -, hc⟩ := h
  cases hc
  exact hmake enable number selection (gives_read gives_readWord husual hnumber)

end Switched

namespace CheckConfig

structure InRange (c : CheckConfig) : Prop where
  leastPoints : c.leastPoints ≤ maxWord

theorem inRange_default : InRange {} := ⟨by decide⟩

theorem ofDocument_spelled {c : CheckConfig} (hc : c.InRange) :
    ofDocument c.toDocument.spelled = .ok c :=
  readSwitched_spelled "min_points" (by decide) c.enable hc.leastPoints c.selection

theorem gives_ofDocument : Gives ofDocument InRange :=
  gives_readSwitched "min_points" inRange_default.leastPoints fun _ _ _ hnumber => ⟨hnumber⟩

end CheckConfig

namespace PredictConfig

structure InRange (c : PredictConfig) : Prop where
  size : c.size ≤ maxWord

theorem inRange_default : InRange {} := ⟨by decide⟩

theorem ofDocument_spelled {c : PredictConfig} (hc : c.InRange) :
    ofDocument c.toDocument.spelled = .ok c :=
  readSwitched_spelled "size" (by decide) c.enable hc.size c.selection

theorem gives_ofDocument : Gives ofDocument InRange :=
  gives_readSwitched "size" inRange_default.size fun _ _ _ hnumber => ⟨hnumber⟩

end PredictConfig

namespace BlockConfig

theorem ofDocument_spelled {c : BlockConfig} (hc : ∀ x ∈ c.bounds, KeepsFloat x) :
    ofDocument c.toDocument.spelled = .ok c := by
  have hnames : (c.entries.map Prod.fst).Nodup := by simp [entries, SelectionConfig.entries]
  have hname : ("name", .text c.name) ∈ c.entries := by simp [entries]
  have henable : ("enable", .bool c.enable) ∈ c.entries := by simp [entries]
  have hdefault : ("default", .bool c.isDefault) ∈ c.entries := by simp [entries]
  have hbounds : ("bounds", .list (c.bounds.map .float)) ∈ c.entries := by simp [entries]
  have hselection : SelectionConfig.ofSection (found .shared c.entries) = .ok c.selection :=
    SelectionConfig.ofSection_found .shared c.selection
      (sameUnder_prepend (by simp [SelectionConfig.keys]))
  rw [ofDocument, toDocument, Section.ofDocument_spelled, ok_bind, settle_found]
  simp only [read_entry .own hnames hname (readText_found .own c.name),
    read_entry .own hnames henable (readBool_found .own c.enable),
    read_entry .own hnames hdefault (readBool_found .own c.isDefault),
    read_entry .own hnames hbounds
      (readList_found .own fun x hx => readFloat_spelled (hc x hx)), hselection]
  rfl

end BlockConfig

namespace SyntheticConfig

structure InRange (c : SyntheticConfig) : Prop where
  maxAbsent : ∀ n ∈ c.maxAbsent, -2147483648 ≤ n ∧ n ≤ 2147483647

theorem ofDocument_spelled {c : SyntheticConfig} (hc : c.InRange) (hkeeps : KeepsFloat c.factor) :
    ofDocument c.toDocument.spelled = .ok c := by
  have hnames : (c.entries.map Prod.fst).Nodup := by
    cases habsent : c.maxAbsent <;> simp [entries, habsent, optionalEntry]
  have htarget : ("target", .text c.target) ∈ c.entries := by simp [entries]
  have hsource : ("source", .ofTexts c.source) ∈ c.entries := by simp [entries]
  have hoperation : ("operation", .text c.operation) ∈ c.entries := by simp [entries]
  have hfactor : ("factor", .float c.factor) ∈ c.entries := by simp [entries]
  have habsent : c.entries.filter (·.1 == "max_absent") =
      optionalEntry "max_absent" .int c.maxAbsent := by
    simp [entries, filter_optionalEntry]
  have henable : ("enable", .bool c.enable) ∈ c.entries := by simp [entries]
  rw [ofDocument, toDocument, Section.ofFields_spelled, ok_bind]
  simp only [read_entry .own hnames htarget (readText_found .own c.target),
    read_entry .own hnames hsource (readTexts_found .own c.source),
    read_entry .own hnames hoperation (readText_found .own c.operation),
    read_entry .own hnames hfactor (readFloat_spelled hkeeps),
    read_optional .own habsent fun n hn => readOptional_found_int32 .own (hc.maxAbsent n hn),
    read_entry .own hnames henable (readBool_found .own c.enable)]
  rfl

theorem inRange_default : InRange {} := ⟨nofun⟩

theorem gives_ofDocument : Gives ofDocument InRange := by
  intro d c h
  simp only [ofDocument, bind_eq_ok_iff] at h
  obtain ⟨s, -, _, -, _, -, _, -, _, -, maxAbsent, habsent, _, -, hc⟩ := h
  cases hc
  exact ⟨(gives_read (gives_readOptional (gives_readInt _ _)) inRange_default.maxAbsent) habsent⟩

end SyntheticConfig

namespace CollectionConfig

structure InRange (c : CollectionConfig) : Prop where
  threshold : c.threshold ≤ maxWord
  gaugeThreshold : c.gaugeThreshold ≤ maxWord

theorem ofDocument_spelled {c : CollectionConfig} (hc : c.InRange) :
    ofDocument c.toDocument.spelled = .ok c := by
  have hnames : (c.entries.map Prod.fst).Nodup := by simp [entries]
  have henable : ("enable", .bool c.enable) ∈ c.entries := by simp [entries]
  have hthreshold : ("threshold", .ofNat c.threshold) ∈ c.entries := by simp [entries]
  have hgauge : ("gauge_threshold", .ofNat c.gaugeThreshold) ∈ c.entries := by simp [entries]
  rw [ofDocument, toDocument, Section.ofFields_spelled, ok_bind]
  simp only [read_entry .own hnames henable (readBool_found .own c.enable),
    read_entry .own hnames hthreshold (readWord_found .own hc.threshold),
    read_entry .own hnames hgauge (readWord_found .own hc.gaugeThreshold)]
  rfl

theorem inRange_default : InRange {} := ⟨by decide, by decide⟩

theorem gives_ofDocument : Gives ofDocument InRange := by
  intro d c h
  simp only [ofDocument, bind_eq_ok_iff] at h
  obtain ⟨s, -, _, -, threshold, hthreshold, gauge, hgauge, hc⟩ := h
  cases hc
  exact ⟨(gives_read gives_readWord inRange_default.threshold) hthreshold,
    (gives_read gives_readWord inRange_default.gaugeThreshold) hgauge⟩

end CollectionConfig

theorem SelfStatsConfig.ofDocument_spelled (c : SelfStatsConfig) :
    ofDocument c.toDocument.spelled = .ok c := by
  have hnames : (c.entries.map Prod.fst).Nodup := by simp [entries]
  have henable : ("enable", .bool c.enable) ∈ c.entries := by simp [entries]
  have hprefix : ("prefix", .text c.pathPrefix) ∈ c.entries := by simp [entries]
  rw [ofDocument, toDocument, Section.ofFields_spelled, ok_bind]
  simp only [read_entry .own hnames henable (readBool_found .own c.enable),
    read_entry .own hnames hprefix (readText_found .own c.pathPrefix)]
  rfl

theorem Dialect.ofDocument_spelled (d : Dialect) :
    ofDocument (Document.text d.name).spelled = .ok d :=
  readName_found .own (by cases d <;> decide)

namespace EngineConfig

structure InRange (c : EngineConfig) : Prop where
  periodMs : c.periodMs ≤ maxWord
  offsetMs : c.offsetMs ≤ maxWord
  bufferSize : c.bufferSize ≤ maxWord
  adder : c.adder.InRange
  gauge : c.gauge.InRange
  stats : c.stats.InRange
  histogram : c.histogram.InRange
  moments : c.moments.InRange
  mode : c.mode.InRange
  predict : c.predict.InRange
  synthetics : ∀ s ∈ c.synthetics, s.InRange
  collection : c.collection.InRange

def floats (c : EngineConfig) : List Float :=
  c.histograms.flatMap (·.bounds) ++ c.synthetics.map (·.factor)

theorem ofDocument_spelled {c : EngineConfig} (hc : c.InRange)
    (hkeeps : ∀ x ∈ c.floats, KeepsFloat x) : ofDocument c.toDocument.spelled = .ok c := by
  have hnames : (c.entries.map Prod.fst).Nodup := by simp [entries]
  have hperiod : ("period_ms", .ofNat c.periodMs) ∈ c.entries := by simp [entries]
  have hoffset : ("offset_ms", .ofNat c.offsetMs) ∈ c.entries := by simp [entries]
  have hsync : ("sync", .bool c.sync) ∈ c.entries := by simp [entries]
  have hdialect : ("dialect", .text c.dialect.name) ∈ c.entries := by simp [entries]
  have hbuffer : ("buffer_size", .ofNat c.bufferSize) ∈ c.entries := by simp [entries]
  have hadder : ("adder", c.adder.toDocument) ∈ c.entries := by simp [entries]
  have hgauge : ("gauge", c.gauge.toDocument) ∈ c.entries := by simp [entries]
  have hstats : ("stats", c.stats.toDocument) ∈ c.entries := by simp [entries]
  have hhistogram : ("histo", c.histogram.toDocument) ∈ c.entries := by simp [entries]
  have hselfStats : ("self_stats", c.selfStats.toDocument) ∈ c.entries := by simp [entries]
  have hmoments : ("moments", c.moments.toDocument) ∈ c.entries := by simp [entries]
  have hmode : ("mode", c.mode.toDocument) ∈ c.entries := by simp [entries]
  have hpredict : ("predict", c.predict.toDocument) ∈ c.entries := by simp [entries]
  have hhistograms : ("histograms", .list (c.histograms.map (·.toDocument))) ∈ c.entries := by
    simp [entries]
  have hsynthetics : ("synths", .list (c.synthetics.map (·.toDocument))) ∈ c.entries := by
    simp [entries]
  have hcollection : ("gc", c.collection.toDocument) ∈ c.entries := by simp [entries]
  have hblock : ∀ b ∈ c.histograms, BlockConfig.ofDocument b.toDocument.spelled = .ok b := by
    intro b hb
    apply BlockConfig.ofDocument_spelled
    exact fun x hx => hkeeps x (List.mem_append_left _ (List.mem_flatMap_of_mem hb hx))
  have hsynthetic : ∀ s ∈ c.synthetics,
      SyntheticConfig.ofDocument s.toDocument.spelled = .ok s := by
    intro s hs
    apply SyntheticConfig.ofDocument_spelled (hc.synthetics s hs)
    exact hkeeps s.factor (List.mem_append_right _ (List.mem_map_of_mem hs))
  rw [ofDocument, toDocument, Section.ofFields_spelled, ok_bind]
  simp only [read_entry .own hnames hperiod (readWord_found .own hc.periodMs),
    read_entry .own hnames hoffset (readWord_found .own hc.offsetMs),
    read_entry .own hnames hsync (readBool_found .own c.sync),
    read_entry .own hnames hdialect c.dialect.ofDocument_spelled,
    read_entry .own hnames hbuffer (readWord_found .own hc.bufferSize),
    read_entry .own hnames hadder (KindConfig.ofDocument_spelled hc.adder),
    read_entry .own hnames hgauge (KindConfig.ofDocument_spelled hc.gauge),
    read_entry .own hnames hstats (StatsConfig.ofDocument_spelled hc.stats),
    read_entry .own hnames hhistogram (KindConfig.ofDocument_spelled hc.histogram),
    read_entry .own hnames hselfStats (SelfStatsConfig.ofDocument_spelled c.selfStats),
    read_entry .own hnames hmoments (CheckConfig.ofDocument_spelled hc.moments),
    read_entry .own hnames hmode (CheckConfig.ofDocument_spelled hc.mode),
    read_entry .own hnames hpredict (PredictConfig.ofDocument_spelled hc.predict),
    read_entry .own hnames hhistograms (readList_found .own hblock),
    read_entry .own hnames hsynthetics (readList_found .own hsynthetic),
    read_entry .own hnames hcollection (CollectionConfig.ofDocument_spelled hc.collection)]
  rfl

theorem inRange_default : InRange {} where
  periodMs := by decide
  offsetMs := by decide
  bufferSize := by decide
  adder := KindConfig.inRange_default
  gauge := KindConfig.inRange_default
  stats := StatsConfig.inRange_default
  histogram := KindConfig.inRange_default
  moments := CheckConfig.inRange_default
  mode := CheckConfig.inRange_default
  predict := PredictConfig.inRange_default
  synthetics := nofun
  collection := CollectionConfig.inRange_default

theorem gives_ofDocument : Gives ofDocument InRange := by
  intro d c h
  simp only [ofDocument, bind_eq_ok_iff] at h
  obtain ⟨s, -, period, hperiod, offset, hoffset, _, -, _, -, buffer, hbuffer, adder, hadder,
    gauge, hgauge, stats, hstats, histogram, hhistogram, _, -, moments, hmoments, mode, hmode,
    predict, hpredict, _, -, synthetics, hsynthetics, collection, hcollection, hc⟩ := h
  cases hc
  have hdefault := inRange_default
  exact {
    periodMs := (gives_read gives_readWord hdefault.periodMs) hperiod
    offsetMs := (gives_read gives_readWord hdefault.offsetMs) hoffset
    bufferSize := (gives_read gives_readWord hdefault.bufferSize) hbuffer
    adder := (gives_read KindConfig.gives_ofDocument hdefault.adder) hadder
    gauge := (gives_read KindConfig.gives_ofDocument hdefault.gauge) hgauge
    stats := (gives_read StatsConfig.gives_ofDocument hdefault.stats) hstats
    histogram := (gives_read KindConfig.gives_ofDocument hdefault.histogram) hhistogram
    moments := (gives_read CheckConfig.gives_ofDocument hdefault.moments) hmoments
    mode := (gives_read CheckConfig.gives_ofDocument hdefault.mode) hmode
    predict := (gives_read PredictConfig.gives_ofDocument hdefault.predict) hpredict
    synthetics :=
      (gives_read (gives_readList SyntheticConfig.gives_ofDocument) hdefault.synthetics) hsynthetics
    collection := (gives_read CollectionConfig.gives_ofDocument hdefault.collection) hcollection }

end EngineConfig

end Rollup
