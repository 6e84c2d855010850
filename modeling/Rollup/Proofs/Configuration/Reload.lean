import Rollup.Configuration.Schema
import Rollup.Proofs.Config.Reload
import Rollup.Proofs.Document.Evaluation

/-! A configuration that is saved and loaded again is the same one. Whatever can be loaded or
overridden is in the range of its form, its tags are sorted, and it is valid. -/
namespace Rollup

open Document Section

theorem Level.read_spelled (l : Level) :
    readName Level.all Level.name (Document.text l.name).spelled = .ok l :=
  readName_found .own (by cases l <;> decide)

theorem LogFormat.read_spelled (f : LogFormat) :
    readName LogFormat.all LogFormat.name (Document.text f.name).spelled = .ok f :=
  readName_found .own (by cases f <;> decide)

theorem LogConfig.ofDocument_spelled (c : LogConfig) : ofDocument c.toDocument.spelled = .ok c := by
  have hnames : (c.entries.map Prod.fst).Nodup := by simp [entries]
  have hlevel : ("level", .text c.level.name) ∈ c.entries := by simp [entries]
  have hformat : ("format", .text c.format.name) ∈ c.entries := by simp [entries]
  have hbacktraces : ("enable_backtraces", .bool c.backtraces) ∈ c.entries := by simp [entries]
  rw [ofDocument, toDocument, Section.ofFields_spelled, ok_bind]
  simp only [read_entry .own hnames hlevel c.level.read_spelled,
    read_entry .own hnames hformat c.format.read_spelled,
    read_entry .own hnames hbacktraces (readBool_found .own c.backtraces)]
  rfl

section Tags

variable {tags : List (String × String)} {key value : String}

def Tidy (tags : List (String × String)) : Prop := tags.Pairwise fun a b => a.1 < b.1

theorem mem_putTag {tag : String × String} (h : tag ∈ putTag key value tags) :
    tag = (key, value) ∨ tag ∈ tags := by
  induction tags with
  | nil => exact .inl (List.mem_singleton.mp h)
  | cons first rest ih =>
    obtain ⟨k, v⟩ := first
    rw [putTag] at h
    split_ifs at h
    · exact (List.mem_cons.mp h).imp_right (List.mem_cons_of_mem _)
    · exact List.mem_cons.mp h
    · obtain rfl | hrest := List.mem_cons.mp h
      · exact .inr List.mem_cons_self
      · exact (ih hrest).imp_right (List.mem_cons_of_mem _)

theorem tidy_putTag (h : Tidy tags) : Tidy (putTag key value tags) := by
  induction tags with
  | nil => exact List.pairwise_singleton _ _
  | cons first rest ih =>
    obtain ⟨k, v⟩ := first
    obtain ⟨hfirst, hrest⟩ := List.pairwise_cons.mp h
    rw [putTag]
    split_ifs with heq hlt
    · rw [heq]
      exact List.pairwise_cons.mpr ⟨hfirst, hrest⟩
    · refine List.pairwise_cons.mpr ⟨fun tag htag => ?_, h⟩
      obtain rfl | htag := List.mem_cons.mp htag
      · exact hlt
      · exact Std.lt_trans hlt (hfirst tag htag)
    · refine List.pairwise_cons.mpr ⟨fun tag htag => ?_, ih hrest⟩
      obtain rfl | htag := mem_putTag htag
      · exact Std.lt_of_le_of_ne hlt (Ne.symm heq)
      · exact hfirst tag htag

theorem putTag_of_last (h : ∀ tag ∈ tags, tag.1 < key) :
    putTag key value tags = tags ++ [(key, value)] := by
  induction tags with
  | nil => rfl
  | cons first rest ih =>
    obtain ⟨k, v⟩ := first
    rw [List.forall_mem_cons] at h
    rw [putTag, if_neg (String.ne_of_lt h.1).symm, if_neg (String.lt_asymm h.1), ih h.2,
      List.cons_append]

namespace MetricsConfig

theorem tidy_readTag {tags tags' : List (String × String)} {entry : String × Document}
    (h : Tidy tags) (hread : readTag tags entry = .ok tags') : Tidy tags' := by
  obtain ⟨value, -, hput⟩ := bind_eq_ok_iff.mp hread
  cases hput
  exact tidy_putTag h

theorem gives_readTags : Gives readTags Tidy := by
  have hfold : ∀ (entries : List (String × Document)) (tags tags' : List (String × String)),
      Tidy tags → entries.foldlM readTag tags = .ok tags' → Tidy tags' := by
    intro entries
    induction entries with
    | nil =>
      intro tags tags' h hread
      cases hread
      exact h
    | cons first rest ih =>
      intro tags tags' h hread
      rw [List.foldlM_cons, bind_eq_ok_iff] at hread
      obtain ⟨next, hnext, hrest⟩ := hread
      exact ih next tags' (tidy_readTag h hnext) hrest
  intro d tags hread
  obtain ⟨entries, -, hentries⟩ := bind_eq_ok_iff.mp hread
  exact hfold entries [] tags List.Pairwise.nil hentries

theorem readTag_spelled (h : ∀ tag ∈ tags, tag.1 < key) :
    readTag tags (key, (Document.text value).spelled) = .ok (tags ++ [(key, value)]) := by
  have hread : readText (Document.text value).spelled = .ok value := readText_found .own value
  rw [readTag, hread, ok_bind, putTag_of_last h]
  rfl

theorem readTags_spelled (h : Tidy tags) : readTags (ofTags tags).spelled = .ok tags := by
  have hfold : ∀ before after : List (String × String), Tidy (before ++ after) →
      (after.map fun tag => (tag.1, (Document.text tag.2).spelled)).foldlM readTag before =
        .ok (before ++ after) := by
    intro before after
    induction after generalizing before with
    | nil =>
      intro h
      rw [List.append_nil]
      rfl
    | cons first rest ih =>
      intro h
      have hlast : ∀ tag ∈ before, tag.1 < first.1 := fun tag htag =>
        (List.pairwise_append.mp h).2.2 tag htag first List.mem_cons_self
      rw [List.append_cons] at h ⊢
      rw [List.map_cons, List.foldlM_cons, readTag_spelled hlast, ok_bind, ih _ h]
  rw [readTags, ofTags, spelled, spelledEntries_eq, List.map_map]
  exact hfold [] tags h

theorem readText?_spelled (value : Option String) :
    readOptional readText (ofText? value).spelled = .ok value := by
  cases value with
  | none => rfl
  | some s => exact readOptional_found_text .own s

theorem ofDocument_spelled {c : MetricsConfig} (hc : Tidy c.defaultTags) :
    ofDocument c.toDocument.spelled = .ok c := by
  have hnames : (c.entries.map Prod.fst).Nodup := by simp [entries]
  have hstatsd : ("statsd", ofText? c.statsd) ∈ c.entries := by simp [entries]
  have hprefix : ("prefix", .text c.namePrefix) ∈ c.entries := by simp [entries]
  have htags : ("default_tags", ofTags c.defaultTags) ∈ c.entries := by simp [entries]
  have hhostname : ("hostname_tag", ofText? c.hostnameTag) ∈ c.entries := by simp [entries]
  rw [ofDocument, toDocument, Section.ofFields_spelled, ok_bind]
  simp only [read_entry .own hnames hstatsd (readText?_spelled c.statsd),
    read_entry .own hnames hprefix (readText_found .own c.namePrefix),
    read_entry .own hnames htags (readTags_spelled hc),
    read_entry .own hnames hhostname (readText?_spelled c.hostnameTag)]
  rfl

theorem tidy_default : Tidy ({} : MetricsConfig).defaultTags := List.Pairwise.nil

theorem gives_ofDocument : Gives ofDocument fun c => Tidy c.defaultTags := by
  intro d c h
  simp only [ofDocument, bind_eq_ok_iff] at h
  obtain ⟨s, -, _, -, _, -, tags, htags, _, -, hc⟩ := h
  cases hc
  exact (gives_read gives_readTags tidy_default) htags

end MetricsConfig

end Tags

namespace Configuration

structure Sound (c : Configuration) : Prop where
  tags : Tidy c.metrics.defaultTags
  engine : c.engine.InRange
  valid : c.engine.validate = .ok ()

theorem sound_default (folder : String) : Sound { folder := folder } where
  tags := MetricsConfig.tidy_default
  engine := EngineConfig.inRange_default
  valid := by
    have hvalid : ({} : EngineConfig).validate.toBool = true := by decide +kernel
    change ({} : EngineConfig).validate = .ok ()
    cases hresult : ({} : EngineConfig).validate with
    | ok => rfl
    | error cause => rw [hresult] at hvalid; cases hvalid

theorem sound_ofDocument {folder : String} {d : Document} {c : Configuration}
    (h : ofDocument folder d = .ok c) (hvalid : c.engine.validate = .ok ()) : c.Sound := by
  simp only [ofDocument, bind_eq_ok_iff] at h
  obtain ⟨s, -, logging, -, metrics, hmetrics, engine, hengine, hc⟩ := h
  cases hc
  exact {
    tags := (gives_read MetricsConfig.gives_ofDocument MetricsConfig.tidy_default) hmetrics
    engine := (gives_read EngineConfig.gives_ofDocument EngineConfig.inRange_default) hengine
    valid := hvalid }

theorem ofYaml_eq_ok_iff {place : TroublePlace} {folder text : String} {c : Configuration} :
    ofYaml place folder text = .ok c ↔ ∃ d, Yaml.read text = .ok d ∧
      ofDocument folder d = .ok c ∧ c.engine.validate = .ok () := by
  simp only [ofYaml, bind_eq_ok_iff, mapError_eq_ok_iff]
  constructor
  · rintro ⟨d, hd, c', hc', _, hvalid, hc⟩
    cases hc
    exact ⟨d, hd, hc', hvalid⟩
  · rintro ⟨d, hd, hc, hvalid⟩
    exact ⟨d, hd, c, hc, (), hvalid, rfl⟩

theorem sound_ofYaml {place : TroublePlace} {folder text : String} {c : Configuration}
    (h : ofYaml place folder text = .ok c) : c.Sound := by
  obtain ⟨d, -, hc, hvalid⟩ := ofYaml_eq_ok_iff.mp h
  exact sound_ofDocument hc hvalid

def Keeps (step : String → Configuration → Overridden) : Prop :=
  ∀ ⦃text : String⦄ ⦃c c' : Configuration⦄, c.Sound → step text c = (.ok (), c') → c'.Sound

theorem keeps_overrideLevel : Keeps overrideLevel := by
  intro text c c' hc h
  unfold overrideLevel at h
  split at h <;> cases h
  exact ⟨hc.tags, hc.engine, hc.valid⟩

theorem readDigits_le {bound soFar n : Nat} {digits : List Char} (hsoFar : soFar ≤ bound)
    (h : readDigits bound soFar digits = .ok n) : n ≤ bound := by
  induction digits generalizing soFar with
  | nil =>
    cases h
    exact hsoFar
  | cons c rest ih =>
    simp only [readDigits] at h
    split at h
    · cases h
    · split at h
      · cases h
      · exact ih (by omega) h

theorem readNat_le {bound n : Nat} {text : List Char} (h : readNat bound text = .ok n) :
    n ≤ bound := by
  unfold readNat at h
  split at h
  · cases h
  · cases h
  · exact readDigits_le (Nat.zero_le bound) h
  · exact readDigits_le (Nat.zero_le bound) h

theorem keeps_overridePeriod : Keeps overridePeriod := by
  intro text c c' hc h
  unfold overridePeriod at h
  split at h
  · cases h
  · rename_i period hperiod
    have hengine : ({ c.engine with periodMs := period } : EngineConfig).InRange :=
      { hc.engine with periodMs := readNat_le hperiod }
    dsimp only at h
    split at h
    · rename_i hvalid
      cases h
      exact ⟨hc.tags, hengine, hvalid⟩
    · cases h

theorem keeps_overrideStatsd : Keeps overrideStatsd := by
  intro text c c' hc h
  cases h
  exact ⟨hc.tags, hc.engine, hc.valid⟩

theorem Keeps.andThen {step : String → Configuration → Overridden} (hstep : Keeps step)
    {text : Option String} {before : Overridden} {c' : Configuration}
    (hbefore : ∀ c, before = (.ok (), c) → c.Sound) (h : andThen step text before = (.ok (), c')) :
    c'.Sound := by
  unfold Configuration.andThen at h
  split at h
  · split at h
    · exact hstep (hbefore _ rfl) h
    · exact hbefore _ h
  · exact hbefore _ h

theorem sound_override {o : Overrides} {c c' : Configuration} (hc : c.Sound)
    (h : override o c = (.ok (), c')) : c'.Sound := by
  refine keeps_overrideStatsd.andThen (fun c₂ h₂ => ?_) h
  refine keeps_overridePeriod.andThen (fun c₁ h₁ => ?_) h₂
  refine keeps_overrideLevel.andThen (fun c₀ h₀ => ?_) h₁
  cases h₀
  exact hc

/-- The configurations there can be: the one by default, loaded ones, and these with overrides. -/
inductive Obtained : Configuration → Prop
  | default (folder : String) : Obtained { folder := folder }
  | loaded {place : TroublePlace} {folder text : String} {c : Configuration} :
    ofYaml place folder text = .ok c → Obtained c
  | overridden {o : Overrides} {c c' : Configuration} :
    Obtained c → override o c = (.ok (), c') → Obtained c'

theorem Obtained.sound {c : Configuration} (h : c.Obtained) : c.Sound := by
  induction h with
  | default folder => exact sound_default folder
  | loaded hread => exact sound_ofYaml hread
  | overridden _ hoverride ih => exact sound_override ih hoverride

theorem ofDocument_spelled {c : Configuration} (hc : c.Sound)
    (hkeeps : ∀ x ∈ c.engine.floats, KeepsFloat x) (folder : String) :
    ofDocument folder c.toDocument.spelled = .ok { c with folder := folder } := by
  have hnames : (c.entries.map Prod.fst).Nodup := by simp [entries]
  have hlogging : ("logging", c.logging.toDocument) ∈ c.entries := by simp [entries]
  have hmetrics : ("metrics", c.metrics.toDocument) ∈ c.entries := by simp [entries]
  have hengine : ("engine", c.engine.toDocument) ∈ c.entries := by simp [entries]
  rw [ofDocument, toDocument, Section.ofFields_spelled, ok_bind]
  simp only [read_entry .own hnames hlogging c.logging.ofDocument_spelled,
    read_entry .own hnames hmetrics (MetricsConfig.ofDocument_spelled hc.tags),
    read_entry .own hnames hengine (EngineConfig.ofDocument_spelled hc.engine hkeeps)]
  rfl

/-- What is assumed of the text of a configuration: it is read as the same maps and lists, with
every scalar as it was spelled, and what spells a float other than a NaN is read as this float. -/
structure ReadsBack (c : Configuration) : Prop where
  tree : Yaml.read c.toYaml = .ok c.toDocument.spelled
  floats : ∀ x ∈ c.engine.floats, x.isNaN = false → KeepsFloat x

/-- A configuration that is saved and loaded again is the same. -/
theorem ofYaml_toYaml {c : Configuration} (h : c.Obtained)
    (hnan : ∀ x ∈ c.engine.floats, x.isNaN = false) (hback : c.ReadsBack) (place : TroublePlace)
    (folder : String) : ofYaml place folder c.toYaml = .ok { c with folder := folder } := by
  rw [ofYaml_eq_ok_iff]
  have hkeeps : ∀ x ∈ c.engine.floats, KeepsFloat x := fun x hx => hback.floats x hx (hnan x hx)
  exact ⟨c.toDocument.spelled, hback.tree, ofDocument_spelled h.sound hkeeps folder, h.sound.valid⟩

theorem toList_toYaml (c : Configuration) : c.toYaml.toList = Yaml.mapChars 0 c.entries :=
  Yaml.toList_writeMap 0 c.entries

/-- Texts that could be taken for numbers, a truth value and null, and a tag that is there twice. -/
def sampleText : String :=
  "metrics:
  default_tags:
    b: '1'
    a: no
    b: '~'
engine:
  adder:
    prefix: 'null'
  synths:
  - target: t
    factor: -2.5
"

def sampleLoaded : Configuration where
  metrics := { defaultTags := [("a", "no"), ("b", "~")] }
  engine :=
    { adder := { pathPrefix := some "null" }
      synthetics := [{ target := "t", factor := -2.5 }] }
  folder := "/etc"

def sampleSaved : Configuration :=
  { sampleLoaded with
    metrics := { sampleLoaded.metrics with statsd := some "0x1f" }
    engine := { sampleLoaded.engine with periodMs := 250 } }

theorem obtained_sample : sampleSaved.Obtained := by
  have hloaded : ofYaml .somewhere "/etc" sampleText = .ok sampleLoaded :=
    toOption_eq_some_iff.mp (by decide +kernel)
  have hoverride : override { periodMs := some " 250 ", statsd := some "0x1f" } sampleLoaded =
      (.ok (), sampleSaved) :=
    Prod.ext (toOption_eq_some_iff.mp (by decide +kernel)) (by decide +kernel)
  exact .overridden (.loaded hloaded) hoverride

theorem readsBack_sample : sampleSaved.ReadsBack where
  tree := by
    rw [Yaml.read, toList_toYaml]
    exact toOption_eq_some_iff.mp (by decide +kernel)
  floats := by
    have hkeeps : ∀ x ∈ sampleSaved.engine.floats,
        PlainScalar.readFloat (Yaml.floats.write x).toList = some x := by decide +kernel
    exact fun x hx _ => hkeeps x hx

theorem ofYaml_toYaml_sample : sampleSaved.Obtained ∧
    (∀ x ∈ sampleSaved.engine.floats, x.isNaN = false) ∧ sampleSaved.ReadsBack ∧
    ofYaml .somewhere "/etc" sampleSaved.toYaml = .ok sampleSaved := by
  have hnan : ∀ x ∈ sampleSaved.engine.floats, x.isNaN = false := by decide +kernel
  exact ⟨obtained_sample, hnan, readsBack_sample,
    ofYaml_toYaml obtained_sample hnan readsBack_sample .somewhere "/etc"⟩

end Configuration

end Rollup
