import Rollup.Proofs.Configuration.Reload

/-! Overrides that fail. A call stops at its first fault: what came before it stays, and nothing
after it is done. What calls leave behind is valid, unless the last number that one of them got to as
a period was refused. -/
namespace Rollup

theorem EngineConfig.validate_eq_ok_iff {c : EngineConfig} :
    c.validate = .ok () ↔ c.periodMs ≠ 0 ∧ ¬ (c.predict.enable ∧ ¬ c.predict.sizeAllowed) ∧
      ∃ list, c.stats.thresholdList = .ok list := by
  unfold validate
  by_cases hperiod : c.periodMs = 0
  · simp [hperiod, throw, throwThe, MonadExceptOf.throw, bind, Except.bind]
  · by_cases hsize : c.predict.enable ∧ ¬ c.predict.sizeAllowed
    · simp [hperiod, hsize, throw, throwThe, MonadExceptOf.throw, bind, Except.bind]
    · simp only [hperiod, hsize, if_false, ne_eq, not_false_eq_true, true_and]
      cases c.stats.thresholdList <;> simp [bind, Except.bind, pure, Except.pure]

theorem EngineConfig.validate_period {c : EngineConfig} (h : c.validate = .ok ()) (period : Nat) :
    ({ c with periodMs := period } : EngineConfig).validate = .ok () ↔ period ≠ 0 := by
  rw [validate_eq_ok_iff] at h ⊢
  exact and_iff_left h.2

namespace Overrides

/-- The level to be set, which is the present one if none is given, and `none` if what is given is
no level. -/
def level? (o : Overrides) (c : Configuration) : Option Level :=
  o.logLevel.elim (some c.logging.level) Level.ofName?

def period? (o : Overrides) : Option (Except IntegerError Nat) :=
  o.periodMs.map fun text => readNat maxWord (trim text.toList)

def collector (o : Overrides) (c : Configuration) : Option String :=
  o.statsd.elim c.metrics.statsd fun text => if text.isEmpty then none else some text

def number? (o : Overrides) (c : Configuration) : Option Nat :=
  if (o.level? c).isSome then o.period?.bind Except.toOption else none

end Overrides

namespace Configuration

variable {o : Overrides} {c : Configuration} {level : Level} {period : Nat} {refused : Bool}

def withLevel (c : Configuration) (level : Level) : Configuration :=
  { c with logging := { c.logging with level := level } }

def withPeriod (c : Configuration) (period : Nat) : Configuration :=
  { c with engine := { c.engine with periodMs := period } }

def withCollector (c : Configuration) (collector : Option String) : Configuration :=
  { c with metrics := { c.metrics with statsd := collector } }

/-- How a call ends. After a number that is refused nothing is said of the period. -/
inductive Outcome (o : Overrides) (c : Configuration) : Overridden → Prop
  | done {level : Level} : o.level? c = some level → o.period? = none →
    Outcome o c (.ok (), (c.withLevel level).withCollector (o.collector c))
  | replaced {level : Level} {period : Nat} : o.level? c = some level →
    o.period? = some (.ok period) → (c.withPeriod period).engine.validate = .ok () →
    Outcome o c (.ok (), ((c.withLevel level).withPeriod period).withCollector (o.collector c))
  | unknown {cause : Explained} : o.level? c = none →
    Outcome o c (.error (invalidField "log_level" cause), c)
  | unread {level : Level} {fault : IntegerError} {cause : Explained} : o.level? c = some level →
    o.period? = some (.error fault) →
    Outcome o c (.error (invalidField "period_ms" cause), c.withLevel level)
  | refused {level : Level} {period kept : Nat} {cause : Explained} : o.level? c = some level →
    o.period? = some (.ok period) → (c.withPeriod period).engine.validate ≠ .ok () →
    Outcome o c (.error (invalidField "period_ms" cause), (c.withLevel level).withPeriod kept)

theorem andThen_overrideLevel_of_some (h : o.level? c = some level) :
    andThen overrideLevel o.logLevel (.ok (), c) = (.ok (), c.withLevel level) := by
  unfold Overrides.level? at h
  cases hlevel : o.logLevel with
  | none =>
    rw [hlevel] at h
    cases h
    rfl
  | some text =>
    rw [hlevel] at h
    change overrideLevel text c = _
    rw [overrideLevel, show Level.ofName? text = some level from h]
    rfl

theorem andThen_overrideLevel_of_none (h : o.level? c = none) :
    ∃ cause, andThen overrideLevel o.logLevel (.ok (), c) =
      (.error (invalidField "log_level" cause), c) := by
  unfold Overrides.level? at h
  cases hlevel : o.logLevel with
  | none => rw [hlevel] at h; cases h
  | some text =>
    rw [hlevel] at h
    change ∃ cause, overrideLevel text c = _
    rw [overrideLevel, show Level.ofName? text = none from h]
    exact ⟨_, rfl⟩

theorem overridePeriod_of_unread {text : String} {fault : IntegerError}
    (h : readNat maxWord (trim text.toList) = .error fault) :
    overridePeriod text c = (.error (invalidField "period_ms" ⟨fault.message, []⟩), c) := by
  unfold overridePeriod
  rw [h]

theorem overridePeriod_of_read {text : String}
    (h : readNat maxWord (trim text.toList) = .ok period) :
    overridePeriod text c =
      ((c.withPeriod period).engine.validate.mapError fun fault =>
        invalidField "period_ms" fault.explain, c.withPeriod period) := by
  unfold overridePeriod
  rw [h]
  dsimp only
  split
  · rename_i hvalid
    rw [show (c.withPeriod period).engine.validate = .ok () from hvalid]
    rfl
  · rename_i fault hvalid
    rw [show (c.withPeriod period).engine.validate = .error fault from hvalid]
    rfl

theorem andThen_overrideStatsd (o : Overrides) (c : Configuration) :
    andThen overrideStatsd o.statsd (.ok (), c) = (.ok (), c.withCollector (o.collector c)) := by
  unfold Overrides.collector
  cases o.statsd <;> rfl

theorem outcome_override (o : Overrides) (c : Configuration) : Outcome o c (override o c) := by
  unfold override
  cases hlevel : o.level? c with
  | none =>
    obtain ⟨cause, hfailed⟩ := andThen_overrideLevel_of_none hlevel
    rw [hfailed]
    exact .unknown hlevel
  | some level =>
    rw [andThen_overrideLevel_of_some hlevel]
    cases hperiod : o.periodMs with
    | none =>
      have hnone : o.period? = none := by rw [Overrides.period?, hperiod, Option.map_none]
      change Outcome o c (andThen overrideStatsd o.statsd (.ok (), c.withLevel level))
      rw [andThen_overrideStatsd]
      exact .done hlevel hnone
    | some text =>
      have hsome : o.period? = some (readNat maxWord (trim text.toList)) := by
        rw [Overrides.period?, hperiod, Option.map_some]
      change Outcome o c (andThen overrideStatsd o.statsd (overridePeriod text (c.withLevel level)))
      cases hread : readNat maxWord (trim text.toList) with
      | error fault =>
        rw [overridePeriod_of_unread hread]
        exact .unread hlevel (hsome.trans (congrArg some hread))
      | ok period =>
        have hnumber : o.period? = some (.ok period) := hsome.trans (congrArg some hread)
        rw [overridePeriod_of_read hread]
        -- The checks do not look at the level.
        change Outcome o c (andThen overrideStatsd o.statsd
          ((c.withPeriod period).engine.validate.mapError _, _))
        cases hvalid : (c.withPeriod period).engine.validate with
        | error fault => exact .refused hlevel hnumber (by simp [hvalid])
        | ok =>
          rw [Except.mapError, andThen_overrideStatsd]
          exact .replaced hlevel hnumber hvalid

/-- A call changes the level, the period and the collector at most, and of these the period only if
it gets to a number. -/
theorem changes_override (o : Overrides) (c : Configuration) : ∃ level kept collector,
    (override o c).2 = ((c.withLevel level).withPeriod kept).withCollector collector ∧
      (o.number? c = none → kept = c.engine.periodMs) ∧
      ∀ period, o.number? c = some period → (c.withPeriod period).engine.validate = .ok () →
        kept = period := by
  have hends := outcome_override o c
  generalize override o c = result at hends
  unfold Overrides.number?
  cases hends with
  | @done level hlevel hperiod =>
    exact ⟨level, c.engine.periodMs, o.collector c, rfl, fun _ => rfl, by simp [hperiod]⟩
  | @replaced level period hlevel hperiod hvalid =>
    exact ⟨level, period, o.collector c, rfl, by simp [hlevel, hperiod, Except.toOption],
      by simp [hlevel, hperiod, Except.toOption]⟩
  | unknown hlevel =>
    exact ⟨c.logging.level, c.engine.periodMs, c.metrics.statsd, rfl, fun _ => rfl,
      by simp [hlevel]⟩
  | @unread level fault cause hlevel hperiod =>
    exact ⟨level, c.engine.periodMs, c.metrics.statsd, rfl, fun _ => rfl,
      by simp [hperiod, Except.toOption]⟩
  | @refused level period kept cause hlevel hperiod hinvalid =>
    exact ⟨level, kept, c.metrics.statsd, rfl, by simp [hlevel, hperiod, Except.toOption],
      by simp [hlevel, hperiod, hinvalid, Except.toOption]⟩

/-- The configurations that calls can leave behind, failed ones included, and whether the last number
that a call got to was refused. -/
inductive Left : (refused : Bool) → Configuration → Prop
  | default (folder : String) : Left false { folder := folder }
  | loaded {place : TroublePlace} {folder text : String} {c : Configuration} :
    ofYaml place folder text = .ok c → Left false c
  | passed {o : Overrides} {c : Configuration} {refused : Bool} : Left refused c →
    o.number? c = none → Left refused (override o c).2
  | took {o : Overrides} {c : Configuration} {refused : Bool} {period : Nat} : Left refused c →
    o.number? c = some period → (c.withPeriod period).engine.validate = .ok () →
    Left false (override o c).2
  | refused {o : Overrides} {c : Configuration} {refused : Bool} {period : Nat} : Left refused c →
    o.number? c = some period → (c.withPeriod period).engine.validate ≠ .ok () →
    Left true (override o c).2

theorem Sound.withLevel (h : c.Sound) (level : Level) : (c.withLevel level).Sound :=
  ⟨h.tags, h.engine, h.valid⟩

theorem Sound.withCollector (h : c.Sound) (collector : Option String) :
    (c.withCollector collector).Sound :=
  ⟨h.tags, h.engine, h.valid⟩

theorem sound_override_period (o : Overrides) (h : (c.withPeriod period).Sound) :
    ((override o c).2.withPeriod period).Sound := by
  obtain ⟨level, kept, collector, hchanges, -⟩ := changes_override o c
  rw [hchanges]
  exact (h.withLevel level).withCollector collector

theorem Left.sound_period (h : c.Left refused) : ∃ period, (c.withPeriod period).Sound := by
  induction h with
  | default folder => exact ⟨_, sound_default folder⟩
  | loaded hread => exact ⟨_, sound_ofYaml hread⟩
  | passed _ _ ih => exact ih.imp fun _ => sound_override_period _
  | took _ _ _ ih => exact ih.imp fun _ => sound_override_period _
  | refused _ _ _ ih => exact ih.imp fun _ => sound_override_period _

theorem Left.valid (h : c.Left refused) : refused = false → c.engine.validate = .ok () := by
  induction h with
  | default folder => exact fun _ => (sound_default folder).valid
  | loaded hread => exact fun _ => (sound_ofYaml hread).valid
  | @passed o c _ _ hnumber ih =>
    obtain ⟨level, kept, collector, hchanges, hkept, -⟩ := changes_override o c
    rw [hchanges, hkept hnumber]
    exact ih
  | @took o c _ period _ hnumber hvalid =>
    obtain ⟨level, kept, collector, hchanges, -, hkept⟩ := changes_override o c
    rw [hchanges, hkept period hnumber hvalid]
    exact fun _ => hvalid
  | refused => exact nofun

theorem Left.validate_withPeriod (h : c.Left refused) (period : Nat) :
    (c.withPeriod period).engine.validate = .ok () ↔ period ≠ 0 := by
  obtain ⟨_, hsound⟩ := h.sound_period
  exact EngineConfig.validate_period hsound.valid period

/-- Every call ends at its first fault, with what came before it and nothing after it. What calls
leave behind is valid unless the last number that one of them got to was refused, and only zero is. -/
theorem override_stops_at_fault :
    (∀ (o : Overrides) (c : Configuration), Outcome o c (override o c)) ∧
      ∀ (c : Configuration) (refused : Bool), c.Left refused →
        (refused = false → c.engine.validate = .ok ()) ∧
          ∀ period, (c.withPeriod period).engine.validate = .ok () ↔ period ≠ 0 :=
  ⟨outcome_override, fun _ _ h => ⟨h.valid, h.validate_withPeriod⟩⟩

/-- A level that stays before a period that is no number, then a period that is refused, and then one
that is not. -/
theorem override_stops_at_fault_thrice :
    let first : Overrides := { logLevel := some "trace", periodMs := some "x", statsd := some "h:1" }
    let c : Configuration := { logging := { level := .trace } }
    let last := (override { periodMs := some " 250 " } (override { periodMs := some "0" } c).2).2
    (override first {}).2 = c ∧ Outcome first {} (override first {}) ∧ last.Left false ∧
      last = c.withPeriod 250 ∧ last.engine.validate = .ok () := by
  intro first c last
  have hfirst : (override first {}).2 = c := by decide +kernel
  have hunread : first.number? {} = none := by rfl
  have hleft : c.Left false := hfirst ▸ .passed (.default ".tally") hunread
  have hzero : (c.withPeriod 0).engine.validate ≠ .ok () := fun hvalid =>
    ((override_stops_at_fault.2 c false hleft).2 0).mp hvalid rfl
  have hrefused : (override { periodMs := some "0" } c).2.Left true := .refused hleft rfl hzero
  have hlast : last.Left false := .took hrefused rfl
    (((override_stops_at_fault.2 _ true hrefused).2 250).mpr (by decide))
  exact ⟨hfirst, override_stops_at_fault.1 first {}, hlast, by decide +kernel,
    (override_stops_at_fault.2 last false hlast).1 rfl⟩

/-- What comes before a fault is not undone, and a period of zero is there when it is refused. -/
theorem failed_override_changes :
    let o : Overrides := { logLevel := some "trace", periodMs := some "x" }
    let o' : Overrides := { periodMs := some "0" }
    ((override o {}).1 =
        .error (invalidField "period_ms" ⟨"invalid digit found in string", []⟩) ∧
      (override o {}).2 = { logging := { level := .trace } } ∧ (override o {}).2 ≠ {}) ∧
    (override o' {}).1 = .error (invalidField "period_ms" (ConfigError.explain .zeroPeriod)) ∧
      (override o' {}).2 = { engine := { periodMs := 0 } } ∧
      (override o' {}).2.engine.validate = .error .zeroPeriod := by
  refine ⟨⟨rfl, ?_, ?_⟩, rfl, ?_, rfl⟩ <;> decide +kernel

end Configuration

end Rollup
