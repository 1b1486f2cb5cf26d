import TrapHandler.WideStrings

/-!
# The configuration of the model

`UpdateConfig` compares the configuration that the store has loaded with the one in use, field by
field, and copies what differs. The log level is not copied but set by its name, and a name that is
not known becomes that of the normal level.
-/

namespace TrapHandler

structure Configuration where
  hostname : WStr := []
  snmpQueueLength : UInt64 := 0
  cmdQueueLength : UInt64 := 0
  heartbeatTimeout : UInt64 := 0
  maxCommands : UInt64 := 0
  updateInterval : UInt64 := 0
  gracePeriod : UInt64 := 0
  minSeverity : WStr := []
  ftLastThreshChangeTime : UInt64 := 0
  deriving DecidableEq, Repr

inductive TraceLevel where
  | LOG_ALL
  | LOG_DEBUG
  | LOG_NORMAL
  | LOG_WARNING
  | LOG_MINOR
  | LOG_MAJOR
  | LOG_CRITICAL
  deriving DecidableEq, Repr

/-- What `UpdateConfig` reads and writes: the configuration in use, the one the store has loaded
last, and the level of the trace. -/
structure ConfiguredModel where
  config : Configuration := {}
  latestConfig : Configuration := {}
  trace : TraceLevel := .LOG_NORMAL
  deriving DecidableEq, Repr

/-- What a call of `LoadConfiguration` leaves in `latestConfig`, and whether it throws. -/
structure ConfigLoad where
  latest : Configuration
  throws : Bool
  deriving DecidableEq, Repr

def ConfigLoad.Usable (load : ConfigLoad) : Prop :=
  load.throws = false ∧ load.latest.hostname ≠ []

namespace ConfiguredModel

def setLevel (this : ConfiguredModel) (level : TraceLevel) (name : WStr) : ConfiguredModel :=
  { this with config := { this.config with minSeverity := name }, trace := level }

def setLogSevFromString (this : ConfiguredModel) (str : WStr) : ConfiguredModel :=
  if str = wcs "ALL" then this.setLevel .LOG_ALL (wcs "ALL")
  else if str = wcs "DEBUG" then this.setLevel .LOG_DEBUG (wcs "DEBUG")
  else if str = wcs "NORMAL" then this.setLevel .LOG_NORMAL (wcs "NORMAL")
  else if str = wcs "WARNING" then this.setLevel .LOG_WARNING (wcs "WARNING")
  else if str = wcs "MINOR" then this.setLevel .LOG_MINOR (wcs "MINOR")
  else if str = wcs "MAJOR" then this.setLevel .LOG_MAJOR (wcs "MAJOR")
  else if str = wcs "CRITICAL" then this.setLevel .LOG_CRITICAL (wcs "CRITICAL")
  else if this.config.minSeverity ≠ wcs "NORMAL" then this.setLevel .LOG_NORMAL (wcs "NORMAL")
  else this

end ConfiguredModel

structure Field (α : Type) where
  get : Configuration → α
  set : Configuration → α → Configuration
  set_get : ∀ c, set c (get c) = c

/-- `if (store.latestConfig.field != config.field)`, with the flag `bConfChanged`. -/
def Field.copyChanged {α : Type} [DecidableEq α] (field : Field α) (latest : Configuration)
    (r : Bool × Configuration) : Bool × Configuration :=
  if field.get latest ≠ field.get r.2 then (true, field.set r.2 (field.get latest)) else r

namespace Field

def hostname : Field WStr := ⟨(·.hostname), fun c v => { c with hostname := v }, fun _ => rfl⟩

def snmpQueueLength : Field UInt64 :=
  ⟨(·.snmpQueueLength), fun c v => { c with snmpQueueLength := v }, fun _ => rfl⟩

def cmdQueueLength : Field UInt64 :=
  ⟨(·.cmdQueueLength), fun c v => { c with cmdQueueLength := v }, fun _ => rfl⟩

def heartbeatTimeout : Field UInt64 :=
  ⟨(·.heartbeatTimeout), fun c v => { c with heartbeatTimeout := v }, fun _ => rfl⟩

def maxCommands : Field UInt64 :=
  ⟨(·.maxCommands), fun c v => { c with maxCommands := v }, fun _ => rfl⟩

def updateInterval : Field UInt64 :=
  ⟨(·.updateInterval), fun c v => { c with updateInterval := v }, fun _ => rfl⟩

end Field

/-- The change time of the thresholds is only moved forward. -/
def copyLater (latest : Configuration) (r : Bool × Configuration) : Bool × Configuration :=
  if latest.ftLastThreshChangeTime > r.2.ftLastThreshChangeTime then
    (true, { r.2 with ftLastThreshChangeTime := latest.ftLastThreshChangeTime })
  else r

/-- The fields in the order of the source; the log level and the grace period are not among them. -/
def copyFields (latest config : Configuration) : Bool × Configuration :=
  let r := (false, config)
  let r := Field.hostname.copyChanged latest r
  let r := Field.snmpQueueLength.copyChanged latest r
  let r := Field.cmdQueueLength.copyChanged latest r
  let r := Field.heartbeatTimeout.copyChanged latest r
  let r := Field.maxCommands.copyChanged latest r
  let r := Field.updateInterval.copyChanged latest r
  copyLater latest r

namespace ConfiguredModel

/-- The value says whether anything but the log level has changed. -/
def updateConfig (this : ConfiguredModel) (load : ConfigLoad) : Bool × ConfiguredModel :=
  let this := { this with latestConfig := load.latest }
  if load.throws then (false, this)
  else if this.latestConfig.hostname = [] then (false, this)
  else
    let (bConfChanged, config) := copyFields this.latestConfig this.config
    let this := { this with config }
    if this.latestConfig.minSeverity ≠ this.config.minSeverity then
      (bConfChanged, this.setLogSevFromString this.latestConfig.minSeverity)
    else
      (bConfChanged, this)

end ConfiguredModel

section

variable {α : Type} [DecidableEq α]

theorem Field.copyChanged_fst (field : Field α) (latest : Configuration)
    (r : Bool × Configuration) :
    (field.copyChanged latest r).1 = true ↔ r.1 = true ∨ field.get latest ≠ field.get r.2 := by
  rw [Field.copyChanged]
  by_cases h : field.get latest = field.get r.2
  · rw [if_neg (not_not_intro h)]
    exact (or_iff_left (not_not_intro h)).symm
  · rw [if_pos h]
    exact iff_of_true rfl (.inr h)

theorem Field.copyChanged_snd (field : Field α) (latest : Configuration)
    (r : Bool × Configuration) :
    (field.copyChanged latest r).2 = field.set r.2 (field.get latest) := by
  rw [Field.copyChanged]
  by_cases h : field.get latest = field.get r.2
  · rw [if_neg (not_not_intro h), h, field.set_get]
  · rw [if_pos h]

end

theorem uint64_max_of_le {a b : UInt64} (h : a ≤ b) : max a b = b := if_pos h

theorem uint64_max_of_ge {a b : UInt64} (h : b ≤ a) : max a b = a := by
  by_cases hab : a ≤ b
  · rw [uint64_max_of_le hab, UInt64.le_antisymm hab h]
  · exact if_neg hab

theorem uint64_le_max_right (a b : UInt64) : b ≤ max a b := by
  rcases UInt64.le_total a b with h | h
  · rw [uint64_max_of_le h]
    exact UInt64.le_refl b
  · rwa [uint64_max_of_ge h]

theorem copyLater_fst (latest : Configuration) (r : Bool × Configuration) :
    (copyLater latest r).1 = true ↔
      r.1 = true ∨ latest.ftLastThreshChangeTime > r.2.ftLastThreshChangeTime := by
  rw [copyLater]
  by_cases h : latest.ftLastThreshChangeTime > r.2.ftLastThreshChangeTime
  · rw [if_pos h]
    exact iff_of_true rfl (.inr h)
  · rw [if_neg h]
    exact (or_iff_left h).symm

theorem copyLater_snd (latest : Configuration) (r : Bool × Configuration) :
    (copyLater latest r).2 =
      { r.2 with
        ftLastThreshChangeTime :=
          max r.2.ftLastThreshChangeTime latest.ftLastThreshChangeTime } := by
  rw [copyLater]
  by_cases h : latest.ftLastThreshChangeTime > r.2.ftLastThreshChangeTime
  · rw [if_pos h]
    dsimp only
    rw [uint64_max_of_le (UInt64.le_of_lt h)]
  · rw [if_neg h]
    dsimp only
    rw [uint64_max_of_ge (UInt64.not_lt.mp h)]

namespace Configuration

/-- What an update reports: a copied field is different, or the thresholds have changed later. -/
def Differs (latest config : Configuration) : Prop :=
  latest.hostname ≠ config.hostname ∨ latest.snmpQueueLength ≠ config.snmpQueueLength ∨
    latest.cmdQueueLength ≠ config.cmdQueueLength ∨
    latest.heartbeatTimeout ≠ config.heartbeatTimeout ∨
    latest.maxCommands ≠ config.maxCommands ∨ latest.updateInterval ≠ config.updateInterval ∨
    latest.ftLastThreshChangeTime > config.ftLastThreshChangeTime

/-- The configuration in use once the fields of the latest one have been copied. -/
def merge (latest config : Configuration) : Configuration :=
  { latest with
    gracePeriod := config.gracePeriod
    minSeverity := config.minSeverity
    ftLastThreshChangeTime := max config.ftLastThreshChangeTime latest.ftLastThreshChangeTime }

theorem merge_merge (latest config : Configuration) (name : WStr) :
    latest.merge { latest.merge config with minSeverity := name } =
      { latest.merge config with minSeverity := name } := by
  simp only [merge, uint64_max_of_ge (uint64_le_max_right _ _)]

theorem not_differs_merge (latest config : Configuration) (name : WStr) :
    ¬ Differs latest { latest.merge config with minSeverity := name } := by
  simp only [Differs, merge, ne_eq, not_true_eq_false, false_or]
  exact UInt64.not_lt.mpr (uint64_le_max_right _ _)

end Configuration

theorem copyFields_fst (latest config : Configuration) :
    (copyFields latest config).1 = true ↔ latest.Differs config := by
  simp only [copyFields, copyLater_fst, Field.copyChanged_fst, Field.copyChanged_snd,
    Bool.false_eq_true, false_or, or_assoc]
  rfl

theorem copyFields_snd (latest config : Configuration) :
    (copyFields latest config).2 = latest.merge config := by
  simp only [copyFields, copyLater_snd, Field.copyChanged_snd]
  rfl

namespace ConfiguredModel

/-- A known name is set as it is, with its level; under any other the level becomes the normal one,
where that is not its name already. -/
theorem setLogSevFromString_cases (str : WStr) :
    (∃ level, ∀ this : ConfiguredModel, this.setLogSevFromString str = this.setLevel level str) ∨
      ∀ this : ConfiguredModel, this.setLogSevFromString str =
        if this.config.minSeverity ≠ wcs "NORMAL" then this.setLevel .LOG_NORMAL (wcs "NORMAL")
        else this := by
  unfold setLogSevFromString
  by_cases hall : str = wcs "ALL"
  · exact .inl ⟨_, fun this => by rw [if_pos hall, ← hall]⟩
  by_cases hdebug : str = wcs "DEBUG"
  · exact .inl ⟨_, fun this => by rw [if_neg hall, if_pos hdebug, ← hdebug]⟩
  by_cases hnormal : str = wcs "NORMAL"
  · exact .inl ⟨_, fun this => by rw [if_neg hall, if_neg hdebug, if_pos hnormal, ← hnormal]⟩
  simp only [if_neg hall, if_neg hdebug, if_neg hnormal]
  by_cases hwarning : str = wcs "WARNING"
  · exact .inl ⟨_, fun this => by rw [if_pos hwarning, ← hwarning]⟩
  by_cases hminor : str = wcs "MINOR"
  · exact .inl ⟨_, fun this => by rw [if_neg hwarning, if_pos hminor, ← hminor]⟩
  by_cases hmajor : str = wcs "MAJOR"
  · exact .inl ⟨_, fun this => by rw [if_neg hwarning, if_neg hminor, if_pos hmajor, ← hmajor]⟩
  simp only [if_neg hwarning, if_neg hminor, if_neg hmajor]
  by_cases hcritical : str = wcs "CRITICAL"
  · exact .inl ⟨_, fun this => by rw [if_pos hcritical, ← hcritical]⟩
  · exact .inr fun this => if_neg hcritical

theorem setLogSevFromString_eq_setLevel (this : ConfiguredModel) (str : WStr) :
    ∃ level name, this.setLogSevFromString str = this.setLevel level name := by
  rcases setLogSevFromString_cases str with ⟨level, hknown⟩ | hunknown
  · exact ⟨level, str, hknown this⟩
  · rw [hunknown]
    split_ifs
    · exact ⟨_, _, rfl⟩
    · exact ⟨this.trace, this.config.minSeverity, rfl⟩

theorem setLogSevFromString_twice (this : ConfiguredModel) (str : WStr) :
    (this.setLogSevFromString str).setLogSevFromString str = this.setLogSevFromString str := by
  rcases setLogSevFromString_cases str with ⟨level, hknown⟩ | hunknown
  · rw [hknown, hknown]
    rfl
  · rw [hunknown this]
    by_cases h : this.config.minSeverity ≠ wcs "NORMAL"
    · rw [if_pos h, hunknown]
      exact if_neg (not_not_intro rfl)
    · rw [if_neg h, hunknown, if_neg h]

/-- The end of an update, with the name of the level compared. -/
def compareLevel (this : ConfiguredModel) : ConfiguredModel :=
  if this.latestConfig.minSeverity ≠ this.config.minSeverity then
    this.setLogSevFromString this.latestConfig.minSeverity
  else this

theorem compareLevel_eq_setLevel (this : ConfiguredModel) :
    ∃ level name, this.compareLevel = this.setLevel level name := by
  rw [compareLevel]
  split_ifs
  · exact setLogSevFromString_eq_setLevel this _
  · exact ⟨this.trace, this.config.minSeverity, rfl⟩

theorem compareLevel_twice (this : ConfiguredModel) :
    this.compareLevel.compareLevel = this.compareLevel := by
  by_cases h : this.latestConfig.minSeverity = this.config.minSeverity
  · have hsame : this.compareLevel = this := if_neg (not_not_intro h)
    rw [hsame, hsame]
  · have hset : this.compareLevel =
        this.setLogSevFromString this.latestConfig.minSeverity := if_pos h
    have hlatest : this.compareLevel.latestConfig = this.latestConfig := by
      obtain ⟨level, name, heq⟩ := compareLevel_eq_setLevel this
      rw [heq, setLevel]
    rw [compareLevel, hlatest, hset, setLogSevFromString_twice, ite_self]

theorem updateConfig_unusable {this : ConfiguredModel} {load : ConfigLoad} (h : ¬ load.Usable) :
    this.updateConfig load = (false, { this with latestConfig := load.latest }) := by
  rw [updateConfig]
  by_cases hthrows : load.throws = true
  · rw [if_pos hthrows]
  · by_cases hname : load.latest.hostname = []
    · rw [if_neg hthrows, if_pos hname]
    · exact absurd ⟨Bool.eq_false_iff.mpr hthrows, hname⟩ h

theorem updateConfig_usable (this : ConfiguredModel) {load : ConfigLoad} (h : load.Usable) :
    this.updateConfig load =
      ((copyFields load.latest this.config).1,
        compareLevel { this with
          latestConfig := load.latest
          config := load.latest.merge this.config }) := by
  obtain ⟨hthrows, hname⟩ := h
  rw [updateConfig, if_neg (Bool.eq_false_iff.mp hthrows), if_neg hname, ← copyFields_snd]
  dsimp only
  rw [compareLevel]
  split_ifs
  · rfl
  · rfl

/-- The result tells whether a field differs, the fields are afterwards those of the store, and the
same configuration again changes nothing. -/
structure Updated (this : ConfiguredModel) (load : ConfigLoad) : Prop where
  result : (this.updateConfig load).1 = true ↔ load.latest.Differs this.config
  hostname : (this.updateConfig load).2.config.hostname = load.latest.hostname
  snmpQueueLength :
    (this.updateConfig load).2.config.snmpQueueLength = load.latest.snmpQueueLength
  cmdQueueLength : (this.updateConfig load).2.config.cmdQueueLength = load.latest.cmdQueueLength
  heartbeatTimeout :
    (this.updateConfig load).2.config.heartbeatTimeout = load.latest.heartbeatTimeout
  maxCommands : (this.updateConfig load).2.config.maxCommands = load.latest.maxCommands
  updateInterval : (this.updateConfig load).2.config.updateInterval = load.latest.updateInterval
  later : (this.updateConfig load).2.config.ftLastThreshChangeTime =
    max this.config.ftLastThreshChangeTime load.latest.ftLastThreshChangeTime
  gracePeriod : (this.updateConfig load).2.config.gracePeriod = this.config.gracePeriod
  again : (this.updateConfig load).2.updateConfig load = (false, (this.updateConfig load).2)

/-- Nothing is reported and the configuration in use stays. -/
structure Refused (this : ConfiguredModel) (load : ConfigLoad) : Prop where
  result : (this.updateConfig load).1 = false
  config : (this.updateConfig load).2.config = this.config

theorem updateConfig_setLevel (this : ConfiguredModel) {load : ConfigLoad} (h : load.Usable) :
    ∃ level name, (this.updateConfig load).2 =
      { latestConfig := load.latest
        config := { load.latest.merge this.config with minSeverity := name }
        trace := level } := by
  rw [updateConfig_usable this h]
  exact compareLevel_eq_setLevel _

theorem updateConfig_again (this : ConfiguredModel) {load : ConfigLoad} (h : load.Usable) :
    (this.updateConfig load).2.updateConfig load = (false, (this.updateConfig load).2) := by
  obtain ⟨level, name, hfirst⟩ := updateConfig_setLevel this h
  have hresult : (copyFields load.latest (this.updateConfig load).2.config).1 = false := by
    rw [Bool.eq_false_iff, ne_eq, copyFields_fst, hfirst]
    exact Configuration.not_differs_merge _ _ _
  have hsame : { (this.updateConfig load).2 with
      latestConfig := load.latest
      config := load.latest.merge (this.updateConfig load).2.config } =
        (this.updateConfig load).2 := by
    rw [hfirst, Configuration.merge_merge]
  have hlevel : (this.updateConfig load).2.compareLevel = (this.updateConfig load).2 := by
    rw [updateConfig_usable this h]
    exact compareLevel_twice _
  rw [updateConfig_usable (this.updateConfig load).2 h, hresult, hsame, hlevel]

/-- For every configuration in use, and whatever the store has loaded. -/
theorem updateConfig_updated_or_refused (this : ConfiguredModel) (load : ConfigLoad) :
    (load.Usable → Updated this load) ∧ (¬ load.Usable → Refused this load) := by
  constructor
  · intro h
    obtain ⟨level, name, heq⟩ := updateConfig_setLevel this h
    have hresult : (this.updateConfig load).1 = true ↔ load.latest.Differs this.config := by
      rw [updateConfig_usable this h]
      exact copyFields_fst load.latest this.config
    have hagain := updateConfig_again this h
    refine ⟨hresult, ?_, ?_, ?_, ?_, ?_, ?_, ?_, ?_, hagain⟩
    all_goals
      rw [heq]
      rfl
  · intro h
    constructor
    · rw [updateConfig_unusable h]
    · rw [updateConfig_unusable h]

end ConfiguredModel

end TrapHandler
