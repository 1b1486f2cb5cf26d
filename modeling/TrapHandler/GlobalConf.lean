import TrapHandler.Calendar
import TrapHandler.LeftMaxima
import TrapHandler.Runs
import TrapHandler.TimerAge
import TrapHandler.TraceEngine

/-!
# The global configuration

The program reads its row of the table of proxies when it starts and again whenever the update
interval has elapsed. A row is taken over if its change time is later than that of the row taken over
last; of the change time only the milliseconds count. The severity of a row decides whether messages
go to the log file.
-/

namespace TrapHandler

namespace GlobalConf

open Calendar LeftMaxima Runs Tracing

structure DBTIMESTAMP where
  year : Int16
  month : UInt16
  day : UInt16
  hour : UInt16
  minute : UInt16
  second : UInt16
  fraction : UInt32
  deriving DecidableEq, Repr

structure SYSTEMTIME where
  wYear : UInt16
  wMonth : UInt16
  wDay : UInt16
  wHour : UInt16
  wMinute : UInt16
  wSecond : UInt16
  wMilliseconds : UInt16
  deriving DecidableEq, Repr

def SYSTEMTIME.moment (t : SYSTEMTIME) : Moment where
  year := t.wYear.toNat
  month := t.wMonth.toNat
  day := t.wDay.toNat
  hour := t.wHour.toNat
  minute := t.wMinute.toNat
  second := t.wSecond.toNat
  millisecond := t.wMilliseconds.toNat

def epoch : Moment := Moment.newYear 1601

def ofTicks (ticks : ℕ) : FILETIME where
  dwLowDateTime := UInt32.ofNat ticks
  dwHighDateTime := UInt32.ofNat (ticks / 2 ^ 32)

/-- `SystemTimeToFileTime`, in steps of 100 ns. -/
def systemTimeToFileTime (t : SYSTEMTIME) : Option FILETIME :=
  if t.moment.Valid ∧ 1601 ≤ t.wYear ∧ t.wYear ≤ 30827 then
    some (ofTicks ((t.moment.milliseconds - epoch.milliseconds) * 10000))
  else none

def DBTIMESTAMP.sysTime (dbTime : DBTIMESTAMP) : SYSTEMTIME where
  wYear := dbTime.year.toUInt16
  wMonth := dbTime.month
  wDay := dbTime.day
  wHour := dbTime.hour
  wMinute := dbTime.minute
  wSecond := dbTime.second
  wMilliseconds := (dbTime.fraction / 1000000).toUInt16

/-- A time that is not valid leaves what is in `ft`. -/
def dbTimeStampToFileTime (dbTime : DBTIMESTAMP) (ft : FILETIME) : FILETIME :=
  (systemTimeToFileTime dbTime.sysTime).getD ft

/-- A time that a column of the type `datetime` can have. -/
structure DBTIMESTAMP.Valid (dbTime : DBTIMESTAMP) : Prop where
  moment : dbTime.sysTime.moment.Valid
  year : 1753 ≤ dbTime.sysTime.moment.year ∧ dbTime.sysTime.moment.year ≤ 9999

theorem toNat_fttoull_ofTicks {ticks : ℕ} (h : ticks < 2 ^ 64) :
    (fttoull (ofTicks ticks)).toNat = ticks := by
  have hhigh : (UInt32.ofNat (ticks / 2 ^ 32)).toNat = ticks / 2 ^ 32 := by
    apply UInt32.toNat_ofNat_of_lt'
    have hlt : ticks / 2 ^ 32 < 2 ^ 32 := Nat.div_lt_of_lt_mul h
    exact hlt
  have hlow : (UInt32.ofNat ticks).toNat = ticks % 2 ^ 32 := UInt32.toNat_ofNat
  rw [toNat_fttoull, ofTicks, hhigh, hlow]
  exact Nat.div_add_mod' ticks (2 ^ 32)

/-- The milliseconds of a stored time since the epoch. -/
def DBTIMESTAMP.age (dbTime : DBTIMESTAMP) : ℕ :=
  dbTime.sysTime.moment.milliseconds - epoch.milliseconds

theorem epoch_milliseconds : epoch.milliseconds = 50522745600000 :=
  Moment.milliseconds_newYear 1601

theorem DBTIMESTAMP.Valid.epoch_lt {dbTime : DBTIMESTAMP} (h : dbTime.Valid) :
    epoch.milliseconds < dbTime.sysTime.moment.milliseconds := by
  apply (Moment.milliseconds_lt_iff (Moment.newYear_valid 1601) h.moment).mpr
  exact Moment.key_lt_of_year_lt (lt_of_lt_of_le (by decide) h.year.1)

theorem DBTIMESTAMP.Valid.milliseconds_lt {dbTime : DBTIMESTAMP} (h : dbTime.Valid) :
    dbTime.sysTime.moment.milliseconds < 315569520000000 := by
  have hlt : dbTime.sysTime.moment.milliseconds < (Moment.newYear 10000).milliseconds := by
    apply (Moment.milliseconds_lt_iff h.moment (Moment.newYear_valid 10000)).mpr
    exact Moment.key_lt_of_year_lt (Nat.lt_succ_of_le h.year.2)
  rw [Moment.milliseconds_newYear] at hlt
  exact hlt

theorem fttoull_dbTimeStampToFileTime {dbTime : DBTIMESTAMP} (h : dbTime.Valid) (ft : FILETIME) :
    (fttoull (dbTimeStampToFileTime dbTime ft)).toNat = dbTime.age * 10000 := by
  have hyear : 1601 ≤ dbTime.sysTime.wYear ∧ dbTime.sysTime.wYear ≤ 30827 := by
    have hbounds := h.year
    rw [UInt16.le_iff_toNat_le, UInt16.le_iff_toNat_le]
    exact ⟨le_trans (by decide) hbounds.1, le_trans hbounds.2 (by decide)⟩
  have hlt := h.milliseconds_lt
  rw [dbTimeStampToFileTime, systemTimeToFileTime, if_pos ⟨h.moment, hyear⟩]
  apply toNat_fttoull_ofTicks
  omega

theorem DBTIMESTAMP.Valid.age_lt_iff {dbTime dbTime' : DBTIMESTAMP} (h : dbTime.Valid)
    (h' : dbTime'.Valid) : dbTime.age < dbTime'.age ↔
      dbTime.sysTime.moment.key < dbTime'.sysTime.moment.key := by
  have hlt := h.epoch_lt
  have hlt' := h'.epoch_lt
  rw [← Moment.milliseconds_lt_iff h.moment h'.moment]
  unfold age
  omega

/-- A branch for a severity: the level the log is tested for, the one it is started with and the one
that is set. -/
structure SeverityBranch where
  name : WStr
  tested : Int32
  started : Int32
  level : Int32

def severityBranches : List SeverityBranch :=
  [⟨wcs "ALL", LOG_NONE, LOG_ALL, LOG_ALL⟩,
    ⟨wcs "DEBUG", LOG_NONE, LOG_DEBUG, LOG_DEBUG⟩,
    ⟨wcs "NORMAL", LOG_NONE, LOG_NORMAL, LOG_NORMAL⟩,
    ⟨wcs "WARNING", LOG_WARNING, LOG_DEBUG, LOG_WARNING⟩,
    ⟨wcs "MINOR", LOG_MINOR, LOG_DEBUG, LOG_MINOR⟩,
    ⟨wcs "MAJOR", LOG_MAJOR, LOG_DEBUG, LOG_MAJOR⟩,
    ⟨wcs "CRITICAL", LOG_CRITICAL, LOG_DEBUG, LOG_CRITICAL⟩,
    ⟨wcs "EMERGENCY", LOG_EMERGENCY, LOG_DEBUG, LOG_EMERGENCY⟩]

def branchOf (severity : WStr) : Option SeverityBranch :=
  severityBranches.find? fun branch => wcsicmpEq severity branch.name

def setLogMinSeverity (pTrace : CTraceEngine) (severity : WStr) (opened : Bool) : CTraceEngine :=
  match branchOf severity with
  | some branch =>
    let pTrace :=
      if pTrace.iLogTraceLevel = branch.tested then pTrace.startLogTrace branch.started opened
      else pTrace
    pTrace.setTraceLevel branch.level LOG_ALL
  | none =>
    if wcsicmpEq severity (wcs "NONE") then pTrace.stopLogTrace.setTraceLevel LOG_NONE LOG_ALL
    else pTrace

def levelOf (severity : WStr) : Option Int32 :=
  match branchOf severity with
  | some branch => some branch.level
  | none => if wcsicmpEq severity (wcs "NONE") then some LOG_NONE else none

/-- The levels at which the log is started where it had the level `level`. From `WARNING` on it has to
have had the new level already. -/
def Starts (level : Int32) (severity : WStr) : Prop :=
  ∃ l, levelOf severity = some l ∧ l ≠ LOG_NONE ∧ level = if l ≤ LOG_NORMAL then LOG_NONE else l

theorem of_mem_severityBranches : ∀ branch ∈ severityBranches,
    branch.level ≠ LOG_NONE ∧ branch.level ≠ LOG_VOID ∧
      branch.tested = if branch.level ≤ LOG_NORMAL then LOG_NONE else branch.level := by
  decide

theorem setTraceLevel_iLogTraceLevel (pTrace : CTraceEngine) {level : Int32}
    (h : level ≠ LOG_VOID) : (pTrace.setTraceLevel level LOG_ALL).iLogTraceLevel = level := by
  unfold CTraceEngine.setTraceLevel CTraceEngine.setLevels
  simp only [if_pos h]
  split_ifs <;> rfl

theorem setTraceLevel_bLogTraceRunning (pTrace : CTraceEngine) {level : Int32}
    (h : level ≠ LOG_VOID) : (pTrace.setTraceLevel level LOG_ALL).bLogTraceRunning =
      if level = LOG_NONE then false else pTrace.bLogTraceRunning := by
  unfold CTraceEngine.setTraceLevel CTraceEngine.setLevels
  simp only [if_pos h]
  split_ifs <;> rfl

theorem startLogTrace_bLogTraceRunning (pTrace : CTraceEngine) (level : Int32) (opened : Bool) :
    (pTrace.startLogTrace level opened).bLogTraceRunning = (pTrace.bLogTraceRunning || opened) := by
  unfold CTraceEngine.startLogTrace
  split_ifs with hrunning
  · rw [hrunning, Bool.true_or]
  · rw [Bool.eq_false_iff.mpr hrunning, Bool.false_or]

theorem setLogMinSeverity_level (pTrace : CTraceEngine) (severity : WStr) (opened : Bool) :
    (setLogMinSeverity pTrace severity opened).iLogTraceLevel =
      (levelOf severity).getD pTrace.iLogTraceLevel := by
  unfold setLogMinSeverity levelOf
  cases hbranch : branchOf severity with
  | some branch =>
    have hmem := of_mem_severityBranches branch (List.mem_of_find?_eq_some hbranch)
    exact setTraceLevel_iLogTraceLevel _ hmem.2.1
  | none =>
    dsimp only
    split_ifs
    · exact setTraceLevel_iLogTraceLevel _ (by decide)
    · rfl

/-- The log runs behind a severity other than `NONE` where it has run before or is started. -/
theorem setLogMinSeverity_running (pTrace : CTraceEngine) (severity : WStr) (opened : Bool) :
    (setLogMinSeverity pTrace severity opened).bLogTraceRunning = true ↔
      levelOf severity ≠ some LOG_NONE ∧
        (pTrace.bLogTraceRunning = true ∨
          (opened = true ∧ Starts pTrace.iLogTraceLevel severity)) := by
  unfold setLogMinSeverity Starts levelOf
  cases hbranch : branchOf severity with
  | some branch =>
    obtain ⟨hnone, hvoid, htested⟩ :=
      of_mem_severityBranches branch (List.mem_of_find?_eq_some hbranch)
    have hstarts : (∃ l, some branch.level = some l ∧ l ≠ LOG_NONE ∧
        pTrace.iLogTraceLevel = if l ≤ LOG_NORMAL then LOG_NONE else l) ↔
          pTrace.iLogTraceLevel = branch.tested := by
      rw [htested]
      constructor
      · rintro ⟨l, hl, _, hlevel⟩
        rw [Option.some.inj hl]
        exact hlevel
      · exact fun hlevel => ⟨branch.level, rfl, hnone, hlevel⟩
    dsimp only
    rw [setTraceLevel_bLogTraceRunning _ hvoid, if_neg hnone, hstarts]
    have hne : some branch.level ≠ some LOG_NONE := fun heq => hnone (Option.some.inj heq)
    by_cases hlevel : pTrace.iLogTraceLevel = branch.tested
    · rw [if_pos hlevel, startLogTrace_bLogTraceRunning, Bool.or_eq_true]
      simp only [hne, hlevel, ne_eq, not_false_eq_true, true_and, and_true]
    · rw [if_neg hlevel]
      simp only [hne, hlevel, ne_eq, not_false_eq_true, true_and, and_false, or_false]
  | none =>
    dsimp only
    by_cases hname : wcsicmpEq severity (wcs "NONE") = true
    · rw [if_pos hname, if_pos hname, setTraceLevel_bLogTraceRunning _ (by decide), if_pos rfl]
      simp
    · rw [if_neg hname, if_neg hname]
      simp

structure CProxies where
  m_SNMPQueueLength : Int32
  m_CommandQueueLength : Int32
  m_HeartBeatTimeoutSecs : Int32
  m_MaxConcurrentCommands : Int32
  m_ConfigUpdateIntervalSecs : Int32
  m_LogMinSeverity : WStr
  m_ThreshChangeTime : DBTIMESTAMP
  deriving DecidableEq, Repr

/-- A row, and whether the log file can be opened when it is read. -/
structure Reading where
  row : CProxies
  opened : Bool
  deriving DecidableEq, Repr

structure Globals where
  lastConfigUpdateTime : FILETIME := ⟨0, 0⟩
  SNMPQUEUELENGTH : Int32 := 1000000
  COMMANDQUEUELENGTH : Int32 := 10000
  TIMERDURATIONSECS : Int32 := 10
  MAXCONCURRENTCMDS : Int32 := 5
  THRESHUPDATEINTSECS : Int32 := 5
  pTrace : CTraceEngine

def takeRow (conf : Globals) (bCreateConf : Bool) (r : Reading) (ftConfChangeTime : FILETIME) :
    Globals where
  lastConfigUpdateTime := ftConfChangeTime
  TIMERDURATIONSECS := r.row.m_HeartBeatTimeoutSecs
  MAXCONCURRENTCMDS := r.row.m_MaxConcurrentCommands
  THRESHUPDATEINTSECS := r.row.m_ConfigUpdateIntervalSecs
  pTrace := setLogMinSeverity conf.pTrace r.row.m_LogMinSeverity r.opened
  SNMPQUEUELENGTH := if bCreateConf then r.row.m_SNMPQueueLength else conf.SNMPQUEUELENGTH
  COMMANDQUEUELENGTH := if bCreateConf then r.row.m_CommandQueueLength else conf.COMMANDQUEUELENGTH

/-- The loop over the rows; with the globals goes `bConfChanged`. -/
def readRows (bCreateConf : Bool) : List Reading → FILETIME → Globals × Bool → Globals × Bool
  | [], _, state => state
  | r :: rows, ftConfChangeTime, (conf, bConfChanged) =>
    let ftConfChangeTime := dbTimeStampToFileTime r.row.m_ThreshChangeTime ftConfChangeTime
    if fttoull conf.lastConfigUpdateTime < fttoull ftConfChangeTime then
      readRows bCreateConf rows ftConfChangeTime
        (takeRow conf bCreateConf r ftConfChangeTime, true)
    else readRows bCreateConf rows ftConfChangeTime (conf, bConfChanged)

/-- `reloads` tells whether `UpdateThresholds` is called. -/
structure Outcome where
  result : Bool
  reloads : Bool
  conf : Globals

/-- `raw` is what the local variable holds before the first row. -/
def updateConfig (conf : Globals) (bCreateConf : Bool) (raw : FILETIME) (rows : List Reading) :
    Outcome :=
  let (conf, bConfChanged) := readRows bCreateConf rows raw (conf, false)
  if rows.length ≠ 1 then ⟨false, false, conf⟩ else ⟨true, bConfChanged, conf⟩

/-- The part of `InitializeConfig` behind the connection to the database. -/
def initializeConfig (conf : Globals) (raw : FILETIME) (rows : List Reading) : Outcome :=
  updateConfig { conf with lastConfigUpdateTime := ⟨0, 0⟩ } true raw rows

def poll (conf : Globals) (p : FILETIME × List Reading) : Globals :=
  (updateConfig conf false p.1 p.2).conf

def Globals.settings (conf : Globals) : Int32 × Int32 × Int32 :=
  (conf.TIMERDURATIONSECS, conf.MAXCONCURRENTCMDS, conf.THRESHUPDATEINTSECS)

def Globals.queueLengths (conf : Globals) : Int32 × Int32 :=
  (conf.SNMPQUEUELENGTH, conf.COMMANDQUEUELENGTH)

namespace Reading

def settings (r : Reading) : Int32 × Int32 × Int32 :=
  (r.row.m_HeartBeatTimeoutSecs, r.row.m_MaxConcurrentCommands, r.row.m_ConfigUpdateIntervalSecs)

def queueLengths (r : Reading) : Int32 × Int32 :=
  (r.row.m_SNMPQueueLength, r.row.m_CommandQueueLength)

def Valid (r : Reading) : Prop := r.row.m_ThreshChangeTime.Valid

def moment (r : Reading) : Moment := r.row.m_ThreshChangeTime.sysTime.moment

def changed (r : Reading) : (((((ℕ ×ₗ ℕ) ×ₗ ℕ) ×ₗ ℕ) ×ₗ ℕ) ×ₗ ℕ) ×ₗ ℕ := r.moment.key

end Reading

def logAfter (pTrace : CTraceEngine) (taken : List Reading) : CTraceEngine :=
  taken.foldl (fun pTrace r => setLogMinSeverity pTrace r.row.m_LogMinSeverity r.opened) pTrace

/-- The globals where `rows` have been read, those of `created` while the program started. -/
structure Follows (before conf : Globals) (created rows : List Reading) : Prop where
  time : (fttoull conf.lastConfigUpdateTime).toNat =
    (rows.argmax Reading.changed).elim 0 fun r => r.row.m_ThreshChangeTime.age * 10000
  settings : conf.settings = (rows.argmax Reading.changed).elim before.settings Reading.settings
  queueLengths : conf.queueLengths =
    (created.argmax Reading.changed).elim before.queueLengths Reading.queueLengths
  pTrace : conf.pTrace = logAfter before.pTrace (leftMaxima Reading.changed rows)

variable {before conf : Globals} {created rows : List Reading} {r : Reading}

theorem Follows.newer_iff (h : Follows before conf created rows) (hrows : ∀ b ∈ rows, b.Valid)
    (hr : r.Valid) (ft : FILETIME) :
    fttoull conf.lastConfigUpdateTime <
        fttoull (dbTimeStampToFileTime r.row.m_ThreshChangeTime ft) ↔
      ∀ b ∈ rows, b.changed < r.changed := by
  rw [UInt64.lt_iff_toNat_lt, h.time, fttoull_dbTimeStampToFileTime hr, forall_lt_iff_argmax]
  cases hmax : rows.argmax Reading.changed with
  | none =>
    have hpos : 0 < r.row.m_ThreshChangeTime.age := Nat.sub_pos_of_lt hr.epoch_lt
    rw [Option.elim_none]
    constructor
    · intro _ b hb
      cases hb
    · intro _
      exact Nat.mul_pos hpos (by decide)
  | some m =>
    have hm : m.Valid := hrows m (List.argmax_mem hmax)
    rw [Option.elim_some, Nat.mul_lt_mul_right (by decide), hm.age_lt_iff hr]
    constructor
    · intro hlt b hb
      cases hb
      exact hlt
    · exact fun hlt => hlt m rfl

theorem Follows.take (h : Follows before conf created rows) (bCreateConf : Bool)
    (hr : r.Valid) (ft : FILETIME)
    (hnew : ∀ b ∈ rows, b.changed < r.changed) :
    Follows before
      (takeRow conf bCreateConf r (dbTimeStampToFileTime r.row.m_ThreshChangeTime ft))
      (if bCreateConf then rows ++ [r] else created) (rows ++ [r]) := by
  have hmax := argmax_concat_of_lt hnew
  refine ⟨?_, ?_, ?_, ?_⟩
  · rw [hmax, Option.elim_some]
    exact fttoull_dbTimeStampToFileTime hr ft
  · rw [hmax]
    rfl
  · cases bCreateConf with
    | true =>
      rw [if_pos rfl, hmax]
      rfl
    | false => exact h.queueLengths
  · rw [leftMaxima_concat, if_pos hnew, logAfter, List.foldl_concat]
    change setLogMinSeverity conf.pTrace _ _ = _
    rw [h.pTrace]
    rfl

theorem Follows.skip (h : Follows before conf created rows) (bCreateConf : Bool)
    (hcreated : bCreateConf = true → created = rows)
    (hnew : ¬ ∀ b ∈ rows, b.changed < r.changed) :
    Follows before conf (if bCreateConf then rows ++ [r] else created) (rows ++ [r]) := by
  have hmax := argmax_concat_of_not_lt hnew
  refine ⟨?_, ?_, ?_, ?_⟩
  · rw [hmax]
    exact h.time
  · rw [hmax]
    exact h.settings
  · cases bCreateConf with
    | true =>
      rw [if_pos rfl, hmax, ← hcreated rfl]
      exact h.queueLengths
    | false => exact h.queueLengths
  · rw [leftMaxima_concat, if_neg hnew]
    exact h.pTrace

/-- What has been read while the program started, where these are all the rows read so far. -/
def createdBy (bCreateConf : Bool) (rows created : List Reading) : List Reading :=
  if bCreateConf then rows else created

theorem Follows.read (h : Follows before conf created rows) (bCreateConf : Bool)
    (hcreated : bCreateConf = true → created = rows) (hrows : ∀ b ∈ rows, b.Valid)
    (hr : r.Valid) (ft : FILETIME) (bConfChanged : Bool) :
    ∃ conf' bConfChanged', (∀ more, readRows bCreateConf (r :: more) ft (conf, bConfChanged) =
        readRows bCreateConf more (dbTimeStampToFileTime r.row.m_ThreshChangeTime ft)
          (conf', bConfChanged')) ∧
      Follows before conf' (createdBy bCreateConf (rows ++ [r]) created) (rows ++ [r]) ∧
      (bConfChanged' = true ↔ bConfChanged = true ∨ ∀ b ∈ rows, b.changed < r.changed) := by
  by_cases hnew : ∀ b ∈ rows, b.changed < r.changed
  · have hlt := (h.newer_iff hrows hr ft).mpr hnew
    refine ⟨_, true, fun more => ?_, h.take bCreateConf hr ft hnew, ?_⟩
    · exact if_pos hlt
    · exact iff_of_true rfl (.inr hnew)
  · have hlt : ¬ _ := fun hlt => hnew ((h.newer_iff hrows hr ft).mp hlt)
    refine ⟨conf, bConfChanged, fun more => ?_, h.skip bCreateConf hcreated hnew, ?_⟩
    · exact if_neg hlt
    · exact (or_iff_left hnew).symm

theorem Follows.readRows {more : List Reading} (h : Follows before conf created rows)
    (bCreateConf : Bool) (hcreated : bCreateConf = true → created = rows)
    (hvalid : ∀ b ∈ rows ++ more, b.Valid) (ft : FILETIME) (bConfChanged : Bool) :
    Follows before (readRows bCreateConf more ft (conf, bConfChanged)).1
      (createdBy bCreateConf (rows ++ more) created) (rows ++ more) := by
  induction more generalizing conf created rows ft bConfChanged with
  | nil =>
    rw [List.append_nil]
    cases bCreateConf with
    | true =>
      have hsame : created = rows := hcreated rfl
      rw [hsame] at h
      exact h
    | false => exact h
  | cons r more ih =>
    have hrows : ∀ b ∈ rows, b.Valid := fun b hb => hvalid b (List.mem_append_left _ hb)
    have hr : r.Valid := hvalid r (List.mem_append_right rows List.mem_cons_self)
    obtain ⟨conf', bConfChanged', hread, hfollows, _⟩ :=
      h.read bCreateConf hcreated hrows hr ft bConfChanged
    have hassoc : rows ++ [r] ++ more = rows ++ r :: more := List.append_assoc rows [r] more
    have hcreated' : bCreateConf = true →
        createdBy bCreateConf (rows ++ [r]) created = rows ++ [r] := by
      rintro rfl
      rfl
    have hnext := ih hfollows hcreated' (hassoc ▸ hvalid)
      (dbTimeStampToFileTime r.row.m_ThreshChangeTime ft) bConfChanged'
    rw [hread]
    rw [hassoc] at hnext
    cases bCreateConf with
    | true => exact hnext
    | false => exact hnext

theorem updateConfig_conf (conf : Globals) (bCreateConf : Bool) (raw : FILETIME)
    (rows : List Reading) : (updateConfig conf bCreateConf raw rows).conf =
      (readRows bCreateConf rows raw (conf, false)).1 := by
  unfold updateConfig
  dsimp only
  split_ifs
  · rfl
  · rfl

theorem Follows.reloads_iff (h : Follows before conf created rows) (hrows : ∀ b ∈ rows, b.Valid)
    {more : List Reading} (hmore : ∀ b ∈ more, b.Valid) (raw : FILETIME) :
    (updateConfig conf false raw more).reloads = true ↔
      ∃ r, more = [r] ∧ ∀ b ∈ rows, b.changed < r.changed := by
  unfold updateConfig
  dsimp only
  by_cases hlen : more.length ≠ 1
  · rw [if_pos hlen]
    constructor
    · intro hfalse
      cases hfalse
    · rintro ⟨r, rfl, _⟩
      exact absurd rfl hlen
  · rw [if_neg hlen]
    obtain ⟨r, rfl⟩ := List.length_eq_one_iff.mp (not_not.mp hlen)
    obtain ⟨conf', bConfChanged', hread, _, hchanged⟩ :=
      h.read false (by simp) hrows (hmore r List.mem_cons_self) raw false
    rw [hread]
    change bConfChanged' = true ↔ _
    rw [hchanged]
    constructor
    · rintro (hfalse | hnew)
      · cases hfalse
      · exact ⟨r, rfl, hnew⟩
    · rintro ⟨r', hsame, hnew⟩
      rw [List.singleton_inj.mp hsame]
      exact .inr hnew

theorem follows_initializeConfig (before : Globals) (raw : FILETIME) {first : List Reading}
    (hvalid : ∀ r ∈ first, r.Valid) :
    Follows before (initializeConfig before raw first).conf first first := by
  have hstart : Follows before { before with lastConfigUpdateTime := ⟨0, 0⟩ } [] [] := {
    time := by
      rw [toNat_fttoull, List.argmax_nil, Option.elim_none]
      simp
    settings := rfl
    queueLengths := rfl
    pTrace := rfl }
  have hread := hstart.readRows true (fun _ => rfl) hvalid raw false
  rw [initializeConfig, updateConfig_conf]
  exact hread

def readings (first : List Reading) (polls : List (FILETIME × List Reading)) : List Reading :=
  first ++ polls.flatMap Prod.snd

theorem follows_run (before : Globals) (raw : FILETIME) (first : List Reading)
    (polls : List (FILETIME × List Reading)) (hvalid : ∀ r ∈ readings first polls, r.Valid) :
    Follows before (run poll (initializeConfig before raw first).conf polls) first
      (readings first polls) := by
  induction polls using List.reverseRecOn with
  | nil =>
    rw [readings, List.flatMap_nil, List.append_nil] at hvalid ⊢
    exact follows_initializeConfig before raw hvalid
  | append_singleton polls p ih =>
    have hread : readings first (polls ++ [p]) = readings first polls ++ p.2 := by
      simp [readings, List.flatMap_append]
    rw [hread] at hvalid ⊢
    have hpast := ih fun r hr => hvalid r (List.mem_append_left p.2 hr)
    rw [run_concat, poll, updateConfig_conf]
    exact hpast.readRows false (by simp) hvalid p.1 false

/-- The settings are those of the row that has been changed last, the lengths of the queues those of
the row changed last when the program started. The thresholds are loaded again exactly where one row
is read that has been changed after all rows read before it, whatever became of these. -/
theorem run_settings (before : Globals) (raw : FILETIME) (first : List Reading)
    (polls : List (FILETIME × List Reading)) (hvalid : ∀ r ∈ readings first polls, r.Valid) :
    let conf := run poll (initializeConfig before raw first).conf polls
    let latest := (readings first polls).argmax Reading.changed
    conf.settings = latest.elim before.settings Reading.settings ∧
      conf.queueLengths =
        (first.argmax Reading.changed).elim before.queueLengths Reading.queueLengths ∧
      ∀ raw' rows, (∀ r ∈ rows, r.Valid) →
        ((updateConfig conf false raw' rows).reloads = true ↔
          ∃ r, rows = [r] ∧ ∀ b ∈ readings first polls, b.changed < r.changed) := by
  intro conf latest
  have hfollows : Follows before conf first (readings first polls) :=
    follows_run before raw first polls hvalid
  refine ⟨hfollows.settings, hfollows.queueLengths, ?_⟩
  intro raw' rows hrows
  exact hfollows.reloads_iff hvalid hrows raw'

def timeIn (year : Int16) : DBTIMESTAMP := ⟨year, 4, 21, 17, 36, 31, 0⟩

/-- A row of the table, with the defaults apart from the severity. -/
def rowOf (year : Int16) (severity : WStr) : Reading where
  row := {
    m_SNMPQueueLength := 1000000
    m_CommandQueueLength := 10000
    m_HeartBeatTimeoutSecs := 10
    m_MaxConcurrentCommands := 5
    m_ConfigUpdateIntervalSecs := 5
    m_LogMinSeverity := severity
    m_ThreshChangeTime := timeIn year }
  opened := true

def startedEngine : CTraceEngine where
  hThread := false
  uMaxMsgSize := 4096
  msgBuf := none
  iLogTraceLevel := LOG_NORMAL
  bLogTraceRunning := true

theorem timeIn_valid {year : Int16}
    (h : year = 2010 ∨ year = 2011 ∨ year = 2012 ∨ year = 2013) : (timeIn year).Valid := by
  rcases h with rfl | rfl | rfl | rfl
  · exact ⟨by decide, by decide⟩
  · exact ⟨by decide, by decide⟩
  · exact ⟨by decide, by decide⟩
  · exact ⟨by decide, by decide⟩

theorem rowOf_valid (severity : WStr) {year : Int16}
    (h : year = 2010 ∨ year = 2011 ∨ year = 2012 ∨ year = 2013) : (rowOf year severity).Valid :=
  timeIn_valid h

theorem rowOf_changed_lt {y z : Int16} (s t : WStr)
    (h : (rowOf y s).moment.year < (rowOf z t).moment.year) :
    (rowOf y s).changed < (rowOf z t).changed := Moment.key_lt_of_year_lt h

/-- The log is turned off, an older row is read, and a later one turns the log on again. -/
def restartPolls : List (FILETIME × List Reading) :=
  [(⟨0, 0⟩, [rowOf 2012 (wcs "NONE")]), (⟨7, 7⟩, [rowOf 2011 (wcs "DEBUG")]),
    (⟨0, 0⟩, [rowOf 2013 (wcs "NORMAL")])]

def earlierReadings : List Reading :=
  [rowOf 2010 (wcs "WARNING"), rowOf 2012 (wcs "NONE"), rowOf 2011 (wcs "DEBUG")]

def restartReadings : List Reading := earlierReadings ++ [rowOf 2013 (wcs "NORMAL")]

theorem readings_restartPolls :
    readings [rowOf 2010 (wcs "WARNING")] restartPolls = restartReadings := rfl

theorem earlierReadings_valid : ∀ r ∈ earlierReadings, r.Valid := by
  intro r hr
  simp only [earlierReadings, List.mem_cons, List.not_mem_nil, or_false] at hr
  rcases hr with rfl | rfl | rfl
  · exact rowOf_valid _ (by simp)
  · exact rowOf_valid _ (by simp)
  · exact rowOf_valid _ (by simp)

theorem restartReadings_valid : ∀ r ∈ restartReadings, r.Valid := by
  intro r hr
  rcases List.mem_append.mp hr with hr | hr
  · exact earlierReadings_valid r hr
  · rw [List.mem_singleton.mp hr]
    exact rowOf_valid _ (by simp)

theorem earlierReadings_lt :
    ∀ b ∈ earlierReadings, b.changed < (rowOf 2013 (wcs "NORMAL")).changed := by
  intro b hb
  simp only [earlierReadings, List.mem_cons, List.not_mem_nil, or_false] at hb
  rcases hb with rfl | rfl | rfl
  · exact rowOf_changed_lt _ _ (by decide)
  · exact rowOf_changed_lt _ _ (by decide)
  · exact rowOf_changed_lt _ _ (by decide)

theorem leftMaxima_restartReadings : leftMaxima Reading.changed restartReadings =
    [rowOf 2010 (wcs "WARNING"), rowOf 2012 (wcs "NONE"), rowOf 2013 (wcs "NORMAL")] := by
  have h0 : leftMaxima Reading.changed [rowOf 2010 (wcs "WARNING")] =
      [rowOf 2010 (wcs "WARNING")] := by
    have h := leftMaxima_concat (f := Reading.changed) [] (rowOf 2010 (wcs "WARNING"))
    rw [if_pos fun b hb => by cases hb] at h
    exact h
  have h1 := leftMaxima_concat (f := Reading.changed) [rowOf 2010 (wcs "WARNING")]
    (rowOf 2012 (wcs "NONE"))
  rw [h0, if_pos] at h1
  swap
  · intro b hb
    rw [List.mem_singleton.mp hb]
    exact rowOf_changed_lt _ _ (by decide)
  have h2 := leftMaxima_concat (f := Reading.changed)
    [rowOf 2010 (wcs "WARNING"), rowOf 2012 (wcs "NONE")] (rowOf 2011 (wcs "DEBUG"))
  rw [if_neg] at h2
  swap
  · intro hall
    have hlt := hall (rowOf 2012 (wcs "NONE")) (by simp)
    exact lt_asymm hlt (rowOf_changed_lt _ _ (by decide))
  have h3 := leftMaxima_concat (f := Reading.changed) earlierReadings (rowOf 2013 (wcs "NORMAL"))
  rw [if_pos earlierReadings_lt] at h3
  calc leftMaxima Reading.changed restartReadings
    _ = leftMaxima Reading.changed earlierReadings ++ [rowOf 2013 (wcs "NORMAL")] := h3
    _ = leftMaxima Reading.changed [rowOf 2010 (wcs "WARNING"), rowOf 2012 (wcs "NONE")] ++
          [rowOf 2013 (wcs "NORMAL")] := congrArg (· ++ _) h2
    _ = _ := congrArg (· ++ _) h1

theorem run_settings_default :
    let conf := run poll (initializeConfig { pTrace := startedEngine } ⟨0, 0⟩
      [rowOf 2010 (wcs "WARNING")]).conf
      [(⟨0, 0⟩, [rowOf 2012 (wcs "NONE")]), (⟨7, 7⟩, [rowOf 2011 (wcs "DEBUG")])]
    (updateConfig conf false ⟨0, 0⟩ [rowOf 2013 (wcs "NORMAL")]).reloads = true ∧
      (updateConfig conf false ⟨0, 0⟩ [rowOf 2011 (wcs "NORMAL")]).reloads = false := by
  have hvalid : ∀ r ∈ readings [rowOf 2010 (wcs "WARNING")]
      [(⟨0, 0⟩, [rowOf 2012 (wcs "NONE")]), (⟨7, 7⟩, [rowOf 2011 (wcs "DEBUG")])], r.Valid :=
    earlierReadings_valid
  have h := (run_settings { pTrace := startedEngine } ⟨0, 0⟩ [rowOf 2010 (wcs "WARNING")]
    [(⟨0, 0⟩, [rowOf 2012 (wcs "NONE")]), (⟨7, 7⟩, [rowOf 2011 (wcs "DEBUG")])] hvalid).2.2
  have hrow : ∀ year : Int16, year = 2011 ∨ year = 2013 →
      ∀ r ∈ [rowOf year (wcs "NORMAL")], r.Valid := by
    intro year hyear r hr
    rw [List.mem_singleton.mp hr]
    rcases hyear with rfl | rfl
    · exact rowOf_valid _ (by simp)
    · exact rowOf_valid _ (by simp)
  constructor
  · apply (h ⟨0, 0⟩ [rowOf 2013 (wcs "NORMAL")] (hrow 2013 (.inr rfl))).mpr
    exact ⟨rowOf 2013 (wcs "NORMAL"), rfl, earlierReadings_lt⟩
  · apply Bool.eq_false_iff.mpr
    intro hreloads
    obtain ⟨r, hr, hall⟩ := (h ⟨0, 0⟩ [rowOf 2011 (wcs "NORMAL")] (hrow 2011 (.inl rfl))).mp hreloads
    rw [← List.singleton_inj.mp hr] at hall
    have hlt := hall (rowOf 2012 (wcs "NONE")) (by simp [readings])
    exact lt_asymm hlt (rowOf_changed_lt _ _ (by decide))

def severity (r : Reading) : WStr := r.row.m_LogMinSeverity

def levelAfter (level : Int32) (taken : List Reading) : Int32 :=
  (taken.filterMap fun r => levelOf (severity r)).getLast?.getD level

theorem levelAfter_concat (level : Int32) (taken : List Reading) (r : Reading) :
    levelAfter level (taken ++ [r]) = (levelOf (severity r)).getD (levelAfter level taken) := by
  unfold levelAfter
  rw [List.filterMap_append]
  cases hlevel : levelOf (severity r) with
  | none => simp [hlevel]
  | some l => simp [hlevel]

theorem logAfter_concat (pTrace : CTraceEngine) (taken : List Reading) (r : Reading) :
    logAfter pTrace (taken ++ [r]) =
      setLogMinSeverity (logAfter pTrace taken) (severity r) r.opened := List.foldl_concat _ _ _ _

theorem logAfter_level (pTrace : CTraceEngine) (taken : List Reading) :
    (logAfter pTrace taken).iLogTraceLevel = levelAfter pTrace.iLogTraceLevel taken := by
  induction taken using List.reverseRecOn with
  | nil => rfl
  | append_singleton taken r ih =>
    rw [logAfter_concat, setLogMinSeverity_level, levelAfter_concat, ih]

/-- A row that starts the log behind the rows `past`, and no `NONE` after it. -/
structure Started (level : Int32) (taken past : List Reading) (r : Reading)
    (rest : List Reading) : Prop where
  taken : taken = past ++ r :: rest
  opened : r.opened = true
  starts : Starts (levelAfter level past) (severity r)
  rest : ∀ d ∈ rest, levelOf (severity d) ≠ some LOG_NONE

theorem Started.concat {level : Int32} {taken past rest : List Reading} {r d : Reading}
    (h : Started level taken past r rest) (hd : levelOf (severity d) ≠ some LOG_NONE) :
    Started level (taken ++ [d]) past r (rest ++ [d]) where
  taken := by
    rw [h.taken]
    simp
  opened := h.opened
  starts := h.starts
  rest := by
    intro c hc
    rcases List.mem_append.mp hc with hc | hc
    · exact h.rest c hc
    · rw [List.mem_singleton.mp hc]
      exact hd

theorem logAfter_running (pTrace : CTraceEngine) (taken : List Reading) :
    (logAfter pTrace taken).bLogTraceRunning = true ↔
      (pTrace.bLogTraceRunning = true ∧ ∀ r ∈ taken, levelOf (severity r) ≠ some LOG_NONE) ∨
        ∃ past r rest, Started pTrace.iLogTraceLevel taken past r rest := by
  induction taken using List.reverseRecOn with
  | nil =>
    constructor
    · exact fun hrunning => .inl ⟨hrunning, fun r hr => by cases hr⟩
    · rintro (⟨hrunning, _⟩ | ⟨past, r, rest, hstarted⟩)
      · exact hrunning
      · have hnil := hstarted.taken
        simp at hnil
  | append_singleton taken d ih =>
    rw [logAfter_concat, setLogMinSeverity_running, logAfter_level, ih]
    constructor
    · rintro ⟨hnone, (⟨hrunning, hall⟩ | ⟨past, r, rest, hstarted⟩) | ⟨hopened, hstarts⟩⟩
      · left
        refine ⟨hrunning, fun r hr => ?_⟩
        rcases List.mem_append.mp hr with hr | hr
        · exact hall r hr
        · rw [List.mem_singleton.mp hr]
          exact hnone
      · exact .inr ⟨past, r, rest ++ [d], hstarted.concat hnone⟩
      · exact .inr ⟨taken, d, [], rfl, hopened, hstarts, fun r hr => by cases hr⟩
    · rintro (⟨hrunning, hall⟩ | ⟨past, r, rest, hstarted⟩)
      · have hlast := hall d List.mem_concat_self
        exact ⟨hlast, .inl (.inl ⟨hrunning, fun r hr => hall r (List.mem_append_left [d] hr)⟩)⟩
      · cases rest using List.reverseRecOn with
        | nil =>
          obtain ⟨htaken, hd⟩ := List.append_inj' hstarted.taken rfl
          obtain ⟨rfl⟩ := List.singleton_inj.mp hd
          have hstarts := hstarted.starts
          rw [← htaken] at hstarts
          refine ⟨?_, .inr ⟨hstarted.opened, hstarts⟩⟩
          obtain ⟨l, hl, hne, _⟩ := hstarts
          rw [hl]
          exact fun heq => hne (Option.some.inj heq)
        | append_singleton rest c =>
          have heq : taken ++ [d] = (past ++ r :: rest) ++ [c] := by
            rw [hstarted.taken]
            simp
          obtain ⟨htaken, hd⟩ := List.append_inj' heq rfl
          obtain ⟨rfl⟩ := List.singleton_inj.mp hd
          refine ⟨hstarted.rest d List.mem_concat_self, .inl (.inr ⟨past, r, rest, ?_⟩)⟩
          exact ⟨htaken, hstarted.opened, hstarted.starts,
            fun c hc => hstarted.rest c (List.mem_append_left [d] hc)⟩

/-- Messages go to the log file exactly if they did when the program started and no row taken over has
said `NONE` since, or if a row after the last `NONE` has started the log. -/
theorem run_logging (before : Globals) (raw : FILETIME) (first : List Reading)
    (polls : List (FILETIME × List Reading)) (hvalid : ∀ r ∈ readings first polls, r.Valid) :
    let conf := run poll (initializeConfig before raw first).conf polls
    let taken := leftMaxima Reading.changed (readings first polls)
    conf.pTrace.bLogTraceRunning = true ↔
      (before.pTrace.bLogTraceRunning = true ∧
          ∀ r ∈ taken, levelOf (severity r) ≠ some LOG_NONE) ∨
        ∃ past r rest, Started before.pTrace.iLogTraceLevel taken past r rest := by
  intro conf taken
  have hlog : conf.pTrace = logAfter before.pTrace taken :=
    (follows_run before raw first polls hvalid).pTrace
  rw [hlog]
  exact logAfter_running before.pTrace taken

theorem run_logging_restart :
    (run poll (initializeConfig { pTrace := startedEngine } ⟨0, 0⟩
      [rowOf 2010 (wcs "WARNING")]).conf restartPolls).pTrace.bLogTraceRunning = true := by
  apply (run_logging { pTrace := startedEngine } ⟨0, 0⟩ [rowOf 2010 (wcs "WARNING")] restartPolls
    restartReadings_valid).mpr
  right
  refine ⟨[rowOf 2010 (wcs "WARNING"), rowOf 2012 (wcs "NONE")], rowOf 2013 (wcs "NORMAL"), [],
    ?_, rfl, ?_, fun d hd => by cases hd⟩
  · rw [readings_restartPolls]
    exact leftMaxima_restartReadings
  · exact ⟨LOG_NORMAL, by decide, by decide, by decide⟩

end GlobalConf

end TrapHandler
