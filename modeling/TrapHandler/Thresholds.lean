import TrapHandler.Runs
import TrapHandler.WideStrings

/-!
# File system thresholds

`CFS` watches one file system: each sample is classified by the utilization and by the free-space
thresholds in force, and a change of either classification queues a command. The percentages are of an
arbitrary type with the comparisons of `double`. The string matcher is a parameter.
-/

namespace TrapHandler

inductive ThreshState where
  | norm
  | warn
  | high
  deriving DecidableEq, Repr

inductive ThreshType where
  | utilization
  | freespace
  deriving DecidableEq, Repr

structure CThreshold (D : Type) where
  hostExpr : WStr
  volExpr : WStr
  highFreeMegsThresh : UInt64
  warnFreeMegsThresh : UInt64
  highUtilThresh : D
  warnUtilThresh : D
  warnSevStr : WStr
  highSevStr : WStr
  minFSSize : UInt64
  maxFSSize : UInt64

structure CFS (D : Type) where
  hostName : WStr
  volName : WStr
  totSize : UInt64
  freeMegs : UInt64
  utilPercent : D
  platformName : WStr
  freeMegsThreshState : ThreshState
  highFreeMegsThresh : UInt64
  warnFreeMegsThresh : UInt64
  utilThreshState : ThreshState
  highUtilThresh : D
  warnUtilThresh : D
  warnSevStr : Option WStr
  highSevStr : Option WStr
  bThreshChanged : Bool

structure Sample (D : Type) where
  totalSpace : UInt64
  freeSpace : UInt64
  utilPercent : D

/-- What `BuildMessageString` writes into the text of a command. The severity is the pointer it is
copied from. -/
structure ThreshCommand (D : Type) where
  hostName : WStr
  threshType : ThreshType
  platformName : WStr
  newState : ThreshState
  oldState : ThreshState
  volName : WStr
  freeMegs : UInt64
  totSize : UInt64
  utilPercent : D
  warnFreeMegsThresh : UInt64
  highFreeMegsThresh : UInt64
  warnUtilThresh : D
  highUtilThresh : D
  sev : Option WStr

section Code

variable {D : Type} [Zero D] [LT D] [LE D] [BEq D] [DecidableLT D] [DecidableLE D]
variable (matchString : WStr → WStr → Bool)

/-- The first rule whose expressions match and whose size range contains the size. -/
def getThresholdForFS (thresholds : List (CThreshold D)) (hostName volumeName : WStr)
    (fsSizeMB : UInt64) : Option (CThreshold D) :=
  thresholds.find? fun t =>
    matchString t.hostExpr hostName &&
      ((t.minFSSize == 0 || decide (t.minFSSize ≤ fsSizeMB)) &&
        (t.maxFSSize == 0 || decide (fsSizeMB ≤ t.maxFSSize))) &&
      matchString t.volExpr volumeName

namespace CFS

/-- The size is the one known before the next sample. -/
def getThresholds (thresholds : List (CThreshold D)) (this : CFS D) : CFS D :=
  match getThresholdForFS matchString thresholds this.hostName this.volName this.totSize with
  | some myThresh =>
    { this with
      highFreeMegsThresh := myThresh.highFreeMegsThresh
      warnFreeMegsThresh := myThresh.warnFreeMegsThresh
      highUtilThresh := myThresh.highUtilThresh
      warnUtilThresh := myThresh.warnUtilThresh
      warnSevStr := some myThresh.warnSevStr
      highSevStr := some myThresh.highSevStr }
  | none =>
    { this with
      highFreeMegsThresh := 0
      warnFreeMegsThresh := 0
      highUtilThresh := 0
      warnUtilThresh := 0
      warnSevStr := none
      highSevStr := none }

def utilLevel (this : CFS D) (sample : Sample D) : ThreshState :=
  if sample.totalSpace == 0 then .norm
  else if sample.utilPercent > this.warnUtilThresh ∧ this.warnUtilThresh != 0 ∧
      sample.utilPercent ≤ this.highUtilThresh then .warn
  else if sample.utilPercent > this.highUtilThresh ∧ this.highUtilThresh != 0 then .high
  else .norm

def freeLevel (this : CFS D) (sample : Sample D) : ThreshState :=
  if sample.totalSpace == 0 then .norm
  else if sample.freeSpace < this.highFreeMegsThresh ∧ this.highFreeMegsThresh != 0 then .high
  else if sample.freeSpace < this.warnFreeMegsThresh ∧ this.warnFreeMegsThresh != 0 then .warn
  else .norm

def buildMessage (this : CFS D) (threshType : ThreshType) (oldState newState : ThreshState) :
    ThreshCommand D where
  hostName := this.hostName
  threshType := threshType
  platformName := this.platformName
  newState := newState
  oldState := oldState
  volName := this.volName
  freeMegs := this.freeMegs
  totSize := this.totSize
  utilPercent := this.utilPercent
  warnFreeMegsThresh := this.warnFreeMegsThresh
  highFreeMegsThresh := this.highFreeMegsThresh
  warnUtilThresh := this.warnUtilThresh
  highUtilThresh := this.highUtilThresh
  sev :=
    match newState with
    | .norm => some (wcs "Normal")
    | .warn => this.warnSevStr
    | .high => this.highSevStr

/-- The object with the thresholds `SetValues` compares with, and the values of the sample. -/
def load (thresholds : List (CThreshold D)) (this : CFS D) (sample : Sample D) : CFS D :=
  let this := if this.bThreshChanged then this.getThresholds matchString thresholds else this
  { this with
    totSize := sample.totalSpace
    freeMegs := sample.freeSpace
    utilPercent := sample.utilPercent }

/-- The object after the call and the commands it queued. Each branch that changes one state resets
the other. -/
def setValues (thresholds : List (CThreshold D)) (this : CFS D) (sample : Sample D) :
    CFS D × List (ThreshCommand D) :=
  let this := this.load matchString thresholds sample
  let newState := this.utilLevel sample
  if newState ≠ this.utilThreshState then
    ({ this with freeMegsThreshState := .norm, utilThreshState := newState },
      [this.buildMessage .utilization this.utilThreshState newState])
  else
    let newState := this.freeLevel sample
    if newState ≠ this.freeMegsThreshState then
      ({ this with utilThreshState := .norm, freeMegsThreshState := newState },
        [this.buildMessage .freespace this.freeMegsThreshState newState])
    else
      (this, [])

/-- The members the constructor initializes, before its call of `SetValues`. -/
def init (hostName volumeName platform : WStr) (sample : Sample D) : CFS D where
  hostName := hostName
  volName := volumeName
  totSize := sample.totalSpace
  freeMegs := sample.freeSpace
  utilPercent := sample.utilPercent
  platformName := platform
  freeMegsThreshState := .norm
  highFreeMegsThresh := 0
  warnFreeMegsThresh := 0
  utilThreshState := .norm
  highUtilThresh := 0
  warnUtilThresh := 0
  warnSevStr := none
  highSevStr := none
  bThreshChanged := true

end CFS

/-- One file system, the rules in force, and the commands queued for it, oldest first. -/
structure FSWorld (D : Type) where
  thresholds : List (CThreshold D)
  fs : CFS D
  cmdQueue : List (ThreshCommand D)

inductive FSEvent (D : Type) where
  | updateThresholds (rows : List (CThreshold D))
  | setValues (sample : Sample D)

namespace FSWorld

def setValues (w : FSWorld D) (sample : Sample D) : FSWorld D :=
  let (fs, cmds) := w.fs.setValues matchString w.thresholds sample
  { w with fs, cmdQueue := w.cmdQueue ++ cmds }

def step (w : FSWorld D) : FSEvent D → FSWorld D
  | .updateThresholds rows =>
    { w with thresholds := rows, fs := { w.fs with bThreshChanged := true } }
  | .setValues sample => w.setValues matchString sample

/-- The constructor of `CFS`. -/
def create (thresholds : List (CThreshold D)) (hostName volumeName platform : WStr)
    (sample : Sample D) : FSWorld D :=
  setValues matchString
    { thresholds, fs := CFS.init hostName volumeName platform sample, cmdQueue := [] } sample

end FSWorld

end Code

namespace CFS

section Load

variable {D : Type} [Zero D] {matchString : WStr → WStr → Bool} {thresholds : List (CThreshold D)}
variable {this : CFS D} {sample : Sample D}

theorem load_eq (matchString : WStr → WStr → Bool) (thresholds : List (CThreshold D))
    (this : CFS D) (sample : Sample D) :
    ∃ highFree warnFree highUtil warnUtil warnSev highSev,
      this.load matchString thresholds sample =
        { this with
          totSize := sample.totalSpace
          freeMegs := sample.freeSpace
          utilPercent := sample.utilPercent
          highFreeMegsThresh := highFree
          warnFreeMegsThresh := warnFree
          highUtilThresh := highUtil
          warnUtilThresh := warnUtil
          warnSevStr := warnSev
          highSevStr := highSev } := by
  unfold load getThresholds
  split_ifs
  · cases getThresholdForFS matchString thresholds this.hostName this.volName this.totSize with
    | none => exact ⟨_, _, _, _, _, _, rfl⟩
    | some rule => exact ⟨_, _, _, _, _, _, rfl⟩
  · exact ⟨_, _, _, _, _, _, rfl⟩

@[simp] theorem load_utilThreshState :
    (this.load matchString thresholds sample).utilThreshState = this.utilThreshState := by
  obtain ⟨_, _, _, _, _, _, heq⟩ := load_eq matchString thresholds this sample
  rw [heq]

@[simp] theorem load_freeMegsThreshState :
    (this.load matchString thresholds sample).freeMegsThreshState = this.freeMegsThreshState := by
  obtain ⟨_, _, _, _, _, _, heq⟩ := load_eq matchString thresholds this sample
  rw [heq]

end Load

variable {D : Type} [Zero D] [LT D] [LE D] [BEq D] [DecidableLT D] [DecidableLE D]

/-- Everything a call of `SetValues` can do. -/
theorem setValues_cases (matchString : WStr → WStr → Bool) (thresholds : List (CThreshold D))
    (this : CFS D) (sample : Sample D) :
    let that := this.load matchString thresholds sample
    let u := that.utilLevel sample
    let f := that.freeLevel sample
    (u ≠ this.utilThreshState ∧ this.setValues matchString thresholds sample =
      ({ that with freeMegsThreshState := .norm, utilThreshState := u },
        [that.buildMessage .utilization this.utilThreshState u])) ∨
    (u = this.utilThreshState ∧ f ≠ this.freeMegsThreshState ∧
      this.setValues matchString thresholds sample =
        ({ that with utilThreshState := .norm, freeMegsThreshState := f },
          [that.buildMessage .freespace this.freeMegsThreshState f])) ∨
    (u = this.utilThreshState ∧ f = this.freeMegsThreshState ∧
      this.setValues matchString thresholds sample = (that, [])) := by
  intro that u f
  simp only [setValues, load_utilThreshState, load_freeMegsThreshState]
  by_cases hu : u = this.utilThreshState
  · by_cases hf : f = this.freeMegsThreshState
    · exact .inr (.inr ⟨hu, hf, by rw [if_neg (not_not.mpr hu), if_neg (not_not.mpr hf)]⟩)
    · exact .inr (.inl ⟨hu, hf, by rw [if_neg (not_not.mpr hu), if_pos hf]⟩)
  · exact .inl ⟨hu, by rw [if_pos hu]⟩

end CFS

end TrapHandler
