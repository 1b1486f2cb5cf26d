import TrapHandler.AlarmLevels
import TrapHandler.ModelCache
import TrapHandler.ThresholdNotifications

/-!
# The levels of a file system

`CFS::SetValues` and `Threshold::GetState` both turn a size and a free space into levels. The first
gives no utilization warning where the high threshold is disabled. The second takes the percentage
that is free for the one that is used.
-/

namespace TrapHandler

open AlarmLevels

/-- The number the source has for a state. -/
def ThreshState.number : ThreshState → ℕ
  | .norm => 0
  | .warn => 1
  | .high => 2

/-- The states of a sample are the levels under the thresholds in force. -/
structure RightLevels (this : CFS ℚ) (sample : Sample ℚ) : Prop where
  util : (this.utilLevel sample).number =
    if sample.totalSpace = 0 then 0
    else upperLevel this.highUtilThresh this.warnUtilThresh sample.utilPercent
  free : (this.freeLevel sample).number =
    if sample.totalSpace = 0 then 0
    else lowerLevel this.highFreeMegsThresh this.warnFreeMegsThresh sample.freeSpace

/-- A warning that the first branch does not take, because it compares with a disabled threshold. -/
def Silenced (this : CFS ℚ) (sample : Sample ℚ) : Prop :=
  sample.totalSpace ≠ 0 ∧ this.highUtilThresh = 0 ∧ this.warnUtilThresh ≠ 0 ∧
    this.warnUtilThresh < sample.utilPercent ∧ 0 < sample.utilPercent

section SetValues

variable {this : CFS ℚ} {sample : Sample ℚ}

theorem number_freeLevel (this : CFS ℚ) (sample : Sample ℚ) :
    (this.freeLevel sample).number =
      if sample.totalSpace = 0 then 0
      else lowerLevel this.highFreeMegsThresh this.warnFreeMegsThresh sample.freeSpace := by
  simp only [CFS.freeLevel, beq_iff_eq, bne_iff_ne]
  by_cases hsize : sample.totalSpace = 0
  · rw [if_pos hsize, if_pos hsize]
    rfl
  · rw [if_neg hsize, if_neg hsize, lowerLevel, apply_ite ThreshState.number,
      apply_ite ThreshState.number]
    exact apply_level id and_comm and_comm

theorem number_utilLevel_of_enabled (hsize : sample.totalSpace ≠ 0)
    (h : this.highUtilThresh ≠ 0) :
    (this.utilLevel sample).number =
      upperLevel this.highUtilThresh this.warnUtilThresh sample.utilPercent := by
  simp only [CFS.utilLevel, beq_iff_eq, bne_iff_ne]
  rw [if_neg hsize, upperLevel]
  by_cases hhigh : Exceeds this.highUtilThresh sample.utilPercent
  · have hle : ¬ sample.utilPercent ≤ this.highUtilThresh := not_le.mpr hhigh.2
    rw [if_neg (fun hw => hle hw.2.2), if_pos hhigh.symm, level_of_high hhigh]
    rfl
  · have hle : sample.utilPercent ≤ this.highUtilThresh := not_lt.mp fun hlt => hhigh ⟨h, hlt⟩
    by_cases hwarn : Exceeds this.warnUtilThresh sample.utilPercent
    · rw [if_pos ⟨hwarn.2, hwarn.1, hle⟩, level_of_warn hhigh hwarn]
      rfl
    · rw [if_neg (fun hw => hwarn ⟨hw.2.1, hw.1⟩), if_neg (fun hh => hhigh hh.symm),
        level_of_neither hhigh hwarn]
      rfl

/-- With the high threshold disabled, only a utilization of zero or less passes the first test. -/
theorem number_utilLevel_of_disabled (hsize : sample.totalSpace ≠ 0)
    (h : this.highUtilThresh = 0) :
    (this.utilLevel sample).number =
        upperLevel this.highUtilThresh this.warnUtilThresh sample.utilPercent ↔
      ¬ Silenced this sample := by
  have hhigh : ¬ Exceeds this.highUtilThresh sample.utilPercent := fun hh => hh.1 h
  simp only [CFS.utilLevel, beq_iff_eq, bne_iff_ne]
  rw [if_neg hsize, upperLevel]
  by_cases hwarn : Exceeds this.warnUtilThresh sample.utilPercent
  · rw [level_of_warn hhigh hwarn]
    by_cases hpos : 0 < sample.utilPercent
    · have hle : ¬ sample.utilPercent ≤ this.highUtilThresh := by
        rw [h]
        exact not_le.mpr hpos
      rw [if_neg (fun hw => hle hw.2.2), if_neg (fun hh => hhigh hh.symm)]
      exact iff_of_false zero_ne_one (not_not.mpr ⟨hsize, h, hwarn.1, hwarn.2, hpos⟩)
    · have hle : sample.utilPercent ≤ this.highUtilThresh := by
        rw [h]
        exact not_lt.mp hpos
      rw [if_pos ⟨hwarn.2, hwarn.1, hle⟩]
      exact iff_of_true rfl (fun hs => hpos hs.2.2.2.2)
  · rw [if_neg (fun hw => hwarn ⟨hw.2.1, hw.1⟩), if_neg (fun hh => hhigh hh.symm),
      level_of_neither hhigh hwarn]
    exact iff_of_true rfl (fun hs => hwarn ⟨hs.2.2.1, hs.2.2.2.1⟩)

theorem number_utilLevel_iff (this : CFS ℚ) (sample : Sample ℚ) :
    (this.utilLevel sample).number =
        (if sample.totalSpace = 0 then 0
        else upperLevel this.highUtilThresh this.warnUtilThresh sample.utilPercent) ↔
      ¬ Silenced this sample := by
  by_cases hsize : sample.totalSpace = 0
  · rw [if_pos hsize, CFS.utilLevel, if_pos (beq_iff_eq.mpr hsize)]
    exact iff_of_true rfl (fun hs => hs.1 hsize)
  · rw [if_neg hsize]
    by_cases h : this.highUtilThresh = 0
    · exact number_utilLevel_of_disabled hsize h
    · exact iff_of_true (number_utilLevel_of_enabled hsize h) (fun hs => h hs.2.1)

/-- The states that a call of `SetValues` computes are the levels of the sample exactly if it does
not exceed a warning threshold in the absence of a high one. -/
theorem setValues_rightLevels_iff (matchString : WStr → WStr → Bool)
    (thresholds : List (CThreshold ℚ)) (this : CFS ℚ) (sample : Sample ℚ) :
    let that := this.load matchString thresholds sample
    RightLevels that sample ↔ ¬ Silenced that sample := by
  intro that
  rw [← number_utilLevel_iff]
  constructor
  · intro h
    exact h.util
  · intro h
    exact ⟨h, number_freeLevel that sample⟩

end SetValues

def warnOnlyRule : CThreshold ℚ := { bothRule with highUtilThresh := 0 }

theorem warnOnly_silenced :
    ¬ RightLevels ((CFS.init (wcs "osi1112") (wcs "C:") (wcs "WIN") bothBreached).load
      (fun _ _ => true) [warnOnlyRule] bothBreached) bothBreached := by
  intro h
  have hutil := h.util
  revert hutil
  decide +kernel

/-- The used megabytes in percent of the size. -/
def FileSystem.getUtil (this : FileSystem) : ℚ :=
  let util : ℚ := (this.size - this.freeMb).toInt
  let util := util / this.size.toInt
  util * 100

namespace Threshold

inductive ThreshState where
  | normal
  | util_warning
  | mb_warning
  | util_high
  | mb_high
  deriving DecidableEq, Repr

def ThreshState.value : ThreshState → ℕ
  | normal => 0
  | util_warning => 100
  | mb_warning => 101
  | util_high => 200
  | mb_high => 201

variable {R : Type}

/-- The used megabytes that the function computes first are not used. -/
def getState (this : Threshold R) (fsFreeSpaceMb fsSizeMb : Int64) : ThreshState :=
  let utilPercent : ℚ := fsFreeSpaceMb.toInt / fsSizeMb.toInt * 100
  let utilState : ThreshState :=
    if fsSizeMb == 0 then .normal
    else if utilPercent > this.highUtilThresh ∧ this.highUtilThresh != 0 then .util_high
    else if utilPercent > this.warnUtilThresh ∧ this.warnUtilThresh != 0 then .util_warning
    else .normal
  let mbState : ThreshState :=
    if fsSizeMb == 0 then .normal
    else if fsFreeSpaceMb < this.highFreeMegsThresh ∧ this.highFreeMegsThresh != 0 then .mb_high
    else if fsFreeSpaceMb < this.warnFreeMegsThresh ∧ this.warnFreeMegsThresh != 0 then .mb_warning
    else .normal
  if utilState.value < mbState.value then mbState else utilState

/-- The level is the state divided by 100. -/
def ThreshState.level (state : ThreshState) : ℕ := state.value / 100

def utilLevel (this : Threshold R) (percent : ℚ) : ℕ :=
  upperLevel this.highUtilThresh this.warnUtilThresh percent

def freeLevel (this : Threshold R) (fsFreeSpaceMb : Int64) : ℕ :=
  lowerLevel this.highFreeMegsThresh.toInt this.warnFreeMegsThresh.toInt fsFreeSpaceMb.toInt

def utilStateOf : ℕ → ThreshState
  | 0 => .normal
  | 1 => .util_warning
  | _ => .util_high

def mbStateOf : ℕ → ThreshState
  | 0 => .normal
  | 1 => .mb_warning
  | _ => .mb_high

theorem level_utilStateOf {n : ℕ} (h : n ≤ 2) : (utilStateOf n).level = n := by
  interval_cases n <;> rfl

theorem level_mbStateOf {n : ℕ} (h : n ≤ 2) : (mbStateOf n).level = n := by
  interval_cases n <;> rfl

theorem value_lt_iff {u m : ℕ} (hu : u ≤ 2) (hm : m ≤ 2) :
    (utilStateOf u).value < (mbStateOf m).value ↔ u ≤ m ∧ m ≠ 0 := by
  interval_cases u <;> interval_cases m <;> decide

variable {this : Threshold R} {free size : Int64}

theorem upper_state (this : Threshold R) (percent : ℚ) :
    (if percent > this.highUtilThresh ∧ this.highUtilThresh != 0 then ThreshState.util_high
      else if percent > this.warnUtilThresh ∧ this.warnUtilThresh != 0 then .util_warning
      else .normal) = utilStateOf (this.utilLevel percent) := by
  simp only [bne_iff_ne]
  exact apply_level utilStateOf and_comm and_comm

theorem fallsBelow_toInt_iff {limit x : Int64} :
    FallsBelow limit.toInt x.toInt ↔ x < limit ∧ limit ≠ 0 := by
  rw [FallsBelow, Int64.lt_iff_toInt_lt, and_comm, ne_eq, ne_eq, ← Int64.toInt_zero,
    Int64.toInt_inj]

theorem lower_state (this : Threshold R) (free : Int64) :
    (if free < this.highFreeMegsThresh ∧ this.highFreeMegsThresh != 0 then ThreshState.mb_high
      else if free < this.warnFreeMegsThresh ∧ this.warnFreeMegsThresh != 0 then .mb_warning
      else .normal) = mbStateOf (this.freeLevel free) := by
  simp only [bne_iff_ne]
  exact apply_level mbStateOf fallsBelow_toInt_iff.symm fallsBelow_toInt_iff.symm

def freePercent (free size : Int64) : ℚ := free.toInt / size.toInt * 100

theorem utilLevel_le_two (this : Threshold R) (percent : ℚ) : this.utilLevel percent ≤ 2 :=
  upperLevel_le_two

theorem freeLevel_le_two (this : Threshold R) (free : Int64) : this.freeLevel free ≤ 2 :=
  lowerLevel_le_two

theorem getState_eq (this : Threshold R) (free : Int64) (hsize : size ≠ 0) :
    this.getState free size =
      if this.utilLevel (freePercent free size) ≤ this.freeLevel free then
        mbStateOf (this.freeLevel free)
      else utilStateOf (this.utilLevel (freePercent free size)) := by
  have hvalue := value_lt_iff (this.utilLevel_le_two (freePercent free size))
    (this.freeLevel_le_two free)
  have hne : ¬ (size == 0) = true := fun h => hsize (beq_iff_eq.mp h)
  simp only [getState, if_neg hne]
  rw [upper_state, lower_state, ← freePercent]
  by_cases hle : this.utilLevel (freePercent free size) ≤ this.freeLevel free
  · rw [if_pos hle]
    by_cases hm : this.freeLevel free = 0
    · have hu : this.utilLevel (freePercent free size) = 0 := by omega
      rw [if_neg (fun h => (hvalue.mp h).2 hm), hu, hm]
      rfl
    · rw [if_pos (hvalue.mpr ⟨hle, hm⟩)]
  · rw [if_neg hle, if_neg (fun h => hle (hvalue.mp h).1)]

theorem level_getState (this : Threshold R) (free : Int64) (hsize : size ≠ 0) :
    (this.getState free size).level =
      max (this.utilLevel (freePercent free size)) (this.freeLevel free) := by
  rw [getState_eq this free hsize]
  by_cases hle : this.utilLevel (freePercent free size) ≤ this.freeLevel free
  · rw [if_pos hle, level_mbStateOf (this.freeLevel_le_two free), max_eq_right hle]
  · rw [if_neg hle, level_utilStateOf (this.utilLevel_le_two _), max_eq_left (not_le.mp hle).le]

end Threshold

variable {R : Type}

/-- The state of a file system is the higher one of its two levels, the megabyte state where they
are equal. -/
structure RightState (t : Threshold R) (fs : FileSystem) : Prop where
  empty : fs.size = 0 → t.getState fs.freeMb fs.size = .normal
  level : fs.size ≠ 0 → (t.getState fs.freeMb fs.size).level =
    max (t.utilLevel fs.getUtil) (t.freeLevel fs.freeMb)
  tie : fs.size ≠ 0 → t.utilLevel fs.getUtil = t.freeLevel fs.freeMb →
    t.getState fs.freeMb fs.size = Threshold.mbStateOf (t.freeLevel fs.freeMb)

/-- The free and the used percentage are of one level, or of levels the free space makes up for. -/
def SameVerdict (t : Threshold R) (fs : FileSystem) : Prop :=
  let free := t.utilLevel (Threshold.freePercent fs.freeMb fs.size)
  let used := t.utilLevel fs.getUtil
  fs.size = 0 ∨ free = used ∨ (free ≤ t.freeLevel fs.freeMb ∧ used ≤ t.freeLevel fs.freeMb)

theorem rightState_iff (t : Threshold R) (fs : FileSystem) :
    RightState t fs ↔ SameVerdict t fs := by
  by_cases hsize : fs.size = 0
  · have hempty : t.getState fs.freeMb fs.size = .normal := by
      simp only [Threshold.getState, if_pos (beq_iff_eq.mpr hsize)]
      rfl
    exact iff_of_true ⟨fun _ => hempty, fun h => absurd hsize h, fun h => absurd hsize h⟩
      (.inl hsize)
  · have hlevel := t.level_getState fs.freeMb hsize
    constructor
    · intro h
      have hmax := h.level hsize
      rw [hlevel] at hmax
      right
      omega
    · intro h
      have hverdict := h.resolve_left hsize
      refine ⟨fun h => absurd h hsize, ?_, ?_⟩
      · intro _
        rw [hlevel]
        omega
      · intro _ htie
        have hle : t.utilLevel (Threshold.freePercent fs.freeMb fs.size) ≤
            t.freeLevel fs.freeMb := by omega
        rw [t.getState_eq fs.freeMb hsize, if_pos hle]

def FileSystem.Sane (fs : FileSystem) : Prop :=
  0 ≤ fs.freeMb.toInt ∧ fs.freeMb.toInt ≤ fs.size.toInt

theorem FileSystem.getUtil_eq {fs : FileSystem} (h : fs.Sane) :
    fs.getUtil = (fs.size.toInt - fs.freeMb.toInt : ℚ) / fs.size.toInt * 100 := by
  have hlt := fs.size.toInt_lt
  obtain ⟨hnonneg, hle⟩ := h
  have hsub : (fs.size - fs.freeMb).toInt = fs.size.toInt - fs.freeMb.toInt := by
    rw [Int64.toInt_sub]
    exact Int.bmod_eq_of_le (by omega) (by omega)
  rw [FileSystem.getUtil, hsub, Int.cast_sub]

theorem getUtil_anti {fs fs' : FileSystem} (h : fs.Sane) (h' : fs'.Sane)
    (hsize : fs'.size = fs.size) (hfree : fs.freeMb.toInt ≤ fs'.freeMb.toInt) :
    fs'.getUtil ≤ fs.getUtil := by
  have hcast : (fs.freeMb.toInt : ℚ) ≤ fs'.freeMb.toInt := Int.cast_le.mpr hfree
  have hpos : (0 : ℚ) ≤ fs.size.toInt := Int.cast_nonneg (h.1.trans h.2)
  rw [FileSystem.getUtil_eq h, FileSystem.getUtil_eq h', hsize]
  gcongr

/-- The state is right exactly where the free percentage leads to the verdict of the used one, and
among such states less free space never gives a lower level. -/
theorem getState_right_iff (t : Threshold R) (fs : FileSystem) :
    (RightState t fs ↔ SameVerdict t fs) ∧
      ∀ fs' : FileSystem, fs.Sane → fs'.Sane → fs'.size = fs.size →
        fs.freeMb.toInt ≤ fs'.freeMb.toInt → SameVerdict t fs → SameVerdict t fs' →
        (t.getState fs'.freeMb fs'.size).level ≤ (t.getState fs.freeMb fs.size).level := by
  refine ⟨rightState_iff t fs, ?_⟩
  intro fs' hsane hsane' hsize hfree hverdict hverdict'
  have hright := (rightState_iff t fs).mpr hverdict
  have hright' := (rightState_iff t fs').mpr hverdict'
  by_cases hzero : fs.size = 0
  · rw [hright'.empty (hsize.trans hzero)]
    exact Nat.zero_le _
  · have hzero' : fs'.size ≠ 0 := fun h => hzero (hsize.symm.trans h)
    have hutil : t.utilLevel fs'.getUtil ≤ t.utilLevel fs.getUtil :=
      upperLevel_mono _ _ (getUtil_anti hsane hsane' hsize hfree)
    have hmb : t.freeLevel fs'.freeMb ≤ t.freeLevel fs.freeMb := lowerLevel_anti _ _ hfree
    rw [hright.level hzero, hright'.level hzero']
    exact max_le_max hutil hmb

def utilThreshold : Threshold WStr where
  id := 1
  highFreeMegsThresh := 0
  warnFreeMegsThresh := 0
  highUtilThresh := 90
  warnUtilThresh := 80
  warnSevStr := wcs "Minor"
  highSevStr := wcs "Major"
  minFSSize := 0
  maxFSSize := 0
  hostExprStr := wcs ".*"
  volExprStr := wcs ".*"
  hostExpr := wcs ".*"
  volExpr := wcs ".*"

/-- Half of the size is free, or a little more. -/
theorem getState_right_half :
    let fs : FileSystem := { name := wcs "/var", id := 1, size := 1000, freeMb := 500 }
    RightState utilThreshold fs ∧
      (utilThreshold.getState 550 1000).level ≤ (utilThreshold.getState 500 1000).level := by
  intro fs
  have hverdict : SameVerdict utilThreshold fs := .inr (.inl (by decide +kernel))
  have hverdict' : SameVerdict utilThreshold { fs with freeMb := 550 } :=
    .inr (.inl (by decide +kernel))
  have h := getState_right_iff utilThreshold fs
  exact ⟨h.1.mpr hverdict, h.2 { fs with freeMb := 550 } (by unfold FileSystem.Sane; decide)
    (by unfold FileSystem.Sane; decide) rfl (by decide) hverdict hverdict'⟩

/-- A file system of which 95 percent are used is normal. -/
theorem fullFileSystem_not_right :
    ¬ RightState utilThreshold { name := wcs "/var", id := 1, size := 1000, freeMb := 50 } := by
  intro h
  have hlevel := h.level (by decide)
  revert hlevel
  decide +kernel

end TrapHandler
