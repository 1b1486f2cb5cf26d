import TrapHandler.ExclusiveAlarms
import TrapHandler.ThresholdNotifications

/-!
# A sample that is repeated

The two thresholds of a file system are two alarms that exclude each other: each call of `SetValues`
is one reaction to the levels of the sample. The thresholds of the first call are those of the size
known before it, the thresholds of all later calls those of the size in the sample.
-/

namespace TrapHandler

open Runs ExclusiveAlarms

variable {D : Type} [Zero D] [LT D] [LE D] [BEq D] [DecidableLT D] [DecidableLE D]
variable (matchString : WStr → WStr → Bool) (w : FSWorld D) (sample : Sample D)

namespace FSWorld

def alarms (w : FSWorld D) : ThreshState × ThreshState :=
  (w.fs.utilThreshState, w.fs.freeMegsThreshState)

/-- The levels of a sample under the thresholds of a file system of the given size. -/
def levels (size : UInt64) : ThreshState × ThreshState :=
  let that := { w.fs with totSize := size }.getThresholds matchString w.thresholds
  (that.utilLevel sample, that.freeLevel sample)

/-- The thresholds are looked up at every call, and at most one of the states is raised. -/
structure Watching (w : FSWorld D) : Prop where
  rereads : w.fs.bThreshChanged = true
  exclusive : Exclusive .norm w.alarms

variable {matchString w sample}

theorem levels_totSize (h : w.fs.bThreshChanged = true) :
    w.levels matchString sample w.fs.totSize =
      let that := w.fs.load matchString w.thresholds sample
      (that.utilLevel sample, that.freeLevel sample) := by
  simp only [levels, CFS.load, if_pos h]
  rfl

theorem levels_congr {w' : FSWorld D} (hrules : w'.thresholds = w.thresholds)
    (hhost : w'.fs.hostName = w.fs.hostName) (hvol : w'.fs.volName = w.fs.volName) (size : UInt64) :
    w'.levels matchString sample size = w.levels matchString sample size := by
  simp only [levels, CFS.getThresholds, hrules, hhost, hvol]
  cases getThresholdForFS matchString w.thresholds w.fs.hostName w.fs.volName size <;> rfl

theorem setValues_frame (matchString : WStr → WStr → Bool) (w : FSWorld D) (sample : Sample D) :
    let fs := (w.setValues matchString sample).fs
    fs.hostName = w.fs.hostName ∧ fs.volName = w.fs.volName ∧
      fs.totSize = sample.totalSpace ∧ fs.bThreshChanged = w.fs.bThreshChanged := by
  have hcases := CFS.setValues_cases matchString w.thresholds w.fs sample
  obtain ⟨_, _, _, _, _, _, hload⟩ := CFS.load_eq matchString w.thresholds w.fs sample
  simp only at hcases
  rw [setValues]
  obtain ⟨_, heq⟩ | ⟨_, _, heq⟩ | ⟨_, _, heq⟩ := hcases
  all_goals
    rw [heq, hload]
    exact ⟨rfl, rfl, rfl, rfl⟩

theorem levels_setValues (size : UInt64) :
    (w.setValues matchString sample).levels matchString sample size =
      w.levels matchString sample size := by
  obtain ⟨hhost, hvol, _, _⟩ := setValues_frame matchString w sample
  have hrules : (w.setValues matchString sample).thresholds = w.thresholds := rfl
  exact levels_congr hrules hhost hvol size

/-- One call of `SetValues` is one reaction. -/
theorem setValues_react (matchString : WStr → WStr → Bool) (sample : Sample D)
    (h : w.fs.bThreshChanged = true) :
    let r := react .norm w.alarms (w.levels matchString sample w.fs.totSize)
    (w.setValues matchString sample).alarms = r.1 ∧
      (w.setValues matchString sample).cmdQueue.length = w.cmdQueue.length + r.2 := by
  have hcases := CFS.setValues_cases matchString w.thresholds w.fs sample
  rw [levels_totSize h]
  simp only at hcases ⊢
  obtain ⟨hu, heq⟩ | ⟨hu, hf, heq⟩ | ⟨hu, hf, heq⟩ := hcases
  · rw [react_first hu, setValues, heq]
    exact ⟨rfl, List.length_append⟩
  · rw [react_second hu hf, setValues, heq]
    exact ⟨rfl, List.length_append⟩
  · have hsame : react .norm w.alarms (w.fs.utilThreshState, w.fs.freeMegsThreshState) =
        (w.alarms, 0) := react_self
    rw [hu, hf, hsame, setValues, heq]
    simp only [alarms, CFS.load_utilThreshState, CFS.load_freeMegsThreshState, List.append_nil,
      Nat.add_zero, and_self]

theorem watching_setValues (h : Watching w) : Watching (w.setValues matchString sample) := by
  obtain ⟨_, _, _, hrereads⟩ := setValues_frame matchString w sample
  obtain ⟨halarms, _⟩ := setValues_react matchString sample h.rereads
  constructor
  · exact hrereads.trans h.rereads
  · rw [halarms]
    exact exclusive_react h.exclusive

theorem watching_step {e : FSEvent D} (h : Watching w) : Watching (w.step matchString e) := by
  cases e with
  | updateThresholds rows => exact ⟨rfl, h.exclusive⟩
  | setValues sample => exact watching_setValues h

theorem watching_create (thresholds : List (CThreshold D)) (hostName volumeName platform : WStr) :
    Watching (create matchString thresholds hostName volumeName platform sample) :=
  watching_setValues ⟨rfl, .inl rfl⟩

theorem length_repeat (h : Watching w) (hsize : w.fs.totSize = sample.totalSpace) (n : ℕ) :
    (run (step matchString) w (List.replicate n (.setValues sample))).cmdQueue.length =
      w.cmdQueue.length +
        reports .norm w.alarms (w.levels matchString sample sample.totalSpace) n := by
  induction n generalizing w with
  | zero => rfl
  | succ n ih =>
    obtain ⟨_, _, hsize', _⟩ := setValues_frame matchString w sample
    obtain ⟨halarms, hlength⟩ := setValues_react matchString sample h.rereads
    rw [List.replicate_succ, run_cons, step, ih (watching_setValues h) hsize', levels_setValues,
      halarms, hlength, hsize, reports, Nat.add_assoc]

end FSWorld

/-- A sample that is repeated in a state a run reaches queues at most two commands exactly if it
settles: under the thresholds of its size it does not breach both, and if it then breaches the free
space only, it does not newly breach the utilization under the thresholds of the size before. -/
theorem repeated_sample_iff (matchString : WStr → WStr → Bool) (thresholds : List (CThreshold D))
    (hostName volumeName platform : WStr) (first : Sample D) (events : List (FSEvent D))
    (sample : Sample D) :
    let w := run (FSWorld.step matchString)
      (FSWorld.create matchString thresholds hostName volumeName platform first) events
    (∀ n, (run (FSWorld.step matchString) w
        (List.replicate n (.setValues sample))).cmdQueue.length ≤ w.cmdQueue.length + 2) ↔
      Settles .norm w.alarms (w.levels matchString sample w.fs.totSize)
        (w.levels matchString sample sample.totalSpace) := by
  intro w
  have hw : w.Watching :=
    invariant (FSWorld.watching_create thresholds hostName volumeName platform)
      (fun _ _ h => FSWorld.watching_step h) events
  obtain ⟨_, _, hsize, _⟩ := FSWorld.setValues_frame matchString w sample
  obtain ⟨halarms, hlength⟩ := FSWorld.setValues_react matchString sample hw.rereads
  have hcount : ∀ n, (run (FSWorld.step matchString) w
      (List.replicate (n + 1) (.setValues sample))).cmdQueue.length = w.cmdQueue.length +
        ((react .norm w.alarms (w.levels matchString sample w.fs.totSize)).2 +
          reports .norm (react .norm w.alarms (w.levels matchString sample w.fs.totSize)).1
            (w.levels matchString sample sample.totalSpace) n) := by
    intro n
    rw [List.replicate_succ, run_cons, FSWorld.step,
      FSWorld.length_repeat (FSWorld.watching_setValues hw) hsize, FSWorld.levels_setValues,
      halarms, hlength, Nat.add_assoc]
  rw [← reports_le_two_iff hw.exclusive]
  constructor
  · intro h n
    have hn := h (n + 1)
    rw [hcount] at hn
    omega
  · intro h n
    cases n with
    | zero => exact Nat.le_add_right _ _
    | succ n =>
      rw [hcount]
      exact Nat.add_le_add_left (h n) _

/-- Each call resets the threshold the one before has raised, so each call queues a command. -/
theorem bothBreached_not_settled :
    let w := FSWorld.create (fun _ _ => true) [bothRule] (wcs "osi1112") (wcs "C:") (wcs "WIN")
      bothBreached
    ¬ ∀ n, (run (FSWorld.step fun _ _ => true) w
        (List.replicate n (.setValues bothBreached))).cmdQueue.length ≤ w.cmdQueue.length + 2 := by
  intro w h
  have hthree := h 3
  revert hthree
  decide +kernel

end TrapHandler
