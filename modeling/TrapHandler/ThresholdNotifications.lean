import TrapHandler.Thresholds

/-!
# The commands a file system queues

A manager learns the two threshold states of a file system from the commands alone. Its view is
right exactly in the runs where a threshold changes only while the other one is normal.
-/

namespace TrapHandler

open Runs

section Manager

variable {D : Type}

/-- The state a manager holds who has replayed the commands. -/
def replay (type : ThreshType) (cmds : List (ThreshCommand D)) : ThreshState :=
  cmds.foldl (fun s c => if c.threshType = type then c.newState else s) .norm

theorem replay_concat (type : ThreshType) (cmds : List (ThreshCommand D)) (c : ThreshCommand D) :
    replay type (cmds ++ [c]) = if c.threshType = type then c.newState else replay type cmds := by
  rw [replay, List.foldl_concat, replay]

/-- Every command starts from the state the manager holds when it arrives. -/
def Chained (cmds : List (ThreshCommand D)) : Prop :=
  AtEach (fun pre c => c.oldState = replay c.threshType pre) cmds

end Manager

def CFS.state {D : Type} (this : CFS D) : ThreshType → ThreshState
  | .utilization => this.utilThreshState
  | .freespace => this.freeMegsThreshState

/-- The manager's view is the state of the object, for both thresholds. -/
def Replays {D : Type} (w : FSWorld D) : Prop :=
  Chained w.cmdQueue ∧ ∀ type, replay type w.cmdQueue = w.fs.state type

/-- A command keeps the view exactly if it reports the change of its own threshold, and the other
one has not changed. -/
theorem replays_push {D : Type} {w : FSWorld D} {fs : CFS D} {c : ThreshCommand D}
    (changed : ThreshType) (h : Replays w) (hc : c.threshType = changed)
    (hold : c.oldState = w.fs.state changed) (hnew : c.newState = fs.state changed) :
    Replays { w with fs, cmdQueue := w.cmdQueue ++ [c] } ↔
      ∀ type, type ≠ changed → w.fs.state type = fs.state type := by
  subst hc
  obtain ⟨hchain, hview⟩ := h
  have hchain' : Chained (w.cmdQueue ++ [c]) :=
    atEach_concat.mpr ⟨hchain, hold.trans (hview _).symm⟩
  constructor
  · rintro ⟨_, hview'⟩ type htype
    have hother := hview' type
    rw [replay_concat, if_neg (Ne.symm htype), hview] at hother
    exact hother
  · intro hother
    refine ⟨hchain', fun type => ?_⟩
    rw [replay_concat]
    by_cases htype : c.threshType = type
    · rw [if_pos htype, hnew, htype]
    · rw [if_neg htype, hview]
      exact hother type (Ne.symm htype)

variable {D : Type} [Zero D] [LT D] [LE D] [BEq D] [DecidableLT D] [DecidableLE D]

/-- The call changes the state of one threshold only while the other one is normal. -/
def Quiet (matchString : WStr → WStr → Bool) (w : FSWorld D) : FSEvent D → Prop
  | .updateThresholds _ => True
  | .setValues sample =>
    let that := w.fs.load matchString w.thresholds sample
    (that.utilLevel sample ≠ w.fs.utilThreshState → w.fs.freeMegsThreshState = .norm) ∧
      (that.utilLevel sample = w.fs.utilThreshState →
        that.freeLevel sample ≠ w.fs.freeMegsThreshState → w.fs.utilThreshState = .norm)

variable {matchString : WStr → WStr → Bool} {w : FSWorld D}

theorem replays_setValues_iff {sample : Sample D} (h : Replays w) :
    Replays (w.setValues matchString sample) ↔ Quiet matchString w (.setValues sample) := by
  have hcases := CFS.setValues_cases matchString w.thresholds w.fs sample
  simp only at hcases
  rw [FSWorld.setValues, Quiet]
  obtain ⟨hu, heq⟩ | ⟨hu, hf, heq⟩ | ⟨hu, hf, heq⟩ := hcases
  · rw [heq, replays_push .utilization h rfl rfl rfl]
    constructor
    · intro hother
      exact ⟨fun _ => hother .freespace (by decide), fun hu' => absurd hu' hu⟩
    · rintro ⟨hfree, _⟩ type htype
      cases type with
      | utilization => exact absurd rfl htype
      | freespace => exact hfree hu
  · rw [heq, replays_push .freespace h rfl rfl rfl]
    constructor
    · intro hother
      exact ⟨fun hu' => absurd hu hu', fun _ _ => hother .utilization (by decide)⟩
    · rintro ⟨_, hutil⟩ type htype
      cases type with
      | utilization => exact hutil hu hf
      | freespace => exact absurd rfl htype
  · rw [heq]
    simp only [List.append_nil]
    have hkept : Replays { w with fs := w.fs.load matchString w.thresholds sample } := by
      refine ⟨h.1, fun type => ?_⟩
      cases type with
      | utilization => exact (h.2 .utilization).trans CFS.load_utilThreshState.symm
      | freespace => exact (h.2 .freespace).trans CFS.load_freeMegsThreshState.symm
    exact iff_of_true hkept ⟨fun hu' => absurd hu hu', fun _ hf' => absurd hf hf'⟩

theorem replays_step_iff {e : FSEvent D} (h : Replays w) :
    Replays (w.step matchString e) ↔ Quiet matchString w e := by
  cases e with
  | updateThresholds rows => exact iff_of_true ⟨h.1, h.2⟩ trivial
  | setValues sample => exact replays_setValues_iff h

theorem replays_create (thresholds : List (CThreshold D)) (hostName volumeName platform : WStr)
    (sample : Sample D) :
    Replays (FSWorld.create matchString thresholds hostName volumeName platform sample) := by
  rw [FSWorld.create, replays_setValues_iff]
  · exact ⟨fun _ => rfl, fun _ _ => rfl⟩
  · refine ⟨atEach_nil, fun type => ?_⟩
    cases type <;> rfl

/-- The manager holds the true states throughout a run exactly if every call of the run is quiet. -/
theorem replays_run_iff (matchString : WStr → WStr → Bool) (thresholds : List (CThreshold D))
    (hostName volumeName platform : WStr) (sample : Sample D) (events : List (FSEvent D)) :
    let w := FSWorld.create matchString thresholds hostName volumeName platform sample
    (∀ pre, pre <+: events → Replays (run (FSWorld.step matchString) w pre)) ↔
      AtEach (fun pre e => Quiet matchString (run (FSWorld.step matchString) w pre) e) events :=
  good_iff (I := fun _ => True) trivial (fun _ _ _ => trivial)
    (replays_create thresholds hostName volumeName platform sample)
    (fun _ _ _ h => replays_step_iff h) events

def bothRule : CThreshold ℚ where
  hostExpr := wcs "*"
  volExpr := wcs "*"
  highFreeMegsThresh := 100
  warnFreeMegsThresh := 200
  highUtilThresh := 90
  warnUtilThresh := 80
  warnSevStr := wcs "Warning"
  highSevStr := wcs "Critical"
  minFSSize := 0
  maxFSSize := 0

def bothBreached : Sample ℚ where
  totalSpace := 1000
  freeSpace := 50
  utilPercent := 95

/-- The second call of the run reports that the free space is short and resets the utilization,
which the manager was last told is high. -/
theorem bothBreached_not_replayed :
    ¬ Replays (run (FSWorld.step fun _ _ => true)
      (FSWorld.create (fun _ _ => true) [bothRule] (wcs "osi1112") (wcs "C:") (wcs "WIN")
        bothBreached)
      [.setValues bothBreached]) := by
  rintro ⟨_, hview⟩
  have hutil := hview .utilization
  revert hutil
  decide +kernel

end TrapHandler
