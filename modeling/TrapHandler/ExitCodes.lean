import TrapHandler.CommandQueue

/-!
# Exit codes of commands

The state of a process is read from its exit code, which is `STILL_ACTIVE` while the process runs.
A process may end with that number as well, and its command then keeps its slot.
-/

namespace TrapHandler

open CmdQueue

inductive ProcessState where
  | running
  | ended (exitCode : UInt32)
  deriving DecidableEq, Repr

/-- What `GetExitCodeProcess` reports. -/
def ProcessState.exitCode : ProcessState → UInt32
  | running => STILL_ACTIVE
  | ended exitCode => exitCode

namespace CmdQueue

variable {platform : Platform}

/-- The commands at the positions, counted from `i` on, that pass a test. -/
def atPositions (p : ℕ → Bool) (i : ℕ) (cmds : List ExecObj) : List ExecObj :=
  ((cmds.zipIdx i).filter fun c => p c.2).map Prod.fst

def stillRunning (states : ℕ → ProcessState) (s : CmdQueue platform) : List ExecObj :=
  atPositions (fun i => states i = .running) 0 s.runningCommands

/-- After the call the running commands are those whose processes run, and the counter is their
number. -/
structure EndedReleased (states : ℕ → ProcessState) (s s' : CmdQueue platform) : Prop where
  removed : s'.runningCommands = stillRunning states s
  counted : s'.nCommands.toNat = (stillRunning states s).length

theorem atPositions_cons (p : ℕ → Bool) (i : ℕ) (cmd : ExecObj) (cmds : List ExecObj) :
    atPositions p i (cmd :: cmds) =
      if p i = true then cmd :: atPositions p (i + 1) cmds else atPositions p (i + 1) cmds := by
  rw [atPositions, List.zipIdx_cons, List.filter_cons]
  split_ifs
  · rfl
  · rfl

/-- The commands that are kept are those that report `STILL_ACTIVE`. -/
theorem processCommandsLoop_running (getCmdState : ℕ → UInt32) (i : ℕ) (cmds : List ExecObj)
    (s : CmdQueue platform) :
    (processCommandsLoop getCmdState i cmds s).1.runningCommands =
      atPositions (fun i => getCmdState i = STILL_ACTIVE) i cmds := by
  induction cmds generalizing i s with
  | nil => rfl
  | cons cmd cmds ih =>
    rw [atPositions_cons, processCommandsLoop]
    by_cases hstate : getCmdState i = STILL_ACTIVE
    · rw [if_neg (not_not_intro hstate), if_pos (decide_eq_true hstate), ← ih (i + 1) s]
    · rw [if_pos hstate, if_neg (Bool.eq_false_iff.mp (decide_eq_false hstate)), ih (i + 1)]

theorem atPositions_sublist {p q : ℕ → Bool} (h : ∀ i, p i = true → q i = true) (i : ℕ)
    (cmds : List ExecObj) : (atPositions p i cmds).Sublist (atPositions q i cmds) := by
  have hsub := List.monotone_filter_right (cmds.zipIdx i) fun (c : ExecObj × ℕ) => h c.2
  exact hsub.map Prod.fst

/-- Two tests of which one implies the other pick the same number of commands only where they
agree. -/
theorem length_atPositions_eq_iff {p q : ℕ → Bool} (h : ∀ i, p i = true → q i = true) (i : ℕ)
    (cmds : List ExecObj) :
    (atPositions q i cmds).length = (atPositions p i cmds).length ↔
      ∀ j < cmds.length, q (i + j) = true → p (i + j) = true := by
  induction cmds generalizing i with
  | nil => simp [atPositions]
  | cons cmd cmds ih =>
    have hle := (atPositions_sublist h (i + 1) cmds).length_le
    have hrest : (∀ j < cmds.length, q (i + (j + 1)) = true → p (i + (j + 1)) = true) ↔
        (atPositions q (i + 1) cmds).length = (atPositions p (i + 1) cmds).length := by
      rw [ih (i + 1)]
      apply forall₂_congr
      intro j _
      rw [← Nat.add_assoc, Nat.add_right_comm]
    rw [List.length_cons, Nat.forall_lt_succ_left, hrest, Nat.add_zero, atPositions_cons,
      atPositions_cons]
    by_cases hp : p i = true
    · rw [if_pos hp, if_pos (h i hp), List.length_cons, List.length_cons, Nat.add_right_cancel_iff]
      exact (and_iff_right fun _ => hp).symm
    · by_cases hq : q i = true
      · rw [if_neg hp, if_pos hq, List.length_cons]
        apply iff_of_false
        · omega
        · intro hall
          exact hp (hall.1 hq)
      · rw [if_neg hp, if_neg hq]
        exact (and_iff_right fun hq' => absurd hq' hq).symm

/-- The commands whose processes have ended are removed, and their slots released, exactly if none
of these processes ended with the code `STILL_ACTIVE`. -/
theorem endedReleased_iff {MAXCONCURRENTCMDS : CommandLimit} (s : CmdQueue platform)
    (hslots : Slots MAXCONCURRENTCMDS s) (states : ℕ → ProcessState) :
    EndedReleased states s (s.processCommands fun i => (states i).exitCode).1 ↔
      ∀ i < s.runningCommands.length, states i ≠ .ended STILL_ACTIVE := by
  have hrunning : (s.processCommands fun i => (states i).exitCode).1.runningCommands =
      atPositions (fun i => (states i).exitCode = STILL_ACTIVE) 0 s.runningCommands :=
    processCommandsLoop_running _ 0 s.runningCommands s
  have hcount := (hslots.processCommands fun i => (states i).exitCode).toNat_nCommands
  have himplies : ∀ i, decide (states i = .running) = true →
      decide ((states i).exitCode = STILL_ACTIVE) = true := by
    intro i hi
    rw [of_decide_eq_true hi]
    rfl
  have hlength := length_atPositions_eq_iff himplies 0 s.runningCommands
  simp only [Nat.zero_add, decide_eq_true_eq] at hlength
  constructor
  · rintro ⟨hremoved, _⟩ i hi hended
    rw [hrunning] at hremoved
    have hstate := hlength.mp (congrArg List.length hremoved) i hi (by rw [hended]; rfl)
    rw [hended] at hstate
    cases hstate
  · intro h
    have hremoved : (s.processCommands fun i => (states i).exitCode).1.runningCommands =
        stillRunning states s := by
      rw [hrunning]
      refine ((atPositions_sublist himplies 0 s.runningCommands).eq_of_length ?_).symm
      symm
      apply hlength.mpr
      intro i hi hcode
      cases hstate : states i with
      | running => rfl
      | ended exitCode =>
        rw [hstate] at hcode
        obtain rfl : exitCode = STILL_ACTIVE := hcode
        exact absurd hstate (h i hi)
    exact ⟨hremoved, by rw [hcount, hremoved]⟩

/-- Two commands, of which the second has ended with the code 1. -/
theorem endedReleased_failed :
    EndedReleased (fun i => if i = 1 then .ended 1 else .running)
      ({ runningCommands := [⟨wcs "a"⟩, ⟨wcs "b"⟩], nCommands := 2 } : CmdQueue .x64)
      (processCommands (fun i => (if i = 1 then ProcessState.ended 1 else .running).exitCode)
        { runningCommands := [⟨wcs "a"⟩, ⟨wcs "b"⟩], nCommands := 2 }).1 :=
  have hslots : Slots ⟨2, by decide⟩
      ({ runningCommands := [⟨wcs "a"⟩, ⟨wcs "b"⟩], nCommands := 2 } : CmdQueue .x64) :=
    ⟨rfl, le_rfl⟩
  (endedReleased_iff _ hslots _).mpr (by decide)

/-- A command that has ended with the code 259. -/
theorem collidingCode_not_released :
    ¬ EndedReleased (fun _ => .ended 259)
      ({ runningCommands := [⟨wcs "a"⟩], nCommands := 1 } : CmdQueue .x64)
      (processCommands (fun _ => (ProcessState.ended 259).exitCode)
        { runningCommands := [⟨wcs "a"⟩], nCommands := 1 }).1 := by
  rintro ⟨hremoved, _⟩
  exact absurd hremoved (by decide)

end CmdQueue

end TrapHandler
