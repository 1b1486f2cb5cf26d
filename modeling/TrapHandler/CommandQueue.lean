import TrapHandler.SnmpTrap
import TrapHandler.Runs

/-!
# The command queue

`CmdQueue` holds the commands that wait, the commands that run, and two counters that are kept apart
from the lists. What the system answers is an input: the value of every `RunCmd`, and the exit code
every running command reports. A session adds what has become of the commands so far.
-/

namespace TrapHandler

open Runs

def Platform.sizeBits : Platform → ℕ
  | .win32 => 32
  | .x64 => 64

abbrev SizeT (platform : Platform) := BitVec platform.sizeBits

def STILL_ACTIVE : UInt32 := 259

/-- The values of the `int` constant `MAXCONCURRENTCMDS` that are not negative. -/
abbrev CommandLimit := { n : ℕ // n < 2 ^ 31 }

structure ExecObj where
  wcsCmd : WStr
  deriving DecidableEq, Repr

structure CmdQueue (platform : Platform) where
  cmdQueue : List ExecObj := []
  runningCommands : List ExecObj := []
  nCommands : SizeT platform := 0
  dwExecutedCommands : SizeT platform := 0
  deriving DecidableEq, Repr

namespace CmdQueue

variable {platform : Platform}

def setCmdStr (cmdStr : WStr) : ExecObj := { wcsCmd := cstr cmdStr }

def queueCommand (cmd : WStr) (s : CmdQueue platform) : CmdQueue platform :=
  if cmd ≠ [] then { s with cmdQueue := s.cmdQueue ++ [setCmdStr cmd] } else s

/-- The loop takes commands from the front of the queue; `runCmd i` is what the `i`-th `RunCmd` of
the call returns. The commands taken are returned with these values. -/
def processQueueLoop (MAXCONCURRENTCMDS : CommandLimit) (runCmd : ℕ → Int32) :
    ℕ → List ExecObj → CmdQueue platform → CmdQueue platform × List (ExecObj × Int32)
  | _, [], s => ({ s with cmdQueue := [] }, [])
  | i, newCmd :: cmdQueue, s =>
    if s.nCommands < BitVec.ofNat platform.sizeBits MAXCONCURRENTCMDS then
      if runCmd i ≠ 0 then
        let r := processQueueLoop MAXCONCURRENTCMDS runCmd (i + 1) cmdQueue s
        (r.1, (newCmd, runCmd i) :: r.2)
      else
        let r := processQueueLoop MAXCONCURRENTCMDS runCmd (i + 1) cmdQueue
          { s with
            runningCommands := s.runningCommands ++ [newCmd]
            nCommands := s.nCommands + 1 }
        (r.1, (newCmd, runCmd i) :: r.2)
    else
      ({ s with cmdQueue := newCmd :: cmdQueue }, [])

def processQueue (MAXCONCURRENTCMDS : CommandLimit) (runCmd : ℕ → Int32)
    (s : CmdQueue platform) : CmdQueue platform × List (ExecObj × Int32) :=
  processQueueLoop MAXCONCURRENTCMDS runCmd 0 s.cmdQueue s

/-- The loop over the running commands; `getCmdState i` is the exit code that the `i`-th of them
reports. The commands that are erased are returned. -/
def processCommandsLoop (getCmdState : ℕ → UInt32) :
    ℕ → List ExecObj → CmdQueue platform → CmdQueue platform × List ExecObj
  | _, [], s => ({ s with runningCommands := [] }, [])
  | i, cmd :: cmds, s =>
    if getCmdState i ≠ STILL_ACTIVE then
      let r := processCommandsLoop getCmdState (i + 1) cmds
        { s with
          nCommands := s.nCommands - 1
          dwExecutedCommands := s.dwExecutedCommands + 1 }
      (r.1, cmd :: r.2)
    else
      let r := processCommandsLoop getCmdState (i + 1) cmds s
      ({ r.1 with runningCommands := cmd :: r.1.runningCommands }, r.2)

def processCommands (getCmdState : ℕ → UInt32) (s : CmdQueue platform) :
    CmdQueue platform × List ExecObj :=
  processCommandsLoop getCmdState 0 s.runningCommands s

def launched (attempts : List (ExecObj × Int32)) : List ExecObj :=
  (attempts.filter fun a => a.2 == 0).map Prod.fst

def dropped (attempts : List (ExecObj × Int32)) : List ExecObj :=
  (attempts.filter fun a => a.2 != 0).map Prod.fst

theorem launched_append (as bs : List (ExecObj × Int32)) :
    launched (as ++ bs) = launched as ++ launched bs := by
  rw [launched, List.filter_append, List.map_append, launched, launched]

theorem launched_sublist (attempts : List (ExecObj × Int32)) :
    (launched attempts).Sublist (attempts.map Prod.fst) :=
  List.filter_sublist.map Prod.fst

theorem length_launched_add_dropped (attempts : List (ExecObj × Int32)) :
    (launched attempts).length + (dropped attempts).length = attempts.length := by
  rw [launched, dropped, List.length_map, List.length_map]
  exact (List.length_eq_length_filter_add fun a : ExecObj × Int32 => a.2 == 0).symm

theorem launched_cons (a : ExecObj × Int32) (as : List (ExecObj × Int32)) :
    launched (a :: as) = (if a.2 = 0 then [a.1] else []) ++ launched as := by
  by_cases h : a.2 = 0
  · simp [launched, h]
  · simp [launched, h]

/-- What one call of `processQueue` does, where `waiting` was the queue. -/
structure Launches (waiting : List ExecObj) (s s' : CmdQueue platform)
    (attempts : List (ExecObj × Int32)) : Prop where
  in_order : waiting = attempts.map Prod.fst ++ s'.cmdQueue
  running : s'.runningCommands = s.runningCommands ++ launched attempts
  executed : s'.dwExecutedCommands = s.dwExecutedCommands

theorem processQueueLoop_launches (MAXCONCURRENTCMDS : CommandLimit) (runCmd : ℕ → Int32) (i : ℕ)
    (waiting : List ExecObj) (s : CmdQueue platform) :
    Launches waiting s (processQueueLoop MAXCONCURRENTCMDS runCmd i waiting s).1
      (processQueueLoop MAXCONCURRENTCMDS runCmd i waiting s).2 := by
  induction waiting generalizing i s with
  | nil => exact ⟨rfl, (List.append_nil _).symm, rfl⟩
  | cons newCmd cmdQueue ih =>
    unfold processQueueLoop
    split_ifs with hslot hrun
    · obtain ⟨horder, hrunning, hexecuted⟩ := ih (i + 1) s
      refine ⟨?_, ?_, hexecuted⟩
      · rw [List.map_cons, List.cons_append, ← horder]
      · rw [hrunning, launched_cons, if_neg hrun, List.nil_append]
    · obtain ⟨horder, hrunning, hexecuted⟩ := ih (i + 1)
        { s with
          runningCommands := s.runningCommands ++ [newCmd]
          nCommands := s.nCommands + 1 }
      refine ⟨?_, ?_, hexecuted⟩
      · rw [List.map_cons, List.cons_append, ← horder]
      · rw [hrunning, launched_cons, if_pos (not_not.mp hrun), List.append_assoc]
    · exact ⟨rfl, (List.append_nil _).symm, rfl⟩

/-- The counter is the number of running commands, and there are not too many of them. -/
structure Slots (MAXCONCURRENTCMDS : CommandLimit) (s : CmdQueue platform) : Prop where
  counted : s.nCommands = BitVec.ofNat platform.sizeBits s.runningCommands.length
  bounded : s.runningCommands.length ≤ MAXCONCURRENTCMDS

theorem two_pow_31_le (platform : Platform) : 2 ^ 31 ≤ 2 ^ platform.sizeBits := by
  cases platform <;> decide

theorem toNat_ofNat_of_le {MAXCONCURRENTCMDS : CommandLimit} {n : ℕ}
    (h : n ≤ MAXCONCURRENTCMDS) : (BitVec.ofNat platform.sizeBits n).toNat = n := by
  have hlimit := MAXCONCURRENTCMDS.property
  have hsize := two_pow_31_le platform
  rw [BitVec.toNat_ofNat, Nat.mod_eq_of_lt (by omega)]

theorem Slots.toNat_nCommands {MAXCONCURRENTCMDS : CommandLimit} {s : CmdQueue platform}
    (h : Slots MAXCONCURRENTCMDS s) : s.nCommands.toNat = s.runningCommands.length := by
  rw [h.counted, toNat_ofNat_of_le h.bounded]

theorem processQueueLoop_slots {MAXCONCURRENTCMDS : CommandLimit} (runCmd : ℕ → Int32) (i : ℕ)
    (waiting : List ExecObj) {s : CmdQueue platform} (h : Slots MAXCONCURRENTCMDS s) :
    Slots MAXCONCURRENTCMDS (processQueueLoop MAXCONCURRENTCMDS runCmd i waiting s).1 := by
  induction waiting generalizing i s with
  | nil => exact ⟨h.counted, h.bounded⟩
  | cons newCmd cmdQueue ih =>
    unfold processQueueLoop
    split_ifs with hslot hrun
    · exact ih (i + 1) h
    · apply ih (i + 1)
      rw [BitVec.lt_def, h.toNat_nCommands, toNat_ofNat_of_le le_rfl] at hslot
      constructor
      · rw [List.length_append, List.length_singleton, BitVec.ofNat_add, h.counted]
        rfl
      · rw [List.length_append, List.length_singleton]
        exact hslot
    · exact ⟨h.counted, h.bounded⟩

/-- What one call of `processCommands` does, where `running` was the list. -/
structure Releases (running : List ExecObj) (s s' : CmdQueue platform)
    (completed : List ExecObj) : Prop where
  waiting : s'.cmdQueue = s.cmdQueue
  running_perm : running.Perm (s'.runningCommands ++ completed)
  released : s.nCommands = s'.nCommands + BitVec.ofNat platform.sizeBits completed.length
  executed : s'.dwExecutedCommands =
    s.dwExecutedCommands + BitVec.ofNat platform.sizeBits completed.length

theorem processCommandsLoop_releases (getCmdState : ℕ → UInt32) (i : ℕ) (running : List ExecObj)
    (s : CmdQueue platform) :
    Releases running s (processCommandsLoop getCmdState i running s).1
      (processCommandsLoop getCmdState i running s).2 := by
  induction running generalizing i s with
  | nil =>
    refine ⟨rfl, List.Perm.refl _, ?_, ?_⟩
    · exact (BitVec.add_zero _).symm
    · exact (BitVec.add_zero _).symm
  | cons cmd cmds ih =>
    unfold processCommandsLoop
    split_ifs with hstate
    · obtain ⟨hwaiting, hperm, hreleased, hexecuted⟩ := ih (i + 1)
        { s with
          nCommands := s.nCommands - 1
          dwExecutedCommands := s.dwExecutedCommands + 1 }
      refine ⟨hwaiting, ?_, ?_, ?_⟩
      · exact (hperm.cons cmd).trans List.perm_middle.symm
      · rw [List.length_cons, BitVec.ofNat_add, ← BitVec.add_assoc, ← hreleased]
        exact (BitVec.sub_add_cancel _ _).symm
      · rw [hexecuted, List.length_cons, BitVec.ofNat_add, BitVec.add_assoc]
        exact congrArg (s.dwExecutedCommands + ·) (BitVec.add_comm _ _)
    · obtain ⟨hwaiting, hperm, hreleased, hexecuted⟩ := ih (i + 1) s
      exact ⟨hwaiting, hperm.cons cmd, hreleased, hexecuted⟩

theorem Slots.processCommands {MAXCONCURRENTCMDS : CommandLimit} {s : CmdQueue platform}
    (h : Slots MAXCONCURRENTCMDS s) (getCmdState : ℕ → UInt32) :
    Slots MAXCONCURRENTCMDS (s.processCommands getCmdState).1 := by
  obtain ⟨_, hperm, hreleased, _⟩ :=
    processCommandsLoop_releases getCmdState 0 s.runningCommands s
  have hlength := hperm.length_eq
  have hbounded := h.bounded
  rw [List.length_append] at hlength
  constructor
  · rw [h.counted, hlength, BitVec.ofNat_add] at hreleased
    exact (BitVec.add_left_inj _).mp hreleased.symm
  · rw [CmdQueue.processCommands]
    omega

end CmdQueue

open CmdQueue

/-- A queue, the launches it has attempted and the commands it has seen completed. -/
structure Session (platform : Platform) extends CmdQueue platform where
  attempts : List (ExecObj × Int32) := []
  completed : List ExecObj := []

namespace Session

variable {platform : Platform}

inductive Event where
  | queueCommand (cmd : WStr)
  | processQueue (runCmd : ℕ → Int32)
  | processCommands (getCmdState : ℕ → UInt32)

def step (MAXCONCURRENTCMDS : CommandLimit) (s : Session platform) : Event → Session platform
  | .queueCommand cmd => { s with toCmdQueue := s.toCmdQueue.queueCommand cmd }
  | .processQueue runCmd =>
    let r := s.toCmdQueue.processQueue MAXCONCURRENTCMDS runCmd
    { s with toCmdQueue := r.1, attempts := s.attempts ++ r.2 }
  | .processCommands getCmdState =>
    let r := s.toCmdQueue.processCommands getCmdState
    { s with toCmdQueue := r.1, completed := s.completed ++ r.2 }

/-- The commands that `queueCommand` has been given, without the empty ones. -/
def queued (events : List Event) : List ExecObj :=
  events.filterMap fun
    | .queueCommand cmd => if cmd ≠ [] then some (setCmdStr cmd) else none
    | _ => none

theorem queued_concat (events : List Event) (e : Event) :
    queued (events ++ [e]) = queued events ++ queued [e] :=
  List.filterMap_append

/-- Every command queued is waiting or has been taken, and every command launched is running or
completed; the counters say how many. -/
structure Accounted (MAXCONCURRENTCMDS : CommandLimit) (queued : List ExecObj)
    (s : Session platform) : Prop where
  slots : Slots MAXCONCURRENTCMDS s.toCmdQueue
  in_order : queued = s.attempts.map Prod.fst ++ s.cmdQueue
  launched_perm : (launched s.attempts).Perm (s.runningCommands ++ s.completed)
  executed : s.dwExecutedCommands = BitVec.ofNat platform.sizeBits s.completed.length

variable {MAXCONCURRENTCMDS : CommandLimit} {sent : List ExecObj} {s : Session platform}

theorem Accounted.queueCommand (h : Accounted MAXCONCURRENTCMDS sent s) (cmd : WStr) :
    Accounted MAXCONCURRENTCMDS (sent ++ queued [.queueCommand cmd])
      (s.step MAXCONCURRENTCMDS (.queueCommand cmd)) := by
  by_cases hcmd : cmd = []
  · subst hcmd
    have hqueued : queued [.queueCommand []] = [] := rfl
    rw [hqueued, List.append_nil]
    exact ⟨⟨h.slots.counted, h.slots.bounded⟩, h.in_order, h.launched_perm, h.executed⟩
  · have hqueued : queued [.queueCommand cmd] = [setCmdStr cmd] := by
      simp [queued, hcmd]
    have hstep : s.toCmdQueue.queueCommand cmd =
        { s.toCmdQueue with cmdQueue := s.cmdQueue ++ [setCmdStr cmd] } := if_pos hcmd
    simp only [step, hqueued, hstep]
    refine ⟨⟨h.slots.counted, h.slots.bounded⟩, ?_, h.launched_perm, h.executed⟩
    rw [h.in_order, List.append_assoc]

theorem Accounted.processQueue (h : Accounted MAXCONCURRENTCMDS sent s) (runCmd : ℕ → Int32) :
    Accounted MAXCONCURRENTCMDS sent (s.step MAXCONCURRENTCMDS (.processQueue runCmd)) := by
  obtain ⟨horder, hrunning, hexecuted⟩ :=
    processQueueLoop_launches MAXCONCURRENTCMDS runCmd 0 s.cmdQueue s.toCmdQueue
  refine ⟨processQueueLoop_slots runCmd 0 s.cmdQueue h.slots, ?_, ?_, hexecuted.trans h.executed⟩
  · simp only [step, CmdQueue.processQueue]
    rw [h.in_order, List.map_append, List.append_assoc, ← horder]
  · simp only [step, CmdQueue.processQueue]
    rw [launched_append, hrunning, List.append_assoc]
    apply (h.launched_perm.append_right _).trans
    rw [List.append_assoc]
    exact List.perm_append_comm.append_left _

theorem Accounted.processCommands (h : Accounted MAXCONCURRENTCMDS sent s)
    (getCmdState : ℕ → UInt32) :
    Accounted MAXCONCURRENTCMDS sent (s.step MAXCONCURRENTCMDS (.processCommands getCmdState)) := by
  obtain ⟨hwaiting, hperm, _, hexecuted⟩ :=
    processCommandsLoop_releases getCmdState 0 s.runningCommands s.toCmdQueue
  refine ⟨h.slots.processCommands getCmdState, ?_, ?_, ?_⟩
  · simp only [step, CmdQueue.processCommands]
    rw [hwaiting]
    exact h.in_order
  · simp only [step, CmdQueue.processCommands]
    apply h.launched_perm.trans
    apply (hperm.append_right _).trans
    rw [List.append_assoc]
    exact List.perm_append_comm.append_left _
  · simp only [step, CmdQueue.processCommands]
    rw [hexecuted, h.executed, List.length_append, BitVec.ofNat_add]

theorem accounted_run (platform : Platform) (MAXCONCURRENTCMDS : CommandLimit)
    (events : List Event) :
    Accounted MAXCONCURRENTCMDS (queued events)
      (run (step MAXCONCURRENTCMDS) ({} : Session platform) events) := by
  induction events using List.reverseRecOn with
  | nil => exact ⟨⟨rfl, Nat.zero_le _⟩, rfl, List.Perm.refl [], rfl⟩
  | append_singleton events e ih =>
    rw [run_concat, queued_concat]
    cases e with
    | queueCommand cmd => exact ih.queueCommand cmd
    | processQueue runCmd =>
      have hqueued : queued [.processQueue runCmd] = [] := rfl
      rw [hqueued, List.append_nil]
      exact ih.processQueue runCmd
    | processCommands getCmdState =>
      have hqueued : queued [.processCommands getCmdState] = [] := rfl
      rw [hqueued, List.append_nil]
      exact ih.processCommands getCmdState

/-- The counter of the running commands is exact and bounded, commands are launched in the order
they were queued and at most once each, and no command is lost. -/
theorem commands_conserved (platform : Platform) (MAXCONCURRENTCMDS : CommandLimit)
    (events : List Event) :
    let s := run (step MAXCONCURRENTCMDS) ({} : Session platform) events
    s.nCommands.toNat = s.runningCommands.length ∧ s.nCommands.toNat ≤ MAXCONCURRENTCMDS ∧
      (launched s.attempts).Sublist (queued events) ∧
      (queued events).length = s.cmdQueue.length + s.runningCommands.length +
        s.completed.length + (dropped s.attempts).length ∧
      s.dwExecutedCommands = BitVec.ofNat platform.sizeBits s.completed.length ∧
      BitVec.ofNat platform.sizeBits (queued events).length =
        BitVec.ofNat platform.sizeBits s.cmdQueue.length +
          BitVec.ofNat platform.sizeBits s.runningCommands.length + s.dwExecutedCommands +
          BitVec.ofNat platform.sizeBits (dropped s.attempts).length := by
  intro s
  have h : Accounted MAXCONCURRENTCMDS (queued events) s :=
    accounted_run platform MAXCONCURRENTCMDS events
  have hcount := h.slots.toNat_nCommands
  have hsum : (queued events).length = s.cmdQueue.length + s.runningCommands.length +
      s.completed.length + (dropped s.attempts).length := by
    have hperm := h.launched_perm.length_eq
    have hattempts := length_launched_add_dropped s.attempts
    rw [h.in_order, List.length_append, List.length_map]
    rw [List.length_append] at hperm
    omega
  refine ⟨hcount, ?_, ?_, hsum, h.executed, ?_⟩
  · rw [hcount]
    exact h.slots.bounded
  · rw [h.in_order]
    exact (launched_sublist s.attempts).trans (List.sublist_append_left _ _)
  · rw [hsum, BitVec.ofNat_add, BitVec.ofNat_add, BitVec.ofNat_add, h.executed]

end Session

end TrapHandler
