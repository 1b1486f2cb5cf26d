import TrapHandler.CommandHandles

/-!
# The queue with its handles and the queue without them

Without its handles the queue is the one that takes the answers of the system as an input. What it is
answered is what its own objects return and report: the value of `RunCmd` for each outcome of a launch,
and the exit codes of the processes at the moment of the call.
-/

namespace TrapHandler

namespace CommandHandles

open CmdQueue

variable {kernel : Kernel} {kept rest : List ExecObj} {obj : ExecObj}

/-- What `RunCmd` returns. -/
def Launch.result : Launch → Int32
  | outputPipeFails => 1
  | inputPipeFails => 2
  | processFails => 3
  | succeeds => 0

def ExecObj.plain (obj : ExecObj) : TrapHandler.ExecObj := { wcsCmd := obj.wcsCmd.getD [] }

theorem runCmd_plain (hfresh : Fresh obj) (launch : Launch) (kernel : Kernel) :
    (obj.runCmd launch kernel).1 = launch.result ∧
      (obj.runCmd launch kernel).2.1.plain = obj.plain := by
  obtain ⟨cmd, rfl⟩ := hfresh
  cases launch with
  | outputPipeFails => exact ⟨rfl, rfl⟩
  | inputPipeFails => exact ⟨rfl, rfl⟩
  | processFails => exact ⟨rfl, rfl⟩
  | succeeds => exact ⟨rfl, rfl⟩

theorem Opened.getCmdState_destroy {o : ExecObj} (h : Opened kernel (kept ++ obj :: rest))
    (ho : o ∈ kept ++ rest) : o.getCmdState (obj.destroy kernel) = o.getCmdState kernel := by
  have hpid := h.pid_close (List.Perm.refl obj.handles) ho
  rw [ExecObj.destroy_eq]
  unfold ExecObj.getCmdState Kernel.exitCode
  rw [hpid]

namespace Queue

variable {platform : Platform} {MAXCONCURRENTCMDS : CommandLimit} {s : Queue platform}

def plain (s : Queue platform) : CmdQueue platform where
  cmdQueue := s.cmdQueue.map ExecObj.plain
  runningCommands := s.runningCommands.map ExecObj.plain
  nCommands := s.nCommands
  dwExecutedCommands := s.dwExecutedCommands

theorem plain_queueCommand (cmd : WStr) (s : Queue platform) :
    (s.queueCommand cmd).plain = s.plain.queueCommand cmd := by
  unfold queueCommand CmdQueue.queueCommand
  by_cases hcmd : cmd ≠ []
  · rw [if_pos hcmd, if_pos hcmd]
    unfold plain
    rw [List.map_append]
    rfl
  · rw [if_neg hcmd, if_neg hcmd]

theorem plain_processQueueLoop (launch : ℕ → Launch) (i : ℕ) {waiting : List ExecObj}
    (hwaiting : ∀ obj ∈ waiting, Fresh obj) :
    (processQueueLoop MAXCONCURRENTCMDS launch i waiting s).plain =
      (CmdQueue.processQueueLoop MAXCONCURRENTCMDS (fun i => (launch i).result) i
        (waiting.map ExecObj.plain) s.plain).1 := by
  induction waiting generalizing i s with
  | nil => rfl
  | cons newCmd waiting ih =>
    obtain ⟨hresult, hplain⟩ :=
      runCmd_plain (hwaiting newCmd List.mem_cons_self) (launch i) s.kernel
    have hrest := fun obj hobj => hwaiting obj (List.mem_cons_of_mem newCmd hobj)
    rw [List.map_cons]
    unfold processQueueLoop CmdQueue.processQueueLoop
    by_cases hslot : s.nCommands < BitVec.ofNat platform.sizeBits MAXCONCURRENTCMDS
    · have hslot' : s.plain.nCommands < BitVec.ofNat platform.sizeBits MAXCONCURRENTCMDS := hslot
      rw [if_pos hslot, if_pos hslot']
      dsimp only
      rw [hresult]
      by_cases hrun : (launch i).result ≠ 0
      · rw [if_pos hrun, if_pos hrun, ih (i + 1) hrest]
        rfl
      · rw [if_neg hrun, if_neg hrun, ih (i + 1) hrest]
        unfold plain
        rw [List.map_append, List.map_singleton, hplain]
    · have hslot' : ¬ s.plain.nCommands < BitVec.ofNat platform.sizeBits MAXCONCURRENTCMDS := hslot
      rw [if_neg hslot, if_neg hslot']
      rfl

theorem plain_processCommandsLoop {states : ℕ → UInt32} (i : ℕ) {cmds : List ExecObj}
    (h : Holding s.kernel (kept ++ cmds))
    (hstates : ∀ j obj, cmds[j]? = some obj → states (i + j) = obj.getCmdState s.kernel) :
    (processCommandsLoop cmds s).plain =
      (CmdQueue.processCommandsLoop states i (cmds.map ExecObj.plain) s.plain).1 := by
  induction cmds generalizing i kept s with
  | nil => rfl
  | cons cmd cmds ih =>
    have hcmd : states i = cmd.getCmdState s.kernel := hstates 0 cmd rfl
    have hrest : ∀ j obj, cmds[j]? = some obj → states (i + 1 + j) = obj.getCmdState s.kernel := by
      intro j obj hobj
      rw [Nat.add_right_comm]
      exact hstates (j + 1) obj hobj
    rw [List.map_cons]
    unfold processCommandsLoop CmdQueue.processCommandsLoop
    rw [hcmd]
    by_cases hstate : cmd.getCmdState s.kernel ≠ STILL_ACTIVE
    · rw [if_pos hstate, if_pos hstate]
      apply ih (i + 1) (h.destroy hstate)
      intro j obj hobj
      rw [hrest j obj hobj]
      have hmem := List.mem_append_right kept (List.mem_of_getElem? hobj)
      exact (h.toOpened.getCmdState_destroy hmem).symm
    · have hkept : Holding s.kernel ((kept ++ [cmd]) ++ cmds) := by
        rw [List.append_assoc]
        exact h
      rw [if_neg hstate, if_neg hstate]
      dsimp only
      rw [← ih (i + 1) hkept hrest]
      rfl

/-- What the queue without handles sees of an event. That a process ends is not seen. -/
def seen (s : Queue platform) : Event → List Session.Event
  | .queueCommand cmd => [.queueCommand cmd]
  | .processQueue launch => [.processQueue fun i => (launch i).result]
  | .processCommands =>
    [.processCommands fun i => (s.runningCommands[i]?.map (·.getCmdState s.kernel)).getD 0]
  | .processEnds _ _ => []

theorem step_plain {session : Session platform} (h : Sound MAXCONCURRENTCMDS s)
    (hplain : s.plain = session.toCmdQueue) (e : Event) :
    (step MAXCONCURRENTCMDS s e).plain =
      (Runs.run (Session.step MAXCONCURRENTCMDS) session (s.seen e)).toCmdQueue := by
  cases e with
  | queueCommand cmd =>
    change _ = session.toCmdQueue.queueCommand cmd
    rw [← hplain]
    exact plain_queueCommand cmd s
  | processQueue launch =>
    change _ = (session.toCmdQueue.processQueue MAXCONCURRENTCMDS _).1
    rw [← hplain]
    exact plain_processQueueLoop launch 0 h.fresh
  | processCommands =>
    change _ = (session.toCmdQueue.processCommands _).1
    rw [← hplain]
    apply @plain_processCommandsLoop [] _ s _ 0 s.runningCommands h.holding
    intro j obj hobj
    rw [Nat.zero_add, hobj]
    rfl
  | processEnds pid exitCode => exact hplain

theorem run_plain (MAXCONCURRENTCMDS : CommandLimit) (events : List Event) :
    ∃ answered, (Runs.run (step MAXCONCURRENTCMDS) ({} : Queue platform) events).plain =
      (Runs.run (Session.step MAXCONCURRENTCMDS) ({} : Session platform) answered).toCmdQueue := by
  induction events using List.reverseRecOn with
  | nil => exact ⟨[], rfl⟩
  | append_singleton events e ih =>
    obtain ⟨before, hplain⟩ := ih
    have hsound : Sound MAXCONCURRENTCMDS
        (Runs.run (step MAXCONCURRENTCMDS) ({} : Queue platform) events) := sound_run events
    refine ⟨before ++ seen (Runs.run (step MAXCONCURRENTCMDS) ({} : Queue platform) events) e,
      ?_⟩
    rw [Runs.run_concat, step_plain hsound hplain e]
    unfold Runs.run
    rw [List.foldl_append]

end Queue

end CommandHandles

end TrapHandler
