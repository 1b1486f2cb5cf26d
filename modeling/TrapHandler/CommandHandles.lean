import TrapHandler.ExitCodes
import TrapHandler.Ownership

/-!
# The handles of the commands

A command object opens two pipes for the streams of its process, and `CreateProcess` gives it two
more handles. `CmdQueue` destroys a command when its launch fails, when its process has ended, and
when the queue is destroyed. Processes end on their own at any time. `TerminateProcess` asks a process
to end, and the wait behind it says whether it has.
-/

namespace TrapHandler

namespace CommandHandles

open Ownership CmdQueue

inductive KernelObject where
  | pipe
  | process (pid : ℕ)
  | thread
  deriving DecidableEq, Repr

/-- The handle table of the program, and the processes it has created. -/
structure Kernel where
  handles : Heap KernelObject := {}
  processes : List ProcessState := []

/-- What `WaitForSingleObject` reports of a process. -/
inductive Wait where
  | signalled (exitCode : UInt32)
  | timedOut
  | failed
  deriving DecidableEq, Repr

/-- No handle is `INVALID_HANDLE_VALUE` for a pipe and 0 for a process or a thread. -/
abbrev Handle := Option ℕ

namespace Kernel

def createHandle (kernel : Kernel) (object : KernelObject) : ℕ × Kernel :=
  (kernel.handles.size,
    { kernel with handles := kernel.handles.new.2.write kernel.handles.size object })

def closeHandle (kernel : Kernel) (h : Handle) : Kernel :=
  { kernel with handles := kernel.handles.deleteAll h.toList }

def pid (kernel : Kernel) (h : Handle) : Option ℕ :=
  match h.bind kernel.handles.get with
  | some (.process pid) => some pid
  | _ => none

/-- What `GetExitCodeProcess` stores in a variable that is 0, and leaves there if it fails. -/
def exitCode (kernel : Kernel) (h : Handle) : UInt32 :=
  match (kernel.pid h).bind fun pid => kernel.processes[pid]? with
  | some state => state.exitCode
  | none => 0

def endProcess (kernel : Kernel) (pid : ℕ) (exitCode : UInt32) : Kernel :=
  if kernel.processes[pid]? = some .running then
    { kernel with processes := kernel.processes.set pid (.ended exitCode) }
  else kernel

/-- A wait that is signalled has seen the process end. -/
def waitForSingleObject (kernel : Kernel) (h : Handle) : Wait → Kernel
  | .signalled exitCode =>
    match kernel.pid h with
    | some pid => kernel.endProcess pid exitCode
    | none => kernel
  | .timedOut => kernel
  | .failed => kernel

end Kernel

structure ExecObj where
  hStdInRd : Handle := none
  hStdInWr : Handle := none
  hStdOutRd : Handle := none
  hStdOutWr : Handle := none
  hProcess : Handle := none
  hThread : Handle := none
  wcsCmd : Option WStr := none
  deriving DecidableEq, Repr

/-- What the system answers to a launch. -/
inductive Launch where
  | outputPipeFails
  | inputPipeFails
  | processFails
  | succeeds
  deriving DecidableEq, Repr

namespace ExecObj

def setCmdStr (obj : ExecObj) (cmdStr : WStr) : ExecObj := { obj with wcsCmd := some (cstr cmdStr) }

/-- The overload of `RunCmd` without an argument. -/
def runCmd (obj : ExecObj) (launch : Launch) (kernel : Kernel) : Int32 × ExecObj × Kernel :=
  if obj.wcsCmd = none then (3, obj, kernel)
  else if launch = .outputPipeFails then (1, obj, kernel)
  else
    let (hStdOutRd, kernel) := kernel.createHandle .pipe
    let (hStdOutWr, kernel) := kernel.createHandle .pipe
    let obj := { obj with hStdOutRd := some hStdOutRd, hStdOutWr := some hStdOutWr }
    if launch = .inputPipeFails then (2, obj, kernel)
    else
      let (hStdInRd, kernel) := kernel.createHandle .pipe
      let (hStdInWr, kernel) := kernel.createHandle .pipe
      let obj := { obj with hStdInRd := some hStdInRd, hStdInWr := some hStdInWr }
      if launch = .processFails then (3, { obj with hProcess := none, hThread := none }, kernel)
      else
        let pid := kernel.processes.length
        let kernel := { kernel with processes := kernel.processes ++ [ProcessState.running] }
        let (hProcess, kernel) := kernel.createHandle (.process pid)
        let (hThread, kernel) := kernel.createHandle .thread
        (0, { obj with hProcess := some hProcess, hThread := some hThread }, kernel)

def getCmdState (obj : ExecObj) (kernel : Kernel) : UInt32 := kernel.exitCode obj.hProcess

/-- The kernel behind the waits of `GetCmdReturn`. A process that outlasts the timeout is asked to end,
and is given half a second for it. -/
def waited (obj : ExecObj) (first second : Wait) (kernel : Kernel) : Kernel :=
  let kernel := kernel.waitForSingleObject obj.hProcess first
  if first = .timedOut then kernel.waitForSingleObject obj.hProcess second else kernel

def getCmdReturn (obj : ExecObj) (first second : Wait) (kernel : Kernel) : ExecObj × Kernel :=
  -- what the second wait reports is not looked at
  let kernel := obj.waited first second kernel
  let kernel := kernel.closeHandle obj.hStdOutWr
  let kernel := kernel.closeHandle obj.hStdInRd
  ({ obj with hStdOutWr := none, hStdInRd := none }, kernel)

/-- The destructor. Both branches close the handle of the process. -/
def destroy (obj : ExecObj) (kernel : Kernel) : Kernel :=
  let kernel :=
    if obj.hProcess ≠ none ∧ obj.getCmdState kernel = 0 then
      kernel.waitForSingleObject obj.hProcess (.signalled 0)
    else kernel
  let kernel := kernel.closeHandle obj.hProcess
  let kernel := kernel.closeHandle obj.hThread
  let kernel := kernel.closeHandle obj.hStdInRd
  let kernel := kernel.closeHandle obj.hStdInWr
  let kernel := kernel.closeHandle obj.hStdOutRd
  kernel.closeHandle obj.hStdOutWr

end ExecObj

structure Queue (platform : Platform) where
  cmdQueue : List ExecObj := []
  runningCommands : List ExecObj := []
  nCommands : SizeT platform := 0
  dwExecutedCommands : SizeT platform := 0
  kernel : Kernel := {}

namespace Queue

variable {platform : Platform}

def queueCommand (cmd : WStr) (s : Queue platform) : Queue platform :=
  if cmd ≠ [] then { s with cmdQueue := s.cmdQueue ++ [({} : ExecObj).setCmdStr cmd] } else s

/-- `launch i` is what the system answers to the `i`-th launch of the call. -/
def processQueueLoop (MAXCONCURRENTCMDS : CommandLimit) (launch : ℕ → Launch) :
    ℕ → List ExecObj → Queue platform → Queue platform
  | _, [], s => { s with cmdQueue := [] }
  | i, newCmd :: cmdQueue, s =>
    if s.nCommands < BitVec.ofNat platform.sizeBits MAXCONCURRENTCMDS then
      let (result, newCmd, kernel) := newCmd.runCmd (launch i) s.kernel
      if result ≠ 0 then
        processQueueLoop MAXCONCURRENTCMDS launch (i + 1) cmdQueue
          { s with kernel := newCmd.destroy kernel }
      else
        processQueueLoop MAXCONCURRENTCMDS launch (i + 1) cmdQueue
          { s with
            kernel := kernel
            runningCommands := s.runningCommands ++ [newCmd]
            nCommands := s.nCommands + 1 }
    else { s with cmdQueue := newCmd :: cmdQueue }

def processQueue (MAXCONCURRENTCMDS : CommandLimit) (launch : ℕ → Launch) (s : Queue platform) :
    Queue platform :=
  processQueueLoop MAXCONCURRENTCMDS launch 0 s.cmdQueue s

def processCommandsLoop : List ExecObj → Queue platform → Queue platform
  | [], s => { s with runningCommands := [] }
  | cmd :: cmds, s =>
    if cmd.getCmdState s.kernel ≠ STILL_ACTIVE then
      processCommandsLoop cmds
        { s with
          kernel := cmd.destroy s.kernel
          nCommands := s.nCommands - 1
          dwExecutedCommands := s.dwExecutedCommands + 1 }
    else
      let r := processCommandsLoop cmds s
      { r with runningCommands := cmd :: r.runningCommands }

def processCommands (s : Queue platform) : Queue platform :=
  processCommandsLoop s.runningCommands s

/-- The second loop of the destructor; `waits i` is what the two waits for the process of the `i`-th
command report. -/
def terminateLoop (waits : ℕ → Wait × Wait) :
    ℕ → List ExecObj → Queue platform → Queue platform
  | _, [], s => { s with runningCommands := [] }
  | i, cmd :: cmds, s =>
    let (cmd, kernel) := cmd.getCmdReturn (waits i).1 (waits i).2 s.kernel
    terminateLoop waits (i + 1) cmds
      { s with
        kernel := cmd.destroy kernel
        dwExecutedCommands := s.dwExecutedCommands + 1 }

def destroy (waits : ℕ → Wait × Wait) (s : Queue platform) : Queue platform :=
  let kernel := s.cmdQueue.foldl (fun kernel cmd => cmd.destroy kernel) s.kernel
  let s := { s with cmdQueue := [], kernel := kernel }
  if s.nCommands > 0 then terminateLoop waits 0 s.runningCommands s else s

inductive Event where
  | queueCommand (cmd : WStr)
  | processQueue (launch : ℕ → Launch)
  | processCommands
  | processEnds (pid : ℕ) (exitCode : UInt32)

def step (MAXCONCURRENTCMDS : CommandLimit) (s : Queue platform) : Event → Queue platform
  | .queueCommand cmd => s.queueCommand cmd
  | .processQueue launch => s.processQueue MAXCONCURRENTCMDS launch
  | .processCommands => s.processCommands
  | .processEnds pid exitCode => { s with kernel := s.kernel.endProcess pid exitCode }

end Queue

variable {kernel : Kernel} {running kept rest : List ExecObj} {obj : ExecObj}

namespace Kernel

theorem exitCode_eq {h : Handle} {pid : ℕ} (hpid : kernel.pid h = some pid)
    (hrunning : kernel.processes[pid]? = some .running) : kernel.exitCode h = STILL_ACTIVE := by
  unfold exitCode
  rw [hpid, Option.bind_some, hrunning]
  rfl

theorem waitForSingleObject_eq {h : Handle} (hzero : kernel.exitCode h = 0) (wait : Wait) :
    kernel.waitForSingleObject h wait = kernel := by
  unfold waitForSingleObject
  cases wait with
  | timedOut => rfl
  | failed => rfl
  | signalled exitCode =>
    cases hpid : kernel.pid h with
    | none => rfl
    | some pid =>
      apply if_neg
      intro hrunning
      rw [exitCode_eq hpid hrunning] at hzero
      revert hzero
      decide

theorem handles_endProcess (pid : ℕ) (exitCode : UInt32) :
    (kernel.endProcess pid exitCode).handles = kernel.handles := by
  unfold endProcess
  split
  · rfl
  · rfl

theorem handles_waitForSingleObject (h : Handle) (wait : Wait) :
    (kernel.waitForSingleObject h wait).handles = kernel.handles := by
  unfold waitForSingleObject
  cases wait with
  | timedOut => rfl
  | failed => rfl
  | signalled exitCode =>
    cases kernel.pid h with
    | none => rfl
    | some pid => exact handles_endProcess pid exitCode

theorem pid_congr {kernel' : Kernel} (hhandles : kernel'.handles = kernel.handles) (h : Handle) :
    kernel'.pid h = kernel.pid h := by
  unfold pid
  rw [hhandles]

theorem endProcess_running {pid pid' : ℕ} {exitCode : UInt32}
    (hrunning : (kernel.endProcess pid exitCode).processes[pid']? = some .running) :
    kernel.processes[pid']? = some .running ∧ pid' ≠ pid := by
  unfold endProcess at hrunning
  by_cases hpid : kernel.processes[pid]? = some .running
  · rw [if_pos hpid] at hrunning
    dsimp only at hrunning
    have hne : pid ≠ pid' := by
      intro heq
      subst heq
      rw [List.getElem?_set_self (List.getElem?_eq_some_iff.mp hpid).1] at hrunning
      cases hrunning
    rw [List.getElem?_set_ne hne] at hrunning
    exact ⟨hrunning, hne.symm⟩
  · rw [if_neg hpid] at hrunning
    refine ⟨hrunning, ?_⟩
    intro heq
    rw [heq] at hrunning
    exact hpid hrunning

theorem waitForSingleObject_running {h : Handle} {wait : Wait} {pid : ℕ}
    (hrunning : (kernel.waitForSingleObject h wait).processes[pid]? = some .running) :
    kernel.processes[pid]? = some .running ∧
      (kernel.pid h = some pid → ∀ exitCode, wait ≠ .signalled exitCode) := by
  unfold waitForSingleObject at hrunning
  cases wait with
  | timedOut => exact ⟨hrunning, fun _ _ => Wait.noConfusion⟩
  | failed => exact ⟨hrunning, fun _ _ => Wait.noConfusion⟩
  | signalled exitCode =>
    cases hpid : kernel.pid h with
    | none =>
      rw [hpid] at hrunning
      exact ⟨hrunning, fun hnone => absurd hnone.symm (Option.some_ne_none pid)⟩
    | some pid' =>
      rw [hpid] at hrunning
      obtain ⟨hbefore, hne⟩ := endProcess_running hrunning
      exact ⟨hbefore, fun heq => absurd (Option.some.inj heq).symm hne⟩

theorem pid_some {p pid : ℕ} :
    kernel.pid (some p) = some pid ↔ kernel.handles.get p = some (.process pid) := by
  unfold Kernel.pid
  rw [Option.bind_some]
  cases hget : kernel.handles.get p with
  | none => simp
  | some object =>
    cases object with
    | pipe => simp
    | process pid => simp
    | thread => simp

theorem size_createHandle (object : KernelObject) :
    (kernel.createHandle object).2.handles.size = kernel.handles.size + 1 :=
  (Heap.size_write ..).trans (Heap.size_new _)

theorem get_createHandle (object : KernelObject) :
    (kernel.createHandle object).2.handles.get kernel.handles.size = some object := by
  apply Heap.get_write_self
  rw [Heap.size_new]
  exact Nat.lt_succ_self _

theorem get_createHandle_of_lt {p : ℕ} (object : KernelObject) (hp : p < kernel.handles.size) :
    (kernel.createHandle object).2.handles.get p = kernel.handles.get p :=
  (Heap.get_write_of_ne object (Nat.ne_of_gt hp)).trans (Heap.get_new hp)

theorem owned_createHandle {before : Heap KernelObject} {owned : List ℕ}
    (h : Owned before kernel.handles owned) (object : KernelObject) :
    Owned before (kernel.createHandle object).2.handles (owned ++ [kernel.handles.size]) :=
  h.new.write object (List.mem_append_right owned List.mem_cons_self)

end Kernel

namespace ExecObj

/-- The open handles, in the order in which the destructor closes them. -/
def handles (obj : ExecObj) : List ℕ :=
  obj.hProcess.toList ++ (obj.hThread.toList ++ (obj.hStdInRd.toList ++ (obj.hStdInWr.toList ++
    (obj.hStdOutRd.toList ++ obj.hStdOutWr.toList))))

theorem destroy_eq (obj : ExecObj) (kernel : Kernel) :
    obj.destroy kernel = { kernel with handles := kernel.handles.deleteAll obj.handles } := by
  have hkernel : (if obj.hProcess ≠ none ∧ obj.getCmdState kernel = 0 then
      kernel.waitForSingleObject obj.hProcess (.signalled 0) else kernel) = kernel := by
    by_cases hzero : obj.hProcess ≠ none ∧ obj.getCmdState kernel = 0
    · rw [if_pos hzero]
      exact Kernel.waitForSingleObject_eq hzero.2 (.signalled 0)
    · rw [if_neg hzero]
  unfold destroy
  rw [hkernel]
  simp only [Kernel.closeHandle, handles, Heap.deleteAll_append]

end ExecObj

/-- The handles that are open belong to the running commands, six to each of them. -/
structure Opened (kernel : Kernel) (running : List ExecObj) : Prop where
  owned : Owned {} kernel.handles (running.flatMap ExecObj.handles)
  full : ∀ obj ∈ running, obj.handles.length = 6
  process : ∀ obj ∈ running, ∃ pid, kernel.pid obj.hProcess = some pid

/-- The processes that run belong to the running commands as well. -/
structure Holding (kernel : Kernel) (running : List ExecObj) : Prop extends
    Opened kernel running where
  orphans : ∀ pid, kernel.processes[pid]? = some .running →
    ∃ obj ∈ running, kernel.pid obj.hProcess = some pid

theorem pid_mem_handles {h : Handle} {pid : ℕ} (hpid : kernel.pid h = some pid) :
    ∃ p, h = some p := by
  cases h with
  | none => cases hpid
  | some p => exact ⟨p, rfl⟩

namespace Opened

theorem mem_of_mem {o : ExecObj} (ho : o ∈ kept ++ rest) : o ∈ kept ++ obj :: rest := by
  rw [List.mem_append] at ho ⊢
  rcases ho with hin | hin
  · exact .inl hin
  · exact .inr (List.mem_cons_of_mem obj hin)

theorem owned_closed {closed : List ℕ} (h : Opened kernel (kept ++ obj :: rest))
    (hclosed : closed.Perm obj.handles) :
    Owned {} kernel.handles (closed ++ (kept ++ rest).flatMap ExecObj.handles) :=
  h.owned.perm ((List.perm_middle.flatMap_right ExecObj.handles).trans
    (hclosed.symm.append_right _))

theorem pid_close {closed : List ℕ} {o : ExecObj} (h : Opened kernel (kept ++ obj :: rest))
    (hclosed : closed.Perm obj.handles) (ho : o ∈ kept ++ rest) :
    Kernel.pid { kernel with handles := kernel.handles.deleteAll closed } o.hProcess
      = kernel.pid o.hProcess := by
  obtain ⟨pid, hpid⟩ := h.process o (mem_of_mem ho)
  obtain ⟨p, hp⟩ := pid_mem_handles hpid
  have hin : p ∈ (kept ++ rest).flatMap ExecObj.handles := by
    rw [List.mem_flatMap]
    refine ⟨o, ho, List.mem_append_left _ ?_⟩
    rw [hp]
    exact List.mem_cons_self
  have hnotMem : p ∉ closed := by
    intro hobj
    exact (List.nodup_append.mp (h.owned_closed hclosed).nodup).2.2 p hobj p hin rfl
  rw [hpid]
  rw [hp, Kernel.pid_some] at hpid ⊢
  exact (Heap.get_deleteAll hnotMem).trans hpid

theorem close {closed : List ℕ} (h : Opened kernel (kept ++ obj :: rest))
    (hclosed : closed.Perm obj.handles) :
    Opened { kernel with handles := kernel.handles.deleteAll closed } (kept ++ rest) := by
  constructor
  · exact (h.owned_closed hclosed).deleteFront
  · intro o ho
    exact h.full o (mem_of_mem ho)
  · intro o ho
    obtain ⟨pid, hprocess⟩ := h.process o (mem_of_mem ho)
    exact ⟨pid, (h.pid_close hclosed ho).trans hprocess⟩

theorem congr {kernel' : Kernel} (h : Opened kernel running)
    (hhandles : kernel'.handles = kernel.handles) : Opened kernel' running := by
  refine ⟨hhandles ▸ h.owned, h.full, ?_⟩
  intro o ho
  obtain ⟨pid, hpid⟩ := h.process o ho
  exact ⟨pid, (Kernel.pid_congr hhandles o.hProcess).trans hpid⟩

end Opened

namespace Holding

theorem close {closed : List ℕ} (h : Holding kernel (kept ++ obj :: rest))
    (hended : ∀ pid, kernel.pid obj.hProcess = some pid → kernel.processes[pid]? ≠ some .running)
    (hclosed : closed.Perm obj.handles) :
    Holding { kernel with handles := kernel.handles.deleteAll closed } (kept ++ rest) := by
  refine ⟨h.toOpened.close hclosed, ?_⟩
  intro pid hrunning
  obtain ⟨o, ho, hprocess⟩ := h.orphans pid hrunning
  by_cases hin : o ∈ kept ++ rest
  · exact ⟨o, hin, (h.pid_close hclosed hin).trans hprocess⟩
  · rw [List.mem_append, List.mem_cons] at ho
    rw [List.mem_append] at hin
    obtain rfl : o = obj := by tauto
    exact absurd hrunning (hended pid hprocess)

theorem destroy (h : Holding kernel (kept ++ obj :: rest))
    (hstate : obj.getCmdState kernel ≠ STILL_ACTIVE) :
    Holding (obj.destroy kernel) (kept ++ rest) := by
  rw [ExecObj.destroy_eq]
  apply h.close
  · intro pid hpid hrunning
    exact hstate (Kernel.exitCode_eq hpid hrunning)
  · exact List.Perm.refl _

theorem mem_lt (h : Holding kernel running) (hobj : obj ∈ running) {p : ℕ}
    (hp : obj.hProcess = some p) : p < kernel.handles.size := by
  apply (h.owned.bounds _).2
  rw [List.mem_flatMap]
  refine ⟨obj, hobj, List.mem_append_left _ ?_⟩
  rw [hp]
  exact List.mem_cons_self

theorem length_handles (h : Holding kernel running) :
    (running.flatMap ExecObj.handles).length = 6 * running.length := by
  have hfull := h.full
  clear h
  induction running with
  | nil => rfl
  | cons obj running ih =>
    have hobj := hfull obj List.mem_cons_self
    have hrest := ih fun o ho => hfull o (List.mem_cons_of_mem obj ho)
    rw [List.flatMap_cons, List.length_append, List.length_cons]
    omega

theorem pid_congr {kernel' : Kernel} (h : Holding kernel running)
    (hget : ∀ p < kernel.handles.size, kernel'.handles.get p = kernel.handles.get p)
    (hobj : obj ∈ running) {pid : ℕ} (hpid : kernel.pid obj.hProcess = some pid) :
    kernel'.pid obj.hProcess = some pid := by
  obtain ⟨p, hp⟩ := pid_mem_handles hpid
  have hlt := h.mem_lt hobj hp
  rw [hp, Kernel.pid_some] at hpid ⊢
  rw [hget p hlt]
  exact hpid

theorem frame {kernel' : Kernel} (h : Holding kernel running)
    (howned : Owned {} kernel'.handles (running.flatMap ExecObj.handles))
    (hget : ∀ p < kernel.handles.size, kernel'.handles.get p = kernel.handles.get p)
    (hprocesses : kernel'.processes = kernel.processes) : Holding kernel' running := by
  constructor
  · refine ⟨howned, h.full, ?_⟩
    intro o ho
    obtain ⟨pid, hpid⟩ := h.process o ho
    exact ⟨pid, h.pid_congr hget ho hpid⟩
  · intro pid hrunning
    rw [hprocesses] at hrunning
    obtain ⟨o, ho, hpid⟩ := h.orphans pid hrunning
    exact ⟨o, ho, h.pid_congr hget ho hpid⟩

theorem abandon {kernel' : Kernel} {new : List ℕ} (h : Holding kernel running)
    (howned : Owned {} kernel'.handles (running.flatMap ExecObj.handles ++ new))
    (hperm : new.Perm obj.handles) (hnew : ∀ p ∈ new, kernel.handles.size ≤ p)
    (hget : ∀ p < kernel.handles.size, kernel'.handles.get p = kernel.handles.get p)
    (hprocesses : kernel'.processes = kernel.processes) : Holding (obj.destroy kernel') running := by
  have hfront : (running.flatMap ExecObj.handles ++ new).Perm
      (obj.handles ++ running.flatMap ExecObj.handles) :=
    List.perm_append_comm.trans (hperm.append_right _)
  rw [ExecObj.destroy_eq]
  apply h.frame
  · exact (howned.perm hfront).deleteFront
  · intro p hp
    refine (Heap.get_deleteAll ?_).trans (hget p hp)
    intro hin
    have hle := hnew p (hperm.mem_iff.mpr hin)
    omega
  · exact hprocesses

end Holding

def Fresh (obj : ExecObj) : Prop := ∃ cmd, obj = { wcsCmd := some cmd }

/-- The kernel after `CreatePipe`. -/
def pipe (kernel : Kernel) : Kernel := ((kernel.createHandle .pipe).2.createHandle .pipe).2

theorem size_pipe : (pipe kernel).handles.size = kernel.handles.size + 2 := by
  unfold pipe
  rw [Kernel.size_createHandle, Kernel.size_createHandle]

theorem get_pipe {p : ℕ} (hp : p < kernel.handles.size) :
    (pipe kernel).handles.get p = kernel.handles.get p := by
  unfold pipe
  rw [Kernel.get_createHandle_of_lt _ (by rw [Kernel.size_createHandle]; omega),
    Kernel.get_createHandle_of_lt _ hp]

theorem owned_pipe {owned : List ℕ} (h : Owned {} kernel.handles owned) :
    Owned {} (pipe kernel).handles (owned ++ [kernel.handles.size, kernel.handles.size + 1]) := by
  have hpipe := Kernel.owned_createHandle (Kernel.owned_createHandle h .pipe) .pipe
  rw [Kernel.size_createHandle, List.append_assoc] at hpipe
  exact hpipe

namespace Holding

theorem runCmd_fails {launch : Launch} (hfresh : Fresh obj) (hlaunch : launch ≠ .succeeds)
    (h : Holding kernel running) :
    (obj.runCmd launch kernel).1 ≠ 0 ∧
      Holding ((obj.runCmd launch kernel).2.1.destroy (obj.runCmd launch kernel).2.2) running := by
  obtain ⟨cmd, rfl⟩ := hfresh
  cases launch with
  | succeeds => exact absurd rfl hlaunch
  | outputPipeFails =>
    refine ⟨(by decide : (1 : Int32) ≠ 0), ?_⟩
    exact ⟨⟨h.owned, h.full, h.process⟩, h.orphans⟩
  | inputPipeFails =>
    refine ⟨(by decide : (2 : Int32) ≠ 0), ?_⟩
    have hhandles : (({ wcsCmd := some cmd } : ExecObj).runCmd .inputPipeFails kernel).2.1.handles
        = [kernel.handles.size, (kernel.createHandle .pipe).2.handles.size] := rfl
    rw [Kernel.size_createHandle] at hhandles
    apply @abandon _ _ _ (pipe kernel) _ h (owned_pipe h.owned)
    · rw [hhandles]
    · intro p hp
      simp only [List.mem_cons, List.not_mem_nil, or_false] at hp
      omega
    · exact fun p hp => get_pipe hp
    · rfl
  | processFails =>
    refine ⟨(by decide : (3 : Int32) ≠ 0), ?_⟩
    have hhandles : (({ wcsCmd := some cmd } : ExecObj).runCmd .processFails kernel).2.1.handles
        = [(pipe kernel).handles.size, ((pipe kernel).createHandle .pipe).2.handles.size,
          kernel.handles.size, (kernel.createHandle .pipe).2.handles.size] := rfl
    rw [Kernel.size_createHandle, Kernel.size_createHandle] at hhandles
    have howned := owned_pipe (owned_pipe h.owned)
    rw [List.append_assoc] at howned
    apply @abandon _ _ _ (pipe (pipe kernel)) _ h howned
    · rw [hhandles]
      exact List.perm_append_comm
    · intro p hp
      simp only [size_pipe, List.cons_append, List.nil_append, List.mem_cons, List.not_mem_nil,
        or_false] at hp
      omega
    · intro p hp
      rw [get_pipe (by rw [size_pipe]; omega), get_pipe hp]
    · rfl

/-- A command joins the running ones with its handles and a process that has just been started. -/
theorem add {kernel' : Kernel} (h : Holding kernel running)
    (howned : Owned {} kernel'.handles (running.flatMap ExecObj.handles ++ obj.handles))
    (hfull : obj.handles.length = 6)
    (hget : ∀ p < kernel.handles.size, kernel'.handles.get p = kernel.handles.get p)
    (hprocesses : kernel'.processes = kernel.processes ++ [.running])
    (hpid : kernel'.pid obj.hProcess = some kernel.processes.length) :
    Holding kernel' (running ++ [obj]) := by
  constructor
  · constructor
    · rw [List.flatMap_append, List.flatMap_singleton]
      exact howned
    · intro o ho
      rcases List.mem_append.mp ho with hin | hin
      · exact h.full o hin
      · rw [List.mem_singleton.mp hin]
        exact hfull
    · intro o ho
      rcases List.mem_append.mp ho with hin | hin
      · obtain ⟨pid, hpid'⟩ := h.process o hin
        exact ⟨pid, h.pid_congr hget hin hpid'⟩
      · rw [List.mem_singleton.mp hin]
        exact ⟨_, hpid⟩
  · intro pid hrunning
    rw [hprocesses] at hrunning
    by_cases hlt : pid < kernel.processes.length
    · rw [List.getElem?_append_left hlt] at hrunning
      obtain ⟨o, ho, hpid'⟩ := h.orphans pid hrunning
      exact ⟨o, List.mem_append_left _ ho, h.pid_congr hget ho hpid'⟩
    · have hlength := (List.getElem?_eq_some_iff.mp hrunning).1
      rw [List.length_append, List.length_singleton] at hlength
      have heq : pid = kernel.processes.length := by omega
      rw [heq]
      exact ⟨obj, List.mem_append_right _ List.mem_cons_self, hpid⟩

theorem runCmd_succeeds (hfresh : Fresh obj) (h : Holding kernel running) :
    (obj.runCmd .succeeds kernel).1 = 0 ∧
      Holding (obj.runCmd .succeeds kernel).2.2
        (running ++ [(obj.runCmd .succeeds kernel).2.1]) := by
  obtain ⟨cmd, rfl⟩ := hfresh
  refine ⟨rfl, ?_⟩
  obtain ⟨piped, hpiped⟩ : ∃ piped, piped = pipe (pipe kernel) := ⟨_, rfl⟩
  obtain ⟨created, hcreated⟩ : ∃ created : Kernel, created
      = { piped with processes := piped.processes ++ [ProcessState.running] } := ⟨_, rfl⟩
  have hkernel : (({ wcsCmd := some cmd } : ExecObj).runCmd .succeeds kernel).2.2
      = ((created.createHandle (.process kernel.processes.length)).2.createHandle .thread).2 := by
    rw [hcreated, hpiped]
    rfl
  have hobj : (({ wcsCmd := some cmd } : ExecObj).runCmd .succeeds kernel).2.1.handles
      = [created.handles.size, (created.createHandle (.process kernel.processes.length)).2.handles.size,
        (pipe kernel).handles.size, ((pipe kernel).createHandle .pipe).2.handles.size,
        kernel.handles.size, (kernel.createHandle .pipe).2.handles.size] := by
    rw [hcreated, hpiped]
    rfl
  have hprocess : (({ wcsCmd := some cmd } : ExecObj).runCmd .succeeds kernel).2.1.hProcess
      = some created.handles.size := by
    rw [hcreated, hpiped]
    rfl
  have hsize : created.handles.size = kernel.handles.size + 4 := by
    rw [hcreated, hpiped]
    exact size_pipe.trans (congrArg (· + 2) size_pipe)
  have hprocesses : created.processes = kernel.processes ++ [ProcessState.running] := by
    rw [hcreated, hpiped]
    rfl
  have hget : ∀ p < kernel.handles.size, created.handles.get p = kernel.handles.get p := by
    intro p hp
    rw [hcreated, hpiped]
    exact (get_pipe (by rw [size_pipe]; omega)).trans (get_pipe hp)
  have howned : Owned {} created.handles (running.flatMap ExecObj.handles ++
      [kernel.handles.size, kernel.handles.size + 1] ++
        [(pipe kernel).handles.size, (pipe kernel).handles.size + 1]) := by
    rw [hcreated, hpiped]
    exact owned_pipe (owned_pipe h.owned)
  rw [Kernel.size_createHandle, Kernel.size_createHandle, Kernel.size_createHandle] at hobj
  generalize (({ wcsCmd := some cmd } : ExecObj).runCmd .succeeds kernel).2.1 = newCmd at *
  rw [hkernel]
  have hold : ∀ p < kernel.handles.size,
      ((created.createHandle (.process kernel.processes.length)).2.createHandle .thread).2.handles.get p
        = kernel.handles.get p := by
    intro p hp
    rw [Kernel.get_createHandle_of_lt _ (by rw [Kernel.size_createHandle]; omega),
      Kernel.get_createHandle_of_lt _ (by omega), hget p hp]
  have hpid : ((created.createHandle (.process kernel.processes.length)).2.createHandle .thread).2.pid
      newCmd.hProcess = some kernel.processes.length := by
    rw [hprocess, Kernel.pid_some,
      Kernel.get_createHandle_of_lt _ (by rw [Kernel.size_createHandle]; omega),
      Kernel.get_createHandle]
  apply h.add
  · rw [hobj]
    have hnew := Kernel.owned_createHandle (Kernel.owned_createHandle howned
      (.process kernel.processes.length)) .thread
    rw [Kernel.size_createHandle] at hnew
    apply hnew.perm
    simp only [List.append_assoc]
    apply List.Perm.append_left
    exact List.perm_append_comm.trans (List.perm_append_comm.append_right _)
  · rw [hobj]
    rfl
  · exact hold
  · exact hprocesses
  · exact hpid

theorem endProcess {pid : ℕ} {exitCode : UInt32} (h : Holding kernel running) :
    Holding (kernel.endProcess pid exitCode) running := by
  have hhandles := @Kernel.handles_endProcess kernel pid exitCode
  refine ⟨h.toOpened.congr hhandles, ?_⟩
  intro pid' hrunning
  simp only [Kernel.pid_congr hhandles]
  exact h.orphans pid' (Kernel.endProcess_running hrunning).1

end Holding

/-- Neither wait of `GetCmdReturn` has seen the process end. -/
def Outlasts (waits : Wait × Wait) : Prop :=
  waits.1 = .failed ∨ waits.1 = .timedOut ∧ ∀ exitCode, waits.2 ≠ .signalled exitCode

section

variable {first second : Wait}

theorem handles_waited : (obj.waited first second kernel).handles = kernel.handles := by
  unfold ExecObj.waited
  dsimp only
  split
  · rw [Kernel.handles_waitForSingleObject, Kernel.handles_waitForSingleObject]
  · rw [Kernel.handles_waitForSingleObject]

theorem waited_running {pid : ℕ}
    (hrunning : (obj.waited first second kernel).processes[pid]? = some .running) :
    kernel.processes[pid]? = some .running ∧
      (kernel.pid obj.hProcess = some pid → Outlasts (first, second)) := by
  unfold ExecObj.waited at hrunning
  dsimp only at hrunning
  cases first with
  | signalled exitCode =>
    rw [if_neg Wait.noConfusion] at hrunning
    obtain ⟨hbefore, hwait⟩ := Kernel.waitForSingleObject_running hrunning
    exact ⟨hbefore, fun hpid => absurd rfl (hwait hpid exitCode)⟩
  | failed =>
    rw [if_neg Wait.noConfusion] at hrunning
    exact ⟨(Kernel.waitForSingleObject_running hrunning).1, fun _ => .inl rfl⟩
  | timedOut =>
    rw [if_pos rfl] at hrunning
    obtain ⟨hbefore, hwait⟩ := Kernel.waitForSingleObject_running hrunning
    exact ⟨hbefore, fun hpid => .inr ⟨rfl, hwait hpid⟩⟩

/-- `GetCmdReturn` and the destructor close the handles between them. -/
theorem getCmdReturn_destroy_eq :
    ∃ closed, closed.Perm obj.handles ∧
      (obj.getCmdReturn first second kernel).1.destroy (obj.getCmdReturn first second kernel).2
        = { obj.waited first second kernel with
          handles := (obj.waited first second kernel).handles.deleteAll closed } := by
  refine ⟨obj.hStdOutWr.toList ++ (obj.hStdInRd.toList ++
    ExecObj.handles { obj with hStdOutWr := none, hStdInRd := none }), ?_, ?_⟩
  · apply List.perm_append_comm.trans
    simp only [ExecObj.handles, Option.toList_none, List.nil_append, List.append_nil,
      List.append_assoc]
    refine (List.perm_append_comm_assoc obj.hStdInRd.toList obj.hProcess.toList _).trans ?_
    apply List.Perm.append_left
    exact List.perm_append_comm_assoc obj.hStdInRd.toList obj.hThread.toList _
  · rw [Heap.deleteAll_append, Heap.deleteAll_append, ExecObj.destroy_eq]
    rfl

end

namespace Queue

variable {platform : Platform} {MAXCONCURRENTCMDS : CommandLimit} {s : Queue platform}

structure Sound (MAXCONCURRENTCMDS : CommandLimit) (s : Queue platform) : Prop where
  holding : Holding s.kernel s.runningCommands
  fresh : ∀ obj ∈ s.cmdQueue, Fresh obj
  counted : s.nCommands = BitVec.ofNat platform.sizeBits s.runningCommands.length
  bounded : s.runningCommands.length ≤ MAXCONCURRENTCMDS

theorem Sound.toNat_nCommands (h : Sound MAXCONCURRENTCMDS s) :
    s.nCommands.toNat = s.runningCommands.length := by
  rw [h.counted, toNat_ofNat_of_le h.bounded]

theorem sound_queueCommand (h : Sound MAXCONCURRENTCMDS s) (cmd : WStr) :
    Sound MAXCONCURRENTCMDS (s.queueCommand cmd) := by
  unfold queueCommand
  by_cases hcmd : cmd ≠ []
  · rw [if_pos hcmd]
    refine ⟨h.holding, ?_, h.counted, h.bounded⟩
    intro obj hobj
    rcases List.mem_append.mp hobj with hin | hin
    · exact h.fresh obj hin
    · rw [List.mem_singleton.mp hin]
      exact ⟨_, rfl⟩
  · rw [if_neg hcmd]
    exact h

theorem sound_processQueueLoop (launch : ℕ → Launch) (i : ℕ) {waiting : List ExecObj}
    (hwaiting : ∀ obj ∈ waiting, Fresh obj) (h : Sound MAXCONCURRENTCMDS s) :
    Sound MAXCONCURRENTCMDS (processQueueLoop MAXCONCURRENTCMDS launch i waiting s) := by
  induction waiting generalizing i s with
  | nil => exact ⟨h.holding, hwaiting, h.counted, h.bounded⟩
  | cons newCmd waiting ih =>
    have hfresh := hwaiting newCmd List.mem_cons_self
    have hrest := fun obj hobj => hwaiting obj (List.mem_cons_of_mem newCmd hobj)
    unfold processQueueLoop
    by_cases hslot : s.nCommands < BitVec.ofNat platform.sizeBits MAXCONCURRENTCMDS
    · rw [if_pos hslot]
      by_cases hlaunch : launch i = .succeeds
      · rw [hlaunch]
        obtain ⟨hresult, hholding⟩ := h.holding.runCmd_succeeds hfresh
        dsimp only
        rw [if_neg (not_not.mpr hresult)]
        apply ih (i + 1) hrest
        rw [BitVec.lt_def, h.toNat_nCommands, toNat_ofNat_of_le le_rfl] at hslot
        refine ⟨hholding, h.fresh, ?_, ?_⟩
        · rw [List.length_append, List.length_singleton, BitVec.ofNat_add, h.counted]
          rfl
        · rw [List.length_append, List.length_singleton]
          exact hslot
      · obtain ⟨hresult, hholding⟩ := h.holding.runCmd_fails hfresh hlaunch
        dsimp only
        rw [if_pos hresult]
        exact ih (i + 1) hrest ⟨hholding, h.fresh, h.counted, h.bounded⟩
    · rw [if_neg hslot]
      exact ⟨h.holding, hwaiting, h.counted, h.bounded⟩

theorem holding_processCommandsLoop {cmds : List ExecObj}
    (h : Holding s.kernel (kept ++ cmds)) :
    Holding (processCommandsLoop cmds s).kernel
      (kept ++ (processCommandsLoop cmds s).runningCommands) := by
  induction cmds generalizing kept s with
  | nil => exact h
  | cons cmd cmds ih =>
    unfold processCommandsLoop
    by_cases hstate : cmd.getCmdState s.kernel ≠ STILL_ACTIVE
    · rw [if_pos hstate]
      exact ih (h.destroy hstate)
    · rw [if_neg hstate]
      have hkept : Holding s.kernel ((kept ++ [cmd]) ++ cmds) := by
        rw [List.append_assoc]
        exact h
      have hrest := ih hkept
      rw [List.append_assoc] at hrest
      exact hrest

theorem counted_processCommandsLoop {cmds : List ExecObj} :
    (processCommandsLoop cmds s).cmdQueue = s.cmdQueue ∧
      (processCommandsLoop cmds s).runningCommands.length ≤ cmds.length ∧
      s.nCommands + BitVec.ofNat platform.sizeBits
          (processCommandsLoop cmds s).runningCommands.length
        = (processCommandsLoop cmds s).nCommands + BitVec.ofNat platform.sizeBits cmds.length := by
  induction cmds generalizing s with
  | nil => exact ⟨rfl, le_rfl, rfl⟩
  | cons cmd cmds ih =>
    unfold processCommandsLoop
    by_cases hstate : cmd.getCmdState s.kernel ≠ STILL_ACTIVE
    · rw [if_pos hstate]
      obtain ⟨hqueue, hle, hcount⟩ := @ih { s with
        kernel := cmd.destroy s.kernel
        nCommands := s.nCommands - 1
        dwExecutedCommands := s.dwExecutedCommands + 1 }
      refine ⟨hqueue, hle.trans (Nat.le_succ _), ?_⟩
      have hone : s.nCommands - 1 + BitVec.ofNat platform.sizeBits 1 = s.nCommands :=
        BitVec.sub_add_cancel ..
      rw [List.length_cons, BitVec.ofNat_add, ← BitVec.add_assoc, ← hcount, BitVec.add_assoc,
        BitVec.add_comm _ (BitVec.ofNat platform.sizeBits 1), ← BitVec.add_assoc, hone]
    · rw [if_neg hstate]
      obtain ⟨hqueue, hle, hcount⟩ := @ih s
      refine ⟨hqueue, Nat.succ_le_succ hle, ?_⟩
      dsimp only
      rw [List.length_cons, List.length_cons, BitVec.ofNat_add, BitVec.ofNat_add,
        ← BitVec.add_assoc, hcount, BitVec.add_assoc]

theorem sound_processCommands (h : Sound MAXCONCURRENTCMDS s) :
    Sound MAXCONCURRENTCMDS s.processCommands := by
  obtain ⟨hqueue, hle, hcount⟩ := @counted_processCommandsLoop _ s s.runningCommands
  refine ⟨@holding_processCommandsLoop [] _ s s.runningCommands h.holding, ?_, ?_, ?_⟩
  · unfold processCommands
    rw [hqueue]
    exact h.fresh
  · rw [← h.counted, BitVec.add_comm] at hcount
    exact ((BitVec.add_left_inj _).mp hcount).symm
  · exact hle.trans h.bounded

theorem sound_step (h : Sound MAXCONCURRENTCMDS s) (e : Event) :
    Sound MAXCONCURRENTCMDS (step MAXCONCURRENTCMDS s e) := by
  cases e with
  | queueCommand cmd => exact sound_queueCommand h cmd
  | processQueue launch => exact sound_processQueueLoop launch 0 h.fresh h
  | processCommands => exact sound_processCommands h
  | processEnds pid exitCode => exact ⟨h.holding.endProcess, h.fresh, h.counted, h.bounded⟩

theorem sound_run (events : List Event) :
    Sound MAXCONCURRENTCMDS (Runs.run (step MAXCONCURRENTCMDS) ({} : Queue platform) events) := by
  apply Runs.invariant
  · refine ⟨⟨⟨Owned.refl _, ?_, ?_⟩, ?_⟩, ?_, rfl, Nat.zero_le _⟩
    · intro obj hobj
      cases hobj
    · intro obj hobj
      cases hobj
    · intro pid hpid
      cases hpid
    · intro obj hobj
      cases hobj
  · intro s e h
    exact sound_step h e

def openHandles (kernel : Kernel) : List ℕ :=
  (List.range kernel.handles.size).filter fun p => decide (p ∉ kernel.handles.deleted)

/-- In every state the handles that are open are six for each running command, none is closed twice,
and each process that runs belongs to a running command. -/
theorem handles_held (MAXCONCURRENTCMDS : CommandLimit) (events : List Event) :
    let s := Runs.run (step MAXCONCURRENTCMDS) ({} : Queue platform) events
    (openHandles s.kernel).length = 6 * s.nCommands.toNat ∧ s.kernel.handles.deleted.Nodup ∧
      ∀ pid, s.kernel.processes[pid]? = some .running →
        ∃ obj ∈ s.runningCommands, s.kernel.pid obj.hProcess = some pid := by
  intro s
  have h : Sound MAXCONCURRENTCMDS s := sound_run events
  refine ⟨?_, h.holding.owned.deleted_nodup, h.holding.orphans⟩
  rw [h.toNat_nCommands]
  exact h.holding.owned.perm_filter_deleted.length_eq.trans h.holding.length_handles

theorem destroy_fresh (waiting : List ExecObj) (hfresh : ∀ obj ∈ waiting, Fresh obj)
    (kernel : Kernel) : waiting.foldl (fun kernel cmd => cmd.destroy kernel) kernel = kernel := by
  induction waiting with
  | nil => rfl
  | cons cmd waiting ih =>
    obtain ⟨text, hcmd⟩ := hfresh cmd List.mem_cons_self
    have hdestroy : cmd.destroy kernel = kernel := by
      rw [ExecObj.destroy_eq, hcmd]
      rfl
    rw [List.foldl_cons, hdestroy]
    exact ih fun obj hobj => hfresh obj (List.mem_cons_of_mem cmd hobj)

/-- No handle is left open, and a process that is left running was running before and has outlasted
the waits for it. -/
theorem terminateLoop_leaves (waits : ℕ → Wait × Wait) (i : ℕ) {cmds : List ExecObj}
    (h : Opened s.kernel cmds) :
    Opened (terminateLoop waits i cmds s).kernel [] ∧
      ∀ pid, (terminateLoop waits i cmds s).kernel.processes[pid]? = some .running →
        s.kernel.processes[pid]? = some .running ∧
          ∀ j obj, cmds[j]? = some obj → s.kernel.pid obj.hProcess = some pid →
            Outlasts (waits (i + j)) := by
  induction cmds generalizing i s with
  | nil =>
    refine ⟨h, fun pid hrunning => ⟨hrunning, ?_⟩⟩
    intro j obj hobj
    cases hobj
  | cons cmd cmds ih =>
    obtain ⟨closed, hclosed, hkernel⟩ :=
      @getCmdReturn_destroy_eq s.kernel cmd (waits i).1 (waits i).2
    have hwaited : Opened (cmd.waited (waits i).1 (waits i).2 s.kernel) ([] ++ cmd :: cmds) :=
      h.congr handles_waited
    have hrest := hwaited.close hclosed
    rw [← hkernel] at hrest
    unfold terminateLoop
    obtain ⟨hopened, hleft⟩ := @ih { s with
      kernel := (cmd.getCmdReturn (waits i).1 (waits i).2 s.kernel).1.destroy
        (cmd.getCmdReturn (waits i).1 (waits i).2 s.kernel).2
      dwExecutedCommands := s.dwExecutedCommands + 1 } (i + 1) hrest
    refine ⟨hopened, ?_⟩
    intro pid hrunning
    obtain ⟨hbehind, hothers⟩ := hleft pid hrunning
    dsimp only at hbehind hothers
    rw [hkernel] at hbehind hothers
    obtain ⟨hbefore, hcmd⟩ := waited_running hbehind
    refine ⟨hbefore, ?_⟩
    intro j obj hobj hpid
    cases j with
    | zero =>
      obtain rfl : cmd = obj := Option.some.inj hobj
      exact hcmd hpid
    | succ j =>
      rw [List.getElem?_cons_succ] at hobj
      have hsame := hwaited.pid_close hclosed (List.mem_of_getElem? hobj)
      rw [Kernel.pid_congr handles_waited] at hsame
      have houtlasts := hothers j obj hobj (hsame.trans hpid)
      rwa [Nat.add_right_comm] at houtlasts

theorem Sound.destroy_leaves (h : Sound MAXCONCURRENTCMDS s) (waits : ℕ → Wait × Wait) :
    Opened (s.destroy waits).kernel [] ∧
      ∀ pid, (s.destroy waits).kernel.processes[pid]? = some .running →
        s.kernel.processes[pid]? = some .running ∧
          ∀ j obj, s.runningCommands[j]? = some obj → s.kernel.pid obj.hProcess = some pid →
            Outlasts (waits j) := by
  unfold Queue.destroy
  rw [destroy_fresh s.cmdQueue h.fresh]
  dsimp only
  by_cases hrunning : s.runningCommands = []
  · have hzero : ¬ s.nCommands > 0 := by
      rw [h.counted, hrunning]
      exact BitVec.not_lt_zero
    have hopened := h.holding.toOpened
    rw [hrunning] at hopened
    rw [if_neg hzero, hrunning]
    refine ⟨hopened, fun pid hpid => ⟨hpid, ?_⟩⟩
    intro j obj hobj
    cases hobj
  · have hpos : s.nCommands > 0 := by
      apply BitVec.lt_def.mpr
      rw [h.toNat_nCommands]
      exact List.length_pos_iff.mpr hrunning
    rw [if_pos hpos]
    have hleaves := @terminateLoop_leaves _ { s with cmdQueue := [] } waits 0 s.runningCommands
      h.holding.toOpened
    simpa only [Nat.zero_add] using hleaves

/-- Once the queue has been destroyed each handle has been closed once, and a process that still runs
has outlasted both waits for it. -/
theorem handles_closed (MAXCONCURRENTCMDS : CommandLimit) (events : List Event)
    (waits : ℕ → Wait × Wait) :
    let s := Runs.run (step MAXCONCURRENTCMDS) ({} : Queue platform) events
    let kernel := (s.destroy waits).kernel
    (∀ p, kernel.handles.deleted.count p = if p < kernel.handles.size then 1 else 0) ∧
      ∀ pid, kernel.processes[pid]? = some .running →
        ∃ i obj, s.runningCommands[i]? = some obj ∧ s.kernel.pid obj.hProcess = some pid ∧
          Outlasts (waits i) := by
  intro s kernel
  have h : Sound MAXCONCURRENTCMDS s := sound_run events
  obtain ⟨hopened, hleft⟩ := h.destroy_leaves waits
  constructor
  · intro p
    refine (hopened.owned.count_deleted p).trans ((Nat.zero_add _).trans (if_congr ?_ rfl rfl))
    exact ⟨fun hp => hp.2, fun hp => ⟨Nat.zero_le p, hp⟩⟩
  · intro pid hrunning
    obtain ⟨hbefore, houtlasts⟩ := hleft pid hrunning
    obtain ⟨obj, hobj, hpid⟩ := h.holding.orphans pid hbefore
    obtain ⟨i, hi⟩ := List.getElem?_of_mem hobj
    exact ⟨i, obj, hi, hpid, houtlasts i obj hi hpid⟩

end Queue

end CommandHandles

end TrapHandler
