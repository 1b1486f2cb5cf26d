import TrapHandler.Runs

/-!
# The service

Three threads take part when the program runs as a service: the main function of the service, the
control handler, which is called for one control at a time, and the worker, which `SuspendThread`
stops and `ResumeThread` sets going again. The service control manager sends no control while the
service is stopped or about to start or to stop. A step of a thread is what it does up to its next
access to what the threads share, and a step that a thread cannot take changes nothing.
-/

namespace TrapHandler

namespace ServiceControl

open Runs

/-- The program of the worker: `HandlerMainFn` or `CorrelatorMainFn`. -/
inductive Program where
  | trapHandler
  | correlator
  deriving DecidableEq, Repr

inductive ServiceState where
  | stopped
  | startPending
  | stopPending
  | running
  | continuePending
  | pausePending
  | paused
  deriving DecidableEq, Repr

inductive Control where
  | stop
  | pause
  | resume
  | interrogate
  | shutdown
  deriving DecidableEq, Repr

/-- Where `ServiceMainFn` is. -/
inductive MainPhase where
  | registering
  | starting (dwProgress : UInt32)
  | resetting
  | creating
  | assigning (hT : Bool)
  | tellingRunning
  | waiting
  | returned
  deriving DecidableEq, Repr

/-- Where `SCMHandler` is. -/
inductive HandlerPhase where
  | idle
  | called (dwCommand : Control)
  | shuttingDown
  | waiting
  | signalling
  | tellingStopped
  | suspending
  | tellingPaused
  | resuming
  | tellingRunning
  deriving DecidableEq, Repr

inductive WorkerPhase where
  | absent
  | looping
  | quitting
  | finished
  deriving DecidableEq, Repr

/-- `controls` are the controls that have been delivered, and `timedOut` tells whether the wait for
the worker has ended without it. -/
structure Service where
  dwCurrState : ServiceState := .stopped
  dwCheckPoint : UInt32 := 0
  main : MainPhase := .registering
  handler : HandlerPhase := .idle
  worker : WorkerPhase := .absent
  hThread : Bool := false
  suspendCount : ℕ := 0
  bDoShutdown : Bool := false
  hQuitEvent : Bool := false
  controls : List Control := []
  timedOut : Bool := false
  deriving DecidableEq, Repr

/-- A step of one of the threads, or a control. `ok` tells whether the system call succeeds, `tid`
whether the local variable of this name holds something other than 0 before it is written, and
`timeout` whether ten seconds have passed. -/
inductive Event where
  | main (ok tid : Bool)
  | control (dwCommand : Control)
  | handler (timeout : Bool)
  | worker
  deriving DecidableEq, Repr

/-- A thread that has been suspended this often cannot be suspended once more. -/
def MAXIMUM_SUSPEND_COUNT : ℕ := 127

namespace Service

def tellSCM (s : Service) (dwState : ServiceState) (dwProgress : UInt32) : Service :=
  { s with dwCurrState := dwState, dwCheckPoint := dwProgress }

def Alive (s : Service) : Prop := s.worker = .looping ∨ s.worker = .quitting

instance (s : Service) : Decidable s.Alive := by
  unfold Alive
  exact inferInstance

/-- A `CreateThread` that fails returns no handle and does not write `tid`. -/
def serviceMainFn (s : Service) (ok tid : Bool) : Service :=
  match s.main with
  | .registering => { s with main := if ok then .starting 1 else .returned }
  | .starting dwProgress =>
    { s.tellSCM .startPending dwProgress with
      main := if dwProgress < 3 then .starting (dwProgress + 1) else .resetting }
  | .resetting => { s with hQuitEvent := false, main := .creating }
  | .creating =>
    if ok then { s with worker := .looping, main := .assigning true }
    else { s with main := if tid then .assigning false else .returned }
  | .assigning hT => { s with hThread := hT, main := .tellingRunning }
  | .tellingRunning => { s.tellSCM .running 0 with main := .waiting }
  | .waiting => if s.hQuitEvent then { s with main := .returned } else s
  | .returned => s

def deliver (s : Service) (dwCommand : Control) : Service :=
  if s.handler = .idle ∧ s.dwCurrState ≠ .stopped ∧ s.dwCurrState ≠ .startPending ∧
      s.dwCurrState ≠ .stopPending then
    { s with handler := .called dwCommand, controls := s.controls ++ [dwCommand] }
  else s

def scmHandler (s : Service) (timeout : Bool) : Service :=
  match s.handler with
  | .idle => s
  | .called .stop => { s.tellSCM .stopPending 1 with handler := .shuttingDown }
  | .called .pause => { s.tellSCM .pausePending 1 with handler := .suspending }
  | .called .resume => { s.tellSCM .continuePending 1 with handler := .resuming }
  | .called .interrogate => { s.tellSCM s.dwCurrState 0 with handler := .idle }
  | .called .shutdown => { s with handler := .idle }
  | .shuttingDown => { s with bDoShutdown := true, handler := .waiting }
  | .waiting =>
    if s.worker = .finished ∨ s.hThread = false then { s with handler := .signalling }
    else if timeout then { s with handler := .signalling, timedOut := true }
    else s
  | .signalling => { s with hQuitEvent := true, handler := .tellingStopped }
  | .tellingStopped => { s.tellSCM .stopped 0 with handler := .idle }
  | .suspending =>
    { s with
      suspendCount :=
        if s.hThread ∧ s.Alive ∧ s.suspendCount < MAXIMUM_SUSPEND_COUNT then s.suspendCount + 1
        else s.suspendCount
      handler := .tellingPaused }
  | .tellingPaused => { s.tellSCM .paused 0 with handler := .idle }
  | .resuming =>
    { s with
      suspendCount := if s.hThread ∧ s.Alive then s.suspendCount - 1 else s.suspendCount
      handler := .tellingRunning }
  | .tellingRunning => { s.tellSCM .running 0 with handler := .idle }

/-- `HandlerMainFn` looks at the flag; the event that it waits for and signals is a member of its own,
which nothing creates. `CorrelatorMainFn` looks at the event. A service has no console, so there is no
key to read. -/
def quits (program : Program) (s : Service) : Bool :=
  match program with
  | .trapHandler => s.bDoShutdown
  | .correlator => s.hQuitEvent

/-- A turn of the main loop of the worker, or what it does behind the loop. -/
def workerFn (program : Program) (s : Service) : Service :=
  if s.suspendCount ≠ 0 then s
  else
    match s.worker with
    | .absent => s
    | .looping => if quits program s then { s with worker := .quitting } else s
    | .quitting =>
      { s with
        bDoShutdown := s.bDoShutdown || program == .correlator
        worker := .finished }
    | .finished => s

def step (program : Program) (s : Service) : Event → Service
  | .main ok tid => s.serviceMainFn ok tid
  | .control dwCommand => s.deliver dwCommand
  | .handler timeout => s.scmHandler timeout
  | .worker => s.workerFn program

/-- How often the worker has been suspended and not resumed. -/
def suspensions (controls : List Control) : ℕ :=
  controls.foldl (fun n c =>
    match c with
    | .pause => if n < MAXIMUM_SUSPEND_COUNT then n + 1 else n
    | .resume => n - 1
    | _ => n) 0

def requested (controls : List Control) : ServiceState :=
  controls.foldl (fun state c =>
    match c with
    | .pause => .paused
    | .resume => .running
    | _ => state) .running

theorem suspensions_concat (controls : List Control) (c : Control) :
    suspensions (controls ++ [c]) =
      match c with
      | .pause =>
        if suspensions controls < MAXIMUM_SUSPEND_COUNT then suspensions controls + 1
        else suspensions controls
      | .resume => suspensions controls - 1
      | _ => suspensions controls := List.foldl_concat _ _ _ _

theorem requested_concat (controls : List Control) (c : Control) :
    requested (controls ++ [c]) =
      match c with
      | .pause => .paused
      | .resume => .running
      | _ => requested controls := List.foldl_concat _ _ _ _

theorem requested_cases (controls : List Control) :
    requested controls = .running ∨ requested controls = .paused := by
  induction controls using List.reverseRecOn with
  | nil => exact .inl rfl
  | append_singleton controls c ih =>
    rw [requested_concat]
    cases c with
    | pause => exact .inr rfl
    | resume => exact .inl rfl
    | stop => exact ih
    | interrogate => exact ih
    | shutdown => exact ih

theorem suspensions_of_paused_once {controls : List Control}
    (h : AtEach (fun past c => c = .pause → requested past = .running) controls) :
    (requested controls = .running ∧ suspensions controls = 0) ∨
      (requested controls = .paused ∧ suspensions controls = 1) := by
  induction controls using List.reverseRecOn with
  | nil => exact .inl ⟨rfl, rfl⟩
  | append_singleton controls c ih =>
    obtain ⟨hbefore, hlast⟩ := atEach_concat.mp h
    have hstate := ih hbefore
    rw [requested_concat, suspensions_concat]
    cases c with
    | pause =>
      have hrunning := hlast rfl
      rcases hstate with ⟨_, hcount⟩ | ⟨hpaused, _⟩
      · refine .inr ⟨rfl, ?_⟩
        dsimp only
        rw [hcount]
        rfl
      · rw [hrunning] at hpaused
        cases hpaused
    | resume =>
      left
      rcases hstate with ⟨_, hcount⟩ | ⟨_, hcount⟩
      · exact ⟨rfl, congrArg (· - 1) hcount⟩
      · exact ⟨rfl, congrArg (· - 1) hcount⟩
    | stop => exact hstate
    | interrogate => exact hstate
    | shutdown => exact hstate

structure Early (s : Service) : Prop where
  dwCurrState : s.dwCurrState = .stopped ∨ s.dwCurrState = .startPending
  told : s.dwCurrState = .stopped →
    s.main = .registering ∨ s.main = .starting 1 ∨ s.main = .returned
  handler : s.handler = .idle
  suspendCount : s.suspendCount = 0
  bDoShutdown : s.bDoShutdown = false
  hQuitEvent : s.hQuitEvent = false
  controls : s.controls = []
  timedOut : s.timedOut = false
  threads : (s.worker = .absent ∧ s.hThread = false ∧ s.main ≠ .assigning true ∧
      s.main ≠ .waiting) ∨
    (s.worker = .looping ∧ s.hThread = false ∧ s.main = .assigning true) ∨
    (s.worker = .looping ∧ s.hThread = true ∧ s.main = .tellingRunning)

/-- The worker, if there is one, is in its loop and has been suspended as these controls say. -/
structure Serving (s : Service) (controls : List Control) : Prop where
  worker : s.worker = if s.hThread then .looping else .absent
  bDoShutdown : s.bDoShutdown = false
  hQuitEvent : s.hQuitEvent = false
  timedOut : s.timedOut = false
  stop : .stop ∉ controls
  suspendCount : s.hThread = true → s.suspendCount = suspensions controls

/-- The worker has been asked to quit. One that is suspended does not, and the correlator waits for
the event. -/
structure Stopping (program : Program) (s : Service) : Prop where
  bDoShutdown : s.bDoShutdown = true
  stop : .stop ∈ s.controls
  suspendCount : s.hThread = true → s.suspendCount = suspensions s.controls
  worker : s.worker = .absent ↔ s.hThread = false
  suspended : s.hThread = true → s.suspendCount ≠ 0 → s.worker = .looping
  correlator : s.hThread = true → program = .correlator → s.hQuitEvent = false →
    s.worker = .looping

structure Ended (program : Program) (s : Service) : Prop extends Stopping program s where
  waited : s.worker = .finished ∨ s.timedOut = true ∨ s.hThread = false
  timedOut : s.hThread = true → program = .correlator → s.timedOut = true

/-- What holds where the handler is in a phase, once the service runs. -/
def InPhase (program : Program) (s : Service) : HandlerPhase → Prop
  | .idle =>
    (s.Serving s.controls ∧ s.dwCurrState = requested s.controls) ∨
      (s.Ended program ∧ s.hQuitEvent = true ∧ s.dwCurrState = .stopped)
  | .called c => ∃ past, s.controls = past ++ [c] ∧ s.Serving past ∧ s.dwCurrState = requested past
  | .suspending => ∃ past, s.controls = past ++ [.pause] ∧ s.Serving past
  | .tellingPaused => ∃ past, s.controls = past ++ [.pause] ∧ s.Serving s.controls
  | .resuming => ∃ past, s.controls = past ++ [.resume] ∧ s.Serving past
  | .tellingRunning => ∃ past, s.controls = past ++ [.resume] ∧ s.Serving s.controls
  | .shuttingDown => ∃ past, s.controls = past ++ [.stop] ∧ s.Serving past
  | .waiting => s.Stopping program ∧ s.hQuitEvent = false
  | .signalling => s.Ended program ∧ s.hQuitEvent = false
  | .tellingStopped => s.Ended program ∧ s.hQuitEvent = true

structure Started (program : Program) (s : Service) : Prop where
  main : s.main = .waiting ∨ (s.main = .returned ∧ s.hQuitEvent = true)
  phase : s.InPhase program s.handler

def Sound (program : Program) (s : Service) : Prop := s.Early ∨ s.Started program

variable {program : Program} {s : Service}

theorem Early.serving (h : s.Early) (hworker : s.worker = if s.hThread then .looping else .absent) :
    Started program { s.tellSCM .running 0 with main := .waiting } := by
  have hserving : Serving { s.tellSCM .running 0 with main := .waiting } [] := {
    worker := hworker
    bDoShutdown := h.bDoShutdown
    hQuitEvent := h.hQuitEvent
    timedOut := h.timedOut
    stop := List.not_mem_nil
    suspendCount := fun _ => h.suspendCount }
  refine ⟨.inl rfl, ?_⟩
  change InPhase program _ s.handler
  rw [h.handler]
  left
  change Serving _ s.controls ∧ ServiceState.running = requested s.controls
  rw [h.controls]
  exact ⟨hserving, rfl⟩

theorem Early.busy (h : s.Early) (hregistering : s.main ≠ .registering)
    (hstarting : s.main ≠ .starting 1) (hreturned : s.main ≠ .returned) :
    s.dwCurrState ≠ .stopped := by
  intro hstopped
  rcases h.told hstopped with hmain | hmain | hmain
  · exact hregistering hmain
  · exact hstarting hmain
  · exact hreturned hmain

/-- The main function goes on without a worker, or creates it. -/
theorem Early.mainAlone (h : s.Early) (ok tid : Bool) (hworker : s.worker = .absent)
    (hthread : s.hThread = false) (hassigning : s.main ≠ .assigning true)
    (hwaiting : s.main ≠ .waiting) : (s.serviceMainFn ok tid).Sound program := by
  unfold serviceMainFn
  cases hmain : s.main with
  | registering =>
    left
    cases ok with
    | true => exact { h with
        told := fun _ => .inr (.inl rfl)
        threads := .inl ⟨hworker, hthread, by simp⟩ }
    | false => exact { h with
        told := fun _ => .inr (.inr rfl)
        threads := .inl ⟨hworker, hthread, by simp⟩ }
  | starting dwProgress =>
    have hpending : (s.tellSCM .startPending dwProgress).dwCurrState ≠ .stopped := by
      intro hstopped
      cases hstopped
    left
    dsimp only
    split_ifs
    · exact { h with
        dwCurrState := .inr rfl
        told := fun hstopped => absurd hstopped hpending
        threads := .inl ⟨hworker, hthread, by simp⟩ }
    · exact { h with
        dwCurrState := .inr rfl
        told := fun hstopped => absurd hstopped hpending
        threads := .inl ⟨hworker, hthread, by simp⟩ }
  | resetting =>
    left
    have hbusy := h.busy (by simp [hmain]) (by simp [hmain]) (by simp [hmain])
    exact { h with
      told := fun hstopped => absurd hstopped hbusy
      hQuitEvent := rfl
      threads := .inl ⟨hworker, hthread, by simp⟩ }
  | creating =>
    left
    have hbusy := h.busy (by simp [hmain]) (by simp [hmain]) (by simp [hmain])
    cases ok with
    | true => exact { h with
        told := fun hstopped => absurd hstopped hbusy
        threads := .inr (.inl ⟨rfl, hthread, rfl⟩) }
    | false =>
      cases tid with
      | true => exact { h with
          told := fun hstopped => absurd hstopped hbusy
          threads := .inl ⟨hworker, hthread, by simp⟩ }
      | false => exact { h with
          told := fun _ => .inr (.inr rfl)
          threads := .inl ⟨hworker, hthread, by simp⟩ }
  | assigning hT =>
    left
    have hbusy := h.busy (by simp [hmain]) (by simp [hmain]) (by simp [hmain])
    cases hT with
    | true => exact absurd hmain hassigning
    | false => exact { h with
        told := fun hstopped => absurd hstopped hbusy
        threads := .inl ⟨hworker, rfl, by simp⟩ }
  | tellingRunning =>
    right
    apply h.serving
    rw [hthread]
    exact hworker
  | waiting => exact absurd hmain hwaiting
  | returned => exact .inl h

theorem Early.main (h : s.Early) (ok tid : Bool) : (s.serviceMainFn ok tid).Sound program := by
  rcases h.threads with ⟨hworker, hthread, hassigning, hwaiting⟩ | ⟨hworker, hthread, hmain⟩ |
    ⟨hworker, hthread, hmain⟩
  · exact h.mainAlone ok tid hworker hthread hassigning hwaiting
  · left
    have hbusy := h.busy (by simp [hmain]) (by simp [hmain]) (by simp [hmain])
    unfold serviceMainFn
    rw [hmain]
    exact { h with
      told := fun hstopped => absurd hstopped hbusy
      threads := .inr (.inr ⟨hworker, rfl, rfl⟩) }
  · right
    unfold serviceMainFn
    rw [hmain]
    apply h.serving
    rw [hthread]
    exact hworker

theorem Early.control (h : s.Early) (c : Control) : (s.deliver c).Early := by
  unfold deliver
  rw [if_neg]
  · exact h
  · rintro ⟨_, hstopped, hpending, _⟩
    cases h.dwCurrState with
    | inl hstate => exact hstopped hstate
    | inr hstate => exact hpending hstate

theorem Early.handlerStep (h : s.Early) (timeout : Bool) : (s.scmHandler timeout).Early := by
  unfold scmHandler
  rw [h.handler]
  exact h

theorem not_quits (hshutdown : s.bDoShutdown = false) (hquit : s.hQuitEvent = false) :
    quits program s = false := by
  cases program with
  | trapHandler => exact hshutdown
  | correlator => exact hquit

theorem workerFn_of_looping (hworker : s.worker = .looping) (hquits : quits program s = false) :
    s.workerFn program = s := by
  unfold workerFn
  rw [hworker, hquits]
  by_cases hcount : s.suspendCount ≠ 0
  · exact if_pos hcount
  · rw [if_neg hcount]
    exact if_neg Bool.false_ne_true

theorem workerFn_of_absent (hworker : s.worker = .absent) : s.workerFn program = s := by
  unfold workerFn
  rw [hworker]
  exact ite_self s

theorem Early.workerStep (h : s.Early) : (s.workerFn program).Early := by
  have hquits : quits program s = false := not_quits h.bDoShutdown h.hQuitEvent
  rcases h.threads with ⟨hworker, _⟩ | ⟨hworker, _⟩ | ⟨hworker, _⟩
  · rw [workerFn_of_absent hworker]
    exact h
  · rw [workerFn_of_looping hworker hquits]
    exact h
  · rw [workerFn_of_looping hworker hquits]
    exact h

theorem InPhase.setMain {p : HandlerPhase} (h : s.InPhase program p) (m : MainPhase) :
    ({ s with main := m } : Service).InPhase program p := by
  cases p with
  | idle =>
    rcases h with ⟨h, hstate⟩ | ⟨h, hquit, hstate⟩
    · exact .inl ⟨{ h with }, hstate⟩
    · exact .inr ⟨{ h with }, hquit, hstate⟩
  | called c =>
    obtain ⟨past, hcontrols, h, hstate⟩ := h
    exact ⟨past, hcontrols, { h with }, hstate⟩
  | suspending =>
    obtain ⟨past, hcontrols, h⟩ := h
    exact ⟨past, hcontrols, { h with }⟩
  | tellingPaused =>
    obtain ⟨past, hcontrols, h⟩ := h
    exact ⟨past, hcontrols, { h with }⟩
  | resuming =>
    obtain ⟨past, hcontrols, h⟩ := h
    exact ⟨past, hcontrols, { h with }⟩
  | tellingRunning =>
    obtain ⟨past, hcontrols, h⟩ := h
    exact ⟨past, hcontrols, { h with }⟩
  | shuttingDown =>
    obtain ⟨past, hcontrols, h⟩ := h
    exact ⟨past, hcontrols, { h with }⟩
  | waiting =>
    obtain ⟨h, hquit⟩ := h
    exact ⟨{ h with }, hquit⟩
  | signalling =>
    obtain ⟨h, hquit⟩ := h
    exact ⟨{ h with }, hquit⟩
  | tellingStopped =>
    obtain ⟨h, hquit⟩ := h
    exact ⟨{ h with }, hquit⟩

theorem Started.mainStep (h : s.Started program) (ok tid : Bool) :
    (s.serviceMainFn ok tid).Started program := by
  unfold serviceMainFn
  rcases h.main with hmain | ⟨hmain, hquit⟩
  · rw [hmain]
    dsimp only
    by_cases hquit : s.hQuitEvent = true
    · rw [if_pos hquit]
      exact ⟨.inr ⟨rfl, hquit⟩, h.phase.setMain .returned⟩
    · rw [if_neg hquit]
      exact h
  · rw [hmain]
    exact h

theorem Started.control (h : s.Started program) (c : Control) :
    (s.deliver c).Started program := by
  unfold deliver
  split_ifs with hgate
  · obtain ⟨hidle, hstopped, _⟩ := hgate
    have hphase := h.phase
    rw [hidle] at hphase
    rcases hphase with ⟨hserving, hstate⟩ | ⟨_, _, hstate⟩
    · exact ⟨h.main, s.controls, rfl, { hserving with }, hstate⟩
    · exact absurd hstate hstopped
  · exact h

theorem stop_notMem_concat {past : List Control} {c : Control} (h : .stop ∉ past)
    (hc : c ≠ .stop) : .stop ∉ past ++ [c] := by
  intro hmem
  rcases List.mem_append.mp hmem with hmem | hmem
  · exact h hmem
  · exact hc (List.mem_singleton.mp hmem).symm

theorem Started.unchanged (h : s.Started program) {past : List Control} {c : Control}
    (hcontrols : s.controls = past ++ [c]) (hserving : s.Serving past) (hc : c ≠ .stop)
    (hstate : s.dwCurrState = requested (past ++ [c]))
    (hcount : suspensions (past ++ [c]) = suspensions past) (dwProgress : UInt32) :
    Started program { s.tellSCM s.dwCurrState dwProgress with handler := .idle } := by
  have hnext : Serving { s.tellSCM s.dwCurrState dwProgress with handler := .idle } s.controls := {
    hserving with
    stop := by
      rw [hcontrols]
      exact stop_notMem_concat hserving.stop hc
    suspendCount := by
      rw [hcontrols, hcount]
      exact hserving.suspendCount }
  rw [← hcontrols] at hstate
  exact ⟨h.main, .inl ⟨hnext, hstate⟩⟩

theorem Started.called (h : s.Started program) {c : Control} (hcalled : s.handler = .called c)
    (timeout : Bool) : (s.scmHandler timeout).Started program := by
  have hphase := h.phase
  rw [hcalled] at hphase
  obtain ⟨past, hcontrols, hserving, hstate⟩ := hphase
  unfold scmHandler
  rw [hcalled]
  cases c with
  | stop => exact ⟨h.main, past, hcontrols, { hserving with }⟩
  | pause => exact ⟨h.main, past, hcontrols, { hserving with }⟩
  | resume => exact ⟨h.main, past, hcontrols, { hserving with }⟩
  | interrogate =>
    have hrequested : s.dwCurrState = requested (past ++ [.interrogate]) := by
      rw [requested_concat]
      exact hstate
    exact h.unchanged hcontrols hserving (by decide) hrequested (suspensions_concat _ _) 0
  | shutdown =>
    have hrequested : s.dwCurrState = requested (past ++ [.shutdown]) := by
      rw [requested_concat]
      exact hstate
    exact h.unchanged hcontrols hserving (by decide) hrequested (suspensions_concat _ _)
      s.dwCheckPoint

theorem Serving.alive {past : List Control} (h : s.Serving past) (hthread : s.hThread = true) :
    s.Alive := by
  left
  rw [h.worker, if_pos hthread]

theorem Serving.recount {past : List Control} {c : Control} (hserving : s.Serving past)
    (hcontrols : s.controls = past ++ [c]) (hc : c ≠ .stop) {count : ℕ}
    (hcount : s.hThread = true → count = suspensions (past ++ [c])) (p : HandlerPhase) :
    Serving { s with suspendCount := count, handler := p } s.controls := by
  rw [hcontrols]
  exact { hserving with
    stop := stop_notMem_concat hserving.stop hc
    suspendCount := hcount }

theorem Started.shuttingDown (h : s.Started program) (hhandler : s.handler = .shuttingDown)
    (timeout : Bool) : (s.scmHandler timeout).Started program := by
  have hphase := h.phase
  rw [hhandler] at hphase
  obtain ⟨past, hcontrols, hserving⟩ := hphase
  have hstop : Control.stop ∈ s.controls := by
    rw [hcontrols]
    exact List.mem_concat_self
  have hcount : s.hThread = true → s.suspendCount = suspensions s.controls := by
    rw [hcontrols, suspensions_concat]
    exact hserving.suspendCount
  have hlooping : s.hThread = true → s.worker = .looping := by
    intro hthread
    rw [hserving.worker, if_pos hthread]
  have hstopping : Stopping program { s with bDoShutdown := true, handler := .waiting } := {
    bDoShutdown := rfl
    stop := hstop
    suspendCount := hcount
    worker := by
      cases hthread : s.hThread with
      | true => simp [hlooping hthread]
      | false => simp [hserving.worker, hthread]
    suspended := fun hthread _ => hlooping hthread
    correlator := fun hthread _ _ => hlooping hthread }
  unfold scmHandler
  rw [hhandler]
  exact ⟨h.main, hstopping, hserving.hQuitEvent⟩

theorem Started.waiting (h : s.Started program) (hhandler : s.handler = .waiting)
    (timeout : Bool) : (s.scmHandler timeout).Started program := by
  have hphase := h.phase
  rw [hhandler] at hphase
  obtain ⟨hstopping, hquit⟩ := hphase
  unfold scmHandler
  rw [hhandler]
  dsimp only
  split_ifs with hfinished htimeout
  · refine ⟨h.main, ?_, hquit⟩
    refine { hstopping with waited := ?_, timedOut := ?_ }
    · exact hfinished.imp_right .inr
    · intro hthread hprogram
      have hlooping := hstopping.correlator hthread hprogram hquit
      rcases hfinished with hend | hnone
      · rw [hend] at hlooping
        cases hlooping
      · rw [hnone] at hthread
        cases hthread
  · refine ⟨h.main, ?_, hquit⟩
    exact { hstopping with
      waited := .inr (.inl rfl)
      timedOut := fun _ _ => rfl }
  · exact h

theorem Started.handlerStep (h : s.Started program) (timeout : Bool) :
    (s.scmHandler timeout).Started program := by
  have hphase := h.phase
  cases hhandler : s.handler with
  | idle =>
    unfold scmHandler
    rw [hhandler]
    exact h
  | called c => exact h.called hhandler timeout
  | shuttingDown => exact h.shuttingDown hhandler timeout
  | waiting => exact h.waiting hhandler timeout
  | signalling =>
    rw [hhandler] at hphase
    obtain ⟨hended, _⟩ := hphase
    unfold scmHandler
    rw [hhandler]
    refine ⟨h.main.imp_right fun hmain => ⟨hmain.1, rfl⟩, ?_, rfl⟩
    exact { hended with
      correlator := fun _ _ hfalse => by cases hfalse }
  | tellingStopped =>
    rw [hhandler] at hphase
    obtain ⟨hended, hquit⟩ := hphase
    unfold scmHandler
    rw [hhandler]
    exact ⟨h.main, .inr ⟨{ hended with }, hquit, rfl⟩⟩
  | suspending =>
    rw [hhandler] at hphase
    obtain ⟨past, hcontrols, hserving⟩ := hphase
    have hcount : s.hThread = true →
        (if s.hThread ∧ s.Alive ∧ s.suspendCount < MAXIMUM_SUSPEND_COUNT then s.suspendCount + 1
          else s.suspendCount) = suspensions (past ++ [.pause]) := by
      intro hthread
      rw [suspensions_concat, ← hserving.suspendCount hthread]
      simp only [hthread, hserving.alive hthread, true_and]
    unfold scmHandler
    rw [hhandler]
    exact ⟨h.main, past, hcontrols,
      hserving.recount hcontrols (by decide) hcount .tellingPaused⟩
  | tellingPaused =>
    rw [hhandler] at hphase
    obtain ⟨past, hcontrols, hserving⟩ := hphase
    have hrequested : ServiceState.paused = requested s.controls := by
      rw [hcontrols, requested_concat]
    unfold scmHandler
    rw [hhandler]
    exact ⟨h.main, .inl ⟨{ hserving with }, hrequested⟩⟩
  | resuming =>
    rw [hhandler] at hphase
    obtain ⟨past, hcontrols, hserving⟩ := hphase
    have hcount : s.hThread = true →
        (if s.hThread ∧ s.Alive then s.suspendCount - 1 else s.suspendCount) =
          suspensions (past ++ [.resume]) := by
      intro hthread
      rw [suspensions_concat, ← hserving.suspendCount hthread,
        if_pos ⟨hthread, hserving.alive hthread⟩]
    unfold scmHandler
    rw [hhandler]
    exact ⟨h.main, past, hcontrols,
      hserving.recount hcontrols (by decide) hcount .tellingRunning⟩
  | tellingRunning =>
    rw [hhandler] at hphase
    obtain ⟨past, hcontrols, hserving⟩ := hphase
    have hrequested : ServiceState.running = requested s.controls := by
      rw [hcontrols, requested_concat]
    unfold scmHandler
    rw [hhandler]
    exact ⟨h.main, .inl ⟨{ hserving with }, hrequested⟩⟩

theorem Serving.workerStep {past : List Control} (h : s.Serving past) :
    s.workerFn program = s := by
  have hworker := h.worker
  split_ifs at hworker
  · exact workerFn_of_looping hworker (not_quits h.bDoShutdown h.hQuitEvent)
  · exact workerFn_of_absent hworker

/-- A worker that has been asked to quit, and what it leaves to the others. -/
structure Quitting (program : Program) (s s' : Service) : Prop where
  stopping : s'.Stopping program
  hQuitEvent : s'.hQuitEvent = s.hQuitEvent
  dwCurrState : s'.dwCurrState = s.dwCurrState
  timedOut : s'.timedOut = s.timedOut
  finished : s.worker = .finished → s'.worker = .finished
  main : s'.main = s.main ∧ s'.hThread = s.hThread ∧ s'.handler = s.handler

theorem Stopping.hThread_ne (h : s.Stopping program) (hworker : s.worker ≠ .absent) :
    s.hThread ≠ false :=
  fun hnone => hworker (h.worker.mpr hnone)

theorem Stopping.workerStep (h : s.Stopping program) :
    Quitting program s (s.workerFn program) := by
  have hself : Quitting program s s := ⟨h, rfl, rfl, rfl, id, rfl, rfl, rfl⟩
  unfold workerFn
  by_cases hcount : s.suspendCount ≠ 0
  · rw [if_pos hcount]
    exact hself
  rw [if_neg hcount]
  cases hworker : s.worker with
  | absent => exact hself
  | looping =>
    have hthread := h.hThread_ne (by simp [hworker])
    dsimp only
    by_cases hquits : quits program s = true
    · rw [if_pos hquits]
      refine ⟨?_, rfl, rfl, rfl, fun hfinished => ?_, rfl, rfl, rfl⟩
      · exact { h with
          worker := by simp [hthread]
          suspended := fun _ hsuspended => absurd hsuspended hcount
          correlator := by
            rintro _ rfl hquit
            have htrue : s.hQuitEvent = true := hquits
            exact absurd (htrue.symm.trans hquit) (by decide) }
      · rw [hworker] at hfinished
        cases hfinished
    · rw [if_neg hquits]
      exact hself
  | quitting =>
    have hthread := h.hThread_ne (by simp [hworker])
    refine ⟨?_, rfl, rfl, rfl, fun _ => rfl, rfl, rfl, rfl⟩
    exact { h with
      bDoShutdown := by simp [h.bDoShutdown]
      worker := by simp [hthread]
      suspended := fun _ hsuspended => absurd hsuspended hcount
      correlator := by
        intro hthread hprogram hquit
        have hlooping := h.correlator hthread hprogram hquit
        rw [hworker] at hlooping
        cases hlooping }
  | finished => exact hself

theorem Ended.workerStep (h : s.Ended program) : (s.workerFn program).Ended program := by
  have hstep := h.toStopping.workerStep
  refine { hstep.stopping with waited := ?_, timedOut := ?_ }
  · rw [hstep.timedOut, hstep.main.2.1]
    exact h.waited.imp_left hstep.finished
  · rw [hstep.timedOut, hstep.main.2.1]
    exact h.timedOut

theorem Started.quitting (h : s.Started program) (hstopping : s.Stopping program)
    (hphase : (s.workerFn program).InPhase program s.handler) :
    (s.workerFn program).Started program := by
  have hstep := hstopping.workerStep
  obtain ⟨hmain, _, hhandler⟩ := hstep.main
  refine ⟨?_, ?_⟩
  · rw [hmain, hstep.hQuitEvent]
    exact h.main
  · rw [hhandler]
    exact hphase

/-- The worker is in its loop where the handler does not come from a stop, and no control is handled
where it does. -/
theorem InPhase.serving_or_stopping {p : HandlerPhase} (h : s.InPhase program p) :
    (∃ past, s.Serving past) ∨
      (s.Stopping program ∧ (p = .waiting ∨ p = .signalling ∨ p = .tellingStopped ∨
        (p = .idle ∧ s.dwCurrState = .stopped))) := by
  cases p with
  | idle =>
    rcases h with ⟨hserving, _⟩ | ⟨hended, _, hstate⟩
    · exact .inl ⟨_, hserving⟩
    · exact .inr ⟨hended.toStopping, .inr (.inr (.inr ⟨rfl, hstate⟩))⟩
  | called c =>
    obtain ⟨past, _, hserving, _⟩ := h
    exact .inl ⟨past, hserving⟩
  | shuttingDown =>
    obtain ⟨past, _, hserving⟩ := h
    exact .inl ⟨past, hserving⟩
  | suspending =>
    obtain ⟨past, _, hserving⟩ := h
    exact .inl ⟨past, hserving⟩
  | tellingPaused =>
    obtain ⟨_, _, hserving⟩ := h
    exact .inl ⟨_, hserving⟩
  | resuming =>
    obtain ⟨past, _, hserving⟩ := h
    exact .inl ⟨past, hserving⟩
  | tellingRunning =>
    obtain ⟨_, _, hserving⟩ := h
    exact .inl ⟨_, hserving⟩
  | waiting => exact .inr ⟨h.1, .inl rfl⟩
  | signalling => exact .inr ⟨h.1.toStopping, .inr (.inl rfl)⟩
  | tellingStopped => exact .inr ⟨h.1.toStopping, .inr (.inr (.inl rfl))⟩

theorem Started.workerStep (h : s.Started program) : (s.workerFn program).Started program := by
  have hserves : ∀ past, s.Serving past → (s.workerFn program).Started program := by
    intro past hserving
    rw [hserving.workerStep]
    exact h
  rcases h.phase.serving_or_stopping with ⟨past, hserving⟩ | ⟨hstopping, hphases⟩
  · exact hserves past hserving
  have hstep := hstopping.workerStep
  have hphase := h.phase
  rcases hphases with hhandler | hhandler | hhandler | ⟨hhandler, _⟩
  · apply h.quitting hstopping
    rw [hhandler] at hphase ⊢
    obtain ⟨_, hquit⟩ := hphase
    exact ⟨hstep.stopping, hstep.hQuitEvent.trans hquit⟩
  · apply h.quitting hstopping
    rw [hhandler] at hphase ⊢
    obtain ⟨hended, hquit⟩ := hphase
    exact ⟨hended.workerStep, hstep.hQuitEvent.trans hquit⟩
  · apply h.quitting hstopping
    rw [hhandler] at hphase ⊢
    obtain ⟨hended, hquit⟩ := hphase
    exact ⟨hended.workerStep, hstep.hQuitEvent.trans hquit⟩
  · rw [hhandler] at hphase
    rcases hphase with ⟨hserving, _⟩ | ⟨hended, hquit, hstate⟩
    · exact hserves _ hserving
    · apply h.quitting hstopping
      rw [hhandler]
      exact .inr ⟨hended.workerStep, hstep.hQuitEvent.trans hquit, hstep.dwCurrState.trans hstate⟩

theorem Sound.step (h : s.Sound program) (e : Event) : (step program s e).Sound program := by
  cases h with
  | inl h =>
    cases e with
    | main ok tid => exact h.main ok tid
    | control c => exact .inl (h.control c)
    | handler timeout => exact .inl (h.handlerStep timeout)
    | worker => exact .inl h.workerStep
  | inr h =>
    cases e with
    | main ok tid => exact .inr (h.mainStep ok tid)
    | control c => exact .inr (h.control c)
    | handler timeout => exact .inr (h.handlerStep timeout)
    | worker => exact .inr h.workerStep

theorem sound_initial : Sound program {} := .inl {
  dwCurrState := .inl rfl
  told := fun _ => .inl rfl
  handler := rfl
  suspendCount := rfl
  bDoShutdown := rfl
  hQuitEvent := rfl
  controls := rfl
  timedOut := rfl
  threads := .inl ⟨rfl, rfl, by decide, by decide⟩ }

structure Told (program : Program) (s : Service) : Prop where
  started : s.Started program
  quits : quits program s = true

theorem Serving.not_told {past : List Control} (h : s.Serving past) : ¬ s.Told program := by
  intro htold
  have hquits := htold.quits
  rw [not_quits h.bDoShutdown h.hQuitEvent] at hquits
  cases hquits

theorem Told.stopping (h : s.Told program) :
    s.Stopping program ∧ (s.handler = .waiting ∨ s.handler = .signalling ∨
      s.handler = .tellingStopped ∨ (s.handler = .idle ∧ s.dwCurrState = .stopped)) := by
  rcases h.started.phase.serving_or_stopping with ⟨past, hserving⟩ | hstopping
  · exact absurd h hserving.not_told
  · exact hstopping

/-- The other threads leave the worker and the controls as they are. -/
structure Leaves (program : Program) (s s' : Service) : Prop where
  quits : quits program s = true → quits program s' = true
  controls : s'.controls = s.controls
  worker : s'.worker = s.worker
  hThread : s'.hThread = s.hThread

theorem Told.mainLeaves (h : s.Told program) (ok tid : Bool) :
    Leaves program s (s.serviceMainFn ok tid) := by
  have hself : Leaves program s s := ⟨id, rfl, rfl, rfl⟩
  unfold serviceMainFn
  rcases h.started.main with hmain | ⟨hmain, _⟩
  · rw [hmain]
    dsimp only
    split_ifs
    · exact { hself with }
    · exact hself
  · rw [hmain]
    exact hself

theorem Told.controlLeaves (h : s.Told program) (c : Control) :
    Leaves program s (s.deliver c) := by
  unfold deliver
  rw [if_neg]
  · exact ⟨id, rfl, rfl, rfl⟩
  · rintro ⟨hidle, hstopped, _⟩
    rcases h.stopping.2 with hhandler | hhandler | hhandler | ⟨_, hstate⟩
    · cases hidle.symm.trans hhandler
    · cases hidle.symm.trans hhandler
    · cases hidle.symm.trans hhandler
    · exact hstopped hstate

theorem Told.handlerLeaves (h : s.Told program) (timeout : Bool) :
    Leaves program s (s.scmHandler timeout) := by
  have hself : Leaves program s s := ⟨id, rfl, rfl, rfl⟩
  unfold scmHandler
  rcases h.stopping.2 with hhandler | hhandler | hhandler | ⟨hhandler, _⟩
  · rw [hhandler]
    dsimp only
    split_ifs
    · exact { hself with }
    · exact { hself with }
    · exact hself
  · rw [hhandler]
    refine { hself with quits := fun hquits => ?_ }
    cases program with
    | trapHandler => exact hquits
    | correlator => rfl
  · rw [hhandler]
    exact { hself with }
  · rw [hhandler]
    exact hself

theorem Told.step_leaves (h : s.Told program) {e : Event} (he : e ≠ .worker) :
    Leaves program s (step program s e) := by
  cases e with
  | main ok tid => exact h.mainLeaves ok tid
  | control c => exact h.controlLeaves c
  | handler timeout => exact h.handlerLeaves timeout
  | worker => exact absurd rfl he

theorem workerFn_controls : (s.workerFn program).controls = s.controls := by
  unfold workerFn
  by_cases hcount : s.suspendCount ≠ 0
  · rw [if_pos hcount]
  rw [if_neg hcount]
  cases s.worker with
  | looping =>
    dsimp only
    split_ifs
    · rfl
    · rfl
  | absent => rfl
  | quitting => rfl
  | finished => rfl

theorem Told.stepKeeps (h : s.Told program) (e : Event) :
    (step program s e).Told program ∧ (step program s e).controls = s.controls ∧
      (step program s e).hThread = s.hThread := by
  by_cases he : e = .worker
  · rw [he]
    have hstep := h.stopping.1.workerStep
    refine ⟨⟨h.started.workerStep, ?_⟩, workerFn_controls, hstep.main.2.1⟩
    cases program with
    | trapHandler => exact hstep.stopping.bDoShutdown
    | correlator => exact hstep.hQuitEvent.trans h.quits
  · have hleaves := h.step_leaves he
    refine ⟨⟨?_, hleaves.quits h.quits⟩, hleaves.controls, hleaves.hThread⟩
    cases e with
    | main ok tid => exact h.started.mainStep ok tid
    | control c => exact h.started.control c
    | handler timeout => exact h.started.handlerStep timeout
    | worker => exact absurd rfl he

/-- How many turns the worker has taken since it found out. -/
def turnsTaken : WorkerPhase → ℕ
  | .absent => 0
  | .looping => 0
  | .quitting => 1
  | .finished => 2

theorem Told.worker_turn (h : s.Told program) (hthread : s.hThread = true)
    (hcount : suspensions s.controls = 0) :
    turnsTaken (s.workerFn program).worker = min 2 (turnsTaken s.worker + 1) := by
  have hrunning : ¬ s.suspendCount ≠ 0 := by
    rw [h.stopping.1.suspendCount hthread, hcount]
    exact fun hne => hne rfl
  unfold workerFn
  rw [if_neg hrunning]
  cases hworker : s.worker with
  | absent =>
    rw [h.stopping.1.worker.mp hworker] at hthread
    cases hthread
  | looping =>
    dsimp only
    rw [if_pos h.quits]
    rfl
  | quitting => rfl
  | finished =>
    dsimp only
    rw [hworker]
    rfl

theorem Told.runKeeps (h : s.Told program) (es : List Event) :
    (run (step program) s es).Told program ∧ (run (step program) s es).controls = s.controls ∧
      (run (step program) s es).hThread = s.hThread := by
  induction es using List.reverseRecOn with
  | nil => exact ⟨h, rfl, rfl⟩
  | append_singleton es e ih =>
    rw [run_concat]
    obtain ⟨htold, hcontrols, hthread⟩ := ih.1.stepKeeps e
    exact ⟨htold, hcontrols.trans ih.2.1, hthread.trans ih.2.2⟩

theorem Told.turns (h : s.Told program) (hthread : s.hThread = true)
    (hcount : suspensions s.controls = 0) (es : List Event) :
    min 2 (es.count .worker) ≤ turnsTaken (run (step program) s es).worker := by
  induction es using List.reverseRecOn with
  | nil => exact Nat.zero_le _
  | append_singleton es e ih =>
    obtain ⟨htold, hcontrols, hsame⟩ := h.runKeeps es
    rw [run_concat, List.count_append, List.count_singleton]
    by_cases he : e = .worker
    · have hturn := htold.worker_turn (hsame.trans hthread) (hcontrols ▸ hcount)
      rw [he]
      change _ ≤ turnsTaken (workerFn program _).worker
      rw [hturn]
      simp only [beq_self_eq_true, if_true]
      omega
    · have hleaves := htold.step_leaves he
      rw [hleaves.worker, if_neg (by simpa using he)]
      exact ih

theorem eq_finished {w : WorkerPhase} (h : 2 ≤ turnsTaken w) : w = .finished := by
  cases w with
  | finished => rfl
  | absent => exact absurd h (by decide)
  | looping => exact absurd h (by decide)
  | quitting => exact absurd h (by decide)

/-- Where the service is reported to be stopped no control is being handled. -/
def Quiet (s : Service) : Prop := s.dwCurrState = .stopped → s.handler = .idle

theorem Quiet.busy (h : s.Quiet) (hhandler : s.handler ≠ .idle) : s.dwCurrState ≠ .stopped :=
  fun hstopped => hhandler (h hstopped)

theorem Quiet.mainStep (h : s.Quiet) (ok tid : Bool) : (s.serviceMainFn ok tid).Quiet := by
  unfold serviceMainFn
  cases s.main with
  | starting dwProgress =>
    intro hstopped
    cases hstopped
  | tellingRunning =>
    intro hstopped
    cases hstopped
  | creating =>
    cases ok with
    | true => exact h
    | false => exact h
  | waiting =>
    dsimp only
    split_ifs
    · exact h
    · exact h
  | registering => exact h
  | resetting => exact h
  | assigning hT => exact h
  | returned => exact h

theorem Quiet.control (h : s.Quiet) (c : Control) : (s.deliver c).Quiet := by
  unfold deliver
  split_ifs with hgate
  · intro hstopped
    exact absurd hstopped hgate.2.1
  · exact h

theorem Quiet.handlerStep (h : s.Quiet) (timeout : Bool) : (s.scmHandler timeout).Quiet := by
  unfold scmHandler
  cases hhandler : s.handler with
  | idle => exact h
  | called c =>
    cases c with
    | stop =>
      intro hstopped
      cases hstopped
    | pause =>
      intro hstopped
      cases hstopped
    | resume =>
      intro hstopped
      cases hstopped
    | interrogate => exact fun _ => rfl
    | shutdown => exact fun _ => rfl
  | waiting =>
    have hbusy := h.busy (by simp [hhandler])
    dsimp only
    split_ifs
    · exact fun hstopped => absurd hstopped hbusy
    · exact fun hstopped => absurd hstopped hbusy
    · exact h
  | shuttingDown => exact fun hstopped => absurd hstopped (h.busy (by simp [hhandler]))
  | signalling => exact fun hstopped => absurd hstopped (h.busy (by simp [hhandler]))
  | suspending => exact fun hstopped => absurd hstopped (h.busy (by simp [hhandler]))
  | resuming => exact fun hstopped => absurd hstopped (h.busy (by simp [hhandler]))
  | tellingStopped => exact fun _ => rfl
  | tellingPaused => exact fun _ => rfl
  | tellingRunning => exact fun _ => rfl

theorem Quiet.workerStep (h : s.Quiet) : (s.workerFn program).Quiet := by
  unfold workerFn
  by_cases hcount : s.suspendCount ≠ 0
  · rw [if_pos hcount]
    exact h
  rw [if_neg hcount]
  cases s.worker with
  | looping =>
    dsimp only
    split_ifs
    · exact h
    · exact h
  | absent => exact h
  | quitting => exact h
  | finished => exact h

theorem Quiet.step (h : s.Quiet) (e : Event) : (step program s e).Quiet := by
  cases e with
  | main ok tid => exact h.mainStep ok tid
  | control c => exact h.control c
  | handler timeout => exact h.handlerStep timeout
  | worker => exact h.workerStep

theorem run_quiet (program : Program) (es : List Event) :
    Quiet (run (step program) {} es) :=
  invariant (I := Quiet) (fun _ => rfl) (fun t e h => @Quiet.step program t h e) es

/-- Once the service runs its worker, if there is one, is in the loop or has been told to stop. -/
theorem Started.looping_or_stop (h : s.Started program) :
    s.worker = .absent ∨ s.worker = .looping ∨ .stop ∈ s.controls := by
  rcases h.phase.serving_or_stopping with ⟨past, hserving⟩ | ⟨hstopping, _⟩
  · have hworker := hserving.worker
    split_ifs at hworker
    · exact .inr (.inl hworker)
    · exact .inl hworker
  · exact .inr (.inr hstopping.stop)

theorem Started.absent (h : s.Started program) (hthread : s.hThread = false) :
    s.worker = .absent := by
  rcases h.phase.serving_or_stopping with ⟨past, hserving⟩ | ⟨hstopping, _⟩
  · rw [hserving.worker, hthread]
    rfl
  · exact hstopping.worker.mpr hthread

theorem Early.notWaiting (h : s.Early) :
    s.main ≠ .waiting ∧ (s.worker = .absent ∨ s.worker = .looping) := by
  rcases h.threads with ⟨hworker, _, _, hmain⟩ | ⟨hworker, _, hmain⟩ | ⟨hworker, _, hmain⟩
  · exact ⟨hmain, .inl hworker⟩
  · exact ⟨ne_of_eq_of_ne hmain (by simp), .inr hworker⟩
  · exact ⟨ne_of_eq_of_ne hmain (by simp), .inr hworker⟩

theorem Started.between (h : s.Started program) (hidle : s.handler = .idle)
    (hstop : .stop ∉ s.controls) :
    s.dwCurrState = requested s.controls ∧
      (s.hThread = true → s.suspendCount = suspensions s.controls) := by
  have hphase := h.phase
  rw [hidle] at hphase
  rcases hphase with ⟨hserving, hstate⟩ | ⟨hended, _⟩
  · exact ⟨hstate, hserving.suspendCount⟩
  · exact absurd hended.stop hstop

theorem run_sound (program : Program) (es : List Event) :
    Sound program (run (step program) {} es) :=
  invariant sound_initial (fun _ e h => h.step e) es

/-- `CreateThread` has failed, and what was in `tid` has been taken for the identifier of a thread. -/
def Unmanned (s : Service) : Prop :=
  s.main = .assigning false ∨
    (s.hThread = false ∧ (s.main = .tellingRunning ∨ s.main = .waiting))

theorem Unmanned.mainStep {ok tid : Bool} (h : (s.serviceMainFn ok tid).Unmanned) :
    s.Unmanned ∨ (ok = false ∧ tid = true) := by
  unfold serviceMainFn at h
  cases hmain : s.main with
  | registering =>
    rw [hmain] at h
    cases ok <;> simp [Unmanned] at h
  | starting dwProgress =>
    rw [hmain] at h
    dsimp only at h
    split_ifs at h <;> simp [Unmanned] at h
  | resetting =>
    rw [hmain] at h
    simp [Unmanned] at h
  | creating =>
    rw [hmain] at h
    cases ok with
    | true => simp [Unmanned] at h
    | false =>
      cases tid with
      | true => exact .inr ⟨rfl, rfl⟩
      | false => simp [Unmanned] at h
  | assigning hT =>
    rw [hmain] at h
    left
    left
    simp only [Unmanned, reduceCtorEq, false_or, true_or, and_true] at h
    rw [hmain, h]
  | tellingRunning =>
    rw [hmain] at h
    simp only [Unmanned, tellSCM, reduceCtorEq, false_or, or_true, and_true] at h
    exact .inl (.inr ⟨h, .inl hmain⟩)
  | waiting =>
    rw [hmain] at h
    dsimp only at h
    split_ifs at h
    · simp [Unmanned] at h
    · exact .inl h
  | returned =>
    rw [hmain] at h
    exact .inl h

theorem Unmanned.step {e : Event} (h : (step program s e).Unmanned) :
    s.Unmanned ∨ e = .main false true := by
  cases e with
  | main ok tid =>
    apply Unmanned.mainStep h |>.imp_right
    rintro ⟨rfl, rfl⟩
    rfl
  | control c =>
    left
    change (s.deliver c).Unmanned at h
    unfold deliver at h
    split_ifs at h
    · exact h
    · exact h
  | handler timeout =>
    left
    have hsame : (s.scmHandler timeout).main = s.main ∧
        (s.scmHandler timeout).hThread = s.hThread := by
      unfold scmHandler
      cases s.handler with
      | called c => cases c <;> exact ⟨rfl, rfl⟩
      | waiting =>
        dsimp only
        split_ifs <;> exact ⟨rfl, rfl⟩
      | _ => exact ⟨rfl, rfl⟩
    change (s.scmHandler timeout).Unmanned at h
    unfold Unmanned at h
    rw [hsame.1, hsame.2] at h
    exact h
  | worker =>
    left
    have hsame : (s.workerFn program).main = s.main ∧
        (s.workerFn program).hThread = s.hThread := by
      unfold workerFn
      cases s.worker with
      | looping =>
        dsimp only
        split_ifs <;> exact ⟨rfl, rfl⟩
      | _ =>
        dsimp only
        split_ifs <;> exact ⟨rfl, rfl⟩
    change (s.workerFn program).Unmanned at h
    unfold Unmanned at h
    rw [hsame.1, hsame.2] at h
    exact h

theorem run_unmanned {es : List Event} (h : (run (step program) {} es).Unmanned) :
    .main false true ∈ es := by
  induction es using List.reverseRecOn with
  | nil => simp [Unmanned] at h
  | append_singleton es e ih =>
    rw [run_concat] at h
    rcases h.step with hbefore | hlast
    · exact List.mem_append_left [e] (ih hbefore)
    · rw [hlast]
      exact List.mem_concat_self

/-- Between two controls the state that has been told is the one asked for last, and the worker has
been suspended as often as it was paused and not resumed, up to the limit. It does not leave its loop
before it has been told to stop. A service that runs without a worker is one whose `CreateThread` has
failed. -/
theorem run_controls (program : Program) (es : List Event) :
    let s := run (step program) {} es
    (s.main = .waiting → s.handler = .idle → .stop ∉ s.controls →
      s.dwCurrState = requested s.controls ∧
        (s.hThread = true → s.suspendCount = suspensions s.controls)) ∧
    (.stop ∉ s.controls → s.worker = .absent ∨ s.worker = .looping) ∧
    (s.main = .waiting → s.hThread = false → s.worker = .absent ∧ .main false true ∈ es) := by
  intro s
  cases run_sound program es with
  | inl h =>
    exact ⟨fun hwaiting => absurd hwaiting h.notWaiting.1, fun _ => h.notWaiting.2,
      fun hwaiting => absurd hwaiting h.notWaiting.1⟩
  | inr h =>
    refine ⟨fun _ hidle hstop => h.between hidle hstop, ?_, ?_⟩
    · intro hstop
      rcases h.looping_or_stop with habsent | hlooping | hmem
      · exact .inl habsent
      · exact .inr hlooping
      · exact absurd hmem hstop
    · exact fun hwaiting hthread => ⟨h.absent hthread, run_unmanned (.inr ⟨hthread, .inr hwaiting⟩)⟩

/-- The state that has been told between two controls is that of the worker, as long as there is a
worker and no service is paused that is paused already: one that was paused twice still stands when it
is told to run. -/
theorem run_truthful (program : Program) (es : List Event)
    (h : AtEach (fun past c => c = .pause → requested past = .running)
      (run (step program) {} es).controls) :
    let s := run (step program) {} es
    s.main = .waiting → s.hThread = true → s.handler = .idle → .stop ∉ s.controls →
      (s.dwCurrState = .running ∧ s.suspendCount = 0) ∨
        (s.dwCurrState = .paused ∧ s.suspendCount = 1) := by
  intro s hmain hthread hidle hstop
  cases run_sound program es with
  | inl hearly =>
    exact absurd hmain hearly.notWaiting.1
  | inr hstarted =>
    obtain ⟨hstate, hcount⟩ := hstarted.between hidle hstop
    rw [hstate, hcount hthread]
    exact suspensions_of_paused_once h

theorem run_truthful_paused :
    let start := List.replicate 8 (.main true false)
    let es := start ++ [.control .pause, .handler false, .handler false, .handler false]
    (run (step .trapHandler) {} es).suspendCount = 1 := by
  intro start es
  have h := run_truthful .trapHandler es
    (atEach_cons.mpr ⟨fun _ => rfl, atEach_nil⟩) rfl rfl rfl (by decide)
  rcases h with ⟨hstate, _⟩ | ⟨_, hcount⟩
  · cases hstate
  · exact hcount

/-- A service that has been started and is reported to be stopped has been told to stop, and the wait
for its worker is over. It has timed out where the worker was suspended, and for the correlator in any
case: the event that its worker waits for is signalled only behind the wait. -/
theorem run_stopped (program : Program) (es : List Event) :
    let s := run (step program) {} es
    s.dwCurrState ≠ .stopped ∨ s.hThread = false ∨
      (.stop ∈ s.controls ∧ s.bDoShutdown = true ∧ s.hQuitEvent = true ∧
        (s.worker = .finished ∨ s.timedOut = true) ∧
        (s.suspendCount ≠ 0 → s.timedOut = true ∧ s.worker = .looping) ∧
        (program = .correlator → s.timedOut = true)) := by
  intro s
  by_cases hstopped : s.dwCurrState = .stopped
  · right
    have hidle : s.handler = .idle := run_quiet program es hstopped
    cases run_sound program es with
    | inl h =>
      left
      rcases h.threads with ⟨_, hthread, _⟩ | ⟨_, hthread, _⟩ | ⟨_, _, hmain⟩
      · exact hthread
      · exact hthread
      · have htold := h.told hstopped
        simp [hmain] at htold
    | inr h =>
      cases hthread : s.hThread with
      | false => exact .inl rfl
      | true =>
        right
        have hphase : InPhase program s s.handler := h.phase
        rw [hidle] at hphase
        rcases hphase with ⟨_, hstate⟩ | ⟨hended, hquit, _⟩
        · have hrequested := requested_cases s.controls
          simp [← hstate, hstopped] at hrequested
        · have hwaited : s.worker = .finished ∨ s.timedOut = true := by
            simpa [hthread] using hended.waited
          refine ⟨hended.stop, hended.bDoShutdown, hquit, hwaited, ?_, hended.timedOut hthread⟩
          intro hcount
          have hlooping := hended.suspended hthread hcount
          refine ⟨?_, hlooping⟩
          cases hwaited with
          | inl hfinished =>
            rw [hlooping] at hfinished
            cases hfinished
          | inr htimeout => exact htimeout
  · exact .inl hstopped

/-- Once its worker has been told to quit a service takes no more controls. Two turns of the worker
end it whatever the others do, except that one that is suspended never leaves its loop. -/
theorem run_quits (program : Program) (es es' : List Event)
    (h : quits program (run (step program) {} es) = true) :
    let s := run (step program) {} es
    let s' := run (step program) s es'
    s'.controls = s.controls ∧ (s.hThread = false → s'.worker = .absent) ∧
      (s.hThread = true → suspensions s.controls = 0 → 2 ≤ es'.count .worker →
        s'.worker = .finished) ∧
      (s.hThread = true → suspensions s.controls ≠ 0 → s'.worker = .looping) := by
  intro s s'
  have htold : Told program s := by
    cases run_sound program es with
    | inl hearly =>
      rw [not_quits hearly.bDoShutdown hearly.hQuitEvent] at h
      cases h
    | inr hstarted => exact ⟨hstarted, h⟩
  obtain ⟨htold', hcontrols, hsame⟩ := htold.runKeeps es'
  refine ⟨hcontrols, ?_, ?_, ?_⟩
  · exact fun hnone => htold'.started.absent (hsame.trans hnone)
  · intro hthread hcount hturns
    have hle := htold.turns hthread hcount es'
    rw [min_eq_left hturns] at hle
    exact eq_finished hle
  · intro hthread hcount
    have hstopping := htold'.stopping.1
    have hthread' : s'.hThread = true := hsame.trans hthread
    apply hstopping.suspended hthread'
    rw [hstopping.suspendCount hthread', hcontrols]
    exact hcount

/-- The correlator is paused twice, resumed once and stopped. -/
theorem run_quits_paused :
    let start := List.replicate 8 (.main true false)
    let es := start ++ [.control .pause, .handler false, .handler false, .handler false,
      .control .pause, .handler false, .handler false, .handler false,
      .control .resume, .handler false, .handler false, .handler false,
      .control .stop, .handler false, .handler false, .handler true, .handler true]
    (run (step .correlator) (run (step .correlator) {} es) [.worker, .worker]).worker =
      .looping := by
  intro start es
  have h := run_quits .correlator es [.worker, .worker] (by decide)
  exact h.2.2.2 rfl (by decide)

end Service

end ServiceControl

end TrapHandler
