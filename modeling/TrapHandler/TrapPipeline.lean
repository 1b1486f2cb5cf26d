import TrapHandler.Acknowledgement
import TrapHandler.AgentEventFactory
import TrapHandler.CommandQueue
import TrapHandler.Listener
import TrapHandler.Timers
import TrapHandler.VarbindProgress

/-!
# From the socket to the timers

`ListenerFn` and `HandlerMainFn` run in two threads that share the queue of received packets and the
listening socket. A step is what one of them does up to its next use of these, and the answers of the
system to the calls it makes are part of the step. The application records the packets it has taken
from the queue, those it has deleted, and the acknowledgements it has sent.
-/

namespace TrapHandler

open Runs

/-- What a call of `Decode` finds in memory that nothing has written, which accesses the system lets
pass, and where it makes the OID. -/
structure Surroundings where
  uninit : UInt32
  raw : CSnmpTrap
  behind : ByteReader.Memory
  permitted : ByteReader.Access → Bool
  address : ℕ

namespace Surroundings

/-- No access ends the process: no byte is loaded from where there is none, and no request for memory
is refused. -/
def survives (w : Surroundings) (platform : Platform) (packet : SSnmpPacket) : Bool :=
  (packet.decode platform w.uninit w.raw w.behind).accesses.all w.permitted

/-- A call that ends the process is a fault, whether by a load through the null pointer or not. -/
def decode (w : Surroundings) (platform : Platform) (packet : SSnmpPacket) :
    ByteReader.Outcome CSnmpTrap :=
  if w.survives platform packet then (packet.decode platform w.uninit w.raw w.behind).outcome
  else .fault

def acknowledge (w : Surroundings) (platform : Platform) (packet : SSnmpPacket) : Option SendTo :=
  if w.survives platform packet then
    (packet.acknowledge platform w.uninit w.raw w.behind).map Prod.snd
  else none

end Surroundings

/-- The return value of a `ParseTrap` that ends without a return statement, and the time
`TouchTimer` reads. -/
structure Handling where
  unreturned : Bool
  ftNow : UInt64

namespace EventClass

def parseTrap (snmpTrap : CSnmpTrap) : EventClass → Option (Option Bool × AgentEvent)
  | diskMetric => (DiskMetricEvent.parseTrap {} snmpTrap).map fun r =>
      (r.returned, r.event.toAgentEvent)
  | processFail => (ProcessFailEvent.parseTrap {} snmpTrap).map fun r =>
      (r.returned, r.event.toAgentEvent)
  | serviceFail => (ServiceFailEvent.parseTrap {} snmpTrap).map fun r =>
      (r.returned, r.event.toAgentEvent)
  | clusterFail => (ClusterFailEvent.parseTrap {} snmpTrap).map fun r =>
      (r.returned, r.event.toAgentEvent)
  | startMaintenance => (StartMaintenanceEvent.parseTrap {} snmpTrap).map fun r =>
      (r.returned, r.event.toAgentEvent)
  | error => (ErrorEvent.parseTrap {} snmpTrap).map fun r => (r.returned, r.event.toAgentEvent)
  | hello => (HelloEvent.parseTrap {} snmpTrap).map fun r => (r.returned, r.event.toAgentEvent)
  | goodbye => (GoodbyeEvent.parseTrap {} snmpTrap).map fun r => (r.returned, r.event.toAgentEvent)
  | generic => some (some false, {})

/-- The overrides of `ProcessTrap` return a command that they have put nothing into. -/
def processTrap : EventClass → WStr := fun _ => []

end EventClass

inductive ListenerPhase where
  | receiving
  | storing (datagram : Option Datagram)
  | counting
  | returned

inductive MainPhase where
  | looping
  | processingTraps (now : UInt64)
  | shuttingDown
  | returned
  | crashed
  deriving DecidableEq

structure App (platform : Platform) where
  listener : Listener
  listenerPhase : ListenerPhase
  socketOpen : Bool
  received : List RecvResult
  mainPhase : MainPhase
  handler : Handler
  cmdQueue : CmdQueue platform
  acks : List SendTo
  processed : List (SSnmpPacket × Surroundings)
  dropped : List SSnmpPacket
  deleted : List SSnmpPacket

structure Answers where
  quit : Bool
  now : UInt64
  surroundings : Surroundings
  handling : Handling
  getCmdState : ℕ → UInt32
  sweepTime : UInt64
  runCmd : ℕ → Int32

inductive AppEvent where
  | listener (datagram : Option Datagram) (ftNow : UInt64)
  | main (answers : Answers)

def AppEvent.isMain : AppEvent → Bool
  | .main _ => true
  | .listener _ _ => false

namespace App

variable {platform : Platform}

/-- `sockBuf` and the address of the sender are as the thread finds them. -/
def init (sockBuf : ByteReader.Memory) (senderAddr : SockAddrIn) : App platform where
  listener := { sockBuf, senderAddr, nRecv := 1, pQueue := [], nReceivedTraps := 0 }
  listenerPhase := .receiving
  socketOpen := true
  received := []
  mainPhase := .looping
  handler := Handler.init
  cmdQueue := {}
  acks := []
  processed := []
  dropped := []
  deleted := []

/-- The loop test and `recvfrom`, which fails once the socket has been closed, then the packet that is
queued, and then the count. -/
def listenerStep (datagram : Option Datagram) (ftNow : UInt64) (s : App platform) : App platform :=
  match s.listenerPhase with
  | .receiving =>
    if s.listener.nRecv > 0 then
      let datagram := if s.socketOpen then datagram else none
      { s with
        listener := s.listener.recvfrom datagram
        listenerPhase := .storing datagram }
    else { s with listenerPhase := .returned }
  | .storing datagram =>
    let received := s.received ++ [⟨datagram, ftNow⟩]
    if h : 0 < s.listener.nRecv ∧ s.listener.nRecv < sizeofSockBuf then
      { s with listener := s.listener.push ftNow h, listenerPhase := .counting, received }
    else { s with listenerPhase := .receiving, received }
  | .counting =>
    { s with listener := s.listener.interlockedIncrement, listenerPhase := .receiving }
  | .returned => s

variable (timerKey : WStr → WStr → TimerType → WStr)
  (TIMERDURATIONSECS : { secs : Int32 // 0 ≤ secs.toInt }) (MAXCONCURRENTCMDS : CommandLimit)

/-- `pQueue.try_pop` -/
def tryPop (s : App platform) : Option (SSnmpPacket × App platform) :=
  match s.listener.pQueue with
  | newPacket :: pQueue => some (newPacket, { s with listener := { s.listener with pQueue } })
  | [] => none

def delete (packet : SSnmpPacket) (s : App platform) : App platform :=
  { s with deleted := s.deleted ++ [packet] }

/-- What follows `ParseTrap`: an event that has been read is not deleted, nor is its packet. -/
def handleEvent (class_ : EventClass) (event : AgentEvent) (ftNow : UInt64) (s : App platform) :
    App platform :=
  { s with
    cmdQueue := s.cmdQueue.queueCommand class_.processTrap
    handler := s.handler.touch timerKey
      { hostname := event.hostname
        platformId := event.platformId
        durationSecs := TIMERDURATIONSECS.1
        type := .heartBeatExpired
        ftNow
        nonneg := TIMERDURATIONSECS.2 } }

/-- The body of the loop of `processTraps`. -/
def processPacket (w : Surroundings) (r : Handling) (packet : SSnmpPacket) (s : App platform) :
    App platform :=
  let s := { s with processed := s.processed ++ [(packet, w)] }
  match w.decode platform packet with
  | .ok snmpTrap _ =>
    let s := { s with acks := s.acks ++ (w.acknowledge platform packet).toList }
    let (known, newEvent) := getEventFromTrap (snmpTrap.trapOidPtr w.address)
    if known then
      match newEvent.parseTrap snmpTrap with
      | some (returned, event) =>
        if returned.getD r.unreturned then
          s.handleEvent timerKey TIMERDURATIONSECS newEvent event r.ftNow
        else s.delete packet
      | none => { s with mainPhase := .crashed }
    else s.delete packet
  | .reject => s.delete packet
  | .fault => { s with mainPhase := .crashed }
  -- `Decode` does not loop forever
  | .timeout => s

/-- The rest of an iteration, which no other thread has a part in. -/
def finishIteration (answers : Answers) (now : UInt64) (s : App platform) : App platform :=
  let cmdQueue := (s.cmdQueue.processCommands answers.getCmdState).1
  let expired := (sweep now s.handler.timers.timers).2
  let cmdQueue := expired.foldl (fun q timer => q.queueCommand timer.expiryCommand) cmdQueue
  { s with
    handler := s.handler.checkTimers now answers.sweepTime
    cmdQueue := (cmdQueue.processQueue MAXCONCURRENTCMDS answers.runCmd).1
    mainPhase := .looping }

/-- The main thread closes the socket on its way out, and then empties the queue. -/
def mainStep (answers : Answers) (s : App platform) : App platform :=
  match s.mainPhase with
  | .looping =>
    if answers.quit then { s with socketOpen := false, mainPhase := .shuttingDown }
    else { s with mainPhase := .processingTraps answers.now }
  | .processingTraps now =>
    match s.tryPop with
    | some (newPacket, s) =>
      s.processPacket timerKey TIMERDURATIONSECS answers.surroundings answers.handling newPacket
    | none => s.finishIteration MAXCONCURRENTCMDS answers now
  | .shuttingDown =>
    match s.tryPop with
    | some (newPacket, s) => { s with dropped := s.dropped ++ [newPacket] }.delete newPacket
    | none => { s with mainPhase := .returned }
  | .returned => s
  | .crashed => s

/-- Once the process has crashed neither thread does anything. -/
def step (s : App platform) (e : AppEvent) : App platform :=
  if s.mainPhase = .crashed then s
  else
    match e with
    | .listener datagram ftNow => s.listenerStep datagram ftNow
    | .main answers => s.mainStep timerKey TIMERDURATIONSECS MAXCONCURRENTCMDS answers

section Steps

variable {timerKey TIMERDURATIONSECS MAXCONCURRENTCMDS} {s : App platform} {w : Surroundings}
  {packet : SSnmpPacket}

theorem acknowledge_eq_none
    (h : ∀ snmpTrap c, w.decode platform packet ≠ .ok snmpTrap c) :
    w.acknowledge platform packet = none := by
  unfold Surroundings.acknowledge
  by_cases hsurvives : w.survives platform packet = true
  · have hdecode : w.decode platform packet =
        (packet.decode platform w.uninit w.raw w.behind).outcome := if_pos hsurvives
    rw [hdecode] at h
    have hnone : packet.acknowledge platform w.uninit w.raw w.behind = none := by
      unfold SSnmpPacket.acknowledge
      dsimp only
      split
      · rename_i snmpTrap c hok
        exact absurd hok (h snmpTrap c)
      · rfl
    rw [if_pos hsurvives, hnone]
    rfl
  · rw [if_neg hsurvives]

theorem decode_ne_timeout (w : Surroundings) (packet : SSnmpPacket) :
    w.decode platform packet ≠ .timeout := by
  unfold Surroundings.decode
  by_cases hsurvives : w.survives platform packet = true
  · rw [if_pos hsurvives]
    exact ends_decode platform w.uninit _ _ _
  · rw [if_neg hsurvives]
    intro hfault
    cases hfault

/-- The factory knows the event of no packet, so each one is deleted that the process survives. -/
theorem processPacket_cases (w : Surroundings) (r : Handling) (packet : SSnmpPacket)
    (s : App platform) :
    (w.decode platform packet = .fault ∧
      s.processPacket timerKey TIMERDURATIONSECS w r packet =
        { s with processed := s.processed ++ [(packet, w)], mainPhase := .crashed }) ∨
    (w.decode platform packet ≠ .fault ∧
      s.processPacket timerKey TIMERDURATIONSECS w r packet =
        { s with
          processed := s.processed ++ [(packet, w)]
          acks := s.acks ++ (w.acknowledge platform packet).toList
          deleted := s.deleted ++ [packet] }) := by
  unfold processPacket
  cases hdecode : w.decode platform packet with
  | ok snmpTrap c =>
    right
    refine ⟨by simp, ?_⟩
    dsimp only
    rw [getEventFromTrap_trapOidPtr]
    rfl
  | reject =>
    right
    have hnone : w.acknowledge platform packet = none := by
      apply acknowledge_eq_none
      intro snmpTrap c hok
      rw [hdecode] at hok
      cases hok
    refine ⟨by simp, ?_⟩
    rw [hnone, Option.toList_none, List.append_nil]
    rfl
  | fault => exact .inl ⟨rfl, rfl⟩
  | timeout => exact absurd hdecode (decode_ne_timeout w packet)

theorem finishIteration_of_idle (answers : Answers) (now : UInt64)
    (htimers : s.handler.timers.timers = []) (hcmdQueue : s.cmdQueue = {}) :
    s.finishIteration MAXCONCURRENTCMDS answers now = { s with mainPhase := .looping } := by
  obtain ⟨listener, listenerPhase, socketOpen, received, mainPhase, ⟨⟨timers, distinct⟩, log⟩,
    cmdQueue, acks, processed, dropped, deleted⟩ := s
  cases htimers
  cases hcmdQueue
  unfold finishIteration Handler.checkTimers
  simp only [sweep, List.map_nil, List.append_nil, List.foldl_nil]
  rfl

structure Idle (s : App platform) : Prop where
  timers : s.handler.timers.timers = []
  log : s.handler.log = []
  cmdQueue : s.cmdQueue = {}

def MainPhase.Loops : MainPhase → Prop
  | .looping => True
  | .processingTraps _ => True
  | _ => False

theorem MainPhase.Loops.ne_crashed {mainPhase : MainPhase} (h : MainPhase.Loops mainPhase) :
    mainPhase ≠ .crashed := by
  rintro rfl
  exact h

inductive Moves (s : App platform) : App platform → Prop
  | stays : Moves s s
  | receives (datagram : Option Datagram) (hphase : s.listenerPhase = .receiving)
      (hrecv : s.listener.nRecv > 0) (hopen : s.socketOpen = false → datagram = none) :
      Moves s { s with
        listener := s.listener.recvfrom datagram
        listenerPhase := .storing datagram }
  | stores (datagram : Option Datagram) (ftNow : UInt64)
      (hphase : s.listenerPhase = .storing datagram)
      (hsize : 0 < s.listener.nRecv ∧ s.listener.nRecv < sizeofSockBuf) :
      Moves s { s with
        listener := s.listener.push ftNow hsize
        listenerPhase := .counting
        received := s.received ++ [⟨datagram, ftNow⟩] }
  | skips (datagram : Option Datagram) (ftNow : UInt64)
      (hphase : s.listenerPhase = .storing datagram)
      (hsize : ¬ (0 < s.listener.nRecv ∧ s.listener.nRecv < sizeofSockBuf)) :
      Moves s { s with
        listenerPhase := .receiving
        received := s.received ++ [⟨datagram, ftNow⟩] }
  | counts (hphase : s.listenerPhase = .counting) :
      Moves s { s with
        listener := s.listener.interlockedIncrement
        listenerPhase := .receiving }
  | listenerReturns (hphase : s.listenerPhase = .receiving) (hrecv : ¬ s.listener.nRecv > 0) :
      Moves s { s with listenerPhase := .returned }
  | loops (mainPhase : MainPhase) (hphase : MainPhase.Loops s.mainPhase)
      (hnext : MainPhase.Loops mainPhase) : Moves s { s with mainPhase }
  | processes (w : Surroundings) (newPacket : SSnmpPacket) (pQueue : List SSnmpPacket)
      (hphase : MainPhase.Loops s.mainPhase) (hqueue : s.listener.pQueue = newPacket :: pQueue)
      (hdecode : w.decode platform newPacket ≠ .fault) :
      Moves s { s with
        listener := { s.listener with pQueue }
        processed := s.processed ++ [(newPacket, w)]
        acks := s.acks ++ (w.acknowledge platform newPacket).toList
        deleted := s.deleted ++ [newPacket] }
  | crashes (w : Surroundings) (newPacket : SSnmpPacket) (pQueue : List SSnmpPacket)
      (hphase : MainPhase.Loops s.mainPhase) (hqueue : s.listener.pQueue = newPacket :: pQueue)
      (hdecode : w.decode platform newPacket = .fault) :
      Moves s { s with
        listener := { s.listener with pQueue }
        processed := s.processed ++ [(newPacket, w)]
        mainPhase := .crashed }
  | closes (hphase : MainPhase.Loops s.mainPhase) :
      Moves s { s with socketOpen := false, mainPhase := .shuttingDown }
  | drops (newPacket : SSnmpPacket) (pQueue : List SSnmpPacket)
      (hphase : s.mainPhase = .shuttingDown) (hqueue : s.listener.pQueue = newPacket :: pQueue) :
      Moves s { s with
        listener := { s.listener with pQueue }
        dropped := s.dropped ++ [newPacket]
        deleted := s.deleted ++ [newPacket] }
  | mainReturns (hphase : s.mainPhase = .shuttingDown) (hqueue : s.listener.pQueue = []) :
      Moves s { s with mainPhase := .returned }

theorem tryPop_cases (s : App platform) :
    (s.listener.pQueue = [] ∧ s.tryPop = none) ∨
    ∃ newPacket pQueue, s.listener.pQueue = newPacket :: pQueue ∧
      s.tryPop = some (newPacket, { s with listener := { s.listener with pQueue } }) := by
  unfold tryPop
  cases s.listener.pQueue with
  | nil => exact .inl ⟨rfl, rfl⟩
  | cons newPacket pQueue => exact .inr ⟨newPacket, pQueue, rfl, rfl⟩

theorem listenerStep_moves (datagram : Option Datagram) (ftNow : UInt64) (s : App platform) :
    Moves s (s.listenerStep datagram ftNow) := by
  unfold listenerStep
  cases hphase : s.listenerPhase with
  | receiving =>
    dsimp only
    by_cases hrecv : s.listener.nRecv > 0
    · rw [if_pos hrecv]
      apply Moves.receives _ hphase hrecv
      intro hclosed
      rw [hclosed]
      rfl
    · rw [if_neg hrecv]
      exact Moves.listenerReturns hphase hrecv
  | storing datagram =>
    dsimp only
    by_cases hsize : 0 < s.listener.nRecv ∧ s.listener.nRecv < sizeofSockBuf
    · rw [dif_pos hsize]
      exact Moves.stores datagram ftNow hphase hsize
    · rw [dif_neg hsize]
      exact Moves.skips datagram ftNow hphase hsize
  | counting => exact Moves.counts hphase
  | returned => exact Moves.stays

theorem mainStep_moves (h : Idle s) (answers : Answers) :
    Moves s (s.mainStep timerKey TIMERDURATIONSECS MAXCONCURRENTCMDS answers) := by
  unfold mainStep
  cases hphase : s.mainPhase with
  | looping =>
    have hloops : MainPhase.Loops s.mainPhase := hphase ▸ trivial
    dsimp only
    by_cases hquit : answers.quit = true
    · rw [if_pos hquit]
      exact Moves.closes hloops
    · rw [if_neg hquit]
      exact Moves.loops _ hloops trivial
  | processingTraps now =>
    have hloops : MainPhase.Loops s.mainPhase := hphase ▸ trivial
    rcases s.tryPop_cases with ⟨hqueue, hpop⟩ | ⟨newPacket, pQueue, hqueue, hpop⟩
    · rw [hpop]
      dsimp only
      rw [finishIteration_of_idle answers now h.timers h.cmdQueue]
      exact Moves.loops _ hloops trivial
    · rw [hpop]
      dsimp only
      rcases processPacket_cases answers.surroundings answers.handling newPacket
          { s with listener := { s.listener with pQueue } } with ⟨hdecode, heq⟩ | ⟨hdecode, heq⟩
      · rw [heq]
        exact Moves.crashes _ newPacket pQueue hloops hqueue hdecode
      · rw [heq]
        exact Moves.processes _ newPacket pQueue hloops hqueue hdecode
  | shuttingDown =>
    rcases s.tryPop_cases with ⟨hqueue, hpop⟩ | ⟨newPacket, pQueue, hqueue, hpop⟩
    · rw [hpop]
      exact Moves.mainReturns hphase hqueue
    · rw [hpop]
      exact Moves.drops newPacket pQueue hphase hqueue
  | returned => exact Moves.stays
  | crashed => exact Moves.stays

theorem step_moves (h : Idle s) (e : AppEvent) :
    Moves s (step timerKey TIMERDURATIONSECS MAXCONCURRENTCMDS s e) := by
  unfold step
  by_cases hcrashed : s.mainPhase = .crashed
  · rw [if_pos hcrashed]
    exact Moves.stays
  · rw [if_neg hcrashed]
    cases e with
    | listener datagram ftNow => exact listenerStep_moves datagram ftNow s
    | main answers => exact mainStep_moves h answers

theorem Idle.moves {s' : App platform} (h : Idle s) (hmove : Moves s s') : Idle s' := by
  cases hmove <;> exact ⟨h.timers, h.log, h.cmdQueue⟩

theorem run_induction {sockBuf : ByteReader.Memory} {senderAddr : SockAddrIn}
    {P : App platform → Prop} (hinit : P (init sockBuf senderAddr))
    (hmoves : ∀ s s', P s → Moves s s' → P s') (es : List AppEvent) :
    Idle (run (step timerKey TIMERDURATIONSECS MAXCONCURRENTCMDS)
        (init sockBuf senderAddr : App platform) es) ∧
      P (run (step timerKey TIMERDURATIONSECS MAXCONCURRENTCMDS)
        (init sockBuf senderAddr : App platform) es) := by
  apply invariant (I := fun s => Idle s ∧ P s)
  · exact ⟨⟨rfl, rfl, rfl⟩, hinit⟩
  · rintro s e ⟨hidle, hP⟩
    have hmove := @step_moves _ timerKey TIMERDURATIONSECS MAXCONCURRENTCMDS s hidle e
    exact ⟨hidle.moves hmove, hmoves s _ hP hmove⟩

end Steps

/-- The packets that are to be queued for some results of `recvfrom`. -/
def toQueue (results : List RecvResult) : List SSnmpPacket :=
  (arrivals results).filter fun packet => packet.buf ≠ []

theorem arrivals_append {results : List RecvResult} (h : ∀ r ∈ results, r.datagram ≠ none)
    (rest : List RecvResult) : arrivals (results ++ rest) = arrivals results ++ arrivals rest := by
  induction results with
  | nil => rfl
  | cons r results ih =>
    obtain ⟨hr, hresults⟩ := List.forall_mem_cons.mp h
    obtain ⟨datagram, ftNow⟩ := r
    cases datagram with
    | none => exact absurd rfl hr
    | some d =>
      rw [List.cons_append, arrivals, arrivals, ih hresults, List.cons_append]

theorem toQueue_concat {results : List RecvResult} (h : ∀ r ∈ results, r.datagram ≠ none)
    (r : RecvResult) : toQueue (results ++ [r]) = toQueue results ++ toQueue [r] := by
  rw [toQueue, arrivals_append h, List.filter_append, toQueue, toQueue]

theorem receive_toQueue (l : Listener) (r : RecvResult) :
    (l.receive r).pQueue = l.pQueue ++ toQueue [r] ∧
      (l.receive r).nReceivedTraps = l.nReceivedTraps + Int32.ofNat (toQueue [r]).length ∧
      (r.datagram = none → (l.receive r).nRecv ≤ 0) := by
  obtain ⟨datagram, ftNow⟩ := r
  cases datagram with
  | none =>
    rw [Listener.receive_error]
    refine ⟨(List.append_nil _).symm, (Int32.add_zero _).symm, ?_⟩
    intro _
    change (-1 : ℤ) ≤ 0
    decide
  | some d =>
    by_cases hd : d.bytes = []
    · have hempty : toQueue [⟨some d, ftNow⟩] = [] := by
        simp [toQueue, arrivals, Datagram.packet, hd]
      have hskip : l.receive ⟨some d, ftNow⟩ = l.recvfrom (some d) := by
        have hneg : ¬ (0 < (l.recvfrom (some d)).nRecv ∧
            (l.recvfrom (some d)).nRecv < sizeofSockBuf) := by
          simp [Listener.recvfrom, hd]
        rw [Listener.receive, Listener.enqueue, dif_neg hneg]
      rw [hempty, hskip]
      refine ⟨(List.append_nil _).symm, (Int32.add_zero _).symm, ?_⟩
      intro hnone
      cases hnone
    · have hone : toQueue [⟨some d, ftNow⟩] = [d.packet ftNow] := by
        simp [toQueue, arrivals, Datagram.packet, hd]
      obtain ⟨_, hqueue, hcount⟩ := Listener.receive_datagram l ftNow hd
      rw [hone]
      refine ⟨hqueue, hcount, ?_⟩
      intro hnone
      cases hnone

def taken (s : App platform) : List SSnmpPacket := s.processed.map Prod.fst ++ s.dropped

/-- The packets that the listener has queued and not yet counted. -/
def uncounted (s : App platform) : ℕ :=
  match s.listenerPhase with
  | .counting => 1
  | _ => 0

/-- The packets received are those the main thread has taken and those in the queue. -/
structure InOrder (s : App platform) : Prop where
  order : s.taken ++ s.listener.pQueue = toQueue s.received
  counted : s.listener.nReceivedTraps + Int32.ofNat s.uncounted =
    Int32.ofNat (toQueue s.received).length
  ended : ∀ r ∈ s.received, r.datagram = none →
    s.listener.nRecv ≤ 0 ∧ ∀ datagram, s.listenerPhase ≠ .storing datagram
  buffered : ∀ datagram, s.listenerPhase = .storing datagram →
    ∃ l : Listener, s.listener = l.recvfrom datagram
  undropped : s.socketOpen = true → s.dropped = []
  closed : s.mainPhase = .shuttingDown ∨ s.mainPhase = .returned ↔ s.socketOpen = false

variable {s s' : App platform} {newPacket : SSnmpPacket} {pQueue : List SSnmpPacket}

theorem InOrder.undropped_of_loops (h : InOrder s) (hphase : MainPhase.Loops s.mainPhase) :
    s.socketOpen = true ∧ s.dropped = [] := by
  have hopen : s.socketOpen = true := by
    by_contra hclosed
    rcases h.closed.mpr (Bool.eq_false_iff.mpr hclosed) with hdown | hreturned
    · rw [hdown] at hphase
      exact hphase
    · rw [hreturned] at hphase
      exact hphase
  exact ⟨hopen, h.undropped hopen⟩

theorem InOrder.order_tryPop (h : InOrder s) (hqueue : s.listener.pQueue = newPacket :: pQueue) :
    s.taken ++ newPacket :: pQueue = toQueue s.received := by
  rw [← hqueue]
  exact h.order

theorem InOrder.buffered_tryPop (h : InOrder s) (pQueue : List SSnmpPacket)
    (datagram : Option Datagram) (hphase : s.listenerPhase = .storing datagram) :
    ∃ l : Listener, { s.listener with pQueue } = l.recvfrom datagram := by
  obtain ⟨l, hl⟩ := h.buffered datagram hphase
  refine ⟨{ l with pQueue }, ?_⟩
  rw [hl]
  cases datagram <;> rfl

theorem InOrder.receives (h : InOrder s) (datagram : Option Datagram)
    (hphase : s.listenerPhase = .receiving) (hrecv : s.listener.nRecv > 0) :
    InOrder { s with
      listener := s.listener.recvfrom datagram
      listenerPhase := .storing datagram } := by
  have hcounted := h.counted
  unfold uncounted at hcounted
  rw [hphase] at hcounted
  refine ⟨?_, ?_, ?_, ?_, h.undropped, h.closed⟩
  · cases datagram <;> exact h.order
  · cases datagram <;> exact hcounted
  · intro r hr hdatagram
    have hle := (h.ended r hr hdatagram).1
    omega
  · intro d hd
    cases hd
    exact ⟨s.listener, rfl⟩

theorem InOrder.enqueued (h : InOrder s) {datagram : Option Datagram} (ftNow : UInt64)
    (hphase : s.listenerPhase = .storing datagram) :
    (s.listener.enqueue ftNow).pQueue = s.listener.pQueue ++ toQueue [⟨datagram, ftNow⟩] ∧
      (s.listener.enqueue ftNow).nReceivedTraps =
        s.listener.nReceivedTraps + Int32.ofNat (toQueue [⟨datagram, ftNow⟩]).length ∧
      (datagram = none → (s.listener.enqueue ftNow).nRecv ≤ 0) := by
  obtain ⟨l, hl⟩ := h.buffered datagram hphase
  have hkept : s.listener.pQueue = l.pQueue ∧ s.listener.nReceivedTraps = l.nReceivedTraps := by
    rw [hl]
    cases datagram <;> exact ⟨rfl, rfl⟩
  have heq : s.listener.enqueue ftNow = l.receive ⟨datagram, ftNow⟩ := by
    rw [hl]
    rfl
  rw [heq, hkept.1, hkept.2]
  exact receive_toQueue l ⟨datagram, ftNow⟩

theorem InOrder.received_concat (h : InOrder s) {datagram : Option Datagram} (ftNow : UInt64)
    (hphase : s.listenerPhase = .storing datagram) :
    toQueue (s.received ++ [⟨datagram, ftNow⟩]) =
      toQueue s.received ++ toQueue [⟨datagram, ftNow⟩] := by
  apply toQueue_concat
  intro r hr hdatagram
  exact (h.ended r hr hdatagram).2 datagram hphase

theorem InOrder.stores (h : InOrder s) (datagram : Option Datagram) (ftNow : UInt64)
    (hphase : s.listenerPhase = .storing datagram)
    (hsize : 0 < s.listener.nRecv ∧ s.listener.nRecv < sizeofSockBuf) :
    InOrder { s with
      listener := s.listener.push ftNow hsize
      listenerPhase := .counting
      received := s.received ++ [⟨datagram, ftNow⟩] } := by
  have heq : s.listener.enqueue ftNow = (s.listener.push ftNow hsize).interlockedIncrement :=
    dif_pos hsize
  obtain ⟨hstored, hcount, herror⟩ := h.enqueued ftNow hphase
  rw [heq] at hstored hcount herror
  have hqueue : (s.listener.push ftNow hsize).pQueue =
      s.listener.pQueue ++ toQueue [⟨datagram, ftNow⟩] := hstored
  have huncounted : s.listener.nReceivedTraps = Int32.ofNat (toQueue s.received).length := by
    have hcounted := h.counted
    unfold uncounted at hcounted
    rw [hphase] at hcounted
    exact (Int32.add_zero _).symm.trans hcounted
  refine ⟨?_, ?_, ?_, ?_, h.undropped, h.closed⟩
  · dsimp only
    rw [h.received_concat ftNow hphase, ← h.order, hqueue, List.append_assoc]
    rfl
  · dsimp only
    rw [h.received_concat ftNow hphase, List.length_append, Int32.ofNat_add, ← huncounted]
    exact hcount
  · intro r hr hdatagram
    rcases List.mem_append.mp hr with hr | hr
    · exact absurd hphase ((h.ended r hr hdatagram).2 datagram)
    · rw [List.mem_singleton.mp hr] at hdatagram
      have hle : s.listener.nRecv ≤ 0 := herror hdatagram
      omega
  · intro d hd
    cases hd

theorem InOrder.skips (h : InOrder s) (datagram : Option Datagram) (ftNow : UInt64)
    (hphase : s.listenerPhase = .storing datagram)
    (hsize : ¬ (0 < s.listener.nRecv ∧ s.listener.nRecv < sizeofSockBuf)) :
    InOrder { s with
      listenerPhase := .receiving
      received := s.received ++ [⟨datagram, ftNow⟩] } := by
  have heq : s.listener.enqueue ftNow = s.listener := dif_neg hsize
  obtain ⟨hstored, hcount, herror⟩ := h.enqueued ftNow hphase
  rw [heq] at hstored hcount herror
  have huncounted : s.listener.nReceivedTraps = Int32.ofNat (toQueue s.received).length := by
    have hcounted := h.counted
    unfold uncounted at hcounted
    rw [hphase] at hcounted
    exact (Int32.add_zero _).symm.trans hcounted
  refine ⟨?_, ?_, ?_, ?_, h.undropped, h.closed⟩
  · dsimp only
    rw [h.received_concat ftNow hphase, ← h.order, List.append_assoc, ← hstored]
    rfl
  · dsimp only
    rw [h.received_concat ftNow hphase, List.length_append, Int32.ofNat_add, ← huncounted, ← hcount]
    exact Int32.add_zero _
  · intro r hr hdatagram
    rcases List.mem_append.mp hr with hr | hr
    · exact absurd hphase ((h.ended r hr hdatagram).2 datagram)
    · rw [List.mem_singleton.mp hr] at hdatagram
      refine ⟨herror hdatagram, ?_⟩
      intro d hd
      cases hd
  · intro d hd
    cases hd

theorem InOrder.counts (h : InOrder s) (hphase : s.listenerPhase = .counting) :
    InOrder { s with
      listener := s.listener.interlockedIncrement
      listenerPhase := .receiving } := by
  have hcounted := h.counted
  unfold uncounted at hcounted
  rw [hphase] at hcounted
  refine ⟨h.order, (Int32.add_zero _).trans hcounted, ?_, ?_, h.undropped, h.closed⟩
  · intro r hr hdatagram
    refine ⟨(h.ended r hr hdatagram).1, ?_⟩
    intro d hd
    cases hd
  · intro d hd
    cases hd

theorem InOrder.moves (h : InOrder s) (hmove : Moves s s') : InOrder s' := by
  cases hmove with
  | stays => exact h
  | receives datagram hphase hrecv hopen => exact h.receives datagram hphase hrecv
  | stores datagram ftNow hphase hsize => exact h.stores datagram ftNow hphase hsize
  | skips datagram ftNow hphase hsize => exact h.skips datagram ftNow hphase hsize
  | counts hphase => exact h.counts hphase
  | listenerReturns hphase hrecv =>
    have hcounted := h.counted
    unfold uncounted at hcounted
    rw [hphase] at hcounted
    refine ⟨h.order, hcounted, ?_, ?_, h.undropped, h.closed⟩
    · intro r hr hdatagram
      exact ⟨(h.ended r hr hdatagram).1, by intro d hd; cases hd⟩
    · intro d hd
      cases hd
  | loops mainPhase hphase hnext =>
    obtain ⟨hopen, _⟩ := h.undropped_of_loops hphase
    refine ⟨h.order, h.counted, h.ended, h.buffered, h.undropped, ?_⟩
    cases mainPhase <;> simp_all [MainPhase.Loops]
  | processes w newPacket pQueue hphase hqueue hdecode =>
    obtain ⟨_, hdropped⟩ := h.undropped_of_loops hphase
    refine ⟨?_, h.counted, h.ended, h.buffered_tryPop pQueue, h.undropped, h.closed⟩
    rw [← h.order_tryPop hqueue]
    simp [taken, hdropped]
  | crashes w newPacket pQueue hphase hqueue hdecode =>
    obtain ⟨hopen, hdropped⟩ := h.undropped_of_loops hphase
    refine ⟨?_, h.counted, h.ended, h.buffered_tryPop pQueue, h.undropped, ?_⟩
    · rw [← h.order_tryPop hqueue]
      simp [taken, hdropped]
    · simp [hopen]
  | closes hphase =>
    refine ⟨h.order, h.counted, h.ended, h.buffered, ?_, ?_⟩
    · intro hopen
      cases hopen
    · exact iff_of_true (.inl rfl) rfl
  | drops newPacket pQueue hphase hqueue =>
    have hclosed : s.socketOpen = false := h.closed.mp (.inl hphase)
    refine ⟨?_, h.counted, h.ended, h.buffered_tryPop pQueue, ?_, h.closed⟩
    · rw [← h.order_tryPop hqueue]
      simp [taken]
    · intro hopen
      rw [hclosed] at hopen
      cases hopen
  | mainReturns hphase hqueue =>
    have hclosed : s.socketOpen = false := h.closed.mp (.inl hphase)
    exact ⟨h.order, h.counted, h.ended, h.buffered, h.undropped, iff_of_true (.inr rfl) hclosed⟩

theorem inOrder_init (sockBuf : ByteReader.Memory) (senderAddr : SockAddrIn) :
    InOrder (init sockBuf senderAddr : App platform) := by
  refine ⟨rfl, rfl, ?_, ?_, fun _ => rfl, ?_⟩
  · intro r hr
    cases hr
  · intro d hd
    cases hd
  · exact iff_of_false (by simp [init]) (by simp [init])

/-- Each packet that has been taken is deleted once, but the one the process crashes on; only
decoded packets are acknowledged. -/
structure Disposed (s : App platform) : Prop where
  deleted : s.mainPhase ≠ .crashed → s.deleted = s.taken
  crashed : s.mainPhase = .crashed →
    ∃ newPacket w, s.taken = s.deleted ++ [newPacket] ∧ (newPacket, w) ∈ s.processed ∧
      w.decode platform newPacket = .fault
  acks : s.acks = s.processed.filterMap fun p => p.2.acknowledge platform p.1

theorem Disposed.moves (h : Disposed s) (horder : InOrder s) (hmove : Moves s s') :
    Disposed s' := by
  cases hmove with
  | stays => exact h
  | receives datagram hphase hrecv hopen => exact ⟨h.deleted, h.crashed, h.acks⟩
  | stores datagram ftNow hphase hsize => exact ⟨h.deleted, h.crashed, h.acks⟩
  | skips datagram ftNow hphase hsize => exact ⟨h.deleted, h.crashed, h.acks⟩
  | counts hphase => exact ⟨h.deleted, h.crashed, h.acks⟩
  | listenerReturns hphase hrecv => exact ⟨h.deleted, h.crashed, h.acks⟩
  | loops mainPhase hphase hnext =>
    have halive := hphase.ne_crashed
    exact ⟨fun _ => h.deleted halive, fun hcrashed => absurd hcrashed hnext.ne_crashed, h.acks⟩
  | processes w newPacket pQueue hphase hqueue hdecode =>
    obtain ⟨_, hdropped⟩ := horder.undropped_of_loops hphase
    have halive := hphase.ne_crashed
    refine ⟨?_, fun hcrashed => absurd hcrashed halive, ?_⟩
    · intro _
      simp [h.deleted halive, taken, hdropped]
    · cases hack : w.acknowledge platform newPacket <;> simp [h.acks, hack]
  | crashes w newPacket pQueue hphase hqueue hdecode =>
    obtain ⟨_, hdropped⟩ := horder.undropped_of_loops hphase
    have halive := hphase.ne_crashed
    have hnone : w.acknowledge platform newPacket = none := by
      apply acknowledge_eq_none
      intro snmpTrap c hok
      rw [hdecode] at hok
      cases hok
    refine ⟨fun hne => absurd rfl hne, ?_, ?_⟩
    · intro _
      refine ⟨newPacket, w, ?_, by simp, hdecode⟩
      simp [h.deleted halive, taken, hdropped]
    · simp [h.acks, hnone]
  | closes hphase =>
    have halive := hphase.ne_crashed
    exact ⟨fun _ => h.deleted halive, fun hcrashed => (by cases hcrashed), h.acks⟩
  | drops newPacket pQueue hphase hqueue =>
    have halive : s.mainPhase ≠ .crashed := by
      rw [hphase]
      intro hcrashed
      cases hcrashed
    refine ⟨?_, fun hcrashed => absurd hcrashed halive, h.acks⟩
    intro _
    simp [h.deleted halive, taken]
  | mainReturns hphase hqueue =>
    have halive : s.mainPhase ≠ .crashed := by
      rw [hphase]
      intro hcrashed
      cases hcrashed
    exact ⟨fun _ => h.deleted halive, fun hcrashed => (by cases hcrashed), h.acks⟩

theorem disposed_init (sockBuf : ByteReader.Memory) (senderAddr : SockAddrIn) :
    Disposed (init sockBuf senderAddr : App platform) := by
  refine ⟨fun _ => rfl, ?_, rfl⟩
  intro hcrashed
  cases hcrashed

/-- The datagrams the listener has received and not yet queued. -/
def pending (s : App platform) : ℕ :=
  match s.listenerPhase with
  | .storing (some _) => 1
  | _ => 0

theorem pending_le_one (s : App platform) : s.pending ≤ 1 := by
  unfold pending
  split
  · exact le_rfl
  · exact Nat.zero_le 1

/-- What the main thread may still find in the queue after the socket has been closed. -/
def load (s : App platform) : ℕ := s.listener.pQueue.length + s.pending

theorem length_toQueue_singleton (datagram : Option Datagram) (ftNow : UInt64) :
    (toQueue [⟨datagram, ftNow⟩]).length ≤ if datagram.isSome then 1 else 0 := by
  cases datagram with
  | none => exact le_rfl
  | some d => exact List.length_filter_le _ _

theorem InOrder.load_le (h : InOrder s) (hclosed : s.socketOpen = false) (hmove : Moves s s') :
    s'.load ≤ s.load := by
  cases hmove with
  | stays => exact le_rfl
  | receives datagram hphase hrecv hopen =>
    rw [hopen hclosed]
    simp [load, pending, hphase, Listener.recvfrom]
  | stores datagram ftNow hphase hsize =>
    have heq : s.listener.enqueue ftNow = (s.listener.push ftNow hsize).interlockedIncrement :=
      dif_pos hsize
    have hstored : (s.listener.push ftNow hsize).pQueue =
        s.listener.pQueue ++ toQueue [⟨datagram, ftNow⟩] := by
      have henqueued := (h.enqueued ftNow hphase).1
      rw [heq] at henqueued
      exact henqueued
    have hle := length_toQueue_singleton datagram ftNow
    unfold load pending
    rw [hphase]
    dsimp only
    rw [hstored, List.length_append]
    cases datagram with
    | none => exact Nat.add_le_add_left hle _
    | some d => exact Nat.add_le_add_left hle _
  | skips datagram ftNow hphase hsize => simp [load, pending, hphase]
  | counts hphase =>
    unfold load pending
    rw [hphase]
    exact le_rfl
  | listenerReturns hphase hrecv => simp [load, pending, hphase]
  | loops mainPhase hphase hnext => exact le_rfl
  | processes w newPacket pQueue hphase hqueue hdecode => simp [load, pending, hqueue]
  | crashes w newPacket pQueue hphase hqueue hdecode => simp [load, pending, hqueue]
  | closes hphase => exact le_rfl
  | drops newPacket pQueue hphase hqueue => simp [load, pending, hqueue]
  | mainReturns hphase hqueue => exact le_rfl

theorem load_moves (h : InOrder s) (hload : s.mainPhase = .returned → s.load ≤ 1)
    (hmove : Moves s s') (hreturned : s'.mainPhase = .returned) : s'.load ≤ 1 := by
  by_cases hbefore : s.mainPhase = .returned
  · exact (h.load_le (h.closed.mp (.inr hbefore)) hmove).trans (hload hbefore)
  · cases hmove with
    | mainReturns hphase hqueue =>
      have hle := pending_le_one s
      unfold load
      dsimp only
      rw [hqueue, List.length_nil, Nat.zero_add]
      exact hle
    | loops mainPhase hphase hnext =>
      dsimp only at hreturned
      rw [hreturned] at hnext
      exact hnext.elim
    | _ => first | exact absurd hreturned hbefore | cases hreturned

structure Sound (s : App platform) : Prop where
  inOrder : InOrder s
  disposed : Disposed s
  load : s.mainPhase = .returned → s.load ≤ 1

theorem Sound.moves (h : Sound s) (hmove : Moves s s') : Sound s' where
  inOrder := h.inOrder.moves hmove
  disposed := h.disposed.moves h.inOrder hmove
  load := load_moves h.inOrder h.load hmove

theorem sound_init (sockBuf : ByteReader.Memory) (senderAddr : SockAddrIn) :
    Sound (init sockBuf senderAddr : App platform) where
  inOrder := inOrder_init sockBuf senderAddr
  disposed := disposed_init sockBuf senderAddr
  load := by
    intro hreturned
    cases hreturned

theorem listenerStep_mainPhase (datagram : Option Datagram) (ftNow : UInt64) (s : App platform) :
    (s.listenerStep datagram ftNow).mainPhase = s.mainPhase := by
  unfold listenerStep
  cases s.listenerPhase with
  | receiving =>
    dsimp only
    by_cases hrecv : s.listener.nRecv > 0
    · rw [if_pos hrecv]
    · rw [if_neg hrecv]
  | storing datagram =>
    dsimp only
    by_cases hsize : 0 < s.listener.nRecv ∧ s.listener.nRecv < sizeofSockBuf
    · rw [dif_pos hsize]
    · rw [dif_neg hsize]
  | counting => rfl
  | returned => rfl

section Shutdown

variable {timerKey TIMERDURATIONSECS MAXCONCURRENTCMDS}

theorem step_returned (h : s.mainPhase = .returned) (e : AppEvent) :
    (step timerKey TIMERDURATIONSECS MAXCONCURRENTCMDS s e).mainPhase = .returned := by
  have halive : s.mainPhase ≠ .crashed := by
    rw [h]
    intro hcrashed
    cases hcrashed
  unfold step
  rw [if_neg halive]
  cases e with
  | listener datagram ftNow => exact (listenerStep_mainPhase datagram ftNow s).trans h
  | main answers =>
    unfold mainStep
    rw [h]
    exact h

theorem step_listener_shuttingDown (h : s.mainPhase = .shuttingDown) (datagram : Option Datagram)
    (ftNow : UInt64) :
    (step timerKey TIMERDURATIONSECS MAXCONCURRENTCMDS s (.listener datagram ftNow)).mainPhase =
      .shuttingDown := by
  have halive : s.mainPhase ≠ .crashed := by
    rw [h]
    intro hcrashed
    cases hcrashed
  unfold step
  rw [if_neg halive]
  exact (listenerStep_mainPhase datagram ftNow s).trans h

theorem step_main_shuttingDown (h : s.mainPhase = .shuttingDown) (answers : Answers) :
    let t := step timerKey TIMERDURATIONSECS MAXCONCURRENTCMDS s (.main answers)
    t.mainPhase = .returned ∨ (t.mainPhase = .shuttingDown ∧ t.load < s.load) := by
  have halive : s.mainPhase ≠ .crashed := by
    rw [h]
    intro hcrashed
    cases hcrashed
  intro t
  have ht : t = s.mainStep timerKey TIMERDURATIONSECS MAXCONCURRENTCMDS answers := if_neg halive
  unfold mainStep at ht
  rw [h] at ht
  dsimp only at ht
  rcases s.tryPop_cases with ⟨hqueue, hpop⟩ | ⟨newPacket, pQueue, hqueue, hpop⟩
  · rw [hpop] at ht
    rw [ht]
    exact .inl rfl
  · rw [hpop] at ht
    rw [ht]
    refine .inr ⟨h, ?_⟩
    simp [delete, load, pending, hqueue]

theorem run_shuttingDown (fs : List AppEvent) (hidle : Idle s) (hsound : Sound s)
    (h : s.mainPhase = .returned ∨
      (s.mainPhase = .shuttingDown ∧ s.load < (fs.filter AppEvent.isMain).length)) :
    (run (step timerKey TIMERDURATIONSECS MAXCONCURRENTCMDS) s fs).mainPhase = .returned := by
  induction fs generalizing s with
  | nil =>
    rcases h with hreturned | ⟨_, hlt⟩
    · exact hreturned
    · exact absurd hlt (Nat.not_lt_zero _)
  | cons e fs ih =>
    have hmove := @step_moves _ timerKey TIMERDURATIONSECS MAXCONCURRENTCMDS s hidle e
    rw [run_cons]
    apply ih (hidle.moves hmove) (hsound.moves hmove)
    rcases h with hreturned | ⟨hdown, hlt⟩
    · exact .inl (step_returned hreturned e)
    · cases e with
      | listener datagram ftNow =>
        have hclosed : s.socketOpen = false := hsound.inOrder.closed.mp (.inl hdown)
        have hle := hsound.inOrder.load_le hclosed hmove
        exact .inr ⟨step_listener_shuttingDown hdown datagram ftNow, hle.trans_lt hlt⟩
      | main answers =>
        rcases @step_main_shuttingDown _ timerKey TIMERDURATIONSECS MAXCONCURRENTCMDS s hdown
          answers with hreturned | ⟨hphase, hless⟩
        · exact .inl hreturned
        · refine .inr ⟨hphase, ?_⟩
          have hcount : ((AppEvent.main answers :: fs).filter AppEvent.isMain).length =
              (fs.filter AppEvent.isMain).length + 1 := rfl
          omega

end Shutdown

theorem run_sound (sockBuf : ByteReader.Memory) (senderAddr : SockAddrIn) (es : List AppEvent) :
    Idle (run (step timerKey TIMERDURATIONSECS MAXCONCURRENTCMDS)
        (init sockBuf senderAddr : App platform) es) ∧
      Sound (run (step timerKey TIMERDURATIONSECS MAXCONCURRENTCMDS)
        (init sockBuf senderAddr : App platform) es) :=
  run_induction (sound_init sockBuf senderAddr) (fun _ _ h hmove => h.moves hmove) es

/-- Once the socket has been closed the main thread returns within as many of its own steps as the
queue is long and two more, whatever the listener does, and of the non-empty datagrams received at
most the last is not deleted. -/
theorem run_shutdown (sockBuf : ByteReader.Memory) (senderAddr : SockAddrIn)
    (es fs : List AppEvent)
    (hphase : (run (step timerKey TIMERDURATIONSECS MAXCONCURRENTCMDS)
      (init sockBuf senderAddr : App platform) es).mainPhase = .shuttingDown)
    (hfs : (run (step timerKey TIMERDURATIONSECS MAXCONCURRENTCMDS)
      (init sockBuf senderAddr : App platform) es).listener.pQueue.length + 2 ≤
        (fs.filter AppEvent.isMain).length) :
    let t : App platform := run (step timerKey TIMERDURATIONSECS MAXCONCURRENTCMDS)
      (init sockBuf senderAddr) (es ++ fs)
    t.mainPhase = .returned ∧ toQueue t.received = t.deleted ++ t.listener.pQueue ∧
      t.listener.pQueue.length ≤ 1 := by
  intro t
  obtain ⟨hidle, hsound⟩ := @run_sound platform timerKey TIMERDURATIONSECS MAXCONCURRENTCMDS
    sockBuf senderAddr es
  obtain ⟨_, h⟩ := @run_sound platform timerKey TIMERDURATIONSECS MAXCONCURRENTCMDS
    sockBuf senderAddr (es ++ fs)
  have hreturned : t.mainPhase = .returned := by
    have hrun : t = run (step timerKey TIMERDURATIONSECS MAXCONCURRENTCMDS)
        (run (step timerKey TIMERDURATIONSECS MAXCONCURRENTCMDS)
          (init sockBuf senderAddr : App platform) es) fs := List.foldl_append
    rw [hrun]
    apply run_shuttingDown fs hidle hsound
    refine .inr ⟨hphase, ?_⟩
    have hpending := pending_le_one (run (step timerKey TIMERDURATIONSECS MAXCONCURRENTCMDS)
      (init sockBuf senderAddr : App platform) es)
    unfold load
    omega
  have halive : t.mainPhase ≠ .crashed := by
    rw [hreturned]
    intro hcrashed
    cases hcrashed
  refine ⟨hreturned, ?_, ?_⟩
  · rw [h.disposed.deleted halive]
    exact h.inOrder.order.symm
  · exact (Nat.le_add_right _ _).trans (h.load hreturned)

def quitting : Answers where
  quit := true
  now := 0
  surroundings := ⟨0, default, fun _ => 0, fun _ => true, 0⟩
  handling := ⟨false, 0⟩
  getCmdState _ := 0
  sweepTime := 0
  runCmd _ := 0

/-- One packet is in the queue when the socket is closed. -/
theorem run_shutdown_one :
    let d : Datagram := ⟨[0x30], ⟨0x0100007F, 123⟩, by decide⟩
    let t : App .x64 := run (step (fun hostname _ _ => hostname) ⟨300, by decide⟩ ⟨10, by decide⟩)
      (init (fun _ => 0) ⟨0, 0⟩)
      ([.listener (some d) 0, .listener none 7, .main quitting] ++
        [.main quitting, .listener (some d) 8, .main quitting, .main quitting])
    t.mainPhase = .returned ∧ toQueue t.received = t.deleted ++ t.listener.pQueue ∧
      t.listener.pQueue.length ≤ 1 :=
  run_shutdown _ _ _ _ _ _ _ rfl (by decide)

end App

end TrapHandler
