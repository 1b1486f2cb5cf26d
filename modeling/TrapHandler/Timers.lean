import TrapHandler.Runs
import TrapHandler.WideStrings

/-!
# Timers

`TouchTimer` starts or restarts the timer of a host, and one iteration of the main loop processes the
traps that have arrived and then sweeps the timers. `now` is taken from `ftNow` before that is
filled, so its value is an input of the iteration. The expiry test is read as that of the value of
`now`, and how `TouchTimer` makes the id of a timer is a parameter.
-/

namespace TrapHandler

open Runs

inductive TimerType where
  | maintExpired
  | heartBeatExpired
  deriving DecidableEq, Repr

structure TimerObj where
  startTime : UInt64
  duration : UInt64
  uHits : UInt32
  timerId : WStr
  type : TimerType

def FTCLICKSQERSEC : UInt64 := 10000000

namespace TimerObj

def create (startTime : UInt64) (durationSecs : Int32) (id : WStr) (type : TimerType) :
    TimerObj where
  startTime := startTime
  duration := UInt64.ofInt durationSecs.toInt * FTCLICKSQERSEC
  uHits := 0
  timerId := id
  type := type

def isExpired (this : TimerObj) (now : UInt64) : Bool := now - this.startTime > this.duration

def update (this : TimerObj) (startTime : UInt64) (durationSecs : Int32) : TimerObj :=
  { this with
    duration := UInt64.ofInt durationSecs.toInt * FTCLICKSQERSEC
    uHits := this.uHits + 1
    startTime := startTime }

/-- The command the main loop queues for an expired timer. -/
def expiryCommand (this : TimerObj) : WStr :=
  wcs "opcmsg a=UGMon o=Heart-beat -node=" ++ this.timerId ++
    (match this.type with
      | .heartBeatExpired => wcs " msg_t=\"No heart-beat received from node: " ++ this.timerId
      | .maintExpired => wcs " msg_t=\"Maintenance has ended for node: " ++ this.timerId) ++
    wcs "\" -option hostname=" ++ this.timerId

end TimerObj

structure TimerService where
  timers : List TimerObj
  distinct : (timers.map TimerObj.timerId).Nodup

/-- What a run of the main loop does with timers: the time of an alarm is that of its sweep. -/
inductive TimerEvent where
  | touched (id : WStr) (startTime : UInt64) (durationSecs : Int32)
  | alarmed (id : WStr) (cmd : WStr) (sweepTime : UInt64)
  deriving DecidableEq

/-- One call of `TouchTimer`, and the system time it reads. -/
structure Touch where
  hostname : WStr
  platformId : WStr
  durationSecs : Int32
  type : TimerType
  ftNow : UInt64
  nonneg : 0 ≤ durationSecs.toInt

namespace TimerService

def restart (id : WStr) (now : UInt64) (durationSecs : Int32) (t : TimerObj) : TimerObj :=
  if t.timerId = id then t.update now durationSecs else t

theorem timerId_restart (id : WStr) (now : UInt64) (durationSecs : Int32) (t : TimerObj) :
    (restart id now durationSecs t).timerId = t.timerId := by
  unfold restart
  split_ifs
  · rfl
  · rfl

/-- The timers after the call, and whether the timer existed before it. -/
def touchTimer (this : TimerService) (id : WStr) (durationSecs : Int32) (type : TimerType)
    (now : UInt64) : TimerService × Bool :=
  if h : id ∈ this.timers.map TimerObj.timerId then
    ({ timers := this.timers.map (restart id now durationSecs)
       distinct := by
        rw [List.map_map]
        have hid : TimerObj.timerId ∘ restart id now durationSecs = TimerObj.timerId :=
          funext (timerId_restart id now durationSecs)
        rw [hid]
        exact this.distinct }, true)
  else
    ({ timers := TimerObj.create now durationSecs id type :: this.timers
       distinct := List.nodup_cons.mpr ⟨h, this.distinct⟩ }, false)

end TimerService

/-- The loop of the main function over the timers: those it keeps and those it removes. -/
def sweep (now : UInt64) : List TimerObj → List TimerObj × List TimerObj
  | [] => ([], [])
  | t :: rest =>
    if t.isExpired now then ((sweep now rest).1, t :: (sweep now rest).2)
    else (t :: (sweep now rest).1, (sweep now rest).2)

theorem sweep_eq (now : UInt64) (timers : List TimerObj) :
    sweep now timers = (timers.filter (!·.isExpired now), timers.filter (·.isExpired now)) := by
  induction timers with
  | nil => rfl
  | cons t rest ih =>
    rw [sweep, ih]
    by_cases h : t.isExpired now = true
    · simp only [h, if_true, List.filter_cons, Bool.not_true, Bool.false_eq_true, if_false]
    · simp only [h, Bool.false_eq_true, if_false, List.filter_cons, Bool.not_false, if_true]

/-- The timers, and what has happened to them, oldest first. -/
structure Handler where
  timers : TimerService
  log : List TimerEvent

/-- One iteration of the main loop: the value in `now`, the timers the traps touch, and the system
time when the sweep runs. -/
structure Iteration where
  now : UInt64
  traps : List Touch
  sweepTime : UInt64

namespace Handler

variable (timerKey : WStr → WStr → TimerType → WStr)

def touch (this : Handler) (r : Touch) : Handler :=
  let id := timerKey r.hostname r.platformId r.type
  { timers := (this.timers.touchTimer id r.durationSecs r.type r.ftNow).1
    log := this.log ++ [.touched id r.ftNow r.durationSecs] }

def processTraps (this : Handler) (traps : List Touch) : Handler := run (touch timerKey) this traps

def checkTimers (this : Handler) (now sweepTime : UInt64) : Handler where
  timers :=
    { timers := (sweep now this.timers.timers).1
      distinct := by
        rw [sweep_eq]
        exact this.timers.distinct.sublist (List.filter_sublist.map _) }
  log := this.log ++
    (sweep now this.timers.timers).2.map fun t => .alarmed t.timerId t.expiryCommand sweepTime

def iterate (this : Handler) (it : Iteration) : Handler :=
  (this.processTraps timerKey it.traps).checkTimers it.now it.sweepTime

def init : Handler where
  timers := { timers := [], distinct := List.nodup_nil }
  log := []

end Handler

end TrapHandler
