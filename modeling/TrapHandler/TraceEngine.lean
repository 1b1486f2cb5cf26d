import TrapHandler.CharArrays
import TrapHandler.SpinLocks
import TrapHandler.WideStrings

/-!
# The trace engine

Any number of threads send messages through one trace engine. Each formats its message into the
buffer of the engine while it holds the spin lock `slTraceEngine`, and writes it from there to the
log file and, in the characters of the console, to the console. The lock is taken before the engine
exists and after it has been destroyed. A step of a thread is what it does up to its next access to
what the threads share; a step that uses an engine that is not there, or stores outside the buffer
made for the console, is `none`.
-/

namespace TrapHandler

namespace Tracing

def LOG_VOID : Int32 := -2
def LOG_ALL : Int32 := -1
def LOG_DEBUG : Int32 := 0
def LOG_NORMAL : Int32 := 1
def LOG_WARNING : Int32 := 2
def LOG_MINOR : Int32 := 3
def LOG_MAJOR : Int32 := 4
def LOG_CRITICAL : Int32 := 5
def LOG_EMERGENCY : Int32 := 6
def LOG_NONE : Int32 := 255

def unicodeTag : WChar := 0xFEFF

structure SystemTime where
  wMonth : Fin 100
  wDay : Fin 100
  wHour : Fin 100
  wMinute : Fin 100
  wSecond : Fin 100
  deriving DecidableEq, Repr

/-- `%02u` -/
def twoDigits (n : Fin 100) : WStr :=
  [UInt16.ofNat (0x30 + n / 10), UInt16.ofNat (0x30 + n % 10)]

def severityText (severity : Int32) : WStr :=
  if severity = LOG_DEBUG then wcs "DBUG-"
  else if severity = LOG_NORMAL then wcs "NORM-"
  else if severity = LOG_WARNING then wcs "WARN-"
  else if severity = LOG_MINOR then wcs "MINO-"
  else if severity = LOG_MAJOR then wcs "MAJO-"
  else if severity = LOG_CRITICAL then wcs "CRIT-"
  else wcs "UNKNOWN"

/-- A call of `SendEvent`: what it finds the time to be, and the text its format and the arguments
give. The names of the facilities have six or seven characters, and neither they nor the texts have a
terminator in them. -/
structure Message where
  stNow : SystemTime
  severity : Int32
  facility : WStr
  text : WStr
  facility_le : facility.length ≤ 25
  facility_zero : 0 ∉ facility
  text_zero : 0 ∉ text
  deriving DecidableEq, Repr

namespace Message

/-- `L"%02u-%02u %02u:%02u:%02u %s%s: "` -/
def header (m : Message) : WStr :=
  twoDigits m.stNow.wMonth ++ wcs "-" ++ twoDigits m.stNow.wDay ++ wcs " " ++
    twoDigits m.stNow.wHour ++ wcs ":" ++ twoDigits m.stNow.wMinute ++ wcs ":" ++
    twoDigits m.stNow.wSecond ++ wcs " " ++ severityText m.severity ++ m.facility ++ wcs ": "

/-- What `vswprintf` stores of a text in an array of `n` characters. -/
def stored (n : ℕ) (text : WStr) : WStr := if n = 0 then [] else text.take (n - 1) ++ [0]

/-- `swprintf` and `vswprintf` return the length of the text, or -1 where it does not fit. -/
def msgLen (m : Message) (uMaxMsgSize : ℕ) : ℕ :=
  if m.text.length < uMaxMsgSize then m.header.length + m.text.length else m.header.length - 1

def indexed : ℕ → WStr → List (ℕ × WChar)
  | _, [] => []
  | i, c :: s => (i, c) :: indexed (i + 1) s

def stores (m : Message) (uMaxMsgSize : ℕ) : List (ℕ × WChar) :=
  indexed 0 (m.header ++ [0]) ++ indexed m.header.length (stored uMaxMsgSize m.text)

def line (m : Message) : WStr := m.header ++ m.text

end Message

/-- What `StartLogTrace` finds: whether the log file can be opened or else be made, whether
it is too old, and whether it can then be replaced. -/
structure LogFile where
  found : Bool
  created : Bool
  old : Bool
  replaced : Bool
  deriving DecidableEq, Repr

namespace LogFile

def opened (file : LogFile) : Bool := file.found || file.created

/-- `StartLogTrace` writes the tag to a file that it has made, and so does `RollLogFile`. -/
def tags (file : LogFile) : ℕ :=
  (if file.found then 0 else if file.created then 1 else 0) +
    if file.opened && file.old && file.replaced then 1 else 0

end LogFile

/-- The engine with a thread of its own drops every message. -/
structure CTraceEngine where
  hThread : Bool
  uMaxMsgSize : ℕ
  msgBuf : Option (CharArray WChar)
  iLogTraceLevel : Int32 := LOG_NONE
  bLogTraceRunning : Bool := false
  iConsoleTraceLevel : Int32 := LOG_NONE
  bConsoleTraceRunning : Bool := false

namespace CTraceEngine

def stopLogTrace (engine : CTraceEngine) : CTraceEngine := { engine with bLogTraceRunning := false }

def stopConsoleTrace (engine : CTraceEngine) : CTraceEngine :=
  { engine with bConsoleTraceRunning := false }

/-- What `SetTraceLevel` does before it stops what is disabled. -/
def setLevels (engine : CTraceEngine) (logLevel consLevel : Int32) : CTraceEngine :=
  { engine with
    iLogTraceLevel := if logLevel ≠ LOG_VOID then logLevel else engine.iLogTraceLevel
    iConsoleTraceLevel := if consLevel ≠ LOG_VOID then consLevel else engine.iConsoleTraceLevel }

def setTraceLevel (engine : CTraceEngine) (logLevel consLevel : Int32) : CTraceEngine :=
  let engine := engine.setLevels logLevel consLevel
  let engine := if engine.iLogTraceLevel = LOG_NONE then engine.stopLogTrace else engine
  if engine.iConsoleTraceLevel = LOG_NONE then engine.stopConsoleTrace else engine

/-- `opened` tells whether the log file can be opened. -/
def startLogTrace (engine : CTraceEngine) (traceLevel : Int32) (opened : Bool) : CTraceEngine :=
  if engine.bLogTraceRunning then engine
  else { engine with iLogTraceLevel := traceLevel, bLogTraceRunning := opened }

/-- `attached` tells whether there is a console. -/
def startConsoleTrace (engine : CTraceEngine) (traceLevel : Int32) (attached : Bool) :
    CTraceEngine :=
  if engine.bConsoleTraceRunning then engine
  else { engine with iConsoleTraceLevel := traceLevel, bConsoleTraceRunning := attached }

end CTraceEngine

inductive Call where
  | sendEvent (m : Message)
  | stopLogTrace
  | stopConsoleTrace
  | flushLogFile

def Call.stop : Call → CTraceEngine → CTraceEngine
  | stopLogTrace, engine => engine.stopLogTrace
  | stopConsoleTrace, engine => engine.stopConsoleTrace
  | _, engine => engine

/-- What a call is followed by; `SetTraceLevel` may have the console to stop behind the log. -/
inductive Behind where
  | nothing
  | consoleLevel

inductive Phase where
  | idle
  | testing (m : Message)
  | filteringConsole (m : Message)
  | filteringLog (m : Message)
  | settingLevels (logLevel consLevel : Int32)
  | testingLogLevel
  | testingConsoleLevel
  | spinning (call : Call) (behind : Behind)
  | formatting (m : Message)
  | storing (m : Message) (rest : List (ℕ × WChar))
  | writingLog (m : Message)
  | writingConsole (m : Message)
  | stopping (call : Call) (behind : Behind)
  | unlocking (behind : Behind)

def Behind.phase : Behind → Phase
  | nothing => .idle
  | consoleLevel => .testingConsoleLevel

/-- Where the thread is that makes the engine with `Initialize` and deletes it. -/
inductive Owner where
  | absent
  | created (raw : ℕ → WChar)
  | allocated
  | running
  | stoppingConsole
  | consoleLocked
  | stoppingLog
  | logLocked
  | locking
  | locked
  | freed

/-- What has been handed to `WriteFile` is given with the thread and the message it is from, or without
them where it is the tag of a log file; `order` has the messages in the order in which their threads
have taken the lock. -/
structure State (ι : Type) where
  pTraceEngine : Option CTraceEngine := none
  slTraceEngine : Int32 := 1
  owner : Owner := .absent
  threads : ι → Phase := fun _ => .idle
  order : List (ι × Message) := []
  logFile : List (Option (ι × Message) × WStr) := []
  console : List ((ι × Message) × List UInt8) := []

/-- `raw` is what is in the memory that the step allocates. -/
inductive Event (ι : Type) where
  | call (i : ι) (c : Call)
  | setTraceLevel (i : ι) (logLevel consLevel : Int32)
  | thread (i : ι) (raw : ℕ → UInt8)
  | initializeEngine (createThread : Bool) (raw : ℕ → WChar)
  | destroy
  | owner
  | startLogTrace (traceLevel : Int32) (file : LogFile)
  | startConsoleTrace (traceLevel : Int32) (attached : Bool)

namespace State

variable {ι : Type} [DecidableEq ι]

def goto (s : State ι) (i : ι) (phase : Phase) : State ι :=
  { s with threads := Function.update s.threads i phase }

def setEngine (s : State ι) (engine : CTraceEngine) : State ι :=
  { s with pTraceEngine := some engine }

/-- `SendEvent` tests the pointer, and the other calls are made through it. -/
def call (i : ι) (c : Call) (s : State ι) : State ι :=
  match s.threads i with
  | .idle =>
    match c with
    | .sendEvent m => s.goto i (.testing m)
    | c => s.goto i (.spinning c .nothing)
  | _ => s

def setTraceLevel (i : ι) (logLevel consLevel : Int32) (s : State ι) : State ι :=
  match s.threads i with
  | .idle => s.goto i (.settingLevels logLevel consLevel)
  | _ => s

variable (maxMsgSize : ℕ) (charToOem : WStr → List UInt8)

/-- `WriteConsoleMessage`: the whole text of the message buffer is converted, with its terminator, into
an array of `msgLen + 1` bytes, and `msgLen` bytes of that are written. -/
def writeConsoleMessage (raw : ℕ → UInt8) (msgBuf : CharArray WChar) (msgLen : ℕ) :
    Option (List UInt8) :=
  let tmpBuf := (CharArray.new (msgLen + 1) raw).copyAt 0 (charToOem msgBuf.text)
  if tmpBuf.Inside then some ((List.range msgLen).map tmpBuf.cells) else none

def thread (i : ι) (raw : ℕ → UInt8) (s : State ι) : Option (State ι) :=
  match s.threads i with
  | .idle => some s
  | .testing m =>
    if s.pTraceEngine.isNone then some (s.goto i .idle) else some (s.goto i (.filteringConsole m))
  | .filteringConsole m => do
    let engine ← s.pTraceEngine
    if m.severity < engine.iConsoleTraceLevel then some (s.goto i (.filteringLog m))
    else some (s.goto i (.spinning (.sendEvent m) .nothing))
  | .filteringLog m => do
    let engine ← s.pTraceEngine
    if m.severity < engine.iLogTraceLevel then some (s.goto i .idle)
    else some (s.goto i (.spinning (.sendEvent m) .nothing))
  | .settingLevels logLevel consLevel => do
    let engine ← s.pTraceEngine
    some ((s.setEngine (engine.setLevels logLevel consLevel)).goto i .testingLogLevel)
  | .testingLogLevel => do
    let engine ← s.pTraceEngine
    if engine.iLogTraceLevel = LOG_NONE then
      some (s.goto i (.spinning .stopLogTrace .consoleLevel))
    else some (s.goto i .testingConsoleLevel)
  | .testingConsoleLevel => do
    let engine ← s.pTraceEngine
    if engine.iConsoleTraceLevel = LOG_NONE then
      some (s.goto i (.spinning .stopConsoleTrace .nothing))
    else some (s.goto i .idle)
  | .spinning c behind =>
    match SpinLocks.tryEnter s.slTraceEngine with
    | none => some s
    | some x =>
      match c with
      | .sendEvent m =>
        some ({ s with slTraceEngine := x, order := s.order ++ [(i, m)] }.goto i (.formatting m))
      | c => some ({ s with slTraceEngine := x }.goto i (.stopping c behind))
  | .formatting m => do
    let engine ← s.pTraceEngine
    some (s.goto i (.storing m (m.stores engine.uMaxMsgSize)))
  | .storing m ((k, c) :: rest) => do
    let engine ← s.pTraceEngine
    let msgBuf ← engine.msgBuf
    some ((s.setEngine { engine with msgBuf := some (msgBuf.store k c) }).goto i (.storing m rest))
  | .storing m [] => do
    let engine ← s.pTraceEngine
    if engine.hThread then some (s.goto i (.unlocking .nothing))
    else some (s.goto i (.writingLog m))
  | .writingLog m => do
    let engine ← s.pTraceEngine
    let msgBuf ← engine.msgBuf
    let s := s.goto i (.writingConsole m)
    if engine.bLogTraceRunning ∧ engine.iLogTraceLevel ≤ m.severity then
      let data := (List.range (m.msgLen engine.uMaxMsgSize)).map msgBuf.cells
      some { s with logFile := s.logFile ++ [(some (i, m), data)] }
    else
      some s
  | .writingConsole m => do
    let engine ← s.pTraceEngine
    let msgBuf ← engine.msgBuf
    let s := s.goto i (.unlocking .nothing)
    if engine.bConsoleTraceRunning ∧ engine.iConsoleTraceLevel ≤ m.severity then
      let data ← writeConsoleMessage charToOem raw msgBuf (m.msgLen engine.uMaxMsgSize)
      some { s with console := s.console ++ [((i, m), data)] }
    else
      some s
  | .stopping c behind => do
    let engine ← s.pTraceEngine
    some ((s.setEngine (c.stop engine)).goto i (.unlocking behind))
  | .unlocking behind =>
    some ({ s with slTraceEngine := SpinLocks.leave s.slTraceEngine }.goto i behind.phase)

/-- The engine is made only once. -/
def initializeEngine (createThread : Bool) (raw : ℕ → WChar) (s : State ι) : State ι :=
  match s.owner with
  | .absent =>
    { s.setEngine { hThread := createThread, uMaxMsgSize := maxMsgSize, msgBuf := none } with
      owner := .created raw }
  | _ => s

/-- The destructor stops the traces that are running, each of them under the lock. -/
def stopAll (engine : CTraceEngine) : Owner :=
  if engine.bConsoleTraceRunning then .stoppingConsole
  else if engine.bLogTraceRunning then .stoppingLog
  else .locking

def destroy (s : State ι) : Option (State ι) :=
  match s.owner with
  | .running => do
    let engine ← s.pTraceEngine
    some { s with owner := stopAll engine }
  | _ => some s

def enter (next : Owner) (s : State ι) : State ι :=
  match SpinLocks.tryEnter s.slTraceEngine with
  | none => s
  | some x => { s with slTraceEngine := x, owner := next }

/-- The rest of `Initialize` and of the destructor, which leaves the lock taken. -/
def ownerStep (s : State ι) : Option (State ι) :=
  match s.owner with
  | .absent => some s
  | .created raw => do
    let engine ← s.pTraceEngine
    let msgBuf := CharArray.new (maxMsgSize + 50) raw
    some { s.setEngine { engine with msgBuf := some msgBuf } with owner := .allocated }
  | .allocated =>
    some { s with slTraceEngine := SpinLocks.leave s.slTraceEngine, owner := .running }
  | .running => some s
  | .stoppingConsole => some (s.enter .consoleLocked)
  | .consoleLocked => do
    let engine ← s.pTraceEngine
    let engine := engine.stopConsoleTrace
    some { s.setEngine engine with
      slTraceEngine := SpinLocks.leave s.slTraceEngine
      owner := stopAll engine }
  | .stoppingLog => some (s.enter .logLocked)
  | .logLocked => do
    let engine ← s.pTraceEngine
    some { s.setEngine engine.stopLogTrace with
      slTraceEngine := SpinLocks.leave s.slTraceEngine
      owner := .locking }
  | .locking => some (s.enter .locked)
  | .locked => do
    let engine ← s.pTraceEngine
    some { s.setEngine { engine with msgBuf := none } with owner := .freed }
  | .freed => some { s with pTraceEngine := none, owner := .absent }

/-- `StartLogTrace` takes no lock. -/
def startLogTrace (traceLevel : Int32) (file : LogFile) (s : State ι) : State ι :=
  match s.pTraceEngine with
  | none => s
  | some engine =>
    if engine.bLogTraceRunning then s
    else
      { s.setEngine (engine.startLogTrace traceLevel file.opened) with
        logFile := s.logFile ++ List.replicate file.tags (none, [unicodeTag]) }

/-- Nor does `StartConsoleTrace`, which does not test for an engine either. -/
def startConsoleTrace (traceLevel : Int32) (attached : Bool) (s : State ι) : Option (State ι) := do
  let engine ← s.pTraceEngine
  some (s.setEngine (engine.startConsoleTrace traceLevel attached))

def step (s : State ι) : Event ι → Option (State ι)
  | .call i c => some (s.call i c)
  | .setTraceLevel i logLevel consLevel => some (s.setTraceLevel i logLevel consLevel)
  | .thread i raw => s.thread charToOem i raw
  | .initializeEngine createThread raw => some (s.initializeEngine maxMsgSize createThread raw)
  | .destroy => s.destroy
  | .owner => s.ownerStep maxMsgSize
  | .startLogTrace traceLevel file => some (s.startLogTrace traceLevel file)
  | .startConsoleTrace traceLevel attached => s.startConsoleTrace traceLevel attached

def run (s : State ι) (es : List (Event ι)) : Option (State ι) :=
  es.foldlM (step maxMsgSize charToOem) s

end State

end Tracing

end TrapHandler
