import TrapHandler.TraceEngine

/-!
# The lines of the trace

Whoever is between taking and leaving the lock is there alone, and the engine and its buffer are there
as long as it is. So each piece of the output is from one message, and whole if the text has room.
What is done without the lock can find no engine, and a text without room does not fit the array made
for the console either.
-/

namespace TrapHandler

namespace Tracing

open SpinLocks

variable {ι : Type} {maxMsgSize : ℕ} {charToOem : WStr → List UInt8}

namespace Message

theorem length_severityText (severity : Int32) :
    1 ≤ (severityText severity).length ∧ (severityText severity).length ≤ 7 := by
  unfold severityText
  split_ifs <;> decide

theorem length_header (m : Message) : 0 < m.header.length ∧ m.header.length < 50 := by
  obtain ⟨hlow, hhigh⟩ := length_severityText m.severity
  have hfacility := m.facility_le
  have hlen : m.header.length = 17 + (severityText m.severity).length + m.facility.length := by
    simp [header, twoDigits, wcs]
    omega
  omega

theorem zero_notMem_twoDigits (n : Fin 100) : 0 ∉ twoDigits n := by
  revert n
  decide

theorem zero_notMem_severityText (severity : Int32) : 0 ∉ severityText severity := by
  unfold severityText
  split_ifs <;> decide

theorem zero_notMem_header (m : Message) : 0 ∉ m.header := by
  have hdash : (0 : WChar) ∉ wcs "-" := by decide
  have hblank : (0 : WChar) ∉ wcs " " := by decide
  have hcolon : (0 : WChar) ∉ wcs ":" := by decide
  have hend : (0 : WChar) ∉ wcs ": " := by decide
  simp only [header, List.mem_append, not_or, zero_notMem_twoDigits, hdash, hblank, hcolon, hend,
    zero_notMem_severityText, m.facility_zero, not_false_eq_true, and_self]

attribute [local irreducible] header

def shown (m : Message) (n : ℕ) : WStr := m.header ++ m.text.take (n - 1)

theorem shown_of_lt {m : Message} {n : ℕ} (h : m.text.length < n) : m.shown n = m.line := by
  rw [shown, List.take_of_length_le (by omega), line]

theorem zero_notMem_shown (m : Message) (n : ℕ) : 0 ∉ m.shown n := by
  rw [shown, List.mem_append, not_or]
  exact ⟨m.zero_notMem_header, fun h => m.text_zero (List.mem_of_mem_take h)⟩

theorem length_shown (m : Message) {n : ℕ} : (m.shown n).length < n + 50 := by
  have hlt := m.length_header.2
  rw [shown, List.length_append, List.length_take]
  omega

/-- What the message comes to in the log file: of one that has no room for its text there is only the
header, less the last character. -/
def logged (m : Message) (n : ℕ) : WStr :=
  if m.text.length < n then m.line else m.header.dropLast

theorem length_logged (m : Message) (n : ℕ) : (m.logged n).length = m.msgLen n := by
  unfold logged msgLen line
  split_ifs
  · exact List.length_append
  · exact List.length_dropLast

theorem logged_prefix (m : Message) (n : ℕ) : m.logged n <+: m.shown n := by
  unfold logged
  by_cases hfits : m.text.length < n
  · rw [if_pos hfits, shown_of_lt hfits]
  · rw [if_neg hfits]
    exact (List.dropLast_prefix m.header).trans (List.prefix_append _ _)

theorem foldl_indexed (a : CharArray WChar) (i : ℕ) (s : WStr) :
    (indexed i (s ++ [0])).foldl (fun a store => a.store store.1 store.2) a = a.copyAt i s := by
  induction s generalizing a i with
  | nil => rfl
  | cons c s ih => exact ih (a.store i c) (i + 1)

theorem lt_of_mem_indexed {i : ℕ} {s : WStr} {store : ℕ × WChar} (h : store ∈ indexed i s) :
    store.1 < i + s.length := by
  induction s generalizing i with
  | nil => cases h
  | cons c s ih =>
    rw [List.length_cons]
    cases List.mem_cons.mp h with
    | inl heq =>
      rw [heq]
      dsimp only
      omega
    | inr hrest =>
      have hlt := ih hrest
      omega

theorem lt_of_mem_stores {m : Message} {n : ℕ} {store : ℕ × WChar} (h : store ∈ m.stores n) :
    store.1 < n + 50 := by
  obtain ⟨_, hlt⟩ := m.length_header
  cases List.mem_append.mp h with
  | inl h =>
    have hstore := lt_of_mem_indexed h
    rw [List.length_append, List.length_singleton] at hstore
    omega
  | inr h =>
    have hstore := lt_of_mem_indexed h
    have hstored : (stored n m.text).length ≤ n := by
      unfold stored
      split_ifs with hzero
      · exact Nat.zero_le n
      · rw [List.length_append, List.length_singleton, List.length_take]
        omega
    omega

theorem startsWith_of_begin {a : CharArray WChar} {s t : WStr} (h : a.StartsWith t)
    (hst : s <+: t) : a.StartsWith s := by
  obtain ⟨rest, rfl⟩ := hst
  exact h.left

theorem startsWith_stores (m : Message) (n : ℕ) (a : CharArray WChar) :
    ((m.stores n).foldl (fun a store => a.store store.1 store.2) a).StartsWith
      (m.shown n ++ [0]) := by
  have hheader : (a.copyAt 0 m.header).StartsWith (m.header ++ [0]) :=
    (CharArray.startsWith_nil a).copyAt m.header
  unfold stores
  rw [List.foldl_append, foldl_indexed a 0 m.header, shown]
  unfold stored
  by_cases hzero : n = 0
  · subst hzero
    rw [if_pos rfl, List.take_zero, List.append_nil]
    exact hheader
  · rw [if_neg hzero, foldl_indexed _ m.header.length]
    exact hheader.left.copyAt (m.text.take (n - 1))

variable {m : Message} {n : ℕ} {msgBuf : CharArray WChar}

theorem map_range_logged (h : msgBuf.StartsWith (m.shown n ++ [0])) :
    (List.range (m.msgLen n)).map msgBuf.cells = m.logged n := by
  rw [← m.length_logged]
  exact (startsWith_of_begin h.left (m.logged_prefix n)).map_range

/-- With one byte for each character the array for the console has room exactly for a message that has
room for its text. -/
theorem writeConsoleMessage_eq (hoem : ∀ s, (charToOem s).length = s.length) (raw : ℕ → UInt8)
    (h : msgBuf.StartsWith (m.shown n ++ [0])) (hsize : msgBuf.size = n + 50) :
    State.writeConsoleMessage charToOem raw msgBuf (m.msgLen n) =
      if m.text.length < n then some (charToOem m.line) else none := by
  have hroom : (m.shown n).length < msgBuf.size := by
    rw [hsize]
    exact m.length_shown
  have hinside : ((CharArray.new (m.msgLen n + 1) raw).copyAt 0 (charToOem (m.shown n))).Inside ↔
      (m.shown n).length ≤ m.msgLen n := by
    rw [CharArray.inside_copyAt_iff, and_iff_right (CharArray.inside_new _ _), hoem, Nat.zero_add]
    exact Nat.lt_succ_iff
  unfold State.writeConsoleMessage
  rw [h.text (m.zero_notMem_shown n) hroom]
  dsimp only
  by_cases hfits : m.text.length < n
  · have hlength : m.msgLen n = (charToOem m.line).length := by
      rw [hoem, ← m.length_logged, logged, if_pos hfits]
    have hcopy : ((CharArray.new (m.msgLen n + 1) raw).copyAt 0 (charToOem m.line)).StartsWith
        (charToOem m.line) := ((CharArray.startsWith_nil _).copyAt (charToOem m.line)).left
    rw [shown_of_lt hfits] at hinside ⊢
    rw [if_pos (hinside.mpr (by rw [hlength, hoem])), if_pos hfits]
    have hread := hcopy.map_range
    rw [← hlength] at hread
    exact congrArg some hread
  · rw [if_neg hfits, if_neg]
    intro hbelow
    have hle := hinside.mp hbelow
    have hpos := m.length_header.1
    rw [shown, List.length_append, msgLen, if_neg hfits] at hle
    omega

end Message

def Owner.Holds : Owner → Prop
  | .running => False
  | .stoppingConsole => False
  | .stoppingLog => False
  | .locking => False
  | _ => True

/-- `Initialize` has made the buffer, and the destructor has not deleted it. -/
def Owner.HasBuffer : Owner → Prop
  | .absent => False
  | .created _ => False
  | .freed => False
  | _ => True

def Phase.Holds : Phase → Prop
  | .formatting _ => True
  | .storing _ _ => True
  | .writingLog _ => True
  | .writingConsole _ => True
  | .stopping _ _ => True
  | .unlocking _ => True
  | _ => False

/-- The next step uses the engine, and the thread does not hold the lock. -/
def Phase.Unguarded : Phase → Prop
  | .filteringConsole _ => True
  | .filteringLog _ => True
  | .settingLevels _ _ => True
  | .testingLogLevel => True
  | .testingConsoleLevel => True
  | _ => False

theorem Behind.phase_not_holds (behind : Behind) : ¬ behind.phase.Holds := by
  cases behind
  · exact not_false
  · exact not_false

theorem Owner.HasBuffer.of_not_holds {owner : Owner} (h : ¬ owner.Holds) : owner.HasBuffer := by
  cases owner <;> first | exact trivial | exact absurd trivial h

structure Usable (maxMsgSize : ℕ) (pTraceEngine : Option CTraceEngine) (engine : CTraceEngine)
    (msgBuf : CharArray WChar) : Prop where
  present : pTraceEngine = some engine
  size : engine.uMaxMsgSize = maxMsgSize
  buffer : engine.msgBuf = some msgBuf
  room : msgBuf.size = maxMsgSize + 50
  inside : msgBuf.Inside

namespace State

def Inside (s : State ι) : Option ι → Prop
  | none => s.owner.Holds
  | some i => (s.threads i).Holds

structure EngineSound (maxMsgSize : ℕ) (s : State ι) : Prop where
  absent : s.owner = .absent ↔ s.pTraceEngine = none
  size : ∀ engine, s.pTraceEngine = some engine → engine.uMaxMsgSize = maxMsgSize
  buffer : s.owner.HasBuffer → ∃ engine msgBuf, Usable maxMsgSize s.pTraceEngine engine msgBuf

/-- What is handed to `WriteFile` for the log file. -/
def LogPiece (maxMsgSize : ℕ) : Option (ι × Message) × WStr → Prop
  | (none, data) => data = [unicodeTag]
  | (some key, data) => data = key.2.logged maxMsgSize

/-- The output comes in the order in which the lock was taken, each piece of it from one message, and
the console is given whole lines. -/
structure Written (maxMsgSize : ℕ) (charToOem : WStr → List UInt8) (order : List (ι × Message))
    (logFile : List (Option (ι × Message) × WStr)) (console : List ((ι × Message) × List UInt8)) :
    Prop where
  logOrder : (logFile.filterMap Prod.fst).Sublist order
  consoleOrder : (console.map Prod.fst).Sublist order
  logPieces : ∀ r ∈ logFile, LogPiece maxMsgSize r
  consoleLines : ∀ r ∈ console, r.1.2.text.length < maxMsgSize ∧ r.2 = charToOem r.1.2.line

/-- A message is the last in the order, and what comes of it is to be written yet. -/
def Due (s : State ι) (key : ι × Message) (senders : List (ι × Message)) : Prop :=
  ∃ pre, s.order = pre ++ [key] ∧ senders.Sublist pre

def logSenders (s : State ι) : List (ι × Message) := s.logFile.filterMap Prod.fst

def consoleSenders (s : State ι) : List (ι × Message) := s.console.map Prod.fst

/-- How far a thread in a phase has come with its message. -/
def TurnAt (maxMsgSize : ℕ) (s : State ι) (i : ι) : Phase → Prop
  | .formatting m => s.Due (i, m) s.logSenders ∧ s.Due (i, m) s.consoleSenders
  | .storing m rest => s.Due (i, m) s.logSenders ∧ s.Due (i, m) s.consoleSenders ∧
      (∀ store ∈ rest, store.1 < maxMsgSize + 50) ∧
      ∀ engine msgBuf, Usable maxMsgSize s.pTraceEngine engine msgBuf →
        (rest.foldl (fun a store => a.store store.1 store.2) msgBuf).StartsWith
          (m.shown maxMsgSize ++ [0])
  | .writingLog m => s.Due (i, m) s.logSenders ∧ s.Due (i, m) s.consoleSenders ∧
      ∀ engine msgBuf, Usable maxMsgSize s.pTraceEngine engine msgBuf →
        msgBuf.StartsWith (m.shown maxMsgSize ++ [0])
  | .writingConsole m => s.Due (i, m) s.consoleSenders ∧
      ∀ engine msgBuf, Usable maxMsgSize s.pTraceEngine engine msgBuf →
        msgBuf.StartsWith (m.shown maxMsgSize ++ [0])
  | _ => True

def Turn (maxMsgSize : ℕ) (s : State ι) (i : ι) : Prop := TurnAt maxMsgSize s i (s.threads i)

structure Sound (maxMsgSize : ℕ) (charToOem : WStr → List UInt8) (s : State ι) : Prop where
  guarded : Guarded s.Inside s.slTraceEngine
  engine : EngineSound maxMsgSize s
  turn : ∀ i, Turn maxMsgSize s i
  written : Written maxMsgSize charToOem s.order s.logFile s.console

variable {s s' : State ι} {i : ι}

theorem turn_of_not_holds (h : ¬ (s.threads i).Holds) : Turn maxMsgSize s i := by
  unfold Turn
  cases hphase : s.threads i <;> first | exact trivial | exact absurd (hphase ▸ trivial) h

theorem Sound.usable_of_inside (h : Sound maxMsgSize charToOem s) (hi : (s.threads i).Holds) :
    ∃ engine msgBuf, Usable maxMsgSize s.pTraceEngine engine msgBuf := by
  have hout : ¬ s.Inside none := h.guarded.not_inside (i := some i) hi (by simp)
  exact h.engine.buffer (Owner.HasBuffer.of_not_holds hout)

theorem Due.log {key : ι × Message} (h : s.Due key s.logSenders)
    (hwritten : Written maxMsgSize charToOem s.order s.logFile s.console) {data : WStr}
    (hdata : data = key.2.logged maxMsgSize) :
    Written maxMsgSize charToOem s.order (s.logFile ++ [(some key, data)]) s.console := by
  obtain ⟨pre, horder, hsub⟩ := h
  refine ⟨?_, hwritten.consoleOrder, ?_, hwritten.consoleLines⟩
  · rw [List.filterMap_append, horder]
    exact hsub.append (List.Sublist.refl [key])
  · intro r hr
    cases List.mem_append.mp hr with
    | inl hr => exact hwritten.logPieces r hr
    | inr hr =>
      rw [List.mem_singleton.mp hr]
      exact hdata

theorem Due.console {key : ι × Message} (h : s.Due key s.consoleSenders)
    (hwritten : Written maxMsgSize charToOem s.order s.logFile s.console)
    (hfits : key.2.text.length < maxMsgSize) :
    Written maxMsgSize charToOem s.order s.logFile
      (s.console ++ [(key, charToOem key.2.line)]) := by
  obtain ⟨pre, horder, hsub⟩ := h
  refine ⟨hwritten.logOrder, ?_, hwritten.logPieces, ?_⟩
  · rw [List.map_append, horder]
    exact hsub.append (List.Sublist.refl [key])
  · intro r hr
    cases List.mem_append.mp hr with
    | inl hr => exact hwritten.consoleLines r hr
    | inr hr =>
      rw [List.mem_singleton.mp hr]
      exact ⟨hfits, rfl⟩

theorem filterMap_tags (n : ℕ) :
    (List.replicate n ((none : Option (ι × Message)), [unicodeTag])).filterMap Prod.fst = [] := by
  induction n with
  | zero => rfl
  | succ n ih => exact ih

theorem Written.tags (h : Written maxMsgSize charToOem s.order s.logFile s.console) (n : ℕ) :
    Written maxMsgSize charToOem s.order
      (s.logFile ++ List.replicate n (none, [unicodeTag])) s.console := by
  refine ⟨?_, h.consoleOrder, ?_, h.consoleLines⟩
  · rw [List.filterMap_append, filterMap_tags, List.append_nil]
    exact h.logOrder
  · intro r hr
    rcases List.mem_append.mp hr with hr | hr
    · exact h.logPieces r hr
    · rw [(List.mem_replicate.mp hr).2]
      rfl

section Owner

variable {pTraceEngine : Option CTraceEngine} {x : Int32} {owner : Owner}

theorem inside_owner_iff (s : State ι) (pTraceEngine : Option CTraceEngine) (x : Int32)
    (owner : Owner) (k : Option ι) :
    ({ s with pTraceEngine, slTraceEngine := x, owner } : State ι).Inside k ↔
      if k = none then owner.Holds else s.Inside k := by
  cases k with
  | none => simp [Inside]
  | some i => simp [Inside]

theorem Sound.withOwner (h : Sound maxMsgSize charToOem s) (hnone : ∀ i, ¬ (s.threads i).Holds)
    (hguarded : Guarded ({ s with pTraceEngine, slTraceEngine := x, owner } : State ι).Inside x)
    (hengine : EngineSound maxMsgSize { s with pTraceEngine, slTraceEngine := x, owner }) :
    Sound maxMsgSize charToOem { s with pTraceEngine, slTraceEngine := x, owner } :=
  ⟨hguarded, hengine, fun i => turn_of_not_holds (hnone i), h.written⟩

theorem Sound.no_thread (h : Sound maxMsgSize charToOem s) (howner : s.owner.Holds) (i : ι) :
    ¬ (s.threads i).Holds :=
  h.guarded.not_inside (i := none) (j := some i) howner (by simp)

theorem Sound.ownerInside (h : Sound maxMsgSize charToOem s) (howner : s.owner.Holds) (hnext : owner.Holds)
    (hengine : EngineSound maxMsgSize { s with pTraceEngine, owner }) :
    Sound maxMsgSize charToOem { s with pTraceEngine, owner } := by
  refine h.withOwner (h.no_thread howner) (h.guarded.keep ?_) hengine
  intro k
  rw [inside_owner_iff]
  split_ifs with hk
  · rw [hk]
    exact iff_of_true hnext howner
  · exact Iff.rfl

theorem Sound.ownerLeaves (h : Sound maxMsgSize charToOem s) (howner : s.owner.Holds)
    (hnext : ¬ owner.Holds)
    (hengine : EngineSound maxMsgSize
      { s with pTraceEngine, slTraceEngine := SpinLocks.leave s.slTraceEngine, owner }) :
    Sound maxMsgSize charToOem
      { s with pTraceEngine, slTraceEngine := SpinLocks.leave s.slTraceEngine, owner } := by
  refine h.withOwner (h.no_thread howner) (h.guarded.leave (i := none) howner ?_ ?_) hengine
  · rw [inside_owner_iff, if_pos rfl]
    exact hnext
  · intro k hk
    rw [inside_owner_iff, if_neg hk]

theorem EngineSound.withOwner (h : EngineSound maxMsgSize s) (howner : s.owner ≠ .absent)
    (hnext : owner ≠ .absent) (hbuffer : owner.HasBuffer → s.owner.HasBuffer) :
    EngineSound maxMsgSize { s with slTraceEngine := x, owner } := by
  refine ⟨iff_of_false hnext fun hnone => howner (h.absent.mpr hnone), h.size, ?_⟩
  intro hhas
  exact h.buffer (hbuffer hhas)

theorem EngineSound.replaced (h : EngineSound maxMsgSize s) {engine engine' : CTraceEngine}
    (hengine : s.pTraceEngine = some engine) (hsize : engine'.uMaxMsgSize = engine.uMaxMsgSize)
    (hnext : owner ≠ .absent)
    (hbuffer : owner.HasBuffer → s.owner.HasBuffer ∧ engine'.msgBuf = engine.msgBuf) :
    EngineSound maxMsgSize
      { s with pTraceEngine := some engine', slTraceEngine := x, owner } := by
  refine ⟨iff_of_false hnext (Option.some_ne_none _), ?_, ?_⟩
  · intro e he
    rw [← Option.some.inj he, hsize]
    exact h.size engine hengine
  · intro hhas
    obtain ⟨hbefore, hsame⟩ := hbuffer hhas
    obtain ⟨e, msgBuf, hu⟩ := h.buffer hbefore
    obtain rfl : engine = e := Option.some.inj (hengine.symm.trans hu.present)
    exact ⟨engine', msgBuf, rfl, hsize.trans hu.size, hsame.trans hu.buffer, hu.room, hu.inside⟩

theorem Sound.ownerEnters (h : Sound maxMsgSize charToOem s) (howner : ¬ s.owner.Holds)
    (hnext : owner.Holds) (habsent : owner ≠ .absent) :
    Sound maxMsgSize charToOem (s.enter owner) := by
  unfold State.enter
  cases hx : tryEnter s.slTraceEngine with
  | none => exact h
  | some x =>
    have hbefore : s.owner ≠ .absent := by
      intro heq
      rw [heq] at howner
      exact howner trivial
    have hguarded : Guarded ({ s with slTraceEngine := x, owner } : State ι).Inside x := by
      refine h.guarded.enter (i := none) hx hnext ?_
      intro k hk
      cases k with
      | none => exact absurd rfl hk
      | some i => exact Iff.rfl
    refine h.withOwner ?_ hguarded
      (h.engine.withOwner hbefore habsent fun _ => Owner.HasBuffer.of_not_holds howner)
    intro i
    exact hguarded.not_inside (i := none) (j := some i) hnext (by simp)

theorem Sound.exists_engine (h : Sound maxMsgSize charToOem s) (howner : s.owner ≠ .absent) :
    ∃ engine, s.pTraceEngine = some engine := by
  apply Option.ne_none_iff_exists'.mp
  intro hnone
  exact howner (h.engine.absent.mpr hnone)

/-- Steps of the owner outside the lock, and changes of the engine that leave its buffer alone. -/
theorem Sound.configured (h : Sound maxMsgSize charToOem s) {engine engine' : CTraceEngine}
    {logFile : List (Option (ι × Message) × WStr)}
    (hengine : s.pTraceEngine = some engine) (hsize : engine'.uMaxMsgSize = engine.uMaxMsgSize)
    (hsame : engine'.msgBuf = engine.msgBuf) (hholds : owner.Holds ↔ s.owner.Holds)
    (hnext : owner ≠ .absent) (hbuffer : owner.HasBuffer → s.owner.HasBuffer)
    (hlog : logFile.filterMap Prod.fst = s.logSenders)
    (hwritten : Written maxMsgSize charToOem s.order logFile s.console) :
    Sound maxMsgSize charToOem { s with pTraceEngine := some engine', owner, logFile } := by
  have husable : ∀ e msgBuf, Usable maxMsgSize (some engine') e msgBuf →
      Usable maxMsgSize s.pTraceEngine engine msgBuf := by
    intro e msgBuf hu
    obtain rfl := Option.some.inj hu.present
    exact ⟨hengine, hsize.symm.trans hu.size, hsame.symm.trans hu.buffer, hu.room, hu.inside⟩
  have hreplaced : EngineSound maxMsgSize
      { s with pTraceEngine := some engine', slTraceEngine := s.slTraceEngine, owner } :=
    h.engine.replaced hengine hsize hnext fun hhas => ⟨hbuffer hhas, hsame⟩
  refine ⟨?_, ⟨hreplaced.absent, hreplaced.size, hreplaced.buffer⟩, ?_, hwritten⟩
  · apply h.guarded.keep
    intro k
    cases k with
    | none => exact hholds
    | some i => exact Iff.rfl
  · intro i
    have hturn := h.turn i
    unfold Turn at hturn ⊢
    dsimp only
    cases hi : s.threads i with
    | storing m rest =>
      rw [hi] at hturn
      obtain ⟨hdue, hconsole, hroom, hline⟩ := hturn
      rw [← hlog] at hdue
      exact ⟨hdue, hconsole, hroom, fun e msgBuf hu => hline engine msgBuf (husable e msgBuf hu)⟩
    | writingLog m =>
      rw [hi] at hturn
      obtain ⟨hdue, hconsole, hline⟩ := hturn
      rw [← hlog] at hdue
      exact ⟨hdue, hconsole, fun e msgBuf hu => hline engine msgBuf (husable e msgBuf hu)⟩
    | writingConsole m =>
      rw [hi] at hturn
      obtain ⟨hconsole, hline⟩ := hturn
      exact ⟨hconsole, fun e msgBuf hu => hline engine msgBuf (husable e msgBuf hu)⟩
    | formatting m =>
      rw [hi] at hturn
      obtain ⟨hdue, hconsole⟩ := hturn
      rw [← hlog] at hdue
      exact ⟨hdue, hconsole⟩
    | _ => exact trivial

theorem Sound.initializeEngine (h : Sound maxMsgSize charToOem s) (createThread : Bool) (raw : ℕ → WChar) :
    Sound maxMsgSize charToOem (s.initializeEngine maxMsgSize createThread raw) := by
  unfold State.initializeEngine
  cases howner : s.owner with
  | absent =>
    refine h.ownerInside (howner ▸ trivial) trivial ⟨?_, ?_, ?_⟩
    · exact iff_of_false (fun heq => by cases heq) (Option.some_ne_none _)
    · intro engine hengine
      rw [← Option.some.inj hengine]
    · intro hhas
      exact hhas.elim
  | _ => exact h

end Owner

theorem stopAll_outside (engine : CTraceEngine) :
    ¬ (stopAll engine).Holds ∧ stopAll engine ≠ .absent := by
  unfold stopAll
  split_ifs <;> exact ⟨not_false, fun habsent => by cases habsent⟩

theorem Sound.ownerStep (h : Sound maxMsgSize charToOem s) :
    ∃ s', s.ownerStep maxMsgSize = some s' ∧ Sound maxMsgSize charToOem s' := by
  by_cases habsent : s.owner = .absent
  · unfold State.ownerStep
    rw [habsent]
    exact ⟨s, rfl, h⟩
  obtain ⟨engine, hengine⟩ := h.exists_engine habsent
  unfold State.ownerStep
  cases howner : s.owner with
  | absent => exact ⟨s, rfl, h⟩
  | created raw =>
    have hsize := h.engine.size engine hengine
    rw [hengine]
    refine ⟨_, rfl, h.ownerInside (howner ▸ trivial) trivial ⟨?_, ?_, ?_⟩⟩
    · exact iff_of_false (fun heq => by cases heq) (Option.some_ne_none _)
    · intro engine' hengine'
      rw [← Option.some.inj hengine']
      exact hsize
    · intro _
      exact ⟨_, _, rfl, hsize, rfl, rfl, CharArray.inside_new _ _⟩
  | allocated =>
    exact ⟨_, rfl, h.ownerLeaves (howner ▸ trivial) not_false
      (h.engine.withOwner habsent (fun heq => by cases heq) fun _ => howner ▸ trivial)⟩
  | running => exact ⟨s, rfl, h⟩
  | stoppingConsole =>
    have hout : ¬ s.owner.Holds := howner ▸ not_false
    exact ⟨_, rfl, h.ownerEnters hout trivial fun heq => by cases heq⟩
  | consoleLocked =>
    obtain ⟨hout, hnext⟩ := stopAll_outside engine.stopConsoleTrace
    rw [hengine]
    exact ⟨_, rfl, h.ownerLeaves (howner ▸ trivial) hout
      (h.engine.replaced hengine rfl hnext fun _ => ⟨howner ▸ trivial, rfl⟩)⟩
  | stoppingLog =>
    have hout : ¬ s.owner.Holds := howner ▸ not_false
    exact ⟨_, rfl, h.ownerEnters hout trivial fun heq => by cases heq⟩
  | logLocked =>
    rw [hengine]
    exact ⟨_, rfl, h.ownerLeaves (howner ▸ trivial) not_false
      (h.engine.replaced hengine rfl (fun heq => by cases heq) fun _ => ⟨howner ▸ trivial, rfl⟩)⟩
  | locking =>
    have hout : ¬ s.owner.Holds := howner ▸ not_false
    exact ⟨_, rfl, h.ownerEnters hout trivial fun heq => by cases heq⟩
  | locked =>
    rw [hengine]
    exact ⟨_, rfl, h.ownerInside (howner ▸ trivial) trivial
      (h.engine.replaced hengine rfl (fun heq => by cases heq) fun hhas => hhas.elim)⟩
  | freed =>
    refine ⟨_, rfl, h.ownerInside (howner ▸ trivial) trivial ⟨iff_of_true rfl rfl, ?_, ?_⟩⟩
    · intro engine' hengine'
      cases hengine'
    · intro hhas
      exact hhas.elim

theorem Sound.present (h : Sound maxMsgSize charToOem s) {engine : CTraceEngine}
    (hengine : s.pTraceEngine = some engine) : s.owner ≠ .absent := by
  intro habsent
  rw [h.engine.absent.mp habsent] at hengine
  cases hengine

theorem Sound.setEngine (h : Sound maxMsgSize charToOem s) {engine engine' : CTraceEngine}
    (hengine : s.pTraceEngine = some engine) (hsize : engine'.uMaxMsgSize = engine.uMaxMsgSize)
    (hsame : engine'.msgBuf = engine.msgBuf) :
    Sound maxMsgSize charToOem (s.setEngine engine') :=
  h.configured hengine hsize hsame Iff.rfl (h.present hengine) id rfl h.written

theorem Sound.startLogTrace (h : Sound maxMsgSize charToOem s) (traceLevel : Int32)
    (file : LogFile) : Sound maxMsgSize charToOem (s.startLogTrace traceLevel file) := by
  unfold State.startLogTrace
  cases hengine : s.pTraceEngine with
  | none => exact h
  | some engine =>
    dsimp only
    by_cases hrunning : engine.bLogTraceRunning = true
    · rw [if_pos hrunning]
      exact h
    · rw [if_neg hrunning]
      have hsenders : (s.logFile ++ List.replicate file.tags (none, [unicodeTag])).filterMap
          Prod.fst = s.logSenders := by
        rw [List.filterMap_append, filterMap_tags, List.append_nil, logSenders]
      refine h.configured hengine ?_ ?_ Iff.rfl (h.present hengine) id hsenders
        (h.written.tags file.tags)
      · unfold CTraceEngine.startLogTrace
        rw [if_neg hrunning]
      · unfold CTraceEngine.startLogTrace
        rw [if_neg hrunning]

theorem Sound.startConsoleTrace (h : Sound maxMsgSize charToOem s) (traceLevel : Int32)
    (attached : Bool) :
    (s.startConsoleTrace traceLevel attached = none ↔ s.pTraceEngine = none) ∧
      ∀ s', s.startConsoleTrace traceLevel attached = some s' →
        Sound maxMsgSize charToOem s' := by
  unfold State.startConsoleTrace
  cases hengine : s.pTraceEngine with
  | none =>
    refine ⟨iff_of_true rfl rfl, ?_⟩
    intro s' hs'
    cases hs'
  | some engine =>
    refine ⟨iff_of_false (Option.some_ne_none _) (Option.some_ne_none _), ?_⟩
    intro s' hs'
    rw [← Option.some.inj hs']
    apply h.setEngine hengine
    · unfold CTraceEngine.startConsoleTrace
      split_ifs <;> rfl
    · unfold CTraceEngine.startConsoleTrace
      split_ifs <;> rfl

theorem Sound.destroy (h : Sound maxMsgSize charToOem s) :
    ∃ s', s.destroy = some s' ∧ Sound maxMsgSize charToOem s' := by
  unfold State.destroy
  cases howner : s.owner with
  | running =>
    have hpresent : s.owner ≠ .absent := by
      rw [howner]
      intro heq
      cases heq
    obtain ⟨engine, hengine⟩ := h.exists_engine hpresent
    obtain ⟨hout, hnext⟩ := stopAll_outside engine
    have hrunning : ¬ s.owner.Holds := howner ▸ not_false
    have hsound : Sound maxMsgSize charToOem
        { s with pTraceEngine := some engine, owner := stopAll engine, logFile := s.logFile } :=
      h.configured hengine rfl rfl (iff_of_false hout hrunning) hnext
        (fun _ => Owner.HasBuffer.of_not_holds hrunning) rfl h.written
    rw [hengine]
    exact ⟨_, rfl, hsound⟩
  | _ => exact ⟨s, rfl, h⟩

theorem sound_initial : Sound maxMsgSize charToOem ({} : State ι) := by
  refine ⟨⟨?_, ?_, ?_⟩, ⟨iff_of_true rfl rfl, ?_, fun hhas => hhas.elim⟩, fun _ => trivial, ?_⟩
  · intro j k hj hk
    cases j with
    | none =>
      cases k with
      | none => rfl
      | some k => exact hk.elim
    | some j => exact hj.elim
  · intro hzero
    have hone : (1 : Int32) = 0 := hzero
    exact absurd hone (by decide)
  · intro _
    exact ⟨rfl, none, trivial⟩
  · intro engine hengine
    cases hengine
  · exact ⟨List.Sublist.refl _, List.Sublist.refl _, fun r hr => (by cases hr),
      fun r hr => (by cases hr)⟩

variable [DecidableEq ι]

theorem inside_goto_iff (s : State ι) (i : ι) (phase : Phase) (k : Option ι) :
    (s.goto i phase).Inside k ↔ if k = some i then phase.Holds else s.Inside k := by
  cases k with
  | none => simp [Inside, goto]
  | some j =>
    by_cases hj : j = i
    · subst hj
      simp [Inside, goto]
    · simp [Inside, goto, hj]

theorem turn_of_alone (hguarded : Guarded s.Inside s.slTraceEngine) (hi : (s.threads i).Holds)
    (hturn : Turn maxMsgSize s i) (j : ι) : Turn maxMsgSize s j := by
  by_cases hj : j = i
  · rw [hj]
    exact hturn
  · apply turn_of_not_holds
    exact hguarded.not_inside (i := some i) (j := some j) hi (by simpa using hj)

theorem Sound.goto (h : Sound maxMsgSize charToOem s) (hi : ¬ (s.threads i).Holds) (phase : Phase)
    (hphase : ¬ phase.Holds) : Sound maxMsgSize charToOem (s.goto i phase) := by
  refine ⟨?_, ⟨h.engine.absent, h.engine.size, h.engine.buffer⟩, ?_, h.written⟩
  · apply h.guarded.keep
    intro k
    rw [inside_goto_iff]
    split_ifs with hk
    · rw [hk]
      exact iff_of_false hphase hi
    · exact Iff.rfl
  · intro j
    by_cases hj : j = i
    · apply turn_of_not_holds
      rw [hj]
      simpa [State.goto] using hphase
    · have hsame : (s.goto i phase).threads j = s.threads j := Function.update_of_ne hj _ _
      have hturn := h.turn j
      unfold Turn at hturn ⊢
      rw [hsame]
      exact hturn

theorem Sound.enter (h : Sound maxMsgSize charToOem s) {x : Int32} (hx : tryEnter s.slTraceEngine = some x)
    (phase : Phase) (hphase : phase.Holds) {order : List (ι × Message)} (horder : s.order.Sublist order)
    (hturn : Turn maxMsgSize ({ s with slTraceEngine := x, order }.goto i phase) i) :
    Sound maxMsgSize charToOem ({ s with slTraceEngine := x, order }.goto i phase) := by
  have hguarded : Guarded ({ s with slTraceEngine := x, order }.goto i phase).Inside x := by
    refine h.guarded.enter (i := some i) hx ?_ ?_
    · rw [inside_goto_iff, if_pos rfl]
      exact hphase
    · intro k hk
      rw [inside_goto_iff, if_neg hk]
      cases k with
      | none => exact Iff.rfl
      | some j => exact Iff.rfl
  refine ⟨hguarded, ⟨h.engine.absent, h.engine.size, h.engine.buffer⟩, ?_,
    ⟨h.written.logOrder.trans horder, h.written.consoleOrder.trans horder, h.written.logPieces,
      h.written.consoleLines⟩⟩
  refine turn_of_alone hguarded ?_ hturn
  simpa [State.goto] using hphase

theorem Sound.inside (h : Sound maxMsgSize charToOem s) (hi : (s.threads i).Holds) (phase : Phase)
    (hphase : phase.Holds) {pTraceEngine : Option CTraceEngine}
    {logFile : List (Option (ι × Message) × WStr)} {console : List ((ι × Message) × List UInt8)}
    (husable : ∃ engine msgBuf, Usable maxMsgSize pTraceEngine engine msgBuf)
    (hwritten : Written maxMsgSize charToOem s.order logFile console)
    (hturn : Turn maxMsgSize ({ s with pTraceEngine, logFile, console }.goto i phase) i) :
    Sound maxMsgSize charToOem ({ s with pTraceEngine, logFile, console }.goto i phase) := by
  have hguarded : Guarded ({ s with pTraceEngine, logFile, console }.goto i phase).Inside
      s.slTraceEngine := by
    apply h.guarded.keep
    intro k
    rw [inside_goto_iff]
    split_ifs with hk
    · rw [hk]
      exact iff_of_true hphase hi
    · cases k with
      | none => exact Iff.rfl
      | some j => exact Iff.rfl
  obtain ⟨engine, msgBuf, hu⟩ := husable
  have howner : s.owner ≠ .absent := by
    intro habsent
    obtain ⟨_, _, hbefore⟩ := h.usable_of_inside hi
    rw [h.engine.absent.mp habsent] at hbefore
    cases hbefore.present
  refine ⟨hguarded, ⟨?_, ?_, fun _ => ⟨engine, msgBuf, hu⟩⟩, ?_, hwritten⟩
  · apply iff_of_false howner
    intro hnone
    exact Option.some_ne_none engine (hu.present.symm.trans hnone)
  · intro engine' hengine'
    have heq : engine' = engine := Option.some.inj (hengine'.symm.trans hu.present)
    rw [heq]
    exact hu.size
  · refine turn_of_alone hguarded ?_ hturn
    simpa [State.goto] using hphase

theorem Sound.leave (h : Sound maxMsgSize charToOem s) (hi : (s.threads i).Holds) (phase : Phase)
    (hphase : ¬ phase.Holds) : Sound maxMsgSize charToOem
      ({ s with slTraceEngine := SpinLocks.leave s.slTraceEngine }.goto i phase) := by
  refine ⟨?_, ⟨h.engine.absent, h.engine.size, h.engine.buffer⟩, ?_, h.written⟩
  · refine h.guarded.leave (i := some i) hi ?_ ?_
    · rw [inside_goto_iff, if_pos rfl]
      exact hphase
    · intro k hk
      rw [inside_goto_iff, if_neg hk]
      cases k with
      | none => exact Iff.rfl
      | some j => exact Iff.rfl
  · intro j
    apply turn_of_not_holds
    by_cases hj : j = i
    · rw [hj]
      simpa [State.goto] using hphase
    · have hsame : ({ s with slTraceEngine := SpinLocks.leave s.slTraceEngine }.goto i
          phase).threads j = s.threads j := Function.update_of_ne hj _ _
      rw [hsame]
      exact h.guarded.not_inside (i := some i) (j := some j) hi (by simpa using hj)

theorem turn_goto {phase : Phase} (h : TurnAt maxMsgSize s i phase) :
    Turn maxMsgSize (s.goto i phase) i := by
  have hphase : (s.goto i phase).threads i = phase := by simp [goto]
  unfold Turn
  rw [hphase]
  cases phase <;> exact h

/-- A step that goes wrong: the engine is gone, or the text of a message that goes to the console has no
room in the array made for it. -/
def Faults (maxMsgSize : ℕ) (s : State ι) : Event ι → Prop
  | .thread i _ => ((s.threads i).Unguarded ∧ s.pTraceEngine = none) ∨
      ∃ m engine, s.threads i = .writingConsole m ∧ s.pTraceEngine = some engine ∧
        (engine.bConsoleTraceRunning = true ∧ engine.iConsoleTraceLevel ≤ m.severity) ∧
          maxMsgSize ≤ m.text.length
  | .startConsoleTrace _ _ => s.pTraceEngine = none
  | _ => False

def Goes (maxMsgSize : ℕ) (charToOem : WStr → List UInt8) (next : Option (State ι)) : Prop :=
  ∃ s', next = some s' ∧ Sound maxMsgSize charToOem s'

variable {raw : ℕ → UInt8}

theorem Sound.spinning (h : Sound maxMsgSize charToOem s) {c : Call} {behind : Behind}
    (hi : s.threads i = .spinning c behind) :
    Goes maxMsgSize charToOem (s.thread charToOem i raw) := by
  unfold thread
  rw [hi]
  cases hx : tryEnter s.slTraceEngine with
  | none => exact ⟨s, rfl, h⟩
  | some x =>
    cases c with
    | sendEvent m =>
      refine ⟨_, rfl, h.enter hx (.formatting m) trivial (List.sublist_append_left _ _)
        (turn_goto ⟨?_, ?_⟩)⟩
      · exact ⟨s.order, rfl, h.written.logOrder⟩
      · exact ⟨s.order, rfl, h.written.consoleOrder⟩
    | stopLogTrace =>
      exact ⟨_, rfl, h.enter hx (.stopping .stopLogTrace behind) trivial (List.Sublist.refl _)
        (turn_goto trivial)⟩
    | stopConsoleTrace =>
      exact ⟨_, rfl, h.enter hx (.stopping .stopConsoleTrace behind) trivial (List.Sublist.refl _)
        (turn_goto trivial)⟩
    | flushLogFile =>
      exact ⟨_, rfl, h.enter hx (.stopping .flushLogFile behind) trivial (List.Sublist.refl _)
        (turn_goto trivial)⟩

theorem Sound.formatting (h : Sound maxMsgSize charToOem s) {m : Message}
    (hi : s.threads i = .formatting m) :
    Goes maxMsgSize charToOem (s.thread charToOem i raw) := by
  have hholds : (s.threads i).Holds := hi ▸ trivial
  obtain ⟨engine, msgBuf, hu⟩ := h.usable_of_inside hholds
  have hturn := h.turn i
  unfold Turn at hturn
  rw [hi] at hturn
  obtain ⟨hlog, hconsole⟩ := hturn
  unfold thread
  rw [hi, hu.present]
  refine ⟨_, rfl, ?_⟩
  rw [hu.size]
  refine h.inside hholds (.storing m _) trivial ⟨engine, msgBuf, hu⟩ h.written
    (turn_goto ⟨hlog, hconsole, ?_, ?_⟩)
  · intro store hstore
    exact Message.lt_of_mem_stores hstore
  · intro engine' msgBuf' _
    exact m.startsWith_stores maxMsgSize msgBuf'

theorem Sound.storing (h : Sound maxMsgSize charToOem s) {m : Message} {rest : List (ℕ × WChar)}
    (hi : s.threads i = .storing m rest) :
    Goes maxMsgSize charToOem (s.thread charToOem i raw) := by
  have hholds : (s.threads i).Holds := hi ▸ trivial
  obtain ⟨engine, msgBuf, hu⟩ := h.usable_of_inside hholds
  have hturn := h.turn i
  unfold Turn at hturn
  rw [hi] at hturn
  obtain ⟨hlog, hconsole, hroom, hline⟩ := hturn
  unfold thread
  rw [hi]
  cases rest with
  | nil =>
    rw [hu.present]
    dsimp only [Option.bind_eq_bind, Option.bind_some]
    split_ifs
    · exact ⟨_, rfl, h.inside hholds (.unlocking .nothing) trivial ⟨engine, msgBuf, hu⟩ h.written
        (turn_goto trivial)⟩
    · exact ⟨_, rfl, h.inside hholds (.writingLog m) trivial ⟨engine, msgBuf, hu⟩ h.written
        (turn_goto ⟨hlog, hconsole, hline⟩)⟩
  | cons store rest =>
    obtain ⟨k, c⟩ := store
    obtain ⟨hk, hrest⟩ := List.forall_mem_cons.mp hroom
    have hu' : Usable maxMsgSize (some { engine with msgBuf := some (msgBuf.store k c) })
        { engine with msgBuf := some (msgBuf.store k c) } (msgBuf.store k c) := by
      refine ⟨rfl, hu.size, rfl, hu.room, hu.inside.store ?_⟩
      rw [hu.room]
      exact hk
    rw [hu.present]
    dsimp only [Option.bind_eq_bind, Option.bind_some]
    rw [hu.buffer]
    refine ⟨_, rfl, h.inside hholds (.storing m rest) trivial ⟨_, _, hu'⟩ h.written
      (turn_goto ⟨hlog, hconsole, hrest, ?_⟩)⟩
    intro engine' msgBuf' h'
    have hengine : engine' = { engine with msgBuf := some (msgBuf.store k c) } :=
      (Option.some.inj h'.present).symm
    have hbuf : msgBuf' = msgBuf.store k c := by
      have hbuffer := h'.buffer
      rw [hengine] at hbuffer
      exact (Option.some.inj hbuffer).symm
    rw [hbuf]
    exact hline engine msgBuf hu

theorem Sound.writingLog (h : Sound maxMsgSize charToOem s) {m : Message}
    (hi : s.threads i = .writingLog m) :
    Goes maxMsgSize charToOem (s.thread charToOem i raw) := by
  have hholds : (s.threads i).Holds := hi ▸ trivial
  obtain ⟨engine, msgBuf, hu⟩ := h.usable_of_inside hholds
  have hturn := h.turn i
  unfold Turn at hturn
  rw [hi] at hturn
  obtain ⟨hlog, hconsole, hline⟩ := hturn
  unfold thread
  rw [hi, hu.present]
  dsimp only [Option.bind_eq_bind, Option.bind_some]
  rw [hu.buffer]
  dsimp only [Option.bind_some]
  rw [hu.size]
  split_ifs
  · have hdata := Message.map_range_logged (hline engine msgBuf hu)
    exact ⟨_, rfl, h.inside hholds (.writingConsole m) trivial ⟨engine, msgBuf, hu⟩
      (hlog.log h.written hdata) (turn_goto ⟨hconsole, hline⟩)⟩
  · exact ⟨_, rfl, h.inside hholds (.writingConsole m) trivial ⟨engine, msgBuf, hu⟩ h.written
      (turn_goto ⟨hconsole, hline⟩)⟩

theorem Sound.writingConsole (h : Sound maxMsgSize charToOem s)
    (hoem : ∀ s, (charToOem s).length = s.length) {m : Message}
    (hi : s.threads i = .writingConsole m) :
    (s.thread charToOem i raw = none ↔ Faults maxMsgSize s (.thread i raw)) ∧
      ∀ s', s.thread charToOem i raw = some s' → Sound maxMsgSize charToOem s' := by
  have hholds : (s.threads i).Holds := hi ▸ trivial
  obtain ⟨engine, msgBuf, hu⟩ := h.usable_of_inside hholds
  have hturn := h.turn i
  unfold Turn at hturn
  rw [hi] at hturn
  obtain ⟨hconsole, hline⟩ := hturn
  have hfaults : Faults maxMsgSize s (.thread i raw) ↔
      (engine.bConsoleTraceRunning = true ∧ engine.iConsoleTraceLevel ≤ m.severity) ∧
        maxMsgSize ≤ m.text.length := by
    constructor
    · rintro (⟨hunguarded, _⟩ | ⟨m', engine', hi', hpresent, hwrites, hlong⟩)
      · rw [hi] at hunguarded
        exact hunguarded.elim
      · obtain rfl : m = m' := by
          rw [hi] at hi'
          exact Phase.writingConsole.inj hi'
        obtain rfl : engine = engine' := Option.some.inj (hu.present.symm.trans hpresent)
        exact ⟨hwrites, hlong⟩
    · rintro ⟨hwrites, hlong⟩
      exact .inr ⟨m, engine, hi, hu.present, hwrites, hlong⟩
  have hwrite := Message.writeConsoleMessage_eq hoem raw (hline engine msgBuf hu) hu.room
  rw [hfaults]
  unfold thread
  rw [hi, hu.present]
  dsimp only [Option.bind_eq_bind, Option.bind_some]
  rw [hu.buffer]
  dsimp only [Option.bind_some]
  rw [hu.size, hwrite]
  by_cases hwrites : engine.bConsoleTraceRunning = true ∧ engine.iConsoleTraceLevel ≤ m.severity
  · rw [if_pos hwrites, and_iff_right hwrites]
    by_cases hfits : m.text.length < maxMsgSize
    · rw [if_pos hfits]
      refine ⟨iff_of_false (Option.some_ne_none _) (Nat.not_le.mpr hfits), ?_⟩
      intro s' hs'
      rw [← Option.some.inj hs']
      exact h.inside hholds (.unlocking .nothing) trivial ⟨engine, msgBuf, hu⟩
        (hconsole.console h.written hfits) (turn_goto trivial)
    · rw [if_neg hfits]
      refine ⟨iff_of_true rfl (Nat.not_lt.mp hfits), ?_⟩
      intro s' hs'
      cases hs'
  · rw [if_neg hwrites]
    refine ⟨iff_of_false (Option.some_ne_none _) fun hboth => hwrites hboth.1, ?_⟩
    intro s' hs'
    rw [← Option.some.inj hs']
    exact h.inside hholds (.unlocking .nothing) trivial ⟨engine, msgBuf, hu⟩ h.written
      (turn_goto trivial)

theorem Sound.stopping (h : Sound maxMsgSize charToOem s) {c : Call} {behind : Behind}
    (hi : s.threads i = .stopping c behind) :
    Goes maxMsgSize charToOem (s.thread charToOem i raw) := by
  have hholds : (s.threads i).Holds := hi ▸ trivial
  obtain ⟨engine, msgBuf, hu⟩ := h.usable_of_inside hholds
  unfold thread
  rw [hi, hu.present]
  refine ⟨_, rfl, ?_⟩
  cases c <;> exact h.inside hholds (.unlocking behind) trivial
    ⟨_, msgBuf, rfl, hu.size, hu.buffer, hu.room, hu.inside⟩ h.written (turn_goto trivial)

theorem Sound.unguarded (h : Sound maxMsgSize charToOem s) (hi : (s.threads i).Unguarded)
    {engine : CTraceEngine} (hengine : s.pTraceEngine = some engine) :
    Goes maxMsgSize charToOem (s.thread charToOem i raw) := by
  have hout : ¬ (s.threads i).Holds := by
    cases hphase : s.threads i <;> rw [hphase] at hi <;> first | exact not_false | exact hi.elim
  unfold thread
  cases hphase : s.threads i with
  | filteringConsole m =>
    rw [hengine]
    dsimp only [Option.bind_eq_bind, Option.bind_some]
    split_ifs
    · exact ⟨_, rfl, h.goto hout (.filteringLog m) not_false⟩
    · exact ⟨_, rfl, h.goto hout (.spinning (.sendEvent m) .nothing) not_false⟩
  | filteringLog m =>
    rw [hengine]
    dsimp only [Option.bind_eq_bind, Option.bind_some]
    split_ifs
    · exact ⟨_, rfl, h.goto hout .idle not_false⟩
    · exact ⟨_, rfl, h.goto hout (.spinning (.sendEvent m) .nothing) not_false⟩
  | settingLevels logLevel consLevel =>
    rw [hengine]
    have hset : Sound maxMsgSize charToOem (s.setEngine (engine.setLevels logLevel consLevel)) :=
      h.setEngine hengine rfl rfl
    exact ⟨_, rfl, hset.goto hout .testingLogLevel not_false⟩
  | testingLogLevel =>
    rw [hengine]
    dsimp only [Option.bind_eq_bind, Option.bind_some]
    split_ifs
    · exact ⟨_, rfl, h.goto hout (.spinning .stopLogTrace .consoleLevel) not_false⟩
    · exact ⟨_, rfl, h.goto hout .testingConsoleLevel not_false⟩
  | testingConsoleLevel =>
    rw [hengine]
    dsimp only [Option.bind_eq_bind, Option.bind_some]
    split_ifs
    · exact ⟨_, rfl, h.goto hout (.spinning .stopConsoleTrace .nothing) not_false⟩
    · exact ⟨_, rfl, h.goto hout .idle not_false⟩
  | _ =>
    rw [hphase] at hi
    exact hi.elim

theorem thread_unguarded (hi : (s.threads i).Unguarded) (hengine : s.pTraceEngine = none) :
    s.thread charToOem i raw = none := by
  unfold thread
  cases hphase : s.threads i with
  | filteringConsole m => rw [hengine]; rfl
  | filteringLog m => rw [hengine]; rfl
  | settingLevels logLevel consLevel => rw [hengine]; rfl
  | testingLogLevel => rw [hengine]; rfl
  | testingConsoleLevel => rw [hengine]; rfl
  | _ =>
    rw [hphase] at hi
    exact hi.elim

theorem Sound.thread (h : Sound maxMsgSize charToOem s)
    (hoem : ∀ s, (charToOem s).length = s.length) (i : ι) (raw : ℕ → UInt8) :
    (s.thread charToOem i raw = none ↔ Faults maxMsgSize s (.thread i raw)) ∧
      ∀ s', s.thread charToOem i raw = some s' → Sound maxMsgSize charToOem s' := by
  have hgoes : Goes maxMsgSize charToOem (s.thread charToOem i raw) →
      ¬ Faults maxMsgSize s (.thread i raw) →
      (s.thread charToOem i raw = none ↔ Faults maxMsgSize s (.thread i raw)) ∧
        ∀ s', s.thread charToOem i raw = some s' → Sound maxMsgSize charToOem s' := by
    rintro ⟨t, ht, hsound⟩ hnot
    rw [ht]
    refine ⟨iff_of_false (Option.some_ne_none _) hnot, ?_⟩
    intro s' hs'
    rw [← Option.some.inj hs']
    exact hsound
  by_cases hconsole : ∃ m, s.threads i = .writingConsole m
  · obtain ⟨m, hi⟩ := hconsole
    exact h.writingConsole hoem hi
  have hfaults : Faults maxMsgSize s (.thread i raw) ↔
      (s.threads i).Unguarded ∧ s.pTraceEngine = none := by
    constructor
    · rintro (hfault | ⟨m, _, hi, _⟩)
      · exact hfault
      · exact absurd ⟨m, hi⟩ hconsole
    · exact .inl
  by_cases hunguarded : (s.threads i).Unguarded
  · cases hengine : s.pTraceEngine with
    | none =>
      have hnone : s.thread charToOem i raw = none := thread_unguarded hunguarded hengine
      rw [hnone]
      refine ⟨iff_of_true rfl (hfaults.mpr ⟨hunguarded, hengine⟩), ?_⟩
      intro s' hs'
      cases hs'
    | some engine =>
      apply hgoes (h.unguarded hunguarded hengine)
      rw [hfaults, hengine]
      exact fun hboth => Option.some_ne_none _ hboth.2
  apply hgoes ?_ (fun hfault => hunguarded (hfaults.mp hfault).1)
  cases hi : s.threads i with
  | idle =>
    unfold State.thread
    rw [hi]
    exact ⟨s, rfl, h⟩
  | testing m =>
    have hout : ¬ (s.threads i).Holds := by
      rw [hi]
      exact not_false
    unfold State.thread
    rw [hi]
    dsimp only
    split_ifs
    · exact ⟨_, rfl, h.goto hout .idle not_false⟩
    · exact ⟨_, rfl, h.goto hout (.filteringConsole m) not_false⟩
  | spinning c behind => exact h.spinning hi
  | formatting m => exact h.formatting hi
  | storing m rest => exact h.storing hi
  | writingLog m => exact h.writingLog hi
  | writingConsole m => exact absurd ⟨m, hi⟩ hconsole
  | stopping c behind => exact h.stopping hi
  | unlocking behind =>
    have hholds : (s.threads i).Holds := hi ▸ trivial
    unfold State.thread
    rw [hi]
    exact ⟨_, rfl, h.leave hholds behind.phase behind.phase_not_holds⟩
  | _ =>
    rw [hi] at hunguarded
    exact absurd trivial hunguarded

theorem Sound.call (h : Sound maxMsgSize charToOem s) (i : ι) (c : Call) :
    Sound maxMsgSize charToOem (s.call i c) := by
  unfold State.call
  cases hi : s.threads i with
  | idle =>
    have hout : ¬ (s.threads i).Holds := hi ▸ not_false
    cases c with
    | sendEvent m => exact h.goto hout (.testing m) not_false
    | stopLogTrace => exact h.goto hout (.spinning .stopLogTrace .nothing) not_false
    | stopConsoleTrace => exact h.goto hout (.spinning .stopConsoleTrace .nothing) not_false
    | flushLogFile => exact h.goto hout (.spinning .flushLogFile .nothing) not_false
  | _ => exact h

theorem Sound.setTraceLevel (h : Sound maxMsgSize charToOem s) (i : ι)
    (logLevel consLevel : Int32) :
    Sound maxMsgSize charToOem (s.setTraceLevel i logLevel consLevel) := by
  unfold State.setTraceLevel
  cases hi : s.threads i with
  | idle =>
    have hout : ¬ (s.threads i).Holds := hi ▸ not_false
    exact h.goto hout (.settingLevels logLevel consLevel) not_false
  | _ => exact h

theorem Sound.step (h : Sound maxMsgSize charToOem s)
    (hoem : ∀ s, (charToOem s).length = s.length) (e : Event ι) :
    (s.step maxMsgSize charToOem e = none ↔ Faults maxMsgSize s e) ∧
      ∀ s', s.step maxMsgSize charToOem e = some s' → Sound maxMsgSize charToOem s' := by
  have hfine : ∀ t, s.step maxMsgSize charToOem e = some t → Sound maxMsgSize charToOem t →
      ¬ Faults maxMsgSize s e →
      (s.step maxMsgSize charToOem e = none ↔ Faults maxMsgSize s e) ∧
        ∀ s', s.step maxMsgSize charToOem e = some s' → Sound maxMsgSize charToOem s' := by
    intro t ht hsound hnot
    rw [ht]
    refine ⟨iff_of_false (Option.some_ne_none _) hnot, ?_⟩
    intro s' hs'
    rw [← Option.some.inj hs']
    exact hsound
  cases e with
  | call i c => exact hfine _ rfl (h.call i c) id
  | setTraceLevel i logLevel consLevel =>
    exact hfine _ rfl (h.setTraceLevel i logLevel consLevel) id
  | thread i raw => exact h.thread hoem i raw
  | initializeEngine createThread raw => exact hfine _ rfl (h.initializeEngine createThread raw) id
  | destroy =>
    obtain ⟨t, ht, hsound⟩ := h.destroy
    exact hfine t ht hsound id
  | owner =>
    obtain ⟨t, ht, hsound⟩ := h.ownerStep
    exact hfine t ht hsound id
  | startLogTrace traceLevel file => exact hfine _ rfl (h.startLogTrace traceLevel file) id
  | startConsoleTrace traceLevel attached => exact h.startConsoleTrace traceLevel attached

theorem sound_run (h : Sound maxMsgSize charToOem s)
    (hoem : ∀ s, (charToOem s).length = s.length) (es : List (Event ι))
    (hrun : run maxMsgSize charToOem s es = some s') : Sound maxMsgSize charToOem s' := by
  induction es generalizing s with
  | nil =>
    rw [← Option.some.inj hrun]
    exact h
  | cons e es ih =>
    obtain ⟨t, ht, hrest⟩ := Option.bind_eq_some_iff.mp hrun
    exact ih ((h.step hoem e).2 t ht) hrest

theorem goto_goto (s : State ι) (i : ι) (phase next : Phase) :
    (s.goto i phase).goto i next = s.goto i next := by
  unfold State.goto
  rw [Function.update_idem]

theorem threads_goto (s : State ι) (i : ι) (phase : Phase) : (s.goto i phase).threads i = phase :=
  Function.update_self _ _ _

theorem goto_eq {phase : Phase} (hi : s.threads i = phase) : s.goto i phase = s := by
  unfold State.goto
  rw [← hi, Function.update_eq_self]

/-- One thread comes from one state to another while the others wait. -/
def Alone (maxMsgSize : ℕ) (charToOem : WStr → List UInt8) (i : ι) (raw : ℕ → UInt8)
    (s s' : State ι) : Prop :=
  ∃ n, run maxMsgSize charToOem s (List.replicate n (.thread i raw)) = some s'

theorem Alone.refl (s : State ι) : Alone maxMsgSize charToOem i raw s s := ⟨0, rfl⟩

theorem Alone.step {t : State ι} (hstep : s.thread charToOem i raw = some t)
    (h : Alone maxMsgSize charToOem i raw t s') : Alone maxMsgSize charToOem i raw s s' := by
  obtain ⟨n, hrun⟩ := h
  refine ⟨n + 1, ?_⟩
  unfold run at hrun ⊢
  rw [List.replicate_succ, List.foldlM_cons]
  change (s.thread charToOem i raw).bind _ = _
  rw [hstep]
  exact hrun

section

variable {engine : CTraceEngine}

theorem thread_stopping {c : Call} {behind : Behind} (hi : s.threads i = .stopping c behind)
    (hengine : s.pTraceEngine = some engine) : s.thread charToOem i raw =
      some ((s.setEngine (c.stop engine)).goto i (.unlocking behind)) := by
  unfold State.thread
  rw [hi, hengine]
  rfl

theorem thread_unlocking {behind : Behind} (hi : s.threads i = .unlocking behind) :
    s.thread charToOem i raw =
      some ({ s with slTraceEngine := SpinLocks.leave s.slTraceEngine }.goto i behind.phase) := by
  unfold State.thread
  rw [hi]

theorem Alone.stop {c : Call} (hc : ∀ m, c ≠ .sendEvent m) {behind : Behind}
    (hi : s.threads i = .spinning c behind) (hfree : s.slTraceEngine = 0)
    (hengine : s.pTraceEngine = some engine)
    (h : Alone maxMsgSize charToOem i raw ((s.setEngine (c.stop engine)).goto i behind.phase) s') :
    Alone maxMsgSize charToOem i raw s s' := by
  have henter : s.thread charToOem i raw =
      some ({ s with slTraceEngine := 1 }.goto i (.stopping c behind)) := by
    unfold State.thread
    rw [hi, hfree]
    cases c with
    | sendEvent m => exact absurd rfl (hc m)
    | stopLogTrace => rfl
    | stopConsoleTrace => rfl
    | flushLogFile => rfl
  have hlocked : ({ s with slTraceEngine := 1 }.goto i (.stopping c behind)).pTraceEngine =
      some engine := hengine
  apply Alone.step henter
  apply Alone.step (thread_stopping (threads_goto _ i _) hlocked)
  apply Alone.step (thread_unlocking (threads_goto _ i _))
  unfold State.goto State.setEngine at h ⊢
  simp only [Function.update_idem]
  rw [hfree] at h
  exact h

theorem setEngine_goto (s : State ι) (i : ι) (phase : Phase) (engine : CTraceEngine) :
    (s.goto i phase).setEngine engine = (s.setEngine engine).goto i phase := rfl

theorem thread_settingLevels {logLevel consLevel : Int32}
    (hi : s.threads i = .settingLevels logLevel consLevel) (hengine : s.pTraceEngine = some engine) :
    s.thread charToOem i raw =
      some ((s.setEngine (engine.setLevels logLevel consLevel)).goto i .testingLogLevel) := by
  unfold State.thread
  rw [hi, hengine]
  rfl

theorem thread_testingLogLevel (hi : s.threads i = .testingLogLevel)
    (hengine : s.pTraceEngine = some engine) : s.thread charToOem i raw =
      some (s.goto i (if engine.iLogTraceLevel = LOG_NONE then
        .spinning .stopLogTrace .consoleLevel else .testingConsoleLevel)) := by
  unfold State.thread
  rw [hi, hengine]
  dsimp only [Option.bind_eq_bind, Option.bind_some]
  split_ifs <;> rfl

theorem thread_testingConsoleLevel (hi : s.threads i = .testingConsoleLevel)
    (hengine : s.pTraceEngine = some engine) : s.thread charToOem i raw =
      some (s.goto i (if engine.iConsoleTraceLevel = LOG_NONE then
        .spinning .stopConsoleTrace .nothing else .idle)) := by
  unfold State.thread
  rw [hi, hengine]
  dsimp only [Option.bind_eq_bind, Option.bind_some]
  split_ifs <;> rfl

/-- The test of the console's level at the end of `SetTraceLevel`. -/
theorem Alone.testingConsoleLevel (hfree : s.slTraceEngine = 0)
    (hengine : s.pTraceEngine = some engine) :
    Alone maxMsgSize charToOem i raw (s.goto i .testingConsoleLevel) ((s.setEngine
      (if engine.iConsoleTraceLevel = LOG_NONE then engine.stopConsoleTrace else engine)).goto i
        .idle) := by
  apply Alone.step (thread_testingConsoleLevel (threads_goto s i _) hengine)
  rw [goto_goto]
  by_cases hlevel : engine.iConsoleTraceLevel = LOG_NONE
  · rw [if_pos hlevel, if_pos hlevel]
    have hlocks : ∀ m, Call.stopConsoleTrace ≠ .sendEvent m := fun m => Call.noConfusion
    apply Alone.stop hlocks (threads_goto s i _) hfree hengine
    rw [setEngine_goto, goto_goto]
    exact Alone.refl _
  · rw [if_neg hlevel, if_neg hlevel, State.setEngine, ← hengine]
    exact Alone.refl _

/-- `SetTraceLevel`, if nobody comes between its steps. -/
theorem setTraceLevel_alone (hi : s.threads i = .idle) (hfree : s.slTraceEngine = 0)
    (hengine : s.pTraceEngine = some engine) (logLevel consLevel : Int32) (raw : ℕ → UInt8) :
    Alone maxMsgSize charToOem i raw (s.setTraceLevel i logLevel consLevel)
      (s.setEngine (engine.setTraceLevel logLevel consLevel)) := by
  have hcall : s.setTraceLevel i logLevel consLevel =
      s.goto i (.settingLevels logLevel consLevel) := by
    unfold State.setTraceLevel
    rw [hi]
  have hend : (s.setEngine (engine.setTraceLevel logLevel consLevel)).goto i .idle =
      s.setEngine (engine.setTraceLevel logLevel consLevel) := goto_eq hi
  rw [hcall, ← hend]
  apply Alone.step (thread_settingLevels (threads_goto s i _) hengine)
  rw [setEngine_goto, goto_goto]
  unfold CTraceEngine.setTraceLevel
  dsimp only
  obtain ⟨levels, hlevels⟩ : ∃ levels, levels = engine.setLevels logLevel consLevel := ⟨_, rfl⟩
  rw [← hlevels]
  have hpresent : ((s.setEngine levels).goto i .testingLogLevel).pTraceEngine = some levels := rfl
  apply Alone.step (thread_testingLogLevel (threads_goto _ i _) hpresent)
  rw [goto_goto]
  by_cases hlog : levels.iLogTraceLevel = LOG_NONE
  · rw [if_pos hlog, if_pos hlog]
    have hlocks : ∀ m, Call.stopLogTrace ≠ .sendEvent m := fun m => Call.noConfusion
    have hfree' : ((s.setEngine levels).goto i
      (.spinning .stopLogTrace .consoleLevel)).slTraceEngine = 0 := hfree
    apply Alone.stop hlocks (threads_goto _ i _) hfree' rfl
    rw [setEngine_goto, goto_goto]
    exact @Alone.testingConsoleLevel _ _ _ (s.setEngine levels.stopLogTrace) i _ raw _ hfree rfl
  · rw [if_neg hlog, if_neg hlog]
    exact @Alone.testingConsoleLevel _ _ _ (s.setEngine levels) i _ raw _ hfree rfl

end

/-- What goes to the log file is the tag of a file, or one whole line, or of a message that has no room
for its text the header less its last character; what goes to the console is one whole line; both
have their lines in the order in which the lock was taken, and at most one of the threads and the
owner is inside. -/
structure Traced (maxMsgSize : ℕ) (charToOem : WStr → List UInt8) (s : State ι) : Prop where
  tags : ∀ data, (none, data) ∈ s.logFile → data = [unicodeTag]
  logFile : ∀ i m data, (some (i, m), data) ∈ s.logFile →
    data = if m.text.length < maxMsgSize then m.header ++ m.text else m.header.dropLast
  console : ∀ i m data, ((i, m), data) ∈ s.console →
    m.text.length < maxMsgSize ∧ data = charToOem (m.header ++ m.text)
  logOrder : (s.logFile.filterMap Prod.fst).Sublist s.order
  consoleOrder : (s.console.map Prod.fst).Sublist s.order
  exclusive : ∀ j k, s.Inside j → s.Inside k → j = k

/-- Any number of threads trace in any order, while the engine is made, configured and destroyed. -/
theorem run_lines (maxMsgSize : ℕ) (hoem : ∀ s, (charToOem s).length = s.length)
    (es : List (Event ι)) (hrun : run maxMsgSize charToOem ({} : State ι) es = some s) :
    Traced maxMsgSize charToOem s := by
  have h : Sound maxMsgSize charToOem s := sound_run sound_initial hoem es hrun
  refine ⟨?_, ?_, ?_, h.written.logOrder, h.written.consoleOrder, h.guarded.exclusive⟩
  · intro data hdata
    exact h.written.logPieces _ hdata
  · intro i m data hdata
    exact h.written.logPieces _ hdata
  · intro i m data hdata
    exact h.written.consoleLines _ hdata

def hello : Message where
  stNow := ⟨5, 17, 12, 0, 59⟩
  severity := LOG_WARNING
  facility := wcs "MAIN  "
  text := wcs "ok"
  facility_le := by decide
  facility_zero := by decide
  text_zero := by decide

/-- Eight characters are one too many for a buffer of eight. -/
def goodbye : Message where
  stNow := ⟨5, 17, 12, 1, 3⟩
  severity := LOG_NORMAL
  facility := wcs "MAIN  "
  text := wcs "good bye"
  facility_le := by decide
  facility_zero := by decide
  text_zero := by decide

/-- The engine is made, the log started with a new file, and the console for warnings. -/
def started : List (Event (Fin 2)) :=
  [.initializeEngine false fun _ => 0, .owner, .owner,
    .startLogTrace LOG_DEBUG ⟨false, true, false, false⟩, .startConsoleTrace LOG_WARNING true]

def oneByte (s : WStr) : List UInt8 := s.map UInt16.toUInt8

def noise : ℕ → UInt8 := fun _ => 0xCD

/-- One message goes to the log and the console while another thread waits for the lock, and the header
of the other's to the log. -/
theorem run_lines_hello :
    ∃ s, run 8 oneByte {} (started ++ [.call 0 (.sendEvent hello), .call 1 (.sendEvent goodbye)] ++
        List.replicate 60 (.thread 0 noise) ++ List.replicate 60 (.thread 1 noise)) = some s ∧
      s.logFile.length = 3 ∧ s.console.length = 1 ∧ Traced 8 oneByte s := by
  have hlengths : (run 8 oneByte {} (started ++ [.call 0 (.sendEvent hello),
      .call 1 (.sendEvent goodbye)] ++ List.replicate 60 (.thread 0 noise) ++
        List.replicate 60 (.thread 1 noise))).map
          (fun s => (s.logFile.length, s.console.length)) = some (3, 1) := by decide +kernel
  obtain ⟨s, hs, hlength⟩ := Option.map_eq_some_iff.mp hlengths
  obtain ⟨hlog, hconsole⟩ := Prod.mk.inj hlength
  exact ⟨s, hs, hlog, hconsole, run_lines 8 (fun _ => List.length_map _) _ hs⟩

end State

end Tracing

end TrapHandler
