import TrapHandler.CommandQueue
import TrapHandler.KeyedLists

/-!
# The correlator

`CorrelatorMainFn` keeps a list of timers, creates, updates and deletes them by their ids as requests
arrive, and sweeps out the expired ones as long as it may start commands. An iterator is the list
split at its position. Whether a timer has expired and whether a command has completed are inputs.
-/

namespace TrapHandler

open Runs

/-- The `generalInfo` of a correlation; `D` is the type of a duration. -/
structure Correlation (D : Type) where
  id : WStr
  type : UInt32
  duration : D
  startTime : UInt64
  nTriggers : UInt32
  actionStr : Option WStr
  deriving DecidableEq, Repr

structure Correlator (D : Type) where
  timers : List (Correlation D) := []
  timerCommands : List ExecObj := []
  dwCurrentCommands : UInt32 := 0
  deriving Repr

namespace Correlator

variable {D : Type}

def removeFromList (pCorr : Correlation D) : List (Correlation D) → List (Correlation D)
  | [] => []
  | c :: l => if c.id = pCorr.id then l else c :: removeFromList pCorr l

/-- What lies in front of the first correlation with the id, and what starts with it. -/
def getIteratorFromList (pCorr : Correlation D) :
    List (Correlation D) → List (Correlation D) × List (Correlation D)
  | [] => ([], [])
  | c :: l =>
    if c.id = pCorr.id then ([], c :: l)
    else (c :: (getIteratorFromList pCorr l).1, (getIteratorFromList pCorr l).2)

def updateTimer (pCorr it : Correlation D) : Correlation D :=
  { it with
    duration := pCorr.duration
    startTime := pCorr.startTime
    nTriggers := it.nTriggers + 1 }

def processRequest (CORR_DELETE : UInt32) (pCorr : Correlation D) (timers : List (Correlation D)) :
    List (Correlation D) :=
  if pCorr.type = CORR_DELETE then removeFromList pCorr timers
  else
    match getIteratorFromList pCorr timers with
    | (_, []) => timers ++ [pCorr]
    | (front, it :: back) => front ++ updateTimer pCorr it :: back

/-- The loop over the running commands, from the `i`-th on. The iterator that `erase` returns is
incremented once more, so the command behind an erased one is passed over. -/
def commandLoop (getCmdState : ℕ → UInt32) :
    (passOver : Bool) → ℕ → List ExecObj → UInt32 → List ExecObj × UInt32
  | _, _, [], dwCurrentCommands => ([], dwCurrentCommands)
  | true, i, cmd :: cmds, dwCurrentCommands =>
    let r := commandLoop getCmdState false (i + 1) cmds dwCurrentCommands
    (cmd :: r.1, r.2)
  | false, i, cmd :: cmds, dwCurrentCommands =>
    if getCmdState i ≠ 0 then commandLoop getCmdState true (i + 1) cmds (dwCurrentCommands - 1)
    else
      let r := commandLoop getCmdState false (i + 1) cmds dwCurrentCommands
      (cmd :: r.1, r.2)

/-- The command of an expired correlation is started, if it has one. -/
def startAction (c : Correlation D) (s : Correlator D) : Correlator D :=
  match c.actionStr with
  | none => s
  | some actionStr =>
    { s with
      timerCommands := s.timerCommands ++ [CmdQueue.setCmdStr actionStr]
      dwCurrentCommands := s.dwCurrentCommands + 1 }

/-- The loop over the timers; `s.timers` are those it has left in place. It passes over the timer
behind an erased one as well. -/
def timerLoop (dwMaxCommands : UInt32) (isExpired : Correlation D → Bool) :
    (passOver : Bool) → List (Correlation D) → Correlator D → Correlator D
  | _, [], s => s
  | true, c :: l, s => timerLoop dwMaxCommands isExpired false l { s with timers := s.timers ++ [c] }
  | false, c :: l, s =>
    if s.dwCurrentCommands ≥ dwMaxCommands then { s with timers := s.timers ++ c :: l }
    else if isExpired c then timerLoop dwMaxCommands isExpired true l (startAction c s)
    else timerLoop dwMaxCommands isExpired false l { s with timers := s.timers ++ [c] }

/-- A popped request, a pass over the running commands, and a pass over the timers at a time. -/
inductive Event (D : Type) where
  | request (pCorr : Correlation D)
  | completed (getCmdState : ℕ → UInt32)
  | expiry (ft : UInt64)

variable (CORR_DELETE dwMaxCommands : UInt32) (isExpired : Correlation D → UInt64 → Bool)

def step (s : Correlator D) : Event D → Correlator D
  | .request pCorr => { s with timers := processRequest CORR_DELETE pCorr s.timers }
  | .completed getCmdState =>
    let r := commandLoop getCmdState false 0 s.timerCommands s.dwCurrentCommands
    { s with timerCommands := r.1, dwCurrentCommands := r.2 }
  | .expiry ft =>
    timerLoop dwMaxCommands (fun c => isExpired c ft) false s.timers { s with timers := [] }

abbrev Distinct (timers : List (Correlation D)) : Prop := KeyedLists.Distinct Correlation.id timers

/-- After a delete request no timer has its id, and after a create request exactly one has, with the
duration and the start time of the request. -/
def Answered (pCorr : Correlation D) (timers : List (Correlation D)) : Prop :=
  if pCorr.type = CORR_DELETE then ∀ t ∈ timers, t.id ≠ pCorr.id
  else
    ∃ t, timers.filter (·.id == pCorr.id) = [t] ∧ t.duration = pCorr.duration ∧
      t.startTime = pCorr.startTime

variable {CORR_DELETE dwMaxCommands isExpired} {timers : List (Correlation D)}

theorem removeFromList_sublist (pCorr : Correlation D) (l : List (Correlation D)) :
    (removeFromList pCorr l).Sublist l := by
  induction l with
  | nil => exact List.Sublist.refl _
  | cons c l ih =>
    rw [removeFromList]
    split_ifs
    · exact List.sublist_cons_self c l
    · exact ih.cons_cons c

theorem id_ne_of_mem_removeFromList {pCorr : Correlation D} (h : Distinct timers) :
    ∀ t ∈ removeFromList pCorr timers, t.id ≠ pCorr.id := by
  induction timers with
  | nil => exact List.forall_mem_nil _
  | cons c l ih =>
    obtain ⟨hc, hl⟩ := KeyedLists.distinct_cons.mp h
    rw [removeFromList]
    split_ifs with hid
    · rw [← hid]
      exact hc
    · exact List.forall_mem_cons.mpr ⟨hid, ih hl⟩

theorem getIteratorFromList_spec (pCorr : Correlation D) (l : List (Correlation D)) :
    (getIteratorFromList pCorr l).1 ++ (getIteratorFromList pCorr l).2 = l ∧
      (∀ t ∈ (getIteratorFromList pCorr l).1, t.id ≠ pCorr.id) ∧
        ∀ it ∈ (getIteratorFromList pCorr l).2.head?, it.id = pCorr.id := by
  induction l with
  | nil => exact ⟨rfl, List.forall_mem_nil _, by simp [getIteratorFromList]⟩
  | cons c l ih =>
    obtain ⟨happend, hfront, hback⟩ := ih
    rw [getIteratorFromList]
    split_ifs with hid
    · refine ⟨rfl, List.forall_mem_nil _, ?_⟩
      intro it hit
      rw [← Option.some.inj hit, hid]
    · exact ⟨congrArg (c :: ·) happend, List.forall_mem_cons.mpr ⟨hid, hfront⟩, hback⟩

theorem answered_of_delete {pCorr : Correlation D} (htype : pCorr.type = CORR_DELETE)
    (h : Distinct timers) : Answered CORR_DELETE pCorr (processRequest CORR_DELETE pCorr timers) := by
  rw [Answered, if_pos htype, processRequest, if_pos htype]
  exact id_ne_of_mem_removeFromList h

theorem request_spec {pCorr : Correlation D} (h : Distinct timers) :
    Distinct (processRequest CORR_DELETE pCorr timers) ∧
      Answered CORR_DELETE pCorr (processRequest CORR_DELETE pCorr timers) := by
  by_cases htype : pCorr.type = CORR_DELETE
  · refine ⟨?_, answered_of_delete htype h⟩
    rw [processRequest, if_pos htype]
    exact h.sublist (removeFromList_sublist pCorr timers)
  · obtain ⟨happend, hfront, hback⟩ := getIteratorFromList_spec pCorr timers
    rw [Answered, if_neg htype, processRequest, if_neg htype]
    rcases hit : getIteratorFromList pCorr timers with ⟨front, _ | ⟨it, back⟩⟩
    · simp only [hit, List.append_nil] at happend hfront
      rw [happend] at hfront
      have hcreated := h.concat hfront
      have hmem : pCorr ∈ timers ++ [pCorr] := List.mem_concat_self
      exact ⟨hcreated, pCorr, hcreated.filter_key hmem, rfl, rfl⟩
    · simp only [hit] at happend hback
      have hid : it.id = pCorr.id := hback it rfl
      rw [← happend] at h
      have hupdated := h.replace (b := updateTimer pCorr it) rfl
      have hmem : updateTimer pCorr it ∈ front ++ updateTimer pCorr it :: back :=
        List.mem_append_right front List.mem_cons_self
      have hfilter := hupdated.filter_key hmem
      have hkept : (updateTimer pCorr it).id = pCorr.id := hid
      rw [hkept] at hfilter
      exact ⟨hupdated, _, hfilter, rfl, rfl⟩

theorem timers_startAction (c : Correlation D) (s : Correlator D) :
    (startAction c s).timers = s.timers := by
  rw [startAction]
  split <;> rfl

theorem timerLoop_sublist (isExpired : Correlation D → Bool) (passOver : Bool)
    (l : List (Correlation D)) (s : Correlator D) :
    (timerLoop dwMaxCommands isExpired passOver l s).timers.Sublist (s.timers ++ l) := by
  induction l generalizing passOver s with
  | nil =>
    rw [timerLoop, List.append_nil]
  | cons c l ih =>
    have hkept := ih false { s with timers := s.timers ++ [c] }
    rw [List.append_assoc, List.singleton_append] at hkept
    cases passOver with
    | true =>
      rw [timerLoop]
      exact hkept
    | false =>
      rw [timerLoop]
      split_ifs
      · exact List.Sublist.refl _
      · have herased := ih true (startAction c s)
        rw [timers_startAction] at herased
        exact herased.trans ((List.sublist_cons_self c l).append_left _)
      · exact hkept

theorem distinct_step {s : Correlator D} (h : Distinct s.timers) (e : Event D) :
    Distinct (step CORR_DELETE dwMaxCommands isExpired s e).timers := by
  cases e with
  | request pCorr => exact (request_spec h).1
  | completed getCmdState => exact h
  | expiry ft => exact h.sublist (timerLoop_sublist _ false s.timers { s with timers := [] })

theorem distinct_run (CORR_DELETE dwMaxCommands : UInt32)
    (isExpired : Correlation D → UInt64 → Bool) (events : List (Event D)) :
    Distinct (run (step CORR_DELETE dwMaxCommands isExpired) {} events).timers := by
  have hempty : Distinct ([] : List (Correlation D)) := KeyedLists.distinct_nil
  exact invariant (I := fun s : Correlator D => Distinct s.timers) hempty
    (fun _ e h => distinct_step h e) events

/-- In every run of requests and sweeps the ids stay distinct and every request is answered. -/
theorem requests_answered (CORR_DELETE dwMaxCommands : UInt32)
    (isExpired : Correlation D → UInt64 → Bool) (events : List (Event D)) :
    Distinct (run (step CORR_DELETE dwMaxCommands isExpired) {} events).timers ∧
      ∀ pCorr, Answered CORR_DELETE pCorr
        (run (step CORR_DELETE dwMaxCommands isExpired) {} (events ++ [.request pCorr])).timers := by
  refine ⟨distinct_run CORR_DELETE dwMaxCommands isExpired events, ?_⟩
  intro pCorr
  rw [run_concat]
  exact (request_spec (distinct_run CORR_DELETE dwMaxCommands isExpired events)).2

end Correlator

end TrapHandler
