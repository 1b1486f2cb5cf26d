import TrapHandler.Correlator
import TrapHandler.SkippingSweeps

/-!
# The erasing loops of the correlator

The loops of `CorrelatorMainFn` over the running commands and over the timers increment the iterator
that `erase` has returned, so each of them passes over the neighbour of an element it erases. The loop
at the shutdown erases every command it visits and leaves every other one.
-/

namespace TrapHandler.Correlator

open Sweeps

variable {D : Type}

/-- The loop over the running commands at the shutdown. A command that has not completed is waited
for, which does not change the list. -/
def shutdownLoop :
    (passOver : Bool) → List ExecObj → UInt32 → List ExecObj × UInt32
  | _, [], dwCurrentCommands => ([], dwCurrentCommands)
  | true, cmd :: cmds, dwCurrentCommands =>
    let r := shutdownLoop false cmds dwCurrentCommands
    (cmd :: r.1, r.2)
  | false, _ :: cmds, dwCurrentCommands => shutdownLoop true cmds (dwCurrentCommands - 1)

/-- What `CorrelatorMainFn` does with its lists behind the main loop. -/
def shutdown (s : Correlator D) : Correlator D :=
  let r := shutdownLoop false s.timerCommands s.dwCurrentCommands
  { timers := [], timerCommands := r.1, dwCurrentCommands := r.2 }

/-- `getCmdState` answers for the positions in the list. -/
def completed (getCmdState : ℕ → UInt32) (c : ExecObj × ℕ) : Bool := getCmdState c.2 != 0

def running (getCmdState : ℕ → UInt32) (cmds : List ExecObj) : List ExecObj :=
  (cmds.zipIdx.filter (!completed getCmdState ·)).map Prod.fst

/-- A pass over the running commands leaves those that have not completed. -/
def CommandsSwept (getCmdState : ℕ → UInt32) (s s' : Correlator D) : Prop :=
  s'.timerCommands = running getCmdState s.timerCommands

/-- A pass over the timers leaves no expired one, unless the commands have reached their number. -/
def TimersSwept (dwMaxCommands : UInt32) (isExpired : Correlation D → Bool) (s' : Correlator D) :
    Prop :=
  dwMaxCommands ≤ s'.dwCurrentCommands ∨ ∀ t ∈ s'.timers, isExpired t = false

theorem fst_commandLoop (getCmdState : ℕ → UInt32) (passOver : Bool) (i : ℕ) (cmds : List ExecObj)
    (dwCurrentCommands : UInt32) :
    (commandLoop getCmdState passOver i cmds dwCurrentCommands).1 =
      (kept (completed getCmdState) passOver (cmds.zipIdx i)).map Prod.fst := by
  induction cmds generalizing passOver i dwCurrentCommands with
  | nil =>
    rw [commandLoop, List.zipIdx_nil, kept]
    rfl
  | cons cmd cmds ih =>
    rw [List.zipIdx_cons]
    cases passOver with
    | true =>
      rw [commandLoop, kept, List.map_cons]
      exact congrArg (cmd :: ·) (ih false (i + 1) dwCurrentCommands)
    | false =>
      rw [commandLoop]
      by_cases hstate : getCmdState i = 0
      · have hneg : completed getCmdState (cmd, i) = false := bne_eq_false_iff_eq.mpr hstate
        rw [if_neg (fun h => h hstate), kept_false_cons_of_neg hneg, List.map_cons]
        exact congrArg (cmd :: ·) (ih false (i + 1) dwCurrentCommands)
      · have hpos : completed getCmdState (cmd, i) = true := bne_iff_ne.mpr hstate
        rw [if_pos hstate, kept_false_cons_of_pos hpos]
        exact ih true (i + 1) (dwCurrentCommands - 1)

theorem apart_zipIdx_iff (getCmdState : ℕ → UInt32) (cmds : List ExecObj) :
    Apart (completed getCmdState) cmds.zipIdx ↔
      ∀ i, i + 1 < cmds.length → getCmdState i = 0 ∨ getCmdState (i + 1) = 0 := by
  rw [Apart, List.isChain_iff_getElem]
  simp only [completed, List.length_zipIdx, List.getElem_zipIdx, Nat.zero_add, bne_eq_false_iff_eq]

theorem commandsSwept_iff (getCmdState : ℕ → UInt32) (cmds : List ExecObj)
    (dwCurrentCommands : UInt32) :
    (commandLoop getCmdState false 0 cmds dwCurrentCommands).1 = running getCmdState cmds ↔
      ∀ i, i + 1 < cmds.length → getCmdState i = 0 ∨ getCmdState (i + 1) = 0 := by
  rw [fst_commandLoop, ← apart_zipIdx_iff, ← length_kept_iff, running]
  constructor
  · intro h
    have hlen := congrArg List.length h
    rw [List.length_map, List.length_map] at hlen
    exact hlen
  · intro hlen
    have hfilter := filter_kept (p := completed getCmdState) false cmds.zipIdx
    rw [← hfilter] at hlen ⊢
    rw [List.filter_eq_self.mpr (List.length_filter_eq_length_iff.mp hlen.symm)]

theorem fst_shutdownLoop (passOver : Bool) (cmds : List ExecObj) (dwCurrentCommands : UInt32) :
    (shutdownLoop passOver cmds dwCurrentCommands).1 = kept (fun _ => true) passOver cmds := by
  induction cmds generalizing passOver dwCurrentCommands with
  | nil =>
    rw [shutdownLoop, kept]
  | cons cmd cmds ih =>
    cases passOver with
    | true =>
      rw [shutdownLoop, kept]
      exact congrArg (cmd :: ·) (ih false dwCurrentCommands)
    | false =>
      rw [shutdownLoop, kept_false_cons_of_pos rfl]
      exact ih true (dwCurrentCommands - 1)

theorem shutdown_eq_nil_iff (s : Correlator D) :
    s.shutdown.timerCommands = [] ↔ s.timerCommands.length ≤ 1 := by
  rw [shutdown, fst_shutdownLoop]
  exact kept_eq_nil_iff (fun _ => rfl) s.timerCommands

/-- The number of commands that are started for the timers in a list. -/
def actions (timers : List (Correlation D)) : ℕ := timers.countP (·.actionStr.isSome)

variable {dwMaxCommands : UInt32} {isExpired : Correlation D → Bool}

theorem toNat_startAction (c : Correlation D) {s : Correlator D}
    (h : s.dwCurrentCommands < dwMaxCommands) :
    (startAction c s).dwCurrentCommands.toNat = s.dwCurrentCommands.toNat + actions [c] := by
  have hlt := UInt32.lt_iff_toNat_lt.mp h
  have hmax := dwMaxCommands.toNat_lt
  rw [startAction, actions, List.countP_singleton]
  cases c.actionStr with
  | none => rfl
  | some actionStr =>
    have hone : (1 : UInt32).toNat = 1 := rfl
    rw [Option.isSome_some, if_pos rfl]
    change (s.dwCurrentCommands + 1).toNat = _
    rw [UInt32.toNat_add, hone, Nat.mod_eq_of_lt (by omega)]

theorem actions_cons (c : Correlation D) (timers : List (Correlation D)) :
    actions (c :: timers) = actions [c] + actions timers := by
  rw [actions, actions, actions, ← List.countP_append, List.singleton_append]

theorem timerLoop_of_lt (passOver : Bool) (l : List (Correlation D)) (s : Correlator D)
    (h : s.dwCurrentCommands.toNat + actions (erased isExpired passOver l) < dwMaxCommands.toNat) :
    (timerLoop dwMaxCommands isExpired passOver l s).timers =
        s.timers ++ kept isExpired passOver l ∧
      (timerLoop dwMaxCommands isExpired passOver l s).dwCurrentCommands.toNat =
        s.dwCurrentCommands.toNat + actions (erased isExpired passOver l) := by
  induction l generalizing passOver s with
  | nil =>
    rw [timerLoop, kept, erased, List.append_nil]
    exact ⟨rfl, rfl⟩
  | cons c l ih =>
    cases passOver with
    | true =>
      have hrest := ih false { s with timers := s.timers ++ [c] } h
      rw [List.append_assoc, List.singleton_append] at hrest
      exact hrest
    | false =>
      have hbudget : s.dwCurrentCommands < dwMaxCommands := by
        rw [UInt32.lt_iff_toNat_lt]
        omega
      rw [timerLoop, if_neg (UInt32.not_le.mpr hbudget)]
      cases hc : isExpired c with
      | true =>
        have hstart := toNat_startAction c hbudget
        rw [erased_false_cons_of_pos hc, actions_cons, ← Nat.add_assoc, ← hstart] at h ⊢
        have hrest := ih true (startAction c s) h
        rw [timers_startAction] at hrest
        rw [kept_false_cons_of_pos hc]
        exact hrest
      | false =>
        rw [erased_false_cons_of_neg hc] at h ⊢
        have hrest := ih false { s with timers := s.timers ++ [c] } h
        rw [List.append_assoc, List.singleton_append] at hrest
        rw [kept_false_cons_of_neg hc]
        exact hrest

/-- Where the commands for the timers the sweep erases reach their number, the loop uses it up. -/
theorem le_timerLoop (passOver : Bool) (l : List (Correlation D)) (s : Correlator D)
    (h : dwMaxCommands.toNat ≤ s.dwCurrentCommands.toNat + actions (erased isExpired passOver l)) :
    dwMaxCommands ≤ (timerLoop dwMaxCommands isExpired passOver l s).dwCurrentCommands := by
  induction l generalizing passOver s with
  | nil =>
    rw [timerLoop, UInt32.le_iff_toNat_le]
    exact h
  | cons c l ih =>
    cases passOver with
    | true => exact ih false { s with timers := s.timers ++ [c] } h
    | false =>
      rw [timerLoop]
      by_cases hfull : s.dwCurrentCommands ≥ dwMaxCommands
      · rw [if_pos hfull]
        exact hfull
      · rw [if_neg hfull]
        cases hc : isExpired c with
        | true =>
          have hstart := toNat_startAction c (UInt32.not_le.mp hfull)
          rw [erased_false_cons_of_pos hc, actions_cons, ← Nat.add_assoc, ← hstart] at h
          exact ih true (startAction c s) h
        | false =>
          rw [erased_false_cons_of_neg hc] at h
          exact ih false { s with timers := s.timers ++ [c] } h

/-- A pass over the timers is complete exactly if no two neighbours have expired, or if the commands
of those timers that are not passed over use up the number that may run. -/
theorem timersSwept_iff (dwMaxCommands : UInt32) (isExpired : Correlation D → Bool)
    (s : Correlator D) :
    TimersSwept dwMaxCommands isExpired
        (timerLoop dwMaxCommands isExpired false s.timers { s with timers := [] }) ↔
      Apart isExpired s.timers ∨
        dwMaxCommands.toNat ≤
          s.dwCurrentCommands.toNat + actions (erased isExpired false s.timers) := by
  by_cases hfull : dwMaxCommands.toNat ≤
      s.dwCurrentCommands.toNat + actions (erased isExpired false s.timers)
  · have hle := le_timerLoop false s.timers { s with timers := [] } hfull
    exact iff_of_true (Or.inl hle) (Or.inr hfull)
  · obtain ⟨htimers, hcount⟩ :=
      timerLoop_of_lt false s.timers { s with timers := [] } (Nat.not_le.mp hfull)
    have hless : ¬ dwMaxCommands ≤ (timerLoop dwMaxCommands isExpired false s.timers
        { s with timers := [] }).dwCurrentCommands := by
      rw [UInt32.le_iff_toNat_le, hcount]
      exact hfull
    rw [TimersSwept, or_iff_right hless, or_iff_left hfull, htimers, List.nil_append,
      forall_kept_iff]

/-- The passes over running commands and over timers are complete exactly if no two neighbours are to
be erased, or, for the timers, if the commands reach their number. The shutdown empties the list of
commands exactly if it has at most one. -/
theorem sweeps_iff (CORR_DELETE dwMaxCommands : UInt32)
    (isExpired : Correlation D → UInt64 → Bool) (getCmdState : ℕ → UInt32) (ft : UInt64)
    (s : Correlator D) :
    (CommandsSwept getCmdState s
        (step CORR_DELETE dwMaxCommands isExpired s (.completed getCmdState)) ↔
      ∀ i, i + 1 < s.timerCommands.length → getCmdState i = 0 ∨ getCmdState (i + 1) = 0) ∧
    (TimersSwept dwMaxCommands (isExpired · ft)
        (step CORR_DELETE dwMaxCommands isExpired s (.expiry ft)) ↔
      Apart (isExpired · ft) s.timers ∨
        dwMaxCommands.toNat ≤
          s.dwCurrentCommands.toNat + actions (erased (isExpired · ft) false s.timers)) ∧
    (s.shutdown.timerCommands = [] ↔ s.timerCommands.length ≤ 1) := by
  refine ⟨?_, ?_, ?_⟩
  · exact commandsSwept_iff getCmdState s.timerCommands s.dwCurrentCommands
  · exact timersSwept_iff dwMaxCommands (isExpired · ft) s
  · exact shutdown_eq_nil_iff s

def twoTimers : Correlator ℕ where
  timers := [
    { id := wcs "1", type := 0, duration := 1, startTime := 0, nTriggers := 0, actionStr := none },
    { id := wcs "2", type := 0, duration := 1, startTime := 0, nTriggers := 0, actionStr := none }]
  timerCommands := [CmdQueue.setCmdStr (wcs "a"), CmdQueue.setCmdStr (wcs "b")]
  dwCurrentCommands := 2

/-- Of two commands that have completed, of two timers that have expired and of two commands at the
shutdown the second one is left. -/
theorem twoTimers_left :
    ¬ CommandsSwept (fun _ => 1) twoTimers
        (step 1 10 (fun _ _ => true) twoTimers (.completed fun _ => 1)) ∧
      ¬ TimersSwept 10 (fun _ => true) (step 1 10 (fun _ _ => true) twoTimers (.expiry 5)) ∧
      twoTimers.shutdown.timerCommands ≠ [] := by
  refine ⟨?_, ?_, ?_⟩
  · intro h
    have hneighbours := (commandsSwept_iff (fun _ => 1) twoTimers.timerCommands 2).mp h
    cases hneighbours 0 (by decide) with
    | inl hzero => cases hzero
    | inr hzero => cases hzero
  · intro h
    cases (timersSwept_iff 10 (fun _ => true) twoTimers).mp h with
    | inl hapart =>
      obtain ⟨hhead, _⟩ := apart_cons.mp hapart
      cases hhead _ rfl with
      | inl hfalse => cases hfalse
      | inr hfalse => cases hfalse
    | inr hfull =>
      revert hfull
      decide
  · intro h
    have hlen := (shutdown_eq_nil_iff twoTimers).mp h
    revert hlen
    decide

end TrapHandler.Correlator
