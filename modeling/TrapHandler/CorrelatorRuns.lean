import TrapHandler.CorrelatorSweeps

/-!
# Runs of the correlator

In a whole run the counter of running commands is the length of their list and stays within its
limit. Though a pass may leave an expired timer behind, each pass brings it nearer to the front of the
list, so it is gone after as many passes as there are timers in front of it, and one more, whatever
requests for other timers arrive between the passes.
-/

namespace TrapHandler.Correlator

open Runs Sweeps

variable {D : Type} {CORR_DELETE dwMaxCommands : UInt32}

/-- The counter is the number of the commands in the list. -/
structure Counted (dwMaxCommands : UInt32) (s : Correlator D) : Prop where
  counter : s.dwCurrentCommands.toNat = s.timerCommands.length
  limit : s.timerCommands.length ≤ dwMaxCommands.toNat

theorem toNat_sub_one {a : UInt32} {n : ℕ} (h : a.toNat = n + 1) : (a - 1).toNat = n := by
  have hone : (1 : UInt32).toNat = 1 := rfl
  have hle : (1 : UInt32) ≤ a := by
    rw [UInt32.le_iff_toNat_le, hone, h]
    exact Nat.le_add_left 1 n
  rw [UInt32.toNat_sub_of_le a 1 hle, hone, h, Nat.add_sub_cancel]

theorem commandLoop_counts (getCmdState : ℕ → UInt32) (passOver : Bool) (i front : ℕ)
    (cmds : List ExecObj) (dwCurrentCommands : UInt32)
    (h : dwCurrentCommands.toNat = front + cmds.length) :
    (commandLoop getCmdState passOver i cmds dwCurrentCommands).2.toNat =
        front + (commandLoop getCmdState passOver i cmds dwCurrentCommands).1.length ∧
      (commandLoop getCmdState passOver i cmds dwCurrentCommands).1.length ≤ cmds.length := by
  induction cmds generalizing passOver i front dwCurrentCommands with
  | nil =>
    rw [commandLoop]
    exact ⟨h, le_rfl⟩
  | cons cmd cmds ih =>
    have hkeep : dwCurrentCommands.toNat = front + 1 + cmds.length := by
      rw [h, List.length_cons]
      omega
    cases passOver with
    | true =>
      obtain ⟨hcount, hlen⟩ := ih false (i + 1) (front + 1) dwCurrentCommands hkeep
      rw [commandLoop]
      dsimp only
      rw [List.length_cons, List.length_cons]
      omega
    | false =>
      rw [commandLoop]
      split_ifs with hstate
      · have herase : (dwCurrentCommands - 1).toNat = front + cmds.length := by
          apply toNat_sub_one
          omega
        obtain ⟨hcount, hlen⟩ := ih true (i + 1) front (dwCurrentCommands - 1) herase
        rw [List.length_cons]
        omega
      · obtain ⟨hcount, hlen⟩ := ih false (i + 1) (front + 1) dwCurrentCommands hkeep
        dsimp only
        rw [List.length_cons, List.length_cons]
        omega

theorem Counted.startAction (c : Correlation D) {s : Correlator D} (h : Counted dwMaxCommands s)
    (hbudget : s.dwCurrentCommands < dwMaxCommands) :
    Counted dwMaxCommands (startAction c s) := by
  have hstart := toNat_startAction c hbudget
  have hlt := UInt32.lt_iff_toNat_lt.mp hbudget
  have hcounter := h.counter
  unfold actions at hstart
  rw [List.countP_singleton] at hstart
  unfold Correlator.startAction at hstart ⊢
  cases haction : c.actionStr with
  | none => exact h
  | some actionStr =>
    simp only [haction, Option.isSome_some, if_true] at hstart
    constructor
    · simp only [List.length_append, List.length_singleton]
      omega
    · simp only [List.length_append, List.length_singleton]
      omega

theorem Counted.timerLoop (isExpired : Correlation D → Bool) (passOver : Bool)
    (l : List (Correlation D)) {s : Correlator D} (h : Counted dwMaxCommands s) :
    Counted dwMaxCommands (timerLoop dwMaxCommands isExpired passOver l s) := by
  induction l generalizing passOver s with
  | nil =>
    rw [Correlator.timerLoop]
    exact h
  | cons c l ih =>
    have hkeep : Counted dwMaxCommands { s with timers := s.timers ++ [c] } :=
      ⟨h.counter, h.limit⟩
    cases passOver with
    | true =>
      rw [Correlator.timerLoop]
      exact ih false hkeep
    | false =>
      rw [Correlator.timerLoop]
      by_cases hfull : s.dwCurrentCommands ≥ dwMaxCommands
      · rw [if_pos hfull]
        exact ⟨h.counter, h.limit⟩
      rw [if_neg hfull]
      split_ifs
      · exact ih true (h.startAction c (UInt32.not_le.mp hfull))
      · exact ih false hkeep

theorem Counted.step {isExpired : Correlation D → UInt64 → Bool} {s : Correlator D}
    (h : Counted dwMaxCommands s) (e : Event D) :
    Counted dwMaxCommands (step CORR_DELETE dwMaxCommands isExpired s e) := by
  cases e with
  | request pCorr => exact ⟨h.counter, h.limit⟩
  | completed getCmdState =>
    have hcounter : s.dwCurrentCommands.toNat = 0 + s.timerCommands.length := by
      rw [h.counter, Nat.zero_add]
    obtain ⟨hcount, hlen⟩ := commandLoop_counts getCmdState false 0 0 s.timerCommands
      s.dwCurrentCommands hcounter
    rw [Nat.zero_add] at hcount
    exact ⟨hcount, hlen.trans h.limit⟩
  | expiry ft =>
    have hempty : Counted dwMaxCommands ({ s with timers := [] } : Correlator D) :=
      ⟨h.counter, h.limit⟩
    exact hempty.timerLoop _ false s.timers

theorem shutdownLoop_counts (passOver : Bool) (front : ℕ) (cmds : List ExecObj)
    (dwCurrentCommands : UInt32) (h : dwCurrentCommands.toNat = front + cmds.length) :
    (shutdownLoop passOver cmds dwCurrentCommands).2.toNat =
      front + (shutdownLoop passOver cmds dwCurrentCommands).1.length := by
  induction cmds generalizing passOver front dwCurrentCommands with
  | nil =>
    rw [shutdownLoop]
    exact h
  | cons cmd cmds ih =>
    rw [List.length_cons] at h
    cases passOver with
    | true =>
      have hrest := ih false (front + 1) dwCurrentCommands (by omega)
      rw [shutdownLoop]
      dsimp only
      rw [List.length_cons]
      omega
    | false =>
      rw [shutdownLoop]
      apply ih true front (dwCurrentCommands - 1)
      apply toNat_sub_one
      omega

/-- In every run the counter is the number of entries of the list of commands and within its limit,
whatever the commands give for their states. The shutdown leaves every second entry, and counts the
rest down. -/
theorem run_commands (CORR_DELETE dwMaxCommands : UInt32)
    (isExpired : Correlation D → UInt64 → Bool) (events : List (Event D)) :
    let s := run (step CORR_DELETE dwMaxCommands isExpired) {} events
    s.dwCurrentCommands.toNat = s.timerCommands.length ∧
      s.timerCommands.length ≤ dwMaxCommands.toNat ∧
      s.shutdown.timerCommands.length = s.timerCommands.length / 2 ∧
      s.shutdown.dwCurrentCommands.toNat = s.shutdown.timerCommands.length := by
  intro s
  have hempty : Counted dwMaxCommands ({} : Correlator D) := ⟨rfl, Nat.zero_le _⟩
  have h : Counted dwMaxCommands s := invariant hempty (fun _ e ht => ht.step e) events
  have hcounter : s.dwCurrentCommands.toNat = 0 + s.timerCommands.length := by
    rw [h.counter, Nat.zero_add]
  have hshutdown := shutdownLoop_counts false 0 s.timerCommands s.dwCurrentCommands hcounter
  rw [Nat.zero_add] at hshutdown
  refine ⟨h.counter, h.limit, ?_, hshutdown⟩
  unfold shutdown
  dsimp only
  rw [fst_shutdownLoop, length_kept (fun _ => rfl)]
  rfl

def Event.isExpiry : Event D → Bool
  | .expiry _ => true
  | _ => false

/-- An event that leaves the timer itself alone: a request for another one, or a pass at whose end a
command may still be started, and at which the timer has expired. -/
def Undisturbed (CORR_DELETE dwMaxCommands : UInt32) (isExpired : Correlation D → UInt64 → Bool)
    (t : Correlation D) (s : Correlator D) : Event D → Prop
  | .request pCorr => pCorr.id ≠ t.id
  | .completed _ => True
  | .expiry ft =>
    isExpired t ft = true ∧
      (step CORR_DELETE dwMaxCommands isExpired s (.expiry ft)).dwCurrentCommands < dwMaxCommands

/-- No other timer has its id, and so many places from the front on it is not found any more. -/
def Nearer (t : Correlation D) : ℕ → List (Correlation D) → Prop
  | _, [] => True
  | n, c :: l => (c.id = t.id → c = t ∧ 0 < n) ∧ Nearer t (n - 1) l

variable {isExpired : Correlation D → UInt64 → Bool} {t : Correlation D}
  {timers : List (Correlation D)}

theorem Nearer.mono {m n : ℕ} (hmn : m ≤ n) (h : Nearer t m timers) : Nearer t n timers := by
  induction timers generalizing m n with
  | nil => trivial
  | cons c l ih =>
    obtain ⟨hc, hl⟩ := h
    refine ⟨?_, ih (Nat.sub_le_sub_right hmn 1) hl⟩
    intro hid
    obtain ⟨heq, hpos⟩ := hc hid
    exact ⟨heq, hpos.trans_le hmn⟩

theorem Nearer.gone (h : Nearer t 0 timers) : ∀ u ∈ timers, u.id ≠ t.id := by
  induction timers with
  | nil => exact List.forall_mem_nil _
  | cons c l ih =>
    obtain ⟨hc, hl⟩ := h
    refine List.forall_mem_cons.mpr ⟨?_, ih hl⟩
    intro hid
    exact Nat.lt_irrefl 0 (hc hid).2

theorem nearer_of_ne (n : ℕ) (h : ∀ u ∈ timers, u.id ≠ t.id) : Nearer t n timers := by
  induction timers generalizing n with
  | nil => trivial
  | cons c l ih =>
    obtain ⟨hc, hl⟩ := List.forall_mem_cons.mp h
    exact ⟨fun hid => absurd hid hc, ih (n - 1) hl⟩

theorem nearer_append_cons {front back : List (Correlation D)}
    (h : Distinct (front ++ t :: back)) : Nearer t (front.length + 1) (front ++ t :: back) := by
  induction front with
  | nil =>
    obtain ⟨hback, _⟩ := KeyedLists.distinct_cons.mp h
    exact ⟨fun _ => ⟨rfl, Nat.zero_lt_one⟩, nearer_of_ne _ hback⟩
  | cons c front ih =>
    obtain ⟨hrest, hdistinct⟩ := KeyedLists.distinct_cons.mp h
    have hne : t.id ≠ c.id := hrest t (List.mem_append_right _ List.mem_cons_self)
    exact ⟨fun hid => absurd hid.symm hne, ih hdistinct⟩

theorem processRequest_nil (pCorr : Correlation D) : processRequest CORR_DELETE pCorr [] =
    if pCorr.type = CORR_DELETE then [] else [pCorr] := rfl

theorem processRequest_cons (pCorr c : Correlation D) (l : List (Correlation D)) :
    processRequest CORR_DELETE pCorr (c :: l) =
      if c.id = pCorr.id then
        if pCorr.type = CORR_DELETE then l else updateTimer pCorr c :: l
      else c :: processRequest CORR_DELETE pCorr l := by
  unfold processRequest
  by_cases htype : pCorr.type = CORR_DELETE
  · rw [if_pos htype, if_pos htype, if_pos htype, removeFromList]
  rw [if_neg htype, if_neg htype, if_neg htype, getIteratorFromList]
  by_cases hid : c.id = pCorr.id
  · rw [if_pos hid, if_pos hid]
    rfl
  · rw [if_neg hid, if_neg hid]
    rcases getIteratorFromList pCorr l with ⟨front, _ | ⟨it, back⟩⟩
    · rfl
    · rfl

theorem Nearer.request {n : ℕ} {pCorr : Correlation D} (hid : pCorr.id ≠ t.id)
    (h : Nearer t n timers) : Nearer t n (processRequest CORR_DELETE pCorr timers) := by
  induction timers generalizing n with
  | nil =>
    rw [processRequest_nil]
    split_ifs
    · exact h
    · exact ⟨fun heq => absurd heq hid, trivial⟩
  | cons c l ih =>
    obtain ⟨hc, hl⟩ := h
    rw [processRequest_cons]
    by_cases hmatch : c.id = pCorr.id
    · rw [if_pos hmatch]
      split_ifs
      · exact hl.mono (Nat.sub_le n 1)
      · refine ⟨?_, hl⟩
        intro heq
        have hupdated : (updateTimer pCorr c).id = c.id := rfl
        exact absurd (hmatch.symm.trans (hupdated.symm.trans heq)) hid
    · rw [if_neg hmatch]
      exact ⟨hc, ih hl⟩

theorem Nearer.kept {p : Correlation D → Bool} (ht : p t = true) {n : ℕ}
    (h : Nearer t n timers) :
    Nearer t (n - 1) (kept p false timers) ∧ Nearer t n (kept p true timers) := by
  induction timers generalizing n with
  | nil =>
    rw [Sweeps.kept, Sweeps.kept]
    exact ⟨trivial, trivial⟩
  | cons c l ih =>
    obtain ⟨hc, hl⟩ := h
    obtain ⟨hfalse, htrue⟩ := ih hl
    constructor
    · cases hexpired : p c with
      | true =>
        rw [kept_false_cons_of_pos hexpired]
        exact htrue
      | false =>
        rw [kept_false_cons_of_neg hexpired]
        refine ⟨?_, hfalse⟩
        intro hid
        rw [(hc hid).1, ht] at hexpired
        cases hexpired
    · rw [Sweeps.kept]
      exact ⟨hc, hfalse.mono (Nat.sub_le _ 1)⟩

theorem Nearer.step {s : Correlator D} {n : ℕ} {e : Event D}
    (he : Undisturbed CORR_DELETE dwMaxCommands isExpired t s e) (h : Nearer t n s.timers) :
    Nearer t (n - e.isExpiry.toNat) (step CORR_DELETE dwMaxCommands isExpired s e).timers := by
  cases e with
  | request pCorr => exact h.request he
  | completed getCmdState => exact h
  | expiry ft =>
    obtain ⟨hexpired, hbudget⟩ := he
    have hless : s.dwCurrentCommands.toNat + actions (erased (isExpired · ft) false s.timers) <
        dwMaxCommands.toNat := by
      by_contra hfull
      have hle := le_timerLoop false s.timers { s with timers := [] } (Nat.not_lt.mp hfull)
      exact UInt32.not_le.mpr hbudget hle
    obtain ⟨htimers, _⟩ := timerLoop_of_lt false s.timers { s with timers := [] } hless
    change Nearer t (n - 1) (timerLoop dwMaxCommands (isExpired · ft) false s.timers
      { s with timers := [] }).timers
    rw [htimers, List.nil_append]
    exact (h.kept hexpired).1

def passes (es : List (Event D)) : ℕ := es.countP Event.isExpiry

/-- Where nothing but requests for other timers, passes over the commands, and passes over the timers
that end with a free command lie between, an expired timer is gone after one pass more than there
were timers in front of it. -/
theorem run_expired (CORR_DELETE dwMaxCommands : UInt32)
    (isExpired : Correlation D → UInt64 → Bool) (events es : List (Event D)) (t : Correlation D)
    (front back : List (Correlation D))
    (htimers : (run (step CORR_DELETE dwMaxCommands isExpired) {} events).timers =
      front ++ t :: back)
    (hes : AtEach (fun pre e => Undisturbed CORR_DELETE dwMaxCommands isExpired t
      (run (step CORR_DELETE dwMaxCommands isExpired) {} (events ++ pre)) e) es)
    (hpasses : front.length < passes es) :
    ∀ u ∈ (run (step CORR_DELETE dwMaxCommands isExpired) {} (events ++ es)).timers,
      u.id ≠ t.id := by
  have hdistinct := distinct_run CORR_DELETE dwMaxCommands isExpired events
  rw [htimers] at hdistinct
  have hstart := nearer_append_cons hdistinct
  rw [← htimers] at hstart
  have hnearer : Nearer t (front.length + 1 - passes es)
      (run (step CORR_DELETE dwMaxCommands isExpired) {} (events ++ es)).timers := by
    clear hpasses
    induction es using List.reverseRecOn with
    | nil =>
      rw [List.append_nil]
      exact hstart
    | append_singleton es e ih =>
      obtain ⟨hpre, he⟩ := atEach_concat.mp hes
      have hstep := (ih hpre).step he
      rw [← List.append_assoc, run_concat]
      unfold passes at hstep ⊢
      rw [List.countP_append, List.countP_singleton]
      cases hexpiry : e.isExpiry with
      | true =>
        rw [hexpiry, Bool.toNat_true, Nat.sub_sub] at hstep
        exact hstep
      | false =>
        rw [hexpiry, Bool.toNat_false, Nat.sub_zero] at hstep
        exact hstep
  have hzero : front.length + 1 - passes es = 0 := Nat.sub_eq_zero_of_le hpasses
  rw [hzero] at hnearer
  exact hnearer.gone

def timerRequest (id : WStr) : Correlation ℕ where
  id := id
  type := 0
  duration := 1
  startTime := 0
  nTriggers := 0
  actionStr := none

/-- The first pass leaves the second of two expired timers; a third one is asked for in between. -/
theorem run_expired_second :
    (run (step 1 10 fun _ _ => true) {}
      ([.request (timerRequest (wcs "1")), .request (timerRequest (wcs "2"))] ++
        [.expiry 5, .request (timerRequest (wcs "3")), .expiry 6])).timers.all
          (fun u => u.id != wcs "2") = true := by
  have hes : AtEach (fun pre e => Undisturbed 1 10 (fun _ _ => true) (timerRequest (wcs "2"))
      (run (step 1 10 fun _ _ => true) {}
        ([.request (timerRequest (wcs "1")), .request (timerRequest (wcs "2"))] ++ pre)) e)
      [.expiry 5, .request (timerRequest (wcs "3")), .expiry 6] := by
    have hother : (timerRequest (wcs "3")).id ≠ (timerRequest (wcs "2")).id := by decide
    rw [atEach_cons, atEach_cons, atEach_cons]
    exact ⟨⟨rfl, by decide⟩, hother, ⟨rfl, by decide⟩, atEach_nil⟩
  rw [List.all_eq_true]
  intro u hu
  rw [bne_iff_ne]
  exact run_expired 1 10 (fun _ _ => true)
    [.request (timerRequest (wcs "1")), .request (timerRequest (wcs "2"))]
    [.expiry 5, .request (timerRequest (wcs "3")), .expiry 6] (timerRequest (wcs "2"))
    [timerRequest (wcs "1")] [] (by decide) hes (by decide) u hu

end TrapHandler.Correlator
