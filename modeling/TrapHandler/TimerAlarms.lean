import TrapHandler.KeyedLists
import TrapHandler.Timers

/-!
# The alarms of a run

An alarm is due when its timer was started and has since run out. The alarms of a run of the main
loop are due exactly if, in every iteration, the value in `now` lies between the start and the end
of each timer that has not run out when the sweep runs.
-/

namespace TrapHandler

open Runs

def clicks (durationSecs : Int32) : ℕ := durationSecs.toInt.toNat * 10 ^ 7

def TimerEvent.id : TimerEvent → WStr
  | .touched id _ _ => id
  | .alarmed id _ _ => id

def lastEvent (id : WStr) (log : List TimerEvent) : Option TimerEvent :=
  (log.filter fun e => e.id = id).getLast?

variable {log es : List TimerEvent} {id : WStr}

theorem lastEvent_append :
    lastEvent id (log ++ es) = (lastEvent id es).or (lastEvent id log) := by
  rw [lastEvent, List.filter_append, List.getLast?_append, lastEvent, lastEvent]

theorem lastEvent_append_of_ne (h : ∀ e ∈ es, e.id ≠ id) :
    lastEvent id (log ++ es) = lastEvent id log := by
  have hnone : es.filter (fun e => e.id = id) = [] :=
    List.filter_eq_nil_iff.mpr fun e he heq => h e he (of_decide_eq_true heq)
  rw [lastEvent, List.filter_append, hnone, List.append_nil, lastEvent]

theorem lastEvent_concat {e : TimerEvent} (h : e.id = id) : lastEvent id (log ++ [e]) = some e := by
  have hlast : [e].filter (fun e => e.id = id) = [e] := by
    simp only [List.filter_cons, h, decide_true, if_true, List.filter_nil]
  rw [lastEvent, List.filter_append, hlast, List.getLast?_concat]

theorem lastEvent_eq_none (h : lastEvent id log = none) : ∀ e ∈ log, e.id ≠ id := by
  intro e he heq
  have hmem : e ∈ log.filter fun e => e.id = id := List.mem_filter.mpr ⟨he, decide_eq_true heq⟩
  rw [List.getLast?_eq_none_iff.mp h] at hmem
  cases hmem

theorem mem_of_lastEvent {e : TimerEvent} (h : lastEvent id log = some e) :
    e ∈ log ∧ e.id = id := by
  have hmem := List.mem_of_getLast? h
  exact ⟨(List.mem_filter.mp hmem).1, of_decide_eq_true (List.mem_filter.mp hmem).2⟩

/-- What a timer did last was to start, and it has run out since. -/
def Due (log : List TimerEvent) (id : WStr) (sweepTime : UInt64) : Prop :=
  ∃ startTime durationSecs, lastEvent id log = some (.touched id startTime durationSecs) ∧
    startTime.toNat + clicks durationSecs < sweepTime.toNat

def AlarmsDue (log : List TimerEvent) : Prop :=
  AtEach (fun pre e => ∀ id cmd sweepTime, e = .alarmed id cmd sweepTime → Due pre id sweepTime) log

def alarms (sweepTime : UInt64) (removed : List TimerObj) : List TimerEvent :=
  removed.map fun t => .alarmed t.timerId t.expiryCommand sweepTime

theorem alarmsDue_alarms {removed : List TimerObj} {sweepTime : UInt64}
    (hdistinct : KeyedLists.Distinct TimerObj.timerId removed) :
    AlarmsDue (log ++ alarms sweepTime removed) ↔
      AlarmsDue log ∧ ∀ t ∈ removed, Due log t.timerId sweepTime := by
  induction removed generalizing log with
  | nil => simp [alarms]
  | cons t rest ih =>
    obtain ⟨hnew, hrest⟩ := KeyedLists.distinct_cons.mp hdistinct
    have hother : ∀ t' ∈ rest,
        (Due (log ++ [.alarmed t.timerId t.expiryCommand sweepTime]) t'.timerId sweepTime ↔
          Due log t'.timerId sweepTime) := by
      intro t' ht'
      have hne : ∀ e ∈ [TimerEvent.alarmed t.timerId t.expiryCommand sweepTime],
          e.id ≠ t'.timerId := by
        intro e he heq
        rw [List.mem_singleton.mp he] at heq
        exact hnew t' ht' heq.symm
      rw [Due, lastEvent_append_of_ne hne, Due]
    have hsplit : log ++ alarms sweepTime (t :: rest) =
        log ++ [.alarmed t.timerId t.expiryCommand sweepTime] ++ alarms sweepTime rest := by
      rw [List.append_assoc]
      rfl
    rw [hsplit, ih hrest, AlarmsDue, atEach_concat, List.forall_mem_cons, and_assoc]
    apply and_congr_right
    intro _
    constructor
    · rintro ⟨hdue, hall⟩
      exact ⟨hdue _ _ _ rfl, fun t' ht' => (hother t' ht').mp (hall t' ht')⟩
    · rintro ⟨hdue, hall⟩
      constructor
      · intro id cmd time heq
        cases heq
        exact hdue
      · exact fun t' ht' => (hother t' ht').mpr (hall t' ht')

/-- The timers are those that have been started and not removed by an alarm since. -/
structure Tracks (h : Handler) : Prop where
  started : ∀ t ∈ h.timers.timers, ∃ durationSecs,
    lastEvent t.timerId h.log = some (.touched t.timerId t.startTime durationSecs) ∧
      t.duration.toNat = clicks durationSecs
  kept : ∀ id startTime durationSecs,
    lastEvent id h.log = some (.touched id startTime durationSecs) →
      id ∈ h.timers.timers.map TimerObj.timerId

theorem toNat_duration {durationSecs : Int32} (h : 0 ≤ durationSecs.toInt) :
    (UInt64.ofInt durationSecs.toInt * FTCLICKSQERSEC).toNat = clicks durationSecs := by
  have hlt : durationSecs.toInt < 2 ^ 31 := durationSecs.toInt_lt
  have hsecs : (UInt64.ofInt durationSecs.toInt).toNat = durationSecs.toInt.toNat := by
    rw [UInt64.ofInt, UInt64.toNat_ofNat']
    omega
  have hclicks : FTCLICKSQERSEC.toNat = 10 ^ 7 := rfl
  rw [UInt64.toNat_mul, hsecs, hclicks, clicks, Nat.mod_eq_of_lt]
  omega

section Touch

variable {ts : TimerService} {durationSecs : Int32} {type : TimerType} {now : UInt64}

theorem mem_touchTimer {t : TimerObj} (h : t ∈ (ts.touchTimer id durationSecs type now).1.timers) :
    (t.timerId = id ∧ t.startTime = now ∧
        t.duration = UInt64.ofInt durationSecs.toInt * FTCLICKSQERSEC) ∨
      (t.timerId ≠ id ∧ t ∈ ts.timers) := by
  unfold TimerService.touchTimer at h
  split_ifs at h with hid
  · obtain ⟨t₀, ht₀, heq⟩ := List.mem_map.mp h
    unfold TimerService.restart at heq
    split_ifs at heq with hsame
    · rw [← heq]
      exact .inl ⟨hsame, rfl, rfl⟩
    · rw [← heq]
      exact .inr ⟨hsame, ht₀⟩
  · cases List.mem_cons.mp h with
    | inl heq =>
      rw [heq]
      exact .inl ⟨rfl, rfl, rfl⟩
    | inr ht =>
      refine .inr ⟨fun heq => hid ?_, ht⟩
      rw [← heq]
      exact List.mem_map_of_mem ht

theorem mem_timerIds_touchTimer {id' : WStr}
    (h : id' = id ∨ id' ∈ ts.timers.map TimerObj.timerId) :
    id' ∈ (ts.touchTimer id durationSecs type now).1.timers.map TimerObj.timerId := by
  unfold TimerService.touchTimer
  split_ifs with hid
  · rw [List.map_map]
    have hkeep : TimerObj.timerId ∘ TimerService.restart id now durationSecs = TimerObj.timerId :=
      funext (TimerService.timerId_restart id now durationSecs)
    rw [hkeep]
    cases h with
    | inl heq => rwa [heq]
    | inr hmem => exact hmem
  · rw [List.map_cons]
    cases h with
    | inl heq =>
      rw [heq]
      exact List.mem_cons_self
    | inr hmem => exact List.mem_cons_of_mem _ hmem

end Touch

variable {timerKey : WStr → WStr → TimerType → WStr} {h : Handler}

theorem tracks_touch (ht : Tracks h) (r : Touch) : Tracks (h.touch timerKey r) := by
  have hlast : ∀ id', id' ≠ timerKey r.hostname r.platformId r.type →
      lastEvent id' (h.touch timerKey r).log = lastEvent id' h.log := by
    intro id' hne
    apply lastEvent_append_of_ne
    intro e he heq
    rw [List.mem_singleton.mp he] at heq
    exact hne heq.symm
  constructor
  · intro t hmem
    cases mem_touchTimer hmem with
    | inl hnew =>
      obtain ⟨hid, hstart, hduration⟩ := hnew
      refine ⟨r.durationSecs, ?_, ?_⟩
      · rw [hstart, hid]
        exact lastEvent_concat rfl
      · rw [hduration]
        exact toNat_duration r.nonneg
    | inr hold =>
      obtain ⟨hne, hmem⟩ := hold
      rw [hlast _ hne]
      exact ht.started t hmem
  · intro id startTime durationSecs hevent
    apply mem_timerIds_touchTimer
    by_cases hid : id = timerKey r.hostname r.platformId r.type
    · exact .inl hid
    · rw [hlast id hid] at hevent
      exact .inr (ht.kept id startTime durationSecs hevent)

theorem checkTimers_timers (h : Handler) (now sweepTime : UInt64) :
    (h.checkTimers now sweepTime).timers.timers = h.timers.timers.filter (!·.isExpired now) :=
  congrArg Prod.fst (sweep_eq now h.timers.timers)

theorem checkTimers_log (h : Handler) (now sweepTime : UInt64) :
    (h.checkTimers now sweepTime).log =
      h.log ++ alarms sweepTime (h.timers.timers.filter (·.isExpired now)) :=
  congrArg (fun swept : List TimerObj × List TimerObj => h.log ++ alarms sweepTime swept.2)
    (sweep_eq now h.timers.timers)

theorem tracks_checkTimers (ht : Tracks h) (now sweepTime : UInt64) :
    Tracks (h.checkTimers now sweepTime) := by
  constructor
  · intro t hmem
    rw [checkTimers_timers, List.mem_filter] at hmem
    obtain ⟨hmem, hrunning⟩ := hmem
    rw [checkTimers_log, lastEvent_append_of_ne]
    · exact ht.started t hmem
    · intro e he heq
      obtain ⟨t', ht', rfl⟩ := List.mem_map.mp he
      obtain ⟨hmem', hexpired⟩ := List.mem_filter.mp ht'
      have hsame : t' = t := List.inj_on_of_nodup_map h.timers.distinct hmem' hmem heq
      rw [hsame] at hexpired
      rw [hexpired] at hrunning
      cases hrunning
  · intro id startTime durationSecs hevent
    rw [checkTimers_log, lastEvent_append] at hevent
    cases hlast : lastEvent id (alarms sweepTime (h.timers.timers.filter (·.isExpired now))) with
    | none =>
      rw [hlast] at hevent
      obtain ⟨t, hmem, hid⟩ := List.mem_map.mp (ht.kept id startTime durationSecs hevent)
      have hrunning : ¬ t.isExpired now = true := fun hexpired =>
        lastEvent_eq_none hlast _
          (List.mem_map_of_mem (List.mem_filter.mpr ⟨hmem, hexpired⟩)) hid
      rw [checkTimers_timers, ← hid]
      apply List.mem_map_of_mem
      exact List.mem_filter.mpr ⟨hmem, by simp [hrunning]⟩
    | some e =>
      rw [hlast, Option.some_or] at hevent
      obtain ⟨hmem, _⟩ := mem_of_lastEvent hlast
      obtain ⟨t, _, rfl⟩ := List.mem_map.mp hmem
      cases hevent

theorem tracks_processTraps (ht : Tracks h) (traps : List Touch) :
    Tracks (h.processTraps timerKey traps) :=
  invariant ht (fun _ r ht => tracks_touch ht r) traps

theorem tracks_iterate (ht : Tracks h) (it : Iteration) : Tracks (h.iterate timerKey it) :=
  tracks_checkTimers (tracks_processTraps ht it.traps) it.now it.sweepTime

theorem alarmsDue_processTraps (halarms : AlarmsDue h.log) (traps : List Touch) :
    AlarmsDue (h.processTraps timerKey traps).log := by
  unfold Handler.processTraps
  apply invariant (I := fun h : Handler => AlarmsDue h.log) halarms
  intro h r halarms
  refine atEach_concat.mpr ⟨halarms, fun id cmd sweepTime heq => ?_⟩
  cases heq

theorem due_iff (ht : Tracks h) {t : TimerObj} (hmem : t ∈ h.timers.timers) (sweepTime : UInt64) :
    Due h.log t.timerId sweepTime ↔
      t.startTime.toNat + t.duration.toNat < sweepTime.toNat := by
  obtain ⟨durationSecs, hlast, hduration⟩ := ht.started t hmem
  rw [hduration]
  constructor
  · rintro ⟨startTime, durationSecs', hlast', hlt⟩
    rw [hlast] at hlast'
    cases hlast'
    exact hlt
  · intro hlt
    exact ⟨t.startTime, durationSecs, hlast, hlt⟩

/-- The value lies between the start and the end of the timer, as the 64-bit clock counts. -/
def TimerObj.Covers (this : TimerObj) (now : UInt64) : Prop :=
  (this.startTime.toNat ≤ now.toNat ∧
      now.toNat ≤ this.startTime.toNat + this.duration.toNat) ∨
    now.toNat + 2 ^ 64 ≤ this.startTime.toNat + this.duration.toNat

theorem not_isExpired_iff {t : TimerObj} {now : UInt64} :
    ¬ t.isExpired now = true ↔ t.Covers now := by
  have hnow := now.toNat_lt
  have hstart := t.startTime.toNat_lt
  have hduration := t.duration.toNat_lt
  rw [TimerObj.isExpired, decide_eq_true_iff, gt_iff_lt, UInt64.lt_iff_toNat_lt, UInt64.toNat_sub,
    TimerObj.Covers]
  omega

/-- The value in `now` lies between the start and the end of each timer that has not run out when
the sweep runs. -/
def Timely (timerKey : WStr → WStr → TimerType → WStr) (h : Handler) (it : Iteration) : Prop :=
  ∀ t ∈ (h.processTraps timerKey it.traps).timers.timers,
    it.sweepTime.toNat ≤ t.startTime.toNat + t.duration.toNat → t.Covers it.now

theorem alarmsDue_iterate_iff (ht : Tracks h) (halarms : AlarmsDue h.log) (it : Iteration) :
    AlarmsDue (h.iterate timerKey it).log ↔ Timely timerKey h it := by
  have ht' : Tracks (h.processTraps timerKey it.traps) := tracks_processTraps ht it.traps
  have hdistinct := (h.processTraps timerKey it.traps).timers.distinct.sublist
    ((List.filter_sublist (p := (·.isExpired it.now))).map TimerObj.timerId)
  rw [Handler.iterate, checkTimers_log, alarmsDue_alarms hdistinct]
  constructor
  · rintro ⟨_, hdue⟩ t hmem hrunning
    rw [← not_isExpired_iff]
    intro hexpired
    have hend := (due_iff ht' hmem _).mp (hdue t (List.mem_filter.mpr ⟨hmem, hexpired⟩))
    omega
  · intro htimely
    refine ⟨alarmsDue_processTraps halarms it.traps, fun t hmem => ?_⟩
    obtain ⟨hmem, hexpired⟩ := List.mem_filter.mp hmem
    rw [due_iff ht' hmem]
    by_contra hrunning
    exact not_isExpired_iff.mpr (htimely t hmem (Nat.not_lt.mp hrunning)) hexpired

theorem tracks_init : Tracks Handler.init := by
  constructor
  · intro t hmem
    cases hmem
  · intro id startTime durationSecs hlast
    cases hlast

/-- In every state of a run the log accounts for the timers and its alarms are due, exactly if every
iteration is timely. -/
theorem alarmsDue_run_iff (timerKey : WStr → WStr → TimerType → WStr) (its : List Iteration) :
    (∀ pre, pre <+: its → Tracks (run (Handler.iterate timerKey) Handler.init pre) ∧
        AlarmsDue (run (Handler.iterate timerKey) Handler.init pre).log) ↔
      AtEach (fun pre it => Timely timerKey (run (Handler.iterate timerKey) Handler.init pre) it)
        its :=
  good_iff (I := Tracks) (P := fun h => Tracks h ∧ AlarmsDue h.log) tracks_init
    (fun _ it ht => tracks_iterate ht it) ⟨tracks_init, atEach_nil⟩
    (fun _ it ht halarms =>
      (and_iff_right (tracks_iterate ht it)).trans (alarmsDue_iterate_iff ht halarms.2 it)) its

/-- The readings of the system clock by the timers and the sweeps, in the order of the run. -/
def readings (its : List Iteration) : List UInt64 :=
  its.flatMap fun it => it.traps.map Touch.ftNow ++ [it.sweepTime]

/-- `now` holds the time of the iteration before, and the trap starts the timer a second later. -/
def freshTimer : Iteration where
  now := 1000 * FTCLICKSQERSEC
  traps := [
    { hostname := wcs "osi1112"
      platformId := wcs "WIN"
      durationSecs := 900
      type := .heartBeatExpired
      ftNow := 1001 * FTCLICKSQERSEC
      nonneg := by decide }]
  sweepTime := 1001 * FTCLICKSQERSEC

theorem freshTimer_alarm :
    (readings [freshTimer]).Pairwise (· ≤ ·) ∧
      ¬ AlarmsDue (run (Handler.iterate fun hostname platformId _ =>
        hostname ++ wcs ":" ++ platformId) Handler.init [freshTimer]).log := by
  constructor
  · decide
  · intro h
    have hdue := h [.touched (wcs "osi1112:WIN") (1001 * FTCLICKSQERSEC) 900] _
      (List.prefix_refl _) _ _ _ rfl
    obtain ⟨startTime, durationSecs, hlast, hlt⟩ := hdue
    cases hlast
    revert hlt
    decide

end TrapHandler
