import TrapHandler.AgentEvents

/-!
# Layouts with and without a platform

Five event classes accept the arguments of older agents, which did not send their platform. Inserting
it as the second argument must not change what is read from the others.
-/

namespace TrapHandler

open CSnmpTrap

def HasStringArgs (trap : CSnmpTrap) (args : List WStr) : Prop :=
  trap.varArgs.map (fun v => (v.iValueType, v.wcsVal)) =
    args.map fun s => (SNMP_TYPE_STR, some s)

variable {trap short long : CSnmpTrap} {args : List WStr}

theorem HasStringArgs.length_eq (h : HasStringArgs trap args) :
    trap.varArgs.length = args.length := by
  have hlen := congrArg List.length h
  rwa [List.length_map, List.length_map] at hlen

theorem HasStringArgs.hasStrings_eq (h : HasStringArgs trap args) (n : ℕ) :
    hasStrings trap n = (args.length == n) := by
  have hall : trap.varArgs.all (fun v => v.iValueType == SNMP_TYPE_STR) = true := by
    rw [List.all_eq_true]
    intro v hv
    have hmem : (v.iValueType, v.wcsVal) ∈ args.map fun s => (SNMP_TYPE_STR, some s) :=
      h ▸ List.mem_map_of_mem hv
    obtain ⟨s, _, hs⟩ := List.mem_map.mp hmem
    rw [← (Prod.mk.inj hs).1]
    rfl
  rw [hasStrings, hall, Bool.and_true, h.length_eq]

theorem HasStringArgs.wcsArg_eq (h : HasStringArgs trap args) (i : ℕ) :
    wcsArg trap i = args[i]?.map cstr := by
  have hget := congrArg (fun l => l[i]?) h
  simp only [List.getElem?_map] at hget
  rw [wcsArg]
  cases hv : trap.varArgs[i]? with
  | none =>
    rw [hv] at hget
    cases hs : args[i]? with
    | none => rfl
    | some s => simp [hs] at hget
  | some v =>
    rw [hv] at hget
    cases hs : args[i]? with
    | none => simp [hs] at hget
    | some s =>
      rw [hs] at hget
      have hwcs : v.wcsVal = some s := (Prod.mk.inj (Option.some.inj hget)).2
      simp [hwcs]

/-- The classes with a layout without and one with a platform. -/
inductive DualLayout where
  | diskMetric
  | processFail
  | serviceFail
  | startMaintenance
  | error
  deriving DecidableEq, Repr

namespace DualLayout

def Event : DualLayout → Type
  | diskMetric => DiskMetricEvent
  | processFail => ProcessFailEvent
  | serviceFail => ServiceFailEvent
  | startMaintenance => StartMaintenanceEvent
  | error => ErrorEvent

def parseTrap : (k : DualLayout) → k.Event → CSnmpTrap → Option (Parsed k.Event)
  | diskMetric => DiskMetricEvent.parseTrap
  | processFail => ProcessFailEvent.parseTrap
  | serviceFail => ServiceFailEvent.parseTrap
  | startMaintenance => StartMaintenanceEvent.parseTrap
  | error => ErrorEvent.parseTrap

def setPlatform : (k : DualLayout) → k.Event → WStr → k.Event
  | diskMetric, (e : DiskMetricEvent), p => { e with platformId := p }
  | processFail, (e : ProcessFailEvent), p => { e with platformId := p }
  | serviceFail, (e : ServiceFailEvent), p => { e with platformId := p }
  | startMaintenance, (e : StartMaintenanceEvent), p => { e with platformId := p }
  | error, (e : ErrorEvent), p => { e with platformId := p }

def shortLength : DualLayout → ℕ
  | diskMetric => 4
  | processFail => 4
  | serviceFail => 5
  | startMaintenance => 4
  | error => 3

/-- The longer layout: the platform behind the host name, and the two states in the newer order. -/
def lengthen : DualLayout → List WStr → WStr → List WStr
  | processFail, [host, name, s, t], p => [host, p, name, t, s]
  | serviceFail, [host, name, s, t, label], p => [host, p, name, t, s, label]
  | _, host :: rest, p => host :: p :: rest
  | _, [], _ => []

/-- What a disk metric needs for its longer layout, where the volume name and the two sizes are each
read from the argument in front of their own. -/
def Agrees : DualLayout → List WStr → WStr → Prop
  | diskMetric, [_, volume, size, free], p =>
    cstr p = cstr volume ∧ wcstoi64 (cstr volume) = wcstoi64 (cstr size) ∧
      wcstoi64 (cstr size) = wcstoi64 (cstr free)
  | _, _, _ => True

end DualLayout

open DualLayout

/-- Parsing the longer layout gives the event of the shorter one, with the platform set. -/
def SameButPlatform (k : DualLayout) (self : k.Event) (short long : CSnmpTrap) (p : WStr) : Prop :=
  ∃ e r r', k.parseTrap self short = some ⟨r, e⟩ ∧
    k.parseTrap self long = some ⟨r', k.setPlatform e (cstr p)⟩

variable {host name volume size free user description duration message severity label s t p : WStr}

theorem diskMetric_short (self : DiskMetricEvent)
    (h : HasStringArgs trap [host, volume, size, free]) :
    self.parseTrap trap = some
      ⟨some (!decide (wcstoi64 (cstr size) = I64_MAX ∨ wcstoi64 (cstr size) = I64_MIN ∨
        wcstoi64 (cstr free) = I64_MAX ∨ wcstoi64 (cstr free) = I64_MIN)), { self with
          platformId := noPlatform
          hostname := cstr host
          volumeName := cstr volume
          fsSizeMb := wcstoi64 (cstr size)
          availableSpaceMb := wcstoi64 (cstr free) }⟩ := by
  simp only [DiskMetricEvent.parseTrap, h.hasStrings_eq, h.wcsArg_eq, h.length_eq]
  simp only [List.length_cons, List.length_nil, Nat.zero_add, Nat.reduceAdd, BEq.rfl, Nat.reduceBEq,
    Bool.or_false, ↓reduceIte, Nat.zero_lt_succ, getElem?_pos, List.getElem_cons_zero,
    Option.map_some, Nat.reduceLT, List.getElem_cons_succ, Nat.lt_add_one, Option.pure_def,
    Option.bind_eq_bind, Option.bind_some]
  split_ifs with hlimit
  · rw [decide_eq_true hlimit]
    rfl
  · rw [decide_eq_false hlimit]
    rfl

theorem diskMetric_long (self : DiskMetricEvent)
    (h : HasStringArgs trap [host, p, volume, size, free]) :
    ∃ r, self.parseTrap trap = some ⟨r, { self with
      platformId := cstr p
      hostname := cstr host
      volumeName := cstr p
      fsSizeMb := wcstoi64 (cstr volume)
      availableSpaceMb := wcstoi64 (cstr size) }⟩ := by
  simp only [DiskMetricEvent.parseTrap, h.hasStrings_eq, h.wcsArg_eq, h.length_eq]
  simp only [List.length_cons, List.length_nil, Nat.zero_add, Nat.reduceAdd, Nat.reduceBEq, BEq.rfl,
    Bool.or_true, ↓reduceIte, Bool.false_eq_true, Nat.zero_lt_succ, getElem?_pos,
    List.getElem_cons_zero, Option.map_some, Nat.reduceLT, List.getElem_cons_succ, Option.pure_def,
    Option.bind_eq_bind, Option.bind_some]
  split_ifs <;> exact ⟨_, rfl⟩

theorem diskMetric_same_iff (self : DiskMetricEvent)
    (hshort : HasStringArgs short [host, volume, size, free])
    (hlong : HasStringArgs long [host, p, volume, size, free]) :
    SameButPlatform diskMetric self short long p ↔
      diskMetric.Agrees [host, volume, size, free] p := by
  have hr := diskMetric_short self hshort
  obtain ⟨r', hr'⟩ := diskMetric_long self hlong
  constructor
  · rintro ⟨e, q, q', he, he'⟩
    have hevent := (Parsed.mk.inj (Option.some.inj (hr.symm.trans he))).2
    have hevent' := (Parsed.mk.inj (Option.some.inj (hr'.symm.trans he'))).2
    subst hevent
    simp only [setPlatform, DiskMetricEvent.mk.injEq, true_and] at hevent'
    exact ⟨hevent'.1, hevent'.2.1, hevent'.2.2⟩
  · rintro ⟨hvolume, hsize, hfree⟩
    refine ⟨_, _, r', hr, ?_⟩
    rw [hvolume, hfree, hsize] at hr'
    rw [hvolume]
    exact hr'

theorem processFail_short (self : ProcessFailEvent)
    (h : HasStringArgs trap [host, name, s, t]) :
    self.parseTrap trap = some ⟨some true, { self with
      platformId := noPlatform
      hostname := cstr host
      processName := cstr name
      currentState := cstr t
      desiredState := cstr s
      msgGroup := defaultMsgGrp
      severity := defaultSeverity }⟩ := by
  simp [ProcessFailEvent.parseTrap, h.hasStrings_eq, h.wcsArg_eq, h.length_eq]

theorem processFail_long (self : ProcessFailEvent)
    (h : HasStringArgs trap [host, p, name, t, s]) :
    self.parseTrap trap = some ⟨some true, { self with
      platformId := cstr p
      hostname := cstr host
      processName := cstr name
      currentState := cstr t
      desiredState := cstr s
      msgGroup := defaultMsgGrp
      severity := defaultSeverity }⟩ := by
  simp [ProcessFailEvent.parseTrap, h.hasStrings_eq, h.wcsArg_eq, h.length_eq]

theorem serviceFail_short (self : ServiceFailEvent)
    (h : HasStringArgs trap [host, name, s, t, label]) :
    self.parseTrap trap = some ⟨none, { self with
      hostname := cstr host
      serviceName := cstr name
      currentState := cstr t
      desiredState := cstr s
      serviceLabel := cstr label
      msgGroup := defaultMsgGrp
      msgSeverity := defaultSeverity }⟩ := by
  simp [ServiceFailEvent.parseTrap, h.hasStrings_eq, h.wcsArg_eq, h.length_eq]

theorem serviceFail_long (self : ServiceFailEvent)
    (h : HasStringArgs trap [host, p, name, t, s, label]) :
    self.parseTrap trap = some ⟨none, { self with
      platformId := cstr p
      hostname := cstr host
      serviceName := cstr name
      currentState := cstr t
      desiredState := cstr s
      serviceLabel := cstr label
      msgGroup := defaultMsgGrp
      msgSeverity := defaultSeverity }⟩ := by
  simp [ServiceFailEvent.parseTrap, h.hasStrings_eq, h.wcsArg_eq, h.length_eq]

theorem startMaintenance_short (self : StartMaintenanceEvent)
    (h : HasStringArgs trap [host, user, description, duration]) :
    self.parseTrap trap = some ⟨some true, { self with
      hostname := cstr host
      userName := cstr user
      description := cstr description
      duration := cstr duration
      durationSeconds := minutesToSeconds (cstr duration) }⟩ := by
  simp [StartMaintenanceEvent.parseTrap, h.hasStrings_eq, h.wcsArg_eq, h.length_eq]

theorem startMaintenance_long (self : StartMaintenanceEvent)
    (h : HasStringArgs trap [host, p, user, description, duration]) :
    self.parseTrap trap = some ⟨some true, { self with
      platformId := cstr p
      hostname := cstr host
      userName := cstr user
      description := cstr description
      duration := cstr duration
      durationSeconds := minutesToSeconds (cstr duration) }⟩ := by
  simp [StartMaintenanceEvent.parseTrap, h.hasStrings_eq, h.wcsArg_eq, h.length_eq]

theorem error_short (self : ErrorEvent) (h : HasStringArgs trap [host, message, severity]) :
    self.parseTrap trap = some ⟨some true, { self with
      hostname := cstr host
      message := cstr message
      severity := cstr severity }⟩ := by
  simp [ErrorEvent.parseTrap, h.hasStrings_eq, h.wcsArg_eq, h.length_eq]

theorem error_long (self : ErrorEvent) (h : HasStringArgs trap [host, p, message, severity]) :
    self.parseTrap trap = some ⟨some true, { self with
      platformId := cstr p
      hostname := cstr host
      message := cstr message
      severity := cstr severity }⟩ := by
  simp [ErrorEvent.parseTrap, h.hasStrings_eq, h.wcsArg_eq, h.length_eq]

/-- Only disk metrics are read differently with a platform. -/
theorem sameButPlatform_iff (k : DualLayout) (self : k.Event) (args : List WStr) (p : WStr)
    (short long : CSnmpTrap) (hlen : args.length = k.shortLength)
    (hshort : HasStringArgs short args) (hlong : HasStringArgs long (k.lengthen args p)) :
    SameButPlatform k self short long p ↔ k.Agrees args p := by
  cases k with
  | diskMetric =>
    match args, hlen with
    | [host, volume, size, free], _ => exact diskMetric_same_iff self hshort hlong
  | processFail =>
    match args, hlen with
    | [host, name, s, t], _ =>
      have hsame : SameButPlatform processFail self short long p :=
        ⟨_, _, _, processFail_short self hshort, processFail_long self hlong⟩
      exact iff_of_true hsame trivial
  | serviceFail =>
    match args, hlen with
    | [host, name, s, t, label], _ =>
      have hsame : SameButPlatform serviceFail self short long p :=
        ⟨_, _, _, serviceFail_short self hshort, serviceFail_long self hlong⟩
      exact iff_of_true hsame trivial
  | startMaintenance =>
    match args, hlen with
    | [host, user, description, duration], _ =>
      have hsame : SameButPlatform startMaintenance self short long p :=
        ⟨_, _, _, startMaintenance_short self hshort, startMaintenance_long self hlong⟩
      exact iff_of_true hsame trivial
  | error =>
    match args, hlen with
    | [host, message, severity], _ =>
      have hsame : SameButPlatform error self short long p :=
        ⟨_, _, _, error_short self hshort, error_long self hlong⟩
      exact iff_of_true hsame trivial

def stringTrap (args : List WStr) : CSnmpTrap :=
  { (default : CSnmpTrap) with
    varArgs := args.map fun s => { oid := {}, iValueType := SNMP_TYPE_STR, wcsVal := some s } }

theorem hasStringArgs_stringTrap (args : List WStr) : HasStringArgs (stringTrap args) args := by
  rw [HasStringArgs, stringTrap, List.map_map]
  rfl

def volumeSample : List WStr := [wcs "osi1112", wcs "volumename", wcs "11000", wcs "8000"]

theorem sameButPlatform_iff_volumeSample :
    SameButPlatform diskMetric ({} : DiskMetricEvent) (stringTrap volumeSample)
        (stringTrap (diskMetric.lengthen volumeSample (wcs "WIN"))) (wcs "WIN") ↔
      diskMetric.Agrees volumeSample (wcs "WIN") :=
  sameButPlatform_iff diskMetric ({} : DiskMetricEvent) volumeSample (wcs "WIN")
    (stringTrap volumeSample) (stringTrap (diskMetric.lengthen volumeSample (wcs "WIN"))) rfl
    (hasStringArgs_stringTrap _) (hasStringArgs_stringTrap _)

/-- With the platform sent, the volume is named after it and the total space is 0. -/
theorem volumeSample_differs :
    ¬ SameButPlatform diskMetric ({} : DiskMetricEvent) (stringTrap volumeSample)
      (stringTrap (diskMetric.lengthen volumeSample (wcs "WIN"))) (wcs "WIN") := by
  rintro ⟨e, r, r', hshort, hlong⟩
  have hevent : (DiskMetricEvent.parseTrap {} (stringTrap volumeSample)).map
      (fun parsed => parsed.event.volumeName) = some (wcs "volumename") := by decide
  have hevent' : (DiskMetricEvent.parseTrap {}
      (stringTrap (diskMetric.lengthen volumeSample (wcs "WIN")))).map
      (fun parsed => parsed.event.volumeName) = some (wcs "WIN") := by decide
  change DiskMetricEvent.parseTrap {} _ = _ at hshort hlong
  rw [hshort] at hevent
  rw [hlong] at hevent'
  have hname : some (wcs "volumename") = some (wcs "WIN") := hevent.symm.trans hevent'
  exact absurd hname (by decide)

end TrapHandler
