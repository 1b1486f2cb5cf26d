import TrapHandler.DecodedValues
import TrapHandler.EventLayouts

/-!
# The results of the event parsers

Seven classes accept a few numbers of string arguments and refuse everything else. Three of them say
so by returning true; the other four end without a return statement where they accept.
-/

namespace TrapHandler

open CSnmpTrap

inductive LayoutClass where
  | processFail
  | serviceFail
  | clusterFail
  | startMaintenance
  | error
  | hello
  | goodbye
  deriving DecidableEq, Repr

namespace LayoutClass

def Event : LayoutClass → Type
  | processFail => ProcessFailEvent
  | serviceFail => ServiceFailEvent
  | clusterFail => ClusterFailEvent
  | startMaintenance => StartMaintenanceEvent
  | error => ErrorEvent
  | hello => HelloEvent
  | goodbye => GoodbyeEvent

def parseTrap : (k : LayoutClass) → k.Event → CSnmpTrap → Option (Parsed k.Event)
  | processFail => ProcessFailEvent.parseTrap
  | serviceFail => ServiceFailEvent.parseTrap
  | clusterFail => ClusterFailEvent.parseTrap
  | startMaintenance => StartMaintenanceEvent.parseTrap
  | error => ErrorEvent.parseTrap
  | hello => HelloEvent.parseTrap
  | goodbye => GoodbyeEvent.parseTrap

def agentVersion : (k : LayoutClass) → k.Event → AgentVersion
  | processFail, (e : ProcessFailEvent) => e.agentVersion
  | serviceFail, (e : ServiceFailEvent) => e.agentVersion
  | clusterFail, (e : ClusterFailEvent) => e.agentVersion
  | startMaintenance, (e : StartMaintenanceEvent) => e.agentVersion
  | error, (e : ErrorEvent) => e.agentVersion
  | hello, (e : HelloEvent) => e.agentVersion
  | goodbye, (e : GoodbyeEvent) => e.agentVersion

def layouts : LayoutClass → List ℕ
  | processFail => [4, 5, 7]
  | serviceFail => [5, 6, 8]
  | clusterFail => [5]
  | startMaintenance => [4, 5]
  | error => [3, 4]
  | hello => [1, 4]
  | goodbye => [1, 4]

def SentBy1_13 (k : LayoutClass) (n : ℕ) : Prop :=
  (k = processFail ∧ n = 7) ∨ (k = serviceFail ∧ n = 8)

end LayoutClass

open LayoutClass

/-- All arguments are strings, and their number is one of the class. -/
def HasLayout (k : LayoutClass) (trap : CSnmpTrap) : Prop :=
  (∀ v ∈ trap.varArgs, v.iValueType = SNMP_TYPE_STR) ∧ trap.varArgs.length ∈ k.layouts

/-- The call returns a value, which says whether the trap has a layout of the class, and the version
of the agent is set to what that layout says. -/
def ResultRight (k : LayoutClass) (self : k.Event) (trap : CSnmpTrap) : Prop :=
  ∃ r e, k.parseTrap self trap = some ⟨some r, e⟩ ∧ (r = true ↔ HasLayout k trap) ∧
    (r = true → (k.agentVersion e = .post1_13 ↔ k.SentBy1_13 trap.varArgs.length))

def StringsStored (trap : CSnmpTrap) : Prop :=
  ∀ v ∈ trap.varArgs, v.iValueType = SNMP_TYPE_STR → v.wcsVal.isSome = true

variable {trap : CSnmpTrap} {args : List WStr}

theorem stringsStored_decode {platform : Platform} {uninit : UInt32} {raw : CSnmpTrap}
    {behind : ByteReader.Memory} {packet : SSnmpPacket} {c : ByteReader.Cursor}
    (h : (packet.decode platform uninit raw behind).outcome = .ok trap c) : StringsStored trap := by
  intro v hv htype
  exact (valueStored_decode h v hv).wcsVal.mpr htype

theorem exists_hasStringArgs (hall : ∀ v ∈ trap.varArgs, v.iValueType = SNMP_TYPE_STR)
    (hstored : StringsStored trap) : ∃ args, HasStringArgs trap args := by
  refine ⟨trap.varArgs.map fun v => v.wcsVal.getD [], ?_⟩
  rw [HasStringArgs, List.map_map]
  apply List.map_congr_left
  intro v hv
  have htype := hall v hv
  obtain ⟨s, hs⟩ := Option.isSome_iff_exists.mp (hstored v hv htype)
  simp [htype, hs]

theorem hasStrings_iff (n : ℕ) :
    hasStrings trap n = true ↔
      (∀ v ∈ trap.varArgs, v.iValueType = SNMP_TYPE_STR) ∧ trap.varArgs.length = n := by
  simp only [hasStrings, Bool.and_eq_true, beq_iff_eq, List.all_eq_true, and_comm]

theorem hasStrings_eq_false (k : LayoutClass) (h : ¬ HasLayout k trap) :
    ∀ n ∈ k.layouts, hasStrings trap n = false := by
  intro n hn
  rw [← Bool.not_eq_true, hasStrings_iff]
  rintro ⟨hall, hlen⟩
  exact h ⟨hall, hlen ▸ hn⟩

theorem parseTrap_of_not_hasLayout (k : LayoutClass) (self : k.Event) (h : ¬ HasLayout k trap) :
    k.parseTrap self trap = some ⟨some false, self⟩ := by
  have hnone := hasStrings_eq_false k h
  cases k with
  | processFail =>
    have hcond : (hasStrings trap 4 || hasStrings trap 5 || hasStrings trap 7) = false := by
      rw [hnone 4 (by decide), hnone 5 (by decide), hnone 7 (by decide)]
      rfl
    exact if_neg (Bool.eq_false_iff.mp hcond)
  | serviceFail =>
    have hcond : (hasStrings trap 5 || hasStrings trap 6 || hasStrings trap 8) = false := by
      rw [hnone 5 (by decide), hnone 6 (by decide), hnone 8 (by decide)]
      rfl
    exact if_neg (Bool.eq_false_iff.mp hcond)
  | clusterFail =>
    have hcond : hasStrings trap 5 = false := by
      rw [hnone 5 (by decide)]
    exact if_neg (Bool.eq_false_iff.mp hcond)
  | startMaintenance =>
    have hcond : (hasStrings trap 4 || hasStrings trap 5) = false := by
      rw [hnone 4 (by decide), hnone 5 (by decide)]
      rfl
    exact if_neg (Bool.eq_false_iff.mp hcond)
  | error =>
    have hcond : (hasStrings trap 3 || hasStrings trap 4) = false := by
      rw [hnone 3 (by decide), hnone 4 (by decide)]
      rfl
    exact if_neg (Bool.eq_false_iff.mp hcond)
  | hello =>
    have hcond : (hasStrings trap 1 || hasStrings trap 4) = false := by
      rw [hnone 1 (by decide), hnone 4 (by decide)]
      rfl
    exact if_neg (Bool.eq_false_iff.mp hcond)
  | goodbye =>
    have hcond : (hasStrings trap 1 || hasStrings trap 4) = false := by
      rw [hnone 1 (by decide), hnone 4 (by decide)]
      rfl
    exact if_neg (Bool.eq_false_iff.mp hcond)

theorem processFail_accepts (self : ProcessFailEvent) (h : HasStringArgs trap args)
    (hlen : args.length ∈ processFail.layouts) :
    ∃ e, self.parseTrap trap = some ⟨some true, e⟩ ∧
      e.agentVersion = if args.length = 7 then .post1_13 else self.agentVersion := by
  simp only [layouts, List.mem_cons, List.not_mem_nil, or_false] at hlen
  obtain hlen | hlen | hlen := hlen
  · simp [ProcessFailEvent.parseTrap, h.hasStrings_eq, h.wcsArg_eq, h.length_eq, hlen]
  · simp [ProcessFailEvent.parseTrap, h.hasStrings_eq, h.wcsArg_eq, h.length_eq, hlen]
  · simp [ProcessFailEvent.parseTrap, h.hasStrings_eq, h.wcsArg_eq, h.length_eq, hlen]

theorem startMaintenance_accepts (self : StartMaintenanceEvent) (h : HasStringArgs trap args)
    (hlen : args.length ∈ startMaintenance.layouts) :
    ∃ e, self.parseTrap trap = some ⟨some true, e⟩ ∧ e.agentVersion = self.agentVersion := by
  simp only [layouts, List.mem_cons, List.not_mem_nil, or_false] at hlen
  obtain hlen | hlen := hlen
  · simp [StartMaintenanceEvent.parseTrap, h.hasStrings_eq, h.wcsArg_eq, h.length_eq, hlen]
  · simp [StartMaintenanceEvent.parseTrap, h.hasStrings_eq, h.wcsArg_eq, h.length_eq, hlen]

theorem error_accepts (self : ErrorEvent) (h : HasStringArgs trap args)
    (hlen : args.length ∈ LayoutClass.error.layouts) :
    ∃ e, self.parseTrap trap = some ⟨some true, e⟩ ∧ e.agentVersion = self.agentVersion := by
  simp only [layouts, List.mem_cons, List.not_mem_nil, or_false] at hlen
  obtain hlen | hlen := hlen
  · simp [ErrorEvent.parseTrap, h.hasStrings_eq, h.wcsArg_eq, h.length_eq, hlen]
  · simp [ErrorEvent.parseTrap, h.hasStrings_eq, h.wcsArg_eq, h.length_eq, hlen]

theorem serviceFail_ends (self : ServiceFailEvent) (h : HasStringArgs trap args)
    (hlen : args.length ∈ serviceFail.layouts) :
    ∃ e, self.parseTrap trap = some ⟨none, e⟩ := by
  simp only [layouts, List.mem_cons, List.not_mem_nil, or_false] at hlen
  obtain hlen | hlen | hlen := hlen
  · simp [ServiceFailEvent.parseTrap, h.hasStrings_eq, h.wcsArg_eq, h.length_eq, hlen]
  · simp [ServiceFailEvent.parseTrap, h.hasStrings_eq, h.wcsArg_eq, h.length_eq, hlen]
  · simp [ServiceFailEvent.parseTrap, h.hasStrings_eq, h.wcsArg_eq, h.length_eq, hlen]

theorem clusterFail_ends (self : ClusterFailEvent) (h : HasStringArgs trap args)
    (hlen : args.length ∈ clusterFail.layouts) :
    ∃ e, self.parseTrap trap = some ⟨none, e⟩ := by
  have hfive := List.mem_singleton.mp hlen
  simp [ClusterFailEvent.parseTrap, h.hasStrings_eq, h.wcsArg_eq, hfive]

theorem hello_ends (self : HelloEvent) (h : HasStringArgs trap args)
    (hlen : args.length ∈ hello.layouts) : ∃ e, self.parseTrap trap = some ⟨none, e⟩ := by
  simp only [layouts, List.mem_cons, List.not_mem_nil, or_false] at hlen
  obtain hlen | hlen := hlen
  · simp only [HelloEvent.parseTrap, h.hasStrings_eq, h.wcsArg_eq, h.length_eq, hlen]
    simp [hlen]
    split_ifs
    · exact ⟨_, rfl⟩
    · exact ⟨_, rfl⟩
  · simp only [HelloEvent.parseTrap, h.hasStrings_eq, h.wcsArg_eq, h.length_eq, hlen]
    simp [hlen]
    split_ifs
    · exact ⟨_, rfl⟩
    · exact ⟨_, rfl⟩

theorem goodbye_ends (self : GoodbyeEvent) (h : HasStringArgs trap args)
    (hlen : args.length ∈ goodbye.layouts) : ∃ e, self.parseTrap trap = some ⟨none, e⟩ := by
  simp only [layouts, List.mem_cons, List.not_mem_nil, or_false] at hlen
  obtain hlen | hlen := hlen
  · simp [GoodbyeEvent.parseTrap, h.hasStrings_eq, h.wcsArg_eq, h.length_eq, hlen]
  · simp [GoodbyeEvent.parseTrap, h.hasStrings_eq, h.wcsArg_eq, h.length_eq, hlen]

def ReturnsTrue (k : LayoutClass) : Prop := k = processFail ∨ k = startMaintenance ∨ k = .error

theorem not_resultRight (k : LayoutClass) (self : k.Event) (hk : ¬ ReturnsTrue k)
    (h : HasStringArgs trap args) (hlen : args.length ∈ k.layouts) :
    ¬ ResultRight k self trap := by
  have hends : ∃ e, k.parseTrap self trap = some ⟨none, e⟩ := by
    cases k with
    | processFail => exact absurd (.inl rfl) hk
    | serviceFail => exact serviceFail_ends self h hlen
    | clusterFail => exact clusterFail_ends self h hlen
    | startMaintenance => exact absurd (.inr (.inl rfl)) hk
    | error => exact absurd (.inr (.inr rfl)) hk
    | hello => exact hello_ends self h hlen
    | goodbye => exact goodbye_ends self h hlen
  rintro ⟨r, e, hright, _⟩
  obtain ⟨e', hends⟩ := hends
  have hreturned := congrArg Parsed.returned (Option.some.inj (hends.symm.trans hright))
  cases hreturned

theorem resultRight_of_returnsTrue (k : LayoutClass) (self : k.Event)
    (hself : k.agentVersion self = .pre1_13) (hk : ReturnsTrue k) (hlayout : HasLayout k trap)
    (h : HasStringArgs trap args) : ResultRight k self trap := by
  have hlen : args.length ∈ k.layouts := h.length_eq ▸ hlayout.2
  have hpre : ∀ {version : AgentVersion}, version = .pre1_13 → version ≠ .post1_13 := by
    rintro _ rfl h
    cases h
  obtain rfl | rfl | rfl := hk
  · obtain ⟨e, hparse, hversion⟩ := processFail_accepts self h hlen
    refine ⟨true, e, hparse, iff_of_true rfl hlayout, fun _ => ?_⟩
    change e.agentVersion = .post1_13 ↔ _
    rw [hversion, h.length_eq]
    by_cases hseven : args.length = 7
    · rw [if_pos hseven]
      exact iff_of_true rfl (.inl ⟨rfl, hseven⟩)
    · have hold : ¬ processFail.SentBy1_13 args.length := by
        simp [SentBy1_13, hseven]
      rw [if_neg hseven]
      exact iff_of_false (hpre hself) hold
  · obtain ⟨e, hparse, hversion⟩ := startMaintenance_accepts self h hlen
    exact ⟨true, e, hparse, iff_of_true rfl hlayout,
      fun _ => iff_of_false (hpre (hversion.trans hself)) (by simp [SentBy1_13])⟩
  · obtain ⟨e, hparse, hversion⟩ := error_accepts self h hlen
    exact ⟨true, e, hparse, iff_of_true rfl hlayout,
      fun _ => iff_of_false (hpre (hversion.trans hself)) (by simp [SentBy1_13])⟩

/-- The result of a new event is right exactly if the class returns true for its layouts, or the
trap has none of them. -/
theorem resultRight_iff (k : LayoutClass) (self : k.Event) (trap : CSnmpTrap)
    (hself : k.agentVersion self = .pre1_13) (hstored : StringsStored trap) :
    ResultRight k self trap ↔ ReturnsTrue k ∨ ¬ HasLayout k trap := by
  by_cases hlayout : HasLayout k trap
  · obtain ⟨args, h⟩ := exists_hasStringArgs hlayout.1 hstored
    rw [or_iff_left (not_not_intro hlayout)]
    constructor
    · intro hright
      by_contra hk
      exact not_resultRight k self hk h (h.length_eq ▸ hlayout.2) hright
    · intro hk
      exact resultRight_of_returnsTrue k self hself hk hlayout h
  · apply iff_of_true _ (.inr hlayout)
    refine ⟨false, self, parseTrap_of_not_hasLayout k self hlayout, ?_, ?_⟩
    · exact iff_of_false Bool.false_ne_true hlayout
    · intro hfalse
      cases hfalse

theorem stringsStored_stringTrap (args : List WStr) : StringsStored (stringTrap args) := by
  intro v hv _
  obtain ⟨s, _, rfl⟩ := List.mem_map.mp hv
  rfl

/-- An error message of an old agent. -/
theorem resultRight_errorEvent :
    ResultRight .error ({} : ErrorEvent)
      (stringTrap [wcs "osi1112", wcs "disk failed", wcs "Major"]) :=
  (resultRight_iff .error ({} : ErrorEvent) _ rfl (stringsStored_stringTrap _)).mpr
    (.inl (.inr (.inr rfl)))

/-- The service of an old agent. -/
theorem serviceFail_not_resultRight :
    ¬ ResultRight serviceFail ({} : ServiceFailEvent)
      (stringTrap [wcs "osi1112", wcs "spooler", wcs "running", wcs "stopped", wcs "Spooler"]) := by
  have hk : ¬ ReturnsTrue serviceFail := by simp [ReturnsTrue]
  exact not_resultRight serviceFail ({} : ServiceFailEvent) hk (hasStringArgs_stringTrap _)
    (by decide)

end TrapHandler
