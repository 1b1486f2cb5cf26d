import TrapHandler.AcceptedLayout
import TrapHandler.AgentEvents

/-!
# The event factory

`GetEventFromTrap` compares the address of a trap's OID with the addresses of the factory's own
members. The trap's OID is an object of its own on the heap, so none of the comparisons succeeds.
-/

namespace TrapHandler

inductive EventClass where
  | diskMetric
  | processFail
  | serviceFail
  | clusterFail
  | startMaintenance
  | error
  | hello
  | goodbye
  | generic
  deriving DecidableEq, Repr

inductive FactoryOid where
  | trapOidDiskMetric
  | trapOidProcFail
  | trapOidServFail
  | trapOidClusFail
  | trapOidStartMaint
  | trapOidError
  | trapOidHello
  | trapOidGoodbye
  deriving DecidableEq, Repr

/-- Address of a `CSnmpOid`: none, an object made with `new`, or a member of the factory. -/
inductive OidPtr where
  | null
  | heap (address : ℕ)
  | member (oid : FactoryOid)
  deriving DecidableEq, Repr

namespace FactoryOid

/-- The text the constructor of the factory gives to a member. -/
def text : FactoryOid → WStr
  | trapOidDiskMetric => wcs ".1.3.6.1.4.1.15282.10.0.2"
  | trapOidProcFail => wcs ".1.3.6.1.4.1.15282.10.0.3"
  | trapOidServFail => wcs ".1.3.6.1.4.1.15282.10.0.4"
  | trapOidClusFail => wcs ".1.3.6.1.4.1.15282.10.0.5"
  | trapOidStartMaint => wcs ".1.3.6.1.4.1.15282.10.0.6"
  | trapOidError => wcs ".1.3.6.1.4.1.15282.10.0.7"
  | trapOidHello => wcs ".1.3.6.1.4.1.15282.10.0.8"
  | trapOidGoodbye => wcs ".1.3.6.1.4.1.15282.10.0.9"

def object (m : FactoryOid) : CSnmpOid := CSnmpOid.buildFromWcsStr (some m.text)

def arc : FactoryOid → UInt32
  | trapOidDiskMetric => 2
  | trapOidProcFail => 3
  | trapOidServFail => 4
  | trapOidClusFail => 5
  | trapOidStartMaint => 6
  | trapOidError => 7
  | trapOidHello => 8
  | trapOidGoodbye => 9

end FactoryOid

/-- There is no comparison with the member for hello messages. -/
def getEventFromTrap (trapOid : OidPtr) : Bool × EventClass :=
  if trapOid = .member .trapOidDiskMetric then (true, .diskMetric)
  else if trapOid = .member .trapOidProcFail then (true, .processFail)
  else if trapOid = .member .trapOidServFail then (true, .serviceFail)
  else if trapOid = .member .trapOidClusFail then (true, .clusterFail)
  else if trapOid = .member .trapOidStartMaint then (true, .startMaintenance)
  else if trapOid = .member .trapOidError then (true, .error)
  else if trapOid = .member .trapOidGoodbye then (true, .goodbye)
  else (false, .generic)

/-- Where the OID of a decoded trap lies: `Decode` makes it with `new`. -/
def CSnmpTrap.trapOidPtr (trap : CSnmpTrap) (address : ℕ) : OidPtr :=
  match trap.trapOid with
  | none => .null
  | some _ => .heap address

def CSnmpTrap.trapOidComponents (trap : CSnmpTrap) : List UInt32 :=
  match trap.trapOid with
  | none => []
  | some oid => oid.components

/-- `1.3.6.1.4.1.15282.10.0.k` -/
def agentOid (k : UInt32) : List UInt32 := [1, 3, 6, 1, 4, 1, 15282, 10, 0, k]

def agentTraps : List (UInt32 × EventClass) :=
  [(2, .diskMetric), (3, .processFail), (4, .serviceFail), (5, .clusterFail),
    (6, .startMaintenance), (7, .error), (8, .hello), (9, .goodbye)]

/-- The event that the component sequence of a trap OID asks for. -/
def eventOf (components : List UInt32) : Bool × EventClass :=
  match agentTraps.find? (fun e => agentOid e.1 == components) with
  | some e => (true, e.2)
  | none => (false, .generic)

/-- `operator ==` of an object, given the address of another, would tell the eight agent traps apart. -/
theorem object_equals_iff (m : FactoryOid) (oid : CSnmpOid) :
    m.object.equals oid = true ↔ oid.components = agentOid m.arc := by
  have hcomponents : m.object.components = agentOid m.arc := by cases m <;> decide
  rw [CSnmpOid.equals_iff, hcomponents]
  exact eq_comm

theorem getEventFromTrap_trapOidPtr (trap : CSnmpTrap) (address : ℕ) :
    getEventFromTrap (trap.trapOidPtr address) = (false, .generic) := by
  rw [CSnmpTrap.trapOidPtr]
  cases trap.trapOid <;> rfl

theorem mem_agentTraps_iff (k : UInt32) :
    (∃ e ∈ agentTraps, e.1 = k) ↔ 2 ≤ k ∧ k ≤ 9 := by
  constructor
  · rintro ⟨e, he, rfl⟩
    have hall : ∀ e ∈ agentTraps, 2 ≤ e.1 ∧ e.1 ≤ 9 := by decide
    exact hall e he
  · rintro ⟨hlow, hhigh⟩
    rw [UInt32.le_iff_toNat_le] at hlow hhigh
    have hall : ∀ n : Fin 10, 2 ≤ n.val → ∃ e ∈ agentTraps, e.1 = UInt32.ofNat n := by decide
    have hk := hall ⟨k.toNat, Nat.lt_succ_of_le hhigh⟩ hlow
    rwa [UInt32.ofNat_toNat] at hk

theorem eventOf_eq_generic_iff (components : List UInt32) :
    eventOf components = (false, .generic) ↔
      ∀ k : UInt32, 2 ≤ k → k ≤ 9 → components ≠ agentOid k := by
  rw [eventOf]
  cases hfind : agentTraps.find? (fun e => agentOid e.1 == components) with
  | none =>
    apply iff_of_true rfl
    intro k hlow hhigh hk
    obtain ⟨e, he, rfl⟩ := (mem_agentTraps_iff k).mpr ⟨hlow, hhigh⟩
    exact List.find?_eq_none.mp hfind e he (beq_iff_eq.mpr hk.symm)
  | some e =>
    apply iff_of_false (by simp)
    intro hall
    have he := (mem_agentTraps_iff e.1).mp ⟨e, List.mem_of_find?_eq_some hfind, rfl⟩
    have heq : agentOid e.1 = components := by simpa using List.find?_some hfind
    exact hall e.1 he.1 he.2 heq.symm

/-- The factory dispatches on the component sequence only where it makes no difference. -/
theorem getEventFromTrap_eq_iff (trap : CSnmpTrap) (address : ℕ) :
    getEventFromTrap (trap.trapOidPtr address) = eventOf trap.trapOidComponents ↔
      ∀ k : UInt32, 2 ≤ k → k ≤ 9 → trap.trapOidComponents ≠ agentOid k := by
  rw [getEventFromTrap_trapOidPtr, eq_comm, eventOf_eq_generic_iff]

/-- The hello message of an agent becomes an unknown event. -/
theorem getEventFromTrap_hello :
    (helloPacket.decode .x64 0 default fun _ => 0).outcome = .ok helloTrap (some 95) ∧
      helloTrap.trapOidComponents = agentOid 8 ∧
      getEventFromTrap (helloTrap.trapOidPtr 0) ≠ (true, .hello) := by
  decide +kernel

end TrapHandler
