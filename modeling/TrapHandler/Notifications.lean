import TrapHandler.SnmpTrap
import TrapHandler.BasicEncodingRules

/-!
# Notifications and their encodings

What a sender means by a version 1 trap or a version 2c notification, independently of the decoder,
and which byte strings encode it. The relation `length` says which length fields the sender may use.
For each value the variable the decoder ought to build from it is given alongside.
-/

namespace TrapHandler

open Ber

abbrev TextOctets := { bs : List UInt8 // ∀ b ∈ bs, b ≠ 0 ∧ b < 128 }

def TextOctets.text (s : TextOctets) : WStr := s.val.map UInt8.toUInt16

/-- The object identifier `1.3.rest`. -/
structure Oid where
  rest : List UInt32

namespace Oid

def components (o : Oid) : List UInt32 := 1 :: 3 :: o.rest

def octets (o : Oid) : List UInt8 := oidOctets 1 3 (o.rest.map UInt32.toNat)

def sysUpTime : Oid := ⟨[6, 1, 2, 1, 1, 3, 0]⟩

def snmpTrapOid : Oid := ⟨[6, 1, 6, 3, 1, 1, 4, 1, 0]⟩

end Oid

inductive Value where
  | integer (n : { n : ℕ // n < 2 ^ 63 })
  | octetString (s : TextOctets)
  | null
  | oid (o : Oid)
  | ipAddress (a : UInt32)
  | timeTicks (t : UInt32)

structure Varbind where
  name : Oid
  value : Value

/-- A version 2c notification; `inform` tells an inform request from a trap. -/
structure Notification where
  version : { n : ℕ // n < 2 ^ 31 }
  community : TextOctets
  inform : Bool
  requestID : { n : ℕ // n < 2 ^ 31 }
  errorStatus : { n : ℕ // n < 2 ^ 31 }
  errorIndex : { n : ℕ // n < 2 ^ 31 }
  sysUpTime : UInt32
  trapOid : Oid
  varbinds : List Varbind

structure V1Trap where
  version : { n : ℕ // n < 2 ^ 31 }
  community : TextOctets
  enterprise : Oid
  agentAddr : UInt32
  generic : Fin 7
  specific : { n : ℕ // n < 2 ^ 31 }
  timeStamp : UInt32
  varbinds : List Varbind

section Encoding

variable (length : ℕ → List UInt8 → Prop)

def EncodesInteger (tag : UInt8) (n : ℕ) (bs : List UInt8) : Prop :=
  IsElement length tag (integerOctets n) bs

def Oid.Encodes (o : Oid) (bs : List UInt8) : Prop := IsElement length SNMP_TYPE_OID o.octets bs

def Value.Encodes : Value → List UInt8 → Prop
  | .integer n, bs => EncodesInteger length SNMP_TYPE_INT n bs
  | .octetString s, bs => IsElement length SNMP_TYPE_STR s.val bs
  | .null, bs => bs = [SNMP_TYPE_NULL, 0]
  | .oid o, bs => o.Encodes length bs
  | .ipAddress a, bs => IsElement length SNMP_TYPE_IPADDR (octets 4 a.toNat) bs
  | .timeTicks t, bs => EncodesInteger length SNMP_TYPE_TIME t.toNat bs

def Varbind.Encodes (v : Varbind) (bs : List UInt8) : Prop :=
  ∃ name value, v.name.Encodes length name ∧ v.value.Encodes length value ∧
    IsElement length SNMP_TYPE_SEQ (name ++ value) bs

def EncodesVarbinds : List Varbind → List UInt8 → Prop
  | [], bs => bs = []
  | v :: vs, bs => ∃ first later, v.Encodes length first ∧ EncodesVarbinds vs later ∧
      bs = first ++ later

/-- The message with this version and community around a PDU. -/
def EncodesMessage (version : ℕ) (community : TextOctets) (pdu bs : List UInt8) : Prop :=
  ∃ ver comm, EncodesInteger length SNMP_TYPE_INT version ver ∧
    IsElement length SNMP_TYPE_STR community.val comm ∧
    IsElement length SNMP_TYPE_SEQ (ver ++ (comm ++ pdu)) bs

def Notification.EncodesFields (n : Notification) (content : List UInt8) : Prop :=
  ∃ requestID errorStatus errorIndex timeName time timeBind oidName oid oidBind varbinds list,
    EncodesInteger length SNMP_TYPE_INT n.requestID requestID ∧
    EncodesInteger length SNMP_TYPE_INT n.errorStatus errorStatus ∧
    EncodesInteger length SNMP_TYPE_INT n.errorIndex errorIndex ∧
    Oid.sysUpTime.Encodes length timeName ∧
    EncodesInteger length SNMP_TYPE_TIME n.sysUpTime.toNat time ∧
    IsElement length SNMP_TYPE_SEQ (timeName ++ time) timeBind ∧
    Oid.snmpTrapOid.Encodes length oidName ∧
    n.trapOid.Encodes length oid ∧
    IsElement length SNMP_TYPE_SEQ (oidName ++ oid) oidBind ∧
    EncodesVarbinds length n.varbinds varbinds ∧
    IsElement length SNMP_TYPE_SEQ (timeBind ++ (oidBind ++ varbinds)) list ∧
    content = requestID ++ (errorStatus ++ (errorIndex ++ list))

def Notification.pduTag (n : Notification) : UInt8 :=
  if n.inform then SNMP_V2INFORM else SNMP_V2TRAP

def Notification.Encodes (n : Notification) (bs : List UInt8) : Prop :=
  ∃ content pdu, n.EncodesFields length content ∧ IsElement length n.pduTag content pdu ∧
    EncodesMessage length n.version n.community pdu bs

def V1Trap.EncodesFields (n : V1Trap) (content : List UInt8) : Prop :=
  ∃ enterprise agentAddr generic specific timeStamp varbinds list,
    n.enterprise.Encodes length enterprise ∧
    IsElement length SNMP_TYPE_IPADDR (octets 4 n.agentAddr.toNat) agentAddr ∧
    EncodesInteger length SNMP_TYPE_INT n.generic generic ∧
    EncodesInteger length SNMP_TYPE_INT n.specific specific ∧
    EncodesInteger length SNMP_TYPE_TIME n.timeStamp.toNat timeStamp ∧
    EncodesVarbinds length n.varbinds varbinds ∧
    IsElement length SNMP_TYPE_SEQ varbinds list ∧
    content = enterprise ++ (agentAddr ++ (generic ++ (specific ++ (timeStamp ++ list))))

def V1Trap.Encodes (n : V1Trap) (bs : List UInt8) : Prop :=
  ∃ content pdu, n.EncodesFields length content ∧ IsElement length SNMP_V1TRAP content pdu ∧
    EncodesMessage length n.version n.community pdu bs

end Encoding

/-- An integer or time value goes to the 32-bit or the 64-bit field by its number of octets. -/
def integerVar (name : Oid) (tag : UInt8) (n : ℕ) : CSnmpTrapVar :=
  if integerWidth n ≤ 4 then
    { oid := .ofComponents name.components, iValueType := tag, iVal := UInt32.ofNat n }
  else
    { oid := .ofComponents name.components, iValueType := tag, ullVal := UInt64.ofNat n }

def Varbind.toVar (v : Varbind) : CSnmpTrapVar :=
  let oid := CSnmpOid.ofComponents v.name.components
  match v.value with
  | .integer n => integerVar v.name SNMP_TYPE_INT n
  | .octetString s => { oid, iValueType := SNMP_TYPE_STR, wcsVal := some s.text }
  | .null => { oid, iValueType := SNMP_TYPE_NULL }
  | .oid o => { oid, iValueType := SNMP_TYPE_OID, oidVal := some (.ofComponents o.components) }
  | .ipAddress a => { oid, iValueType := SNMP_TYPE_IPADDR, iVal := a }
  | .timeTicks t => integerVar v.name SNMP_TYPE_TIME t.toNat

/-- A generic code of 6 stands for an enterprise specific trap. -/
def V1Trap.trapOid (n : V1Trap) : List UInt32 :=
  if n.generic = 6 then n.enterprise.components ++ [0, UInt32.ofNat n.specific]
  else n.enterprise.components ++ [UInt32.ofNat n.generic + 1]

end TrapHandler
