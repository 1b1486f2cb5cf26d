import TrapHandler.Asn1Parsers

/-!
# The trap decoder

`CSnmpTrap.decode` walks a received datagram once from the first byte on, through the SNMP envelope,
the version 1 or version 2c fields, and the list of variable bindings. The object it fills is passed
in with whatever its constructor left in the fields it does not set.
-/

namespace TrapHandler

open ByteReader ByteReader.Reader

def SNMP_V1TRAP : UInt8 := 0xA4
def SNMP_V2INFORM : UInt8 := 0xA6
def SNMP_V2TRAP : UInt8 := 0xA7
def SNMP_TYPE_BOOL : UInt8 := 0x01
def SNMP_TYPE_INT : UInt8 := 0x02
def SNMP_TYPE_STR : UInt8 := 0x04
def SNMP_TYPE_NULL : UInt8 := 0x05
def SNMP_TYPE_OID : UInt8 := 0x06
def SNMP_TYPE_SEQ : UInt8 := 0x30
def SNMP_TYPE_IPADDR : UInt8 := 0x40
def SNMP_TYPE_TIME : UInt8 := 0x43

/-- The two build targets; they differ in the width of a pointer difference. -/
inductive Platform where
  | win32
  | x64
  deriving DecidableEq, Repr

/-- A received datagram. The buffer is exactly the datagram. -/
structure SSnmpPacket where
  srcAddr : UInt32
  srcPort : UInt16
  ftRecvTime : UInt64
  packetSize : UInt32
  buf : List UInt8
  size_eq : packetSize.toNat = buf.length

structure CSnmpTrapVar where
  oid : CSnmpOid
  iValueType : UInt8 := 0
  oidVal : Option CSnmpOid := none
  wcsVal : Option WStr := none
  iVal : UInt32 := 0
  bVal : Bool := false
  ullVal : UInt64 := 0
  deriving DecidableEq, Repr

structure CSnmpTrap where
  ulSourceIP : UInt32
  ullSourceTime : UInt64
  trapOid : Option CSnmpOid
  ftRecvTime : UInt64
  trapType : UInt8
  version : UInt32
  packetLen : UInt32
  community : Option WStr
  requestID : UInt32
  error : UInt32
  errorIndex : UInt32
  snmpSourceIP : UInt32
  pReqType : Cursor
  varArgs : List CSnmpTrapVar
  deriving DecidableEq, Repr, Inhabited

def ntohl (n : UInt32) : UInt32 :=
  (n <<< 24) ||| ((n <<< 8) &&& (0xff0000 : UInt32)) ||| ((n >>> 8) &&& (0xff00 : UInt32)) |||
    (n >>> 24)

namespace CSnmpTrap

/-- The constructor; `raw` is the content of the memory the object is placed in. -/
def ofPacket (packet : SSnmpPacket) (raw : CSnmpTrap) : CSnmpTrap :=
  { raw with
    ftRecvTime := packet.ftRecvTime
    packetLen := packet.packetSize
    version := 65535
    community := none
    trapOid := none
    pReqType := none
    ulSourceIP := ntohl packet.srcAddr
    varArgs := [] }

/-- `this->PacketLen - (pTmp - pBuf)`, unsigned in 32 bits or signed in 64. -/
def bytesLeft : Platform → UInt32 → ℕ → ℤ
  | .win32, packetLen, consumed => (packetLen - UInt32.ofNat consumed).toNat
  | .x64, packetLen, consumed => packetLen.toNat - consumed

theorem bytesLeft_eq {platform : Platform} {packetLen : UInt32} {q k : ℕ}
    (h : q + k = packetLen.toNat) : bytesLeft platform packetLen q = k := by
  have hlt := packetLen.toNat_lt
  cases platform with
  | x64 =>
    rw [bytesLeft]
    omega
  | win32 =>
    have hq : (UInt32.ofNat q).toNat = q := UInt32.toNat_ofNat_of_lt' (show q < 2 ^ 32 by omega)
    rw [bytesLeft, UInt32.toNat_sub_of_le _ _ (by rw [UInt32.le_iff_toNat_le, hq]; omega), hq]
    omega

/-- `if (*pTmp != tag) return false; pTmp++;` -/
def expectTag (tag : UInt8) : Reader Unit := do
  let b ← peek
  require (b == tag)
  advance

theorem expectTag_accepts {mem : Memory} {p : ℕ} {tag : UInt8} (h : mem p = tag) :
    Accepts (expectTag tag) mem (some p) () (some (p + 1)) := by
  subst h
  apply (peek_accepts mem p).bind
  apply (require_accepts (beq_self_eq_true (mem p))).bind
  exact advance_accepts mem p

/-- A time stamp of at most four octets is read as a 32-bit integer, which is then `tmpTime`. -/
def parseTime (val : UInt64) (fieldLen : UInt32) : Reader UInt64 :=
  if fieldLen ≤ 4 then do
    let tmpTime ← parseInt 0 fieldLen
    pure tmpTime.toUInt64
  else
    parseBigInt val fieldLen

/-- The version 1 fields. `uninit` is what an unassigned local variable happens to hold. -/
def decodeV1 (uninit : UInt32) (this : CSnmpTrap) : Reader CSnmpTrap := do
  let this := { this with requestID := 0, error := 0, errorIndex := 0 }
  expectTag SNMP_TYPE_OID
  let fieldLen ← getFieldLength
  let trapOid ← parseOid {} fieldLen
  expectTag SNMP_TYPE_IPADDR
  let b ← peek
  require (b == 4)
  let fieldLen ← getFieldLength
  let snmpSourceIP ← parseIP fieldLen
  expectTag SNMP_TYPE_INT
  let b ← peek
  require (b == 1)
  let fieldLen ← getFieldLength
  let genericID ← parseInt uninit fieldLen
  expectTag SNMP_TYPE_INT
  let fieldLen ← getFieldLength
  let specificID ← parseInt uninit fieldLen
  let addOid := CSnmpOid.ofComponents
    (if genericID == 6 then [0, specificID] else [genericID + 1])
  let trapOid := trapOid.append addOid
  expectTag SNMP_TYPE_TIME
  let fieldLen ← getFieldLength
  let ullSourceTime ← parseTime this.ullSourceTime fieldLen
  expectTag SNMP_TYPE_SEQ
  let _ ← getFieldLength
  pure { this with trapOid := some trapOid, snmpSourceIP, ullSourceTime }

/-- The version 2c fields, with the two leading variable bindings for time and trap OID. -/
def decodeV2 (this : CSnmpTrap) : Reader CSnmpTrap := do
  expectTag SNMP_TYPE_INT
  let fieldLen ← getFieldLength
  let requestID ← parseInt this.requestID fieldLen
  expectTag SNMP_TYPE_INT
  let fieldLen ← getFieldLength
  let error ← parseInt this.error fieldLen
  expectTag SNMP_TYPE_INT
  let fieldLen ← getFieldLength
  let errorIndex ← parseInt this.errorIndex fieldLen
  expectTag SNMP_TYPE_SEQ
  let _ ← getFieldLength
  expectTag SNMP_TYPE_SEQ
  let _ ← getFieldLength
  expectTag SNMP_TYPE_OID
  let fieldLen ← getFieldLength
  let _ ← parseOid {} fieldLen
  expectTag SNMP_TYPE_TIME
  let fieldLen ← getFieldLength
  let ullSourceTime ← parseTime this.ullSourceTime fieldLen
  expectTag SNMP_TYPE_SEQ
  let _ ← getFieldLength
  expectTag SNMP_TYPE_OID
  let fieldLen ← getFieldLength
  let _ ← parseOid {} fieldLen
  expectTag SNMP_TYPE_OID
  let fieldLen ← getFieldLength
  let trapOid ← parseOid {} fieldLen
  pure { this with requestID, error, errorIndex, ullSourceTime, trapOid := some trapOid }

/-- The value of a variable binding; its type tag `b` lies under the cursor. -/
def decodeValue (newVar : CSnmpTrapVar) (b : UInt8) : Reader CSnmpTrapVar :=
  if b == SNMP_TYPE_BOOL then do
    advance
    let _ ← getFieldLength
    let bVal ← parseBool
    pure { newVar with bVal }
  else if b == SNMP_TYPE_INT || b == SNMP_TYPE_TIME then do
    advance
    let fieldLen ← getFieldLength
    if fieldLen ≤ 4 then
      let iVal ← parseInt newVar.iVal fieldLen
      pure { newVar with iVal }
    else
      let ullVal ← parseBigInt newVar.ullVal fieldLen
      pure { newVar with ullVal }
  else if b == SNMP_TYPE_STR then do
    advance
    let fieldLen ← getFieldLength
    let wcsVal ← parseStr fieldLen
    pure { newVar with wcsVal := some wcsVal }
  else if b == SNMP_TYPE_NULL then do
    advance
    advance
    pure newVar
  else if b == SNMP_TYPE_OID then do
    advance
    let fieldLen ← getFieldLength
    let oidVal ← parseOid {} fieldLen
    pure { newVar with oidVal := some oidVal }
  else if b == SNMP_TYPE_IPADDR then do
    advance
    let fieldLen ← getFieldLength
    let iVal ← parseIP fieldLen
    pure { newVar with iVal }
  else
    reject

/-- One pass through the body of the varbind loop, behind the sequence tag. -/
def decodeVarbind : Reader CSnmpTrapVar := do
  let _ ← getFieldLength
  expectTag SNMP_TYPE_OID
  let fieldLen ← getFieldLength
  let oid ← parseOid {} fieldLen
  let b ← peek
  decodeValue { oid, iValueType := b } b

/-- The varbind loop. The byte under the cursor is read before the cursor is compared. -/
def varbindLoop (packetLen : UInt32) (fuel : ℕ) (varArgs : List CSnmpTrapVar) :
    Reader (List CSnmpTrapVar) := do
  let b ← peek
  let p ← offset
  if b == SNMP_TYPE_SEQ && p < packetLen.toNat then
    match fuel with
    | 0 => timeout
    | fuel + 1 =>
      advance
      let newVar ← decodeVarbind
      varbindLoop packetLen fuel (varArgs ++ [newVar])
  else
    pure varArgs

def decodeHeader (platform : Platform) (this : CSnmpTrap) : Reader CSnmpTrap := do
  expectTag 0x30
  let fieldLen ← getFieldLength
  let consumed ← offset
  require (decide ((fieldLen.toNat : ℤ) = bytesLeft platform this.packetLen consumed))
  expectTag SNMP_TYPE_INT
  let fieldLen ← getFieldLength
  require (decide (fieldLen ≤ 4))
  let version ← parseInt this.version fieldLen
  expectTag SNMP_TYPE_STR
  let fieldLen ← getFieldLength
  let community ← parseStr fieldLen
  let pReqType ← offset
  let b ← peek
  require (b == SNMP_V1TRAP || b == SNMP_V2INFORM || b == SNMP_V2TRAP)
  advance
  let _ ← getFieldLength
  pure { this with version, community := some community, pReqType := some pReqType, trapType := b }

def decodeFields (uninit : UInt32) (this : CSnmpTrap) : Reader CSnmpTrap :=
  if this.trapType == SNMP_V1TRAP then decodeV1 uninit this else decodeV2 this

def decode (platform : Platform) (uninit : UInt32) (this : CSnmpTrap) : Reader CSnmpTrap := do
  let this ← decodeHeader platform this
  let this ← decodeFields uninit this
  -- every pass moves the cursor, so the loop runs at most `packetLen` times
  let varArgs ← varbindLoop this.packetLen this.packetLen.toNat this.varArgs
  pure { this with varArgs }

end CSnmpTrap

/-- Decoding a received datagram, with arbitrary memory behind its buffer. -/
def SSnmpPacket.decode (packet : SSnmpPacket) (platform : Platform) (uninit : UInt32)
    (raw : CSnmpTrap) (behind : Memory) : Run CSnmpTrap :=
  CSnmpTrap.decode platform uninit (CSnmpTrap.ofPacket packet raw)
    (memoryOf packet.buf behind) (some 0)

end TrapHandler
