import TrapHandler.ByteReader
import TrapHandler.SnmpOid

/-!
# The field parsers

Each parser moves the cursor over the content of one field whose length has been read before. None
of them knows where the packet ends. A reference argument of the source is the value passed in, and
the result is what it holds afterwards; the two integer parsers leave it alone, and return the null
pointer, where the field is too long.
-/

namespace TrapHandler

open ByteReader ByteReader.Reader

/-- `Val = Val << 8; Val += (unsigned char)*pTmp;` for a 32-bit `Val`. -/
def shiftOctet (val : UInt32) (b : UInt8) : UInt32 := (val <<< 8) + b.toUInt32

def shiftOctet64 (val : UInt64) (b : UInt8) : UInt64 := (val <<< 8) + b.toUInt64

/-- `tmpVal = tmpVal << 7; tmpVal += ((unsigned char)*pTmp) & 0x7f;` -/
def shiftSeptet (tmpVal : UInt32) (b : UInt8) : UInt32 := (tmpVal <<< 7) + (b &&& 0x7f).toUInt32

/-- In the long form the low seven bits of the first octet count the octets that follow. -/
def getFieldLength : Reader UInt32 := do
  let b ← next
  if b &&& 0x80 == 0 then pure b.toUInt32
  else foldBytes shiftOctet (b &&& 0x7f).toNat 0

def parseIP (fieldLen : UInt32) : Reader UInt32 := foldBytes shiftOctet fieldLen.toNat 0

def parseInt (val fieldLen : UInt32) : Reader UInt32 :=
  if fieldLen > 4 then do
    setCursor none
    pure val
  else
    foldBytes shiftOctet fieldLen.toNat 0

def parseBigInt (val : UInt64) (fieldLen : UInt32) : Reader UInt64 :=
  if fieldLen > 8 then do
    setCursor none
    pure val
  else
    foldBytes shiftOctet64 fieldLen.toNat 0

/-- The inner loop of `parseOid`: bytes of the field left and the value so far. -/
def parseSubIdentifier : ℕ → UInt32 → Reader (ℕ × UInt32)
  | 0, tmpVal => pure (0, tmpVal)
  | left + 1, tmpVal => do
    let b ← next
    if b &&& 0x80 != 0x80 then pure (left, shiftSeptet tmpVal b)
    else parseSubIdentifier left (shiftSeptet tmpVal b)

/-- The outer loop of `parseOid` over an array of `size` elements. -/
def parseOidLoop (size : ℕ) : ℕ → ℕ → List UInt32 → Reader (List UInt32)
  | _, 0, oids => pure oids
  | 0, _ + 1, _ => timeout
  | fuel + 1, left + 1, oids => do
    let (left, tmpVal) ← parseSubIdentifier (left + 1) 0
    if tmpVal == 0x2b && oids.length == 0 then
      store 0 size
      store 1 size
      parseOidLoop size fuel left [1, 3]
    else
      store oids.length size
      parseOidLoop size fuel left (oids ++ [tmpVal])

/-- The array has `fieldLen + 1` elements, counted in 32 bits. The cached text of `val` is kept. -/
def parseOid (val : CSnmpOid) (fieldLen : UInt32) : Reader CSnmpOid := do
  allocate (4 * (fieldLen + 1).toNat)
  let oids ← parseOidLoop (fieldLen + 1).toNat fieldLen.toNat fieldLen.toNat []
  pure { val with oids := some oids }

/-- Looks at the byte behind the one under the cursor, whatever the field's length. -/
def parseBool : Reader Bool := do
  advance
  let b ← next
  pure (b != 0)

def parseStrLoop (size : ℕ) : ℕ → WStr → Reader WStr
  | 0, str => do
    store str.length size
    pure str
  | left + 1, str => do
    let b ← next
    store str.length size
    parseStrLoop size left (str ++ [charToWChar b])

/-- The caller's `new wchar_t[fieldLen + 1]`, counted in 32 bits, stands in front; the result is what
is stored before the terminator. -/
def parseStr (fieldLen : UInt32) : Reader WStr := do
  allocate (2 * (fieldLen + 1).toNat)
  parseStrLoop (fieldLen + 1).toNat fieldLen.toNat []

end TrapHandler
