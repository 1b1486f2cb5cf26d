import TrapHandler.CharArrays
import TrapHandler.WideStrings

/-!
# Object identifiers

`CSnmpOid` holds the component array and, independently of it, a cached text. The text constructor
parses digits separated by dots, keeps whatever it could parse, and clears the object where nothing
was parsed or a limit is exceeded. The text is written when it is asked for, unless it is too long.
-/

namespace TrapHandler

def MAXOIDSTRLEN : ℕ := 255

def MAXOIDLEN : ℕ := 50

/-- `oids` are the first `nOids` elements of the `Oids` array, `none` where the pointer is null. -/
structure CSnmpOid where
  oids : Option (List UInt32) := none
  wcsOid : Option WStr := none
  deriving DecidableEq, Repr, Inhabited

namespace CSnmpOid

def components (o : CSnmpOid) : List UInt32 := o.oids.getD []

def nOids (o : CSnmpOid) : ℕ := o.components.length

def ofComponents (cs : List UInt32) : CSnmpOid := { oids := some cs }

@[simp] theorem components_ofComponents (cs : List UInt32) :
    (ofComponents cs).components = cs := rfl

def dot : WChar := 0x2E

/-- The parsing loop of `buildFromWcsStr`: source characters left, text written, components found.
A number may start the rest of the source only where the text ends in a dot. -/
def buildLoop : ℕ → WStr → WStr → List UInt32 → CSnmpOid
  | 0, _, _, _ => {}
  | fuel + 1, src, dst, oids =>
    let digits := src.takeWhile isDigit
    let rest := src.dropWhile isDigit
    let tmpVal := digits.foldl (fun v c => v * 10 + (c - 0x30).toUInt32) 0
    if digits ≠ [] then
      match rest with
      | [] => { oids := some (oids ++ [tmpVal]), wcsOid := some (dst ++ digits) }
      | c :: rest =>
        if c ≠ dot then
          { oids := some (oids ++ [tmpVal]), wcsOid := some (dst ++ digits) }
        else if (oids ++ [tmpVal]).length > MAXOIDLEN then {}
        else buildLoop fuel rest (dst ++ digits ++ [dot]) (oids ++ [tmpVal])
    else if dst.length = 1 then {}
    else { oids := some oids, wcsOid := some dst.dropLast }

/-- `none` is a null pointer. -/
def buildFromWcsStr : Option WStr → CSnmpOid
  | none => {}
  | some wcsNewOid =>
    if wcsNewOid.length > MAXOIDSTRLEN then {}
    else
      match wcsNewOid with
      | [] => {}
      | c :: rest =>
        if 0x30 < c && c < 0x39 then buildLoop (rest.length + 2) (c :: rest) [dot] []
        else if c = dot then buildLoop (rest.length + 1) rest [dot] []
        else {}

/-- The loop of `MakeWcsStr`: components left, the array, and the offset of `pTmp`. The flag is false
where the text is given up. -/
def makeLoop : List UInt32 → CharArray WChar → ℕ → CharArray WChar × ℕ × Bool
  | [], wcsOid, pTmp => (wcsOid, pTmp, true)
  | oid :: oids, wcsOid, pTmp =>
    let wcsBuf := decimal oid.toNat
    let wcsOid := wcsOid.copyAt pTmp wcsBuf
    let pTmp := pTmp + wcsBuf.length
    let wcsOid := wcsOid.store pTmp dot
    let pTmp := pTmp + 1
    if pTmp ≥ MAXOIDSTRLEN then (wcsOid, pTmp, false)
    else makeLoop oids wcsOid pTmp

/-- The array `MakeWcsStr` writes, and whether it is kept. -/
def wcsArray (raw : ℕ → WChar) (oids : List UInt32) : CharArray WChar × Bool :=
  let wcsOid := (CharArray.new (MAXOIDSTRLEN + 1) raw).store 0 dot
  match makeLoop oids wcsOid 1 with
  | (wcsOid, pTmp, true) => (wcsOid.store (pTmp - 1) 0, true)
  | (wcsOid, _, false) => (wcsOid, false)

/-- `raw` is what the new array holds. -/
def makeWcsStr (raw : ℕ → WChar) (o : CSnmpOid) : CSnmpOid :=
  match o.oids, o.wcsOid with
  | some oids, none =>
    match wcsArray raw oids with
    | (wcsOid, true) => { o with wcsOid := some wcsOid.text }
    | (_, false) => o
  | _, _ => o

/-- `operator +=`. -/
def append (o addOid : CSnmpOid) : CSnmpOid :=
  if addOid.nOids = 0 then o
  else { oids := some (o.components ++ addOid.components), wcsOid := none }

theorem ofComponents_append (os cs : List UInt32) (h : cs ≠ []) :
    (ofComponents os).append (ofComponents cs) = ofComponents (os ++ cs) := by
  have hne : ¬ (ofComponents cs).nOids = 0 := by simpa [nOids] using h
  rw [append, if_neg hne]
  rfl

/-- `operator ==(const CSnmpOid *)`. -/
def equals (o compOid : CSnmpOid) : Bool := o.components == compOid.components

theorem equals_iff (o compOid : CSnmpOid) :
    o.equals compOid = true ↔ o.components = compOid.components := by
  rw [equals, beq_iff_eq]

end CSnmpOid
end TrapHandler
