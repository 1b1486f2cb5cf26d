import TrapHandler.WideStrings

/-!
# Version strings

`ParseVersionString` takes the version string of a host apart with a cursor that only moves forward,
except where the Linux layout is read back from its end. A cursor is modelled as the text from it up
to the terminator, and a parse is `none` where the code reads in front of the string or behind its
terminator.
-/

namespace TrapHandler

/-- What the function returns, and its five output variables; `none` is a null pointer. -/
structure ParsedVersion where
  returned : Option WStr
  verMajor : UInt32
  verMinor : UInt32
  build : WStr
  spLevel : UInt32
  architecture : WStr
  deriving DecidableEq, Repr

namespace ParsedVersion

def errorExit : ParsedVersion where
  returned := none
  verMajor := 0
  verMinor := 0
  build := []
  spLevel := 0
  architecture := []

def isBlank (c : WChar) : Bool := c == 0x20 || c == 0x09

/-- `wcstoul(nptr, &endptr, 10)`. A number out of range becomes the largest one, and without a number
the end pointer is the start. -/
def wcstoul (nptr : WStr) : UInt32 × WStr :=
  let s := nptr.dropWhile isSpace
  let negative := s.head? == some 0x2D
  let digits := if negative || s.head? == some 0x2B then s.tail else s
  if digits.takeWhile isDigit = [] then (0, nptr)
  else
    let n := unsignedNumber digits
    let value := if n < 2 ^ 32 then UInt32.ofNat n else 0xFFFFFFFF
    (if negative && n < 2 ^ 32 then -value else value, digits.dropWhile isDigit)

/-- `pStr += n`, for a cursor that is read next. -/
def advance (n : ℕ) (pStr : WStr) : Option WStr :=
  if n ≤ pStr.length then some (pStr.drop n) else none

/-- `while (*pStr != L' ') pStr++; pStr++;` -/
def skipWord : WStr → Option WStr
  | [] => none
  | c :: pStr => if c = 0x20 then some pStr else skipWord pStr

/-- The text from the first occurrence of `wcsFind` on. -/
def wcsstr (wcsFind : WStr) : WStr → Option WStr
  | [] => if wcsFind = [] then some [] else none
  | c :: pStr =>
    if wcsFind.isPrefixOf (c :: pStr) then some (c :: pStr) else wcsstr wcsFind pStr

def upTo (start pStr : WStr) : WStr := start.take (start.length - pStr.length)

/-- Service pack level and the cursor behind it; the inner `none` is the jump to the error exit. -/
def parseServicePack (pStr : WStr) : Option (Option (UInt32 × WStr)) :=
  if (wcs ",Service Pack ").isPrefixOf pStr then
    let (spLevel, pStr) := wcstoul (pStr.drop 14)
    if 0x2D ∈ pStr then some (some (spLevel, pStr.drop 1)) else some none
  else if (wcs ",No Service Pack").isPrefixOf pStr then
    (advance 17 pStr).map fun pStr => some (0, pStr)
  else some none

def parseWindows (versionString : WStr) : Option ParsedVersion := do
  let (verMajor, pStr) := wcstoul (versionString.drop 6)
  if !(wcs ".").isPrefixOf pStr then
    return errorExit
  let (verMinor, pStr) := wcstoul (pStr.drop 1)
  if !(wcs ",BUILD:").isPrefixOf pStr then
    return errorExit
  let pStr := pStr.drop 7
  let pEndStr := (wcstoul pStr).2
  let build := upTo pStr pEndStr
  match ← parseServicePack pEndStr with
  | none => return errorExit
  | some (spLevel, pStr) =>
    let architecture := pStr.takeWhile (!isBlank ·)
    let pEndStr := pStr.dropWhile (!isBlank ·)
    if pStr = [] then
      return errorExit
    return {
      returned := some (pEndStr.dropWhile isBlank)
      verMajor, verMinor, build, spLevel, architecture }

/-- The last blank in front of " GNU/Linux" starts the architecture. -/
def parseLinux (versionString : WStr) : Option ParsedVersion := do
  let pStr ← skipWord (versionString.drop 6)
  let (verMajor, pStr) := wcstoul pStr
  if pStr.head? ≠ some 0x2E then
    return errorExit
  let (verMinor, pStr) := wcstoul (pStr.drop 1)
  if pStr.head? ≠ some 0x2E then
    return errorExit
  let pStr := pStr.drop 1
  let build := pStr.takeWhile (!isBlank ·)
  let pEndStr := pStr.dropWhile (!isBlank ·)
  if pStr = [] then
    return errorExit
  let pStr ← advance 1 pEndStr
  if pStr.head? ≠ some 0x23 then
    return errorExit
  let pEndStr ← wcsstr (wcs " GNU/Linux") pStr
  let before := upTo versionString pEndStr
  let word := (before.reverse.takeWhile (· ≠ 0x20)).reverse
  if word.length = before.length then
    none
  else if word.length + 1 = before.length then
    return errorExit
  else
    return {
      returned := some versionString
      verMajor, verMinor, build
      spLevel := 0
      architecture := 0x20 :: word }

def parseHpux (versionString : WStr) : Option ParsedVersion := do
  let pStr ← skipWord (versionString.drop 6)
  let pStr ← advance 2 pStr
  let (verMajor, pStr) := wcstoul pStr
  if pStr.head? ≠ some 0x2E then
    return errorExit
  let (verMinor, pStr) := wcstoul (pStr.drop 1)
  if pStr.head? ≠ some 0x20 then
    return errorExit
  let pStr ← advance 3 pStr
  return {
    returned := some versionString
    verMajor, verMinor
    build := []
    spLevel := 0
    architecture := pStr.takeWhile (· ≠ 0x20) }

/-- The pointers for the build and the architecture are null on entry. -/
def parseVersionString (versionString : WStr) : Option ParsedVersion :=
  if (wcs "MSWin:").isPrefixOf versionString then parseWindows versionString
  else if (wcs "Linux ").isPrefixOf versionString then parseLinux versionString
  else if (wcs "HP-UX ").isPrefixOf versionString then parseHpux versionString
  else some errorExit

example : parseVersionString
    (wcs "MSWin:5.2,BUILD:3790,Service Pack 2-x32     Microsoft Windows Server 2003 R2") =
      some {
        returned := some (wcs "Microsoft Windows Server 2003 R2")
        verMajor := 5
        verMinor := 2
        build := wcs "3790"
        spLevel := 2
        architecture := wcs "x32" } := by
  decide

example : parseVersionString (wcs "Linux osi1155 2.6.31-14 #48-Ubuntu SMP i686 GNU/Linux") =
      some {
        returned := some (wcs "Linux osi1155 2.6.31-14 #48-Ubuntu SMP i686 GNU/Linux")
        verMajor := 2
        verMinor := 6
        build := wcs "31-14"
        spLevel := 0
        architecture := wcs " i686" } := by
  decide

end ParsedVersion

end TrapHandler
