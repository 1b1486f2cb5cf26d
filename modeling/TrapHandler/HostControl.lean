import TrapHandler.SqlTokens
import TrapHandler.VersionStrings

/-!
# The host table of the hello messages

`UpdateHost` looks a host up by its name and then writes it with an `INSERT` or an `UPDATE`. It
appends the values to the statement as they are, so a quote in one of them ends a literal. The
arrays the statement is built in are left aside here.
-/

namespace TrapHandler

open Sql ParsedVersion

/-- `str1` is the text written so far. -/
def wcsapp (str1 str2 : WStr) : WStr := str1 ++ str2

structure GUID where
  data1 : UInt32
  data2 : UInt16
  data3 : UInt16
  data4 : Vector UInt8 8
  deriving DecidableEq, Repr

def hexDigit (d : ℕ) : WChar := UInt16.ofNat (if d < 10 then 0x30 + d else 0x57 + d)

/-- `%0nx`, for a number of at most `n` digits. -/
def hex : ℕ → ℕ → WStr
  | 0, _ => []
  | n + 1, v => hex n (v / 16) ++ [hexDigit (v % 16)]

def GUID.text (id : GUID) : WStr :=
  hex 8 id.data1.toNat ++ wcs "-" ++ hex 4 id.data2.toNat ++ wcs "-" ++ hex 4 id.data3.toNat ++
    wcs "-" ++ (id.data4.toList.take 2).flatMap (hex 2 ·.toNat) ++ wcs "-" ++
    (id.data4.toList.drop 2).flatMap (hex 2 ·.toNat)

/-- The arguments of `UpdateHost`. -/
structure HostReport where
  hostName : WStr
  platform : WStr
  versionStr : WStr
  ugmonVer : WStr
  sourceIP : WStr
  proxyHostName : WStr
  deriving DecidableEq, Repr

namespace HostReport

def selectSql (report : HostReport) : WStr :=
  let p := wcsapp [] (wcs "SELECT ID FROM dbo.Hosts WHERE LOWER(LocalHostName) = LOWER('")
  let p := wcsapp p report.hostName
  wcsapp p (wcs "')")

def insertSql (report : HostReport) (v : ParsedVersion) : WStr :=
  let pVer := v.returned.getD report.versionStr
  let p := wcsapp []
    (wcs "INSERT INTO dbo.hosts (ID, LocalHostName, LastSeenIP, UGMonVersion, VersionString, " ++
      wcs "OSVersionMajor, OSVersionMinor, OSVersionBuild, ServicePack, Architecture, " ++
      wcs "ProxyHostName, Platform) VALUES (NEWID(),LOWER('")
  let p := wcsapp p report.hostName
  let p := wcsapp p (wcs "'),'")
  let p := wcsapp p report.sourceIP
  let p := wcsapp p (wcs "','")
  let p := wcsapp p report.ugmonVer
  let p := wcsapp p (wcs "','")
  let p := wcsapp p pVer
  let p := wcsapp p (wcs "','")
  let p := wcsapp p (itow v.verMajor.toInt32)
  let p := wcsapp p (wcs "','")
  let p := wcsapp p (itow v.verMinor.toInt32)
  let p := wcsapp p (wcs "','")
  let p := wcsapp p v.build
  let p := wcsapp p (wcs "','")
  let p := wcsapp p (itow v.spLevel.toInt32)
  let p := wcsapp p (wcs "','")
  let p := wcsapp p v.architecture
  let p := wcsapp p (wcs "','")
  let p := wcsapp p report.proxyHostName
  let p := wcsapp p (wcs "','")
  let p := wcsapp p report.platform
  wcsapp p (wcs "')")

def updateSql (report : HostReport) (v : ParsedVersion) (id : GUID) : WStr :=
  let pVer := v.returned.getD report.versionStr
  let p := wcsapp [] (wcs "UPDATE dbo.hosts SET LastSeenIP='")
  let p := wcsapp p report.sourceIP
  let p := wcsapp p (wcs "',UGMonVersion='")
  let p := wcsapp p report.ugmonVer
  let p := wcsapp p (wcs "',versionString='")
  let p := wcsapp p pVer
  let p := wcsapp p (wcs "',OSVersionMajor='")
  let p := wcsapp p (itow v.verMajor.toInt32)
  let p := wcsapp p (wcs "',OSVersionMinor='")
  let p := wcsapp p (itow v.verMinor.toInt32)
  let p := wcsapp p (wcs "',OSVersionBuild='")
  let p := wcsapp p v.build
  let p := wcsapp p (wcs "',ServicePack='")
  let p := wcsapp p (itow v.spLevel.toInt32)
  let p := wcsapp p (wcs "',Architecture='")
  let p := wcsapp p v.architecture
  let p := wcsapp p (wcs "',ProxyHostName='")
  let p := wcsapp p report.proxyHostName
  let p := wcsapp p (wcs "',Platform='")
  let p := wcsapp p report.platform
  let p := wcsapp p (wcs "', LastHelloTime=GETDATE() WHERE ID='")
  let p := wcsapp p id.text
  wcsapp p (wcs "'")

/-- The statement that is executed after the first one; `executeSelect` is what that one returns. -/
def updateHost (executeSelect : WStr → Option GUID) (report : HostReport) : Option WStr := do
  let v ← parseVersionString report.versionStr
  match executeSelect report.selectSql with
  | none => return report.insertSql v
  | some id => return report.updateSql v id

end HostReport

def insertTemplate : Template where
  head :=
    wcs "INSERT INTO dbo.hosts (ID, LocalHostName, LastSeenIP, UGMonVersion, VersionString, " ++
      wcs "OSVersionMajor, OSVersionMinor, OSVersionBuild, ServicePack, Architecture, " ++
      wcs "ProxyHostName, Platform) VALUES (NEWID(),LOWER('"
  gaps := [wcs "'),'", wcs "','", wcs "','", wcs "','", wcs "','", wcs "','", wcs "','", wcs "','",
    wcs "','", wcs "','", wcs "')"]
  head_leads := by decide +kernel
  gaps_separate := by decide +kernel

def updateTemplate : Template where
  head := wcs "UPDATE dbo.hosts SET LastSeenIP='"
  gaps := [wcs "',UGMonVersion='", wcs "',versionString='", wcs "',OSVersionMajor='",
    wcs "',OSVersionMinor='", wcs "',OSVersionBuild='", wcs "',ServicePack='",
    wcs "',Architecture='", wcs "',ProxyHostName='", wcs "',Platform='",
    wcs "', LastHelloTime=GETDATE() WHERE ID='", wcs "'"]
  head_leads := by decide +kernel
  gaps_separate := by decide +kernel

theorem toInt_toInt32 (value : UInt32) : value.toInt32.toInt =
    if 2 * value.toNat < 2 ^ 32 then (value.toNat : ℤ) else value.toNat - (2 ^ 32 : ℕ) :=
  BitVec.toInt_eq_toNat_cond value.toBitVec

theorem toInt32_lt_zero_iff (value : UInt32) : value.toInt32 < 0 ↔ ¬ value.toNat < 2 ^ 31 := by
  have hlt := value.toNat_lt
  rw [Int32.lt_iff_toInt_lt, toInt_toInt32, Int32.toInt_zero]
  split_ifs <;> omega

theorem length_hex (n value : ℕ) : (hex n value).length = n := by
  induction n generalizing value with
  | zero => rfl
  | succ n ih => rw [hex, List.length_append, ih, List.length_singleton]

theorem length_flatMap_hex (bytes : List UInt8) :
    (bytes.flatMap (hex 2 ·.toNat)).length = 2 * bytes.length := by
  induction bytes with
  | nil => rfl
  | cons b bytes ih =>
    rw [List.flatMap_cons, List.length_append, ih, length_hex, List.length_cons]
    omega

theorem GUID.length_text (id : GUID) : id.text.length = 36 := by
  have hdash : (wcs "-").length = 1 := rfl
  simp only [GUID.text, List.length_append, length_hex, length_flatMap_hex, List.length_take,
    List.length_drop, Vector.length_toList, hdash]
  rfl

namespace HostReport

def signed (value : UInt32) : WStr := itow value.toInt32

def numeral (value : UInt32) : WStr := decimal value.toNat

def Alphanumeric (report : HostReport) : Prop :=
  ∀ field ∈ [report.hostName, report.platform, report.versionStr, report.ugmonVer, report.sourceIP,
    report.proxyHostName], ∀ c ∈ field, isAlnum c = true

/-- The values of the literals, where `f` writes the numbers. -/
def columns (report : HostReport) (v : ParsedVersion) (f : UInt32 → WStr) : List WStr :=
  [report.sourceIP, report.ugmonVer, v.returned.getD report.versionStr, f v.verMajor,
    f v.verMinor, v.build, f v.spLevel, v.architecture, report.proxyHostName, report.platform]

theorem insertSql_eq (report : HostReport) (v : ParsedVersion) :
    report.insertSql v = insertTemplate.statement
      (report.hostName :: report.columns v signed) := by
  simp only [insertSql, insertTemplate, Template.statement, fill, columns, signed, wcsapp,
    List.append_assoc, List.nil_append, List.append_nil]

theorem updateSql_eq (report : HostReport) (v : ParsedVersion) (id : GUID) :
    report.updateSql v id = updateTemplate.statement
      (report.columns v signed ++ [id.text]) := by
  simp only [updateSql, updateTemplate, Template.statement, fill, columns, signed, wcsapp,
    List.append_assoc, List.nil_append, List.append_nil, List.cons_append]

def values (report : HostReport) (v : ParsedVersion) (f : UInt32 → WStr) :
    Option GUID → List WStr
  | none => report.hostName :: report.columns v f
  | some id => report.columns v f ++ [id.text]

def template : Option GUID → Template
  | none => insertTemplate
  | some _ => updateTemplate

theorem updateHost_eq {executeSelect : WStr → Option GUID} {report : HostReport} {v : ParsedVersion}
    (hv : parseVersionString report.versionStr = some v) :
    report.updateHost executeSelect =
      some ((template (executeSelect report.selectSql)).statement
        (report.values v signed (executeSelect report.selectSql))) := by
  rw [updateHost, hv]
  cases hfound : executeSelect report.selectSql with
  | none => exact congrArg some (report.insertSql_eq v)
  | some id => exact congrArg some (report.updateSql_eq v id)

theorem length_values (report : HostReport) (v : ParsedVersion) (f : UInt32 → WStr)
    (found : Option GUID) : (report.values v f found).length = (template found).gaps.length := by
  cases found with
  | none => rfl
  | some id =>
    rw [values, template, List.length_append]
    rfl

end HostReport

end TrapHandler
