import TrapHandler.AppendChains
import TrapHandler.HostControl
import TrapHandler.Thresholds

/-!
# Buffers of commands and statements

`BuildMessageString` and `UpdateHost` put their texts together in arrays of 2048 characters, without a
look at the lengths of what they append. `UpdateHost` writes its numbers to a small array first: for a
new host it has ten elements, one too few for ten digits, or for eight digits and more with a sign.
Only a statement that fits can denote what it was built from.
-/

namespace TrapHandler

open CharArray Sql ParsedVersion

def ThreshType.text : ThreshType → WStr
  | .utilization => wcs "Utilization"
  | .freespace => wcs "Freespace"

namespace ThreshCommand

variable {D : Type} (percent : D → WStr)

/-- What is left in `tmpStr2` by `swprintf(tmpStr2, 249, ...)`; `percent` is `%.2f`. -/
def numbers (c : ThreshCommand D) : WStr :=
  let text :=
    wcs "FreeMB='" ++ decimal c.freeMegs.toNat ++
      wcs "' totMB='" ++ decimal c.totSize.toNat ++
      wcs "' percent='" ++ percent c.utilPercent ++
      wcs "' ThreshMBWarn='" ++ decimal c.warnFreeMegsThresh.toNat ++
      wcs "' ThreshMBHigh='" ++ decimal c.highFreeMegsThresh.toNat ++
      wcs "' ThreshUtilWarn='" ++ percent c.warnUtilThresh ++
      wcs "' ThreshUtilHigh='" ++ percent c.highUtilThresh ++ wcs "'"
  text.take 248

/-- The texts `BuildMessageString` appends. There is no copy from a null pointer. -/
def pieces (c : ThreshCommand D) : List WStr :=
  [wcs "opcmsg a=UGMon o=Threshold -node=", c.hostName,
    wcs " msg_t=\"Hostname='", c.hostName,
    wcs "' threshType='", c.threshType.text,
    wcs "' platform='", c.platformName,
    match c.newState with
    | .high => wcs "' newState='HIGH'"
    | .warn => wcs "' newState='WARN'"
    | .norm => wcs "' newState='NORM'",
    match c.oldState with
    | .high => wcs " oldState='HIGH' volume='"
    | .warn => wcs " oldState='WARN' volume='"
    | .norm => wcs " oldState='NORM' volume='",
    c.volName, wcs "' ", c.numbers percent, wcs "\" sev="] ++ c.sev.toList

def buildMessageString (c : ThreshCommand D) (raw : ℕ → WChar) : CharArray WChar :=
  (CharArray.new 2048 raw).chain (c.pieces percent)

def BufferHolds (c : ThreshCommand D) : Prop := ∀ raw, (c.buildMessageString percent raw).Inside

/-- The host name is written twice. -/
def HasRoom (c : ThreshCommand D) : Prop :=
  127 + 2 * c.hostName.length + c.threshType.text.length + c.platformName.length +
    c.volName.length + (c.numbers percent).length + (c.sev.getD []).length < 2048

theorem length_pieces (c : ThreshCommand D) : (c.pieces percent).flatten.length =
    127 + 2 * c.hostName.length + c.threshType.text.length + c.platformName.length +
      c.volName.length + (c.numbers percent).length + (c.sev.getD []).length := by
  have hsev : c.sev.toList.flatten = c.sev.getD [] := by
    cases c.sev with
    | none => rfl
    | some s => exact List.append_nil s
  have hnew : (match c.newState with
      | .high => wcs "' newState='HIGH'"
      | .warn => wcs "' newState='WARN'"
      | .norm => wcs "' newState='NORM'").length = 17 := by
    cases c.newState <;> rfl
  have hold : (match c.oldState with
      | .high => wcs " oldState='HIGH' volume='"
      | .warn => wcs " oldState='WARN' volume='"
      | .norm => wcs " oldState='NORM' volume='").length = 25 := by
    cases c.oldState <;> rfl
  have hopcmsg : (wcs "opcmsg a=UGMon o=Threshold -node=").length = 33 := rfl
  have htext : (wcs " msg_t=\"Hostname='").length = 18 := rfl
  have htype : (wcs "' threshType='").length = 14 := rfl
  have hplatform : (wcs "' platform='").length = 12 := rfl
  have hquote : (wcs "' ").length = 2 := rfl
  have hlast : (wcs "\" sev=").length = 6 := rfl
  simp only [pieces, List.flatten_append, List.flatten_cons, List.flatten_nil, List.length_append,
    List.length_nil, hsev, hnew, hold, hopcmsg, htext, htype, hplatform, hquote, hlast]
  omega

theorem bufferHolds_iff (c : ThreshCommand D) : c.BufferHolds percent ↔ c.HasRoom percent := by
  have hne : c.pieces percent ≠ [] := List.cons_ne_nil _ _
  have hiff : ∀ raw, (c.buildMessageString percent raw).Inside ↔ c.HasRoom percent := by
    intro raw
    rw [buildMessageString, inside_chain_iff hne, and_iff_right (inside_new 2048 raw),
      length_pieces]
    rfl
  constructor
  · intro h
    exact (hiff fun _ => 0).mp (h _)
  · intro h raw
    exact (hiff raw).mpr h

end ThreshCommand

namespace Sql

def fillPieces : List WStr → List WStr → List WStr
  | gap :: gaps, value :: values => value :: gap :: fillPieces gaps values
  | _, _ => []

def Template.pieces (t : Template) (values : List WStr) : List WStr :=
  t.head :: fillPieces t.gaps values

theorem flatten_fillPieces (gaps values : List WStr) :
    (fillPieces gaps values).flatten = fill gaps values := by
  induction gaps generalizing values with
  | nil =>
    rw [fillPieces, fill]
    · rfl
    · intro gap gaps value values h
      cases h
    · intro gap gaps value values h
      cases h
  | cons gap gaps ih =>
    cases values with
    | nil => rfl
    | cons value values =>
      rw [fillPieces, fill, List.flatten_cons, List.flatten_cons, ih]

theorem flatten_pieces (t : Template) (values : List WStr) :
    (t.pieces values).flatten = t.statement values := by
  rw [Template.pieces, List.flatten_cons, flatten_fillPieces]
  rfl

theorem length_fill {gaps values : List WStr} (h : values.length = gaps.length) :
    (fill gaps values).length = gaps.flatten.length + values.flatten.length := by
  induction gaps generalizing values with
  | nil =>
    rw [List.length_eq_zero_iff.mp h]
    rfl
  | cons gap gaps ih =>
    cases values with
    | nil => cases h
    | cons value values =>
      have hrest := ih (Nat.succ.inj h)
      simp only [fill, List.length_append, List.flatten_cons, hrest]
      omega

end Sql

namespace HostReport

def selectPieces (report : HostReport) : List WStr :=
  [wcs "SELECT ID FROM dbo.Hosts WHERE LOWER(LocalHostName) = LOWER('", report.hostName, wcs "')"]

/-- The array `sqlCmd` when it is executed for the first time. -/
def selectCmd (report : HostReport) (raw : ℕ → WChar) : CharArray WChar :=
  (CharArray.new 2048 raw).chain report.selectPieces

/-- The array `sqlCmd` when it is executed again; the second statement starts over the first one. -/
def sqlCmd (report : HostReport) (v : ParsedVersion) (found : Option GUID) (raw : ℕ → WChar) :
    CharArray WChar :=
  (report.selectCmd raw).chain ((template found).pieces (report.values v signed found))

def numbers (v : ParsedVersion) : List WStr :=
  [signed v.verMajor, signed v.verMinor, signed v.spLevel]

/-- The array `tmpStr` at the end of the branch that is taken. -/
def tmpStr (v : ParsedVersion) (raw : ℕ → WChar) : Option GUID → CharArray WChar
  | none => (CharArray.new 10 raw).overwrite (numbers v)
  | some id => (CharArray.new 40 raw).overwrite (numbers v ++ [id.text])

/-- Both statements are inside their array, and so are the numbers. -/
structure BuffersHold (executeSelect : WStr → Option GUID) (report : HostReport)
    (v : ParsedVersion) : Prop where
  sqlCmd : ∀ raw, (report.sqlCmd v (executeSelect report.selectSql) raw).Inside
  tmpStr : ∀ raw, (tmpStr v raw (executeSelect report.selectSql)).Inside

def NineCharacters (value : UInt32) : Prop :=
  value.toNat < 10 ^ 9 ∨ 2 ^ 32 - 10 ^ 8 < value.toNat

def columnsLength (report : HostReport) (v : ParsedVersion) : ℕ :=
  (report.columns v signed).flatten.length

/-- Room for the statements of a host that is new, and of one that was found. -/
def HasRoom (report : HostReport) (v : ParsedVersion) : Option GUID → Prop
  | none => 239 + report.hostName.length + report.columnsLength v < 2048 ∧
      NineCharacters v.verMajor ∧ NineCharacters v.verMinor ∧ NineCharacters v.spLevel
  | some _ => 63 + report.hostName.length < 2048 ∧ 254 + report.columnsLength v < 2048

variable {report : HostReport} {v : ParsedVersion} {found : Option GUID}

theorem length_selectPieces (report : HostReport) :
    report.selectPieces.flatten.length = 63 + report.hostName.length := by
  have hselect :
      (wcs "SELECT ID FROM dbo.Hosts WHERE LOWER(LocalHostName) = LOWER('").length = 61 := rfl
  have hclose : (wcs "')").length = 2 := rfl
  simp only [selectPieces, List.flatten_cons, List.flatten_nil, List.length_append,
    List.length_nil, hselect, hclose]
  omega

theorem inside_selectCmd_iff (raw : ℕ → WChar) :
    (report.selectCmd raw).Inside ↔ 63 + report.hostName.length < 2048 := by
  have hne : report.selectPieces ≠ [] := List.cons_ne_nil _ _
  rw [selectCmd, inside_chain_iff hne, and_iff_right (inside_new 2048 raw), length_selectPieces]
  rfl

theorem length_signed (value : UInt32) : (signed value).length =
    if value.toNat < 2 ^ 31 then (decimal value.toNat).length
    else (decimal (2 ^ 32 - value.toNat)).length + 1 := by
  have hvalue := toInt_toInt32 value
  have hneg := toInt32_lt_zero_iff value
  rw [signed, itow]
  by_cases hsmall : value.toNat < 2 ^ 31
  · have habs : value.toInt32.toInt.natAbs = value.toNat := by
      rw [hvalue, if_pos (by omega), Int.natAbs_natCast]
    rw [if_pos hsmall, if_neg (fun h => hneg.mp h hsmall), habs]
  · have habs : value.toInt32.toInt.natAbs = 2 ^ 32 - value.toNat := by
      have hlt := value.toNat_lt
      rw [hvalue, if_neg (by omega)]
      omega
    rw [if_neg hsmall, if_pos (hneg.mpr hsmall), List.length_cons, habs]

theorem length_signed_lt_iff (value : UInt32) :
    (signed value).length < 10 ↔ NineCharacters value := by
  have hlt := value.toNat_lt
  rw [length_signed, NineCharacters]
  split_ifs with hsmall
  · have hnine := length_decimal_le_iff (n := value.toNat) (k := 9) (by decide)
    omega
  · have height := length_decimal_le_iff (n := 2 ^ 32 - value.toNat) (k := 8) (by decide)
    omega

theorem length_signed_le (value : UInt32) : (signed value).length ≤ 11 := by
  have hlt := value.toNat_lt
  rw [length_signed]
  split_ifs with hsmall
  · have hten := length_decimal_le_iff (n := value.toNat) (k := 10) (by decide)
    omega
  · have hten := length_decimal_le_iff (n := 2 ^ 32 - value.toNat) (k := 10) (by decide)
    omega

theorem inside_tmpStr_iff (raw : ℕ → WChar) : (tmpStr v raw found).Inside ↔
    (found = none →
      NineCharacters v.verMajor ∧ NineCharacters v.verMinor ∧ NineCharacters v.spLevel) := by
  cases found with
  | none =>
    rw [tmpStr, inside_overwrite_iff, and_iff_right (inside_new 10 raw)]
    simp only [numbers, List.forall_mem_cons, List.not_mem_nil, false_implies, implies_true,
      and_true, true_implies, CharArray.new, length_signed_lt_iff]
  | some id =>
    have hsigned : ∀ value, (signed value).length < 40 :=
      fun value => lt_of_le_of_lt (length_signed_le value) (by decide)
    have htext : id.text.length < 40 := by
      rw [id.length_text]
      decide
    rw [tmpStr, inside_overwrite_iff, and_iff_right (inside_new 40 raw)]
    simp only [numbers, List.forall_mem_append, List.forall_mem_cons, List.not_mem_nil,
      false_implies, implies_true, and_true, CharArray.new, hsigned, htext, reduceCtorEq]

theorem length_insert (report : HostReport) (v : ParsedVersion) :
    (insertTemplate.statement (report.values v signed none)).length =
      239 + report.hostName.length + report.columnsLength v := by
  have hgaps : (report.values v signed none).length = insertTemplate.gaps.length := rfl
  have hhead : insertTemplate.head.length = 206 := by decide +kernel
  have htexts : insertTemplate.gaps.flatten.length = 33 := rfl
  rw [Template.statement, List.length_append, length_fill hgaps, hhead, htexts, values,
    List.flatten_cons, List.length_append, columnsLength]
  omega

theorem length_update (report : HostReport) (v : ParsedVersion) (id : GUID) :
    (updateTemplate.statement (report.values v signed (some id))).length =
      254 + report.columnsLength v := by
  have hgaps : (report.values v signed (some id)).length = updateTemplate.gaps.length :=
    report.length_values v signed (some id)
  have hhead : updateTemplate.head.length = 33 := rfl
  have htexts : updateTemplate.gaps.flatten.length = 185 := rfl
  rw [Template.statement, List.length_append, length_fill hgaps, hhead, htexts, values,
    List.flatten_append, List.length_append, List.flatten_singleton, id.length_text, columnsLength]
  omega

theorem inside_sqlCmd_iff (raw : ℕ → WChar) : (report.sqlCmd v found raw).Inside ↔
    63 + report.hostName.length < 2048 ∧
      ((template found).statement (report.values v signed found)).length < 2048 := by
  have hsize : (report.selectCmd raw).size = 2048 := size_chain _ _
  have hne : (template found).pieces (report.values v signed found) ≠ [] := List.cons_ne_nil _ _
  rw [sqlCmd, inside_chain_iff hne, inside_selectCmd_iff, flatten_pieces, hsize]

theorem buffersHold_iff (executeSelect : WStr → Option GUID) (report : HostReport)
    (v : ParsedVersion) : report.BuffersHold executeSelect v ↔
      report.HasRoom v (executeSelect report.selectSql) := by
  have hiff : report.BuffersHold executeSelect v ↔
      (63 + report.hostName.length < 2048 ∧
        ((template (executeSelect report.selectSql)).statement
          (report.values v signed (executeSelect report.selectSql))).length < 2048) ∧
        (executeSelect report.selectSql = none →
          NineCharacters v.verMajor ∧ NineCharacters v.verMinor ∧ NineCharacters v.spLevel) := by
    constructor
    · intro h
      exact ⟨(inside_sqlCmd_iff fun _ => 0).mp (h.sqlCmd _),
        (inside_tmpStr_iff fun _ => 0).mp (h.tmpStr _)⟩
    · intro h
      exact ⟨fun raw => (inside_sqlCmd_iff raw).mpr h.1, fun raw => (inside_tmpStr_iff raw).mpr h.2⟩
  rw [hiff]
  cases executeSelect report.selectSql with
  | none =>
    have hlength := report.length_insert v
    rw [template, hlength, HasRoom, eq_self, true_implies]
    refine and_congr_left fun _ => and_iff_right_of_imp ?_
    intro hlt
    omega
  | some id =>
    have hlength := report.length_update v id
    rw [template, hlength, HasRoom]
    simp only [reduceCtorEq, false_implies, and_true]

theorem text_selectCmd (hroom : 63 + report.hostName.length < 2048) (hzero : 0 ∉ report.selectSql)
    (raw : ℕ → WChar) : (report.selectCmd raw).text = report.selectSql := by
  have hne : report.selectPieces ≠ [] := List.cons_ne_nil _ _
  have hflatten : report.selectPieces.flatten = report.selectSql := by
    simp only [selectPieces, selectSql, wcsapp, List.flatten_cons, List.flatten_nil,
      List.append_assoc, List.nil_append, List.append_nil]
  rw [selectCmd, text_chain hne]
  · exact hflatten
  · rw [hflatten]
    exact hzero
  · rw [length_selectPieces]
    exact hroom

theorem text_sqlCmd {executeSelect : WStr → Option GUID} {statement : WStr}
    (hv : parseVersionString report.versionStr = some v)
    (hroom : report.HasRoom v (executeSelect report.selectSql))
    (hstatement : report.updateHost executeSelect = some statement) (hzero : 0 ∉ statement)
    (raw : ℕ → WChar) :
    (report.sqlCmd v (executeSelect report.selectSql) raw).text = statement := by
  rw [updateHost_eq hv] at hstatement
  obtain rfl := Option.some.inj hstatement
  have hold := (buffersHold_iff executeSelect report v).mpr hroom
  obtain ⟨_, hlength⟩ := (inside_sqlCmd_iff raw).mp (hold.sqlCmd raw)
  have hsize : (report.selectCmd raw).size = 2048 := size_chain _ _
  have hne : (template (executeSelect report.selectSql)).pieces
      (report.values v signed (executeSelect report.selectSql)) ≠ [] := List.cons_ne_nil _ _
  rw [sqlCmd, text_chain hne]
  · exact flatten_pieces _ _
  · rw [flatten_pieces]
    exact hzero
  · rw [flatten_pieces, hsize]
    exact hlength

end HostReport

/-- A message is inside its buffer exactly if its texts have room there. So are the statements and the
numbers of a host, whatever the database answers. -/
theorem buffersHold_iff_hasRoom {D : Type} (percent : D → WStr) (c : ThreshCommand D)
    (executeSelect : WStr → Option GUID) (report : HostReport) (v : ParsedVersion) :
    (c.BufferHolds percent ↔ c.HasRoom percent) ∧
      (report.BuffersHold executeSelect v ↔ report.HasRoom v (executeSelect report.selectSql)) :=
  ⟨c.bufferHolds_iff percent, report.buffersHold_iff executeSelect v⟩

def freeSpaceRule : CThreshold ℕ where
  hostExpr := wcs "*"
  volExpr := wcs "*"
  highFreeMegsThresh := 10
  warnFreeMegsThresh := 20
  highUtilThresh := 0
  warnUtilThresh := 0
  warnSevStr := wcs "Warning"
  highSevStr := wcs "Critical"
  minFSSize := 0
  maxFSSize := 0

/-- The first sample from a host with a name of thousand characters. -/
def longHost : FSWorld ℕ :=
  FSWorld.create (fun _ _ => true) [freeSpaceRule] (List.replicate 1000 0x61) (wcs "C:")
    (wcs "MSWin") { totalSpace := 100, freeSpace := 1, utilPercent := 99 }

/-- The hello of a new host with a major version of ten digits. -/
def tenDigitReport : HostReport where
  hostName := wcs "a"
  platform := wcs "MSWin"
  versionStr := wcs "MSWin:1000000000.1,BUILD:1,Service Pack 1-x86 W"
  ugmonVer := wcs "1"
  sourceIP := wcs "10.0.0.1"
  proxyHostName := wcs "b"

def tenDigitVersion : ParsedVersion where
  returned := some (wcs "W")
  verMajor := 1000000000
  verMinor := 1
  build := wcs "1"
  spLevel := 1
  architecture := wcs "x86"

theorem not_buffersHold :
    (∃ c ∈ longHost.cmdQueue, ¬ c.BufferHolds decimal) ∧
      parseVersionString tenDigitReport.versionStr = some tenDigitVersion ∧
        ¬ tenDigitReport.BuffersHold (fun _ => none) tenDigitVersion := by
  refine ⟨?_, by decide, ?_⟩
  · refine ⟨longHost.fs.buildMessage .freespace .norm .high, List.mem_singleton.mpr rfl, ?_⟩
    intro h
    have hroom := (ThreshCommand.bufferHolds_iff decimal _).mp h
    have hhost : (longHost.fs.buildMessage .freespace .norm .high).hostName.length = 1000 :=
      List.length_replicate
    rw [ThreshCommand.HasRoom, hhost] at hroom
    omega
  · intro h
    have hroom := (tenDigitReport.buffersHold_iff (fun _ => none) tenDigitVersion).mp h
    obtain ⟨_, hmajor, _⟩ := hroom
    rw [HostReport.NineCharacters] at hmajor
    revert hmajor
    decide

end TrapHandler
