import TrapHandler.AgentEvents
import TrapHandler.FirstMatch
import TrapHandler.RecordSets
import TrapHandler.Thresholds

/-!
# Loading the threshold rules

`PocoOdbcStore` selects the rules without an order and the model keeps them as they come; the first
rule that matches a file system is the one in force. The legacy query orders them by `EvalOrder`. The
regular expressions are a parameter: an expression may be malformed, and a compiled one matches. So is
`%.2f`, which writes a percentage. Each rule is written to the log, in a text of bounded length.
-/

namespace TrapHandler

open FirstMatch

structure Threshold (R : Type) where
  id : Int32
  highFreeMegsThresh : Int64
  warnFreeMegsThresh : Int64
  highUtilThresh : ℚ
  warnUtilThresh : ℚ
  warnSevStr : WStr
  highSevStr : WStr
  minFSSize : Int64
  maxFSSize : Int64
  hostExprStr : WStr
  volExprStr : WStr
  hostExpr : R
  volExpr : R

variable {R : Type}

section Code

variable (regexMatch : WStr → R → Bool)

def Threshold.matches (this : Threshold R) (hostname volumeName : WStr) (fsSizeMB : Int64) : Bool :=
  if (this.minFSSize ≠ 0 ∧ fsSizeMB < this.minFSSize) ∨
      (this.maxFSSize ≠ 0 ∧ fsSizeMB > this.maxFSSize) then false
  else if !regexMatch hostname this.hostExpr then false
  else if !regexMatch volumeName this.volExpr then false
  else true

variable (fixed2 : ℚ → WStr)

/-- `swprintf_s` into an array of 2048 characters, with `%I64i` for the sizes. Where the text and its
terminator do not fit, it ends the process. -/
def Threshold.toWstring (this : Threshold R) : Option WStr :=
  let buf := wcs "Threshold " ++ cstr this.hostExprStr ++ wcs ":" ++ cstr this.volExprStr ++
    wcs " warn/high mb(" ++ i64tow this.warnFreeMegsThresh ++
    wcs "/" ++ i64tow this.highFreeMegsThresh ++
    wcs "), util(" ++ fixed2 this.warnUtilThresh ++ wcs "/" ++ fixed2 this.highUtilThresh ++
    wcs ") - minFSSizeMB: " ++ i64tow this.minFSSize ++
    wcs ", maxFSSizeMB: " ++ i64tow this.maxFSSize
  if buf.length < 2048 then some buf else none

variable (assign : WStr → Option R)

/-- Every exception, also that of a malformed expression, ends in the null pointer. -/
def createThresholdFromDbRow (rs : RecordRow) : Option (Threshold R) := do
  let id ← rs.extractInt 0
  let hostExprStr ← rs.extractWstring 1
  let hostExpr ← assign hostExprStr
  let volExprStr ← rs.extractWstring 2
  let volExpr ← assign volExprStr
  let warnFreeMegsThresh ← rs.extractInt 3
  let highFreeMegsThresh ← rs.extractInt 4
  let warnUtilThresh ← rs.extractDouble 5
  let highUtilThresh ← rs.extractDouble 6
  let warnSev ← rs.extractWstring 7
  let highSev ← rs.extractWstring 8
  let minFSSize ← rs.extractInt 9
  let maxFSSize ← rs.extractInt 10
  pure {
    id, hostExprStr, hostExpr, volExprStr, volExpr
    warnFreeMegsThresh := warnFreeMegsThresh.toInt64
    highFreeMegsThresh := highFreeMegsThresh.toInt64
    warnUtilThresh, highUtilThresh
    warnSevStr := strToSeverity (cstr warnSev)
    highSevStr := strToSeverity (cstr highSev)
    minFSSize := minFSSize.toInt64
    maxFSSize := maxFSSize.toInt64 }

/-- How a call of the store ends: it returns, it throws, or the process has ended within. -/
inductive StoreLoad (α : Type) where
  | returned (objects : List α)
  | thrown
  | ended
  deriving DecidableEq, Repr

/-- A row without a threshold is passed over, once its id has been logged. -/
def loadThresholds : List RecordRow → StoreLoad (Threshold R)
  | [] => .returned []
  | rs :: rest =>
    match createThresholdFromDbRow assign rs with
    | none =>
      match rs.extractInt 0 with
      | none => .thrown
      | some _ => loadThresholds rest
    | some newThresh =>
      match newThresh.toWstring fixed2 with
      | none => .ended
      | some _ =>
        match loadThresholds rest with
        | .returned thresholds => .returned (newThresh :: thresholds)
        | r => r

/-- `TrapHandlerModel::LoadThresholds`: an exception leaves the thresholds as they were. -/
def modelThresholds (mThresholds : List (Threshold R))
    (loaded : Option (List (Threshold R))) : List (Threshold R) :=
  match loaded with
  | some loadedThresholds => loadedThresholds
  | none => mThresholds

/-- There is no model any more where the process has ended. -/
def storeThresholds (mThresholds : List (Threshold R)) (rows : List RecordRow) :
    Option (List (Threshold R)) :=
  match loadThresholds fixed2 assign rows with
  | .returned thresholds => some (modelThresholds mThresholds (some thresholds))
  | .thrown => some (modelThresholds mThresholds none)
  | .ended => none

/-- The threshold of the row, if it has one, is short enough for the log. -/
def RecordRow.Loggable (rs : RecordRow) : Prop :=
  ∀ t, createThresholdFromDbRow assign rs = some t → (t.toWstring fixed2).isSome = true

def HasIds (rows : List RecordRow) : Prop := ∀ rs ∈ rows, (rs.extractInt 0).isSome = true

variable {fixed2 assign} {rows : List RecordRow}

theorem loadThresholds_returned (hids : HasIds rows)
    (hlog : ∀ rs ∈ rows, rs.Loggable fixed2 assign) :
    loadThresholds fixed2 assign rows =
      .returned (rows.filterMap (createThresholdFromDbRow assign)) := by
  induction rows with
  | nil => rfl
  | cons rs rest ih =>
    obtain ⟨hid, hids⟩ := List.forall_mem_cons.mp hids
    obtain ⟨hrow, hrest⟩ := List.forall_mem_cons.mp hlog
    rw [loadThresholds, ih hids hrest, List.filterMap_cons]
    cases hcreate : createThresholdFromDbRow assign rs with
    | none =>
      obtain ⟨id, hid⟩ := Option.isSome_iff_exists.mp hid
      simp only [hid]
    | some newThresh =>
      obtain ⟨text, htext⟩ := Option.isSome_iff_exists.mp (hrow newThresh hcreate)
      simp only [htext]

theorem loadThresholds_ended {rs : RecordRow} (hids : HasIds rows) (hrs : rs ∈ rows)
    (h : ¬ rs.Loggable fixed2 assign) : loadThresholds fixed2 assign rows = .ended := by
  induction rows with
  | nil => cases hrs
  | cons first rest ih =>
    obtain ⟨hid, hids⟩ := List.forall_mem_cons.mp hids
    rw [loadThresholds]
    cases hcreate : createThresholdFromDbRow assign first with
    | none =>
      have hfirst : first.Loggable fixed2 assign := by
        intro t ht
        rw [hcreate] at ht
        cases ht
      obtain ⟨id, hid⟩ := Option.isSome_iff_exists.mp hid
      simp only [hid]
      exact ih hids ((List.mem_cons.mp hrs).resolve_left fun heq => h (heq ▸ hfirst))
    | some newThresh =>
      dsimp only
      cases htext : newThresh.toWstring fixed2 with
      | none => rfl
      | some text =>
        have hfirst : first.Loggable fixed2 assign := by
          intro t ht
          rw [hcreate] at ht
          obtain rfl := Option.some.inj ht
          rw [htext]
          rfl
        have hrest := ih hids ((List.mem_cons.mp hrs).resolve_left fun heq => h (heq ▸ hfirst))
        simp only [hrest]

end Code

structure ThresholdRow where
  id : Int32
  evalOrder : Int32
  hostExpression : WStr
  volumeExpression : WStr
  treshFreeMBWarn : Int32
  threshFreeMBHigh : Int32
  threshUtilWarn : ℚ
  threshUtilHigh : ℚ
  warnSev : WStr
  highSev : WStr
  minFSSizeMb : Int32
  maxFSSizeMb : Int32
  deriving DecidableEq, Repr

def selectThresholdAttributes (row : ThresholdRow) : RecordRow :=
  [.int row.id, .text row.hostExpression, .text row.volumeExpression, .int row.treshFreeMBWarn,
    .int row.threshFreeMBHigh, .float row.threshUtilWarn, .float row.threshUtilHigh,
    .text row.warnSev, .text row.highSev, .int row.minFSSizeMb, .int row.maxFSSizeMb]

/-- The rows of `FSThresholds`, under different ids and with different evaluation orders. -/
structure FSThresholds where
  rows : List ThresholdRow
  id_inj : ∀ a ∈ rows, ∀ b ∈ rows, a.id = b.id → a = b
  evalOrder_inj : ∀ a ∈ rows, ∀ b ∈ rows, a.evalOrder = b.evalOrder → a = b

/-- A legacy rule; the 32-bit columns are widened with their sign. -/
def CThreshold.ofRow (newThresh : ThresholdRow) : CThreshold ℚ where
  hostExpr := newThresh.hostExpression
  volExpr := newThresh.volumeExpression
  highFreeMegsThresh := newThresh.threshFreeMBHigh.toInt64.toUInt64
  warnFreeMegsThresh := newThresh.treshFreeMBWarn.toInt64.toUInt64
  highUtilThresh := newThresh.threshUtilHigh
  warnUtilThresh := newThresh.threshUtilWarn
  warnSevStr := newThresh.warnSev
  highSevStr := newThresh.highSev
  minFSSize := newThresh.minFSSizeMb.toInt64.toUInt64
  maxFSSize := newThresh.maxFSSizeMb.toInt64.toUInt64

/-- `UpdateThresholds` with the query of `CFSThresholds`, which orders by `EvalOrder`. -/
def legacyThresholds (rows : List ThresholdRow) : List (CThreshold ℚ) :=
  (rows.mergeSort fun a b => decide (a.evalOrder.toInt ≤ b.evalOrder.toInt)).map CThreshold.ofRow

def legacyMatches (matchString : WStr → WStr → Bool) (x : WStr × WStr × UInt64)
    (row : ThresholdRow) : Bool :=
  (getThresholdForFS matchString [CThreshold.ofRow row] x.1 x.2.1 x.2.2).isSome

def ThresholdRow.rank (row : ThresholdRow) : ℤ := row.evalOrder.toInt

theorem getThresholdForFS_ofRow (matchString : WStr → WStr → Bool) (rows : List ThresholdRow)
    (x : WStr × WStr × UInt64) :
    getThresholdForFS matchString (rows.map CThreshold.ofRow) x.1 x.2.1 x.2.2 =
      (rows.find? (legacyMatches matchString x)).map CThreshold.ofRow := by
  rw [getThresholdForFS, List.find?_map]
  congr 2
  funext row
  rw [legacyMatches, getThresholdForFS, List.find?_singleton, Function.comp_apply]
  split_ifs with h
  · exact h
  · exact Bool.eq_false_iff.mpr h

/-- The legacy scan finds the rule of the matching row that comes first in the evaluation order. -/
theorem legacy_isLeast (matchString : WStr → WStr → Bool) (rows : List ThresholdRow)
    (x : WStr × WStr × UInt64) :
    ∃ row, IsLeast ThresholdRow.rank (legacyMatches matchString) rows x row ∧
      getThresholdForFS matchString (legacyThresholds rows) x.1 x.2.1 x.2.2 =
        row.map CThreshold.ofRow := by
  have htrans : ∀ a b c : ThresholdRow, decide (a.evalOrder.toInt ≤ b.evalOrder.toInt) = true →
      decide (b.evalOrder.toInt ≤ c.evalOrder.toInt) = true →
        decide (a.evalOrder.toInt ≤ c.evalOrder.toInt) = true := by
    intro a b c
    simp only [decide_eq_true_eq]
    exact Int.le_trans
  have htotal : ∀ a b : ThresholdRow, (decide (a.evalOrder.toInt ≤ b.evalOrder.toInt) ||
      decide (b.evalOrder.toInt ≤ a.evalOrder.toInt)) = true := by
    intro a b
    simp only [Bool.or_eq_true, decide_eq_true_eq]
    exact Int.le_total _ _
  have hsorted := List.pairwise_mergeSort htrans htotal rows
  refine ⟨_, isLeast_of_sorted (List.mergeSort_perm rows _) ?_, getThresholdForFS_ofRow _ _ x⟩
  exact hsorted.imp fun h => of_decide_eq_true h

section Selection

variable (regexMatch : WStr → R → Bool) (fixed2 : ℚ → WStr) (assign : WStr → Option R)

def ThresholdRow.threshold (row : ThresholdRow) : Option (Threshold R) :=
  createThresholdFromDbRow assign (selectThresholdAttributes row)

def ThresholdRow.matches (x : WStr × WStr × Int64) (row : ThresholdRow) : Bool :=
  (row.threshold assign).any fun t => t.matches regexMatch x.1 x.2.1 x.2.2

def ThresholdRow.Loggable (row : ThresholdRow) : Prop :=
  (selectThresholdAttributes row).Loggable fixed2 assign

/-- Where the rows are returned in the order `result`, they are loaded, and the first threshold that
matches is that of the matching row that comes first in the evaluation order. -/
def SelectsLeast (table : FSThresholds) (mThresholds : List (Threshold R))
    (result : List ThresholdRow) : Prop :=
  ∃ thresholds, storeThresholds fixed2 assign mThresholds
      (result.map selectThresholdAttributes) = some thresholds ∧
    ∀ x : WStr × WStr × Int64, ∃ row,
      IsLeast ThresholdRow.rank (ThresholdRow.matches regexMatch assign) table.rows x row ∧
        thresholds.find? (fun t => t.matches regexMatch x.1 x.2.1 x.2.2) =
          row.bind (ThresholdRow.threshold assign)

variable {regexMatch fixed2 assign}

theorem loadThresholds_select {result : List ThresholdRow}
    (h : ∀ row ∈ result, row.Loggable fixed2 assign) :
    loadThresholds fixed2 assign (result.map selectThresholdAttributes) =
      .returned (result.filterMap (ThresholdRow.threshold assign)) := by
  have hids : HasIds (result.map selectThresholdAttributes) :=
    List.forall_mem_map.mpr fun _ _ => rfl
  rw [loadThresholds_returned hids (List.forall_mem_map.mpr h), List.filterMap_map]
  rfl

theorem loadThresholds_select_ended {result : List ThresholdRow} {row : ThresholdRow}
    (hrow : row ∈ result) (h : ¬ row.Loggable fixed2 assign) :
    loadThresholds fixed2 assign (result.map selectThresholdAttributes) = .ended :=
  loadThresholds_ended (List.forall_mem_map.mpr fun _ _ => rfl) (List.mem_map_of_mem hrow) h

theorem threshold_eq (row : ThresholdRow) :
    row.threshold assign =
      (assign row.hostExpression).bind fun hostExpr =>
        (assign row.volumeExpression).bind fun volExpr => some {
          id := row.id
          highFreeMegsThresh := row.threshFreeMBHigh.toInt64
          warnFreeMegsThresh := row.treshFreeMBWarn.toInt64
          highUtilThresh := row.threshUtilHigh
          warnUtilThresh := row.threshUtilWarn
          warnSevStr := strToSeverity (cstr row.warnSev)
          highSevStr := strToSeverity (cstr row.highSev)
          minFSSize := row.minFSSizeMb.toInt64
          maxFSSize := row.maxFSSizeMb.toInt64
          hostExprStr := row.hostExpression
          volExprStr := row.volumeExpression
          hostExpr := hostExpr
          volExpr := volExpr } :=
  rfl

theorem id_of_threshold {row : ThresholdRow} {t : Threshold R}
    (h : row.threshold assign = some t) : t.id = row.id := by
  simp only [threshold_eq, Option.bind_eq_some_iff, Option.some.injEq] at h
  obtain ⟨_, _, _, _, rfl⟩ := h
  rfl

theorem find?_thresholds (result : List ThresholdRow) (x : WStr × WStr × Int64) :
    (result.filterMap (ThresholdRow.threshold assign)).find?
        (fun t => t.matches regexMatch x.1 x.2.1 x.2.2) =
      (result.find? (ThresholdRow.matches regexMatch assign x)).bind
        (ThresholdRow.threshold assign) := by
  rw [List.find?_filterMap]
  rfl

theorem storeThresholds_eq_some_iff {mThresholds thresholds : List (Threshold R)}
    {result : List ThresholdRow} :
    storeThresholds fixed2 assign mThresholds (result.map selectThresholdAttributes) =
        some thresholds ↔
      (∀ row ∈ result, row.Loggable fixed2 assign) ∧
        thresholds = result.filterMap (ThresholdRow.threshold assign) := by
  rw [storeThresholds]
  by_cases h : ∀ row ∈ result, row.Loggable fixed2 assign
  · rw [loadThresholds_select h, and_iff_right h]
    exact Option.some_inj.trans eq_comm
  · obtain ⟨row, hrow, hlong⟩ : ∃ row ∈ result, ¬ row.Loggable fixed2 assign := by
      simpa only [not_forall, exists_prop] using h
    rw [loadThresholds_select_ended hrow hlong]
    exact ⟨nofun, fun hall => absurd hall.1 h⟩

theorem exists_threshold_of_matches {row : ThresholdRow} {x : WStr × WStr × Int64}
    (h : row.matches regexMatch assign x = true) : ∃ t, row.threshold assign = some t := by
  unfold ThresholdRow.matches at h
  cases ht : row.threshold assign with
  | none =>
    rw [ht] at h
    exact absurd h Bool.false_ne_true
  | some t => exact ⟨t, rfl⟩

theorem eq_of_threshold {table : FSThresholds} {x : WStr × WStr × Int64}
    {a b : Option ThresholdRow}
    (ha : ∀ row ∈ a, row ∈ table.rows ∧ row.matches regexMatch assign x = true)
    (hb : ∀ row ∈ b, row ∈ table.rows ∧ row.matches regexMatch assign x = true)
    (h : a.bind (ThresholdRow.threshold assign) = b.bind (ThresholdRow.threshold assign)) :
    a = b := by
  cases a with
  | none =>
    cases b with
    | none => rfl
    | some b =>
      obtain ⟨t, ht⟩ := exists_threshold_of_matches (hb b rfl).2
      rw [Option.bind_some, ht] at h
      cases h
  | some a =>
    obtain ⟨t, ht⟩ := exists_threshold_of_matches (ha a rfl).2
    rw [Option.bind_some, ht] at h
    cases b with
    | none => cases h
    | some b =>
      have hid : a.id = b.id := (id_of_threshold ht).symm.trans (id_of_threshold h.symm)
      rw [table.id_inj a (ha a rfl).1 b (hb b rfl).1 hid]

theorem selectsLeast_iff_scan {table : FSThresholds} (mThresholds : List (Threshold R))
    {result : List ThresholdRow} (hperm : result.Perm table.rows) :
    SelectsLeast regexMatch fixed2 assign table mThresholds result ↔
      (∀ row ∈ table.rows, row.Loggable fixed2 assign) ∧
        ∀ x, IsLeast ThresholdRow.rank (ThresholdRow.matches regexMatch assign) table.rows x
          (result.find? (ThresholdRow.matches regexMatch assign x)) := by
  have hrows : (∀ row ∈ result, row.Loggable fixed2 assign) ↔
      ∀ row ∈ table.rows, row.Loggable fixed2 assign :=
    forall_congr' fun _ => imp_congr_left hperm.mem_iff
  simp only [SelectsLeast, storeThresholds_eq_some_iff, and_assoc, hrows, exists_and_left,
    exists_eq_left]
  refine and_congr_right fun _ => forall_congr' fun x => ?_
  rw [find?_thresholds]
  constructor
  · rintro ⟨row, hleast, heq⟩
    have hleastMem : ∀ r ∈ row, r ∈ table.rows ∧ r.matches regexMatch assign x = true := by
      rintro r rfl
      exact ⟨hleast.1, hleast.2.1⟩
    have hfoundMem : ∀ r ∈ result.find? (ThresholdRow.matches regexMatch assign x),
        r ∈ table.rows ∧ r.matches regexMatch assign x = true := by
      intro r hr
      exact ⟨hperm.subset (List.mem_of_find?_eq_some hr), List.find?_some hr⟩
    rw [← eq_of_threshold hleastMem hfoundMem heq.symm]
    exact hleast
  · intro hleast
    exact ⟨_, hleast, rfl⟩

/-- The first rule that matches is the first in the evaluation order, in whatever order the rows are
returned, exactly if every rule is short enough for the log and no two of the rows match the same
host, volume and size. -/
theorem selectsLeast_iff (table : FSThresholds) (mThresholds : List (Threshold R)) :
    (∀ result : List ThresholdRow, result.Perm table.rows →
        SelectsLeast regexMatch fixed2 assign table mThresholds result) ↔
      (∀ row ∈ table.rows, row.Loggable fixed2 assign) ∧
        ∀ a ∈ table.rows, ∀ b ∈ table.rows, a ≠ b →
          ¬ Overlap (ThresholdRow.matches regexMatch assign) a b := by
  have hrank : ∀ a ∈ table.rows, ∀ b ∈ table.rows, a.rank = b.rank → a = b := by
    intro a ha b hb hab
    exact table.evalOrder_inj a ha b hb (Int32.toInt_inj.mp hab)
  rw [← scanned_right_iff hrank]
  constructor
  · intro h
    refine ⟨((selectsLeast_iff_scan _ (List.Perm.refl _)).mp (h _ (List.Perm.refl _))).1, ?_⟩
    intro result hperm
    exact ((selectsLeast_iff_scan mThresholds hperm).mp (h result hperm)).2
  · rintro ⟨hrows, hscan⟩ result hperm
    exact (selectsLeast_iff_scan mThresholds hperm).mpr ⟨hrows, hscan result hperm⟩

end Selection

def ruleForAll (id evalOrder : Int32) : ThresholdRow where
  id := id
  evalOrder := evalOrder
  hostExpression := wcs ".*"
  volumeExpression := wcs ".*"
  treshFreeMBWarn := 1000
  threshFreeMBHigh := 500
  threshUtilWarn := 90
  threshUtilHigh := 95
  warnSev := wcs "Minor"
  highSev := wcs "Major"
  minFSSizeMb := 0
  maxFSSizeMb := 0

/-- Two rules for everything, the first of which has been inserted before the second. -/
def twoRulesForAll : FSThresholds where
  rows := [ruleForAll 1 20, ruleForAll 2 10]
  id_inj := by decide
  evalOrder_inj := by decide

/-- Expressions of plain characters and the one that matches everything. -/
def plainMatch (text expression : WStr) : Bool :=
  expression == wcs ".*" || text.map toLower == expression.map toLower

/-- `%.2f` for whole numbers. -/
def wholeFixed2 (d : ℚ) : WStr := decimal d.num.natAbs ++ wcs ".00"

/-- Returned in the order of their ids, the rules are not scanned in the order of evaluation. -/
theorem twoRulesForAll_not_least :
    ¬ ∀ result : List ThresholdRow, result.Perm twoRulesForAll.rows →
      SelectsLeast plainMatch wholeFixed2 some twoRulesForAll [] result := by
  intro h
  have hscan := (selectsLeast_iff_scan [] (List.Perm.refl _)).mp (h _ (List.Perm.refl _))
  have hleast := hscan.2 (wcs "testsystem", wcs "/var", 8000)
  have hfound : twoRulesForAll.rows.find? (ThresholdRow.matches plainMatch some
      (wcs "testsystem", wcs "/var", 8000)) = some (ruleForAll 1 20) := by decide
  rw [hfound] at hleast
  have hrank := hleast.2.2 (ruleForAll 2 10) (by decide) (by decide)
  exact absurd hrank (by decide)

end TrapHandler
