import TrapHandler.ThresholdRules

/-!
# Constructing and copying thresholds

The constructor of `Threshold` with eleven arguments has two parameters with the names of the
members for the size limits, and leaves the members at their initial value. The copy and the move
constructor leave out the id and the texts of the two expressions.
-/

namespace TrapHandler

/-- The arguments of the constructor; `long` has 32 bits. -/
structure ThresholdArguments where
  id : Int32
  freeMBWarn : Int32
  freeMBHigh : Int32
  utilWarn : ℚ
  utilHigh : ℚ
  warnSeverity : WStr
  highSeverity : WStr
  hostExpression : WStr
  volExpression : WStr
  minFSSize : Int32
  maxFSSize : Int32
  deriving DecidableEq, Repr

variable {R : Type}

namespace Threshold

/-- A malformed expression is an exception. The limits keep the initial value of the members. -/
def ofArguments (assign : WStr → Option R) (args : ThresholdArguments) : Option (Threshold R) := do
  let hostExpr ← assign args.hostExpression
  let volExpr ← assign args.volExpression
  pure {
    id := args.id
    warnFreeMegsThresh := args.freeMBWarn.toInt64
    highFreeMegsThresh := args.freeMBHigh.toInt64
    warnUtilThresh := args.utilWarn
    highUtilThresh := args.utilHigh
    minFSSize := 0
    maxFSSize := 0
    hostExpr
    hostExprStr := args.hostExpression
    volExpr
    volExprStr := args.volExpression
    highSevStr := strToSeverity args.highSeverity
    warnSevStr := strToSeverity args.warnSeverity }

/-- The assignments of both constructors, to an object with the initial values of the members. -/
def assignMembers (other : Threshold R) : Threshold R where
  id := 0
  hostExprStr := []
  volExprStr := []
  hostExpr := other.hostExpr
  volExpr := other.volExpr
  warnSevStr := other.warnSevStr
  highSevStr := other.highSevStr
  highFreeMegsThresh := other.highFreeMegsThresh
  warnFreeMegsThresh := other.warnFreeMegsThresh
  highUtilThresh := other.highUtilThresh
  warnUtilThresh := other.warnUtilThresh
  minFSSize := other.minFSSize
  maxFSSize := other.maxFSSize

def copy (other : Threshold R) : Threshold R := assignMembers other

def move (other : Threshold R) : Threshold R := assignMembers other

end Threshold

/-- The size lies between the limits, where zero is no limit. -/
def InLimits (minFSSize maxFSSize : Int32) (fsSizeMB : Int64) : Prop :=
  (minFSSize = 0 ∨ minFSSize.toInt ≤ fsSizeMB.toInt) ∧
    (maxFSSize = 0 ∨ fsSizeMB.toInt ≤ maxFSSize.toInt)

theorem inLimits_zero (fsSizeMB : Int64) : InLimits 0 0 fsSizeMB := ⟨.inl rfl, .inl rfl⟩

theorem forall_inLimits_iff (minFSSize maxFSSize : Int32) :
    (∀ fsSizeMB, InLimits minFSSize maxFSSize fsSizeMB) ↔ minFSSize = 0 ∧ maxFSSize = 0 := by
  constructor
  · intro h
    constructor
    · have hle := Int32.le_toInt minFSSize
      refine (h Int64.minValue).1.resolve_right ?_
      rw [Int64.toInt_minValue]
      omega
    · have hlt := Int32.toInt_lt maxFSSize
      refine (h Int64.maxValue).2.resolve_right ?_
      rw [Int64.toInt_maxValue]
      omega
  · rintro ⟨rfl, rfl⟩
    exact inLimits_zero

section

variable (regexMatch : WStr → R → Bool) (assign : WStr → Option R)

/-- `Matches`, with comparisons in place of the early returns. -/
theorem Threshold.matches_iff (this : Threshold R) (hostname volumeName : WStr) (fsSizeMB : Int64) :
    this.matches regexMatch hostname volumeName fsSizeMB = true ↔
      ((this.minFSSize = 0 ∨ this.minFSSize ≤ fsSizeMB) ∧
        (this.maxFSSize = 0 ∨ fsSizeMB ≤ this.maxFSSize)) ∧
        regexMatch hostname this.hostExpr = true ∧ regexMatch volumeName this.volExpr = true := by
  have hlimits : (this.minFSSize = 0 ∨ this.minFSSize ≤ fsSizeMB) ∧
      (this.maxFSSize = 0 ∨ fsSizeMB ≤ this.maxFSSize) ↔
      ¬ ((this.minFSSize ≠ 0 ∧ fsSizeMB < this.minFSSize) ∨
        (this.maxFSSize ≠ 0 ∧ fsSizeMB > this.maxFSSize)) := by
    rw [not_or, not_and_or, not_and_or, not_not, not_not, gt_iff_lt, Int64.not_lt, Int64.not_lt]
  rw [Threshold.matches, hlimits]
  split_ifs with hsize hhost hvol
  · exact iff_of_false not_false fun h => h.1 hsize
  · rw [Bool.not_eq_true'] at hhost
    exact iff_of_false not_false fun h => Bool.false_ne_true (hhost.symm.trans h.2.1)
  · rw [Bool.not_eq_true'] at hvol
    exact iff_of_false not_false fun h => Bool.false_ne_true (hvol.symm.trans h.2.2)
  · rw [Bool.not_eq_true', Bool.not_eq_false] at hhost hvol
    exact iff_of_true rfl ⟨hsize, hhost, hvol⟩

/-- The constructed threshold matches where the given limits and expressions do. -/
def ConstructedRight (args : ThresholdArguments) : Prop :=
  ∀ this hostExpr volExpr, Threshold.ofArguments assign args = some this →
    assign args.hostExpression = some hostExpr → assign args.volExpression = some volExpr →
    ∀ hostname volumeName fsSizeMB,
      this.matches regexMatch hostname volumeName fsSizeMB = true ↔
        InLimits args.minFSSize args.maxFSSize fsSizeMB ∧
          regexMatch hostname hostExpr = true ∧ regexMatch volumeName volExpr = true

/-- Some host and some volume match the given expressions. -/
def MatchesSome (args : ThresholdArguments) : Prop :=
  ∃ hostExpr volExpr, assign args.hostExpression = some hostExpr ∧
    assign args.volExpression = some volExpr ∧
    (∃ hostname, regexMatch hostname hostExpr = true) ∧
    ∃ volumeName, regexMatch volumeName volExpr = true

theorem matches_ofArguments {args : ThresholdArguments} {this : Threshold R} {hostExpr volExpr : R}
    (hthis : Threshold.ofArguments assign args = some this)
    (hhost : assign args.hostExpression = some hostExpr)
    (hvol : assign args.volExpression = some volExpr) (hostname volumeName : WStr)
    (fsSizeMB : Int64) :
    this.matches regexMatch hostname volumeName fsSizeMB = true ↔
      regexMatch hostname hostExpr = true ∧ regexMatch volumeName volExpr = true := by
  rw [Threshold.ofArguments, hhost, hvol] at hthis
  obtain rfl := Option.some.inj hthis
  rw [Threshold.matches_iff]
  exact and_iff_right ⟨.inl rfl, .inl rfl⟩

theorem constructedRight_iff (args : ThresholdArguments) :
    ConstructedRight regexMatch assign args ↔
      (args.minFSSize = 0 ∧ args.maxFSSize = 0) ∨ ¬ MatchesSome regexMatch assign args := by
  constructor
  · intro h
    by_cases hsome : MatchesSome regexMatch assign args
    · obtain ⟨hostExpr, volExpr, hhost, hvol, ⟨hostname, hhostname⟩, volumeName, hvolumeName⟩ :=
        hsome
      obtain ⟨this, hthis⟩ : ∃ this, Threshold.ofArguments assign args = some this := by
        rw [Threshold.ofArguments, hhost, hvol]
        exact ⟨_, rfl⟩
      left
      rw [← forall_inLimits_iff]
      intro fsSizeMB
      have hmatches := (matches_ofArguments regexMatch assign hthis hhost hvol hostname volumeName
        fsSizeMB).mpr ⟨hhostname, hvolumeName⟩
      exact ((h this hostExpr volExpr hthis hhost hvol hostname volumeName fsSizeMB).mp hmatches).1
    · exact .inr hsome
  · intro h this hostExpr volExpr hthis hhost hvol hostname volumeName fsSizeMB
    rw [matches_ofArguments regexMatch assign hthis hhost hvol]
    rcases h with ⟨hmin, hmax⟩ | hnone
    · rw [hmin, hmax]
      exact (and_iff_right (inLimits_zero fsSizeMB)).symm
    · have hboth :
          ¬ (regexMatch hostname hostExpr = true ∧ regexMatch volumeName volExpr = true) := by
        rintro ⟨hhostname, hvolumeName⟩
        exact hnone ⟨hostExpr, volExpr, hhost, hvol, ⟨hostname, hhostname⟩, volumeName, hvolumeName⟩
      exact iff_of_false hboth fun hlimits => hboth hlimits.2

/-- `t` has the members of `this` and matches what it matches. -/
structure CopiedRight (this t : Threshold R) : Prop where
  id : t.id = this.id
  hostExprStr : t.hostExprStr = this.hostExprStr
  volExprStr : t.volExprStr = this.volExprStr
  warnFreeMegsThresh : t.warnFreeMegsThresh = this.warnFreeMegsThresh
  highFreeMegsThresh : t.highFreeMegsThresh = this.highFreeMegsThresh
  warnUtilThresh : t.warnUtilThresh = this.warnUtilThresh
  highUtilThresh : t.highUtilThresh = this.highUtilThresh
  warnSevStr : t.warnSevStr = this.warnSevStr
  highSevStr : t.highSevStr = this.highSevStr
  minFSSize : t.minFSSize = this.minFSSize
  maxFSSize : t.maxFSSize = this.maxFSSize
  matches_eq : t.matches regexMatch = this.matches regexMatch

theorem matches_assignMembers (this : Threshold R) :
    this.assignMembers.matches regexMatch = this.matches regexMatch := rfl

theorem copiedRight_assignMembers_iff (this : Threshold R) :
    CopiedRight regexMatch this this.assignMembers ↔
      this.id = 0 ∧ this.hostExprStr = [] ∧ this.volExprStr = [] := by
  constructor
  · intro h
    exact ⟨h.id.symm, h.hostExprStr.symm, h.volExprStr.symm⟩
  · rintro ⟨hid, hhost, hvol⟩
    exact ⟨hid.symm, hhost.symm, hvol.symm, rfl, rfl, rfl, rfl, rfl, rfl, rfl, rfl,
      matches_assignMembers regexMatch this⟩

/-- The constructors keep what they are given exactly if there are no limits to keep, or nothing
that could match, and no id and texts. -/
theorem threshold_constructors_right_iff (args : ThresholdArguments) (this : Threshold R) :
    (ConstructedRight regexMatch assign args ∧ CopiedRight regexMatch this this.copy ∧
        CopiedRight regexMatch this this.move) ↔
      ((args.minFSSize = 0 ∧ args.maxFSSize = 0) ∨ ¬ MatchesSome regexMatch assign args) ∧
        this.id = 0 ∧ this.hostExprStr = [] ∧ this.volExprStr = [] := by
  rw [constructedRight_iff, Threshold.copy, Threshold.move, and_self,
    copiedRight_assignMembers_iff]

end

/-- An expression that matches itself, and `.*`, which matches everything. -/
def matchLiteral (s expr : WStr) : Bool := expr == wcs ".*" || s == expr

def largeDisks : ThresholdArguments where
  id := 7
  freeMBWarn := 0
  freeMBHigh := 0
  utilWarn := 80
  utilHigh := 90
  warnSeverity := wcs "MAJOR"
  highSeverity := wcs "CRITICAL"
  hostExpression := wcs ".*"
  volExpression := wcs ".*"
  minFSSize := 100000
  maxFSSize := 0

/-- The threshold for large disks matches a small one, and its copy is one without id. -/
theorem largeDisks_not_right :
    ¬ ConstructedRight matchLiteral some largeDisks ∧
      ∃ this, Threshold.ofArguments some largeDisks = some this ∧
        ¬ CopiedRight matchLiteral this this.copy := by
  constructor
  · intro h
    have hsmall := (h _ _ _ rfl rfl rfl (wcs "testsystem") (wcs "C:") 50).mp rfl
    exact absurd hsmall.1.1 (by decide)
  · refine ⟨_, rfl, ?_⟩
    intro h
    exact absurd h.id (by decide)

namespace ThresholdService

variable (regexMatch : WStr → R → Bool)

/-- The loop variable is a copy of the element. `none` is the end of the loop, where the function
returns nothing. -/
def getThresholdForFS (hostname volumeName : WStr) (fsSizeMb : Int64) :
    List (Threshold R) → Option (Threshold R)
  | [] => none
  | threshold :: rest =>
    let it := threshold.copy
    if it.matches regexMatch hostname volumeName fsSizeMb then some it
    else getThresholdForFS hostname volumeName fsSizeMb rest

theorem getThresholdForFS_eq (hostname volumeName : WStr) (fsSizeMb : Int64)
    (thresholdCache : List (Threshold R)) :
    getThresholdForFS regexMatch hostname volumeName fsSizeMb thresholdCache =
      (thresholdCache.find? (·.matches regexMatch hostname volumeName fsSizeMb)).map
        Threshold.copy := by
  induction thresholdCache with
  | nil => rfl
  | cons threshold rest ih =>
    have hmatches : threshold.copy.matches regexMatch hostname volumeName fsSizeMb =
      threshold.matches regexMatch hostname volumeName fsSizeMb := rfl
    rw [getThresholdForFS, List.find?_cons, ih, hmatches]
    cases threshold.matches regexMatch hostname volumeName fsSizeMb with
    | true => rfl
    | false => rfl

end ThresholdService

end TrapHandler
