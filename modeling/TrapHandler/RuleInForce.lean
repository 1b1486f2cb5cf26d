import TrapHandler.ThresholdSettling

/-!
# The rule in force

Each call of `SetValues` looks the thresholds up again. Without a matching rule all four thresholds
are zero and both severities are null, so no state but the normal one can be reported. The lookup
takes the size that the call before has stored, which is the size in the sample only while a file
system is not resized from one rule to another.
-/

namespace TrapHandler

open Runs

variable {D : Type}

structure Limits (D : Type) where
  highFreeMegsThresh : UInt64
  warnFreeMegsThresh : UInt64
  highUtilThresh : D
  warnUtilThresh : D
  warnSevStr : Option WStr
  highSevStr : Option WStr
  deriving DecidableEq

def CThreshold.limits (rule : CThreshold D) : Limits D where
  highFreeMegsThresh := rule.highFreeMegsThresh
  warnFreeMegsThresh := rule.warnFreeMegsThresh
  highUtilThresh := rule.highUtilThresh
  warnUtilThresh := rule.warnUtilThresh
  warnSevStr := some rule.warnSevStr
  highSevStr := some rule.highSevStr

def CFS.limits (this : CFS D) : Limits D where
  highFreeMegsThresh := this.highFreeMegsThresh
  warnFreeMegsThresh := this.warnFreeMegsThresh
  highUtilThresh := this.highUtilThresh
  warnUtilThresh := this.warnUtilThresh
  warnSevStr := this.warnSevStr
  highSevStr := this.highSevStr

/-- The rule is one for file systems of this name and size; a bound of zero is none. -/
structure CThreshold.Covers (matchString : WStr → WStr → Bool) (rule : CThreshold D)
    (hostName volName : WStr) (size : UInt64) : Prop where
  host : matchString rule.hostExpr hostName = true
  volume : matchString rule.volExpr volName = true
  lower : rule.minFSSize ≠ 0 → rule.minFSSize ≤ size
  upper : rule.maxFSSize ≠ 0 → size ≤ rule.maxFSSize

theorem CThreshold.covers_iff {matchString : WStr → WStr → Bool} {rule : CThreshold D}
    {hostName volName : WStr} {size : UInt64} :
    rule.Covers matchString hostName volName size ↔
      matchString rule.hostExpr hostName = true ∧ matchString rule.volExpr volName = true ∧
        (rule.minFSSize = 0 ∨ rule.minFSSize ≤ size) ∧
        (rule.maxFSSize = 0 ∨ size ≤ rule.maxFSSize) := by
  constructor
  · intro h
    exact ⟨h.host, h.volume, or_iff_not_imp_left.mpr h.lower, or_iff_not_imp_left.mpr h.upper⟩
  · rintro ⟨hhost, hvolume, hlower, hupper⟩
    exact ⟨hhost, hvolume, or_iff_not_imp_left.mp hlower, or_iff_not_imp_left.mp hupper⟩

instance (matchString : WStr → WStr → Bool) (rule : CThreshold D) (hostName volName : WStr)
    (size : UInt64) : Decidable (rule.Covers matchString hostName volName size) :=
  decidable_of_iff' _ CThreshold.covers_iff

/-- The limits of the first rule that covers the file system, or none at all. -/
def limitsInForce [Zero D] (matchString : WStr → WStr → Bool) (rules : List (CThreshold D))
    (hostName volName : WStr) (size : UInt64) : Limits D :=
  match rules.find? fun rule => decide (rule.Covers matchString hostName volName size) with
  | some rule => rule.limits
  | none => ⟨0, 0, 0, 0, none, none⟩

theorem getThresholdForFS_eq (matchString : WStr → WStr → Bool) (rules : List (CThreshold D))
    (hostName volName : WStr) (size : UInt64) :
    getThresholdForFS matchString rules hostName volName size =
      rules.find? fun rule => decide (rule.Covers matchString hostName volName size) := by
  rw [getThresholdForFS]
  congr 1
  funext rule
  rw [Bool.eq_iff_iff, decide_eq_true_eq, CThreshold.covers_iff]
  simp only [Bool.and_eq_true, Bool.or_eq_true, beq_iff_eq, decide_eq_true_eq]
  constructor
  · rintro ⟨⟨hhost, hlower, hupper⟩, hvolume⟩
    exact ⟨hhost, hvolume, hlower, hupper⟩
  · rintro ⟨hhost, hvolume, hlower, hupper⟩
    exact ⟨⟨hhost, hlower, hupper⟩, hvolume⟩

theorem CFS.limits_load [Zero D] (matchString : WStr → WStr → Bool) (rules : List (CThreshold D))
    {this : CFS D} (sample : Sample D) (h : this.bThreshChanged = true) :
    (this.load matchString rules sample).limits =
      limitsInForce matchString rules this.hostName this.volName this.totSize := by
  rw [CFS.load, if_pos h, CFS.getThresholds, limitsInForce, getThresholdForFS_eq]
  cases rules.find? fun rule =>
      decide (rule.Covers matchString this.hostName this.volName this.totSize) with
  | none => rfl
  | some rule => rfl

/-- A threshold that is set has its severity. -/
def Limits.Named [Zero D] (limits : Limits D) : Prop :=
  (limits.warnSevStr ≠ none ∧ limits.highSevStr ≠ none) ∨
    (limits.highFreeMegsThresh = 0 ∧ limits.warnFreeMegsThresh = 0 ∧
      limits.highUtilThresh = 0 ∧ limits.warnUtilThresh = 0)

theorem limitsInForce_named [Zero D] (matchString : WStr → WStr → Bool)
    (rules : List (CThreshold D)) (hostName volName : WStr) (size : UInt64) :
    (limitsInForce matchString rules hostName volName size).Named := by
  unfold limitsInForce
  cases rules.find? fun rule => decide (rule.Covers matchString hostName volName size) with
  | none => exact .inr ⟨rfl, rfl, rfl, rfl⟩
  | some rule => exact .inl ⟨Option.some_ne_none _, Option.some_ne_none _⟩

theorem sev_buildMessage {that : CFS D} (type : ThreshType) (oldState : ThreshState)
    {newState : ThreshState}
    (h : (that.warnSevStr ≠ none ∧ that.highSevStr ≠ none) ∨ newState = .norm) :
    (that.buildMessage type oldState newState).sev ≠ none ∧
      (newState = .warn → that.warnSevStr ≠ none) ∧
      (newState = .high → that.highSevStr ≠ none) := by
  cases h with
  | inl hsev =>
    refine ⟨?_, fun _ => hsev.1, fun _ => hsev.2⟩
    cases newState with
    | norm => exact Option.some_ne_none _
    | warn => exact hsev.1
    | high => exact hsev.2
  | inr hnorm =>
    subst hnorm
    have hwarn : ThreshState.norm ≠ .warn := by decide
    have hhigh : ThreshState.norm ≠ .high := by decide
    exact ⟨Option.some_ne_none _, fun h => absurd h hwarn, fun h => absurd h hhigh⟩

theorem freeLevel_of_zero {this : CFS D} {sample : Sample D} (hwarn : this.warnFreeMegsThresh = 0)
    (hhigh : this.highFreeMegsThresh = 0) : this.freeLevel sample = .norm := by
  have hzero : ((0 : UInt64) != 0) = false := by decide
  simp only [CFS.freeLevel, hwarn, hhigh, hzero, Bool.false_eq_true, and_false, if_false, ite_self]

section Severities

variable [Zero D] [LT D] [LE D] [BEq D] [DecidableLT D] [DecidableLE D]
variable {matchString : WStr → WStr → Bool} {rules : List (CThreshold D)} {this : CFS D}
variable {sample : Sample D}

theorem utilLevel_of_zero (h0 : ((0 : D) == 0) = true) (hwarn : this.warnUtilThresh = 0)
    (hhigh : this.highUtilThresh = 0) : this.utilLevel sample = .norm := by
  have hzero : ((0 : D) != 0) = false := by rw [bne, h0, Bool.not_true]
  simp only [CFS.utilLevel, hwarn, hhigh, hzero, Bool.false_eq_true, false_and, and_false,
    if_false, ite_self]

theorem levels_of_named (sample : Sample D) (h0 : ((0 : D) == 0) = true)
    (hnamed : this.limits.Named) :
    (this.warnSevStr ≠ none ∧ this.highSevStr ≠ none) ∨
      (this.utilLevel sample = .norm ∧ this.freeLevel sample = .norm) := by
  cases hnamed with
  | inl hsev => exact .inl hsev
  | inr hzero =>
    obtain ⟨hhighFree, hwarnFree, hhighUtil, hwarnUtil⟩ := hzero
    exact .inr ⟨utilLevel_of_zero h0 hwarnUtil hhighUtil, freeLevel_of_zero hwarnFree hhighFree⟩

/-- A call of `SetValues` that builds its messages with severities, and queues one message exactly
if it changes a state. -/
structure SoundCall (matchString : WStr → WStr → Bool) (rules : List (CThreshold D))
    (this : CFS D) (sample : Sample D) : Prop where
  severity : ∀ cmd ∈ (this.setValues matchString rules sample).2, cmd.sev ≠ none
  warn : ∀ cmd ∈ (this.setValues matchString rules sample).2, cmd.newState = .warn →
    (this.setValues matchString rules sample).1.warnSevStr ≠ none
  high : ∀ cmd ∈ (this.setValues matchString rules sample).2, cmd.newState = .high →
    (this.setValues matchString rules sample).1.highSevStr ≠ none
  atMostOne : (this.setValues matchString rules sample).2.length ≤ 1
  exactly : (this.setValues matchString rules sample).2.length = 1 ↔
    ((this.setValues matchString rules sample).1.utilThreshState,
        (this.setValues matchString rules sample).1.freeMegsThreshState) ≠
      (this.utilThreshState, this.freeMegsThreshState)

theorem soundCall_of_message {that next : CFS D} {type : ThreshType}
    {oldState newState : ThreshState}
    (heq : this.setValues matchString rules sample =
      (next, [that.buildMessage type oldState newState]))
    (hwarn : next.warnSevStr = that.warnSevStr) (hhigh : next.highSevStr = that.highSevStr)
    (hstates : (next.utilThreshState, next.freeMegsThreshState) ≠
      (this.utilThreshState, this.freeMegsThreshState))
    (h : (that.warnSevStr ≠ none ∧ that.highSevStr ≠ none) ∨ newState = .norm) :
    SoundCall matchString rules this sample := by
  obtain ⟨hsev, hsevWarn, hsevHigh⟩ := sev_buildMessage type oldState h
  constructor
  · rw [heq, List.forall_mem_singleton]
    exact hsev
  · rw [heq, List.forall_mem_singleton, hwarn]
    exact hsevWarn
  · rw [heq, List.forall_mem_singleton, hhigh]
    exact hsevHigh
  · rw [heq]
    exact le_rfl
  · rw [heq]
    exact iff_of_true rfl hstates

theorem soundCall (h0 : ((0 : D) == 0) = true) (hrereads : this.bThreshChanged = true) :
    SoundCall matchString rules this sample := by
  have hnamed : (this.load matchString rules sample).limits.Named := by
    rw [CFS.limits_load matchString rules sample hrereads]
    exact limitsInForce_named _ _ _ _ _
  have hlevels := levels_of_named sample h0 hnamed
  have hcases := CFS.setValues_cases matchString rules this sample
  simp only at hcases
  obtain ⟨hu, heq⟩ | ⟨hu, hf, heq⟩ | ⟨hu, hf, heq⟩ := hcases
  · refine soundCall_of_message heq rfl rfl ?_ (hlevels.imp_right fun h => h.1)
    intro hstates
    exact hu (congrArg Prod.fst hstates)
  · refine soundCall_of_message heq rfl rfl ?_ (hlevels.imp_right fun h => h.2)
    intro hstates
    exact hf (congrArg Prod.snd hstates)
  · have hstates : ((this.load matchString rules sample).utilThreshState,
        (this.load matchString rules sample).freeMegsThreshState) =
          (this.utilThreshState, this.freeMegsThreshState) := by
      rw [CFS.load_utilThreshState, CFS.load_freeMegsThreshState]
    constructor
    · rw [heq]
      exact List.forall_mem_nil _
    · rw [heq]
      exact List.forall_mem_nil _
    · rw [heq]
      exact List.forall_mem_nil _
    · rw [heq]
      exact Nat.zero_le 1
    · rw [heq]
      exact iff_of_false Nat.zero_ne_one (not_not.mpr hstates)

end Severities

def sizeBefore (first : Sample D) (pre : List (FSEvent D)) : UInt64 :=
  pre.foldl (fun size e =>
    match e with
    | .updateThresholds _ => size
    | .setValues sample => sample.totalSpace) first.totalSpace

def rulesBefore (thresholds : List (CThreshold D)) (pre : List (FSEvent D)) :
    List (CThreshold D) :=
  pre.foldl (fun rules e =>
    match e with
    | .updateThresholds rows => rows
    | .setValues _ => rules) thresholds

section Reachable

variable [Zero D] [LT D] [LE D] [BEq D] [DecidableLT D] [DecidableLE D]

/-- What a run leaves of the constructor's arguments, the reloads and the samples. -/
structure Carries (w : FSWorld D) (rules : List (CThreshold D)) (hostName volName : WStr)
    (size : UInt64) : Prop where
  rules : w.thresholds = rules
  hostName : w.fs.hostName = hostName
  volName : w.fs.volName = volName
  size : w.fs.totSize = size
  rereads : w.fs.bThreshChanged = true

variable (matchString : WStr → WStr → Bool)

theorem carries_setValues {w : FSWorld D} {rules : List (CThreshold D)} {hostName volName : WStr}
    {size : UInt64} (h : Carries w rules hostName volName size) (sample : Sample D) :
    Carries (w.setValues matchString sample) rules hostName volName sample.totalSpace := by
  obtain ⟨hhost, hvol, hsize, hrereads⟩ := FSWorld.setValues_frame matchString w sample
  exact ⟨h.rules, hhost.trans h.hostName, hvol.trans h.volName, hsize, hrereads.trans h.rereads⟩

theorem carries_run (thresholds : List (CThreshold D)) (hostName volumeName platform : WStr)
    (first : Sample D) (events : List (FSEvent D)) :
    Carries (run (FSWorld.step matchString)
        (FSWorld.create matchString thresholds hostName volumeName platform first) events)
      (rulesBefore thresholds events) hostName volumeName (sizeBefore first events) := by
  induction events using List.reverseRecOn with
  | nil => exact carries_setValues matchString ⟨rfl, rfl, rfl, rfl, rfl⟩ first
  | append_singleton events e ih =>
    rw [run_concat, rulesBefore, sizeBefore, List.foldl_concat, List.foldl_concat]
    cases e with
    | updateThresholds rows => exact ⟨rfl, ih.hostName, ih.volName, ih.size, rfl⟩
    | setValues sample => exact carries_setValues matchString ih sample

/-- The messages queued so far have their severities, and the limits will be looked up again. -/
def AllNamed (w : FSWorld D) : Prop :=
  w.fs.bThreshChanged = true ∧ ∀ cmd ∈ w.cmdQueue, cmd.sev ≠ none

theorem allNamed_setValues (h0 : ((0 : D) == 0) = true) {w : FSWorld D} (h : AllNamed w)
    (sample : Sample D) : AllNamed (w.setValues matchString sample) := by
  obtain ⟨_, _, _, hrereads⟩ := FSWorld.setValues_frame matchString w sample
  have hcall : SoundCall matchString w.thresholds w.fs sample := soundCall h0 h.1
  refine ⟨hrereads.trans h.1, ?_⟩
  rw [FSWorld.setValues, List.forall_mem_append]
  exact ⟨h.2, hcall.severity⟩

theorem allNamed_step (h0 : ((0 : D) == 0) = true) {w : FSWorld D} (e : FSEvent D)
    (h : AllNamed w) : AllNamed (w.step matchString e) := by
  cases e with
  | updateThresholds rows => exact ⟨rfl, h.2⟩
  | setValues sample => exact allNamed_setValues matchString h0 h sample

/-- In every state the constructor, the reloads and the samples lead to, a severity that is copied
into a message is there, and a call queues at most one message, exactly if it changes a state. -/
theorem severity_never_null (h0 : ((0 : D) == 0) = true) (thresholds : List (CThreshold D))
    (hostName volumeName platform : WStr) (first : Sample D) (events : List (FSEvent D)) :
    let w := run (FSWorld.step matchString)
      (FSWorld.create matchString thresholds hostName volumeName platform first) events
    SoundCall matchString thresholds (CFS.init hostName volumeName platform first) first ∧
      (∀ cmd ∈ w.cmdQueue, cmd.sev ≠ none) ∧
      ∀ sample, SoundCall matchString w.thresholds w.fs sample := by
  intro w
  have hcreate : AllNamed
      (FSWorld.create matchString thresholds hostName volumeName platform first) :=
    allNamed_setValues matchString h0 ⟨rfl, List.forall_mem_nil _⟩ first
  have hw : AllNamed w := invariant hcreate (fun _ e h => allNamed_step matchString h0 e h) events
  exact ⟨soundCall h0 rfl, hw.2, fun sample => soundCall h0 hw.1⟩

end Reachable

/-- The rules are gone when the second sample comes, while the first has raised the utilization. -/
theorem severity_never_null_reload :
    let w := run (FSWorld.step fun _ _ => true)
      (FSWorld.create (fun _ _ => true) [bothRule] (wcs "osi1112") (wcs "C:") (wcs "WIN")
        bothBreached)
      [.updateThresholds []]
    SoundCall (fun _ _ => true) [bothRule]
        (CFS.init (wcs "osi1112") (wcs "C:") (wcs "WIN") bothBreached) bothBreached ∧
      (∀ cmd ∈ w.cmdQueue, cmd.sev ≠ none) ∧
      ∀ sample, SoundCall (fun _ _ => true) w.thresholds w.fs sample :=
  severity_never_null (fun _ _ => true) (beq_self_eq_true _) [bothRule] (wcs "osi1112") (wcs "C:")
    (wcs "WIN") bothBreached [.updateThresholds []]

section Classification

variable [Zero D] (matchString : WStr → WStr → Bool)

/-- The sample is compared with the limits for its own size. -/
def Classified (w : FSWorld D) : FSEvent D → Prop
  | .updateThresholds _ => True
  | .setValues sample =>
    (w.fs.load matchString w.thresholds sample).limits =
      limitsInForce matchString w.thresholds w.fs.hostName w.fs.volName sample.totalSpace

/-- The rule for the size of the sample before sets the same limits as the rule for the sample. -/
def SameLimits (thresholds : List (CThreshold D)) (hostName volumeName : WStr) (first : Sample D)
    (pre : List (FSEvent D)) : FSEvent D → Prop
  | .updateThresholds _ => True
  | .setValues sample =>
    let limitsOf := limitsInForce matchString (rulesBefore thresholds pre) hostName volumeName
    limitsOf (sizeBefore first pre) = limitsOf sample.totalSpace

theorem classified_iff {w : FSWorld D} {thresholds : List (CThreshold D)}
    {hostName volumeName : WStr} {first : Sample D} {pre : List (FSEvent D)}
    (h : Carries w (rulesBefore thresholds pre) hostName volumeName (sizeBefore first pre))
    (e : FSEvent D) :
    Classified matchString w e ↔
      SameLimits matchString thresholds hostName volumeName first pre e := by
  cases e with
  | updateThresholds rows => exact Iff.rfl
  | setValues sample =>
    rw [Classified, SameLimits, CFS.limits_load matchString w.thresholds sample h.rereads, h.rules,
      h.hostName, h.volName, h.size]

variable [LT D] [LE D] [BEq D] [DecidableLT D] [DecidableLE D]

/-- The constructor compares its sample with the limits for its size. All later calls of a run do so
exactly if no sample moves the file system to a rule with other limits. -/
theorem classified_run_iff (thresholds : List (CThreshold D))
    (hostName volumeName platform : WStr) (first : Sample D) (events : List (FSEvent D)) :
    Classified matchString
        { thresholds, fs := CFS.init hostName volumeName platform first, cmdQueue := [] }
        (.setValues first) ∧
      (AtEach (fun pre e => Classified matchString (run (FSWorld.step matchString)
          (FSWorld.create matchString thresholds hostName volumeName platform first) pre) e)
          events ↔
        AtEach (SameLimits matchString thresholds hostName volumeName first) events) := by
  constructor
  · exact CFS.limits_load matchString thresholds first rfl
  · apply forall_congr'
    intro pre
    apply forall_congr'
    intro e
    have hcarries := carries_run matchString thresholds hostName volumeName platform first pre
    exact imp_congr_right fun _ => classified_iff matchString hcarries e

end Classification

def smallRule : CThreshold ℚ :=
  { bothRule with warnUtilThresh := 50, highUtilThresh := 60, maxFSSize := 1000 }

def largeRule : CThreshold ℚ := { bothRule with minFSSize := 1001 }

def resized : Sample ℚ := { totalSpace := 2000, freeSpace := 600, utilPercent := 70 }

/-- The volume has grown beyond the first rule, under which its utilization would be high. -/
theorem resized_not_classified :
    ¬ AtEach (fun pre e => Classified (fun _ _ => true) (run (FSWorld.step fun _ _ => true)
        (FSWorld.create (fun _ _ => true) [smallRule, largeRule] (wcs "osi1112") (wcs "C:")
          (wcs "WIN") bothBreached) pre) e)
      [.setValues resized] := by
  intro h
  have hfirst := h [] _ (List.prefix_refl _)
  revert hfirst
  unfold Classified
  decide +kernel

end TrapHandler
