import Mathlib

/-!
# Alarm levels

A quantity is watched with a limit for warnings and a higher one for alarms. A limit of zero is
disabled, independently of the other one. The level is 2 beyond the limit for alarms, 1 beyond the
limit for warnings only, and 0 otherwise.
-/

namespace AlarmLevels

/-- The level of which the limits are passed. -/
def level (high warn : Prop) [Decidable high] [Decidable warn] : ℕ :=
  if high then 2 else if warn then 1 else 0

section Level

variable {high warn : Prop} [Decidable high] [Decidable warn]

theorem level_of_high (h : high) : level high warn = 2 := if_pos h

theorem level_of_warn (hhigh : ¬ high) (hwarn : warn) : level high warn = 1 := by
  rw [level, if_neg hhigh, if_pos hwarn]

theorem level_of_neither (hhigh : ¬ high) (hwarn : ¬ warn) : level high warn = 0 := by
  rw [level, if_neg hhigh, if_neg hwarn]

theorem apply_level {β : Type} (f : ℕ → β) {high' warn' : Prop} [Decidable high']
    [Decidable warn'] (hhigh : high' ↔ high) (hwarn : warn' ↔ warn) :
    (if high' then f 2 else if warn' then f 1 else f 0) = f (level high warn) := by
  by_cases hh : high
  · rw [if_pos (hhigh.mpr hh), level_of_high hh]
  · rw [if_neg (fun h => hh (hhigh.mp h))]
    by_cases hw : warn
    · rw [if_pos (hwarn.mpr hw), level_of_warn hh hw]
    · rw [if_neg (fun h => hw (hwarn.mp h)), level_of_neither hh hw]

theorem level_le_two : level high warn ≤ 2 := by
  unfold level
  split_ifs
  · exact le_rfl
  · exact one_le_two
  · exact Nat.zero_le 2

end Level

theorem level_mono {high warn high' warn' : Prop} [Decidable high] [Decidable warn]
    [Decidable high'] [Decidable warn'] (hhigh : high → high') (hwarn : warn → warn') :
    level high warn ≤ level high' warn' := by
  by_cases hh : high
  · rw [level_of_high hh, level_of_high (hhigh hh)]
  · by_cases hw : warn
    · rw [level_of_warn hh hw]
      by_cases hh' : high'
      · rw [level_of_high hh']
        exact one_le_two
      · rw [level_of_warn hh' (hwarn hw)]
    · rw [level_of_neither hh hw]
      exact Nat.zero_le _

variable {α : Type} [Zero α] [LT α] [DecidableEq α] [DecidableLT α]

def Exceeds (limit x : α) : Prop := limit ≠ 0 ∧ limit < x

def FallsBelow (limit x : α) : Prop := limit ≠ 0 ∧ x < limit

instance (limit x : α) : Decidable (Exceeds limit x) := inferInstanceAs (Decidable (_ ∧ _))

instance (limit x : α) : Decidable (FallsBelow limit x) := inferInstanceAs (Decidable (_ ∧ _))

def upperLevel (high warn x : α) : ℕ := level (Exceeds high x) (Exceeds warn x)

def lowerLevel (high warn x : α) : ℕ := level (FallsBelow high x) (FallsBelow warn x)

theorem upperLevel_le_two {high warn x : α} : upperLevel high warn x ≤ 2 := level_le_two

theorem lowerLevel_le_two {high warn x : α} : lowerLevel high warn x ≤ 2 := level_le_two

end AlarmLevels

namespace AlarmLevels

variable {α : Type} [Zero α] [Preorder α] [DecidableEq α] [DecidableLT α] {x y : α}

theorem upperLevel_mono (high warn : α) (h : x ≤ y) :
    upperLevel high warn x ≤ upperLevel high warn y :=
  level_mono (fun hx => ⟨hx.1, hx.2.trans_le h⟩) (fun hx => ⟨hx.1, hx.2.trans_le h⟩)

theorem lowerLevel_anti (high warn : α) (h : x ≤ y) :
    lowerLevel high warn y ≤ lowerLevel high warn x :=
  level_mono (fun hy => ⟨hy.1, h.trans_lt hy.2⟩) (fun hy => ⟨hy.1, h.trans_lt hy.2⟩)

end AlarmLevels
