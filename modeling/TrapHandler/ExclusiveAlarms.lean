import Mathlib

/-!
# Two alarms that exclude each other

Two alarms watch one source. The first alarm whose state is not the level of the source takes that
level, is reported, and puts the other alarm back to normal. The results say how many reports a
constant source draws.
-/

namespace ExclusiveAlarms

variable {L : Type} [DecidableEq L] (norm : L)

def react (state levels : L × L) : (L × L) × ℕ :=
  if levels.1 ≠ state.1 then ((levels.1, norm), 1)
  else if levels.2 ≠ state.2 then ((norm, levels.2), 1)
  else (state, 0)

def reports (state levels : L × L) : ℕ → ℕ
  | 0 => 0
  | n + 1 => (react norm state levels).2 + reports (react norm state levels).1 levels n

def Exclusive (state : L × L) : Prop := state.1 = norm ∨ state.2 = norm

/-- The first reaction is to `first` and all the others are to `levels`: the levels are not both
raised, and the first reaction does not raise the first alarm where then only the second one is. -/
def Settles (state first levels : L × L) : Prop :=
  ¬ (levels.1 ≠ norm ∧ levels.2 ≠ norm) ∧
    ¬ (first.1 ≠ norm ∧ first.1 ≠ state.1 ∧ levels.1 = norm ∧ levels.2 ≠ norm)

variable {norm} {state first levels : L × L}

theorem react_first (h : levels.1 ≠ state.1) : react norm state levels = ((levels.1, norm), 1) := by
  rw [react, if_pos h]

theorem react_second (h₁ : levels.1 = state.1) (h₂ : levels.2 ≠ state.2) :
    react norm state levels = ((norm, levels.2), 1) := by
  rw [react, if_neg (not_not.mpr h₁), if_pos h₂]

theorem react_self : react norm levels levels = (levels, 0) := by
  rw [react, if_neg (not_not.mpr rfl), if_neg (not_not.mpr rfl)]

theorem react_le_one : (react norm state levels).2 ≤ 1 := by
  unfold react
  split_ifs
  · exact Nat.le_refl 1
  · exact Nat.le_refl 1
  · exact Nat.zero_le 1

theorem exclusive_react (h : Exclusive norm state) :
    Exclusive norm (react norm state levels).1 := by
  unfold react
  split_ifs
  · exact .inr rfl
  · exact .inl rfl
  · exact h

theorem reports_self (n : ℕ) : reports norm levels levels n = 0 := by
  induction n with
  | zero => rfl
  | succ n ih => rw [reports, react_self, ih]

theorem reports_le_one (h : (react norm state levels).1 = levels) (n : ℕ) :
    reports norm state levels n ≤ 1 := by
  cases n with
  | zero => exact Nat.zero_le 1
  | succ n =>
    rw [reports, h, reports_self]
    exact react_le_one

theorem react_of_second_normal (hs : Exclusive norm state) (h : levels.2 = norm) :
    (react norm state levels).1 = levels := by
  by_cases h₁ : levels.1 = state.1
  · by_cases h₂ : levels.2 = state.2
    · rw [Prod.ext h₁ h₂, react_self]
    · have hstate : state.1 = norm := hs.resolve_right fun h' => h₂ (h.trans h'.symm)
      rw [react_second h₁ h₂]
      exact Prod.ext (hstate.symm.trans h₁.symm) rfl
  · rw [react_first h₁]
    exact Prod.ext rfl h.symm

theorem react_of_first_normal (hs : state.1 = norm) (h : levels.1 = norm) :
    (react norm state levels).1 = levels := by
  have h₁ : levels.1 = state.1 := h.trans hs.symm
  by_cases h₂ : levels.2 = state.2
  · rw [Prod.ext h₁ h₂, react_self]
  · rw [react_second h₁ h₂]
    exact Prod.ext h.symm rfl

theorem reports_le_two (h : levels.1 = norm) (n : ℕ) : reports norm state levels n ≤ 2 := by
  by_cases hstate : state.1 = norm
  · exact Nat.le_succ_of_le (reports_le_one (react_of_first_normal hstate h) n)
  · cases n with
    | zero => exact Nat.zero_le 2
    | succ n =>
      have h₁ : levels.1 ≠ state.1 := fun h' => hstate (h'.symm.trans h)
      have hfixed : (react norm (levels.1, norm) levels).1 = levels := react_of_first_normal h h
      have hrest := reports_le_one hfixed n
      simp only [reports, react_first h₁]
      omega

theorem reports_two (hstate : state.1 ≠ norm) (h₁ : levels.1 = norm) (h₂ : levels.2 ≠ norm) :
    reports norm state levels 2 = 2 := by
  have hfall : levels.1 ≠ state.1 := fun h => hstate (h.symm.trans h₁)
  have hrise : react norm (levels.1, norm) levels = ((norm, levels.2), 1) := react_second rfl h₂
  simp only [reports, react_first hfall, hrise]

theorem reports_of_both (hs : Exclusive norm state) (h₁ : levels.1 ≠ norm) (h₂ : levels.2 ≠ norm)
    (n : ℕ) : reports norm state levels n = n := by
  induction n generalizing state with
  | zero => rfl
  | succ n ih =>
    have hreport : (react norm state levels).2 = 1 := by
      by_cases hfirst : levels.1 = state.1
      · have hsecond : state.2 = norm := hs.resolve_left fun h => h₁ (hfirst.trans h)
        rw [react_second hfirst fun h => h₂ (h.trans hsecond)]
      · rw [react_first hfirst]
    rw [reports, hreport, ih (exclusive_react hs), Nat.add_comm]

theorem reports_le_two_iff (hs : Exclusive norm state) :
    (∀ n, (react norm state first).2 + reports norm (react norm state first).1 levels n ≤ 2) ↔
      Settles norm state first levels := by
  have hs' : Exclusive norm (react norm state first).1 := exclusive_react hs
  have hfirst : (react norm state first).2 ≤ 1 := react_le_one
  constructor
  · intro h
    constructor
    · rintro ⟨h₁, h₂⟩
      have hthree := h 3
      rw [reports_of_both hs' h₁ h₂] at hthree
      omega
    · rintro ⟨hraise, hchange, h₁, h₂⟩
      have htwo := h 2
      have hfall : reports norm (first.1, norm) levels 2 = 2 := reports_two hraise h₁ h₂
      simp only [react_first hchange, hfall] at htwo
      omega
  · rintro ⟨hboth, hraise⟩ n
    by_cases h₂ : levels.2 = norm
    · have hrest := reports_le_one (react_of_second_normal hs' h₂) n
      omega
    · have h₁ : levels.1 = norm := not_not.mp fun h₁ => hboth ⟨h₁, h₂⟩
      by_cases hstate : (react norm state first).1.1 = norm
      · have hrest := reports_le_one (react_of_first_normal hstate h₁) n
        omega
      · have hrest : reports norm (react norm state first).1 levels n ≤ 2 := reports_le_two h₁ n
        have hsame : first.1 = state.1 := by
          by_contra hchange
          rw [react_first hchange] at hstate
          exact hraise ⟨hstate, hchange, h₁, h₂⟩
        have hquiet : first.2 = state.2 := by
          by_contra hsecond
          rw [react_second hsame hsecond] at hstate
          exact hstate rfl
        rw [Prod.ext hsame hquiet, react_self] at hrest ⊢
        omega

end ExclusiveAlarms
