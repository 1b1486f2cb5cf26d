import Mathlib

/-!
# Comparison of two ranges

A comparison that is given the bounds of the first range only runs over all of it. Where the second
one is shorter, it goes on with what stands behind that. Its result is whether the first range is a
prefix of the second one, up to a key.
-/

namespace Ranges

variable {α κ : Type} [DecidableEq κ]

/-- Whether the ranges were found equal, `none` where that depends on characters further behind the
second one than the first of them, and the characters read of each range. -/
structure Comparison where
  equal : Option Bool
  read : ℕ
  deriving DecidableEq, Repr

/-- `behind` is the character behind the second range. -/
def equalRange (key : α → κ) (behind : α) : List α → List α → Comparison
  | [], _ => ⟨some true, 0⟩
  | a :: _, [] => if key a = key behind then ⟨none, 1⟩ else ⟨some false, 1⟩
  | a :: as, b :: bs =>
    if key a = key b then
      let rest := equalRange key behind as bs
      ⟨rest.equal, rest.read + 1⟩
    else ⟨some false, 1⟩

variable {key : α → κ} {behind a b : α} {as bs : List α}

theorem equalRange_cons_of_eq (h : key a = key b) : equalRange key behind (a :: as) (b :: bs) =
    ⟨(equalRange key behind as bs).equal, (equalRange key behind as bs).read + 1⟩ := by
  rw [equalRange, if_pos h]

theorem equalRange_cons_of_ne (h : key a ≠ key b) :
    equalRange key behind (a :: as) (b :: bs) = ⟨some false, 1⟩ := by
  rw [equalRange, if_neg h]

theorem equalRange_of_prefix (h : as.map key <+: bs.map key) :
    equalRange key behind as bs = ⟨some true, as.length⟩ := by
  induction as generalizing bs with
  | nil => rw [equalRange, List.length_nil]
  | cons a as ih =>
    cases bs with
    | nil =>
      have hlen := h.length_le
      simp only [List.map_cons, List.map_nil, List.length_cons, List.length_nil] at hlen
      omega
    | cons b bs =>
      rw [List.map_cons, List.map_cons, List.cons_prefix_cons] at h
      obtain ⟨hkey, hrest⟩ := h
      rw [equalRange_cons_of_eq hkey, ih hrest, List.length_cons]

theorem equalRange_of_not_prefix (hab : ¬ as.map key <+: bs.map key)
    (hba : ¬ bs.map key <+: as.map key) :
    (equalRange key behind as bs).equal = some false ∧
      (equalRange key behind as bs).read ≤ as.length ∧
        (equalRange key behind as bs).read ≤ bs.length := by
  induction as generalizing bs with
  | nil => exact absurd List.nil_prefix hab
  | cons a as ih =>
    cases bs with
    | nil => exact absurd List.nil_prefix hba
    | cons b bs =>
      rw [List.map_cons, List.map_cons, List.cons_prefix_cons, not_and] at hab hba
      by_cases hkey : key a = key b
      · obtain ⟨hequal, has, hbs⟩ := ih (hab hkey) (hba hkey.symm)
        rw [equalRange_cons_of_eq hkey]
        exact ⟨hequal, Nat.succ_le_succ has, Nat.succ_le_succ hbs⟩
      · rw [equalRange_cons_of_ne hkey]
        exact ⟨rfl, Nat.succ_le_succ (Nat.zero_le _), Nat.succ_le_succ (Nat.zero_le _)⟩

theorem read_of_shorter (h : bs.map key <+: as.map key) (hlen : bs.length < as.length) :
    (equalRange key behind as bs).read = bs.length + 1 := by
  induction as generalizing bs with
  | nil => exact absurd hlen (Nat.not_lt_zero _)
  | cons a as ih =>
    cases bs with
    | nil =>
      rw [equalRange]
      split_ifs with hkey
      · rfl
      · rfl
    | cons b bs =>
      rw [List.map_cons, List.map_cons, List.cons_prefix_cons] at h
      obtain ⟨hkey, hrest⟩ := h
      rw [equalRange_cons_of_eq hkey.symm, ih hrest (Nat.lt_of_succ_lt_succ hlen),
        List.length_cons]

theorem equal_eq_isPrefixOf (h : ∀ a ∈ as, key a ≠ key behind) :
    (equalRange key behind as bs).equal = some ((as.map key).isPrefixOf (bs.map key)) := by
  induction as generalizing bs with
  | nil => rfl
  | cons a as ih =>
    obtain ⟨ha, has⟩ := List.forall_mem_cons.mp h
    cases bs with
    | nil =>
      rw [equalRange, if_neg ha]
      rfl
    | cons b bs =>
      rw [List.map_cons, List.map_cons, List.isPrefixOf]
      by_cases hkey : key a = key b
      · rw [equalRange_cons_of_eq hkey, ih has, beq_iff_eq.mpr hkey, Bool.true_and]
      · rw [equalRange_cons_of_ne hkey, beq_eq_false_iff_ne.mpr hkey, Bool.false_and]

end Ranges
