import Mathlib

/-!
# Occurrences of a text

The first occurrence of a text in another one, and the replacement of its occurrences from left to
right. Behind an occurrence that is replaced the next one is looked for in the rest of the original.
-/

namespace Occurrences

variable {α : Type} [DecidableEq α]

def find (sub s : List α) : Option ℕ := s.tails.findIdx? (sub.isPrefixOf ·)

/-- The text with the occurrences of `sub` replaced by `new`, where the first `skip` characters belong
to an occurrence that has been replaced. -/
def replaced (sub new : List α) : (skip : ℕ) → List α → List α
  | _, [] => []
  | skip + 1, _ :: s => replaced sub new skip s
  | 0, c :: s =>
    if sub.isPrefixOf (c :: s) then new ++ replaced sub new (sub.length - 1) s
    else c :: replaced sub new 0 s

variable {sub new s : List α} {k : ℕ}

theorem find_eq_none_iff : find sub s = none ↔ ¬ sub <:+: s := by
  rw [find, List.findIdx?_eq_none_iff, List.infix_iff_prefix_suffix, not_exists]
  simp only [List.mem_tails, Bool.eq_false_iff, ne_eq, List.isPrefixOf_iff_prefix, not_and]
  exact forall_congr' fun t => imp_not_comm

theorem find_eq_some_iff : find sub s = some k ↔
    k ≤ s.length ∧ sub <+: s.drop k ∧ ∀ j < k, ¬ sub <+: s.drop j := by
  rw [find, List.findIdx?_eq_some_iff_getElem]
  simp only [List.getElem_tails, List.length_tails, List.isPrefixOf_iff_prefix, exists_prop,
    Nat.lt_succ_iff]

theorem replaced_eq_drop (skip : ℕ) (s : List α) :
    replaced sub new skip s = replaced sub new 0 (s.drop skip) := by
  induction skip generalizing s with
  | zero => rw [List.drop_zero]
  | succ skip ih =>
    cases s with
    | nil => rw [replaced, List.drop_nil, replaced]
    | cons c s => rw [replaced, List.drop_succ_cons, ih]

theorem replaced_cons_of_not {c : α} (h : ¬ sub <+: c :: s) :
    replaced sub new 0 (c :: s) = c :: replaced sub new 0 s := by
  rw [replaced, if_neg]
  rw [List.isPrefixOf_iff_prefix]
  exact h

theorem replaced_of_isPrefix (hne : sub ≠ []) (h : sub <+: s) :
    replaced sub new 0 s = new ++ replaced sub new 0 (s.drop sub.length) := by
  cases s with
  | nil => exact absurd (List.prefix_nil.mp h) hne
  | cons c s =>
    have hlen : sub.length = sub.length - 1 + 1 :=
      (Nat.succ_pred_eq_of_pos (List.length_pos_iff.mpr hne)).symm
    rw [replaced, if_pos (List.isPrefixOf_iff_prefix.mpr h), replaced_eq_drop,
      ← List.drop_succ_cons (a := c), ← hlen]

theorem replaced_of_find (hne : sub ≠ []) (h : find sub s = some k) :
    replaced sub new 0 s = s.take k ++ new ++ replaced sub new 0 (s.drop (k + sub.length)) := by
  obtain ⟨-, hat, hfirst⟩ := find_eq_some_iff.mp h
  clear h
  induction k generalizing s with
  | zero =>
    rw [List.drop_zero] at hat
    rw [replaced_of_isPrefix hne hat, List.take_zero, List.nil_append, Nat.zero_add]
  | succ k ih =>
    have hhead := hfirst 0 (Nat.succ_pos k)
    rw [List.drop_zero] at hhead
    cases s with
    | nil =>
      rw [List.drop_nil] at hat
      exact absurd (List.prefix_nil.mp hat) hne
    | cons c s =>
      have hrest := ih (s := s) hat fun j hj => hfirst (j + 1) (Nat.succ_lt_succ hj)
      rw [replaced_cons_of_not hhead, hrest, List.take_succ_cons, List.cons_append,
        List.cons_append, Nat.add_right_comm, List.drop_succ_cons]

theorem replaced_of_absent (h : ¬ sub <:+: s) : replaced sub new 0 s = s := by
  induction s with
  | nil => rw [replaced]
  | cons c s ih =>
    have hhead : ¬ sub <+: c :: s := fun hsub => h hsub.isInfix
    have htail : ¬ sub <:+: s := fun hsub => h (hsub.trans (List.suffix_cons c s).isInfix)
    rw [replaced_cons_of_not hhead, ih htail]

end Occurrences
