import Mathlib

/-!
# The first match in a list of rules

A scan of a list of rules takes the first one that matches. The rules have a rank, and the scan is
right where it finds the matching rule of least rank. It is right in every order of the rules exactly
if no two of them match the same request.
-/

namespace FirstMatch

variable {ι α κ : Type} [LinearOrder κ] (rank : α → κ) (p : ι → α → Bool)

/-- The answer is a matching rule of least rank, or there is none. -/
def IsLeast (rules : List α) (x : ι) : Option α → Prop
  | none => ∀ a ∈ rules, p x a = false
  | some a => a ∈ rules ∧ p x a = true ∧ ∀ b ∈ rules, p x b = true → rank a ≤ rank b

def Overlap (a b : α) : Prop := ∃ x, p x a = true ∧ p x b = true

variable {rank p} {rules order : List α} {x : ι}

theorem isLeast_of_sorted (hperm : order.Perm rules)
    (hsorted : order.Pairwise fun a b => rank a ≤ rank b) :
    IsLeast rank p rules x (order.find? (p x)) := by
  cases h : order.find? (p x) with
  | none =>
    intro a ha
    rw [Bool.eq_false_iff]
    exact List.find?_eq_none.mp h a (hperm.mem_iff.mpr ha)
  | some a =>
    obtain ⟨hpa, front, rest, rfl, hfront⟩ := List.find?_eq_some_iff_append.mp h
    refine ⟨hperm.subset (by simp), hpa, ?_⟩
    intro b hb hpb
    have hmem : b ∈ front ++ a :: rest := hperm.mem_iff.mpr hb
    rw [List.mem_append, List.mem_cons] at hmem
    obtain hb | rfl | hb := hmem
    · have hno := hfront b hb
      rw [hpb] at hno
      exact absurd hno Bool.false_ne_true
    · exact le_rfl
    · exact (List.pairwise_cons.mp (List.pairwise_append.mp hsorted).2.1).1 b hb

theorem isLeast_of_disjoint (hperm : order.Perm rules)
    (hdisjoint : ∀ a ∈ rules, ∀ b ∈ rules, a ≠ b → ¬ Overlap p a b) :
    IsLeast rank p rules x (order.find? (p x)) := by
  cases h : order.find? (p x) with
  | none =>
    intro a ha
    rw [Bool.eq_false_iff]
    exact List.find?_eq_none.mp h a (hperm.mem_iff.mpr ha)
  | some a =>
    have ha : a ∈ rules := hperm.subset (List.mem_of_find?_eq_some h)
    have hpa : p x a = true := List.find?_some h
    refine ⟨ha, hpa, ?_⟩
    intro b hb hpb
    by_cases hab : a = b
    · rw [hab]
    · exact absurd ⟨x, hpa, hpb⟩ (hdisjoint a ha b hb hab)

theorem rank_le_of_overlap {a b : α} (ha : a ∈ rules) (hb : b ∈ rules) (hab : Overlap p a b)
    (hright : ∀ order : List α, order.Perm rules → ∀ x, IsLeast rank p rules x (order.find? (p x))) :
    rank a ≤ rank b := by
  obtain ⟨x, hpa, hpb⟩ := hab
  obtain ⟨front, rest, rfl⟩ := List.append_of_mem ha
  have hleast := hright (a :: (front ++ rest)) List.perm_middle.symm x
  rw [List.find?_cons_of_pos hpa] at hleast
  exact hleast.2.2 b hb hpb

/-- Where the ranks are different, every order is scanned right exactly if no two rules overlap. -/
theorem scanned_right_iff (hrank : ∀ a ∈ rules, ∀ b ∈ rules, rank a = rank b → a = b) :
    (∀ order : List α, order.Perm rules → ∀ x, IsLeast rank p rules x (order.find? (p x))) ↔
      ∀ a ∈ rules, ∀ b ∈ rules, a ≠ b → ¬ Overlap p a b := by
  constructor
  · intro hright a ha b hb hne hab
    have hba : Overlap p b a := hab.imp fun _ h => h.symm
    exact hne (hrank a ha b hb (le_antisymm (rank_le_of_overlap ha hb hab hright)
      (rank_le_of_overlap hb ha hba hright)))
  · intro hdisjoint order hperm x
    exact isLeast_of_disjoint hperm hdisjoint

end FirstMatch
