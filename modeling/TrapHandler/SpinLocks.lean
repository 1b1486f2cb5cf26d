import Mathlib.Data.Set.Basic

/-!
# Spin locks

A lock is a 32-bit word that is 1 while somebody is inside and 0 otherwise. Entering exchanges a 0
for a 1 in one step, and leaving subtracts 1. `Guarded` relates the word to who is inside: it is kept
by every step that enters, leaves or does neither, for any number of parties.
-/

namespace SpinLocks

variable {κ : Type} {inside inside' : κ → Prop} {x : Int32} {i : κ}

/-- `InterlockedCompareExchange(&x, 1, 0)`: the word afterwards, if it was 0. -/
def tryEnter (x : Int32) : Option Int32 := if x = 0 then some 1 else none

/-- `InterlockedDecrement(&x)` -/
def leave (x : Int32) : Int32 := x - 1

structure Guarded (inside : κ → Prop) (x : Int32) : Prop where
  exclusive : ∀ i j, inside i → inside j → i = j
  free : x = 0 → ∀ i, ¬ inside i
  taken : x ≠ 0 → x = 1 ∧ ∃ i, inside i

namespace Guarded

theorem keep (h : Guarded inside x) (hsame : ∀ j, inside' j ↔ inside j) : Guarded inside' x := by
  obtain rfl : inside' = inside := funext fun j => propext (hsame j)
  exact h

theorem enter (h : Guarded inside x) {y : Int32} (hx : tryEnter x = some y) (hi : inside' i)
    (hrest : ∀ j, j ≠ i → (inside' j ↔ inside j)) : Guarded inside' y := by
  unfold tryEnter at hx
  split_ifs at hx with hzero
  obtain rfl := Option.some.inj hx
  have honly : ∀ j, inside' j → j = i := by
    intro j hj
    by_contra hne
    exact h.free hzero j ((hrest j hne).mp hj)
  refine ⟨?_, ?_, ?_⟩
  · intro j k hj hk
    rw [honly j hj, honly k hk]
  · intro hone
    exact absurd hone (by decide)
  · intro _
    exact ⟨rfl, i, hi⟩

theorem leave (h : Guarded inside x) (hi : inside i) (hi' : ¬ inside' i)
    (hrest : ∀ j, j ≠ i → (inside' j ↔ inside j)) : Guarded inside' (leave x) := by
  have hne : x ≠ 0 := fun hzero => h.free hzero i hi
  obtain ⟨rfl, _⟩ := h.taken hne
  have hnone : ∀ j, ¬ inside' j := by
    intro j hj
    by_cases hji : j = i
    · rw [hji] at hj
      exact hi' hj
    · exact hji (h.exclusive j i ((hrest j hji).mp hj) hi)
  refine ⟨?_, ?_, ?_⟩
  · intro j k hj
    exact absurd hj (hnone j)
  · intro _
    exact hnone
  · intro hzero
    exact absurd rfl hzero

theorem not_inside (h : Guarded inside x) {j : κ} (hi : inside i) (hj : j ≠ i) : ¬ inside j :=
  fun hinside => hj (h.exclusive j i hinside hi)

end Guarded

end SpinLocks
