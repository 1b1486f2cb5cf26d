import Mathlib

/-!
# Smearing the bits of a word

A word is or-ed with shifted copies of itself until each bit below its highest one is set. Each round
adds the width of its shift to the number of places from which a bit is set, and one less than the
power of two above the word is left.
-/

namespace BitSmears

variable {w n k : ℕ} {v u : BitVec w}

/-- A bit of `u` is set exactly if `v` has one among the `n` places from there on. -/
def Smeared (n : ℕ) (v u : BitVec w) : Prop :=
  ∀ i, u.getLsbD i = true ↔ ∃ j < n, v.getLsbD (i + j) = true

theorem smeared_one (v : BitVec w) : Smeared 1 v v := by
  intro i
  constructor
  · intro hi
    exact ⟨0, Nat.one_pos, hi⟩
  · rintro ⟨j, hj, hbit⟩
    rw [Nat.lt_one_iff.mp hj] at hbit
    exact hbit

theorem Smeared.or_shift (h : Smeared n v u) (hk : k ≤ n) : Smeared (n + k) v (u ||| u >>> k) := by
  intro i
  rw [BitVec.getLsbD_or, Bool.or_eq_true, BitVec.getLsbD_ushiftRight, h i, h (k + i)]
  constructor
  · intro hcases
    rcases hcases with ⟨j, hj, hbit⟩ | ⟨j, hj, hbit⟩
    · exact ⟨j, by omega, hbit⟩
    · refine ⟨k + j, by omega, ?_⟩
      rw [← Nat.add_assoc, Nat.add_comm i k]
      exact hbit
  · rintro ⟨j, hj, hbit⟩
    by_cases hlow : j < n
    · exact .inl ⟨j, hlow, hbit⟩
    · refine .inr ⟨j - k, by omega, ?_⟩
      have hplace : k + i + (j - k) = i + j := by omega
      rw [hplace]
      exact hbit

theorem Smeared.toNat (h : Smeared w v u) : u.toNat = 2 ^ v.toNat.size - 1 := by
  apply Nat.eq_of_testBit_eq
  intro i
  rw [Nat.testBit_two_pow_sub_one, Bool.eq_iff_iff, decide_eq_true_iff, Nat.lt_size,
    BitVec.testBit_toNat, h i]
  constructor
  · rintro ⟨j, _, hbit⟩
    rw [← BitVec.testBit_toNat] at hbit
    exact (Nat.pow_le_pow_right Nat.two_pos (Nat.le_add_right i j)).trans
      (Nat.ge_two_pow_of_testBit hbit)
  · intro hle
    obtain ⟨j, hj, hbit⟩ := Nat.exists_ge_and_testBit_of_ge_two_pow hle
    rw [BitVec.testBit_toNat] at hbit
    have hlt : j < w := BitVec.lt_of_getLsbD hbit
    refine ⟨j - i, by omega, ?_⟩
    rw [Nat.add_sub_cancel' hj]
    exact hbit

end BitSmears
