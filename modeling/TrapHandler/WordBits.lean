import Mathlib

/-!
# The bits of a word

A word of flags stands for the set of the numbers of its bits. The operations on words are those on
sets, with the exclusive disjunction as the symmetric difference.
-/

namespace WordBits

variable {w : ℕ} {u v : BitVec w}

def bits (v : BitVec w) : Set ℕ := {i | v.getLsbD i = true}

theorem mem_bits {i : ℕ} : i ∈ bits v ↔ v.getLsbD i = true := Iff.rfl

@[simp] theorem bits_zero : bits (0#w) = ∅ := by
  ext i
  rw [mem_bits, BitVec.getLsbD_zero]
  exact iff_of_false Bool.false_ne_true (Set.notMem_empty i)

theorem bits_injective : Function.Injective (@bits w) := by
  intro u v h
  apply BitVec.eq_of_getLsbD_eq
  intro i _
  rw [Bool.eq_iff_iff, ← mem_bits, ← mem_bits, h]

theorem bits_eq_empty_iff : bits v = ∅ ↔ v = 0#w := by
  rw [← @bits_zero w, bits_injective.eq_iff]

theorem bits_or (u v : BitVec w) : bits (u ||| v) = bits u ∪ bits v := by
  ext i
  rw [mem_bits, BitVec.getLsbD_or, Bool.or_eq_true, Set.mem_union, mem_bits, mem_bits]

theorem bits_xor (u v : BitVec w) : bits (u ^^^ v) = symmDiff (bits u) (bits v) := by
  ext i
  rw [mem_bits, BitVec.getLsbD_xor, Set.mem_symmDiff, mem_bits, mem_bits]
  cases u.getLsbD i with
  | false => simp
  | true => simp

end WordBits
