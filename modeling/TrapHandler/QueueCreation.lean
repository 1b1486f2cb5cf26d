import TrapHandler.BitSmears
import TrapHandler.QueueInvariant

/-!
# The constructor of the reader-writer queue

`ceilToPow2` gives the least power of two that is not below its argument. The constructor links as
many empty blocks as `maxSize` elements can need while the consumer stands in one of them.
-/

namespace Moodycamel

open Linearizability CircularChains BitSmears

variable {α : Type}

theorem clog_eq_size {n : ℕ} (hn : 0 < n) : Nat.clog 2 n = (n - 1).size := by
  apply le_antisymm
  · rw [Nat.clog_le_iff_le_pow Nat.one_lt_two]
    have hlt := Nat.lt_size_self (n - 1)
    omega
  · rw [Nat.size_le]
    have hle := Nat.le_pow_clog Nat.one_lt_two n
    omega

/-- `ceilToPow2` is the least power of two above its argument, and zero where there is none in 64 bits
and for zero. -/
theorem ceilToPow2_toNat (x : BitVec 64) :
    (ceilToPow2 x).toNat
      = if 0 < x.toNat ∧ x.toNat ≤ 2 ^ 63 then 2 ^ Nat.clog 2 x.toNat else 0 := by
  obtain ⟨u, hu⟩ : ∃ u, ceilToPow2 x = u + 1 ∧ Smeared 64 (x - 1) u := by
    refine ⟨_, rfl, ?_⟩
    have h₁ := (smeared_one (x - 1)).or_shift (le_refl 1)
    have h₂ := h₁.or_shift (le_refl 2)
    have h₄ := h₂.or_shift (le_refl 4)
    have h₈ := h₄.or_shift (le_refl 8)
    have h₁₆ := h₈.or_shift (le_refl 16)
    exact h₁₆.or_shift (le_refl 32)
  have htoNat := hu.2.toNat
  have hlt := x.isLt
  rw [hu.1, BitVec.toNat_add, htoNat]
  by_cases hzero : x.toNat = 0
  · have hx : x = 0#64 := BitVec.eq_of_toNat_eq hzero
    subst hx
    decide
  · have hsub : (x - 1).toNat = x.toNat - 1 := by
      rw [BitVec.toNat_sub]
      have hone : (1 : BitVec 64).toNat = 1 := rfl
      rw [hone]
      omega
    have hpos : 0 < 2 ^ (x.toNat - 1).size := Nat.two_pow_pos _
    have hsum : 2 ^ (x.toNat - 1).size - 1 + (1 : BitVec 64).toNat = 2 ^ (x.toNat - 1).size := by
      have hone : (1 : BitVec 64).toNat = 1 := rfl
      rw [hone]
      omega
    rw [hsub, hsum]
    by_cases hle : x.toNat ≤ 2 ^ 63
    · rw [if_pos ⟨Nat.pos_of_ne_zero hzero, hle⟩, clog_eq_size (Nat.pos_of_ne_zero hzero)]
      apply Nat.mod_eq_of_lt
      have hsize : (x.toNat - 1).size ≤ 63 := by
        rw [Nat.size_le]
        omega
      exact (Nat.pow_le_pow_right Nat.two_pos hsize).trans_lt (by decide)
    · have hsize : (x.toNat - 1).size = 64 := by
        apply le_antisymm
        · rw [Nat.size_le]
          omega
        · rw [Nat.succ_le_iff, Nat.lt_size]
          omega
      rw [if_neg (fun hboth => hle hboth.2), hsize]
      exact Nat.mod_self _

theorem reserve_apply (size n i : ℕ) (hi : i < n) :
    (reserve size n i : Block α)
      = { makeBlock size with next := some (if i + 1 = n then 0 else i + 1) } := by
  induction n with
  | zero => omega
  | succ n ih =>
    unfold reserve
    by_cases hlast : i = n
    · subst hlast
      rw [Function.update_self, if_pos rfl]
    · have hlt : i < n := by omega
      rw [Function.update_of_ne hlast, if_neg (by omega), if_neg (by omega)]
      by_cases hbefore : i = n - 1
      · have hn : n - 1 + 1 = n := by omega
        rw [hbefore, Function.update_self, ← hbefore, ih hlt, hbefore, hn]
      · rw [Function.update_of_ne hbefore, ih hlt, if_neg (by omega)]

theorem ring_reserve {size n : ℕ} (hn : 0 < n) :
    Ring (fun b => (reserve size n b : Block α).next) (0 :: List.range' 1 (n - 1)) := by
  have hrange : 0 :: List.range' 1 (n - 1) = List.range n := by
    obtain ⟨n, rfl⟩ := Nat.exists_eq_succ_of_ne_zero hn.ne'
    rw [List.range_eq_range', List.range'_succ]
    rfl
  rw [hrange]
  refine ⟨List.nodup_range, ?_⟩
  rw [List.isChain_iff_getElem]
  intro i hi
  have hhead : (List.range n).head?.toList = [0] := by
    rw [← hrange]
    rfl
  have hlen : i + 1 < n + 1 := by
    have hlength := hi
    rw [List.length_append, hhead, List.length_range, List.length_singleton] at hlength
    exact hlength
  have hleft : (List.range n ++ (List.range n).head?.toList)[i] = i := by
    rw [List.getElem_append_left (by rw [List.length_range]; omega), List.getElem_range]
  rw [hleft, reserve_apply size n i (by omega)]
  by_cases hlast : i + 1 = n
  · have hright : (List.range n ++ (List.range n).head?.toList)[i + 1] = 0 := by
      rw [List.getElem_append_right (by rw [List.length_range]; omega)]
      simp [hhead]
    rw [hright]
    simp only [if_pos hlast]
  · have hright : (List.range n ++ (List.range n).head?.toList)[i + 1] = i + 1 := by
      rw [List.getElem_append_left (by rw [List.length_range]; omega), List.getElem_range]
    rw [hright]
    simp only [if_neg hlast]

theorem valid_reserve {maxSize n k : ℕ} (hn : 0 < n)
    (henough : maxSize ≤ max 1 (n - 1) * (2 ^ (k + 1) - 1)) :
    Valid maxSize (2 ^ (k + 1) - 1)
      (⟨⟨reserve (2 ^ (k + 1)) n, n, 0, 0, 2 ^ (k + 1)⟩, .idle, .idle, []⟩ : System α)
      ⟨[], List.range' 1 (n - 1), fun _ => [], fun _ => {Status.idle}⟩ := by
  have hpos : 0 < 2 ^ (k + 1) := Nat.two_pow_pos _
  have hmem : ∀ b, b ∈ (0 :: [] ++ List.range' 1 (n - 1)) → b < n := by
    intro b hb
    rw [List.cons_append, List.nil_append, List.mem_cons, List.mem_range'_1] at hb
    omega
  constructor
  · exact ring_reserve hn
  · exact hmem
  · rfl
  · intro b hb
    dsimp only
    rw [reserve_apply _ n b (hmem b hb)]
    exact Sound.makeBlock.set_next _
  · exact fun _ _ => rfl
  · intro b hb
    cases hb
  · intro b hb
    cases hb
  · refine ⟨?_, ?_, ⟨k, rfl⟩, ?_⟩
    · intro b hb
      dsimp only
      rw [reserve_apply _ n b (hmem b hb)]
      exact le_rfl
    · rw [List.length_range', List.length_nil, Nat.zero_add]
      exact henough
    · dsimp only
      omega
  · rfl
  · rfl
  · exact Explains.start

theorem enough_blocks {maxBlockSize : ℕ} (maxSize : ℕ) (hblock : 2 ≤ maxBlockSize) :
    maxSize ≤ (initialBlockCount maxBlockSize maxSize - 1) * (maxBlockSize - 1) ∧
      0 < initialBlockCount maxBlockSize maxSize := by
  have hpos : 0 < maxBlockSize - 1 := by omega
  have hcount : initialBlockCount maxBlockSize maxSize
      = (maxSize + (maxBlockSize - 2)) / (maxBlockSize - 1) + 1 := by
    have hsum : maxSize + maxBlockSize * 2 - 3
        = maxSize + (maxBlockSize - 2) + (maxBlockSize - 1) := by omega
    rw [initialBlockCount, hsum, Nat.add_div_right _ hpos]
  rw [hcount, Nat.add_sub_cancel]
  refine ⟨?_, Nat.succ_pos _⟩
  have hdiv := Nat.div_add_mod (maxSize + (maxBlockSize - 2)) (maxBlockSize - 1)
  have hmod := Nat.mod_lt (maxSize + (maxBlockSize - 2)) hpos
  rw [Nat.mul_comm] at hdiv
  omega

theorem exists_valid_initial {maxBlockSize maxSize k : ℕ} (hblock : maxBlockSize = 2 ^ (k + 1))
    (hpos : 0 < maxSize) (hsize : maxSize + 1 ≤ 2 ^ 63) :
    ∃ m v, Valid maxSize m (System.initial maxBlockSize maxSize : System α) v := by
  have htoNat : (BitVec.ofNat 64 (maxSize + 1)).toNat = maxSize + 1 := by
    rw [BitVec.toNat_ofNat, Nat.mod_eq_of_lt (by omega)]
  have hceil := ceilToPow2_toNat (BitVec.ofNat 64 (maxSize + 1))
  rw [htoNat, if_pos ⟨Nat.succ_pos _, hsize⟩] at hceil
  by_cases hmany : maxBlockSize * 2 < (ceilToPow2 (BitVec.ofNat 64 (maxSize + 1))).toNat
  · have htwo : 2 ≤ maxBlockSize := by
      have hk : 0 < 2 ^ k := Nat.two_pow_pos k
      rw [hblock, pow_succ]
      omega
    obtain ⟨henough, hcount⟩ := enough_blocks maxSize htwo
    have hcreate : (create maxBlockSize maxSize : Queue α)
        = ⟨reserve maxBlockSize (initialBlockCount maxBlockSize maxSize),
          initialBlockCount maxBlockSize maxSize, 0, 0, maxBlockSize⟩ := if_pos hmany
    refine ⟨2 ^ (k + 1) - 1, ⟨[], List.range' 1 (initialBlockCount maxBlockSize maxSize - 1),
      fun _ => [], fun _ => {Status.idle}⟩, ?_⟩
    unfold System.initial
    rw [hcreate, hblock]
    apply valid_reserve
    · rw [← hblock]
      exact hcount
    · rw [← hblock]
      exact henough.trans (Nat.mul_le_mul_right _ (Nat.le_max_right _ _))
  · obtain ⟨c, hc⟩ : ∃ c, Nat.clog 2 (maxSize + 1) = c + 1 :=
      Nat.exists_eq_succ_of_ne_zero (Nat.clog_pos Nat.one_lt_two (by omega)).ne'
    have hcreate : (create maxBlockSize maxSize : Queue α)
        = ⟨reserve (2 ^ (c + 1)) 1, 1, 0, 0, 2 ^ (c + 1)⟩ := by
      rw [← hc, ← hceil]
      exact if_neg hmany
    refine ⟨2 ^ (c + 1) - 1, ⟨[], List.range' 1 0, fun _ => [], fun _ => {Status.idle}⟩, ?_⟩
    unfold System.initial
    rw [hcreate]
    apply valid_reserve Nat.one_pos
    have hle := Nat.le_pow_clog Nat.one_lt_two (maxSize + 1)
    rw [hc] at hle
    rw [Nat.sub_self, Nat.max_eq_left (Nat.zero_le 1), Nat.one_mul]
    omega

end Moodycamel
