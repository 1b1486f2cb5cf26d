import Mathlib

/-!
# Ring buffers

The cells of a ring buffer are counted from a start index around the end. `Layout` says which
entries the cells hold from there on; a cell behind the last entry is free, and so is one whose entry
has been taken out.
-/

namespace RingBuffers

variable {α : Type} {data : List (Option α)} {start n : ℕ} {entries : List (Option α)}

theorem add_mod_eq_self_iff {a c : ℕ} (ha : a < n) (hc : c ≤ n) :
    (a + c) % n = a ↔ c = 0 ∨ c = n := by
  by_cases hlt : a + c < n
  · rw [Nat.mod_eq_of_lt hlt]
    omega
  · have hsub : (a + c) % n = a + c - n := by
      rw [Nat.mod_eq_sub_mod (Nat.le_of_not_lt hlt), Nat.mod_eq_of_lt (by omega)]
    rw [hsub]
    omega

theorem add_mod_inj {a i j : ℕ} (hi : i < n) (hj : j < n)
    (heq : (a + i) % n = (a + j) % n) : i = j := by
  have hmod : i ≡ j [MOD n] := Nat.ModEq.add_left_cancel' a heq
  exact Nat.ModEq.eq_of_lt_of_lt hmod hi hj

theorem and_mask {mask k : ℕ} (hmask : mask + 1 = 2 ^ k) (x : ℕ) : x &&& mask = x % (mask + 1) := by
  have hsub : mask = 2 ^ k - 1 := by omega
  rw [hmask, hsub]
  exact Nat.and_two_pow_sub_one_eq_mod x k

structure Layout (data : List (Option α)) (start : ℕ) (entries : List (Option α)) : Prop where
  start_lt : start < data.length
  length_le : entries.length ≤ data.length
  cells : ∀ i < data.length, data[(start + i) % data.length]? = some entries[i]?.join

namespace Layout

theorem empty (hstart : start < n) : Layout (List.replicate n (none : Option α)) start [] := by
  constructor
  · rw [List.length_replicate]
    exact hstart
  · exact Nat.zero_le _
  · intro i _
    have hlt : (start + i) % (List.replicate n (none : Option α)).length < n := by
      rw [List.length_replicate]
      exact Nat.mod_lt _ (by omega)
    rw [List.getElem?_replicate, if_pos hlt]
    rfl

theorem head {e : Option α} (h : Layout data start (e :: entries)) : data[start]? = some e := by
  have hlen := h.start_lt
  have hcell := h.cells 0 (by omega)
  rw [Nat.add_zero, Nat.mod_eq_of_lt h.start_lt] at hcell
  exact hcell

theorem next_free (h : Layout data start entries) (hroom : entries.length < data.length) :
    data[(start + entries.length) % data.length]? = some none := by
  rw [h.cells _ hroom, List.getElem?_eq_none le_rfl]
  rfl

theorem construct (h : Layout data start entries) (hroom : entries.length < data.length) (x : α) :
    Layout (data.set ((start + entries.length) % data.length) (some x)) start
      (entries ++ [some x]) := by
  constructor
  · rw [List.length_set]
    exact h.start_lt
  · rw [List.length_set, List.length_append]
    exact hroom
  · intro i hi
    rw [List.length_set] at hi ⊢
    have hlt : (start + i) % data.length < data.length := Nat.mod_lt _ (by omega)
    by_cases heq : i = entries.length
    · subst heq
      rw [List.getElem?_set_self hlt, List.getElem?_concat_length]
      rfl
    · have hne : (start + entries.length) % data.length ≠ (start + i) % data.length :=
        fun hmod => heq (add_mod_inj hroom hi hmod).symm
      rw [List.getElem?_set_ne hne, h.cells i hi]
      by_cases hin : i < entries.length
      · rw [List.getElem?_append_left hin]
      · rw [List.getElem?_eq_none (by omega), List.getElem?_eq_none]
        rw [List.length_append, List.length_singleton]
        omega

theorem replace_head {e : Option α} (h : Layout data start (e :: entries)) (e' : Option α) :
    Layout (data.set start e') start (e' :: entries) := by
  constructor
  · rw [List.length_set]
    exact h.start_lt
  · rw [List.length_set]
    exact h.length_le
  · intro i hi
    rw [List.length_set] at hi ⊢
    cases i with
    | zero =>
      rw [Nat.add_zero, Nat.mod_eq_of_lt h.start_lt, List.getElem?_set_self h.start_lt]
      rfl
    | succ i =>
      have hne : start ≠ (start + (i + 1)) % data.length := by
        intro hmod
        have hcases := (add_mod_eq_self_iff h.start_lt hi.le).mp hmod.symm
        omega
      rw [List.getElem?_set_ne hne, h.cells (i + 1) hi]
      rfl

theorem drop_head (h : Layout data start (none :: entries)) :
    Layout data ((start + 1) % data.length) entries := by
  have hlen := h.length_le
  rw [List.length_cons] at hlen
  have hpos : 0 < data.length := by omega
  constructor
  · exact Nat.mod_lt _ hpos
  · omega
  · intro i hi
    have hshift : ((start + 1) % data.length + i) % data.length
        = (start + (i + 1)) % data.length := by
      rw [Nat.mod_add_mod, Nat.add_assoc, Nat.add_comm 1 i]
    rw [hshift]
    by_cases hlast : i + 1 = data.length
    · have hwrap : (start + (i + 1)) % data.length = start := by
        rw [hlast, Nat.add_mod_right, Nat.mod_eq_of_lt h.start_lt]
      rw [hwrap, h.head, List.getElem?_eq_none (by omega)]
      rfl
    · rw [h.cells (i + 1) (by omega), List.getElem?_cons_succ]

end Layout

end RingBuffers
