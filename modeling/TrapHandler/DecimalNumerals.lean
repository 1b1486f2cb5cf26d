import TrapHandler.Scanners
import TrapHandler.WideStrings

/-!
# Decimal numerals

The number that a text of digits stands for, in natural numbers and in the unsigned arithmetic of a
parser, and that the printed numeral stands for the number it was printed from.
-/

namespace TrapHandler

open Scanners

variable {c : WChar}

theorem isDigit_iff : isDigit c = true ↔ 48 ≤ c.toNat ∧ c.toNat ≤ 57 := by
  rw [isDigit, Bool.and_eq_true, decide_eq_true_eq, decide_eq_true_eq, UInt16.le_iff_toNat_le,
    UInt16.le_iff_toNat_le]
  rfl

theorem isSpace_iff : isSpace c = true ↔ c.toNat = 32 ∨ 9 ≤ c.toNat ∧ c.toNat ≤ 13 := by
  rw [isSpace, Bool.or_eq_true, beq_iff_eq, Bool.and_eq_true, decide_eq_true_eq,
    decide_eq_true_eq, UInt16.le_iff_toNat_le, UInt16.le_iff_toNat_le, ← UInt16.toNat_inj]
  rfl

theorem not_isSpace_of_isDigit (h : isDigit c = true) : isSpace c = false := by
  rw [Bool.eq_false_iff, ne_eq, isSpace_iff]
  rw [isDigit_iff] at h
  omega

theorem ne_of_isDigit {d : WChar} (h : isDigit c = true) (hd : isDigit d = false) : c ≠ d := by
  rintro rfl
  rw [h] at hd
  cases hd

theorem toNat_sub_zero (h : isDigit c = true) : (c - 0x30).toNat = c.toNat - 48 := by
  have hle : (0x30 : WChar) ≤ c := UInt16.le_iff_toNat_le.mpr (isDigit_iff.mp h).1
  exact UInt16.toNat_sub_of_le _ _ hle

def digitsValue (s : WStr) : ℕ := s.foldl (fun v c => v * 10 + (c - 0x30).toNat) 0

theorem foldl_map_toUInt16 {l : List Char} (h : ∀ d ∈ l, 48 ≤ d.toNat ∧ d.toNat ≤ 57) (v : ℕ) :
    (l.map (fun d => d.toNat.toUInt16)).foldl (fun v c => v * 10 + (c - 0x30).toNat) v =
      Nat.ofDigitChars 10 l v := by
  induction l generalizing v with
  | nil => rfl
  | cons d l ih =>
    obtain ⟨⟨hlow, hhigh⟩, hl⟩ := List.forall_mem_cons.mp h
    have hd : d.toNat.toUInt16.toNat = d.toNat :=
      UInt16.toNat_ofNat_of_lt' (show d.toNat < 2 ^ 16 by omega)
    have hdigit : isDigit d.toNat.toUInt16 = true := by
      rw [isDigit_iff, hd]
      exact ⟨hlow, hhigh⟩
    rw [List.map_cons, List.foldl_cons, ih hl, Nat.ofDigitChars_cons, toNat_sub_zero hdigit, hd,
      Nat.mul_comm]
    rfl

theorem digitsValue_decimal (n : ℕ) : digitsValue (decimal n) = n := by
  rw [digitsValue, decimal, foldl_map_toUInt16 fun _ hd => toNat_of_mem_toDigits hd]
  exact Nat.ofDigitChars_ten_toDigits

theorem decimal_ne_nil (n : ℕ) : decimal n ≠ [] := by
  rw [decimal, ne_eq, List.map_eq_nil_iff]
  exact Nat.toDigits_ne_nil

/-- In unsigned arithmetic the number is found up to a multiple of `2 ^ 32`. -/
theorem foldl_uint32 (s : WStr) :
    s.foldl (fun v c => v * 10 + (c - 0x30).toUInt32) 0 = UInt32.ofNat (digitsValue s) := by
  induction s using List.reverseRecOn with
  | nil => rfl
  | append_singleton s c ih =>
    have hc : (c - 0x30).toUInt32 = UInt32.ofNat (c - 0x30).toNat := by
      rw [← UInt32.toNat_inj, UInt16.toNat_toUInt32, UInt32.toNat_ofNat_of_lt']
      exact (c - 0x30).toNat_lt.trans (by decide)
    rw [digitsValue, List.foldl_concat, List.foldl_concat, ih, hc, UInt32.ofNat_add,
      UInt32.ofNat_mul]
    rfl

theorem unsignedNumber_decimal {rest : WStr} (n : ℕ) (hrest : Stops isDigit rest) :
    unsignedNumber (decimal n ++ rest) = n := by
  rw [unsignedNumber, takeWhile_append_stops (fun _ hc => isDigit_of_mem_decimal hc) hrest]
  exact digitsValue_decimal n

end TrapHandler
