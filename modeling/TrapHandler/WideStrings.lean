import Mathlib

/-!
# Wide strings

Code units of the 16-bit `wchar_t`, wide string literals, and the C view of a stored array as the
text in front of its first terminator.
-/

namespace TrapHandler

abbrev WChar := UInt16

abbrev WStr := List WChar

/-- The wide string literal `L"..."`. -/
def wcs (s : String) : WStr := s.toList.map (fun c => c.toNat.toUInt16)

/-- The text a `const wchar_t*` to this array stands for. -/
def cstr (w : WStr) : WStr := w.takeWhile (· ≠ 0)

def isDigit (c : WChar) : Bool := 0x30 ≤ c && c ≤ 0x39

def isAlnum (c : WChar) : Bool :=
  isDigit c || (0x41 ≤ c && c ≤ 0x5A) || (0x61 ≤ c && c ≤ 0x7A)

/-- `iswspace` on the characters below 128. -/
def isSpace (c : WChar) : Bool := c == 0x20 || (0x09 ≤ c && c ≤ 0x0D)

def unsignedNumber (s : WStr) : ℕ :=
  (s.takeWhile isDigit).foldl (fun v c => v * 10 + (c - 0x30).toNat) 0

/-- White space, a sign and digits at the front of a text. -/
def leadingNumber (s : WStr) : ℤ :=
  match s.dropWhile isSpace with
  | [] => 0
  | c :: rest =>
    if c == 0x2D then -(unsignedNumber rest : ℤ)
    else if c == 0x2B then unsignedNumber rest
    else unsignedNumber (c :: rest)

def I64_MAX : ℤ := 2 ^ 63 - 1

def I64_MIN : ℤ := -2 ^ 63

/-- `_wcstoi64(s, nullptr, 10)`; a number out of range becomes the nearest limit. -/
def wcstoi64 (s : WStr) : ℤ := max I64_MIN (min I64_MAX (leadingNumber s))

/-- `_wtoi(s)`. -/
def wtoi (s : WStr) : ℤ := max (-2 ^ 31) (min (2 ^ 31 - 1) (leadingNumber s))

def toLower (c : WChar) : WChar := if 0x41 ≤ c && c ≤ 0x5A then c + 0x20 else c

/-- `_wcsicmp(s, t) == 0`. -/
def wcsicmpEq (s t : WStr) : Bool := s.map toLower == t.map toLower

/-- `%u`. -/
def decimal (n : ℕ) : WStr := (Nat.toDigits 10 n).map (fun c => c.toNat.toUInt16)

theorem toNat_of_mem_toDigits {n : ℕ} {d : Char} (h : d ∈ Nat.toDigits 10 n) :
    48 ≤ d.toNat ∧ d.toNat ≤ 57 := by
  have hdigit := Nat.isDigit_of_mem_toDigits (by decide) (by decide) h
  rw [Char.isDigit, Bool.and_eq_true, decide_eq_true_eq, decide_eq_true_eq] at hdigit
  exact hdigit

theorem toNat_toUInt16_of_mem_toDigits {n : ℕ} {d : Char} (h : d ∈ Nat.toDigits 10 n) :
    d.toNat.toUInt16.toNat = d.toNat := by
  obtain ⟨_, hhigh⟩ := toNat_of_mem_toDigits h
  exact UInt16.toNat_ofNat_of_lt' (show d.toNat < 2 ^ 16 by omega)

theorem isDigit_of_mem_decimal {n : ℕ} {c : WChar} (h : c ∈ decimal n) : isDigit c = true := by
  obtain ⟨d, hd, rfl⟩ := List.mem_map.mp h
  rw [isDigit, Bool.and_eq_true, decide_eq_true_eq, decide_eq_true_eq, UInt16.le_iff_toNat_le,
    UInt16.le_iff_toNat_le, toNat_toUInt16_of_mem_toDigits hd]
  exact toNat_of_mem_toDigits hd

theorem decimal_injective : Function.Injective decimal := by
  intro m n h
  have hread : ∀ k, (decimal k).map (fun c => Char.ofNat c.toNat) = Nat.toDigits 10 k := by
    intro k
    rw [decimal, List.map_map]
    refine (List.map_congr_left ?_).trans (List.map_id _)
    intro d hd
    rw [Function.comp_apply, toNat_toUInt16_of_mem_toDigits hd, Char.ofNat_toNat, id]
  calc
    m = Nat.ofDigitChars 10 (Nat.toDigits 10 m) 0 := Nat.ofDigitChars_ten_toDigits.symm
    _ = Nat.ofDigitChars 10 (Nat.toDigits 10 n) 0 := by rw [← hread, ← hread, h]
    _ = n := Nat.ofDigitChars_ten_toDigits

theorem length_decimal_le_iff {n k : ℕ} (h : 0 < k) : (decimal n).length ≤ k ↔ n < 10 ^ k := by
  rw [decimal, List.length_map]
  exact Nat.length_toDigits_le_iff (by decide) h

theorem notMem_decimal {c : WChar} (hc : isDigit c = false) (n : ℕ) : c ∉ decimal n := by
  intro h
  rw [isDigit_of_mem_decimal h] at hc
  cases hc

/-- `_itow(value, tmpStr, 10)`. -/
def itow (value : Int32) : WStr :=
  if value < 0 then 0x2D :: decimal value.toInt.natAbs else decimal value.toInt.natAbs

/-- `%I64i`. -/
def i64tow (value : Int64) : WStr :=
  if value < 0 then 0x2D :: decimal value.toInt.natAbs else decimal value.toInt.natAbs

/-- Widening of the signed 8-bit `char`. -/
def charToWChar (b : UInt8) : WChar := b.toInt8.toInt16.toUInt16

theorem charToWChar_of_lt {b : UInt8} (hb : b < 128) : charToWChar b = b.toUInt16 := by
  have all : ∀ n : Fin 128, charToWChar (UInt8.ofNat n) = (UInt8.ofNat n).toUInt16 := by decide
  have h := all ⟨b.toNat, hb⟩
  rwa [UInt8.ofNat_toNat] at h

end TrapHandler
