import Mathlib

/-!
# Definite-length basic encoding rules

Big-endian numerals in an arbitrary base, and the pieces of the basic encoding rules that are built
from them: length fields in short and long form, tag-length-content elements, minimal non-negative
integers and object identifiers. Lengths are relations, because a sender may choose the form of each
length field; contents are functions.
-/

namespace Ber

/-- Value of a big-endian numeral in base `B` whose digits are read by `digit`. -/
def horner (B : ℕ) (digit : UInt8 → ℕ) (bs : List UInt8) : ℕ :=
  bs.foldl (fun v b => v * B + digit b) 0

/-- The `k` low digits of `n` in base `B`, most significant first, written by `byte`. -/
def digits (B : ℕ) (byte : ℕ → UInt8) : ℕ → ℕ → List UInt8
  | 0, _ => []
  | k + 1, n => digits B byte k (n / B) ++ [byte (n % B)]

variable {B : ℕ} {digit : UInt8 → ℕ} {byte : ℕ → UInt8}

@[simp] theorem horner_nil : horner B digit [] = 0 := rfl

@[simp] theorem horner_concat (bs : List UInt8) (b : UInt8) :
    horner B digit (bs ++ [b]) = horner B digit bs * B + digit b := by
  simp [horner]

@[simp] theorem length_digits (k n : ℕ) : (digits B byte k n).length = k := by
  induction k generalizing n with
  | zero => rfl
  | succ k ih => simp [digits, ih]

theorem horner_lt (hdigit : ∀ b, digit b < B) (bs : List UInt8) :
    horner B digit bs < B ^ bs.length := by
  induction bs using List.reverseRecOn with
  | nil => simp
  | append_singleton bs b ih =>
    rw [horner_concat, List.length_append, List.length_singleton, pow_succ]
    have hb := hdigit b
    calc
      _ < horner B digit bs * B + B := by omega
      _ = (horner B digit bs + 1) * B := by ring
      _ ≤ _ := Nat.mul_le_mul_right B ih

theorem horner_digits (hbyte : ∀ d, d < B → digit (byte d) = d) (hB : 0 < B) (k n : ℕ) :
    horner B digit (digits B byte k n) = n % B ^ k := by
  induction k generalizing n with
  | zero => simp [digits, Nat.mod_one]
  | succ k ih =>
    rw [digits, horner_concat, ih, hbyte _ (Nat.mod_lt n hB), pow_succ', Nat.mod_mul]
    ring

/-- A machine accumulator that adds one digit modulo `M` ends with the numeral modulo `M`. -/
theorem foldl_eq_horner_mod {α : Type} {M : ℕ} (val : α → ℕ) (step : α → UInt8 → α) (v : α)
    (hv : val v = 0) (hstep : ∀ v b, val (step v b) = (val v * B + digit b) % M)
    (bs : List UInt8) : val (bs.foldl step v) = horner B digit bs % M := by
  induction bs using List.reverseRecOn with
  | nil => simp [hv]
  | append_singleton bs b ih =>
    rw [List.foldl_append, List.foldl_cons, List.foldl_nil, hstep, ih, horner_concat,
      Nat.add_mod, Nat.mod_mul_mod, ← Nat.add_mod]

def octetsValue (bs : List UInt8) : ℕ := horner 256 UInt8.toNat bs

/-- `n` as `k` octets. -/
def octets (k n : ℕ) : List UInt8 := digits 256 UInt8.ofNat k n

@[simp] theorem length_octets (k n : ℕ) : (octets k n).length = k := length_digits k n

theorem octetsValue_lt (bs : List UInt8) : octetsValue bs < 256 ^ bs.length :=
  horner_lt UInt8.toNat_lt bs

theorem octetsValue_octets (k n : ℕ) (hn : n < 256 ^ k) : octetsValue (octets k n) = n := by
  rw [octetsValue, octets, horner_digits (fun d hd => UInt8.toNat_ofNat_of_lt' hd) (by decide)]
  exact Nat.mod_eq_of_lt hn

/-- A length field for `n`: short form, or long form with one to four octets. -/
def IsLength (n : ℕ) (ls : List UInt8) : Prop :=
  (n < 128 ∧ ls = [UInt8.ofNat n]) ∨
    ∃ k, 1 ≤ k ∧ k ≤ 4 ∧ n < 256 ^ k ∧ ls = UInt8.ofNat (128 + k) :: octets k n

/-- Any definite length field for `n`. The long form may begin with octets of zero. -/
def IsDefiniteLength (n : ℕ) (ls : List UInt8) : Prop :=
  (n < 128 ∧ ls = [UInt8.ofNat n]) ∨
    ∃ ds, 1 ≤ ds.length ∧ ds.length ≤ 127 ∧ octetsValue ds = n ∧
      ls = UInt8.ofNat (128 + ds.length) :: ds

theorem IsLength.isDefiniteLength {n : ℕ} {ls : List UInt8} (h : IsLength n ls) :
    IsDefiniteLength n ls := by
  obtain hshort | ⟨k, hk, hk4, hn, rfl⟩ := h
  · exact .inl hshort
  · refine .inr ⟨octets k n, ?_, ?_, octetsValue_octets k n hn, ?_⟩
    · rw [length_octets]
      exact hk
    · rw [length_octets]
      omega
    · rw [length_octets]

def shortestLength (n : ℕ) : List UInt8 :=
  if n < 128 then [UInt8.ofNat n]
  else UInt8.ofNat (128 + (n.log2 / 8 + 1)) :: octets (n.log2 / 8 + 1) n

def IsShortestLength (n : ℕ) (ls : List UInt8) : Prop := ls = shortestLength n

theorem lt_pow_of_log2_lt {n k : ℕ} (h : n.log2 < k) : n < 2 ^ k := by
  rcases Nat.eq_zero_or_pos n with rfl | hn
  · exact Nat.two_pow_pos k
  · exact (Nat.log2_lt hn.ne').mp h

theorem IsShortestLength.isLength {n : ℕ} {ls : List UInt8} (h : IsShortestLength n ls)
    (hn : n < 2 ^ 32) : IsLength n ls := by
  rw [IsShortestLength, shortestLength] at h
  split_ifs at h with hshort
  · exact .inl ⟨hshort, h⟩
  · have hlog : n.log2 < 32 := (Nat.log2_lt (by omega)).mpr hn
    refine .inr ⟨n.log2 / 8 + 1, by omega, by omega, ?_, h⟩
    rw [show (256 : ℕ) = 2 ^ 8 by norm_num, ← pow_mul]
    exact lt_pow_of_log2_lt (by omega)

theorem IsShortestLength.eq_short {n : ℕ} {ls : List UInt8} (h : IsShortestLength n ls)
    (hn : n < 128) : ls = [UInt8.ofNat n] := by
  rw [h, shortestLength, if_pos hn]

/-- An element with the given tag and content, its length field one that `length` allows. -/
def IsElement (length : ℕ → List UInt8 → Prop) (tag : UInt8) (content bs : List UInt8) : Prop :=
  ∃ ls, length content.length ls ∧ bs = tag :: (ls ++ content)

theorem isElement_short {tag : UInt8} {content : List UInt8} (h : content.length < 128) :
    IsElement IsLength tag content (tag :: UInt8.ofNat content.length :: content) :=
  ⟨[UInt8.ofNat content.length], .inl ⟨h, rfl⟩, rfl⟩

theorem isElement_shortest {tag : UInt8} {content : List UInt8} (h : content.length < 128) :
    IsElement IsShortestLength tag content (tag :: UInt8.ofNat content.length :: content) := by
  refine ⟨[UInt8.ofNat content.length], ?_, rfl⟩
  rw [IsShortestLength, shortestLength, if_pos h]

theorem IsElement.content_le {length : ℕ → List UInt8 → Prop} {tag : UInt8}
    {content bs : List UInt8} (h : IsElement length tag content bs) :
    content.length < bs.length := by
  obtain ⟨ls, _, rfl⟩ := h
  simp only [List.length_cons, List.length_append]
  omega

/-- The fewest octets that hold `n` with the sign bit clear. -/
def integerWidth (n : ℕ) : ℕ := (n.log2 + 1) / 8 + 1

def integerOctets (n : ℕ) : List UInt8 := octets (integerWidth n) n

@[simp] theorem length_integerOctets (n : ℕ) : (integerOctets n).length = integerWidth n :=
  length_octets _ n

theorem integerWidth_le_iff {n k : ℕ} (hk : 1 ≤ k) :
    integerWidth n ≤ k ↔ n < 2 ^ (8 * k - 1) := by
  rcases Nat.eq_zero_or_pos n with rfl | hn
  · simp only [integerWidth, Nat.log2_zero]
    exact ⟨fun _ => Nat.two_pow_pos _, fun _ => hk⟩
  · rw [← Nat.log2_lt hn.ne', integerWidth]
    omega

theorem octetsValue_integerOctets (n : ℕ) : octetsValue (integerOctets n) = n := by
  refine octetsValue_octets _ n ?_
  have h := (integerWidth_le_iff (n := n) (k := integerWidth n) (by simp [integerWidth])).mp le_rfl
  calc
    n < 2 ^ (8 * integerWidth n - 1) := h
    _ ≤ 2 ^ (8 * integerWidth n) := Nat.pow_le_pow_right (by decide) (Nat.sub_le _ 1)
    _ = 256 ^ integerWidth n := by rw [pow_mul]; norm_num

/-- The fewest octets that hold `v` in two's complement. -/
def signedWidth (v : ℤ) : ℕ := integerWidth (if v < 0 then (-v - 1).toNat else v.toNat)

def signedOctets (v : ℤ) : List UInt8 := octets (signedWidth v) (v % 256 ^ signedWidth v).toNat

@[simp] theorem length_signedOctets (v : ℤ) : (signedOctets v).length = signedWidth v :=
  length_octets _ _

theorem signedWidth_pos (v : ℤ) : 1 ≤ signedWidth v := Nat.le_add_left 1 _

theorem signedWidth_le_iff {v : ℤ} {k : ℕ} (hk : 1 ≤ k) :
    signedWidth v ≤ k ↔ -2 ^ (8 * k - 1) ≤ v ∧ v < 2 ^ (8 * k - 1) := by
  have hpos : (0 : ℤ) < 2 ^ (8 * k - 1) := by positivity
  rw [signedWidth, integerWidth_le_iff hk]
  zify
  by_cases hv : v < 0
  · rw [if_pos hv, Int.toNat_of_nonneg (by omega)]
    omega
  · rw [if_neg hv, Int.toNat_of_nonneg (by omega)]
    omega

theorem octetsValue_signedOctets (v : ℤ) :
    (octetsValue (signedOctets v) : ℤ) = v % 256 ^ signedWidth v := by
  have hpos : (0 : ℤ) < 256 ^ signedWidth v := by positivity
  have hnonneg := Int.emod_nonneg v hpos.ne'
  have hlt := Int.emod_lt_of_pos v hpos
  rw [signedOctets, octetsValue_octets]
  · exact Int.toNat_of_nonneg hnonneg
  · zify
    rw [Int.toNat_of_nonneg hnonneg]
    exact hlt

theorem octetsValue_signedOctets_eq (v : ℤ) :
    (octetsValue (signedOctets v) : ℤ) = if v < 0 then v + 256 ^ signedWidth v else v := by
  have hbounds := (signedWidth_le_iff (signedWidth_pos v)).mp le_rfl
  have hpow : (2 : ℤ) ^ (8 * signedWidth v - 1) ≤ 256 ^ signedWidth v := by
    rw [show (256 : ℤ) = 2 ^ 8 by norm_num, ← pow_mul]
    exact pow_le_pow_right₀ (by norm_num) (Nat.sub_le _ _)
  rw [octetsValue_signedOctets]
  split_ifs with hv
  · rw [← Int.add_emod_right, Int.emod_eq_of_lt]
    · omega
    · omega
  · rw [Int.emod_eq_of_lt]
    · omega
    · omega

/-- The low seven bits of each octet, most significant first. -/
def septetsValue (bs : List UInt8) : ℕ := horner 128 (fun b => b.toNat % 128) bs

/-- A sub-identifier: septets with the continuation bit set on all but the last. -/
def subIdentifier (n : ℕ) : List UInt8 :=
  digits 128 (fun d => UInt8.ofNat (d + 128)) (n.log2 / 7) (n / 128) ++ [UInt8.ofNat (n % 128)]

/-- Content octets of the object identifier `a.b.rest`. -/
def oidOctets (a b : ℕ) (rest : List ℕ) : List UInt8 :=
  subIdentifier (40 * a + b) ++ rest.flatMap subIdentifier

theorem toNat_continued {d : ℕ} (hd : d < 128) : (UInt8.ofNat (d + 128)).toNat = d + 128 :=
  UInt8.toNat_ofNat_of_lt' (show d + 128 < 256 by omega)

theorem septetsValue_subIdentifier (n : ℕ) : septetsValue (subIdentifier n) = n := by
  rw [septetsValue, subIdentifier, horner_concat, horner_digits
    (fun d hd => by rw [toNat_continued hd]; omega) (by decide),
    UInt8.toNat_ofNat_of_lt' (show n % 128 < 256 by omega), Nat.mod_eq_of_lt]
  · omega
  · rw [Nat.div_lt_iff_lt_mul (by decide), show (128 : ℕ) = 2 ^ 7 by norm_num, ← pow_mul, ← pow_add]
    exact lt_pow_of_log2_lt (by omega)

theorem mem_digits {k n : ℕ} {b : UInt8} (h : b ∈ digits B byte k n) (hB : 0 < B) :
    ∃ d, d < B ∧ b = byte d := by
  induction k generalizing n with
  | zero => simp [digits] at h
  | succ k ih =>
    rw [digits, List.mem_append, List.mem_singleton] at h
    rcases h with h | h
    · exact ih h
    · exact ⟨n % B, Nat.mod_lt n hB, h⟩

end Ber
