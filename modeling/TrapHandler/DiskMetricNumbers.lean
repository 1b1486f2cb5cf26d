import TrapHandler.EventLayouts

/-!
# The numbers of a disk metric

The two sizes are read by `_wcstoi64`, which skips white space, stops at the first character that is
no digit, and returns the nearest limit for a number out of range. Only that last case is refused.
-/

namespace TrapHandler

open CSnmpTrap

/-- The integer a text is, with or without a sign; `none` for every other text. -/
def integerOf : WStr → Option ℤ
  | [] => none
  | c :: rest =>
    let digits := if c = 0x2D ∨ c = 0x2B then rest else c :: rest
    if digits ≠ [] ∧ digits.all isDigit = true then
      some (if c = 0x2D then -(unsignedNumber digits : ℤ) else unsignedNumber digits)
    else none

def InRange (n : ℤ) : Prop := I64_MIN < n ∧ n < I64_MAX

instance (n : ℤ) : Decidable (InRange n) := inferInstanceAs (Decidable (_ ∧ _))

def IsSize (s : WStr) : Prop := ∃ n, integerOf s = some n ∧ InRange n

/-- The call returns true exactly if both texts are integers between the limits, and has read those
integers then. -/
def NumbersRight (self : DiskMetricEvent) (trap : CSnmpTrap) (size free : WStr) : Prop :=
  ∃ r e, self.parseTrap trap = some ⟨some r, e⟩ ∧ (r = true ↔ IsSize size ∧ IsSize free) ∧
    (r = true → integerOf size = some e.fsSizeMb ∧ integerOf free = some e.availableSpaceMb)

theorem isSpace_eq_false_of_isDigit {c : WChar} (h : isDigit c = true) : isSpace c = false := by
  rw [isDigit, Bool.and_eq_true, decide_eq_true_eq, decide_eq_true_eq, UInt16.le_iff_toNat_le,
    UInt16.le_iff_toNat_le] at h
  have hlow : 48 ≤ c.toNat := h.1
  have hblank : ¬ c = 0x20 := by
    rintro rfl
    exact absurd hlow (by decide)
  have hcontrol : ¬ c ≤ 0x0D := by
    rw [UInt16.le_iff_toNat_le]
    change ¬ c.toNat ≤ 13
    omega
  rw [isSpace, beq_eq_false_iff_ne.mpr hblank, decide_eq_false hcontrol, Bool.and_false,
    Bool.or_false]

theorem leadingNumber_of_integerOf {s : WStr} {n : ℤ} (h : integerOf s = some n) :
    leadingNumber s = n := by
  cases s with
  | nil => cases h
  | cons c rest =>
    simp only [integerOf] at h
    split_ifs at h with hsign hdigits hminus hdigits hminus
    · obtain rfl := Option.some.inj h
      rw [hminus]
      rfl
    · obtain rfl := Option.some.inj h
      rw [hsign.resolve_left hminus]
      rfl
    · exact absurd (.inl hminus) hsign
    · obtain rfl := Option.some.inj h
      have hdigit := hdigits.2
      rw [List.all_cons, Bool.and_eq_true] at hdigit
      have hspace : ¬ isSpace c = true := by
        rw [isSpace_eq_false_of_isDigit hdigit.1]
        exact Bool.false_ne_true
      obtain ⟨hminus, hplus⟩ := not_or.mp hsign
      rw [leadingNumber, List.dropWhile_cons_of_neg hspace]
      simp only [beq_iff_eq, hminus, hplus, if_false]

theorem wcstoi64_limit_iff (s : WStr) :
    wcstoi64 s = I64_MAX ∨ wcstoi64 s = I64_MIN ↔ ¬ InRange (leadingNumber s) := by
  rw [wcstoi64, InRange, I64_MAX, I64_MIN]
  omega

theorem wcstoi64_of_inRange {s : WStr} (h : InRange (leadingNumber s)) :
    wcstoi64 s = leadingNumber s := by
  rw [InRange, I64_MAX, I64_MIN] at h
  rw [wcstoi64, I64_MAX, I64_MIN]
  omega

variable {trap : CSnmpTrap} {host volume size free : WStr}

theorem diskMetric_returned (self : DiskMetricEvent)
    (h : HasStringArgs trap [host, volume, size, free]) :
    ∃ e, self.parseTrap trap =
        some ⟨some (decide (InRange (leadingNumber (cstr size)) ∧
          InRange (leadingNumber (cstr free)))), e⟩ ∧
      e.fsSizeMb = wcstoi64 (cstr size) ∧ e.availableSpaceMb = wcstoi64 (cstr free) := by
  have hlimits : (wcstoi64 (cstr size) = I64_MAX ∨ wcstoi64 (cstr size) = I64_MIN ∨
      wcstoi64 (cstr free) = I64_MAX ∨ wcstoi64 (cstr free) = I64_MIN) ↔
      ¬ (InRange (leadingNumber (cstr size)) ∧ InRange (leadingNumber (cstr free))) := by
    rw [← or_assoc, wcstoi64_limit_iff, wcstoi64_limit_iff, not_and_or]
  have hresult : (!decide (wcstoi64 (cstr size) = I64_MAX ∨ wcstoi64 (cstr size) = I64_MIN ∨
      wcstoi64 (cstr free) = I64_MAX ∨ wcstoi64 (cstr free) = I64_MIN)) =
      decide (InRange (leadingNumber (cstr size)) ∧ InRange (leadingNumber (cstr free))) := by
    rw [← decide_not, decide_eq_decide, hlimits, not_not]
  have hparse := diskMetric_short self h
  rw [hresult] at hparse
  exact ⟨_, hparse, rfl, rfl⟩

/-- The numbers of a disk metric are right exactly if both texts are integers, or one of them starts
with a number that is not between the limits. -/
theorem numbersRight_iff (self : DiskMetricEvent)
    (h : HasStringArgs trap [host, volume, size, free]) :
    NumbersRight self trap (cstr size) (cstr free) ↔
      ((integerOf (cstr size)).isSome = true ∧ (integerOf (cstr free)).isSome = true) ∨
        ¬ InRange (leadingNumber (cstr size)) ∨ ¬ InRange (leadingNumber (cstr free)) := by
  obtain ⟨e, hparse, hsize, hfree⟩ := diskMetric_returned self h
  constructor
  · rintro ⟨r, e', hparse', hresult, hread⟩
    obtain ⟨hr, rfl⟩ := Parsed.mk.inj (Option.some.inj (hparse.symm.trans hparse'))
    obtain rfl := Option.some.inj hr
    by_cases hin : InRange (leadingNumber (cstr size)) ∧ InRange (leadingNumber (cstr free))
    · obtain ⟨hsize', hfree'⟩ := hread (decide_eq_true hin)
      exact .inl ⟨Option.isSome_of_eq_some hsize', Option.isSome_of_eq_some hfree'⟩
    · exact .inr (not_and_or.mp hin)
  · intro hcond
    have hread : InRange (leadingNumber (cstr size)) ∧ InRange (leadingNumber (cstr free)) →
        integerOf (cstr size) = some (leadingNumber (cstr size)) ∧
          integerOf (cstr free) = some (leadingNumber (cstr free)) := by
      intro hin
      obtain ⟨hn, hm⟩ := hcond.resolve_right (not_or_intro (not_not_intro hin.1)
        (not_not_intro hin.2))
      obtain ⟨n, hn⟩ := Option.isSome_iff_exists.mp hn
      obtain ⟨m, hm⟩ := Option.isSome_iff_exists.mp hm
      rw [leadingNumber_of_integerOf hn, leadingNumber_of_integerOf hm]
      exact ⟨hn, hm⟩
    refine ⟨_, e, hparse, ?_, ?_⟩
    · rw [decide_eq_true_iff]
      constructor
      · intro hin
        obtain ⟨hn, hm⟩ := hread hin
        exact ⟨⟨_, hn, hin.1⟩, ⟨_, hm, hin.2⟩⟩
      · rintro ⟨⟨n, hn, hnRange⟩, ⟨m, hm, hmRange⟩⟩
        rw [leadingNumber_of_integerOf hn, leadingNumber_of_integerOf hm]
        exact ⟨hnRange, hmRange⟩
    · intro htrue
      have hin := of_decide_eq_true htrue
      rw [hsize, hfree, wcstoi64_of_inRange hin.1, wcstoi64_of_inRange hin.2]
      exact hread hin

/-- Eleven thousand of which eight thousand are free. -/
theorem numbersRight_volumeSample :
    NumbersRight {} (stringTrap volumeSample) (wcs "11000") (wcs "8000") :=
  (numbersRight_iff {} (hasStringArgs_stringTrap volumeSample)).mpr
    (.inl ⟨by decide, by decide⟩)

/-- A size with a unit behind it is read as its number. -/
theorem unitSample_not_numbersRight :
    ¬ NumbersRight {} (stringTrap [wcs "osi1112", wcs "volumename", wcs "11G", wcs "8000"])
      (wcs "11G") (wcs "8000") := by
  obtain ⟨e, hparse, _, _⟩ := diskMetric_returned {} (hasStringArgs_stringTrap
    [wcs "osi1112", wcs "volumename", wcs "11G", wcs "8000"])
  have haccepted : decide (InRange (leadingNumber (cstr (wcs "11G"))) ∧
      InRange (leadingNumber (cstr (wcs "8000")))) = true := by decide
  have hnone : integerOf (wcs "11G") = none := by decide
  rintro ⟨r, e', hparse', _, hread⟩
  obtain ⟨hr, _⟩ := Parsed.mk.inj (Option.some.inj (hparse.symm.trans hparse'))
  rw [haccepted] at hr
  obtain ⟨hsize, _⟩ := hread (Option.some.inj hr).symm
  rw [hnone] at hsize
  cases hsize

end TrapHandler
