import TrapHandler.HostStore
import TrapHandler.Runs
import TrapHandler.WordBits

/-!
# The status flags of a host

`Status` keeps the flags of a host as the bits of a number. A flag is set by a disjunction and
removed by an exclusive one, which adds a flag that is not there, and `isSet` asks for a disjunction
too, so it is true of every flag.
-/

namespace TrapHandler

open Runs WordBits

inductive StatusValue where
  | normal | mbLow | utilHigh | hbFailed | disabled
  deriving DecidableEq, Repr

namespace StatusValue

def toInt : StatusValue → Int32
  | normal => 0
  | mbLow => 1
  | utilHigh => 2
  | hbFailed => 4
  | disabled => 128

def bits (flag : StatusValue) : Set ℕ := WordBits.bits flag.toInt.toBitVec

theorem bits_eq_empty_iff (flag : StatusValue) : flag.bits = ∅ ↔ flag = normal := by
  rw [bits, WordBits.bits_eq_empty_iff]
  cases flag with
  | normal => exact iff_of_true rfl rfl
  | _ => exact iff_of_false (by decide) (by decide)

theorem bits_nonempty {flag : StatusValue} (h : flag ≠ normal) : flag.bits.Nonempty := by
  rw [Set.nonempty_iff_ne_empty, ne_eq, bits_eq_empty_iff]
  exact h

theorem not_subset_empty {flag : StatusValue} (h : flag ≠ normal) : ¬ flag.bits ⊆ ∅ := by
  rw [Set.subset_empty_iff, bits_eq_empty_iff]
  exact h

end StatusValue

namespace Status

def setFlag (flag : StatusValue) (s : Status) : Status :=
  let status := if flag = .normal then StatusValue.normal.toInt else s.status
  { status := status ||| flag.toInt }

def clearFlag (flag : StatusValue) (s : Status) : Status :=
  let status := if flag = .normal then StatusValue.normal.toInt else s.status
  { status := status ^^^ flag.toInt }

def isSet (flag : StatusValue) (s : Status) : Bool := s.status ||| flag.toInt != 0

def isNormal (s : Status) : Bool := s.status == StatusValue.normal.toInt

def clear (_ : Status) : Status := { status := StatusValue.normal.toInt }

inductive Call where
  | setFlag (flag : StatusValue)
  | clearFlag (flag : StatusValue)
  | clear

def call (s : Status) : Call → Status
  | .setFlag flag => s.setFlag flag
  | .clearFlag flag => s.clearFlag flag
  | .clear => s.clear

def bits (s : Status) : Set ℕ := WordBits.bits s.status.toBitVec

theorem bits_eq_empty_iff (s : Status) : s.bits = ∅ ↔ s.isNormal = true := by
  rw [bits, WordBits.bits_eq_empty_iff, isNormal, beq_iff_eq, ← Int32.toBitVec_inj]
  rfl

theorem bits_setFlag {flag : StatusValue} (h : flag ≠ .normal) (s : Status) :
    (s.setFlag flag).bits = s.bits ∪ flag.bits := by
  rw [bits, setFlag, if_neg h, Int32.toBitVec_or, bits_or]
  rfl

theorem bits_clearFlag {flag : StatusValue} (h : flag ≠ .normal) (s : Status) :
    (s.clearFlag flag).bits = symmDiff s.bits flag.bits := by
  rw [bits, clearFlag, if_neg h, Int32.toBitVec_xor, bits_xor]
  rfl

theorem isSet_of_ne_normal {flag : StatusValue} (h : flag ≠ .normal) (s : Status) :
    s.isSet flag = true := by
  have hunion : (s.bits ∪ flag.bits).Nonempty := (StatusValue.bits_nonempty h).inr
  rw [← bits_setFlag h, Set.nonempty_iff_ne_empty, bits, ne_eq,
    WordBits.bits_eq_empty_iff] at hunion
  rw [isSet, bne_iff_ne]
  intro hzero
  apply hunion
  rw [setFlag, if_neg h, hzero]
  rfl

def expect (tracked : Set ℕ) : Call → Set ℕ
  | .setFlag .normal => ∅
  | .setFlag flag => tracked ∪ flag.bits
  | .clearFlag .normal => ∅
  | .clearFlag flag => tracked \ flag.bits
  | .clear => ∅

structure Represents (tracked : Set ℕ) (s : Status) : Prop where
  isSet : ∀ flag, flag ≠ .normal → (s.isSet flag = true ↔ flag.bits ⊆ tracked)
  isNormal : s.isNormal = true ↔ tracked = ∅

/-- Every state of a run has the answers of the set of flags that the calls so far have left. -/
def BehavesAsSet (s : Status) (calls : List Call) : Prop :=
  ∀ pre, pre <+: calls → Represents (run expect s.bits pre) (run call s pre)

def Full (tracked : Set ℕ) : Prop := ∀ flag : StatusValue, flag ≠ .normal → flag.bits ⊆ tracked

theorem expect_setFlag {flag : StatusValue} (h : flag ≠ .normal) (tracked : Set ℕ) :
    expect tracked (.setFlag flag) = tracked ∪ flag.bits := by
  cases flag with
  | normal => exact absurd rfl h
  | _ => rfl

theorem expect_clearFlag {flag : StatusValue} (h : flag ≠ .normal) (tracked : Set ℕ) :
    expect tracked (.clearFlag flag) = tracked \ flag.bits := by
  cases flag with
  | normal => exact absurd rfl h
  | _ => rfl

theorem expect_subset {tracked : Set ℕ} {s : Status} (h : tracked ⊆ s.bits) (c : Call) :
    expect tracked c ⊆ (s.call c).bits := by
  cases c with
  | setFlag flag =>
    by_cases hflag : flag = .normal
    · rw [hflag]
      exact Set.empty_subset _
    · rw [expect_setFlag hflag, call, bits_setFlag hflag]
      exact Set.union_subset_union_left _ h
  | clearFlag flag =>
    by_cases hflag : flag = .normal
    · rw [hflag]
      exact Set.empty_subset _
    · rw [expect_clearFlag hflag, call, bits_clearFlag hflag]
      exact (Set.sdiff_subset_sdiff_left h).trans Set.subset_union_left
  | clear => exact Set.empty_subset _

theorem run_expect_subset (s : Status) (calls : List Call) :
    run expect s.bits calls ⊆ (run call s calls).bits := by
  induction calls using List.reverseRecOn with
  | nil => exact subset_rfl
  | append_singleton calls c ih =>
    rw [run_concat, run_concat]
    exact expect_subset ih c

theorem represents_iff {tracked : Set ℕ} {s : Status} (h : tracked ⊆ s.bits) :
    Represents tracked s ↔ Full tracked := by
  constructor
  · intro hrep flag hflag
    exact (hrep.isSet flag hflag).mp (isSet_of_ne_normal hflag s)
  · intro hfull
    constructor
    · intro flag hflag
      exact iff_of_true (isSet_of_ne_normal hflag s) (hfull flag hflag)
    · have hne : tracked ≠ ∅ := by
        intro hempty
        have hmbLow : StatusValue.mbLow ≠ .normal := by decide
        have hsub := hfull .mbLow hmbLow
        rw [hempty] at hsub
        exact StatusValue.not_subset_empty hmbLow hsub
      rw [← bits_eq_empty_iff]
      refine iff_of_false ?_ hne
      intro hempty
      rw [hempty, Set.subset_empty_iff] at h
      exact hne h

theorem not_full_empty : ¬ Full ∅ := by
  have hmbLow : StatusValue.mbLow ≠ .normal := by decide
  intro h
  exact StatusValue.not_subset_empty hmbLow (h .mbLow hmbLow)

theorem full_expect_iff {tracked : Set ℕ} (h : Full tracked) (c : Call) :
    Full (expect tracked c) ↔ ∃ flag, flag ≠ .normal ∧ c = .setFlag flag := by
  constructor
  · intro hfull
    cases c with
    | setFlag flag =>
      refine ⟨flag, ?_, rfl⟩
      rintro rfl
      exact not_full_empty hfull
    | clearFlag flag =>
      by_cases hflag : flag = .normal
      · rw [hflag] at hfull
        exact absurd hfull not_full_empty
      · rw [expect_clearFlag hflag] at hfull
        obtain ⟨i, hi⟩ := StatusValue.bits_nonempty hflag
        exact absurd hi (hfull flag hflag hi).2
    | clear => exact absurd hfull not_full_empty
  · rintro ⟨flag, hflag, rfl⟩
    rw [expect_setFlag hflag]
    intro other hother
    exact (h other hother).trans Set.subset_union_left

/-- A status behaves as a set of flags in all states of a run exactly if it starts with every flag
and each call sets one. -/
theorem behavesAsSet_iff (s : Status) (calls : List Call) :
    BehavesAsSet s calls ↔ (∀ flag : StatusValue, flag ≠ .normal → flag.bits ⊆ s.bits) ∧
      ∀ c ∈ calls, ∃ flag, flag ≠ .normal ∧ c = .setFlag flag := by
  have hfull : BehavesAsSet s calls ↔ ∀ pre, pre <+: calls → Full (run expect s.bits pre) := by
    refine forall₂_congr ?_
    intro pre _
    exact represents_iff (run_expect_subset s pre)
  have hruns : Full s.bits → ((∀ pre, pre <+: calls → Full (run expect s.bits pre)) ↔
      AtEach (fun _ c => ∃ flag, flag ≠ .normal ∧ c = .setFlag flag) calls) := by
    intro h
    exact good_iff (I := fun _ => True) trivial (fun _ _ _ => trivial) h
      (fun _ c _ ht => full_expect_iff ht c) calls
  rw [hfull, ← atEach_const]
  constructor
  · intro h
    have hstart : Full s.bits := h [] List.nil_prefix
    exact ⟨hstart, (hruns hstart).mp h⟩
  · rintro ⟨hstart, hcalls⟩
    exact (hruns hstart).mpr hcalls

theorem not_behavesAsSet_default : ¬ BehavesAsSet {} [] := by
  have hmbLow : StatusValue.mbLow ≠ .normal := by decide
  have hbits : bits {} = ∅ := (bits_eq_empty_iff _).mpr rfl
  intro h
  have hset := (h [] List.nil_prefix).isSet .mbLow hmbLow
  rw [run_nil, run_nil, hbits] at hset
  exact StatusValue.not_subset_empty hmbLow (hset.mp (isSet_of_ne_normal hmbLow _))

end Status

end TrapHandler
