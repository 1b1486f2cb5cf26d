import Mathlib

/-!
# The calendar

A moment of the Gregorian calendar has a number of milliseconds since the year 0. Counting keeps the
order of the moments: year before month, month before day, and so on down to the milliseconds.
-/

namespace Calendar

theorem strictMonoOn_start_add {α : Type} [LinearOrder α] {S : Set α} {start len : α → ℕ}
    (h : ∀ a ∈ S, ∀ b ∈ S, a < b → start a + len a ≤ start b) :
    StrictMonoOn (fun p : α ×ₗ ℕ => start (ofLex p).1 + (ofLex p).2)
      {p | (ofLex p).1 ∈ S ∧ (ofLex p).2 < len (ofLex p).1} := by
  rintro p ⟨hp, hplen⟩ q ⟨hq, _⟩ hlt
  rcases Prod.Lex.lt_iff.mp hlt with hblock | ⟨hblock, hplace⟩
  · have hle := h _ hp _ hq hblock
    change start (ofLex p).1 + (ofLex p).2 < start (ofLex q).1 + (ofLex q).2
    omega
  · change start (ofLex p).1 + (ofLex p).2 < start (ofLex q).1 + (ofLex q).2
    rw [hblock]
    exact Nat.add_lt_add_left hplace _

/-- A count is carried on in blocks of `n`. -/
def countOn {α : Type} (f : α → ℕ) (n : ℕ) (p : α ×ₗ ℕ) : ℕ := f (ofLex p).1 * n + (ofLex p).2

def Within {α : Type} (S : Set α) (n : ℕ) : Set (α ×ₗ ℕ) := {p | (ofLex p).1 ∈ S ∧ (ofLex p).2 < n}

theorem toLex_mem_within {α : Type} {S : Set α} {n k : ℕ} {a : α} (ha : a ∈ S) (hk : k < n) :
    toLex (a, k) ∈ Within S n := ⟨ha, hk⟩

theorem strictMonoOn_countOn {α : Type} [LinearOrder α] {S : Set α} {f : α → ℕ}
    (hf : StrictMonoOn f S) (n : ℕ) : StrictMonoOn (countOn f n) (Within S n) := by
  refine @strictMonoOn_start_add α _ S (fun a => f a * n) (fun _ => n) ?_
  intro a ha b hb hlt
  have hsucc : f a + 1 ≤ f b := hf ha hb hlt
  calc
    f a * n + n = (f a + 1) * n := (Nat.succ_mul (f a) n).symm
    _ ≤ f b * n := Nat.mul_le_mul_right n hsucc

def IsLeap (y : ℕ) : Prop := 4 ∣ y ∧ (¬ 100 ∣ y ∨ 400 ∣ y)

instance (y : ℕ) : Decidable (IsLeap y) := by
  unfold IsLeap
  exact inferInstance

def daysInMonth (y : ℕ) : ℕ → ℕ
  | 2 => if IsLeap y then 29 else 28
  | 4 | 6 | 9 | 11 => 30
  | _ => 31

def daysInYear (y : ℕ) : ℕ := if IsLeap y then 366 else 365

def multiplesBelow (n y : ℕ) : ℕ := (y + (n - 1)) / n

/-- The days of the years from 0 up to `y`. -/
def daysBeforeYear (y : ℕ) : ℕ :=
  365 * y + (multiplesBelow 4 y - multiplesBelow 100 y) + multiplesBelow 400 y

def daysBeforeMonth (y m : ℕ) : ℕ := ∑ k ∈ Finset.Ico 1 m, daysInMonth y k

theorem multiplesBelow_succ {n : ℕ} (hn : 0 < n) (y : ℕ) :
    multiplesBelow n (y + 1) = multiplesBelow n y + if n ∣ y then 1 else 0 := by
  have hlast : y + 1 + (n - 1) = y + (n - 1) + 1 := by omega
  have hdvd : n ∣ y + (n - 1) + 1 ↔ n ∣ y := by
    have hadd : y + (n - 1) + 1 = y + n := by omega
    rw [hadd]
    exact Nat.dvd_add_self_right
  rw [multiplesBelow, hlast, Nat.succ_div, multiplesBelow]
  simp only [hdvd]

theorem multiplesBelow_le (y : ℕ) : multiplesBelow 100 y ≤ multiplesBelow 4 y := by
  unfold multiplesBelow
  omega

theorem daysBeforeYear_succ (y : ℕ) :
    daysBeforeYear (y + 1) = daysBeforeYear y + daysInYear y := by
  have hle := multiplesBelow_le y
  have h4 : 100 ∣ y → 4 ∣ y := fun h => dvd_trans (by decide) h
  have h100 : 400 ∣ y → 100 ∣ y := fun h => dvd_trans (by decide) h
  unfold daysBeforeYear daysInYear IsLeap
  rw [multiplesBelow_succ (by decide), multiplesBelow_succ (by decide),
    multiplesBelow_succ (by decide)]
  by_cases hfour : 4 ∣ y
  · by_cases hhundred : 100 ∣ y
    · by_cases hall : 400 ∣ y
      · simp only [hfour, hhundred, hall, if_true, not_true, or_true, and_self]
        omega
      · simp only [hfour, hhundred, hall, if_true, if_false, not_true, or_false, and_false]
        omega
    · have hall : ¬ 400 ∣ y := fun h => hhundred (h100 h)
      simp only [hfour, hhundred, hall, if_true, if_false, not_false_eq_true, true_or, and_self]
      omega
  · have hhundred : ¬ 100 ∣ y := fun h => hfour (h4 h)
    have hall : ¬ 400 ∣ y := fun h => hhundred (h100 h)
    simp only [hfour, hhundred, hall, if_false, false_and]
    omega

theorem daysBeforeYear_mono : Monotone daysBeforeYear := by
  apply monotone_nat_of_le_succ
  intro y
  rw [daysBeforeYear_succ]
  exact Nat.le_add_right _ _

theorem daysBeforeMonth_succ (y : ℕ) {m : ℕ} (h : 1 ≤ m) :
    daysBeforeMonth y (m + 1) = daysBeforeMonth y m + daysInMonth y m :=
  Finset.sum_Ico_succ_top h (daysInMonth y)

theorem daysBeforeMonth_mono (y : ℕ) : Monotone (daysBeforeMonth y) := by
  intro m n hle
  exact Finset.sum_le_sum_of_subset (Finset.Ico_subset_Ico_right hle)

theorem daysBeforeMonth_last (y : ℕ) : daysBeforeMonth y 13 = daysInYear y := by
  have hsum : daysBeforeMonth y 13 = 337 + daysInMonth y 2 := by
    simp [daysBeforeMonth, Finset.sum_Ico_succ_top, daysInMonth]
    omega
  rw [hsum, daysInYear, daysInMonth]
  split_ifs
  · rfl
  · rfl

theorem month_le {y m y' m' : ℕ} (hm : m ∈ Set.Icc 1 12)
    (hlt : y < y' ∨ (y = y' ∧ m < m')) :
    daysBeforeYear y + daysBeforeMonth y m + daysInMonth y m ≤
      daysBeforeYear y' + daysBeforeMonth y' m' := by
  have hend := daysBeforeMonth_succ y hm.1
  rcases hlt with hyear | ⟨rfl, hmonth⟩
  · have hlast : daysBeforeMonth y (m + 1) ≤ daysBeforeMonth y 13 :=
      daysBeforeMonth_mono y (Nat.succ_le_succ hm.2)
    have hnext : daysBeforeYear (y + 1) ≤ daysBeforeYear y' := daysBeforeYear_mono hyear
    rw [daysBeforeMonth_last] at hlast
    rw [daysBeforeYear_succ] at hnext
    omega
  · have hlast : daysBeforeMonth y (m + 1) ≤ daysBeforeMonth y m' := daysBeforeMonth_mono y hmonth
    omega

structure Moment where
  year : ℕ
  month : ℕ
  day : ℕ
  hour : ℕ
  minute : ℕ
  second : ℕ
  millisecond : ℕ
  deriving DecidableEq, Repr

namespace Moment

structure Valid (t : Moment) : Prop where
  month : t.month ∈ Set.Icc 1 12
  day : t.day ∈ Set.Icc 1 (daysInMonth t.year t.month)
  hour : t.hour < 24
  minute : t.minute < 60
  second : t.second < 60
  millisecond : t.millisecond < 1000

theorem valid_iff (t : Moment) : t.Valid ↔
    (1 ≤ t.month ∧ t.month ≤ 12) ∧ (1 ≤ t.day ∧ t.day ≤ daysInMonth t.year t.month) ∧
      t.hour < 24 ∧ t.minute < 60 ∧ t.second < 60 ∧ t.millisecond < 1000 := by
  constructor
  · rintro ⟨hmonth, hday, hhour, hminute, hsecond, hmillisecond⟩
    exact ⟨hmonth, hday, hhour, hminute, hsecond, hmillisecond⟩
  · rintro ⟨hmonth, hday, hhour, hminute, hsecond, hmillisecond⟩
    exact ⟨hmonth, hday, hhour, hminute, hsecond, hmillisecond⟩

instance (t : Moment) : Decidable t.Valid := decidable_of_iff' _ t.valid_iff

/-- The year and the month of a moment, and the days of the month before it. -/
def date (t : Moment) : (ℕ ×ₗ ℕ) ×ₗ ℕ := toLex (toLex (t.year, t.month), t.day - 1)

/-- The parts of a moment in the order in which they are compared. -/
def key (t : Moment) : (((((ℕ ×ₗ ℕ) ×ₗ ℕ) ×ₗ ℕ) ×ₗ ℕ) ×ₗ ℕ) ×ₗ ℕ :=
  toLex (toLex (toLex (toLex (t.date, t.hour), t.minute), t.second), t.millisecond)

def daysBefore (p : (ℕ ×ₗ ℕ) ×ₗ ℕ) : ℕ :=
  daysBeforeYear (ofLex (ofLex p).1).1 +
    daysBeforeMonth (ofLex (ofLex p).1).1 (ofLex (ofLex p).1).2 + (ofLex p).2

def Dates : Set ((ℕ ×ₗ ℕ) ×ₗ ℕ) :=
  {p | (ofLex p).1 ∈ {q : ℕ ×ₗ ℕ | (ofLex q).2 ∈ Set.Icc 1 12} ∧
    (ofLex p).2 < daysInMonth (ofLex (ofLex p).1).1 (ofLex (ofLex p).1).2}

def milliseconds (t : Moment) : ℕ :=
  countOn (countOn (countOn (countOn daysBefore 24) 60) 60) 1000 t.key

theorem strictMonoOn_daysBefore : StrictMonoOn daysBefore Dates := by
  refine @strictMonoOn_start_add (ℕ ×ₗ ℕ) _ {q | (ofLex q).2 ∈ Set.Icc 1 12}
    (fun q => daysBeforeYear (ofLex q).1 + daysBeforeMonth (ofLex q).1 (ofLex q).2)
    (fun q => daysInMonth (ofLex q).1 (ofLex q).2) ?_
  intro a ha b _ hlt
  exact month_le ha (Prod.Lex.lt_iff.mp hlt)

theorem Valid.date_mem {t : Moment} (h : t.Valid) : t.date ∈ Dates :=
  ⟨h.month, lt_of_lt_of_le (Nat.sub_lt h.day.1 Nat.one_pos) h.day.2⟩

theorem Valid.key_mem {t : Moment} (h : t.Valid) :
    t.key ∈ Within (Within (Within (Within Dates 24) 60) 60) 1000 := by
  apply toLex_mem_within _ h.millisecond
  apply toLex_mem_within _ h.second
  apply toLex_mem_within _ h.minute
  exact toLex_mem_within h.date_mem h.hour

theorem milliseconds_lt_iff {s t : Moment} (hs : s.Valid) (ht : t.Valid) :
    s.milliseconds < t.milliseconds ↔ s.key < t.key := by
  have hmono := strictMonoOn_countOn (strictMonoOn_countOn (strictMonoOn_countOn
    (strictMonoOn_countOn strictMonoOn_daysBefore 24) 60) 60) 1000
  exact hmono.lt_iff_lt hs.key_mem ht.key_mem

theorem milliseconds_le_iff {s t : Moment} (hs : s.Valid) (ht : t.Valid) :
    s.milliseconds ≤ t.milliseconds ↔ s.key ≤ t.key := by
  have hlt := milliseconds_lt_iff ht hs
  rw [← not_lt, hlt, not_lt]

theorem key_lt_of_year_lt {s t : Moment} (h : s.year < t.year) : s.key < t.key := by
  unfold key date
  apply Prod.Lex.toLex_lt_toLex.mpr (.inl _)
  apply Prod.Lex.toLex_lt_toLex.mpr (.inl _)
  apply Prod.Lex.toLex_lt_toLex.mpr (.inl _)
  apply Prod.Lex.toLex_lt_toLex.mpr (.inl _)
  apply Prod.Lex.toLex_lt_toLex.mpr (.inl _)
  exact Prod.Lex.toLex_lt_toLex.mpr (.inl h)

def newYear (y : ℕ) : Moment := ⟨y, 1, 1, 0, 0, 0, 0⟩

theorem newYear_valid (y : ℕ) : (newYear y).Valid where
  month := ⟨le_rfl, (by decide : 1 ≤ 12)⟩
  day := ⟨le_rfl, (by simp [newYear, daysInMonth])⟩
  hour := (by decide : 0 < 24)
  minute := (by decide : 0 < 60)
  second := (by decide : 0 < 60)
  millisecond := (by decide : 0 < 1000)

theorem milliseconds_newYear (y : ℕ) :
    (newYear y).milliseconds = daysBeforeYear y * 86400000 := by
  have hmonth : daysBeforeMonth y 1 = 0 := by simp [daysBeforeMonth]
  simp [milliseconds, newYear, key, date, countOn, daysBefore, hmonth]
  omega

end Moment

end Calendar
