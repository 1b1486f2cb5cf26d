import TrapHandler.TimerAlarms

/-!
# The age of a timer

The expiry test subtracts the start time from the time of the observation in 64 bits without a sign.
An observation from before the start has an age close to the whole range, and the timer counts as
expired unless its duration is larger still.
-/

namespace TrapHandler

structure FILETIME where
  dwLowDateTime : UInt32
  dwHighDateTime : UInt32

/-- `utils::fttoull`. -/
def fttoull (ft : FILETIME) : UInt64 :=
  (ft.dwHighDateTime.toUInt64 <<< 32) + ft.dwLowDateTime.toUInt64

theorem toNat_fttoull (ft : FILETIME) :
    (fttoull ft).toNat = ft.dwHighDateTime.toNat * 2 ^ 32 + ft.dwLowDateTime.toNat := by
  have hhigh := ft.dwHighDateTime.toNat_lt
  have hlow := ft.dwLowDateTime.toNat_lt
  rw [fttoull, UInt64.toNat_add, UInt64.toNat_shiftLeft]
  simp [Nat.shiftLeft_eq]
  omega

namespace TimerObj

/-- Start time and duration were last set by the constructor or by `Update`. -/
inductive SetTo (startTime : UInt64) (durationSecs : Int32) : TimerObj → Prop
  | create (id : WStr) (type : TimerType) :
      SetTo startTime durationSecs (create startTime durationSecs id type)
  | update (this : TimerObj) : SetTo startTime durationSecs (this.update startTime durationSecs)

variable {this : TimerObj} {startTime now : UInt64} {durationSecs : Int32}

theorem SetTo.startTime_eq (h : SetTo startTime durationSecs this) :
    this.startTime = startTime := by
  cases h with
  | create id type => rfl
  | update this => rfl

theorem SetTo.toNat_duration (h : SetTo startTime durationSecs this)
    (hsecs : 0 ≤ durationSecs.toInt) : this.duration.toNat = clicks durationSecs := by
  cases h with
  | create id type => exact TrapHandler.toNat_duration hsecs
  | update this => exact TrapHandler.toNat_duration hsecs

/-- The test is right exactly if the observation is not from before the start, or from so long
before that its age does not exceed the duration. -/
theorem expiredRight_iff (startTime now : UInt64) (durationSecs : Int32) (this : TimerObj)
    (hset : SetTo startTime durationSecs this) (hsecs : 0 ≤ durationSecs.toInt) :
    (this.isExpired now = true ↔ startTime.toNat + clicks durationSecs < now.toNat) ↔
      startTime ≤ now ∨ now.toNat + 2 ^ 64 ≤ startTime.toNat + clicks durationSecs := by
  have hcovers : ¬ this.isExpired now = true ↔
      (startTime.toNat ≤ now.toNat ∧ now.toNat ≤ startTime.toNat + clicks durationSecs) ∨
        now.toNat + 2 ^ 64 ≤ startTime.toNat + clicks durationSecs := by
    rw [not_isExpired_iff, Covers, hset.startTime_eq, hset.toNat_duration hsecs]
  have hnow := now.toNat_lt
  have hstart := startTime.toNat_lt
  rw [← not_iff_comm.mp hcovers, UInt64.le_iff_toNat_le]
  omega

/-- A heart-beat timer of ten seconds, five seconds after it was started. -/
theorem expiredRight_running :
    (create (fttoull ⟨50000000, 1⟩) 10 (wcs "osi1112") .heartBeatExpired).isExpired
        (fttoull ⟨100000000, 1⟩) = true ↔
      (fttoull ⟨50000000, 1⟩).toNat + clicks 10 < (fttoull ⟨100000000, 1⟩).toNat :=
  (expiredRight_iff (fttoull ⟨50000000, 1⟩) (fttoull ⟨100000000, 1⟩) 10 _
    (.create (wcs "osi1112") .heartBeatExpired) (by decide)).mpr (.inl (by decide))

/-- The same timer, at a time from before its start. -/
theorem earlierSample_expired :
    ¬ ((create (fttoull ⟨50000000, 1⟩) 10 (wcs "osi1112") .heartBeatExpired).isExpired
        (fttoull ⟨49999999, 1⟩) = true ↔
      (fttoull ⟨50000000, 1⟩).toNat + clicks 10 < (fttoull ⟨49999999, 1⟩).toNat) := by
  have hexpired : (create (fttoull ⟨50000000, 1⟩) 10 (wcs "osi1112") .heartBeatExpired).isExpired
      (fttoull ⟨49999999, 1⟩) = true := by decide
  have hearly : ¬ (fttoull ⟨50000000, 1⟩).toNat + clicks 10 < (fttoull ⟨49999999, 1⟩).toNat := by
    decide
  intro h
  exact hearly (h.mp hexpired)

end TimerObj

end TrapHandler
