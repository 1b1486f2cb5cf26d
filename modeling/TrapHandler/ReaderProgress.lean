import TrapHandler.ByteReader

/-!
# Progress of readers

A reader advances by `k` bytes where it never runs out of its loop counters, and where every offset
it is accepted at lies `k` bytes at least behind the one it started from. In a sequence the bytes are
added up. A reader that is accepted at the null pointer has advanced by any number of them, since
nothing is read behind it.
-/

namespace ByteReader

open Reader

variable {α β : Type}

def Ends (r : Reader α) : Prop := ∀ mem c, (r mem c).outcome ≠ .timeout

structure Advances (k : ℕ) (r : Reader α) : Prop where
  ends : Ends r
  moves : ∀ {mem c a q}, Accepts r mem c a (some q) → ∃ p, c = some p ∧ p + k ≤ q

variable {r : Reader α} {f : α → Reader β} {P : α → Prop} {mem : Memory} {c : Cursor} {j k : ℕ}

theorem outcome_bind_ne_timeout (hr : (r mem c).outcome ≠ .timeout)
    (hf : ∀ a c', Accepts r mem c a c' → (f a mem c').outcome ≠ .timeout) :
    ((r >>= f) mem c).outcome ≠ .timeout := by
  rw [outcome_bind]
  cases hrun : (r mem c).outcome with
  | ok a c' => exact hf a c' hrun
  | reject =>
    intro h
    cases h
  | fault =>
    intro h
    cases h
  | timeout => exact absurd hrun hr

theorem Ends.bind (hr : Ends r) (hf : ∀ a, Ends (f a)) : Ends (r >>= f) := by
  intro mem c
  apply outcome_bind_ne_timeout (hr mem c)
  intro a c' _
  exact hf a mem c'

theorem Advances.bind_of_returns (hr : Advances j r) (hP : Returns P r)
    (hf : ∀ a, P a → Advances k (f a)) : Advances (j + k) (r >>= f) where
  ends mem c := by
    apply outcome_bind_ne_timeout (hr.ends mem c)
    intro a c' hacc
    exact (hf a (hP mem c a c' hacc)).ends mem c'
  moves hacc := by
    obtain ⟨a, c', ha, hb⟩ := accepts_bind.mp hacc
    obtain ⟨p', rfl, hk⟩ := (hf a (hP _ _ a c' ha)).moves hb
    obtain ⟨p, rfl, hj⟩ := hr.moves ha
    exact ⟨p, rfl, by omega⟩

theorem Advances.bind (hr : Advances j r) (hf : ∀ a, Advances k (f a)) :
    Advances (j + k) (r >>= f) :=
  hr.bind_of_returns (P := fun _ => True) (fun _ _ _ _ _ => trivial) fun a _ => hf a

theorem Advances.mono (h : Advances k r) (hle : j ≤ k) : Advances j r where
  ends := h.ends
  moves hacc := by
    obtain ⟨p, hp, hk⟩ := h.moves hacc
    exact ⟨p, hp, by omega⟩

theorem Advances.bind_zero (hr : Advances j r) (hf : ∀ a, Advances 0 (f a)) :
    Advances 0 (r >>= f) :=
  (hr.bind hf).mono (Nat.zero_le _)

theorem advances_pure (a : α) : Advances 0 (pure a : Reader α) where
  ends _ _ := nofun
  moves hacc := ⟨_, (accepts_pure.mp hacc).2.symm, le_rfl⟩

theorem advances_reject : Advances k (reject : Reader α) where
  ends _ _ := nofun
  moves hacc := absurd hacc accepts_reject

theorem advances_require (b : Bool) : Advances 0 (require b) := by
  cases b with
  | true => exact advances_pure ()
  | false => exact advances_reject

theorem advances_peek : Advances 0 peek where
  ends _ c := by
    cases c with
    | none => exact nofun
    | some p => exact nofun
  moves hacc := by
    obtain ⟨p, hp, -, hq⟩ := accepts_peek.mp hacc
    exact ⟨p, hp, (Option.some.inj hq).ge⟩

theorem advances_offset : Advances 0 offset where
  ends _ c := by
    cases c with
    | none => exact nofun
    | some p => exact nofun
  moves {mem c a q} hacc := by
    cases c with
    | none => exact nomatch hacc
    | some p =>
      obtain ⟨-, hq⟩ := hacc.unique (offset_accepts mem p)
      exact ⟨p, rfl, (Option.some.inj hq).ge⟩

theorem advances_advance : Advances 1 advance where
  ends _ _ := nofun
  moves hacc := by
    obtain ⟨p, hp, hq⟩ := Option.map_eq_some_iff.mp (accepts_advance.mp hacc).symm
    exact ⟨p, hp, hq.le⟩

theorem advances_next : Advances 1 next :=
  advances_peek.bind fun b => advances_advance.bind fun _ => advances_pure b

theorem advances_null : Advances k (setCursor none) where
  ends _ _ := nofun
  moves hacc := absurd (accepts_setCursor.mp hacc) (Option.some_ne_none _)

theorem advances_store (index size : ℕ) : Advances 0 (store index size) where
  ends _ _ := nofun
  moves hacc := ⟨_, (accepts_store.mp hacc).symm, le_rfl⟩

theorem advances_allocate (bytes : ℕ) : Advances 0 (allocate bytes) where
  ends _ _ := nofun
  moves hacc := ⟨_, (accepts_allocate.mp hacc).symm, le_rfl⟩

theorem advances_foldBytes (step : α → UInt8 → α) (n : ℕ) (v : α) :
    Advances 0 (foldBytes step n v) := by
  induction n generalizing v with
  | zero => exact advances_pure v
  | succ n ih => exact advances_next.bind_zero fun b => ih (step v b)

end ByteReader
