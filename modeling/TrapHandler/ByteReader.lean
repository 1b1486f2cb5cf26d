import Mathlib

/-!
# Byte readers over an unbounded memory

A reader moves one cursor through a memory that has no end: what it is given is a buffer together
with the bytes that happen to lie behind it. Every load through the cursor, every store into an
array and every request for memory is recorded, so a run says both what was read and where.
`Accepts` is the value-and-cursor judgement, `Touches` the judgement about all accesses of a run; both
come with a rule for each way readers are composed. A request that is refused cuts a run short.
-/

namespace ByteReader

/-- Memory seen from the first byte of a buffer. -/
abbrev Memory := ℕ → UInt8

/-- An offset into the memory, or the null pointer. -/
abbrev Cursor := Option ℕ

inductive Access where
  | load (cursor : Cursor)
  | store (index size : ℕ)
  | alloc (bytes : ℕ)
  deriving DecidableEq, Repr

/-- `reject` is a refusal by the program, `fault` a load through the null pointer, `timeout` an
exhausted loop counter. -/
inductive Outcome (α : Type) where
  | ok (value : α) (cursor : Cursor)
  | reject
  | fault
  | timeout
  deriving DecidableEq, Repr

structure Run (α : Type) where
  outcome : Outcome α
  accesses : List Access
  deriving DecidableEq, Repr

def Reader (α : Type) := Memory → Cursor → Run α

namespace Reader

variable {α β : Type}

def bind (r : Reader α) (f : α → Reader β) : Reader β := fun mem c =>
  match r mem c with
  | ⟨.ok a c', accesses⟩ =>
    match f a mem c' with
    | ⟨outcome, later⟩ => ⟨outcome, accesses ++ later⟩
  | ⟨.reject, accesses⟩ => ⟨.reject, accesses⟩
  | ⟨.fault, accesses⟩ => ⟨.fault, accesses⟩
  | ⟨.timeout, accesses⟩ => ⟨.timeout, accesses⟩

instance : Monad Reader where
  pure a := fun _ c => ⟨.ok a c, []⟩
  bind := bind

def reject : Reader α := fun _ _ => ⟨.reject, []⟩

def timeout : Reader α := fun _ _ => ⟨.timeout, []⟩

def require (b : Bool) : Reader Unit := if b then pure () else reject

/-- The byte under the cursor. -/
def peek : Reader UInt8 := fun mem c =>
  match c with
  | some p => ⟨.ok (mem p) c, [.load c]⟩
  | none => ⟨.fault, [.load none]⟩

def advance : Reader Unit := fun _ c => ⟨.ok () (c.map (· + 1)), []⟩

def next : Reader UInt8 := do
  let b ← peek
  advance
  pure b

def offset : Reader ℕ := fun _ c =>
  match c with
  | some p => ⟨.ok p c, []⟩
  | none => ⟨.fault, []⟩

def setCursor (c : Cursor) : Reader Unit := fun _ _ => ⟨.ok () c, []⟩

/-- Store to element `index` of an array that was allocated with `size` elements. -/
def store (index size : ℕ) : Reader Unit := fun _ c => ⟨.ok () c, [.store index size]⟩

def allocate (bytes : ℕ) : Reader Unit := fun _ c => ⟨.ok () c, [.alloc bytes]⟩

/-- Read `k` bytes, folding each into an accumulator. -/
def foldBytes (step : α → UInt8 → α) : ℕ → α → Reader α
  | 0, v => pure v
  | k + 1, v => do
    let b ← next
    foldBytes step k (step v b)

end Reader

open Reader

variable {α β γ : Type}

theorem bind_pure_reader (r : Reader α) : Reader.bind r pure = r := by
  funext mem c
  unfold Reader.bind
  rcases r mem c with ⟨outcome, accesses⟩
  cases outcome with
  | ok a c' =>
    change Run.mk (Outcome.ok a c') (accesses ++ []) = _
    rw [List.append_nil]
  | reject => rfl
  | fault => rfl
  | timeout => rfl

theorem bind_assoc_reader (r : Reader α) (f : α → Reader β) (g : β → Reader γ) :
    Reader.bind (Reader.bind r f) g = Reader.bind r fun a => Reader.bind (f a) g := by
  funext mem c
  unfold Reader.bind
  rcases r mem c with ⟨outcome, accesses⟩
  cases outcome with
  | ok a c' =>
    rcases hf : f a mem c' with ⟨outcome, later⟩
    cases outcome with
    | ok b c'' => simp only [hf, List.append_assoc]
    | reject => simp only [hf]
    | fault => simp only [hf]
    | timeout => simp only [hf]
  | reject => rfl
  | fault => rfl
  | timeout => rfl

instance : LawfulMonad Reader :=
  LawfulMonad.mk' Reader (fun r => bind_pure_reader r) (fun _ _ => rfl) bind_assoc_reader

/-- The `k` bytes at offset `p`. -/
def slice (mem : Memory) : ℕ → ℕ → List UInt8
  | _, 0 => []
  | p, k + 1 => mem p :: slice mem (p + 1) k

@[simp] theorem slice_zero (mem : Memory) (p : ℕ) : slice mem p 0 = [] := rfl

@[simp] theorem slice_succ (mem : Memory) (p k : ℕ) :
    slice mem p (k + 1) = mem p :: slice mem (p + 1) k := rfl

@[simp] theorem length_slice (mem : Memory) (p k : ℕ) : (slice mem p k).length = k := by
  induction k generalizing p with
  | zero => rfl
  | succ k ih => rw [slice_succ, List.length_cons, ih]

theorem slice_add (mem : Memory) (p j k : ℕ) :
    slice mem p (j + k) = slice mem p j ++ slice mem (p + j) k := by
  induction j generalizing p with
  | zero => simp
  | succ j ih =>
    rw [Nat.add_right_comm, slice_succ, ih, slice_succ, List.cons_append,
      show p + 1 + j = p + (j + 1) by omega]

/-- The bytes `bs` lie in memory from offset `p` on. -/
def HoldsAt (mem : Memory) (p : ℕ) (bs : List UInt8) : Prop := slice mem p bs.length = bs

@[simp] theorem holdsAt_nil (mem : Memory) (p : ℕ) : HoldsAt mem p [] := rfl

@[simp] theorem holdsAt_cons {mem : Memory} {p : ℕ} {b : UInt8} {bs : List UInt8} :
    HoldsAt mem p (b :: bs) ↔ mem p = b ∧ HoldsAt mem (p + 1) bs := by
  simp only [HoldsAt, List.length_cons, slice_succ, List.cons.injEq]

@[simp] theorem holdsAt_append {mem : Memory} {p : ℕ} {bs cs : List UInt8} :
    HoldsAt mem p (bs ++ cs) ↔ HoldsAt mem p bs ∧ HoldsAt mem (p + bs.length) cs := by
  induction bs generalizing p with
  | nil => simp
  | cons b bs ih =>
    rw [List.cons_append, holdsAt_cons, ih, holdsAt_cons, List.length_cons, and_assoc,
      show p + 1 + bs.length = p + (bs.length + 1) by omega]

theorem holdsAt_slice (mem : Memory) (p k : ℕ) : HoldsAt mem p (slice mem p k) := by
  rw [HoldsAt, length_slice]

def memoryOf (buf : List UInt8) (behind : Memory) : Memory := fun i =>
  (buf[i]?).getD (behind i)

theorem holdsAt_memoryOf (buf : List UInt8) (behind : Memory) :
    HoldsAt (memoryOf buf behind) 0 buf := by
  have general : ∀ pre suf, buf = pre ++ suf → HoldsAt (memoryOf buf behind) pre.length suf := by
    intro pre suf
    induction suf generalizing pre with
    | nil => intro _; trivial
    | cons b suf ih =>
      intro h
      rw [holdsAt_cons]
      refine ⟨by simp [memoryOf, h], ?_⟩
      have hnext := ih (pre ++ [b]) (by simp [h])
      rwa [List.length_append, List.length_singleton] at hnext
  exact general [] buf rfl

theorem HoldsAt.initial {mem : Memory} {p : ℕ} {bs cs : List UInt8} (hbs : HoldsAt mem p bs)
    (hcs : HoldsAt mem p cs) (hlen : bs.length ≤ cs.length) : bs <+: cs := by
  have hsplit := slice_add mem p bs.length (cs.length - bs.length)
  rw [Nat.add_sub_cancel' hlen, hcs, hbs] at hsplit
  exact ⟨_, hsplit.symm⟩

theorem prefix_of_holdsAt_memoryOf {buf bs : List UInt8} {behind : Memory}
    (h : HoldsAt (memoryOf buf behind) 0 bs) (hlen : bs.length ≤ buf.length) : bs <+: buf :=
  h.initial (holdsAt_memoryOf buf behind) hlen

/-- Memory that goes on with the rest of `bs` behind a first part of it holds `bs`. -/
theorem memoryOf_memoryOf {buf bs : List UInt8} (h : buf <+: bs) (behind : Memory) :
    memoryOf buf (memoryOf bs behind) = memoryOf bs behind := by
  funext i
  obtain ⟨rest, rfl⟩ := h
  by_cases hi : i < buf.length
  · simp only [memoryOf, List.getElem?_append_left hi, List.getElem?_eq_getElem hi,
      Option.getD_some]
  · simp only [memoryOf, List.getElem?_eq_none (Nat.not_lt.mp hi), Option.getD_none]

theorem slice_update_of_lt (mem : Memory) {p q : ℕ} (h : p < q) (k : ℕ) (b : UInt8) :
    slice (Function.update mem p b) q k = slice mem q k := by
  induction k generalizing q with
  | zero => rfl
  | succ k ih =>
    rw [slice_succ, slice_succ, ih (Nat.lt_succ_of_lt h), Function.update_of_ne (Nat.ne_of_gt h)]

theorem slice_update (mem : Memory) (p q k : ℕ) (b : UInt8) :
    slice (Function.update mem (p + q) b) p k = (slice mem p k).set q b := by
  induction k generalizing p q with
  | zero => rfl
  | succ k ih =>
    cases q with
    | zero =>
      rw [Nat.add_zero, slice_succ, slice_succ, List.set_cons_zero, Function.update_self,
        slice_update_of_lt mem (Nat.lt_succ_self p)]
    | succ q =>
      have hhead : p ≠ p + (q + 1) := by omega
      rw [slice_succ, slice_succ, List.set_cons_succ, Function.update_of_ne hhead,
        show p + (q + 1) = p + 1 + q by omega, ih]

theorem outcome_bind {r : Reader α} {f : α → Reader β} {mem : Memory} {c : Cursor} :
    ((r >>= f) mem c).outcome =
      match (r mem c).outcome with
      | .ok a c' => (f a mem c').outcome
      | .reject => .reject
      | .fault => .fault
      | .timeout => .timeout := by
  change (Reader.bind r f mem c).outcome = _
  unfold Reader.bind
  rcases r mem c with ⟨outcome, accesses⟩
  cases outcome with
  | ok a c' => rfl
  | reject => rfl
  | fault => rfl
  | timeout => rfl

/-- The run of `r` from cursor `c` ends normally with value `a` and cursor `c'`. -/
def Accepts (r : Reader α) (mem : Memory) (c : Cursor) (a : α) (c' : Cursor) : Prop :=
  (r mem c).outcome = .ok a c'

instance [DecidableEq α] (r : Reader α) (mem : Memory) (c : Cursor) (a : α) (c' : Cursor) :
    Decidable (Accepts r mem c a c') := inferInstanceAs (Decidable (_ = _))

theorem Accepts.unique {r : Reader α} {mem : Memory} {c : Cursor} {a b : α} {c₁ c₂ : Cursor}
    (h₁ : Accepts r mem c a c₁) (h₂ : Accepts r mem c b c₂) : a = b ∧ c₁ = c₂ := by
  have h : Outcome.ok a c₁ = .ok b c₂ := h₁.symm.trans h₂
  cases h
  exact ⟨rfl, rfl⟩

@[simp] theorem accepts_pure {mem : Memory} {c c' : Cursor} {a b : α} :
    Accepts (pure a) mem c b c' ↔ b = a ∧ c' = c := by
  change Outcome.ok a c = Outcome.ok b c' ↔ _
  rw [Outcome.ok.injEq]
  exact and_congr eq_comm eq_comm

theorem accepts_bind {r : Reader α} {f : α → Reader β} {mem : Memory} {c c'' : Cursor} {b : β} :
    Accepts (r >>= f) mem c b c'' ↔ ∃ a c', Accepts r mem c a c' ∧ Accepts (f a) mem c' b c'' := by
  rw [Accepts, outcome_bind]
  cases hr : (r mem c).outcome with
  | ok a c' => simp [Accepts, hr]
  | reject => simp [Accepts, hr]
  | fault => simp [Accepts, hr]
  | timeout => simp [Accepts, hr]

theorem Accepts.bind {r : Reader α} {f : α → Reader β} {mem : Memory} {c c' c'' : Cursor}
    {a : α} {b : β} (hr : Accepts r mem c a c') (hf : Accepts (f a) mem c' b c'') :
    Accepts (r >>= f) mem c b c'' :=
  accepts_bind.mpr ⟨a, c', hr, hf⟩

theorem Accepts.bind_iff {r : Reader α} {f : α → Reader β} {mem : Memory} {c c' d : Cursor}
    {a : α} {b : β} (h : Accepts r mem c a c') :
    Accepts (r >>= f) mem c b d ↔ Accepts (f a) mem c' b d := by
  constructor
  · intro hacc
    obtain ⟨a', c'', ha, hf⟩ := accepts_bind.mp hacc
    obtain ⟨rfl, rfl⟩ := h.unique ha
    exact hf
  · exact h.bind

theorem Accepts.outcome_bind {r : Reader α} {f : α → Reader β} {mem : Memory} {c c' : Cursor}
    {a : α} (h : Accepts r mem c a c') :
    ((r >>= f) mem c).outcome = (f a mem c').outcome := by
  have hr : (r mem c).outcome = .ok a c' := h
  rw [ByteReader.outcome_bind, hr]

@[simp] theorem accepts_reject {mem : Memory} {c c' : Cursor} {a : α} :
    ¬ Accepts reject mem c a c' := nofun

@[simp] theorem accepts_require {mem : Memory} {c c' : Cursor} {b : Bool} {u : Unit} :
    Accepts (require b) mem c u c' ↔ b = true ∧ c' = c := by
  cases b <;> simp [require]

@[simp] theorem accepts_peek {mem : Memory} {c c' : Cursor} {b : UInt8} :
    Accepts peek mem c b c' ↔ ∃ p, c = some p ∧ b = mem p ∧ c' = some p := by
  cases c with
  | none => simp [Accepts, peek]
  | some p =>
    simp only [Accepts, peek, Outcome.ok.injEq, Option.some.injEq, exists_eq_left']
    exact and_congr eq_comm eq_comm

@[simp] theorem accepts_advance {mem : Memory} {c c' : Cursor} {u : Unit} :
    Accepts advance mem c u c' ↔ c' = c.map (· + 1) := by
  simp only [Accepts, advance, Outcome.ok.injEq, true_and]
  exact eq_comm

@[simp] theorem accepts_next {mem : Memory} {c c' : Cursor} {b : UInt8} :
    Accepts next mem c b c' ↔ ∃ p, c = some p ∧ b = mem p ∧ c' = some (p + 1) := by
  simp only [next, accepts_bind, accepts_peek, accepts_advance, accepts_pure]
  constructor
  · rintro ⟨_, _, ⟨p, rfl, rfl, rfl⟩, _, _, rfl, rfl, rfl⟩
    exact ⟨p, rfl, rfl, rfl⟩
  · rintro ⟨p, rfl, rfl, rfl⟩
    exact ⟨_, _, ⟨p, rfl, rfl, rfl⟩, (), _, rfl, rfl, rfl⟩

@[simp] theorem accepts_setCursor {mem : Memory} {c c' d : Cursor} {u : Unit} :
    Accepts (setCursor d) mem c u c' ↔ c' = d := by
  simp only [Accepts, setCursor, Outcome.ok.injEq, true_and]
  exact eq_comm

@[simp] theorem accepts_store {mem : Memory} {c c' : Cursor} {index size : ℕ} {u : Unit} :
    Accepts (store index size) mem c u c' ↔ c' = c := by
  simp only [Accepts, store, Outcome.ok.injEq, true_and]
  exact eq_comm

@[simp] theorem accepts_allocate {mem : Memory} {c c' : Cursor} {bytes : ℕ} {u : Unit} :
    Accepts (allocate bytes) mem c u c' ↔ c' = c := by
  simp only [Accepts, allocate, Outcome.ok.injEq, true_and]
  exact eq_comm

theorem peek_accepts (mem : Memory) (p : ℕ) :
    Accepts peek mem (some p) (mem p) (some p) := rfl

theorem advance_accepts (mem : Memory) (p : ℕ) :
    Accepts advance mem (some p) () (some (p + 1)) := rfl

theorem offset_accepts (mem : Memory) (p : ℕ) : Accepts offset mem (some p) p (some p) := rfl

theorem require_accepts {mem : Memory} {c : Cursor} {b : Bool} (h : b = true) :
    Accepts (require b) mem c () c :=
  accepts_require.mpr ⟨h, rfl⟩

theorem next_accepts (mem : Memory) (p : ℕ) :
    Accepts next mem (some p) (mem p) (some (p + 1)) := rfl

theorem store_accepts (mem : Memory) (c : Cursor) (index size : ℕ) :
    Accepts (store index size) mem c () c := rfl

theorem allocate_accepts (mem : Memory) (c : Cursor) (bytes : ℕ) :
    Accepts (allocate bytes) mem c () c := rfl

/-- Reading `k` bytes returns the fold of exactly those bytes and stops behind them. -/
@[simp] theorem accepts_foldBytes {step : α → UInt8 → α} {mem : Memory} {p k : ℕ} {v w : α}
    {c' : Cursor} :
    Accepts (foldBytes step k v) mem (some p) w c' ↔
      w = (slice mem p k).foldl step v ∧ c' = some (p + k) := by
  induction k generalizing p v with
  | zero => simp [foldBytes]
  | succ k ih =>
    simp only [foldBytes, accepts_bind, accepts_next, Option.some.injEq]
    constructor
    · rintro ⟨_, _, ⟨_, rfl, rfl, rfl⟩, h⟩
      rw [ih] at h
      rw [slice_succ, List.foldl_cons, h.1, h.2, show p + 1 + k = p + (k + 1) by omega]
      exact ⟨rfl, rfl⟩
    · rintro ⟨rfl, rfl⟩
      refine ⟨_, _, ⟨p, rfl, rfl, rfl⟩, ?_⟩
      rw [ih, slice_succ, List.foldl_cons, show p + 1 + k = p + (k + 1) by omega]
      exact ⟨rfl, rfl⟩

/-- Every value the reader is accepted with satisfies `P`. -/
def Returns (P : α → Prop) (r : Reader α) : Prop := ∀ mem c a c', Accepts r mem c a c' → P a

theorem returns_pure {P : α → Prop} {a : α} (h : P a) : Returns P (pure a : Reader α) := by
  intro mem c b c' hacc
  rw [(accepts_pure.mp hacc).1]
  exact h

theorem returns_bind {P : β → Prop} {r : Reader α} {f : α → Reader β}
    (h : ∀ a, Returns P (f a)) : Returns P (r >>= f) := by
  intro mem c b c' hacc
  obtain ⟨a, d, _, hf⟩ := accepts_bind.mp hacc
  exact h a mem d b c' hf

/-- Every access made by the run of `r` from cursor `c` satisfies `P`. -/
def Touches (P : Access → Prop) (r : Reader α) (mem : Memory) (c : Cursor) : Prop :=
  ∀ a ∈ (r mem c).accesses, P a

instance (P : Access → Prop) [DecidablePred P] (r : Reader α) (mem : Memory) (c : Cursor) :
    Decidable (Touches P r mem c) := inferInstanceAs (Decidable (∀ a ∈ _, P a))

variable {P : Access → Prop}

/-- The accesses of a sequence are those of the first reader and, where that one ends normally,
those of the second. -/
theorem touches_bind {r : Reader α} {f : α → Reader β} {mem : Memory} {c : Cursor} :
    Touches P (r >>= f) mem c ↔
      Touches P r mem c ∧ ∀ a c', Accepts r mem c a c' → Touches P (f a) mem c' := by
  change (∀ a ∈ (Reader.bind r f mem c).accesses, P a) ↔ _
  unfold Reader.bind Touches Accepts
  rcases r mem c with ⟨outcome, accesses⟩
  cases outcome with
  | ok a c' =>
    simp only [List.mem_append]
    constructor
    · intro h
      refine ⟨fun x hx => h x (.inl hx), ?_⟩
      rintro _ _ hok
      cases hok
      exact fun x hx => h x (.inr hx)
    · rintro ⟨h₁, h₂⟩ x (hx | hx)
      · exact h₁ x hx
      · exact h₂ a c' rfl x hx
  | reject => simp
  | fault => simp
  | timeout => simp

theorem Accepts.touches_bind {r : Reader α} {f : α → Reader β} {mem : Memory} {c c' : Cursor}
    {a : α} (h : Accepts r mem c a c') :
    Touches P (r >>= f) mem c ↔ Touches P r mem c ∧ Touches P (f a) mem c' := by
  rw [ByteReader.touches_bind]
  apply and_congr_right
  intro _
  constructor
  · intro hrest
    exact hrest a c' h
  · intro hrest b d hb
    obtain ⟨rfl, rfl⟩ := h.unique hb
    exact hrest

@[simp] theorem touches_pure {mem : Memory} {c : Cursor} {a : α} :
    Touches P (pure a) mem c := nofun

@[simp] theorem touches_reject {mem : Memory} {c : Cursor} :
    Touches P (reject : Reader α) mem c := nofun

@[simp] theorem touches_timeout {mem : Memory} {c : Cursor} :
    Touches P (timeout : Reader α) mem c := nofun

@[simp] theorem touches_peek {mem : Memory} {c : Cursor} :
    Touches P peek mem c ↔ P (.load c) := by
  cases c <;> simp [Touches, peek]

@[simp] theorem touches_advance {mem : Memory} {c : Cursor} : Touches P advance mem c := nofun

@[simp] theorem touches_next {mem : Memory} {c : Cursor} :
    Touches P next mem c ↔ P (.load c) := by
  simp only [next, touches_bind, touches_peek, touches_advance, touches_pure, implies_true,
    and_true]

@[simp] theorem touches_offset {mem : Memory} {c : Cursor} : Touches P offset mem c := by
  cases c <;> exact nofun

@[simp] theorem touches_store {mem : Memory} {c : Cursor} {index size : ℕ} :
    Touches P (store index size) mem c ↔ P (.store index size) := by
  simp [Touches, store]

@[simp] theorem touches_allocate {mem : Memory} {c : Cursor} {bytes : ℕ} :
    Touches P (allocate bytes) mem c ↔ P (.alloc bytes) := by
  simp [Touches, allocate]

end ByteReader
