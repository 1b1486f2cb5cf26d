import TrapHandler.ByteReader

/-!
# Reading inside a buffer

When does a reader stay inside the first `n` bytes of its memory? `Consumes` is the judgement for
readers that always succeed and move over a number of bytes known before. `Stays` is the same
question where a request for memory may be refused, which ends the run. `Follows` compares any reader
with a walk: a property of the bytes the buffer still holds, which is met where the reader stops
before it needs a byte behind the buffer. `Refuses` and `Crashes` are two ways to end at once.
-/

namespace ByteReader

open Reader

/-- A load at an offset below `n`. Nothing else is restricted. -/
def Access.Below (n : ℕ) : Access → Prop
  | .load (some p) => p < n
  | .load none => False
  | .store _ _ => True
  | .alloc _ => True

instance (n : ℕ) : DecidablePred (Access.Below n)
  | .load (some p) => inferInstanceAs (Decidable (p < n))
  | .load none => inferInstanceAs (Decidable False)
  | .store _ _ => inferInstanceAs (Decidable True)
  | .alloc _ => inferInstanceAs (Decidable True)

variable {α β : Type}

/-- Every byte the reader loads lies in the first `n` bytes of the memory. -/
def Inside (n : ℕ) (r : Reader α) (mem : Memory) (c : Cursor) : Prop :=
  Touches (Access.Below n) r mem c

instance (n : ℕ) (r : Reader α) (mem : Memory) (c : Cursor) : Decidable (Inside n r mem c) :=
  inferInstanceAs (Decidable (Touches _ r mem c))

theorem Access.Below.mono {m n : ℕ} (h : m ≤ n) {a : Access} (ha : a.Below m) : a.Below n := by
  cases a with
  | load c =>
    cases c with
    | some p => exact Nat.lt_of_lt_of_le ha h
    | none => exact ha
  | store index size => trivial
  | alloc bytes => trivial

theorem Inside.mono {m n : ℕ} (h : m ≤ n) {r : Reader α} {mem : Memory} {c : Cursor}
    (hr : Inside m r mem c) : Inside n r mem c :=
  fun a ha => (hr a ha).mono h

/-- The bytes from offset `p` to the end of a buffer of `n` bytes. -/
def remaining (mem : Memory) (n p : ℕ) : List UInt8 := slice mem p (n - p)

variable {mem : Memory} {n p : ℕ}

@[simp] theorem length_remaining : (remaining mem n p).length = n - p := length_slice mem p (n - p)

theorem remaining_of_lt (h : p < n) : remaining mem n p = mem p :: remaining mem n (p + 1) := by
  rw [remaining, show n - p = n - (p + 1) + 1 by omega, slice_succ, remaining]

theorem remaining_of_le (h : n ≤ p) : remaining mem n p = [] := by
  rw [remaining, Nat.sub_eq_zero_of_le h, slice_zero]

theorem drop_remaining (k : ℕ) : (remaining mem n p).drop k = remaining mem n (p + k) := by
  induction k generalizing p with
  | zero => rfl
  | succ k ih =>
    by_cases h : p < n
    · rw [remaining_of_lt h, List.drop_succ_cons, ih, Nat.add_right_comm, Nat.add_assoc]
    · rw [remaining_of_le (by omega), remaining_of_le (by omega), List.drop_nil]

theorem take_remaining {k : ℕ} (h : k ≤ n - p) : (remaining mem n p).take k = slice mem p k := by
  have hsplit := slice_add mem p k (n - p - k)
  rw [Nat.add_sub_cancel' h] at hsplit
  rw [remaining, hsplit, List.take_left' (length_slice mem p k)]

theorem remaining_eq_append_iff {w rest : List UInt8} : remaining mem n p = w ++ rest ↔
    w.length ≤ n - p ∧ HoldsAt mem p w ∧ rest = remaining mem n (p + w.length) := by
  constructor
  · intro h
    have hlen : w.length ≤ n - p := by
      have htotal : (remaining mem n p).length = w.length + rest.length := by
        rw [h, List.length_append]
      rw [length_remaining] at htotal
      omega
    refine ⟨hlen, ?_, ?_⟩
    · rw [HoldsAt, ← take_remaining hlen, h, List.take_left]
    · rw [← drop_remaining, h, List.drop_left]
  · rintro ⟨hlen, hmem, rfl⟩
    rw [HoldsAt, ← take_remaining hlen] at hmem
    rw [← drop_remaining]
    nth_rewrite 1 [← hmem]
    exact (List.take_append_drop _ _).symm

/-- From offset `p` the reader moves over `k` bytes and returns `a`, and it stays inside a buffer
exactly if these bytes do. -/
structure Consumes (r : Reader α) (mem : Memory) (p : ℕ) (a : α) (k : ℕ) : Prop where
  accepts : Accepts r mem (some p) a (some (p + k))
  inside_iff : ∀ n, Inside n r mem (some p) ↔ k ≤ n - p

theorem inside_bind {r : Reader α} {f : α → Reader β} {c : Cursor} :
    Inside n (r >>= f) mem c ↔
      Inside n r mem c ∧ ∀ a c', Accepts r mem c a c' → Inside n (f a) mem c' :=
  touches_bind

theorem Consumes.inside_bind {r : Reader α} {f : α → Reader β} {a : α} {k : ℕ}
    (h : Consumes r mem p a k) :
    Inside n (r >>= f) mem (some p) ↔ k ≤ n - p ∧ Inside n (f a) mem (some (p + k)) := by
  rw [Inside, h.accepts.touches_bind]
  exact and_congr_left' (h.inside_iff n)

theorem consumes_pure (a : α) : Consumes (pure a) mem p a 0 where
  accepts := accepts_pure.mpr ⟨rfl, rfl⟩
  inside_iff n := by
    have htouches : Inside n (pure a) mem (some p) := touches_pure
    exact ⟨fun _ => Nat.zero_le _, fun _ => htouches⟩

theorem consumes_store (index size : ℕ) : Consumes (store index size) mem p () 0 where
  accepts := store_accepts mem _ index size
  inside_iff n := by
    rw [Inside, touches_store]
    exact ⟨fun _ => Nat.zero_le _, fun _ => trivial⟩

theorem consumes_allocate (bytes : ℕ) : Consumes (allocate bytes) mem p () 0 where
  accepts := allocate_accepts mem _ bytes
  inside_iff n := by
    rw [Inside, touches_allocate]
    exact ⟨fun _ => Nat.zero_le _, fun _ => trivial⟩

theorem consumes_next : Consumes next mem p (mem p) 1 where
  accepts := next_accepts mem p
  inside_iff n := by
    rw [Inside, touches_next, Access.Below]
    omega

theorem Consumes.bind {r : Reader α} {f : α → Reader β} {a : α} {b : β} {j k : ℕ}
    (hr : Consumes r mem p a j) (hf : Consumes (f a) mem (p + j) b k) :
    Consumes (r >>= f) mem p b (j + k) where
  accepts := by
    have hacc := hr.accepts.bind hf.accepts
    rwa [Nat.add_assoc] at hacc
  inside_iff n := by
    rw [hr.inside_bind, hf.inside_iff]
    omega

theorem Consumes.store_bind {f : Unit → Reader β} {b : β} {k : ℕ} (index size : ℕ)
    (hf : Consumes (f ()) mem p b k) : Consumes (store index size >>= f) mem p b k := by
  have h := (consumes_store index size).bind (f := f) hf
  rwa [Nat.zero_add] at h

theorem Consumes.allocate_bind {f : Unit → Reader β} {b : β} {k : ℕ} (bytes : ℕ)
    (hf : Consumes (f ()) mem p b k) : Consumes (allocate bytes >>= f) mem p b k := by
  have h := (consumes_allocate bytes).bind (f := f) hf
  rwa [Nat.zero_add] at h

theorem Consumes.next_bind {f : UInt8 → Reader β} {b : β} {k : ℕ}
    (hf : Consumes (f (mem p)) mem (p + 1) b k) : Consumes (next >>= f) mem p b (k + 1) := by
  have h := consumes_next.bind (f := f) hf
  rwa [Nat.add_comm 1 k] at h

theorem consumes_foldBytes (step : α → UInt8 → α) (k : ℕ) (v : α) :
    Consumes (foldBytes step k v) mem p ((slice mem p k).foldl step v) k := by
  induction k generalizing p v with
  | zero => exact consumes_pure v
  | succ k ih => exact Consumes.next_bind (ih (step v (mem p)))

theorem inside_peek_bind {f : UInt8 → Reader β} :
    Inside n (peek >>= f) mem (some p) ↔ p < n ∧ Inside n (f (mem p)) mem (some p) := by
  rw [Inside, (peek_accepts mem p).touches_bind, touches_peek]
  exact Iff.rfl

theorem inside_offset_bind {f : ℕ → Reader β} :
    Inside n (offset >>= f) mem (some p) ↔ Inside n (f p) mem (some p) := by
  rw [Inside, (offset_accepts mem p).touches_bind]
  exact and_iff_right touches_offset

theorem not_inside_peek_none {f : UInt8 → Reader β} : ¬ Inside n (peek >>= f) mem none := by
  rw [inside_bind, Inside, touches_peek]
  exact fun h => h.1

/-- `new` says for how many bytes there is room. -/
def Access.granted (new : ℕ → Bool) : Access → Bool
  | .load _ => true
  | .store _ _ => true
  | .alloc bytes => new bytes

/-- What is done of a run. A request that is refused throws, and nothing is done behind it. -/
def Run.done (run : Run α) (new : ℕ → Bool) : List Access :=
  run.accesses.takeWhile (Access.granted new)

/-- Every byte the reader loads before it is refused memory lies in the first `n` bytes. -/
def Stays (new : ℕ → Bool) (n : ℕ) (r : Reader α) (mem : Memory) (c : Cursor) : Prop :=
  ∀ a ∈ (r mem c).done new, a.Below n

def Quiet (r : Reader α) : Prop := ∀ mem c, Touches (fun a => ∀ bytes, a ≠ .alloc bytes) r mem c

section

variable {new : ℕ → Bool} {c : Cursor}

theorem quiet_pure (a : α) : Quiet (pure a) := fun _ _ => touches_pure

theorem quiet_bind {r : Reader α} {f : α → Reader β} (hr : Quiet r) (hf : ∀ a, Quiet (f a)) :
    Quiet (r >>= f) := by
  intro mem c
  rw [touches_bind]
  exact ⟨hr mem c, fun a c' _ => hf a mem c'⟩

theorem quiet_peek : Quiet peek := fun _ _ => touches_peek.mpr nofun

theorem quiet_advance : Quiet advance := fun _ _ => touches_advance

theorem quiet_next : Quiet next := quiet_bind quiet_peek fun _ => quiet_bind quiet_advance quiet_pure

theorem quiet_offset : Quiet offset := fun _ _ => touches_offset

theorem quiet_store (index size : ℕ) : Quiet (store index size) :=
  fun _ _ => touches_store.mpr nofun

theorem quiet_reject : Quiet (reject : Reader α) := fun _ _ => touches_reject

theorem quiet_timeout : Quiet (timeout : Reader α) := fun _ _ => touches_timeout

theorem quiet_setCursor (c : Cursor) : Quiet (setCursor c) := fun _ _ => nofun

theorem quiet_foldBytes (step : α → UInt8 → α) (k : ℕ) (v : α) : Quiet (foldBytes step k v) := by
  induction k generalizing v with
  | zero => exact quiet_pure v
  | succ k ih => exact quiet_bind quiet_next fun b => ih (step v b)

theorem Quiet.granted {r : Reader α} (h : Quiet r) :
    ∀ a ∈ (r mem c).accesses, a.granted new = true := by
  intro a ha
  cases a with
  | load cursor => rfl
  | store index size => rfl
  | alloc bytes => exact absurd rfl (h mem c _ ha bytes)

theorem stays_pure (a : α) : Stays new n (pure a) mem c := List.forall_mem_nil _

theorem stays_reject : Stays new n (reject : Reader α) mem c := List.forall_mem_nil _

theorem stays_timeout : Stays new n (timeout : Reader α) mem c := List.forall_mem_nil _

theorem done_bind {r : Reader α} {f : α → Reader β} {c' : Cursor} {a : α} (hr : Quiet r)
    (h : Accepts r mem c a c') :
    ((r >>= f) mem c).done new = (r mem c).accesses ++ (f a mem c').done new := by
  have haccesses : ((r >>= f) mem c).accesses = (r mem c).accesses ++ (f a mem c').accesses := by
    change (Reader.bind r f mem c).accesses = _
    unfold Reader.bind
    rw [Accepts] at h
    rcases hrun : r mem c with ⟨outcome, accesses⟩
    rw [hrun] at h
    subst h
    rfl
  rw [Run.done, haccesses, List.takeWhile_append_of_pos hr.granted]
  rfl

theorem Quiet.stays_bind {r : Reader α} {f : α → Reader β} {c' : Cursor} {a : α} (hr : Quiet r)
    (h : Accepts r mem c a c') :
    Stays new n (r >>= f) mem c ↔ Inside n r mem c ∧ Stays new n (f a) mem c' := by
  simp only [Stays, done_bind hr h, List.forall_mem_append]
  exact Iff.rfl

theorem stays_peek_bind {f : UInt8 → Reader β} :
    Stays new n (peek >>= f) mem (some p) ↔ p < n ∧ Stays new n (f (mem p)) mem (some p) := by
  rw [quiet_peek.stays_bind (peek_accepts mem p), Inside, touches_peek]
  exact Iff.rfl

theorem stays_offset_bind {f : ℕ → Reader β} :
    Stays new n (offset >>= f) mem (some p) ↔ Stays new n (f p) mem (some p) := by
  rw [quiet_offset.stays_bind (offset_accepts mem p)]
  exact and_iff_right touches_offset

theorem stays_require_bind {b : Bool} {f : Unit → Reader β} :
    Stays new n (require b >>= f) mem c ↔ (b = true → Stays new n (f ()) mem c) := by
  cases b with
  | true => exact ⟨fun h _ => h, fun h => h rfl⟩
  | false => exact ⟨fun _ hb => absurd hb Bool.false_ne_true, fun _ => stays_reject⟩

theorem Consumes.stays_bind {r : Reader α} {f : α → Reader β} {a : α} {k : ℕ}
    (h : Consumes r mem p a k) (hr : Quiet r) :
    Stays new n (r >>= f) mem (some p) ↔ k ≤ n - p ∧ Stays new n (f a) mem (some (p + k)) := by
  rw [hr.stays_bind h.accepts]
  exact and_congr_left' (h.inside_iff n)

theorem stays_allocate_bind {bytes : ℕ} {f : Unit → Reader β} :
    Stays new n (allocate bytes >>= f) mem c ↔
      (new bytes = true → Stays new n (f ()) mem c) := by
  have hdone : ((allocate bytes >>= f) mem c).done new =
      if new bytes then .alloc bytes :: (f () mem c).done new else [] := List.takeWhile_cons
  rw [Stays, hdone]
  split_ifs with h
  · rw [List.forall_mem_cons]
    exact ⟨fun hf _ => hf.2, fun hf => ⟨trivial, hf h⟩⟩
  · exact ⟨fun _ hnew => absurd hnew h, fun _ => List.forall_mem_nil _⟩

theorem not_stays_peek_none {f : UInt8 → Reader β} : ¬ Stays new n (peek >>= f) mem none := by
  intro h
  exact h (.load none) List.mem_cons_self

theorem not_stays_of_accepts_none {r : Reader α} {f : α → Reader β} {a : α} (hr : Quiet r)
    (h : Accepts r mem c a none) (hf : ¬ Stays new n (f a) mem none) :
    ¬ Stays new n (r >>= f) mem c :=
  fun hstays => hf ((hr.stays_bind h).mp hstays).2

end

abbrev Walk := List UInt8 → Prop

namespace Walk

def stop : Walk := fun _ => True

/-- One byte is read; without one the reader leaves the buffer. -/
def byte (next : UInt8 → Walk) : Walk
  | [] => False
  | b :: bs => next b bs

/-- One byte is read, and the reader stops unless it is `tag`. -/
def expect (tag : UInt8) (next : Walk) : Walk := byte fun b => if b == tag then next else stop

/-- The cursor is moved over `k` bytes without a load. -/
def skip (k : ℕ) (next : Walk) : Walk := fun bs => next (bs.drop k)

/-- The next `k` bytes are read up to the last one. -/
def content (k : ℕ) (next : Walk) : Walk := fun bs => k ≤ bs.length ∧ next (bs.drop k)

def request (granted : Bool) (next : Walk) : Walk := fun bs => granted = true → next bs

end Walk

/-- From every offset the reader stays inside the buffer exactly if the walk is met by the bytes that
are left. -/
def Follows (new : ℕ → Bool) (n : ℕ) (mem : Memory) (r : Reader α) (walk : Walk) : Prop :=
  ∀ p, Stays new n r mem (some p) ↔ walk (remaining mem n p)

variable {new : ℕ → Bool} {walk : Walk}

theorem follows_stop {r : Reader α} (h : ∀ p, Stays new n r mem (some p)) :
    Follows new n mem r Walk.stop := fun p => ⟨fun _ => trivial, fun _ => h p⟩

theorem follows_require {b : Bool} (hb : b = true) {f : Unit → Reader β}
    (hf : Follows new n mem (f ()) walk) : Follows new n mem (require b >>= f) walk := by
  subst hb
  exact hf

theorem follows_refuse {b : Bool} (hb : ¬ b = true) {f : Unit → Reader β} :
    Follows new n mem (require b >>= f) Walk.stop := by
  rw [Bool.not_eq_true] at hb
  subst hb
  exact follows_stop fun _ => stays_reject

theorem follows_advance {f : Unit → Reader β} (hf : Follows new n mem (f ()) walk) :
    Follows new n mem (advance >>= f) (Walk.skip 1 walk) := by
  intro p
  rw [Walk.skip, drop_remaining, ← hf (p + 1), quiet_advance.stays_bind (advance_accepts mem p)]
  exact and_iff_right touches_advance

theorem follows_allocate {bytes : ℕ} {f : Unit → Reader β} (hf : Follows new n mem (f ()) walk) :
    Follows new n mem (allocate bytes >>= f) (Walk.request (new bytes) walk) := by
  intro p
  rw [stays_allocate_bind, Walk.request, hf p]

theorem follows_peek {f : UInt8 → Reader β} {next : UInt8 → Walk}
    (hf : ∀ b, Follows new n mem (f b) (Walk.skip 1 (next b))) :
    Follows new n mem (peek >>= f) (Walk.byte next) := by
  intro p
  rw [stays_peek_bind, hf (mem p) p, Walk.skip, drop_remaining]
  by_cases h : p < n
  · rw [remaining_of_lt h, Walk.byte]
    exact ⟨fun hp => hp.2, fun hw => ⟨h, hw⟩⟩
  · rw [remaining_of_le (by omega : n ≤ p), Walk.byte]
    exact ⟨fun hp => absurd hp.1 h, False.elim⟩

theorem follows_offset {f : ℕ → Reader β} (hf : ∀ p, Follows new n mem (f p) walk) :
    Follows new n mem (offset >>= f) walk := by
  intro p
  rw [stays_offset_bind]
  exact hf p p

/-- A field of `k` bytes that are all read. -/
theorem follows_content {r : Reader α} {f : α → Reader β} {k : ℕ} (hquiet : Quiet r)
    (hr : ∀ p, ∃ a, Consumes r mem p a k) (hf : ∀ a, Follows new n mem (f a) walk) :
    Follows new n mem (r >>= f) (Walk.content k walk) := by
  intro p
  obtain ⟨a, ha⟩ := hr p
  rw [ha.stays_bind hquiet, hf a (p + k), Walk.content, drop_remaining, length_remaining]

theorem follows_map {r : Reader α} (g : α → β) (hr : Follows new n mem r walk) :
    Follows new n mem (r >>= fun a => pure (g a)) walk := by
  intro p
  have haccesses : ((r >>= fun a => pure (g a)) mem (some p)).accesses =
      (r mem (some p)).accesses := by
    change (Reader.bind r _ mem _).accesses = _
    unfold Reader.bind
    rcases r mem (some p) with ⟨outcome, accesses⟩
    cases outcome with
    | ok a c' => exact List.append_nil accesses
    | reject => rfl
    | fault => rfl
    | timeout => rfl
  rw [← hr p, Stays, Run.done, haccesses]
  exact Iff.rfl

structure Crashes (r : Reader β) (mem : Memory) (c : Cursor) : Prop where
  outcome : (r mem c).outcome = .fault
  not_inside : ∀ n, ¬ Inside n r mem c

structure Refuses (r : Reader β) (mem : Memory) (c : Cursor) : Prop where
  outcome : (r mem c).outcome = .reject
  inside : ∀ n, Inside n r mem c

theorem Crashes.of_accepts {r : Reader α} {f : α → Reader β} {c : Cursor} {a : α}
    (hr : Accepts r mem c a none) (hf : Crashes (f a) mem none) : Crashes (r >>= f) mem c where
  outcome := by
    rw [hr.outcome_bind]
    exact hf.outcome
  not_inside n h := hf.not_inside n ((inside_bind.mp h).2 a none hr)

theorem refuses_require {b : Bool} (hb : b = false) {f : Unit → Reader β} {c : Cursor} :
    Refuses (require b >>= f) mem c := by
  subst hb
  exact ⟨rfl, fun _ => touches_reject⟩

theorem refuses_offset_bind {f : ℕ → Reader β} (hf : Refuses (f p) mem (some p)) :
    Refuses (offset >>= f) mem (some p) where
  outcome := by
    rw [(offset_accepts mem p).outcome_bind]
    exact hf.outcome
  inside n := by
    rw [inside_offset_bind]
    exact hf.inside n

end ByteReader
