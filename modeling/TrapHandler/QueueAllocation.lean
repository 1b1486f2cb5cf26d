import TrapHandler.QueueRuns

/-!
# The allocations of the reader-writer queue

Only `enqueue` allocates a block, and only where neither the tail block nor the one behind it has
room. The blocks grow up to the block size of the queue, or are as large as the constructor made
them.
-/

namespace Moodycamel

open Linearizability

variable {α : Type} {maxSize m maxBlockSize : ℕ} {s s' : System α} {v : View α} {q q' : Queue α}

def Queue.next (q : Queue α) (b : ℕ) : Option ℕ := (q.blocks b).next

structure SameShape (q q' : Queue α) : Prop where
  allocated : q'.allocated = q.allocated
  largest : q'.largestBlockSize = q.largestBlockSize
  next : q'.next = q.next
  sizeMask : ∀ b, (q'.blocks b).sizeMask = (q.blocks b).sizeMask

theorem SameShape.refl : SameShape q q := ⟨rfl, rfl, rfl, fun _ => rfl⟩

theorem SameShape.set {b : ℕ} {block : Block α} (hnext : block.next = (q.blocks b).next)
    (hmask : block.sizeMask = (q.blocks b).sizeMask) : SameShape q (q.set b block) where
  allocated := rfl
  largest := rfl
  next := funext fun a => Queue.field_set Block.next hnext a
  sizeMask := fun a => Queue.field_set Block.sizeMask hmask a

theorem construct_shape {block block' : Block α} {i : ℕ} {x : α}
    (h : block.construct i x = some block') :
    block'.next = block.next ∧ block'.sizeMask = block.sizeMask := by
  unfold Block.construct at h
  split at h
  · cases h
    exact ⟨rfl, rfl⟩
  · cases h

theorem innerEnqueue_shape {mode : AllocationMode} {x : α} {memory : Bool} {pc : EnqueueStep}
    {r : EnqueueStep ⊕ Bool} (h : innerEnqueue maxBlockSize mode x memory q pc = some (q', r))
    (hallocate : ∀ tailBlock, pc ≠ .allocate tailBlock) (hlink : ∀ tailBlock b, pc ≠ .link tailBlock b) :
    SameShape q q' ∧ q'.frontBlock = q.frontBlock := by
  cases pc with
  | start =>
    simp only [innerEnqueue] at h
    split at h
    · cases h
      exact ⟨SameShape.refl, rfl⟩
    · cases h
      exact ⟨SameShape.refl, rfl⟩
  | loadFront tailBlock blockTail nextBlockTail =>
    simp only [innerEnqueue] at h
    split at h
    · cases h
      exact ⟨SameShape.set rfl rfl, rfl⟩
    · cases h
      exact ⟨SameShape.set rfl rfl, rfl⟩
  | construct tailBlock blockTail nextBlockTail =>
    simp only [innerEnqueue] at h
    split at h
    · cases h
    · rename_i block hblock
      cases h
      obtain ⟨hnext, hmask⟩ := construct_shape hblock
      exact ⟨SameShape.set hnext hmask, rfl⟩
  | storeTail tailBlock nextBlockTail =>
    cases h
    exact ⟨SameShape.set rfl rfl, rfl⟩
  | loadFrontBlock tailBlock =>
    simp only [innerEnqueue] at h
    split at h
    · cases h
      exact ⟨SameShape.refl, rfl⟩
    · split at h
      · cases h
        exact ⟨SameShape.refl, rfl⟩
      · cases h
        exact ⟨SameShape.refl, rfl⟩
  | loadNextFront tailBlock =>
    simp only [innerEnqueue] at h
    split at h
    · cases h
    · split at h
      · cases h
        exact ⟨SameShape.set rfl rfl, rfl⟩
      · cases h
  | constructNext tailBlockNext nextBlockTail =>
    simp only [innerEnqueue] at h
    split at h
    · cases h
    · rename_i block hblock
      cases h
      obtain ⟨hnext, hmask⟩ := construct_shape hblock
      exact ⟨SameShape.set hnext hmask, rfl⟩
  | storeNextTail tailBlockNext nextBlockTail =>
    cases h
    exact ⟨SameShape.set rfl rfl, rfl⟩
  | allocate tailBlock => exact absurd rfl (hallocate tailBlock)
  | link tailBlock newBlock => exact absurd rfl (hlink tailBlock newBlock)
  | storeTailBlock block =>
    cases h
    exact ⟨⟨rfl, rfl, rfl, fun _ => rfl⟩, rfl⟩

theorem innerDequeue_shape {request : Request} {pc : DequeueStep α}
    {r : DequeueStep α ⊕ Option α} (h : innerDequeue request q pc = some (q', r)) :
    SameShape q q' ∧
      (q'.frontBlock = q.frontBlock ∨ ∃ i, pc = .storeFrontBlock q'.frontBlock i) := by
  cases pc with
  | start =>
    simp only [innerDequeue] at h
    split at h
    · cases h
      exact ⟨SameShape.refl, .inl rfl⟩
    · cases h
      exact ⟨SameShape.refl, .inl rfl⟩
  | loadTail frontBlock blockFront =>
    simp only [innerDequeue] at h
    split at h
    · cases h
      exact ⟨SameShape.set rfl rfl, .inl rfl⟩
    · cases h
      exact ⟨SameShape.set rfl rfl, .inl rfl⟩
  | loadTailBlock frontBlock =>
    simp only [innerDequeue] at h
    split at h
    · cases h
      exact ⟨SameShape.refl, .inl rfl⟩
    · cases h
      exact ⟨SameShape.refl, .inl rfl⟩
  | reload =>
    simp only [innerDequeue] at h
    split at h
    · cases h
      exact ⟨SameShape.set rfl rfl, .inl rfl⟩
    · cases h
      exact ⟨SameShape.set rfl rfl, .inl rfl⟩
  | loadNext frontBlock =>
    simp only [innerDequeue] at h
    split at h
    · cases h
    · cases h
      exact ⟨SameShape.refl, .inl rfl⟩
  | loadNextTail nextBlock =>
    simp only [innerDequeue] at h
    split at h
    · cases h
    · split at h
      · cases h
        exact ⟨SameShape.refl, .inl rfl⟩
      · cases h
        exact ⟨SameShape.set rfl rfl, .inl rfl⟩
  | storeFrontBlock nextBlock nextBlockFront =>
    cases h
    exact ⟨⟨rfl, rfl, rfl, fun _ => rfl⟩, .inr ⟨nextBlockFront, rfl⟩⟩
  | take block blockFront =>
    simp only [innerDequeue] at h
    split at h
    · cases h
    · split at h
      · cases h
        exact ⟨SameShape.refl, .inl rfl⟩
      · cases h
        exact ⟨SameShape.set rfl rfl, .inl rfl⟩
  | storeFront element block blockFront =>
    cases h
    exact ⟨SameShape.set rfl rfl, .inl rfl⟩

theorem allocate_cases {mode : AllocationMode} {x : α} {memory : Bool} {tailBlock : ℕ}
    {r : EnqueueStep ⊕ Bool}
    (h : innerEnqueue maxBlockSize mode x memory q (.allocate tailBlock) = some (q', r)) :
    q' = q ∨ ∃ block newBlockSize, block.sizeMask = newBlockSize - 1 ∧
      newBlockSize = (if maxBlockSize ≤ q.largestBlockSize then q.largestBlockSize
        else q.largestBlockSize * 2) ∧
      q' = { q.set q.allocated block with
        allocated := q.allocated + 1, largestBlockSize := newBlockSize } ∧
      r = .inl (.link tailBlock q.allocated) := by
  cases memory with
  | false =>
    cases h
    exact .inl rfl
  | true =>
    simp only [innerEnqueue, if_true] at h
    split at h
    · cases h
    · rename_i block hblock
      cases h
      obtain ⟨_, hmask⟩ := construct_shape hblock
      exact .inr ⟨{ block with
          tail := 1, localTail := 1, next := (q.blocks tailBlock).next }, _, hmask, rfl, rfl, rfl⟩

theorem create_eq (hblock : ∃ k, maxBlockSize = 2 ^ (k + 1)) :
    ∃ size n, 0 < n ∧ (create maxBlockSize maxSize : Queue α) = ⟨reserve size n, n, 0, 0, size⟩ ∧
      size ≤ max maxBlockSize (ceilToPow2 (BitVec.ofNat 64 (maxSize + 1))).toNat := by
  obtain ⟨k, rfl⟩ := hblock
  by_cases hmany : 2 ^ (k + 1) * 2 < (ceilToPow2 (BitVec.ofNat 64 (maxSize + 1))).toNat
  · have htwo : 2 ≤ 2 ^ (k + 1) := by
      have hk : 0 < 2 ^ k := Nat.two_pow_pos k
      rw [pow_succ]
      omega
    exact ⟨_, _, (enough_blocks maxSize htwo).2, if_pos hmany, le_max_left _ _⟩
  · exact ⟨_, 1, Nat.one_pos, if_neg hmany, le_max_right _ _⟩

def Narrow (q : Queue α) : Prop :=
  q.largestBlockSize ≤ 2 ^ 63 ∧ ∀ b, (q.blocks b).sizeMask < 2 ^ 63

theorem SameShape.narrow (h : SameShape q q') (hq : Narrow q) : Narrow q' := by
  constructor
  · rw [h.largest]
    exact hq.1
  · intro b
    rw [h.sizeMask]
    exact hq.2 b

theorem sizeMask_reserve (size n b : ℕ) : (reserve size n b : Block α).sizeMask = size - 1 := by
  induction n with
  | zero => rfl
  | succ n ih =>
    unfold reserve
    by_cases hb : b = n
    · rw [hb, Function.update_self]
      rfl
    · rw [Function.update_of_ne hb]
      by_cases hn : n = 0
      · rw [if_pos hn]
        exact ih
      · rw [if_neg hn]
        by_cases hbefore : b = n - 1
        · rw [hbefore, Function.update_self, ← hbefore]
          exact ih
        · rw [Function.update_of_ne hbefore]
          exact ih

theorem narrow_create (h : Admissible maxBlockSize maxSize) :
    Narrow (create maxBlockSize maxSize : Queue α) := by
  obtain ⟨size, n, hn, hcreate, hsize⟩ := @create_eq α maxSize _ h.block
  have hceil := ceilToPow2_toNat (BitVec.ofNat 64 (maxSize + 1))
  have htoNat : (BitVec.ofNat 64 (maxSize + 1)).toNat = maxSize + 1 := by
    have hlt := h.size
    rw [BitVec.toNat_ofNat, Nat.mod_eq_of_lt (by omega)]
  rw [htoNat, if_pos ⟨Nat.succ_pos _, h.size⟩] at hceil
  have hclog : 2 ^ Nat.clog 2 (maxSize + 1) ≤ 2 ^ 63 :=
    Nat.pow_le_pow_right Nat.two_pos ((Nat.clog_le_iff_le_pow Nat.one_lt_two).mpr h.size)
  rw [hceil] at hsize
  have hword : maxBlockSize ≤ 2 ^ 63 := h.word.trans (by decide)
  have hle : size ≤ 2 ^ 63 := hsize.trans (max_le hword hclog)
  rw [hcreate]
  constructor
  · exact hle
  · intro b
    dsimp only
    rw [sizeMask_reserve]
    omega

theorem Narrow.allocate {block : Block α} {newBlockSize : ℕ} (hq : Narrow q)
    (hlargest : ∃ k, q.largestBlockSize = 2 ^ (k + 1)) (hword : maxBlockSize ≤ 2 ^ 63)
    (hmask : block.sizeMask = newBlockSize - 1)
    (hsize : newBlockSize = if maxBlockSize ≤ q.largestBlockSize then q.largestBlockSize
      else q.largestBlockSize * 2) :
    Narrow { q.set q.allocated block with
      allocated := q.allocated + 1, largestBlockSize := newBlockSize } := by
  have hle : newBlockSize ≤ 2 ^ 63 := by
    rw [hsize]
    by_cases hlarge : maxBlockSize ≤ q.largestBlockSize
    · rw [if_pos hlarge]
      exact hq.1
    · obtain ⟨k, hk⟩ := hlargest
      have hlt : 2 ^ (k + 1) < 2 ^ 63 := by
        rw [← hk]
        omega
      have hexp := (Nat.pow_lt_pow_iff_right Nat.one_lt_two).mp hlt
      rw [if_neg hlarge, hk, ← pow_succ]
      exact Nat.pow_le_pow_right Nat.two_pos hexp
  constructor
  · exact hle
  · intro b
    by_cases hb : b = q.allocated
    · subst hb
      simp only [Queue.blocks_set]
      omega
    · simp only [Queue.blocks_set_of_ne q block hb]
      exact hq.2 b

theorem Narrow.step {e : Event α} (h : Narrow s.queue) (hvalid : Valid maxSize m s v)
    (hword : maxBlockSize ≤ 2 ^ 63) (hstep : s.step maxBlockSize e = some s') :
    Narrow s'.queue := by
  rcases step_cases hstep with rfl | ⟨mode, x, _, _, rfl⟩ | ⟨request, _, _, rfl⟩ |
    ⟨memory, mode, x, pc, _, hp, hproduce⟩ | ⟨request, pc, _, _, hconsume⟩
  · exact h
  · exact h
  · exact h
  · obtain ⟨r, henqueue, _⟩ := produce_cases hproduce
    by_cases hallocate : ∃ tailBlock, pc = .allocate tailBlock
    · obtain ⟨tailBlock, rfl⟩ := hallocate
      rcases allocate_cases henqueue with hsame | ⟨block, size, hmask, hsize, hqueue, _⟩
      · rw [hsame]
        exact h
      · rw [hqueue]
        exact h.allocate hvalid.capacity.largest hword hmask hsize
    · by_cases hlink : ∃ tailBlock b, pc = .link tailBlock b
      · obtain ⟨tailBlock, n, rfl⟩ := hlink
        obtain ⟨hqueue, _⟩ := Prod.mk.inj (Option.some_inj.mp henqueue)
        rw [← hqueue]
        have hmask : ∀ b, ((s.queue.set tailBlock { s.queue.blocks tailBlock with
            next := some n }).blocks b).sizeMask = (s.queue.blocks b).sizeMask :=
          Queue.field_set Block.sizeMask rfl
        exact ⟨h.1, fun b => lt_of_eq_of_lt (hmask b) (h.2 b)⟩
      · obtain ⟨hshape, _⟩ := innerEnqueue_shape henqueue
          (fun tailBlock heq => hallocate ⟨tailBlock, heq⟩)
          (fun tailBlock b heq => hlink ⟨tailBlock, b, heq⟩)
        exact hshape.narrow h
  · obtain ⟨r, hdequeue, _⟩ := consume_cases hconsume
    exact (innerDequeue_shape hdequeue).1.narrow h

theorem innerEnqueue_refuses {mode : AllocationMode} {x : α} {memory : Bool} {pc : EnqueueStep}
    (h : innerEnqueue maxBlockSize mode x memory q pc = some (q', .inr false)) :
    mode ≠ .canAlloc ∨ memory = false := by
  cases pc with
  | start =>
    simp only [innerEnqueue] at h
    split at h
    · cases h
    · cases h
  | loadFront tailBlock blockTail nextBlockTail =>
    simp only [innerEnqueue] at h
    split at h
    · cases h
    · cases h
  | construct tailBlock blockTail nextBlockTail =>
    simp only [innerEnqueue] at h
    split at h
    · cases h
    · cases h
  | storeTail tailBlock nextBlockTail => cases h
  | loadFrontBlock tailBlock =>
    simp only [innerEnqueue] at h
    split at h
    · cases h
    · split at h
      · cases h
      · rename_i hmode
        exact .inl hmode
  | loadNextFront tailBlock =>
    simp only [innerEnqueue] at h
    split at h
    · cases h
    · split at h
      · cases h
      · cases h
  | constructNext tailBlockNext nextBlockTail =>
    simp only [innerEnqueue] at h
    split at h
    · cases h
    · cases h
  | storeNextTail tailBlockNext nextBlockTail => cases h
  | allocate tailBlock =>
    cases memory with
    | false => exact .inr rfl
    | true =>
      rcases allocate_cases h with hsame | ⟨block, size, _, _, _, hr⟩
      · simp only [innerEnqueue, if_true] at h
        split at h
        · cases h
        · cases h
      · cases hr
  | link tailBlock newBlock => cases h
  | storeTailBlock block => cases h

theorem innerEnqueue_allocates {mode : AllocationMode} {x : α} {memory : Bool} {pc : EnqueueStep}
    {tailBlock : ℕ}
    (h : innerEnqueue maxBlockSize mode x memory q pc = some (q', .inl (.allocate tailBlock))) :
    mode = .canAlloc := by
  cases pc with
  | start =>
    simp only [innerEnqueue] at h
    split at h
    · cases h
    · cases h
  | loadFront tailBlock blockTail nextBlockTail =>
    simp only [innerEnqueue] at h
    split at h
    · cases h
    · cases h
  | construct tailBlock blockTail nextBlockTail =>
    simp only [innerEnqueue] at h
    split at h
    · cases h
    · cases h
  | storeTail tailBlock nextBlockTail => cases h
  | loadFrontBlock tailBlock =>
    simp only [innerEnqueue] at h
    split at h
    · cases h
    · split at h
      · rename_i hmode
        exact hmode
      · cases h
  | loadNextFront tailBlock =>
    simp only [innerEnqueue] at h
    split at h
    · cases h
    · split at h
      · cases h
      · cases h
  | constructNext tailBlockNext nextBlockTail =>
    simp only [innerEnqueue] at h
    split at h
    · cases h
    · cases h
  | storeNextTail tailBlockNext nextBlockTail => cases h
  | allocate tailBlock =>
    rcases allocate_cases h with hsame | ⟨block, size, _, _, _, hr⟩
    · cases memory with
      | false => cases h
      | true =>
        simp only [innerEnqueue, if_true] at h
        split at h
        · cases h
        · cases h
    · cases hr
  | link tailBlock newBlock => cases h
  | storeTailBlock block => cases h

theorem innerEnqueue_allocated {mode : AllocationMode} {x : α} {memory : Bool} {pc : EnqueueStep}
    {r : EnqueueStep ⊕ Bool} (h : innerEnqueue maxBlockSize mode x memory q pc = some (q', r))
    (hallocate : ∀ tailBlock, pc ≠ .allocate tailBlock) : q'.allocated = q.allocated := by
  by_cases hlink : ∃ tailBlock b, pc = .link tailBlock b
  · obtain ⟨tailBlock, n, rfl⟩ := hlink
    cases h
    rfl
  · exact (innerEnqueue_shape h hallocate fun tailBlock b heq => hlink ⟨tailBlock, b, heq⟩).1.allocated

/-- `enqueue` never refuses an element in a run in which no allocation fails. -/
theorem run_enqueue_accepted (h : Admissible maxBlockSize maxSize) (es : List (Event α))
    (hmemory : .producerStep false ∉ es) :
    ∃ s, System.run maxBlockSize maxSize es = some s ∧
      ∀ i x r, .answer i (.enqueue .canAlloc x) r ∈ s.history → r = .flag true := by
  obtain ⟨m, s, v, hrun, _, hs⟩ := @run_induction α _ _ h
    (fun s => ∀ i x r, .answer i (.enqueue .canAlloc x) r ∈ s.history → r = .flag true) es
    (fun i x r hin => by cases hin) (by
      intro m s v e he s' _ hs hstep
      rcases step_cases hstep with rfl | ⟨mode, x, _, _, rfl⟩ | ⟨request, _, _, rfl⟩ |
        ⟨memory, mode, x, pc, rfl, _, hproduce⟩ | ⟨request, pc, _, _, hconsume⟩
      · exact hs
      · intro i x' r hin
        rcases List.mem_append.mp hin with hold | hnew
        · exact hs i x' r hold
        · cases List.mem_singleton.mp hnew
      · intro i x' r hin
        rcases List.mem_append.mp hin with hold | hnew
        · exact hs i x' r hold
        · cases List.mem_singleton.mp hnew
      · obtain ⟨r, henqueue, ⟨_, _, _, hhistory⟩ | ⟨success, rfl, _, hhistory⟩⟩ :=
          produce_cases hproduce
        · rw [hhistory]
          exact hs
        · intro i x' r hin
          rw [hhistory] at hin
          rcases List.mem_append.mp hin with hold | hnew
          · exact hs i x' r hold
          · cases List.mem_singleton.mp hnew
            cases success with
            | true => rfl
            | false =>
              rcases innerEnqueue_refuses henqueue with hmode | rfl
              · exact absurd rfl hmode
              · exact absurd he hmemory
      · obtain ⟨r, _, _, hhistory | ⟨value, hhistory⟩⟩ := consume_cases hconsume
        · rw [hhistory]
          exact hs
        · intro i x' r hin
          rw [hhistory] at hin
          rcases List.mem_append.mp hin with hold | hnew
          · exact hs i x' r hold
          · cases List.mem_singleton.mp hnew)
  exact ⟨s, hrun, hs⟩

theorem run_enqueue_accepted_overflow :
    ∃ s, System.run 2 1 overflow = some s ∧ s.history = overflowHistory ∧
      ∀ i x r, .answer i (.enqueue .canAlloc x) r ∈ s.history → r = .flag true := by
  obtain ⟨s, hrun, haccepted⟩ := run_enqueue_accepted admissible_two_one overflow (by decide)
  exact ⟨s, hrun, (ended_overflow hrun).2.2.1, haccepted⟩

/-- A run without `enqueue` has the blocks of the constructor only. -/
theorem run_tryEnqueue_allocated (h : Admissible maxBlockSize maxSize) (es : List (Event α))
    (htry : ∀ x, .enqueue .canAlloc x ∉ es) :
    ∃ s, System.run maxBlockSize maxSize es = some s ∧
      s.queue.allocated = (create maxBlockSize maxSize : Queue α).allocated := by
  obtain ⟨m, s, v, hrun, _, hs, _⟩ := @run_induction α _ _ h
    (fun s => s.queue.allocated = (create maxBlockSize maxSize : Queue α).allocated ∧
      ∀ mode x pc, s.producer = .enqueuing mode x pc →
        mode ≠ .canAlloc ∧ ∀ tailBlock, pc ≠ .allocate tailBlock) es
    ⟨rfl, fun mode x pc hp => by cases hp⟩ (by
      intro m s v e he s' _ hs hstep
      obtain ⟨hallocated, hproducer⟩ := hs
      rcases step_cases hstep with rfl | ⟨mode, x, rfl, _, rfl⟩ | ⟨request, _, _, rfl⟩ |
        ⟨memory, mode, x, pc, _, hp, hproduce⟩ | ⟨request, pc, _, _, hconsume⟩
      · exact ⟨hallocated, hproducer⟩
      · refine ⟨hallocated, ?_⟩
        intro mode' x' pc hp
        cases hp
        refine ⟨?_, fun tailBlock heq => by cases heq⟩
        intro hmode
        exact htry x (hmode ▸ he)
      · exact ⟨hallocated, hproducer⟩
      · obtain ⟨hmode, hpc⟩ := hproducer mode x pc hp
        obtain ⟨r, henqueue, hresult⟩ := produce_cases hproduce
        refine ⟨(innerEnqueue_allocated henqueue hpc).trans hallocated, ?_⟩
        intro mode' x' pc' hp'
        rcases hresult with ⟨pc'', rfl, hnext, _⟩ | ⟨success, _, hnext, _⟩
        · rw [hnext] at hp'
          cases hp'
          refine ⟨hmode, ?_⟩
          intro tailBlock heq
          subst heq
          exact hmode (innerEnqueue_allocates henqueue)
        · rw [hnext] at hp'
          cases hp'
      · obtain ⟨r, hdequeue, hsame, _⟩ := consume_cases hconsume
        rw [hsame]
        exact ⟨(innerDequeue_shape hdequeue).1.allocated.trans hallocated, hproducer⟩)
  exact ⟨s, hrun, hs⟩

/-- The second element is refused, the first is taken, and then there is room for the third. -/
def refusal : List (Event ℕ) :=
  [.enqueue .cannotAlloc 7, .producerStep true, .producerStep true, .producerStep true,
    .enqueue .cannotAlloc 8, .producerStep true, .producerStep true, .producerStep true,
    .dequeue .pop, .consumerStep, .consumerStep, .consumerStep, .consumerStep,
    .enqueue .cannotAlloc 9, .producerStep true, .producerStep true, .producerStep true,
    .producerStep true]

def refusalHistory : List (Action Role (Operation ℕ) (Result ℕ)) :=
  [.call .producer (.enqueue .cannotAlloc 7),
    .answer .producer (.enqueue .cannotAlloc 7) (.flag true),
    .call .producer (.enqueue .cannotAlloc 8),
    .answer .producer (.enqueue .cannotAlloc 8) (.flag false), .call .consumer (.dequeue .pop),
    .answer .consumer (.dequeue .pop) (.flag true), .call .producer (.enqueue .cannotAlloc 9),
    .answer .producer (.enqueue .cannotAlloc 9) (.flag true)]

theorem run_refusal :
    (System.run 2 1 refusal).map System.history = some refusalHistory := rfl

theorem run_tryEnqueue_allocated_refusal :
    ∃ s, System.run 2 1 refusal = some s ∧ s.history = refusalHistory ∧
      s.queue.allocated = (create 2 1 : Queue ℕ).allocated := by
  have htry : ∀ x, .enqueue .canAlloc x ∉ refusal := by
    intro x hin
    simp [refusal] at hin
  obtain ⟨s, hrun, hallocated⟩ := run_tryEnqueue_allocated admissible_two_one refusal htry
  have hhistory := run_refusal
  rw [hrun, Option.map_some, Option.some_inj] at hhistory
  exact ⟨s, hrun, hhistory, hallocated⟩

end Moodycamel
