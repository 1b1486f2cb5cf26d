import TrapHandler.QueueAllocation
import TrapHandler.QueueHistory

/-!
# The blocks of the reader-writer queue at rest

Every block that has been allocated is in the ring, or the producer is about to link it in. So when no
thread is in a call, `size_approx` is exact, and the destructor destroys the elements that are still
held and frees each block once.
-/

namespace Moodycamel

open Linearizability CircularChains

variable {α : Type} {maxSize m maxBlockSize : ℕ} {s s' : System α} {v : View α} {q : Queue α}

/-- Each allocated block can be reached, or is about to be linked in. -/
def Complete (s : System α) : Prop :=
  ∀ b < s.queue.allocated, Reaches s.queue.next s.queue.frontBlock b ∨
    ∃ mode x tailBlock, s.producer = .enqueuing mode x (.link tailBlock b)

theorem Valid.reaches_iff (h : Valid maxSize m s v) {a b : ℕ} (ha : a ∈ v.ring s.queue) :
    Reaches s.queue.next a b ↔ b ∈ v.ring s.queue :=
  Ring.reaches_iff h.ring ha

theorem Complete.mem (h : Complete s) (hvalid : Valid maxSize m s v)
    (hlink : ∀ mode x tailBlock b, s.producer ≠ .enqueuing mode x (.link tailBlock b)) {b : ℕ}
    (hb : b < s.queue.allocated) : b ∈ v.ring s.queue := by
  rcases h b hb with hreach | ⟨mode, x, tailBlock, hp⟩
  · exact (hvalid.reaches_iff hvalid.frontBlock_mem).mp hreach
  · exact absurd hp (hlink mode x tailBlock b)

theorem Complete.produce {mode : AllocationMode} {x : α} {memory : Bool} {pc : EnqueueStep}
    (h : Complete s) (hvalid : Valid maxSize m s v) (hp : s.producer = .enqueuing mode x pc)
    (hstep : s.produce maxBlockSize memory mode x pc = some s') : Complete s' := by
  obtain ⟨r, henqueue, hresult⟩ := produce_cases hstep
  by_cases hallocate : ∃ tailBlock, pc = .allocate tailBlock
  · obtain ⟨tailBlock, rfl⟩ := hallocate
    have hlink : ∀ mode' x' tailBlock' b,
        s.producer ≠ .enqueuing mode' x' (.link tailBlock' b) := by
      intro mode' x' tailBlock' b heq
      rw [hp] at heq
      cases heq
    rcases allocate_cases henqueue with hsame | ⟨block, size, _, _, hqueue, hr⟩
    · intro b hb
      rw [hsame] at hb ⊢
      exact .inl ((hvalid.reaches_iff hvalid.frontBlock_mem).mpr (h.mem hvalid hlink hb))
    · intro b hb
      rw [hqueue] at hb ⊢
      rcases Nat.lt_succ_iff_lt_or_eq.mp hb with hlt | heq
      · have hin := h.mem hvalid hlink hlt
        have hring : Ring (s.queue.set s.queue.allocated block).next (v.ring s.queue) := by
          apply Ring.congr hvalid.ring
          intro a ha
          have hne : a ≠ s.queue.allocated := (hvalid.allocated a ha).ne
          exact congrArg Block.next (Queue.blocks_set_of_ne s.queue block hne)
        exact .inl ((hring.reaches_iff hvalid.frontBlock_mem).mpr hin)
      · subst hr
        rcases hresult with ⟨pc', hpc, hproducer, _⟩ | ⟨success, hpc, _, _⟩
        · cases hpc
          exact .inr ⟨mode, x, tailBlock, heq ▸ hproducer⟩
        · cases hpc
  · by_cases hlink : ∃ tailBlock b, pc = .link tailBlock b
    · obtain ⟨tailBlock, n, rfl⟩ := hlink
      obtain ⟨_, rfl, _, hfresh⟩ := hvalid.enqueuing hp
      obtain ⟨hqueue, _⟩ := Prod.mk.inj (Option.some_inj.mp henqueue)
      have hring := hvalid.ring_link hfresh.outside hfresh.next
      intro b hb
      rw [← hqueue] at hb ⊢
      left
      apply (Ring.reaches_iff hring (List.mem_append_left _ List.mem_cons_self)).mpr
      rcases h b hb with hreach | ⟨mode', x', tailBlock', heq⟩
      · have hin := (hvalid.reaches_iff hvalid.frontBlock_mem).mp hreach
        rcases List.mem_append.mp hin with hused | hfree
        · exact List.mem_append_left _ hused
        · exact List.mem_append_right _ (List.mem_cons_of_mem n hfree)
      · rw [hp] at heq
        cases heq
        exact List.mem_append_right _ List.mem_cons_self
    · obtain ⟨hshape, hfront⟩ := innerEnqueue_shape henqueue
        (fun tailBlock heq => hallocate ⟨tailBlock, heq⟩)
        (fun tailBlock b heq => hlink ⟨tailBlock, b, heq⟩)
      intro b hb
      rw [hshape.allocated] at hb
      rw [hshape.next, hfront]
      rcases h b hb with hreach | ⟨mode', x', tailBlock', heq⟩
      · exact .inl hreach
      · rw [hp] at heq
        cases heq
        exact absurd ⟨tailBlock', b, rfl⟩ hlink

theorem Complete.consume {request : Request} {pc : DequeueStep α} (h : Complete s)
    (hvalid : Valid maxSize m s v) (hc : s.consumer = .dequeuing request pc)
    (hstep : s.consume request pc = some s') : Complete s' := by
  obtain ⟨r, hdequeue, hproducer, _⟩ := consume_cases hstep
  obtain ⟨hshape, hfront⟩ := innerDequeue_shape hdequeue
  have hmem : s'.queue.frontBlock ∈ v.ring s.queue := by
    rcases hfront with hsame | ⟨i, rfl⟩
    · rw [hsame]
      exact hvalid.frontBlock_mem
    · obtain ⟨_, hnext, _⟩ := hvalid.dequeuing hc
      exact hvalid.behind_mem (List.mem_of_mem_head? hnext)
  intro b hb
  rw [hshape.allocated] at hb
  rw [hshape.next, hproducer]
  rcases h b hb with hreach | hpending
  · left
    rw [hvalid.reaches_iff hmem]
    exact (hvalid.reaches_iff hvalid.frontBlock_mem).mp hreach
  · exact .inr hpending

theorem Complete.step {e : Event α} (h : Complete s) (hvalid : Valid maxSize m s v)
    (hstep : s.step maxBlockSize e = some s') : Complete s' := by
  rcases step_cases hstep with rfl | ⟨mode, x, _, hp, rfl⟩ | ⟨request, _, _, rfl⟩ |
    ⟨memory, mode, x, pc, _, hp, hproduce⟩ | ⟨request, pc, _, hc, hconsume⟩
  · exact h
  · intro b hb
    rcases h b hb with hreach | ⟨mode', x', tailBlock, heq⟩
    · exact .inl hreach
    · rw [hp] at heq
      cases heq
  · exact h
  · exact h.produce hvalid hp hproduce
  · exact h.consume hvalid hc hconsume

theorem complete_initial (h : Admissible maxBlockSize maxSize) :
    Complete (System.initial maxBlockSize maxSize : System α) := by
  obtain ⟨size, n, hn, hcreate, _⟩ := @create_eq α maxSize _ h.block
  unfold System.initial
  rw [hcreate]
  intro b hb
  left
  apply (Ring.reaches_iff (ring_reserve hn) List.mem_cons_self).mpr
  have hlt : b < n := hb
  rw [List.mem_cons, List.mem_range'_1]
  omega

theorem Sound.size {block : Block α} {held : List α} (h : Sound block false held [])
    (hmask : block.sizeMask < 2 ^ 63) :
    (BitVec.ofNat 64 block.tail - BitVec.ofNat 64 block.front) &&& BitVec.ofNat 64 block.sizeMask
      = BitVec.ofNat 64 held.length := by
  obtain ⟨k, hk⟩ := h.holds.size
  have hfront := h.holds.front_lt
  have hlen := h.room.length_le
  rw [List.length_nil, Nat.add_zero] at hlen
  have htail : block.tail < block.sizeMask + 1 := by
    rw [h.holds.tail]
    exact Nat.mod_lt _ (Nat.succ_pos _)
  have hdvd : block.sizeMask + 1 ∣ 2 ^ 64 := by
    rw [hk]
    apply Nat.pow_dvd_pow
    have hlt : 2 ^ (k + 1) < 2 ^ 64 := by omega
    exact ((Nat.pow_lt_pow_iff_right Nat.one_lt_two).mp hlt).le
  apply BitVec.eq_of_toNat_eq
  rw [BitVec.toNat_and, BitVec.toNat_sub, BitVec.toNat_ofNat, BitVec.toNat_ofNat, BitVec.toNat_ofNat,
    BitVec.toNat_ofNat, Nat.mod_eq_of_lt (by omega : block.tail < 2 ^ 64),
    Nat.mod_eq_of_lt (by omega : block.front < 2 ^ 64),
    Nat.mod_eq_of_lt (by omega : block.sizeMask < 2 ^ 64),
    Nat.mod_eq_of_lt (by omega : held.length < 2 ^ 64), h.holds.and_mask, Nat.mod_mod_of_dvd _ hdvd,
    h.holds.tail, Nat.add_mod_mod]
  have hsum : 2 ^ 64 - block.front + (block.front + held.length) = held.length + 2 ^ 64 := by omega
  obtain ⟨c, hc⟩ := hdvd
  rw [hsum, hc, Nat.add_mul_mod_self_left, Nat.mod_eq_of_lt (by omega)]

theorem sum_sizes {contents : ℕ → List α} {l : List ℕ} {result : BitVec 64}
    (hsound : ∀ b ∈ l, Sound (q.blocks b) false (contents b) []) (hq : Narrow q) :
    l.foldlM (fun result b =>
      some (result + ((BitVec.ofNat 64 (q.blocks b).tail - BitVec.ofNat 64 (q.blocks b).front)
        &&& BitVec.ofNat 64 (q.blocks b).sizeMask))) result
      = some (result + BitVec.ofNat 64 (l.flatMap contents).length) := by
  induction l generalizing result with
  | nil =>
    rw [List.flatMap_nil, List.length_nil]
    exact congrArg some (BitVec.add_zero result).symm
  | cons b l ih =>
    have hb := (hsound b List.mem_cons_self).size (hq.2 b)
    rw [List.foldlM_cons, hb]
    have hrest := @ih (result + BitVec.ofNat 64 (contents b).length)
      fun a ha => hsound a (List.mem_cons_of_mem b ha)
    refine hrest.trans ?_
    rw [List.flatMap_cons, List.length_append, BitVec.ofNat_add, BitVec.add_assoc]

theorem destroyFrom_eq {block : Block α} {held : List α} {fuel i : ℕ}
    (h : Holds { block with front := i } false held [])
    (hroom : Room { block with front := i } held 0) (hfuel : held.length < fuel) :
    block.destroyFrom fuel i = some held := by
  induction fuel generalizing block held i with
  | zero => omega
  | succ fuel ih =>
    have hend := h.front_eq_tail hroom
    cases held with
    | nil => exact if_pos (hend.mpr rfl)
    | cons x held =>
      have hne : i ≠ block.tail := fun heq => List.cons_ne_nil x held (hend.mp heq)
      have hread : block.read i = some x := h.read
      have hrest : (block.destroy i).destroyFrom fuel ((i + 1) &&& block.sizeMask) = some held :=
        @ih (block.destroy i) held ((i + 1) &&& block.sizeMask) h.destroy.store_front
          (h.destroy.room_store_front hroom) (Nat.lt_of_succ_lt_succ hfuel)
      unfold Block.destroyFrom
      rw [if_neg hne, hread]
      exact congrArg (Option.map (x :: ·)) hrest

theorem destroy_blocks {contents : ℕ → List α} {l : List ℕ} {result : List α × List ℕ}
    (hsound : ∀ b ∈ l, Sound (q.blocks b) false (contents b) []) (hnodup : l.Nodup)
    (hfreed : ∀ b ∈ l, b ∉ result.2) :
    l.foldlM (fun result b =>
      let block := q.blocks b
      if b ∈ result.2 then none
      else
        match block.destroyFrom (block.sizeMask + 1) block.front with
        | none => none
        | some elements => some (result.1 ++ elements, result.2 ++ [b])) result
      = some (result.1 ++ l.flatMap contents, result.2 ++ l) := by
  induction l generalizing result with
  | nil =>
    rw [List.flatMap_nil, List.append_nil, List.append_nil]
    rfl
  | cons b l ih =>
    have hb := hsound b List.mem_cons_self
    have hlen := hb.room.length_le
    rw [List.length_nil, Nat.add_zero] at hlen
    have hdestroy : (q.blocks b).destroyFrom ((q.blocks b).sizeMask + 1) (q.blocks b).front
        = some (contents b) := destroyFrom_eq hb.holds hb.room (Nat.lt_succ_of_le hlen)
    rw [List.nodup_cons] at hnodup
    have hrest := @ih (result.1 ++ contents b, result.2 ++ [b])
      (fun a ha => hsound a (List.mem_cons_of_mem b ha)) hnodup.2 (by
        intro a ha hin
        rcases List.mem_append.mp hin with hold | hnew
        · exact hfreed a (List.mem_cons_of_mem b ha) hold
        · rw [List.mem_singleton.mp hnew] at ha
          exact hnodup.1 ha)
    rw [List.foldlM_cons]
    simp only [if_neg (hfreed b List.mem_cons_self), hdestroy]
    refine hrest.trans ?_
    rw [List.flatMap_cons, List.append_assoc, List.append_assoc]
    rfl

namespace Valid

theorem sound_idle (h : Valid maxSize m s v) (hp : s.producer = .idle) (hc : s.consumer = .idle) :
    ∀ b ∈ v.ring s.queue, Sound (s.queue.blocks b) false (v.contents b) [] := by
  intro b hb
  have hsound := h.sound b hb
  rw [hp, hc] at hsound
  exact hsound

theorem flatMap_ring (h : Valid maxSize m s v) (hp : s.producer = .idle) :
    (v.ring s.queue).flatMap v.contents = v.held s.queue := by
  have hfree : v.free.flatMap v.contents = [] := by
    rw [List.flatMap_eq_nil_iff]
    intro b hb
    have hempty := h.free b hb
    rw [hp] at hempty
    exact hempty
  rw [View.ring, List.flatMap_append, hfree, List.append_nil, List.flatMap_cons]
  rfl

theorem length_ring_le (h : Valid maxSize m s v) :
    (v.ring s.queue).length ≤ s.queue.allocated := by
  have hsub : v.ring s.queue ⊆ List.range s.queue.allocated := fun b hb =>
    List.mem_range.mpr (h.allocated b hb)
  have hle := (List.subperm_of_subset h.nodup hsub).length_le
  rw [List.length_range] at hle
  exact hle

theorem doWhile_blocks {β : Type} (h : Valid maxSize m s v) (body : β → ℕ → Option β) (result : β) :
    doWhile (fun b => (s.queue.blocks b).next) s.queue.frontBlock body s.queue.allocated
      s.queue.frontBlock result = (v.ring s.queue).foldlM body result :=
  Ring.doWhile h.ring h.length_ring_le

theorem sizeApprox_idle (h : Valid maxSize m s v) (hnarrow : Narrow s.queue)
    (hp : s.producer = .idle) (hc : s.consumer = .idle) :
    sizeApprox s.queue = some (BitVec.ofNat 64 (v.held s.queue).length) := by
  have hloop := @sum_sizes _ s.queue v.contents (v.ring s.queue) 0 (h.sound_idle hp hc) hnarrow
  rw [h.flatMap_ring hp, ← h.doWhile_blocks] at hloop
  exact hloop.trans (congrArg some (BitVec.zero_add _))

theorem destruct_idle (h : Valid maxSize m s v) (hp : s.producer = .idle) (hc : s.consumer = .idle) :
    destruct s.queue = some (v.held s.queue, v.ring s.queue) := by
  have hloop := @destroy_blocks _ s.queue v.contents (v.ring s.queue) ([], [])
    (h.sound_idle hp hc) h.nodup (fun b _ => List.not_mem_nil)
  rw [← h.doWhile_blocks] at hloop
  refine hloop.trans ?_
  rw [h.flatMap_ring hp]
  rfl

end Valid

/-- Whenever no thread is in a call, `size_approx` gives the number of elements accepted and not yet
removed. -/
theorem run_sizeApprox (h : Admissible maxBlockSize maxSize) (es : List (Event α)) :
    ∃ s, System.run maxBlockSize maxSize es = some s ∧
      (s.producer = .idle → s.consumer = .idle → sizeApprox s.queue
        = some (BitVec.ofNat 64 ((accepted s.history).length - (removed s.history).length))) := by
  have hword : maxBlockSize ≤ 2 ^ 63 := h.word.trans (by decide)
  obtain ⟨m, s, v, hrun, hvalid, hfits, hnarrow⟩ := @run_induction α _ _ h
    (fun s => (∀ a ∈ s.history, Fits a) ∧ Narrow s.queue) es
    ⟨fun a ha => (by cases ha), narrow_create h⟩
    fun _ _ _ _ _ _ hvalid hs hstep => ⟨step_fits hs.1 hstep, hs.2.step hvalid hword hstep⟩
  refine ⟨s, hrun, ?_⟩
  intro hp hc
  obtain ⟨taken, haccepted, hremoved⟩ := hvalid.conserved hfits
  rw [hvalid.sizeApprox_idle hnarrow hp hc, haccepted, List.length_append, hremoved.length_eq,
    Nat.add_sub_cancel_left]

theorem run_sizeApprox_overflow :
    ∃ s, System.run 2 1 overflow = some s ∧ s.producer = .idle ∧ s.consumer = .idle ∧
      sizeApprox s.queue = some (BitVec.ofNat 64 1) := by
  obtain ⟨s, hrun, hsize⟩ := run_sizeApprox admissible_two_one overflow
  obtain ⟨hproducer, hconsumer, hhistory, _⟩ := ended_overflow hrun
  refine ⟨s, hrun, hproducer, hconsumer, ?_⟩
  rw [hsize hproducer hconsumer, hhistory]
  rfl

/-- Whenever no thread is in a call, the destructor destroys the elements accepted and not yet
removed, in their order, and frees each block that was allocated once. -/
theorem run_destruct (h : Admissible maxBlockSize maxSize) (es : List (Event α)) :
    ∃ s, System.run maxBlockSize maxSize es = some s ∧
      (s.producer = .idle → s.consumer = .idle → ∃ freed,
        destruct s.queue
          = some ((accepted s.history).drop (removed s.history).length, freed) ∧
        freed.Perm (List.range s.queue.allocated)) := by
  obtain ⟨m, s, v, hrun, hvalid, hfits, hcomplete⟩ := @run_induction α _ _ h
    (fun s => (∀ a ∈ s.history, Fits a) ∧ Complete s) es
    ⟨fun a ha => (by cases ha), complete_initial h⟩
    fun _ _ _ _ _ _ hvalid hs hstep => ⟨step_fits hs.1 hstep, hs.2.step hvalid hstep⟩
  refine ⟨s, hrun, ?_⟩
  intro hp hc
  obtain ⟨taken, haccepted, hremoved⟩ := hvalid.conserved hfits
  have hnodup : (v.ring s.queue).Nodup := hvalid.nodup
  refine ⟨v.ring s.queue, ?_, ?_⟩
  · rw [hvalid.destruct_idle hp hc, haccepted, hremoved.length_eq, List.drop_left]
  · rw [List.perm_ext_iff_of_nodup hnodup List.nodup_range]
    intro b
    rw [List.mem_range]
    constructor
    · exact hvalid.allocated b
    · intro hb
      apply hcomplete.mem hvalid _ hb
      intro mode x tailBlock a heq
      rw [hp] at heq
      cases heq

theorem run_destruct_overflow :
    ∃ s, System.run 2 1 overflow = some s ∧ s.producer = .idle ∧ s.consumer = .idle ∧
      ∃ freed, destruct s.queue = some ([8], freed) ∧ freed.Perm [0, 1] := by
  obtain ⟨s, hrun, hdestruct⟩ := run_destruct admissible_two_one overflow
  obtain ⟨hproducer, hconsumer, hhistory, hallocated⟩ := ended_overflow hrun
  obtain ⟨freed, hdestroyed, hfreed⟩ := hdestruct hproducer hconsumer
  rw [hhistory] at hdestroyed
  rw [hallocated] at hfreed
  exact ⟨s, hrun, hproducer, hconsumer, freed, hdestroyed, hfreed⟩

end Moodycamel
