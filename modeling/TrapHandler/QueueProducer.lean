import TrapHandler.QueueSteps

/-!
# The steps of the producer

Each step of `inner_enqueue` succeeds and keeps the invariant, whatever the consumer is doing.
-/

namespace Moodycamel

open Linearizability CircularChains

variable {α : Type} {maxSize m maxBlockSize : ℕ} {s : System α} {v : View α}
  {mode : AllocationMode} {x : α} {memory : Bool}

def Kept (maxSize m : ℕ) (next : Option (System α)) : Prop :=
  ∃ s v, next = some s ∧ Valid maxSize m s v

theorem Kept.continues {pc pc' : EnqueueStep} {q' : Queue α} {v' : View α}
    (hstep : innerEnqueue maxBlockSize mode x memory s.queue pc = some (q', .inl pc'))
    (hvalid : Valid maxSize m ⟨q', .enqueuing mode x pc', s.consumer, s.history⟩ v') :
    Kept maxSize m (s.produce maxBlockSize memory mode x pc) := by
  refine ⟨_, v', ?_, hvalid⟩
  unfold System.produce
  rw [hstep]

theorem Kept.returns {pc : EnqueueStep} {q' : Queue α} {v' : View α} {success : Bool}
    (hstep : innerEnqueue maxBlockSize mode x memory s.queue pc = some (q', .inr success))
    (hvalid : Valid maxSize m ⟨q', .idle, s.consumer,
      s.history ++ [.answer .producer (.enqueue mode x) (.flag success)]⟩ v') :
    Kept maxSize m (s.produce maxBlockSize memory mode x pc) := by
  refine ⟨_, v', ?_, hvalid⟩
  unfold System.produce
  rw [hstep]

namespace Valid

theorem enqueuing {pc : EnqueueStep} (h : Valid maxSize m s v)
    (hp : s.producer = .enqueuing mode x pc) :
    .pending (.enqueue mode x) ∈ v.options .producer ∧ EnqueueAt s.queue v m mode x pc := by
  have hproducer := h.producer
  rw [hp] at hproducer
  exact hproducer

theorem length_held_ge (h : Valid maxSize m s v) (hne : v.behind ≠ []) (hfull : TailFull s.queue v) :
    v.behind.length * m ≤ (v.held s.queue).length := by
  have hblocks : ∀ b ∈ v.behind, m ≤ (v.contents b).length := by
    intro b hb
    have hmask := h.capacity.blocks b (h.behind_mem hb)
    rw [h.tailBlock_of_ne_nil hne, List.mem_append, List.mem_singleton] at hb
    cases hb with
    | inl hb => exact hmask.trans_eq (h.full b hb).symm
    | inr hb =>
      subst hb
      exact hmask.trans_eq (hfull hne).symm
  have hsum : ∀ l : List ℕ, (∀ b ∈ l, m ≤ (v.contents b).length) →
      l.length * m ≤ (l.flatMap v.contents).length := by
    intro l hl
    induction l with
    | nil => simp
    | cons b l ih =>
      have hb := hl b List.mem_cons_self
      have hrest := ih fun a ha => hl a (List.mem_cons_of_mem b ha)
      rw [List.flatMap_cons, List.length_append, List.length_cons, Nat.succ_mul]
      omega
  rw [View.held, List.length_append]
  exact (hsum v.behind hblocks).trans (Nat.le_add_left _ _)

/-- Without a free block behind the tail the queue holds `maxSize` elements. -/
theorem maxSize_le (h : Valid maxSize m s v) (hfull : TailFull s.queue v) (hfree : v.free = [])
    (hone : v.behind = [] → m ≤ (v.contents s.queue.frontBlock).length) :
    maxSize ≤ (v.held s.queue).length := by
  have henough := h.capacity.enough
  rw [hfree, List.length_nil, Nat.add_zero] at henough
  by_cases hne : v.behind = []
  · have hm := hone hne
    rw [hne, List.length_nil, Nat.max_eq_left (Nat.zero_le 1), Nat.one_mul] at henough
    rw [View.held, hne, List.flatMap_nil, List.append_nil]
    exact henough.trans hm
  · have hpos : 1 ≤ v.behind.length := List.length_pos_iff.mpr hne
    rw [Nat.max_eq_right hpos] at henough
    exact henough.trans (h.length_held_ge hne hfull)

theorem next_tailBlock (h : Valid maxSize m s v) :
    (s.queue.blocks s.queue.tailBlock).next
      = (v.free ++ s.queue.frontBlock :: v.behind).head? := by
  have hring := h.ring
  obtain ⟨front, hsplit⟩ := List.getLast?_eq_some_iff.mp h.tail
  rw [View.ring, hsplit] at hring
  have hrotated := hring.rotate
  rw [← List.append_assoc] at hrotated
  rw [hrotated.next_last, List.append_assoc, ← hsplit]

theorem next_tailBlock_eq_iff (h : Valid maxSize m s v) :
    (s.queue.blocks s.queue.tailBlock).next = some s.queue.frontBlock ↔ v.free = [] := by
  rw [h.next_tailBlock]
  constructor
  · intro heq
    cases hfree : v.free with
    | nil => rfl
    | cons n free =>
      rw [hfree] at heq
      have hn : n = s.queue.frontBlock := Option.some.inj heq
      have hin : s.queue.frontBlock ∈ v.free := by
        rw [hfree, hn]
        exact List.mem_cons_self
      exact absurd hin h.frontBlock_notMem_free
  · intro hfree
    rw [hfree]
    rfl

theorem keeps_start (h : Valid maxSize m s v) (hp : s.producer = .enqueuing mode x .start) :
    Kept maxSize m (s.produce maxBlockSize memory mode x .start) := by
  obtain ⟨hpending, _⟩ := h.enqueuing hp
  have hbuilt : s.producer.built = fun _ => [] := congrArg Producer.built hp
  have hstaged : s.producer.staged = fun _ => [] := congrArg Producer.staged hp
  have hsound := h.sound _ h.tailBlock_mem
  rw [hbuilt] at hsound
  by_cases hne : ((s.queue.blocks s.queue.tailBlock).tail + 1)
      &&& (s.queue.blocks s.queue.tailBlock).sizeMask
        ≠ (s.queue.blocks s.queue.tailBlock).localFront
  · apply Kept.continues
    · exact if_pos hne
    · refine h.rethread rfl hbuilt.symm hstaged.symm ⟨hpending, ?_⟩
        (h.consumer.frame (Grows.of_options rfl)) h.explains
      exact ⟨rfl, rfl, rfl, hsound.holds.room_of_localFront hsound.room hne⟩
  · apply Kept.continues
    · exact if_neg hne
    · refine h.rethread rfl hbuilt.symm hstaged.symm ⟨hpending, ?_⟩
        (h.consumer.frame (Grows.of_options rfl)) h.explains
      exact ⟨rfl, rfl, rfl⟩

theorem keeps_loadFront {tailBlock blockTail nextBlockTail : ℕ} (h : Valid maxSize m s v)
    (hp : s.producer = .enqueuing mode x (.loadFront tailBlock blockTail nextBlockTail)) :
    Kept maxSize m
      (s.produce maxBlockSize memory mode x (.loadFront tailBlock blockTail nextBlockTail)) := by
  obtain ⟨hpending, rfl, rfl, rfl⟩ := h.enqueuing hp
  have hbuilt : s.producer.built = fun _ => [] := congrArg Producer.built hp
  have hstaged : s.producer.staged = fun _ => [] := congrArg Producer.staged hp
  have hsound := h.sound _ h.tailBlock_mem
  rw [hbuilt] at hsound
  have hgrows : ∀ options : Role → Set (Status (Operation α) (Result α)),
      options .consumer = v.options .consumer → Grows s.queue v
        (s.queue.set s.queue.tailBlock { s.queue.blocks s.queue.tailBlock with
          localFront := (s.queue.blocks s.queue.tailBlock).front })
        { v with options := options } := fun options hoptions =>
    Grows.set rfl rfl rfl (fun _ => List.prefix_refl _) (fun _ => rfl) hoptions
  have hothers : ∀ a ≠ s.queue.tailBlock, s.consumer.moved a = s.consumer.moved a ∧
      [] = s.producer.built a := by
    intro a _
    rw [hbuilt]
    exact ⟨rfl, rfl⟩
  by_cases hne : ((s.queue.blocks s.queue.tailBlock).tail + 1)
      &&& (s.queue.blocks s.queue.tailBlock).sizeMask
        ≠ (s.queue.blocks s.queue.tailBlock).front
  · apply Kept.continues
    · exact if_pos hne
    · refine h.touch rfl rfl hsound.load_front hothers hstaged.symm ⟨hpending, ?_⟩
        (h.consumer.frame (hgrows v.options rfl)) h.explains
      have hle : (v.contents s.queue.tailBlock).length + 1
          ≤ (s.queue.blocks s.queue.tailBlock).sizeMask := by
        have hfull := mt (hsound.holds.next_tail_eq_front hsound.room).mpr hne
        have hlen := hsound.room.length_le
        rw [List.length_nil, Nat.add_zero] at hlen
        omega
      simp only [EnqueueAt, Queue.blocks_set, Queue.tailBlock_set, true_and]
      exact hsound.holds.room_front hle
  · have hlen := (hsound.holds.next_tail_eq_front hsound.room).mp (not_not.mp hne)
    have hfull : ∀ options : Role → Set (Status (Operation α) (Result α)), TailFull
        (s.queue.set s.queue.tailBlock { s.queue.blocks s.queue.tailBlock with
          localFront := (s.queue.blocks s.queue.tailBlock).front })
        { v with options := options } := by
      intro options _
      simp only [Queue.tailBlock_set, Queue.blocks_set]
      exact hlen
    by_cases hone : v.behind = [] ∧ v.free = []
    · have hmax : maxSize ≤ (v.held s.queue).length := by
        apply h.maxSize_le (fun _ => hlen) hone.2
        intro hnil
        rw [← h.tailBlock_of_nil hnil, hlen]
        exact h.capacity.blocks _ h.tailBlock_mem
      have hexplains := h.explains.observe hpending (Fifo.refuse mode x _ hmax)
      apply Kept.continues
      · exact if_neg hne
      · refine h.touch rfl rfl hsound.load_front hothers hstaged.symm ⟨?_, rfl, hfull _, ?_⟩
          (h.consumer.frame (hgrows _ (options_consumer ..))) hexplains
        · simp only [Function.update_self]
          exact Set.mem_insert_of_mem _ hpending
        · intro _ _
          simp only [Refusable, Function.update_self]
          exact Set.mem_insert _ _
    · apply Kept.continues
      · exact if_neg hne
      · refine h.touch rfl rfl hsound.load_front hothers hstaged.symm
          ⟨hpending, rfl, hfull _, ?_⟩ (h.consumer.frame (hgrows v.options rfl)) h.explains
        intro hbehind hfree
        exact absurd ⟨hbehind, hfree⟩ hone

theorem keeps_construct {tailBlock blockTail nextBlockTail : ℕ} (h : Valid maxSize m s v)
    (hp : s.producer = .enqueuing mode x (.construct tailBlock blockTail nextBlockTail)) :
    Kept maxSize m
      (s.produce maxBlockSize memory mode x (.construct tailBlock blockTail nextBlockTail)) := by
  obtain ⟨hpending, rfl, rfl, rfl, hroom⟩ := h.enqueuing hp
  have hbuilt : s.producer.built = fun _ => [] := congrArg Producer.built hp
  have hstaged : s.producer.staged = fun _ => [] := congrArg Producer.staged hp
  have hsound := h.sound _ h.tailBlock_mem
  rw [hbuilt] at hsound
  have hconstruct := (hsound.holds.construct hroom x).1
  apply Kept.continues
  · simp only [innerEnqueue, hconstruct]
    rfl
  · refine h.touch rfl rfl ?_ ?_ hstaged.symm ⟨hpending, rfl, ?_⟩
      (h.consumer.frame (Grows.set rfl rfl rfl (fun _ => List.prefix_refl _) (fun _ => rfl) rfl))
      h.explains
    · simp only [Producer.built, if_true]
      exact hsound.construct hroom x
    · intro a ha
      rw [hbuilt]
      exact ⟨rfl, if_neg ha⟩
    · simp only [Queue.blocks_set]

theorem keeps_storeTail {tailBlock nextBlockTail : ℕ} (h : Valid maxSize m s v)
    (hp : s.producer = .enqueuing mode x (.storeTail tailBlock nextBlockTail)) :
    Kept maxSize m
      (s.produce maxBlockSize memory mode x (.storeTail tailBlock nextBlockTail)) := by
  obtain ⟨hpending, rfl, rfl⟩ := h.enqueuing hp
  have hbuilt : s.producer.built = fun b => if b = s.queue.tailBlock then [x] else [] :=
    congrArg Producer.built hp
  have hstaged : s.producer.staged = fun _ => [] := congrArg Producer.staged hp
  have hsound := h.sound _ h.tailBlock_mem
  simp only [hbuilt, if_true] at hsound
  have hexplains := h.explains.effect_answer hpending (Fifo.accept mode x _)
  rw [← h.held_append x] at hexplains
  have hgrows : ∀ a, v.contents a <+: Function.update v.contents s.queue.tailBlock
      (v.contents s.queue.tailBlock ++ [x]) a := by
    intro a
    by_cases ha : a = s.queue.tailBlock
    · subst ha
      rw [Function.update_self]
      exact List.prefix_append _ _
    · rw [Function.update_of_ne ha]
  apply Kept.returns
  · rfl
  · refine h.set rfl rfl ?_ ?_ ?_ ?_ ?_ ?_ (h.consumer.frame (Grows.set rfl rfl rfl hgrows ?_ ?_))
      hexplains
    · rw [Function.update_self]
      exact hsound.store_tail
    · intro a ha
      rw [hbuilt, Function.update_of_ne ha]
      exact ⟨rfl, rfl, (if_neg ha).symm⟩
    · intro a ha
      have hne : a ≠ s.queue.tailBlock := by
        intro heq
        exact h.tailBlock_notMem_free (heq ▸ ha)
      rw [Function.update_of_ne hne, h.free a ha, hstaged]
      rfl
    · intro _
      rw [Function.update_self]
      exact List.append_ne_nil_of_right_ne_nil _ (List.cons_ne_nil x [])
    · intro hin
      exact absurd hin h.tailBlock_notMem_dropLast
    · exact Producer.ok_idle rfl
    · intro hne
      exact Function.update_of_ne (mt h.tailBlock_eq_iff.mp hne) ..
    · exact options_consumer ..

theorem exists_refusable (h : Valid maxSize m s v)
    (hpending : .pending (.enqueue mode x) ∈ v.options .producer)
    (hfull : TailFull s.queue v) (hfree : v.free = [])
    (hrefuse : v.behind = [] → v.free = [] → Refusable v mode x) :
    ∃ options : Role → Set (Status (Operation α) (Result α)),
      options .consumer = v.options .consumer ∧
      .pending (.enqueue mode x) ∈ options .producer ∧
      .done (.enqueue mode x) (.flag false) ∈ options .producer ∧
      Explains (Fifo maxSize) [] s.history (v.held s.queue) options := by
  by_cases hone : v.behind = []
  · exact ⟨v.options, rfl, hpending, hrefuse hone hfree, h.explains⟩
  · have hmax := h.maxSize_le hfull hfree fun hnil => absurd hnil hone
    refine ⟨_, options_consumer .., ?_, ?_,
      h.explains.observe hpending (Fifo.refuse mode x _ hmax)⟩
    · rw [Function.update_self]
      exact Set.mem_insert_of_mem _ hpending
    · rw [Function.update_self]
      exact Set.mem_insert _ _

theorem keeps_loadFrontBlock {tailBlock : ℕ} (h : Valid maxSize m s v)
    (hp : s.producer = .enqueuing mode x (.loadFrontBlock tailBlock)) :
    Kept maxSize m (s.produce maxBlockSize memory mode x (.loadFrontBlock tailBlock)) := by
  obtain ⟨hpending, rfl, hfull, hrefuse⟩ := h.enqueuing hp
  have hbuilt : s.producer.built = fun _ => [] := congrArg Producer.built hp
  have hstaged : s.producer.staged = fun _ => [] := congrArg Producer.staged hp
  by_cases hnext : (s.queue.blocks s.queue.tailBlock).next = some s.queue.frontBlock
  · have hfree := h.next_tailBlock_eq_iff.mp hnext
    obtain ⟨options, hconsumer, hstill, hdone, hexplains⟩ :=
      h.exists_refusable hpending hfull hfree hrefuse
    by_cases hmode : mode = .canAlloc
    · apply Kept.continues
      · simp only [innerEnqueue, ne_eq, hnext, not_true, if_false, if_pos hmode]
        rfl
      · exact h.rethread rfl hbuilt.symm hstaged.symm ⟨hstill, rfl, hfull, hdone⟩
          (h.consumer.frame (Grows.of_options hconsumer)) hexplains
    · have hanswer := hexplains.answer hdone
      apply Kept.returns
      · simp only [innerEnqueue, ne_eq, hnext, not_true, if_false, if_neg hmode]
        rfl
      · refine h.rethread rfl hbuilt.symm hstaged.symm ?_
          (h.consumer.frame (Grows.of_options ?_)) hanswer
        · exact Producer.ok_idle rfl
        · rw [options_consumer, hconsumer]
  · have hfree : v.free ≠ [] := mt h.next_tailBlock_eq_iff.mpr hnext
    apply Kept.continues
    · exact if_pos hnext
    · exact h.rethread rfl hbuilt.symm hstaged.symm ⟨hpending, rfl, hfull, hfree⟩
        (h.consumer.frame (Grows.of_options rfl)) h.explains

theorem keeps_loadNextFront {tailBlock : ℕ} (h : Valid maxSize m s v)
    (hp : s.producer = .enqueuing mode x (.loadNextFront tailBlock)) :
    Kept maxSize m (s.produce maxBlockSize memory mode x (.loadNextFront tailBlock)) := by
  obtain ⟨hpending, rfl, hfull, hne⟩ := h.enqueuing hp
  have hbuilt : s.producer.built = fun _ => [] := congrArg Producer.built hp
  have hstaged : s.producer.staged = fun _ => [] := congrArg Producer.staged hp
  obtain ⟨n, free, hfree⟩ := List.exists_cons_of_ne_nil hne
  have hn : n ∈ v.free := by
    rw [hfree]
    exact List.mem_cons_self
  have hnext : (s.queue.blocks s.queue.tailBlock).next = some n := by
    rw [h.next_tailBlock, hfree]
    rfl
  have hempty : v.contents n = [] := by
    rw [h.free n hn, hstaged]
  have hsound := h.sound n (h.free_mem hn)
  rw [hbuilt] at hsound
  have heq : (s.queue.blocks n).front = (s.queue.blocks n).tail :=
    (hsound.holds.front_eq_tail hsound.room).mpr hempty
  have htail : n ≠ s.queue.tailBlock := by
    intro hin
    exact h.tailBlock_notMem_free (hin ▸ hn)
  apply Kept.continues
  · simp only [innerEnqueue, hnext, if_pos heq]
    rfl
  · refine h.touch rfl rfl hsound.load_front ?_ hstaged.symm ⟨hpending, hfull.set rfl rfl, ?_⟩
      (h.consumer.frame (Grows.set rfl rfl rfl (fun _ => List.prefix_refl _) (fun _ => rfl) rfl))
      h.explains
    · intro a _
      rw [hbuilt]
      exact ⟨rfl, rfl⟩
    · have hroom : (v.contents n).length + 1 ≤ (s.queue.blocks n).sizeMask := by
        rw [hempty, List.length_nil, Nat.zero_add]
        exact hsound.holds.sizeMask_pos
      have hhead : v.free.head? = some n := by
        rw [hfree]
        rfl
      simp only [Queue.blocks_set, true_and]
      exact ⟨hhead, hsound.holds.room_front hroom⟩

theorem keeps_constructNext {tailBlockNext nextBlockTail : ℕ} (h : Valid maxSize m s v)
    (hp : s.producer = .enqueuing mode x (.constructNext tailBlockNext nextBlockTail)) :
    Kept maxSize m
      (s.produce maxBlockSize memory mode x (.constructNext tailBlockNext nextBlockTail)) := by
  obtain ⟨hpending, hfull, hhead, rfl, hroom⟩ := h.enqueuing hp
  have hbuilt : s.producer.built = fun _ => [] := congrArg Producer.built hp
  have hstaged : s.producer.staged = fun _ => [] := congrArg Producer.staged hp
  have hn : tailBlockNext ∈ v.free := List.mem_of_mem_head? hhead
  have hsound := h.sound _ (h.free_mem hn)
  rw [hbuilt] at hsound
  have hconstruct := (hsound.holds.construct hroom x).1
  apply Kept.continues
  · simp only [innerEnqueue, hconstruct]
    rfl
  · refine h.touch rfl rfl ?_ ?_ hstaged.symm ⟨hpending, hfull.set rfl rfl, hhead, ?_⟩
      (h.consumer.frame (Grows.set rfl rfl rfl (fun _ => List.prefix_refl _) (fun _ => rfl) rfl))
      h.explains
    · simp only [Producer.built, if_true]
      exact hsound.construct hroom x
    · intro a ha
      rw [hbuilt]
      exact ⟨rfl, if_neg ha⟩
    · simp only [Queue.blocks_set]

theorem keeps_storeNextTail {tailBlockNext nextBlockTail : ℕ} (h : Valid maxSize m s v)
    (hp : s.producer = .enqueuing mode x (.storeNextTail tailBlockNext nextBlockTail)) :
    Kept maxSize m
      (s.produce maxBlockSize memory mode x (.storeNextTail tailBlockNext nextBlockTail)) := by
  obtain ⟨hpending, hfull, hhead, rfl⟩ := h.enqueuing hp
  have hbuilt : s.producer.built = fun b => if b = tailBlockNext then [x] else [] :=
    congrArg Producer.built hp
  have hstaged : s.producer.staged = fun _ => [] := congrArg Producer.staged hp
  have hn : tailBlockNext ∈ v.free := List.mem_of_mem_head? hhead
  have hempty : v.contents tailBlockNext = [] := by
    rw [h.free _ hn, hstaged]
  have hsound := h.sound _ (h.free_mem hn)
  simp only [hbuilt, if_true, hempty] at hsound
  have hfront : s.queue.frontBlock ≠ tailBlockNext := by
    intro heq
    exact h.frontBlock_notMem_free (heq ▸ hn)
  have htail : s.queue.tailBlock ≠ tailBlockNext := by
    intro heq
    exact h.tailBlock_notMem_free (heq ▸ hn)
  have hbehind : tailBlockNext ∉ v.behind := fun hin => h.behind_notMem_free hin hn
  have hgrows : ∀ a, v.contents a <+: Function.update v.contents tailBlockNext [x] a := by
    intro a
    by_cases ha : a = tailBlockNext
    · subst ha
      rw [hempty]
      exact List.nil_prefix
    · rw [Function.update_of_ne ha]
  have hheld : Function.update v.contents tailBlockNext [x] s.queue.frontBlock
      ++ v.behind.flatMap (Function.update v.contents tailBlockNext [x]) = v.held s.queue := by
    rw [Function.update_of_ne hfront, flatMap_behind hbehind, View.held]
  have hexplains := h.explains
  rw [← hheld] at hexplains
  apply Kept.continues
  · rfl
  · refine h.set rfl rfl ?_ ?_ ?_ (fun hin => absurd hin hbehind)
      (fun hin => absurd (List.mem_of_mem_dropLast hin) hbehind) ?_
      (h.consumer.frame (Grows.set rfl rfl rfl hgrows ?_ rfl)) hexplains
    · rw [Function.update_self]
      exact hsound.store_tail
    · intro a ha
      rw [hbuilt, Function.update_of_ne ha]
      exact ⟨rfl, rfl, (if_neg ha).symm⟩
    · intro a ha
      by_cases hat : a = tailBlockNext
      · subst hat
        rw [Function.update_self]
        exact (if_pos rfl).symm
      · rw [Function.update_of_ne hat, h.free a ha, hstaged]
        exact (if_neg hat).symm
    · exact ⟨hpending, hfull.set rfl (Function.update_of_ne htail ..), hhead⟩
    · intro _
      exact Function.update_of_ne hfront ..

theorem sound_newBlock {k newBlockSize : ℕ} (hsize : newBlockSize = 2 ^ (k + 1)) (x : α)
    (next : Option ℕ) :
    ∃ block, (makeBlock newBlockSize : Block α).construct 0 x = some block ∧
      Sound { block with tail := 1, localTail := 1, next := next } false [x] [] ∧
      block.sizeMask + 1 = newBlockSize := by
  subst hsize
  have hmake : Sound (makeBlock (2 ^ (k + 1)) : Block α) false [] [] := Sound.makeBlock
  have hpos := hmake.holds.sizeMask_pos
  have hroom : Room (makeBlock (2 ^ (k + 1)) : Block α) [] 1 := by
    refine ⟨0, Nat.zero_mod _, ?_⟩
    rw [Nat.zero_add]
    exact hpos
  have hone : (0 + 1) &&& (makeBlock (2 ^ (k + 1)) : Block α).sizeMask = 1 := by
    rw [hmake.holds.and_mask, Nat.mod_eq_of_lt (by omega)]
  have hstored := (((hmake.construct hroom x).store_tail).load_tail).set_next next
  have htail : (makeBlock (2 ^ (k + 1)) : Block α).tail = 0 := rfl
  simp only [htail, hone] at hstored
  refine ⟨_, (hmake.holds.construct hroom x).1, hstored, ?_⟩
  have hsize : 0 < 2 ^ (k + 1) := Nat.two_pow_pos _
  simp only [makeBlock]
  omega

theorem newBlockSize_eq (h : Valid maxSize m s v) (maxBlockSize : ℕ) :
    ∃ k, (if maxBlockSize ≤ s.queue.largestBlockSize then s.queue.largestBlockSize
      else s.queue.largestBlockSize * 2) = 2 ^ (k + 1) ∧ m + 1 ≤ 2 ^ (k + 1) := by
  obtain ⟨k, hk⟩ := h.capacity.largest
  have hle := h.capacity.le_largest
  by_cases hlarge : maxBlockSize ≤ s.queue.largestBlockSize
  · refine ⟨k, ?_, ?_⟩
    · rw [if_pos hlarge, hk]
    · rw [← hk]
      exact hle
  · refine ⟨k + 1, ?_, ?_⟩
    · rw [if_neg hlarge, hk, ← pow_succ]
    · rw [pow_succ, ← hk]
      omega

theorem allocated_notMem (h : Valid maxSize m s v) : s.queue.allocated ∉ v.ring s.queue :=
  fun hin => Nat.lt_irrefl _ (h.allocated _ hin)

theorem outside (h : Valid maxSize m s v) {block : Block α} {size k : ℕ} {p : Producer α}
    (hsize : size = 2 ^ (k + 1)) (hle : m + 1 ≤ size) (hbuilt : p.built = s.producer.built)
    (hstaged : p.staged = s.producer.staged)
    (hproducer : p.Ok { s.queue.set s.queue.allocated block with
      allocated := s.queue.allocated + 1, largestBlockSize := size } v m) :
    Valid maxSize m ⟨{ s.queue.set s.queue.allocated block with
      allocated := s.queue.allocated + 1, largestBlockSize := size }, p, s.consumer, s.history⟩
      v := by
  have hsame : ∀ b ∈ v.ring s.queue,
      (s.queue.set s.queue.allocated block).blocks b = s.queue.blocks b := by
    intro b hb
    apply Queue.blocks_set_of_ne
    intro heq
    exact h.allocated_notMem (heq ▸ hb)
  constructor
  · refine h.ring.congr ?_
    intro b hb
    exact congrArg Block.next (hsame b hb)
  · intro b hb
    exact Nat.lt_succ_of_lt (h.allocated b hb)
  · exact h.tail
  · intro b hb
    have hsound := h.sound b hb
    rw [← hsame b hb, ← hbuilt] at hsound
    exact hsound
  · intro b hb
    rw [hstaged]
    exact h.free b hb
  · exact h.nonempty
  · intro b hb
    have hmem := h.behind_mem (List.mem_of_mem_dropLast hb)
    exact (h.full b hb).trans (congrArg Block.sizeMask (hsame b hmem)).symm
  · refine ⟨?_, h.capacity.enough, ⟨k, hsize⟩, hle⟩
    intro b hb
    exact (h.capacity.blocks b hb).trans_eq (congrArg Block.sizeMask (hsame b hb)).symm
  · exact hproducer
  · refine h.consumer.frame ?_
    have hused : ∀ b ∈ s.queue.frontBlock :: v.behind,
        (s.queue.set s.queue.allocated block).blocks b = s.queue.blocks b := fun b hb =>
      hsame b (List.mem_append_left _ hb)
    exact ⟨rfl, fun b hb => congrArg Block.front (hused b hb),
      fun b hb => congrArg Block.localTail (hused b hb),
      fun b hb => congrArg Block.sizeMask (hused b hb), fun _ _ => List.prefix_refl _,
      fun _ => rfl, List.prefix_refl _, rfl⟩
  · exact h.explains

theorem keeps_allocate {tailBlock : ℕ} (h : Valid maxSize m s v)
    (hp : s.producer = .enqueuing mode x (.allocate tailBlock)) :
    Kept maxSize m (s.produce maxBlockSize memory mode x (.allocate tailBlock)) := by
  obtain ⟨hpending, rfl, hfull, hdone⟩ := h.enqueuing hp
  have hbuilt : s.producer.built = fun _ => [] := congrArg Producer.built hp
  have hstaged : s.producer.staged = fun _ => [] := congrArg Producer.staged hp
  cases memory with
  | false =>
    apply Kept.returns
    · rfl
    · refine h.rethread rfl hbuilt.symm hstaged.symm ?_
        (h.consumer.frame (Grows.of_options ?_)) (h.explains.answer hdone)
      · exact Producer.ok_idle rfl
      · exact options_consumer ..
  | true =>
    obtain ⟨k, hsize, hle⟩ := h.newBlockSize_eq maxBlockSize
    obtain ⟨block, hblock, hsound, hmask⟩ :=
      sound_newBlock hsize x (s.queue.blocks s.queue.tailBlock).next
    have htail : s.queue.tailBlock ≠ s.queue.allocated := by
      intro heq
      exact h.allocated_notMem (heq ▸ h.tailBlock_mem)
    apply Kept.continues
    · simp only [innerEnqueue, if_true, hblock]
      rfl
    · refine h.outside hsize (hsize ▸ hle) hbuilt.symm hstaged.symm ⟨hpending, rfl, ?_, ?_⟩
      · intro hne
        have hlen := hfull hne
        simp only [Queue.tailBlock_set, Queue.blocks_set_of_ne _ _ htail]
        exact hlen
      · constructor
        · exact h.allocated_notMem
        · exact Nat.lt_succ_self _
        · simp only [Queue.blocks_set]
          exact hsound
        · simp only [Queue.blocks_set, Queue.blocks_set_of_ne _ _ htail]
        · simp only [Queue.blocks_set]
          omega

theorem ring_link (h : Valid maxSize m s v) {n : ℕ} (hn : n ∉ v.ring s.queue)
    (hnext : (s.queue.blocks n).next = (s.queue.blocks s.queue.tailBlock).next) :
    Ring (fun b => ((s.queue.set s.queue.tailBlock
        { s.queue.blocks s.queue.tailBlock with next := some n }).blocks b).next)
      (s.queue.frontBlock :: v.behind ++ n :: v.free) := by
  obtain ⟨front, hsplit⟩ := List.getLast?_eq_some_iff.mp h.tail
  have hring := h.ring
  rw [View.ring, hsplit] at hring hn
  have hnodup := hring.nodup
  have hrotated := hring.rotate
  rw [← List.append_assoc] at hrotated
  have htail : n ≠ s.queue.tailBlock := by
    intro heq
    apply hn
    rw [heq]
    simp
  have hlinked : Ring (fun b => ((s.queue.set s.queue.tailBlock
        { s.queue.blocks s.queue.tailBlock with next := some n }).blocks b).next)
      (v.free ++ front ++ [s.queue.tailBlock] ++ [n]) := by
    apply hrotated.link
    · intro hin
      apply hn
      simp only [List.mem_append, List.mem_singleton] at hin ⊢
      tauto
    · intro b hb
      have hne : b ≠ s.queue.tailBlock := by
        intro heq
        subst heq
        have hrot := hrotated.nodup
        rw [List.nodup_append] at hrot
        exact hrot.2.2 _ hb _ List.mem_cons_self rfl
      exact congrArg Block.next (Queue.blocks_set_of_ne _ _ hne)
    · simp only [Queue.blocks_set]
    · simp only [Queue.blocks_set_of_ne _ _ htail]
      exact hnext
  rw [List.append_assoc, List.append_assoc] at hlinked
  have hfinal := hlinked.rotate
  rw [hsplit]
  simp only [List.append_assoc, List.cons_append, List.nil_append] at hfinal ⊢
  exact hfinal

theorem keeps_link {tailBlock newBlock : ℕ} (h : Valid maxSize m s v)
    (hp : s.producer = .enqueuing mode x (.link tailBlock newBlock)) :
    Kept maxSize m (s.produce maxBlockSize memory mode x (.link tailBlock newBlock)) := by
  obtain ⟨hpending, rfl, hfull, hfresh⟩ := h.enqueuing hp
  have hbuilt : s.producer.built = fun _ => [] := congrArg Producer.built hp
  have hstaged : s.producer.staged = fun _ => [] := congrArg Producer.staged hp
  have hne : ∀ b ∈ v.ring s.queue, b ≠ newBlock := by
    intro b hb heq
    exact hfresh.outside (heq ▸ hb)
  have hfront := hne _ h.frontBlock_mem
  have htail := hne _ h.tailBlock_mem
  have hbehind : newBlock ∉ v.behind := fun hin => hne _ (h.behind_mem hin) rfl
  have hmask : ∀ b, ((s.queue.set s.queue.tailBlock { s.queue.blocks s.queue.tailBlock with
      next := some newBlock }).blocks b).sizeMask = (s.queue.blocks b).sizeMask :=
    Queue.field_set Block.sizeMask rfl
  have hold : ∀ b ∈ v.ring s.queue,
      Function.update v.contents newBlock [x] b = v.contents b := fun b hb =>
    Function.update_of_ne (hne b hb) ..
  have hcases : ∀ b, b ∈ s.queue.frontBlock :: v.behind ++ newBlock :: v.free →
      b = newBlock ∨ b ∈ v.ring s.queue := by
    intro b hb
    simp only [View.ring, List.mem_append, List.mem_cons] at hb ⊢
    tauto
  have hvalid : Valid maxSize m
      ⟨s.queue.set s.queue.tailBlock { s.queue.blocks s.queue.tailBlock with next := some newBlock },
        .enqueuing mode x (.storeTailBlock newBlock), s.consumer, s.history⟩
      { v with
        free := newBlock :: v.free, contents := Function.update v.contents newBlock [x] } := by
    constructor
    · exact h.ring_link hfresh.outside hfresh.next
    · intro b hb
      cases hcases b hb with
      | inl heq => exact heq ▸ hfresh.allocated
      | inr hin => exact h.allocated b hin
    · exact h.tail
    · intro b hb
      cases hcases b hb with
      | inl heq =>
        subst heq
        simp only [Queue.blocks_set_of_ne _ _ htail.symm, Function.update_self,
          h.moved_of_ne hfront.symm]
        exact hfresh.sound
      | inr hin =>
        have hsound := h.sound b hin
        rw [hbuilt] at hsound
        dsimp only
        rw [hold b hin]
        by_cases hbt : b = s.queue.tailBlock
        · subst hbt
          rw [Queue.blocks_set]
          exact hsound.set_next _
        · rw [Queue.blocks_set_of_ne _ _ hbt]
          exact hsound
    · intro b hb
      cases List.mem_cons.mp hb with
      | inl heq =>
        subst heq
        simp only [Function.update_self, Producer.staged, if_true]
      | inr hin =>
        have hbn := hne b (h.free_mem hin)
        have hempty := h.free b hin
        rw [hstaged] at hempty
        simp only [Function.update_of_ne hbn, Producer.staged, if_neg hbn]
        exact hempty
    · intro b hb
      dsimp only
      rw [hold b (h.behind_mem hb)]
      exact h.nonempty b hb
    · intro b hb
      dsimp only
      rw [hold b (h.behind_mem (List.mem_of_mem_dropLast hb)), hmask]
      exact h.full b hb
    · refine ⟨?_, ?_, h.capacity.largest, h.capacity.le_largest⟩
      · intro b hb
        dsimp only
        rw [hmask]
        cases hcases b hb with
        | inl heq => exact heq ▸ hfresh.size
        | inr hin => exact h.capacity.blocks b hin
      · refine h.capacity.enough.trans (Nat.mul_le_mul_right m ?_)
        simp only [List.length_cons]
        omega
    · refine ⟨hpending, ?_, rfl⟩
      intro hne'
      simp only [Queue.tailBlock_set, Function.update_of_ne htail, hmask]
      exact hfull hne'
    · refine h.consumer.frame ⟨rfl, ?_, ?_, ?_, ?_, ?_, List.prefix_refl _, rfl⟩
      · intro b _
        apply Queue.field_set Block.front
        rfl
      · intro b _
        apply Queue.field_set Block.localTail
        rfl
      · intro b _
        exact hmask b
      · intro b hb
        dsimp only
        rw [hold b (List.mem_append_left _ hb)]
      · intro _
        exact hold _ h.frontBlock_mem
    · have hheld : View.held { v with
          free := newBlock :: v.free, contents := Function.update v.contents newBlock [x] }
          s.queue = v.held s.queue := by
        simp only [View.held, Function.update_of_ne hfront, flatMap_behind hbehind]
      have hexplains := h.explains
      rw [← hheld] at hexplains
      exact hexplains
  exact ⟨_, _, rfl, hvalid⟩

theorem keeps_storeTailBlock {block : ℕ} (h : Valid maxSize m s v)
    (hp : s.producer = .enqueuing mode x (.storeTailBlock block)) :
    Kept maxSize m (s.produce maxBlockSize memory mode x (.storeTailBlock block)) := by
  obtain ⟨hpending, hfull, hhead⟩ := h.enqueuing hp
  have hbuilt : s.producer.built = fun _ => [] := congrArg Producer.built hp
  have hstaged : s.producer.staged = fun b => if b = block then [x] else [] :=
    congrArg Producer.staged hp
  obtain ⟨free, hfree⟩ : ∃ free, v.free = block :: free := by
    cases hv : v.free with
    | nil =>
      rw [hv] at hhead
      cases hhead
    | cons n free =>
      rw [hv] at hhead
      exact ⟨free, by rw [Option.some.inj hhead]⟩
  have hblock : block ∈ v.free := List.mem_of_mem_head? hhead
  have hcontents : v.contents block = [x] := by
    rw [h.free _ hblock, hstaged]
    exact if_pos rfl
  have hring : s.queue.frontBlock :: (v.behind ++ [block]) ++ free = v.ring s.queue := by
    rw [View.ring, hfree]
    simp
  have hmem : ∀ {b}, b ∈ v.behind ++ [block] → b ∈ v.behind ∨ b = block := by
    intro b hb
    rw [List.mem_append, List.mem_singleton] at hb
    exact hb
  have hheld : v.contents s.queue.frontBlock ++ (v.behind ++ [block]).flatMap v.contents
      = v.held s.queue ++ [x] := by
    rw [List.flatMap_append, List.flatMap_singleton, hcontents, View.held, List.append_assoc]
  have hexplains := h.explains.effect_answer hpending (Fifo.accept mode x _)
  rw [← hheld] at hexplains
  have hvalid : Valid maxSize m
      ⟨{ s.queue with tailBlock := block }, .idle, s.consumer,
        s.history ++ [.answer .producer (.enqueue mode x) (.flag true)]⟩
      { v with
        behind := v.behind ++ [block]
        free := free
        options := Function.update v.options .producer {Status.idle} } := by
    constructor
    · unfold View.ring
      rw [hring]
      exact h.ring
    · unfold View.ring
      rw [hring]
      exact h.allocated
    · dsimp only
      rw [← List.cons_append, List.getLast?_concat]
    · unfold View.ring
      rw [hring]
      intro b hb
      have hsound := h.sound b hb
      rw [hbuilt] at hsound
      exact hsound
    · intro b hb
      have hne : b ≠ block := by
        intro heq
        have hnodup := (List.nodup_append.mp h.nodup).2.1
        rw [hfree, List.nodup_cons] at hnodup
        exact hnodup.1 (heq ▸ hb)
      have hempty := h.free b (hfree ▸ List.mem_cons_of_mem block hb)
      rw [hstaged] at hempty
      exact hempty.trans (if_neg hne)
    · intro b hb
      cases hmem hb with
      | inl hin => exact h.nonempty b hin
      | inr heq =>
        subst heq
        rw [hcontents]
        exact List.cons_ne_nil x []
    · intro b hb
      rw [List.dropLast_concat] at hb
      have hne : v.behind ≠ [] := List.ne_nil_of_mem hb
      rw [h.tailBlock_of_ne_nil hne, List.mem_append, List.mem_singleton] at hb
      cases hb with
      | inl hin => exact h.full b hin
      | inr heq =>
        subst heq
        exact hfull hne
    · refine ⟨?_, ?_, h.capacity.largest, h.capacity.le_largest⟩
      · unfold View.ring
        rw [hring]
        exact h.capacity.blocks
      · have henough := h.capacity.enough
        rw [hfree, List.length_cons] at henough
        simp only [List.length_append, List.length_singleton]
        rw [Nat.add_right_comm]
        exact henough
    · exact Producer.ok_idle rfl
    · exact h.consumer.frame ⟨rfl, fun _ _ => rfl, fun _ _ => rfl, fun _ _ => rfl,
        fun _ _ => List.prefix_refl _, fun _ => rfl, List.prefix_append _ _,
        options_consumer v.options {Status.idle}⟩
    · exact hexplains
  exact ⟨_, _, rfl, hvalid⟩

theorem produce_kept {pc : EnqueueStep} (h : Valid maxSize m s v)
    (hp : s.producer = .enqueuing mode x pc) :
    Kept maxSize m (s.produce maxBlockSize memory mode x pc) := by
  cases pc with
  | start => exact h.keeps_start hp
  | loadFront tailBlock blockTail nextBlockTail => exact h.keeps_loadFront hp
  | construct tailBlock blockTail nextBlockTail => exact h.keeps_construct hp
  | storeTail tailBlock nextBlockTail => exact h.keeps_storeTail hp
  | loadFrontBlock tailBlock => exact h.keeps_loadFrontBlock hp
  | loadNextFront tailBlock => exact h.keeps_loadNextFront hp
  | constructNext tailBlockNext nextBlockTail => exact h.keeps_constructNext hp
  | storeNextTail tailBlockNext nextBlockTail => exact h.keeps_storeNextTail hp
  | allocate tailBlock => exact h.keeps_allocate hp
  | link tailBlock newBlock => exact h.keeps_link hp
  | storeTailBlock block => exact h.keeps_storeTailBlock hp

end Valid

end Moodycamel
