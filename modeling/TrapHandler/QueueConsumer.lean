import TrapHandler.QueueProducer

/-!
# The steps of the consumer

Each step of `try_dequeue`, `pop` and `peek` succeeds and keeps the invariant, whatever the producer
is doing.
-/

namespace Moodycamel

open Linearizability CircularChains

variable {α : Type} {maxSize m : ℕ} {s : System α} {v : View α} {request : Request}

theorem Kept.goes_on {pc pc' : DequeueStep α} {q' : Queue α} {v' : View α}
    (hstep : innerDequeue request s.queue pc = some (q', .inl pc'))
    (hvalid : Valid maxSize m ⟨q', s.producer, .dequeuing request pc', s.history⟩ v') :
    Kept maxSize m (s.consume request pc) := by
  refine ⟨_, v', ?_, hvalid⟩
  unfold System.consume
  rw [hstep]

theorem Kept.gives {pc : DequeueStep α} {q' : Queue α} {v' : View α} {value : Option α}
    (hstep : innerDequeue request s.queue pc = some (q', .inr value))
    (hvalid : Valid maxSize m ⟨q', s.producer, .idle,
      s.history ++ [.answer .consumer (.dequeue request) (request.result value)]⟩ v') :
    Kept maxSize m (s.consume request pc) := by
  refine ⟨_, v', ?_, hvalid⟩
  unfold System.consume
  rw [hstep]

namespace Valid

theorem dequeuing {pc : DequeueStep α} (h : Valid maxSize m s v)
    (hc : s.consumer = .dequeuing request pc) :
    .pending (.dequeue request) ∈ v.options .consumer ∧ DequeueAt s.queue v request pc := by
  have hconsumer := h.consumer
  rw [hc] at hconsumer
  exact hconsumer

theorem producer_frame (h : Valid maxSize m s v) {q' : Queue α} {v' : View α}
    (hshrinks : Shrinks s.queue v q' v') : s.producer.Ok q' v' m :=
  h.producer.frame hshrinks h.tailBlock_mem

theorem keeps_dequeue_start (h : Valid maxSize m s v)
    (hc : s.consumer = .dequeuing request .start) :
    Kept maxSize m (s.consume request .start) := by
  obtain ⟨hpending, _⟩ := h.dequeuing hc
  have hmoved : s.consumer.moved = fun _ => false := congrArg Consumer.moved hc
  have hsound := h.sound _ h.frontBlock_mem
  by_cases hne : (s.queue.blocks s.queue.frontBlock).front
      ≠ (s.queue.blocks s.queue.frontBlock).localTail
  · apply Kept.goes_on
    · exact if_pos hne
    · refine h.rethread hmoved.symm rfl rfl (h.producer_frame (Shrinks.of_options rfl)) ?_
        h.explains
      exact ⟨hpending, rfl, .inl ⟨rfl, hsound.holds.seen_of_ne hsound.seen hne⟩⟩
  · apply Kept.goes_on
    · exact if_neg hne
    · refine h.rethread hmoved.symm rfl rfl (h.producer_frame (Shrinks.of_options rfl)) ?_
        h.explains
      exact ⟨hpending, rfl, rfl⟩

theorem shrinks_load_tail {b : ℕ} (hb : b ∈ v.ring s.queue)
    {options : Role → Set (Status (Operation α) (Result α))}
    (hoptions : options .producer = v.options .producer) :
    Shrinks s.queue v
      (s.queue.set b { s.queue.blocks b with localTail := (s.queue.blocks b).tail })
      { v with options := options } :=
  Shrinks.set hb rfl rfl rfl (fun _ hroom => hroom) (fun _ _ => rfl) (fun _ => rfl) hoptions

theorem keeps_loadTail {frontBlock blockFront : ℕ} (h : Valid maxSize m s v)
    (hc : s.consumer = .dequeuing request (.loadTail frontBlock blockFront)) :
    Kept maxSize m (s.consume request (.loadTail frontBlock blockFront)) := by
  obtain ⟨hpending, rfl, rfl⟩ := h.dequeuing hc
  have hmoved : s.consumer.moved = fun _ => false := congrArg Consumer.moved hc
  have hsound := h.sound _ h.frontBlock_mem
  rw [hmoved] at hsound
  have hothers : ∀ a ≠ s.queue.frontBlock, false = s.consumer.moved a ∧
      s.producer.built a = s.producer.built a := by
    intro a _
    rw [hmoved]
    exact ⟨rfl, rfl⟩
  have hroom : Room (s.queue.blocks s.queue.frontBlock) (v.contents s.queue.frontBlock) 0 := by
    obtain ⟨i, hi, hle⟩ := hsound.room
    exact ⟨i, hi, by omega⟩
  have hempty := hsound.holds.front_eq_tail hroom
  by_cases hne : (s.queue.blocks s.queue.frontBlock).front
      ≠ (s.queue.blocks s.queue.frontBlock).tail
  · have hlen : 1 ≤ (v.contents s.queue.frontBlock).length :=
      List.length_pos_iff.mpr (mt hempty.mpr hne)
    apply Kept.goes_on
    · exact if_pos hne
    · refine h.touch rfl rfl hsound.load_tail hothers rfl
        (h.producer_frame (shrinks_load_tail h.frontBlock_mem rfl)) ⟨hpending, ?_⟩ h.explains
      simp only [DequeueAt, Queue.blocks_set, Queue.frontBlock_set, true_and]
      exact .inl (hsound.holds.seen_tail hlen)
  · have hnil := hempty.mp (not_not.mp hne)
    by_cases hbehind : v.behind = []
    · have hheld : v.held s.queue = [] := by
        rw [View.held, hnil, hbehind]
        rfl
      have hspec : Fifo maxSize (v.held s.queue) (.dequeue request) (request.result none)
          (v.held s.queue) := by
        rw [hheld]
        exact Fifo.empty request
      have hexplains := h.explains.observe hpending hspec
      apply Kept.goes_on
      · exact if_neg hne
      · refine h.touch rfl rfl hsound.load_tail hothers rfl
          (h.producer_frame (shrinks_load_tail h.frontBlock_mem (options_producer ..)))
          ⟨?_, rfl, ?_⟩ hexplains
        · simp only [Function.update_self]
          exact Set.mem_insert_of_mem _ hpending
        · intro _
          simp only [Function.update_self]
          exact Set.mem_insert _ _
    · apply Kept.goes_on
      · exact if_neg hne
      · refine h.touch rfl rfl hsound.load_tail hothers rfl
          (h.producer_frame (shrinks_load_tail h.frontBlock_mem rfl)) ⟨hpending, rfl, ?_⟩
          h.explains
        intro hfalse
        exact absurd hfalse hbehind

theorem keeps_loadTailBlock {frontBlock : ℕ} (h : Valid maxSize m s v)
    (hc : s.consumer = .dequeuing request (.loadTailBlock frontBlock)) :
    Kept maxSize m (s.consume request (.loadTailBlock frontBlock)) := by
  obtain ⟨hpending, rfl, hdone⟩ := h.dequeuing hc
  have hmoved : s.consumer.moved = fun _ => false := congrArg Consumer.moved hc
  by_cases hne : s.queue.frontBlock ≠ s.queue.tailBlock
  · apply Kept.goes_on
    · exact if_pos hne
    · refine h.rethread hmoved.symm rfl rfl (h.producer_frame (Shrinks.of_options rfl)) ?_
        h.explains
      exact ⟨hpending, mt h.tailBlock_eq_iff.mpr hne⟩
  · have hnil := h.tailBlock_eq_iff.mp (not_not.mp hne)
    apply Kept.gives
    · exact if_neg hne
    · refine h.rethread hmoved.symm rfl rfl
        (h.producer_frame (Shrinks.of_options ?_)) ?_ (h.explains.answer (hdone hnil))
      · exact options_producer ..
      · exact Consumer.ok_idle rfl

theorem keeps_reload (h : Valid maxSize m s v)
    (hc : s.consumer = .dequeuing request .reload) :
    Kept maxSize m (s.consume request .reload) := by
  obtain ⟨hpending, hbehind⟩ := h.dequeuing hc
  have hmoved : s.consumer.moved = fun _ => false := congrArg Consumer.moved hc
  have hsound := h.sound _ h.frontBlock_mem
  rw [hmoved] at hsound
  have hothers : ∀ a ≠ s.queue.frontBlock, false = s.consumer.moved a ∧
      s.producer.built a = s.producer.built a := by
    intro a _
    rw [hmoved]
    exact ⟨rfl, rfl⟩
  have hroom : Room (s.queue.blocks s.queue.frontBlock) (v.contents s.queue.frontBlock) 0 := by
    obtain ⟨i, hi, hle⟩ := hsound.room
    exact ⟨i, hi, by omega⟩
  have hempty := hsound.holds.front_eq_tail hroom
  by_cases hne : (s.queue.blocks s.queue.frontBlock).front
      ≠ (s.queue.blocks s.queue.frontBlock).tail
  · have hlen : 1 ≤ (v.contents s.queue.frontBlock).length :=
      List.length_pos_iff.mpr (mt hempty.mpr hne)
    apply Kept.goes_on
    · exact if_pos hne
    · refine h.touch rfl rfl hsound.load_tail hothers rfl
        (h.producer_frame (shrinks_load_tail h.frontBlock_mem rfl)) ⟨hpending, ?_⟩ h.explains
      simp only [DequeueAt, Queue.blocks_set, Queue.frontBlock_set, true_and]
      exact .inl (hsound.holds.seen_tail hlen)
  · apply Kept.goes_on
    · exact if_neg hne
    · refine h.touch rfl rfl hsound.load_tail hothers rfl
        (h.producer_frame (shrinks_load_tail h.frontBlock_mem rfl)) ⟨hpending, rfl, hbehind, ?_⟩
        h.explains
      exact hempty.mp (not_not.mp hne)

theorem keeps_loadNext {frontBlock : ℕ} (h : Valid maxSize m s v)
    (hc : s.consumer = .dequeuing request (.loadNext frontBlock)) :
    Kept maxSize m (s.consume request (.loadNext frontBlock)) := by
  obtain ⟨hpending, rfl, hbehind, hempty⟩ := h.dequeuing hc
  have hmoved : s.consumer.moved = fun _ => false := congrArg Consumer.moved hc
  obtain ⟨n, behind, hsplit⟩ := List.exists_cons_of_ne_nil hbehind
  have hring := h.ring
  rw [View.ring, hsplit] at hring
  have hnext : (s.queue.blocks s.queue.frontBlock).next = some n := hring.next_head
  have hhead : v.behind.head? = some n := by
    rw [hsplit]
    rfl
  apply Kept.goes_on
  · simp only [innerDequeue, hnext]
    rfl
  · exact h.rethread hmoved.symm rfl rfl (h.producer_frame (Shrinks.of_options rfl))
      ⟨hpending, hhead, hempty⟩ h.explains

theorem keeps_loadNextTail {nextBlock : ℕ} (h : Valid maxSize m s v)
    (hc : s.consumer = .dequeuing request (.loadNextTail nextBlock)) :
    Kept maxSize m (s.consume request (.loadNextTail nextBlock)) := by
  obtain ⟨hpending, hhead, hempty⟩ := h.dequeuing hc
  have hmoved : s.consumer.moved = fun _ => false := congrArg Consumer.moved hc
  have hin : nextBlock ∈ v.behind := List.mem_of_mem_head? hhead
  have hsound := h.sound _ (h.behind_mem hin)
  rw [hmoved] at hsound
  have hnonempty := h.nonempty _ hin
  have hlen : 1 ≤ (v.contents nextBlock).length := List.length_pos_iff.mpr hnonempty
  have hroom : Room (s.queue.blocks nextBlock) (v.contents nextBlock) 0 := by
    obtain ⟨i, hi, hle⟩ := hsound.room
    exact ⟨i, hi, by omega⟩
  have hne := mt (hsound.holds.front_eq_tail hroom).mp hnonempty
  by_cases hpeek : request = .peek
  · apply Kept.goes_on
    · simp only [innerDequeue, if_neg hne, if_pos hpeek]
      rfl
    · exact h.rethread hmoved.symm rfl rfl (h.producer_frame (Shrinks.of_options rfl))
        ⟨hpending, rfl, .inr ⟨hpeek, hhead, hempty⟩⟩ h.explains
  · apply Kept.goes_on
    · simp only [innerDequeue, if_neg hne, if_neg hpeek]
      rfl
    · refine h.touch rfl rfl hsound.load_tail ?_ rfl
        (h.producer_frame (shrinks_load_tail (h.behind_mem hin) rfl)) ⟨hpending, ?_⟩ h.explains
      · intro a _
        rw [hmoved]
        exact ⟨rfl, rfl⟩
      · simp only [DequeueAt, Queue.blocks_set, Queue.frontBlock_set, true_and]
        exact ⟨hhead, hempty, hsound.holds.seen_tail hlen⟩

theorem keeps_storeFrontBlock {nextBlock nextBlockFront : ℕ} (h : Valid maxSize m s v)
    (hc : s.consumer = .dequeuing request (.storeFrontBlock nextBlock nextBlockFront)) :
    Kept maxSize m (s.consume request (.storeFrontBlock nextBlock nextBlockFront)) := by
  obtain ⟨hpending, hhead, hempty, rfl, hseen⟩ := h.dequeuing hc
  have hmoved : s.consumer.moved = fun _ => false := congrArg Consumer.moved hc
  obtain ⟨behind, hsplit⟩ : ∃ behind, v.behind = nextBlock :: behind := by
    cases hv : v.behind with
    | nil =>
      rw [hv] at hhead
      cases hhead
    | cons n behind =>
      rw [hv] at hhead
      exact ⟨behind, by rw [Option.some.inj hhead]⟩
  have hperm : (nextBlock :: behind ++ (v.free ++ [s.queue.frontBlock])).Perm
      (v.ring s.queue) := by
    rw [View.ring, hsplit, ← List.append_assoc]
    exact List.perm_append_singleton _ _
  have hheld : v.contents nextBlock ++ behind.flatMap v.contents = v.held s.queue := by
    rw [View.held, hempty, hsplit, List.flatMap_cons, List.nil_append]
  have hexplains := h.explains
  rw [← hheld] at hexplains
  have hvalid : Valid maxSize m
      ⟨{ s.queue with frontBlock := nextBlock }, s.producer,
        .dequeuing request (.take nextBlock (s.queue.blocks nextBlock).front), s.history⟩
      { v with behind := behind, free := v.free ++ [s.queue.frontBlock] } := by
    constructor
    · have hring := h.ring
      rw [View.ring, hsplit] at hring
      have hrotated : Ring _ ([s.queue.frontBlock] ++ (nextBlock :: behind ++ v.free)) := hring
      have hfinal := hrotated.rotate
      rw [List.append_assoc] at hfinal
      exact hfinal
    · intro b hb
      exact h.allocated b (hperm.mem_iff.mp hb)
    · have htail := h.tail
      rw [hsplit, List.getLast?_cons_cons] at htail
      exact htail
    · intro b hb
      have hsound := h.sound b (hperm.mem_iff.mp hb)
      rw [hmoved] at hsound
      exact hsound
    · intro b hb
      cases List.mem_append.mp hb with
      | inl hin => exact h.free b hin
      | inr heq =>
        rw [List.mem_singleton.mp heq]
        exact hempty.trans (h.staged_of_notMem h.frontBlock_notMem_free).symm
    · intro b hb
      exact h.nonempty b (hsplit ▸ List.mem_cons_of_mem nextBlock hb)
    · intro b hb
      apply h.full b
      have hne : behind ≠ [] := List.ne_nil_of_mem (List.mem_of_mem_dropLast hb)
      rw [hsplit, List.dropLast_cons_of_ne_nil hne]
      exact List.mem_cons_of_mem nextBlock hb
    · refine ⟨?_, ?_, h.capacity.largest, h.capacity.le_largest⟩
      · intro b hb
        exact h.capacity.blocks b (hperm.mem_iff.mp hb)
      · have henough := h.capacity.enough
        rw [hsplit, List.length_cons] at henough
        simp only [List.length_append, List.length_singleton]
        rw [← Nat.add_assoc, Nat.add_right_comm]
        exact henough
    · refine h.producer_frame ⟨rfl, rfl, fun _ => rfl, fun _ => rfl, fun _ => rfl,
        fun _ _ => rfl, fun _ _ _ hroom => hroom, ?_, List.prefix_append _ _, hperm, rfl⟩
      intro _
      refine ⟨?_, rfl⟩
      rw [hsplit]
      exact List.cons_ne_nil _ _
    · exact ⟨hpending, rfl, .inl ⟨rfl, hseen⟩⟩
    · exact hexplains
  exact ⟨_, _, rfl, hvalid⟩

theorem exists_held_eq (h : Valid maxSize m s v) {b : ℕ} (hb : b ∈ v.ring s.queue)
    (hne : v.contents b ≠ []) (hmoved : s.consumer.moved b = false) :
    ∃ x rest, v.contents b = x :: rest ∧
      (s.queue.blocks b).read (s.queue.blocks b).front = some x := by
  obtain ⟨x, rest, heq⟩ := List.exists_cons_of_ne_nil hne
  have hsound := h.sound b hb
  rw [heq, hmoved] at hsound
  exact ⟨x, rest, heq, hsound.holds.read⟩

theorem keeps_take {block blockFront : ℕ} (h : Valid maxSize m s v)
    (hc : s.consumer = .dequeuing request (.take block blockFront)) :
    Kept maxSize m (s.consume request (.take block blockFront)) := by
  obtain ⟨hpending, rfl, hcases⟩ := h.dequeuing hc
  have hmoved : s.consumer.moved = fun _ => false := congrArg Consumer.moved hc
  obtain ⟨hb, hfirst⟩ : block ∈ v.ring s.queue ∧ v.contents block ≠ [] ∧
      ∃ more, v.held s.queue = v.contents block ++ more := by
    cases hcases with
    | inl hcase =>
      obtain ⟨rfl, hseen⟩ := hcase
      exact ⟨h.frontBlock_mem, hseen.ne_nil, _, rfl⟩
    | inr hcase =>
      obtain ⟨_, hhead, hempty⟩ := hcase
      have hin := List.mem_of_mem_head? hhead
      refine ⟨h.behind_mem hin, h.nonempty _ hin, ?_⟩
      obtain ⟨n, behind, hsplit⟩ := List.exists_cons_of_ne_nil (List.ne_nil_of_mem hin)
      rw [hsplit] at hhead
      rw [View.held, hempty, hsplit, Option.some.inj hhead, List.flatMap_cons]
      exact ⟨_, rfl⟩
  obtain ⟨hne, more, hheld⟩ := hfirst
  obtain ⟨x, rest, heq, hread⟩ := h.exists_held_eq hb hne (congrFun hmoved block)
  by_cases hpeek : request = .peek
  · subst hpeek
    have hspec : Fifo maxSize (v.held s.queue) (.dequeue .peek)
        (Request.peek.result (some x)) (v.held s.queue) := by
      rw [hheld, heq]
      exact Fifo.peek x _
    apply Kept.gives
    · simp only [innerDequeue, hread, if_true]
      rfl
    · refine h.rethread hmoved.symm rfl rfl
        (h.producer_frame (Shrinks.of_options ?_)) ?_ (h.explains.effect_answer hpending hspec)
      · exact options_producer ..
      · exact Consumer.ok_idle rfl
  · cases hcases with
    | inr hcase => exact absurd hcase.1 hpeek
    | inl hcase =>
      obtain ⟨rfl, hseen⟩ := hcase
      have hsound := h.sound _ hb
      rw [heq, hmoved] at hsound
      apply Kept.goes_on
      · simp only [innerDequeue, hread, if_neg hpeek]
        rfl
      · refine h.touch rfl rfl ?_ ?_ rfl (h.producer_frame (Shrinks.set hb rfl rfl rfl
          (fun _ hroom => hroom) (fun _ _ => rfl) (fun _ => rfl) rfl)) ⟨hpending, rfl, hpeek, ?_⟩
          h.explains
        · simp only [Consumer.moved, decide_true, heq]
          exact hsound.destroy
        · intro a ha
          rw [hmoved]
          exact ⟨decide_eq_false ha, rfl⟩
        · have hhead : (v.contents s.queue.frontBlock).head? = some x := by
            rw [heq]
            rfl
          simp only [Queue.blocks_set]
          exact ⟨rfl, hhead, hseen⟩

theorem keeps_storeFront {x : α} {block blockFront : ℕ} (h : Valid maxSize m s v)
    (hc : s.consumer = .dequeuing request (.storeFront x block blockFront)) :
    Kept maxSize m (s.consume request (.storeFront x block blockFront)) := by
  obtain ⟨hpending, rfl, hpeek, rfl, hhead, hseen⟩ := h.dequeuing hc
  have hmoved : s.consumer.moved = fun b => decide (b = s.queue.frontBlock) :=
    congrArg Consumer.moved hc
  obtain ⟨rest, heq⟩ : ∃ rest, v.contents s.queue.frontBlock = x :: rest := by
    cases hv : v.contents s.queue.frontBlock with
    | nil =>
      rw [hv] at hhead
      cases hhead
    | cons y rest =>
      rw [hv] at hhead
      exact ⟨rest, by rw [Option.some.inj hhead]⟩
  have hsound := h.sound _ h.frontBlock_mem
  simp only [heq, hmoved, decide_true] at hsound
  rw [heq] at hseen
  have hheld : v.held s.queue = x :: (Function.update v.contents s.queue.frontBlock rest
      s.queue.frontBlock ++ v.behind.flatMap
        (Function.update v.contents s.queue.frontBlock rest)) := by
    rw [View.held, heq, Function.update_self, flatMap_behind h.frontBlock_notMem]
    rfl
  have hspec := @Fifo.remove α maxSize request x (Function.update v.contents
    s.queue.frontBlock rest s.queue.frontBlock ++ v.behind.flatMap
      (Function.update v.contents s.queue.frontBlock rest)) hpeek
  rw [← hheld] at hspec
  have hexplains := h.explains.effect_answer hpending hspec
  have hshrinks : Shrinks s.queue v
      (s.queue.set s.queue.frontBlock { s.queue.blocks s.queue.frontBlock with
        front := ((s.queue.blocks s.queue.frontBlock).front + 1)
          &&& (s.queue.blocks s.queue.frontBlock).sizeMask })
      { v with
        contents := Function.update v.contents s.queue.frontBlock rest
        options := Function.update v.options .consumer {Status.idle} } := by
    refine Shrinks.set h.frontBlock_mem rfl rfl rfl ?_ ?_ ?_ ?_
    · intro n hroom
      rw [heq] at hroom
      rw [Function.update_self]
      exact hsound.holds.room_store_front hroom
    · intro a ha
      exact Function.update_of_ne ha ..
    · intro hne
      exact Function.update_of_ne (Ne.symm (mt h.tailBlock_eq_iff.mp hne)) ..
    · exact options_producer ..
  apply Kept.gives
  · rfl
  · refine h.set rfl rfl ?_ ?_ ?_ ?_ ?_ (h.producer_frame hshrinks) ?_ hexplains
    · rw [Function.update_self]
      exact hsound.store_front hseen
    · intro a ha
      rw [hmoved]
      exact ⟨Function.update_of_ne ha .., (decide_eq_false ha).symm, rfl⟩
    · intro a ha
      have hne : a ≠ s.queue.frontBlock := by
        intro hfront
        exact h.frontBlock_notMem_free (hfront ▸ ha)
      rw [Function.update_of_ne hne]
      exact h.free a ha
    · intro hin
      exact absurd hin h.frontBlock_notMem
    · intro hin
      exact absurd (List.mem_of_mem_dropLast hin) h.frontBlock_notMem
    · exact Consumer.ok_idle rfl

theorem consume_kept {pc : DequeueStep α} (h : Valid maxSize m s v)
    (hc : s.consumer = .dequeuing request pc) : Kept maxSize m (s.consume request pc) := by
  cases pc with
  | start => exact h.keeps_dequeue_start hc
  | loadTail frontBlock blockFront => exact h.keeps_loadTail hc
  | loadTailBlock frontBlock => exact h.keeps_loadTailBlock hc
  | reload => exact h.keeps_reload hc
  | loadNext frontBlock => exact h.keeps_loadNext hc
  | loadNextTail nextBlock => exact h.keeps_loadNextTail hc
  | storeFrontBlock nextBlock nextBlockFront => exact h.keeps_storeFrontBlock hc
  | take block blockFront => exact h.keeps_take hc
  | storeFront element block blockFront => exact h.keeps_storeFront hc

end Valid

end Moodycamel
