import TrapHandler.QueueConsumer
import TrapHandler.QueueCreation

/-!
# The runs of the reader-writer queue

Whatever the order in which the steps of the two threads come, none of them fails and the history
that the clients see is one of a first-in first-out list. The element counts from the store that
publishes it, and is gone with the store of the new front.
-/

namespace Moodycamel

open Linearizability CircularChains

variable {α : Type} {maxSize m maxBlockSize : ℕ} {s s' : System α} {v : View α}

theorem step_cases {e : Event α} (hstep : s.step maxBlockSize e = some s') :
    s' = s ∨
    (∃ mode x, e = .enqueue mode x ∧ s.producer = .idle ∧ s' = { s with
      producer := .enqueuing mode x .start
      history := s.history ++ [.call .producer (.enqueue mode x)] }) ∨
    (∃ request, e = .dequeue request ∧ s.consumer = .idle ∧ s' = { s with
      consumer := .dequeuing request .start
      history := s.history ++ [.call .consumer (.dequeue request)] }) ∨
    (∃ memory mode x pc, e = .producerStep memory ∧ s.producer = .enqueuing mode x pc ∧
      s.produce maxBlockSize memory mode x pc = some s') ∨
    (∃ request pc, e = .consumerStep ∧ s.consumer = .dequeuing request pc ∧
      s.consume request pc = some s') := by
  cases e with
  | enqueue mode x =>
    unfold System.step at hstep
    cases hp : s.producer with
    | enqueuing mode' x' pc =>
      rw [hp] at hstep
      exact .inl (Option.some_inj.mp hstep).symm
    | idle =>
      rw [hp] at hstep
      exact .inr (.inl ⟨mode, x, rfl, rfl, (Option.some_inj.mp hstep).symm⟩)
  | dequeue request =>
    unfold System.step at hstep
    cases hc : s.consumer with
    | dequeuing request' pc =>
      rw [hc] at hstep
      exact .inl (Option.some_inj.mp hstep).symm
    | idle =>
      rw [hc] at hstep
      exact .inr (.inr (.inl ⟨request, rfl, rfl, (Option.some_inj.mp hstep).symm⟩))
  | producerStep memory =>
    unfold System.step at hstep
    cases hp : s.producer with
    | idle =>
      rw [hp] at hstep
      exact .inl (Option.some_inj.mp hstep).symm
    | enqueuing mode x pc =>
      rw [hp] at hstep
      exact .inr (.inr (.inr (.inl ⟨memory, mode, x, pc, rfl, rfl, hstep⟩)))
  | consumerStep =>
    unfold System.step at hstep
    cases hc : s.consumer with
    | idle =>
      rw [hc] at hstep
      exact .inl (Option.some_inj.mp hstep).symm
    | dequeuing request pc =>
      rw [hc] at hstep
      exact .inr (.inr (.inr (.inr ⟨request, pc, rfl, rfl, hstep⟩)))

theorem produce_cases {memory : Bool} {mode : AllocationMode} {x : α} {pc : EnqueueStep}
    (hstep : s.produce maxBlockSize memory mode x pc = some s') :
    ∃ r, innerEnqueue maxBlockSize mode x memory s.queue pc = some (s'.queue, r) ∧
      ((∃ pc', r = .inl pc' ∧ s'.producer = .enqueuing mode x pc' ∧ s'.history = s.history) ∨
        ∃ success, r = .inr success ∧ s'.producer = .idle ∧
          s'.history = s.history ++ [.answer .producer (.enqueue mode x) (.flag success)]) := by
  unfold System.produce at hstep
  split at hstep
  · cases hstep
  · rename_i queue pc' heq
    cases hstep
    exact ⟨_, heq, .inl ⟨pc', rfl, rfl, rfl⟩⟩
  · rename_i queue success heq
    cases hstep
    exact ⟨_, heq, .inr ⟨success, rfl, rfl, rfl⟩⟩

theorem consume_cases {request : Request} {pc : DequeueStep α}
    (hstep : s.consume request pc = some s') :
    ∃ r, innerDequeue request s.queue pc = some (s'.queue, r) ∧ s'.producer = s.producer ∧
      (s'.history = s.history ∨ ∃ value, s'.history
        = s.history ++ [.answer .consumer (.dequeue request) (request.result value)]) := by
  unfold System.consume at hstep
  split at hstep
  · cases hstep
  · rename_i queue pc' heq
    cases hstep
    exact ⟨_, heq, rfl, .inl rfl⟩
  · rename_i queue value heq
    cases hstep
    exact ⟨_, heq, rfl, .inr ⟨value, rfl⟩⟩

theorem mem_update_singleton (options : Role → Set (Status (Operation α) (Result α))) (i : Role)
    (status : Status (Operation α) (Result α)) :
    status ∈ Function.update options i {status} i := by
  rw [Function.update_self]
  exact Set.mem_singleton status

namespace Valid

theorem enqueue_kept (h : Valid maxSize m s v) (mode : AllocationMode) (x : α) :
    Kept maxSize m (s.step maxBlockSize (.enqueue mode x)) := by
  cases hp : s.producer with
  | idle =>
    have hoptions : v.options .producer = {Status.idle} := by
      have hproducer := h.producer
      rw [hp] at hproducer
      exact hproducer
    have hidle : Status.idle ∈ v.options .producer := by
      rw [hoptions]
      exact Set.mem_singleton _
    have hbuilt : (Producer.enqueuing mode x .start).built = s.producer.built := by
      rw [hp]
      rfl
    have hstaged : (Producer.enqueuing mode x .start).staged = s.producer.staged := by
      rw [hp]
      rfl
    have hpending := mem_update_singleton v.options .producer (.pending (.enqueue mode x))
    have hvalid := h.rethread rfl hbuilt hstaged ⟨hpending, trivial⟩
      (h.consumer.frame (Grows.of_options (options_consumer ..))) (h.explains.call hidle)
    refine ⟨_, _, ?_, hvalid⟩
    unfold System.step
    rw [hp]
  | enqueuing mode' x' pc =>
    refine ⟨s, v, ?_, h⟩
    unfold System.step
    rw [hp]

theorem dequeue_kept (h : Valid maxSize m s v) (request : Request) :
    Kept maxSize m (s.step maxBlockSize (.dequeue request)) := by
  cases hc : s.consumer with
  | idle =>
    have hoptions : v.options .consumer = {Status.idle} := by
      have hconsumer := h.consumer
      rw [hc] at hconsumer
      exact hconsumer
    have hidle : Status.idle ∈ v.options .consumer := by
      rw [hoptions]
      exact Set.mem_singleton _
    have hpending := mem_update_singleton v.options .consumer (.pending (.dequeue request))
    have hmoved : (Consumer.dequeuing request .start : Consumer α).moved = s.consumer.moved := by
      rw [hc]
      rfl
    have hvalid := h.rethread hmoved rfl rfl
      (h.producer_frame (Shrinks.of_options (options_producer ..)))
      ⟨hpending, trivial⟩ (h.explains.call hidle)
    refine ⟨_, _, ?_, hvalid⟩
    unfold System.step
    rw [hc]
  | dequeuing request' pc =>
    refine ⟨s, v, ?_, h⟩
    unfold System.step
    rw [hc]

theorem step_kept (h : Valid maxSize m s v) (e : Event α) :
    Kept maxSize m (s.step maxBlockSize e) := by
  cases e with
  | enqueue mode x => exact h.enqueue_kept mode x
  | dequeue request => exact h.dequeue_kept request
  | producerStep memory =>
    cases hp : s.producer with
    | idle =>
      refine ⟨s, v, ?_, h⟩
      unfold System.step
      rw [hp]
    | enqueuing mode x pc =>
      have hkept : Kept maxSize m (s.produce maxBlockSize memory mode x pc) := h.produce_kept hp
      unfold System.step
      rw [hp]
      exact hkept
  | consumerStep =>
    cases hc : s.consumer with
    | idle =>
      refine ⟨s, v, ?_, h⟩
      unfold System.step
      rw [hc]
    | dequeuing request pc =>
      have hkept := h.consume_kept hc
      unfold System.step
      rw [hc]
      exact hkept

end Valid

/-- What the constructor is promised: the block size is a power of two of which the double is a number
of 64 bits, and `maxSize + 1` elements have a power of two above them in 64 bits. -/
structure Admissible (maxBlockSize maxSize : ℕ) : Prop where
  block : ∃ k, maxBlockSize = 2 ^ (k + 1)
  word : maxBlockSize ≤ 2 ^ 62
  pos : 0 < maxSize
  size : maxSize + 1 ≤ 2 ^ 63

/-- What holds after the constructor and is kept by the steps of a run from valid states holds after
the run. -/
theorem run_induction (h : Admissible maxBlockSize maxSize) {P : System α → Prop}
    {es : List (Event α)} (hstart : P (System.initial maxBlockSize maxSize))
    (hstep : ∀ m s v, ∀ e ∈ es, ∀ s', Valid maxSize m s v → P s →
      s.step maxBlockSize e = some s' → P s') :
    ∃ m s v, System.run maxBlockSize maxSize es = some s ∧ Valid maxSize m s v ∧ P s := by
  obtain ⟨k, hblock⟩ := h.block
  obtain ⟨m, v, hvalid⟩ := @exists_valid_initial α _ _ _ hblock h.pos h.size
  refine ⟨m, ?_⟩
  unfold System.run
  apply @Runs.invariant_of_mem _ _ _ _ fun next => ∃ s v, next = some s ∧ Valid maxSize m s v ∧ P s
  · exact ⟨_, v, rfl, hvalid, hstart⟩
  · intro t e he hgood
    obtain ⟨s, v, rfl, hvalid, hs⟩ := hgood
    obtain ⟨s', v', hnext, hvalid'⟩ := hvalid.step_kept e
    exact ⟨s', v', hnext, hvalid', hstep m s v e he s' hvalid hs hnext⟩

theorem Valid.runs (h : Valid maxSize m s v) :
    ∃ st : Role → Status (Operation α) (Result α), (∀ i, st i = .idle ∨ ∃ o, st i = .pending o) ∧
      Linearizability.Runs (Fifo maxSize) [] s.history (v.held s.queue) st := by
  have hchoice : ∀ i, ∃ status ∈ v.options i, status = .idle ∨ ∃ o, status = .pending o := by
    intro i
    have hproducer := h.producer
    have hconsumer := h.consumer
    cases i with
    | producer =>
      cases hp : s.producer with
      | idle =>
        rw [hp] at hproducer
        refine ⟨.idle, ?_, .inl rfl⟩
        rw [hproducer]
        exact Set.mem_singleton _
      | enqueuing mode x pc =>
        rw [hp] at hproducer
        exact ⟨_, hproducer.1, .inr ⟨_, rfl⟩⟩
    | consumer =>
      cases hc : s.consumer with
      | idle =>
        rw [hc] at hconsumer
        refine ⟨.idle, ?_, .inl rfl⟩
        rw [hconsumer]
        exact Set.mem_singleton _
      | dequeuing request pc =>
        rw [hc] at hconsumer
        exact ⟨_, hconsumer.1, .inr ⟨_, rfl⟩⟩
  choose st hst hstatus using hchoice
  exact ⟨st, hstatus, h.explains st hst⟩

/-- No step of any schedule fails, and every history is one of the list. -/
theorem run_linearizable (h : Admissible maxBlockSize maxSize) (es : List (Event α)) :
    ∃ s, System.run maxBlockSize maxSize es = some s ∧
      Linearizable (Fifo maxSize) [] s.history := by
  obtain ⟨m, s, v, hrun, hvalid, _⟩ := @run_induction α _ _ h (fun _ => True) es trivial
    fun _ _ _ _ _ _ _ _ _ => trivial
  obtain ⟨st, _, hruns⟩ := hvalid.runs
  exact ⟨s, hrun, _, st, hruns⟩

theorem admissible_two_one : Admissible 2 1 where
  block := ⟨0, rfl⟩
  word := by decide
  pos := by decide
  size := by decide

/-- The first element fills the block and the second is put into a new one, while the consumer takes
the first. -/
def overflow : List (Event ℕ) :=
  [.enqueue .canAlloc 7, .producerStep true, .producerStep true, .producerStep true,
    .enqueue .canAlloc 8, .producerStep true, .dequeue .tryDequeue, .consumerStep,
    .producerStep true, .consumerStep, .producerStep true, .consumerStep, .producerStep true,
    .producerStep true, .consumerStep, .producerStep true]

def overflowHistory : List (Action Role (Operation ℕ) (Result ℕ)) :=
  [.call .producer (.enqueue .canAlloc 7), .answer .producer (.enqueue .canAlloc 7) (.flag true),
    .call .producer (.enqueue .canAlloc 8), .call .consumer (.dequeue .tryDequeue),
    .answer .consumer (.dequeue .tryDequeue) (.element (some 7)),
    .answer .producer (.enqueue .canAlloc 8) (.flag true)]

theorem run_overflow : (System.run 2 1 overflow).map
    (fun s => (s.producer, s.consumer, s.history, s.queue.allocated)) =
      some (.idle, .idle, overflowHistory, 2) := rfl

theorem ended_overflow {s : System ℕ} (h : System.run 2 1 overflow = some s) :
    s.producer = .idle ∧ s.consumer = .idle ∧ s.history = overflowHistory ∧
      s.queue.allocated = 2 := by
  have hrun := run_overflow
  rw [h, Option.map_some, Option.some_inj, Prod.mk.injEq, Prod.mk.injEq, Prod.mk.injEq] at hrun
  exact hrun

theorem run_linearizable_overflow :
    ∃ s, System.run 2 1 overflow = some s ∧ s.history = overflowHistory ∧
      Linearizable (Fifo 1) [] s.history := by
  obtain ⟨s, hrun, hlinearizable⟩ := run_linearizable admissible_two_one overflow
  exact ⟨s, hrun, (ended_overflow hrun).2.2.1, hlinearizable⟩

end Moodycamel
