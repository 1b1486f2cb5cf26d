import TrapHandler.CircularChains
import TrapHandler.QueueBlocks

/-!
# The invariant of the reader-writer queue

The ring of blocks begins with the front block. Behind it come the other blocks in use, the last of
which is the tail block, and then the free blocks. Only the consumer takes elements, and only from
the front block, so a block between the front and the tail is full.

`EnqueueAt` and `DequeueAt` say what a thread that stands before a step knows, and the two frame
lemmas that a step of the other thread leaves it so.
-/

namespace Moodycamel

open Linearizability CircularChains

variable {α : Type}

/-- The blocks behind the front block with the free blocks, the elements of each block, and what each
thread could still be answered. -/
structure View (α : Type) where
  behind : List ℕ
  free : List ℕ
  contents : ℕ → List α
  options : Role → Set (Status (Operation α) (Result α))

namespace View

def ring (v : View α) (q : Queue α) : List ℕ := q.frontBlock :: v.behind ++ v.free

def held (v : View α) (q : Queue α) : List α :=
  v.contents q.frontBlock ++ v.behind.flatMap v.contents

end View

/-- The consumer has moved the front element of the block out. -/
def Consumer.moved : Consumer α → ℕ → Bool
  | .dequeuing _ (.storeFront _ block _), b => decide (b = block)
  | _, _ => false

/-- The element that the producer has constructed in the block behind its tail. -/
def Producer.built : Producer α → ℕ → List α
  | .enqueuing _ element (.storeTail block _), b => if b = block then [element] else []
  | .enqueuing _ element (.storeNextTail block _), b => if b = block then [element] else []
  | _, _ => []

/-- The element of a block that the producer has filled and not made the tail block. -/
def Producer.staged : Producer α → ℕ → List α
  | .enqueuing _ element (.storeTailBlock block), b => if b = block then [element] else []
  | _, _ => []

def TailFull (q : Queue α) (v : View α) : Prop :=
  v.behind ≠ [] → (v.contents q.tailBlock).length = (q.blocks q.tailBlock).sizeMask

def Refusable (v : View α) (mode : AllocationMode) (element : α) : Prop :=
  Status.done (.enqueue mode element) (.flag false) ∈ v.options .producer

structure Fresh (q : Queue α) (v : View α) (m : ℕ) (element : α) (tailBlock n : ℕ) : Prop where
  outside : n ∉ v.ring q
  allocated : n < q.allocated
  sound : Sound (q.blocks n) false [element] []
  next : (q.blocks n).next = (q.blocks tailBlock).next
  size : m ≤ (q.blocks n).sizeMask

def EnqueueAt (q : Queue α) (v : View α) (m : ℕ) (mode : AllocationMode) (element : α) :
    EnqueueStep → Prop
  | .start => True
  | .loadFront tailBlock blockTail nextBlockTail =>
    tailBlock = q.tailBlock ∧ blockTail = (q.blocks tailBlock).tail ∧
      nextBlockTail = (blockTail + 1) &&& (q.blocks tailBlock).sizeMask
  | .construct tailBlock blockTail nextBlockTail =>
    tailBlock = q.tailBlock ∧ blockTail = (q.blocks tailBlock).tail ∧
      nextBlockTail = (blockTail + 1) &&& (q.blocks tailBlock).sizeMask ∧
      Room (q.blocks tailBlock) (v.contents tailBlock) 1
  | .storeTail tailBlock nextBlockTail =>
    tailBlock = q.tailBlock ∧
      nextBlockTail = ((q.blocks tailBlock).tail + 1) &&& (q.blocks tailBlock).sizeMask
  | .loadFrontBlock tailBlock =>
    tailBlock = q.tailBlock ∧ TailFull q v ∧
      (v.behind = [] → v.free = [] → Refusable v mode element)
  | .loadNextFront tailBlock => tailBlock = q.tailBlock ∧ TailFull q v ∧ v.free ≠ []
  | .constructNext tailBlockNext nextBlockTail =>
    TailFull q v ∧ v.free.head? = some tailBlockNext ∧
      nextBlockTail = (q.blocks tailBlockNext).tail ∧
      Room (q.blocks tailBlockNext) (v.contents tailBlockNext) 1
  | .storeNextTail tailBlockNext nextBlockTail =>
    TailFull q v ∧ v.free.head? = some tailBlockNext ∧
      nextBlockTail
        = ((q.blocks tailBlockNext).tail + 1) &&& (q.blocks tailBlockNext).sizeMask
  | .allocate tailBlock =>
    tailBlock = q.tailBlock ∧ TailFull q v ∧ Refusable v mode element
  | .link tailBlock newBlock =>
    tailBlock = q.tailBlock ∧ TailFull q v ∧ Fresh q v m element tailBlock newBlock
  | .storeTailBlock block => TailFull q v ∧ v.free.head? = some block

def DequeueAt (q : Queue α) (v : View α) (request : Request) : DequeueStep α → Prop
  | .start => True
  | .loadTail frontBlock blockFront =>
    frontBlock = q.frontBlock ∧ blockFront = (q.blocks frontBlock).front
  | .loadTailBlock frontBlock =>
    frontBlock = q.frontBlock ∧
      (v.behind = [] →
        Status.done (.dequeue request) (request.result none) ∈ v.options .consumer)
  | .reload => v.behind ≠ []
  | .loadNext frontBlock =>
    frontBlock = q.frontBlock ∧ v.behind ≠ [] ∧ v.contents q.frontBlock = []
  | .loadNextTail nextBlock =>
    v.behind.head? = some nextBlock ∧ v.contents q.frontBlock = []
  | .storeFrontBlock nextBlock nextBlockFront =>
    v.behind.head? = some nextBlock ∧ v.contents q.frontBlock = [] ∧
      nextBlockFront = (q.blocks nextBlock).front ∧
      Seen (q.blocks nextBlock) (v.contents nextBlock) 1
  | .take block blockFront =>
    blockFront = (q.blocks block).front ∧
      (block = q.frontBlock ∧ Seen (q.blocks block) (v.contents block) 1 ∨
        request = .peek ∧ v.behind.head? = some block ∧ v.contents q.frontBlock = [])
  | .storeFront element block blockFront =>
    block = q.frontBlock ∧ request ≠ .peek ∧
      blockFront = ((q.blocks block).front + 1) &&& (q.blocks block).sizeMask ∧
      (v.contents block).head? = some element ∧ Seen (q.blocks block) (v.contents block) 1

def Producer.Ok (q : Queue α) (v : View α) (m : ℕ) : Producer α → Prop
  | .idle => v.options .producer = {Status.idle}
  | .enqueuing mode element pc =>
    .pending (.enqueue mode element) ∈ v.options .producer ∧ EnqueueAt q v m mode element pc

def Consumer.Ok (q : Queue α) (v : View α) : Consumer α → Prop
  | .idle => v.options .consumer = {Status.idle}
  | .dequeuing request pc =>
    .pending (.dequeue request) ∈ v.options .consumer ∧ DequeueAt q v request pc

/-- With `maxSize` elements in the queue no free block is left. -/
structure Capacity (maxSize m : ℕ) (q : Queue α) (v : View α) : Prop where
  blocks : ∀ b ∈ v.ring q, m ≤ (q.blocks b).sizeMask
  enough : maxSize ≤ max 1 (v.behind.length + v.free.length) * m
  largest : ∃ k, q.largestBlockSize = 2 ^ (k + 1)
  le_largest : m + 1 ≤ q.largestBlockSize

structure Valid (maxSize m : ℕ) (s : System α) (v : View α) : Prop where
  ring : Ring (fun b => (s.queue.blocks b).next) (v.ring s.queue)
  allocated : ∀ b ∈ v.ring s.queue, b < s.queue.allocated
  tail : (s.queue.frontBlock :: v.behind).getLast? = some s.queue.tailBlock
  sound : ∀ b ∈ v.ring s.queue,
    Sound (s.queue.blocks b) (s.consumer.moved b) (v.contents b) (s.producer.built b)
  free : ∀ b ∈ v.free, v.contents b = s.producer.staged b
  nonempty : ∀ b ∈ v.behind, v.contents b ≠ []
  full : ∀ b ∈ v.behind.dropLast, (v.contents b).length = (s.queue.blocks b).sizeMask
  capacity : Capacity maxSize m s.queue v
  producer : s.producer.Ok s.queue v m
  consumer : s.consumer.Ok s.queue v
  explains : Explains (Fifo maxSize) [] s.history (v.held s.queue) v.options

structure Grows (q : Queue α) (v : View α) (q' : Queue α) (v' : View α) : Prop where
  frontBlock : q'.frontBlock = q.frontBlock
  front : ∀ b ∈ q.frontBlock :: v.behind, (q'.blocks b).front = (q.blocks b).front
  localTail : ∀ b ∈ q.frontBlock :: v.behind, (q'.blocks b).localTail = (q.blocks b).localTail
  sizeMask : ∀ b ∈ q.frontBlock :: v.behind, (q'.blocks b).sizeMask = (q.blocks b).sizeMask
  contents : ∀ b ∈ q.frontBlock :: v.behind, v.contents b <+: v'.contents b
  left : v.behind ≠ [] → v'.contents q.frontBlock = v.contents q.frontBlock
  behind : v.behind <+: v'.behind
  options : v'.options .consumer = v.options .consumer

structure Shrinks (q : Queue α) (v : View α) (q' : Queue α) (v' : View α) : Prop where
  tailBlock : q'.tailBlock = q.tailBlock
  allocated : q'.allocated = q.allocated
  tail : ∀ b, (q'.blocks b).tail = (q.blocks b).tail
  sizeMask : ∀ b, (q'.blocks b).sizeMask = (q.blocks b).sizeMask
  next : ∀ b, (q'.blocks b).next = (q.blocks b).next
  outside : ∀ b, b ∉ v.ring q → q'.blocks b = q.blocks b
  room : ∀ b ∈ v.ring q, ∀ n, Room (q.blocks b) (v.contents b) n →
    Room (q'.blocks b) (v'.contents b) n
  full : v'.behind ≠ [] → v.behind ≠ [] ∧ v'.contents q.tailBlock = v.contents q.tailBlock
  free : v.free <+: v'.free
  ring : (v'.ring q').Perm (v.ring q)
  options : v'.options .producer = v.options .producer

theorem head?_of_isPrefix {β : Type} {l l' : List β} {b : β} (hpre : l <+: l')
    (hhead : l.head? = some b) : l'.head? = some b := by
  obtain ⟨more, rfl⟩ := hpre
  rw [List.head?_append, hhead]
  rfl

theorem ne_nil_of_isPrefix {β : Type} {l l' : List β} (hpre : l <+: l') (hne : l ≠ []) :
    l' ≠ [] := by
  obtain ⟨more, rfl⟩ := hpre
  exact List.append_ne_nil_of_left_ne_nil hne more

variable {q q' : Queue α} {v v' : View α} {m : ℕ}

theorem Grows.seen (h : Grows q v q' v') {b : ℕ} (hb : b ∈ q.frontBlock :: v.behind) {n : ℕ}
    (hseen : Seen (q.blocks b) (v.contents b) n) : Seen (q'.blocks b) (v'.contents b) n := by
  obtain ⟨more, hmore⟩ := h.contents b hb
  obtain ⟨j, hj, hle, heq⟩ := hseen.append more
  rw [← hmore]
  refine ⟨j, hj, hle, ?_⟩
  rw [h.front b hb, h.localTail b hb, h.sizeMask b hb]
  exact heq

theorem DequeueAt.frame {request : Request} {pc : DequeueStep α} (hat : DequeueAt q v request pc)
    (h : Grows q v q' v') : DequeueAt q' v' request pc := by
  have hfront : q.frontBlock ∈ q.frontBlock :: v.behind := List.mem_cons_self
  have hmem : ∀ {n}, v.behind.head? = some n → n ∈ q.frontBlock :: v.behind := fun hn =>
    List.mem_cons_of_mem _ (List.mem_of_mem_head? hn)
  have hsome : ∀ {n}, v.behind.head? = some n → v.behind ≠ [] := fun hn =>
    List.ne_nil_of_mem (List.mem_of_mem_head? hn)
  cases pc with
  | start => trivial
  | loadTail frontBlock blockFront =>
    obtain ⟨rfl, rfl⟩ := hat
    exact ⟨h.frontBlock.symm, (h.front _ hfront).symm⟩
  | loadTailBlock frontBlock =>
    obtain ⟨rfl, hempty⟩ := hat
    refine ⟨h.frontBlock.symm, ?_⟩
    intro hnil
    rw [h.options]
    apply hempty
    by_contra hne
    exact ne_nil_of_isPrefix h.behind hne hnil
  | reload => exact ne_nil_of_isPrefix h.behind hat
  | loadNext frontBlock =>
    obtain ⟨rfl, hne, hempty⟩ := hat
    refine ⟨h.frontBlock.symm, ne_nil_of_isPrefix h.behind hne, ?_⟩
    rw [h.frontBlock, h.left hne, hempty]
  | loadNextTail nextBlock =>
    obtain ⟨hnext, hempty⟩ := hat
    refine ⟨head?_of_isPrefix h.behind hnext, ?_⟩
    rw [h.frontBlock, h.left (hsome hnext), hempty]
  | storeFrontBlock nextBlock nextBlockFront =>
    obtain ⟨hnext, hempty, rfl, hseen⟩ := hat
    refine ⟨head?_of_isPrefix h.behind hnext, ?_, (h.front _ (hmem hnext)).symm,
      h.seen (hmem hnext) hseen⟩
    rw [h.frontBlock, h.left (hsome hnext), hempty]
  | take block blockFront =>
    obtain ⟨rfl, hcases⟩ := hat
    cases hcases with
    | inl hcase =>
      obtain ⟨rfl, hseen⟩ := hcase
      exact ⟨(h.front _ hfront).symm, .inl ⟨h.frontBlock.symm, h.seen hfront hseen⟩⟩
    | inr hcase =>
      obtain ⟨hpeek, hnext, hempty⟩ := hcase
      refine ⟨(h.front _ (hmem hnext)).symm, .inr ⟨hpeek, head?_of_isPrefix h.behind hnext, ?_⟩⟩
      rw [h.frontBlock, h.left (hsome hnext), hempty]
  | storeFront element block blockFront =>
    obtain ⟨rfl, hpeek, rfl, helement, hseen⟩ := hat
    refine ⟨h.frontBlock.symm, hpeek, ?_, head?_of_isPrefix (h.contents _ hfront) helement,
      h.seen hfront hseen⟩
    rw [h.front _ hfront, h.sizeMask _ hfront]

theorem TailFull.frame (hfull : TailFull q v) (h : Shrinks q v q' v') : TailFull q' v' := by
  intro hne
  obtain ⟨hbehind, hcontents⟩ := h.full hne
  rw [h.tailBlock, h.sizeMask, hcontents]
  exact hfull hbehind

theorem Shrinks.ring_length (h : Shrinks q v q' v') :
    v'.behind.length + v'.free.length = v.behind.length + v.free.length := by
  have hperm := h.ring.length_eq
  simp only [View.ring, List.length_append, List.length_cons] at hperm
  omega

theorem EnqueueAt.frame {mode : AllocationMode} {element : α} {pc : EnqueueStep}
    (hat : EnqueueAt q v m mode element pc) (h : Shrinks q v q' v')
    (htail : q.tailBlock ∈ v.ring q) : EnqueueAt q' v' m mode element pc := by
  have hfree : ∀ {n}, v.free.head? = some n → n ∈ v.ring q := fun hn =>
    List.mem_append_right _ (List.mem_of_mem_head? hn)
  cases pc with
  | start => trivial
  | loadFront tailBlock blockTail nextBlockTail =>
    obtain ⟨rfl, rfl, rfl⟩ := hat
    refine ⟨h.tailBlock.symm, (h.tail _).symm, ?_⟩
    rw [h.sizeMask]
  | construct tailBlock blockTail nextBlockTail =>
    obtain ⟨rfl, rfl, rfl, hroom⟩ := hat
    refine ⟨h.tailBlock.symm, (h.tail _).symm, ?_, h.room _ htail 1 hroom⟩
    rw [h.sizeMask]
  | storeTail tailBlock nextBlockTail =>
    obtain ⟨rfl, rfl⟩ := hat
    refine ⟨h.tailBlock.symm, ?_⟩
    rw [h.tail, h.sizeMask]
  | loadFrontBlock tailBlock =>
    obtain ⟨rfl, hfull, hrefuse⟩ := hat
    refine ⟨h.tailBlock.symm, hfull.frame h, ?_⟩
    intro hbehind hnil
    have hlen := h.ring_length
    rw [hbehind, hnil, List.length_nil, Nat.add_zero] at hlen
    rw [Refusable, h.options]
    exact hrefuse (List.length_eq_zero_iff.mp (by omega)) (List.length_eq_zero_iff.mp (by omega))
  | loadNextFront tailBlock =>
    obtain ⟨rfl, hfull, hne⟩ := hat
    exact ⟨h.tailBlock.symm, hfull.frame h, ne_nil_of_isPrefix h.free hne⟩
  | constructNext tailBlockNext nextBlockTail =>
    obtain ⟨hfull, hhead, rfl, hroom⟩ := hat
    exact ⟨hfull.frame h, head?_of_isPrefix h.free hhead, (h.tail _).symm,
      h.room _ (hfree hhead) 1 hroom⟩
  | storeNextTail tailBlockNext nextBlockTail =>
    obtain ⟨hfull, hhead, rfl⟩ := hat
    refine ⟨hfull.frame h, head?_of_isPrefix h.free hhead, ?_⟩
    rw [h.tail, h.sizeMask]
  | allocate tailBlock =>
    obtain ⟨rfl, hfull, hrefuse⟩ := hat
    refine ⟨h.tailBlock.symm, hfull.frame h, ?_⟩
    rw [Refusable, h.options]
    exact hrefuse
  | link tailBlock newBlock =>
    obtain ⟨rfl, hfull, hfresh⟩ := hat
    refine ⟨h.tailBlock.symm, hfull.frame h, ?_⟩
    have hsame := h.outside newBlock hfresh.outside
    constructor
    · intro hin
      exact hfresh.outside (h.ring.mem_iff.mp hin)
    · rw [h.allocated]
      exact hfresh.allocated
    · rw [hsame]
      exact hfresh.sound
    · rw [hsame, h.next]
      exact hfresh.next
    · rw [hsame]
      exact hfresh.size
  | storeTailBlock block =>
    obtain ⟨hfull, hhead⟩ := hat
    exact ⟨hfull.frame h, head?_of_isPrefix h.free hhead⟩

theorem Producer.Ok.frame {p : Producer α} (hok : p.Ok q v m) (h : Shrinks q v q' v')
    (htail : q.tailBlock ∈ v.ring q) : p.Ok q' v' m := by
  cases p with
  | idle => exact h.options.trans hok
  | enqueuing mode element pc =>
    refine ⟨?_, hok.2.frame h htail⟩
    rw [h.options]
    exact hok.1

theorem Consumer.Ok.frame {c : Consumer α} (hok : c.Ok q v) (h : Grows q v q' v') :
    c.Ok q' v' := by
  cases c with
  | idle => exact h.options.trans hok
  | dequeuing request pc =>
    refine ⟨?_, hok.2.frame h⟩
    rw [h.options]
    exact hok.1

end Moodycamel
