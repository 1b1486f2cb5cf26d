import TrapHandler.CircularChains
import TrapHandler.Linearizability
import TrapHandler.Runs

/-!
# The reader-writer queue

`moodycamel::ReaderWriterQueue`, the queue of circular blocks for one producer thread and one
consumer thread. A thread makes at most one access in a step to a variable that the other thread
writes, and the steps of the two threads interleave in any order. The memory is taken to be
sequentially consistent: what one thread has stored the other sees from then on. The relaxed accesses
and the fences of the source promise less: with them an element whose `enqueue` has returned may stay
unseen for a time. The fences have no step of their own. Sizes are those of a 64-bit program, in which
the bytes of a block can be counted.

A slot of a block is empty until an element has been constructed in it, and once that has been moved
out and destroyed. A step is `none` where an assertion fails, where a null pointer is followed, and
where an element is constructed over another one or read from an empty slot.
-/

namespace Moodycamel

open Linearizability CircularChains

variable {α : Type}

structure Block (α : Type) where
  front : ℕ
  localTail : ℕ
  tail : ℕ
  localFront : ℕ
  next : Option ℕ
  data : List (Option α)
  sizeMask : ℕ

def makeBlock (capacity : ℕ) : Block α where
  front := 0
  localTail := 0
  tail := 0
  localFront := 0
  next := none
  data := List.replicate capacity none
  sizeMask := capacity - 1

namespace Block

def construct (block : Block α) (i : ℕ) (element : α) : Option (Block α) :=
  match block.data[i]? with
  | some none => some { block with data := block.data.set i (some element) }
  | _ => none

def read (block : Block α) (i : ℕ) : Option α := block.data[i]?.join

def destroy (block : Block α) (i : ℕ) : Block α := { block with data := block.data.set i none }

end Block

/-- The blocks are numbered in the order of their allocation. -/
structure Queue (α : Type) where
  blocks : ℕ → Block α
  allocated : ℕ
  frontBlock : ℕ
  tailBlock : ℕ
  largestBlockSize : ℕ

def Queue.set (q : Queue α) (b : ℕ) (block : Block α) : Queue α :=
  { q with blocks := Function.update q.blocks b block }

def ceilToPow2 (x : BitVec 64) : BitVec 64 :=
  let x := x - 1
  let x := x ||| x >>> 1
  let x := x ||| x >>> 2
  let x := x ||| x >>> 4
  let loop := [1, 2, 4].foldl (fun (x : BitVec 64) (i : ℕ) => x ||| x >>> (i <<< 3)) x
  loop + 1

/-- The loop of the constructor, which links each block behind the one before it. -/
def reserve (size : ℕ) : ℕ → ℕ → Block α
  | 0 => fun _ => makeBlock size
  | i + 1 =>
    let blocks := reserve size i
    let linked := if i = 0 then blocks
      else Function.update blocks (i - 1) { blocks (i - 1) with next := some i }
    Function.update linked i { makeBlock size with next := some 0 }

def initialBlockCount (maxBlockSize maxSize : ℕ) : ℕ :=
  (maxSize + maxBlockSize * 2 - 3) / (maxBlockSize - 1)

def create (maxBlockSize maxSize : ℕ) : Queue α :=
  let largestBlockSize := (ceilToPow2 (BitVec.ofNat 64 (maxSize + 1))).toNat
  if maxBlockSize * 2 < largestBlockSize then
    { blocks := reserve maxBlockSize (initialBlockCount maxBlockSize maxSize)
      allocated := initialBlockCount maxBlockSize maxSize
      frontBlock := 0
      tailBlock := 0
      largestBlockSize := maxBlockSize }
  else
    { blocks := reserve largestBlockSize 1
      allocated := 1
      frontBlock := 0
      tailBlock := 0
      largestBlockSize := largestBlockSize }

inductive AllocationMode where
  | canAlloc
  | cannotAlloc
  deriving DecidableEq, Repr

/-- The next step of `inner_enqueue`, with the local variables that are still read. -/
inductive EnqueueStep where
  | start
  | loadFront (tailBlock blockTail nextBlockTail : ℕ)
  | construct (tailBlock blockTail nextBlockTail : ℕ)
  | storeTail (tailBlock nextBlockTail : ℕ)
  | loadFrontBlock (tailBlock : ℕ)
  | loadNextFront (tailBlock : ℕ)
  | constructNext (tailBlockNext nextBlockTail : ℕ)
  | storeNextTail (tailBlockNext nextBlockTail : ℕ)
  | allocate (tailBlock : ℕ)
  | link (tailBlock newBlock : ℕ)
  | storeTailBlock (block : ℕ)
  deriving DecidableEq, Repr

open EnqueueStep in
/-- `memory` says whether an allocation in this step succeeds. -/
def innerEnqueue (maxBlockSize : ℕ) (mode : AllocationMode) (element : α) (memory : Bool)
    (q : Queue α) : EnqueueStep → Option (Queue α × (EnqueueStep ⊕ Bool))
  | start =>
    let block := q.blocks q.tailBlock
    let nextBlockTail := (block.tail + 1) &&& block.sizeMask
    if nextBlockTail ≠ block.localFront then
      some (q, .inl (construct q.tailBlock block.tail nextBlockTail))
    else some (q, .inl (loadFront q.tailBlock block.tail nextBlockTail))
  | loadFront tailBlock blockTail nextBlockTail =>
    let block := q.blocks tailBlock
    let q' := q.set tailBlock { block with localFront := block.front }
    if nextBlockTail ≠ block.front then
      some (q', .inl (construct tailBlock blockTail nextBlockTail))
    else some (q', .inl (loadFrontBlock tailBlock))
  | construct tailBlock blockTail nextBlockTail =>
    match (q.blocks tailBlock).construct blockTail element with
    | none => none
    | some block => some (q.set tailBlock block, .inl (storeTail tailBlock nextBlockTail))
  | storeTail tailBlock nextBlockTail =>
    some (q.set tailBlock { q.blocks tailBlock with tail := nextBlockTail }, .inr true)
  | loadFrontBlock tailBlock =>
    if (q.blocks tailBlock).next ≠ some q.frontBlock then
      some (q, .inl (loadNextFront tailBlock))
    else if mode = .canAlloc then some (q, .inl (allocate tailBlock))
    else some (q, .inr false)
  | loadNextFront tailBlock =>
    match (q.blocks tailBlock).next with
    | none => none
    | some tailBlockNext =>
      let block := q.blocks tailBlockNext
      if block.front = block.tail then
        some (q.set tailBlockNext { block with localFront := block.front },
          .inl (constructNext tailBlockNext block.tail))
      else none
  | constructNext tailBlockNext nextBlockTail =>
    match (q.blocks tailBlockNext).construct nextBlockTail element with
    | none => none
    | some block =>
      some (q.set tailBlockNext block,
        .inl (storeNextTail tailBlockNext ((nextBlockTail + 1) &&& block.sizeMask)))
  | storeNextTail tailBlockNext nextBlockTail =>
    some (q.set tailBlockNext { q.blocks tailBlockNext with tail := nextBlockTail },
      .inl (storeTailBlock tailBlockNext))
  | allocate tailBlock =>
    let newBlockSize :=
      if maxBlockSize ≤ q.largestBlockSize then q.largestBlockSize else q.largestBlockSize * 2
    if memory then
      match (makeBlock newBlockSize).construct 0 element with
      | none => none
      | some block =>
        -- until it is linked, only this thread can see the new block
        let newBlock := { block with tail := 1, localTail := 1, next := (q.blocks tailBlock).next }
        some ({ q.set q.allocated newBlock with
            allocated := q.allocated + 1, largestBlockSize := newBlockSize },
          .inl (link tailBlock q.allocated))
    else some (q, .inr false)
  | link tailBlock newBlock =>
    some (q.set tailBlock { q.blocks tailBlock with next := some newBlock },
      .inl (storeTailBlock newBlock))
  | storeTailBlock block => some ({ q with tailBlock := block }, .inr true)

inductive Request where
  | tryDequeue
  | pop
  | peek
  deriving DecidableEq, Repr

/-- The next step of `try_dequeue`, `pop` or `peek`. -/
inductive DequeueStep (α : Type) where
  | start
  | loadTail (frontBlock blockFront : ℕ)
  | loadTailBlock (frontBlock : ℕ)
  | reload
  | loadNext (frontBlock : ℕ)
  | loadNextTail (nextBlock : ℕ)
  | storeFrontBlock (nextBlock nextBlockFront : ℕ)
  | take (block blockFront : ℕ)
  | storeFront (element : α) (block blockFront : ℕ)
  deriving DecidableEq, Repr

open DequeueStep in
/-- The three functions differ only in what they do with the front element. -/
def innerDequeue (request : Request) (q : Queue α) :
    DequeueStep α → Option (Queue α × (DequeueStep α ⊕ Option α))
  | start =>
    let block := q.blocks q.frontBlock
    if block.front ≠ block.localTail then some (q, .inl (take q.frontBlock block.front))
    else some (q, .inl (loadTail q.frontBlock block.front))
  | loadTail frontBlock blockFront =>
    let block := q.blocks frontBlock
    let q' := q.set frontBlock { block with localTail := block.tail }
    if blockFront ≠ block.tail then some (q', .inl (take frontBlock blockFront))
    else some (q', .inl (loadTailBlock frontBlock))
  | loadTailBlock frontBlock =>
    if frontBlock ≠ q.tailBlock then some (q, .inl reload) else some (q, .inr none)
  | reload =>
    let block := q.blocks q.frontBlock
    let q' := q.set q.frontBlock { block with localTail := block.tail }
    if block.front ≠ block.tail then some (q', .inl (take q.frontBlock block.front))
    else some (q', .inl (loadNext q.frontBlock))
  | loadNext frontBlock =>
    match (q.blocks frontBlock).next with
    | none => none
    | some nextBlock => some (q, .inl (loadNextTail nextBlock))
  | loadNextTail nextBlock =>
    let block := q.blocks nextBlock
    if block.front = block.tail then none
    else if request = .peek then some (q, .inl (take nextBlock block.front))
    else
      some (q.set nextBlock { block with localTail := block.tail },
        .inl (storeFrontBlock nextBlock block.front))
  | storeFrontBlock nextBlock nextBlockFront =>
    some ({ q with frontBlock := nextBlock }, .inl (take nextBlock nextBlockFront))
  | take b blockFront =>
    let block := q.blocks b
    match block.read blockFront with
    | none => none
    | some element =>
      if request = .peek then some (q, .inr (some element))
      else
        some (q.set b (block.destroy blockFront),
          .inl (storeFront element b ((blockFront + 1) &&& block.sizeMask)))
  | storeFront element b blockFront =>
    some (q.set b { q.blocks b with front := blockFront }, .inr (some element))

/-- The loop of `size_approx` over the blocks, with 64-bit sizes. -/
def sizeApprox (q : Queue α) : Option (BitVec 64) :=
  doWhile (fun b => (q.blocks b).next) q.frontBlock
    (fun result b =>
      let blockFront := BitVec.ofNat 64 (q.blocks b).front
      let blockTail := BitVec.ofNat 64 (q.blocks b).tail
      some (result + ((blockTail - blockFront) &&& BitVec.ofNat 64 (q.blocks b).sizeMask)))
    q.allocated q.frontBlock 0

/-- The loop of the destructor over the slots of a block, with the elements it destroys. -/
def Block.destroyFrom (block : Block α) : ℕ → ℕ → Option (List α)
  | 0, _ => none
  | fuel + 1, i =>
    if i = block.tail then some []
    else
      match block.read i with
      | none => none
      | some element =>
        ((block.destroy i).destroyFrom fuel ((i + 1) &&& block.sizeMask)).map (element :: ·)

/-- The loop of the destructor over the blocks, with the elements it destroys and the blocks it
frees. A block that has been freed cannot be read again. -/
def destruct (q : Queue α) : Option (List α × List ℕ) :=
  doWhile (fun b => (q.blocks b).next) q.frontBlock
    (fun result b =>
      let block := q.blocks b
      if b ∈ result.2 then none
      else
        match block.destroyFrom (block.sizeMask + 1) block.front with
        | none => none
        | some elements => some (result.1 ++ elements, result.2 ++ [b]))
    q.allocated q.frontBlock ([], [])

inductive Role where
  | producer
  | consumer
  deriving DecidableEq, Repr

/-- `enqueue` may allocate, `try_enqueue` may not. -/
inductive Operation (α : Type) where
  | enqueue (mode : AllocationMode) (element : α)
  | dequeue (request : Request)
  deriving DecidableEq, Repr

inductive Result (α : Type) where
  | flag (success : Bool)
  | element (value : Option α)
  deriving DecidableEq, Repr

/-- `pop` does not give the element away. -/
def Request.result : Request → Option α → Result α
  | .tryDequeue, value => .element value
  | .pop, value => .flag value.isSome
  | .peek, value => .element value

inductive Producer (α : Type) where
  | idle
  | enqueuing (mode : AllocationMode) (element : α) (step : EnqueueStep)
  deriving DecidableEq, Repr

inductive Consumer (α : Type) where
  | idle
  | dequeuing (request : Request) (step : DequeueStep α)
  deriving DecidableEq, Repr

structure System (α : Type) where
  queue : Queue α
  producer : Producer α
  consumer : Consumer α
  history : List (Action Role (Operation α) (Result α))

inductive Event (α : Type) where
  | enqueue (mode : AllocationMode) (element : α)
  | dequeue (request : Request)
  | producerStep (memory : Bool)
  | consumerStep
  deriving DecidableEq, Repr

namespace System

def produce (maxBlockSize : ℕ) (memory : Bool) (s : System α) (mode : AllocationMode)
    (element : α) (pc : EnqueueStep) : Option (System α) :=
  match innerEnqueue maxBlockSize mode element memory s.queue pc with
  | none => none
  | some (queue, .inl pc') =>
    some { s with queue := queue, producer := .enqueuing mode element pc' }
  | some (queue, .inr success) =>
    some { s with
      queue := queue
      producer := .idle
      history := s.history ++ [.answer .producer (.enqueue mode element) (.flag success)] }

def consume (s : System α) (request : Request) (pc : DequeueStep α) : Option (System α) :=
  match innerDequeue request s.queue pc with
  | none => none
  | some (queue, .inl pc') => some { s with queue := queue, consumer := .dequeuing request pc' }
  | some (queue, .inr value) =>
    some { s with
      queue := queue
      consumer := .idle
      history := s.history ++ [.answer .consumer (.dequeue request) (request.result value)] }

/-- A thread that is in a call starts no other, and one that is in none has no step. -/
def step (maxBlockSize : ℕ) (s : System α) : Event α → Option (System α)
  | .enqueue mode element =>
    match s.producer with
    | .idle =>
      some { s with
        producer := .enqueuing mode element .start
        history := s.history ++ [.call .producer (.enqueue mode element)] }
    | .enqueuing _ _ _ => some s
  | .dequeue request =>
    match s.consumer with
    | .idle =>
      some { s with
        consumer := .dequeuing request .start
        history := s.history ++ [.call .consumer (.dequeue request)] }
    | .dequeuing _ _ => some s
  | .producerStep memory =>
    match s.producer with
    | .idle => some s
    | .enqueuing mode element pc => s.produce maxBlockSize memory mode element pc
  | .consumerStep =>
    match s.consumer with
    | .idle => some s
    | .dequeuing request pc => s.consume request pc

def initial (maxBlockSize maxSize : ℕ) : System α where
  queue := create maxBlockSize maxSize
  producer := .idle
  consumer := .idle
  history := []

def run (maxBlockSize maxSize : ℕ) (es : List (Event α)) : Option (System α) :=
  Runs.run (fun s e => s.bind fun s => s.step maxBlockSize e)
    (some (initial maxBlockSize maxSize)) es

end System

/-- What the queue is for: a list of elements in which an element can be refused only when at least
`maxSize` elements are held. -/
inductive Fifo (maxSize : ℕ) : List α → Operation α → Result α → List α → Prop
  | accept (mode : AllocationMode) (element : α) (held : List α) :
      Fifo maxSize held (.enqueue mode element) (.flag true) (held ++ [element])
  | refuse (mode : AllocationMode) (element : α) (held : List α) (hfull : maxSize ≤ held.length) :
      Fifo maxSize held (.enqueue mode element) (.flag false) held
  | empty (request : Request) :
      Fifo maxSize [] (.dequeue request) (request.result none) []
  | remove (request : Request) (element : α) (held : List α) (hrequest : request ≠ .peek) :
      Fifo maxSize (element :: held) (.dequeue request) (request.result (some element)) held
  | peek (element : α) (held : List α) :
      Fifo maxSize (element :: held) (.dequeue .peek) (Request.peek.result (some element))
        (element :: held)

end Moodycamel
