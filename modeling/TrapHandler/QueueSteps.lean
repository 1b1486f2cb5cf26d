import TrapHandler.QueueInvariant

/-!
# What a step of the reader-writer queue keeps

Most steps change one block of the ring, or none. Each of them keeps the invariant with the same
elements and answers, or with those that the step adds.
-/

namespace Moodycamel

open Linearizability CircularChains

variable {α : Type} {maxSize m : ℕ} {s : System α} {v : View α}

@[simp] theorem Queue.blocks_set (q : Queue α) (b : ℕ) (block : Block α) :
    (q.set b block).blocks b = block := Function.update_self ..

theorem Queue.blocks_set_of_ne (q : Queue α) {a b : ℕ} (block : Block α) (h : a ≠ b) :
    (q.set b block).blocks a = q.blocks a := Function.update_of_ne h ..

@[simp] theorem Queue.frontBlock_set (q : Queue α) (b : ℕ) (block : Block α) :
    (q.set b block).frontBlock = q.frontBlock := rfl

@[simp] theorem Queue.tailBlock_set (q : Queue α) (b : ℕ) (block : Block α) :
    (q.set b block).tailBlock = q.tailBlock := rfl

theorem Queue.field_set {β : Type} (f : Block α → β) {q : Queue α} {b : ℕ} {block : Block α}
    (hsame : f block = f (q.blocks b)) (a : ℕ) : f ((q.set b block).blocks a) = f (q.blocks a) := by
  by_cases hab : a = b
  · subst hab
    rw [Queue.blocks_set, hsame]
  · rw [Queue.blocks_set_of_ne q block hab]

theorem options_consumer (options : Role → Set (Status (Operation α) (Result α)))
    (choice : Set (Status (Operation α) (Result α))) :
    Function.update options Role.producer choice Role.consumer = options Role.consumer :=
  Function.update_of_ne (by decide) ..

theorem options_producer (options : Role → Set (Status (Operation α) (Result α)))
    (choice : Set (Status (Operation α) (Result α))) :
    Function.update options Role.consumer choice Role.producer = options Role.producer :=
  Function.update_of_ne (by decide) ..

theorem Producer.ok_idle {q : Queue α} {options : Role → Set (Status (Operation α) (Result α))}
    (h : v.options = Function.update options .producer {Status.idle}) : Producer.Ok q v m .idle :=
  (congrFun h Role.producer).trans (Function.update_self ..)

theorem Consumer.ok_idle {q : Queue α} {options : Role → Set (Status (Operation α) (Result α))}
    (h : v.options = Function.update options .consumer {Status.idle}) : Consumer.Ok q v .idle :=
  (congrFun h Role.consumer).trans (Function.update_self ..)

namespace Valid

theorem nodup (h : Valid maxSize m s v) :
    (s.queue.frontBlock :: v.behind ++ v.free).Nodup := h.ring.nodup

theorem frontBlock_notMem (h : Valid maxSize m s v) : s.queue.frontBlock ∉ v.behind := by
  have hnodup := h.nodup
  rw [List.cons_append, List.nodup_cons] at hnodup
  exact fun hin => hnodup.1 (List.mem_append_left _ hin)

theorem frontBlock_notMem_free (h : Valid maxSize m s v) : s.queue.frontBlock ∉ v.free := by
  have hnodup := h.nodup
  rw [List.cons_append, List.nodup_cons] at hnodup
  exact fun hin => hnodup.1 (List.mem_append_right _ hin)

theorem behind_notMem_free (h : Valid maxSize m s v) {b : ℕ} (hb : b ∈ v.behind) :
    b ∉ v.free := by
  have hnodup := h.nodup
  rw [List.cons_append, List.nodup_cons, List.nodup_append] at hnodup
  intro hin
  exact hnodup.2.2.2 b hb b hin rfl

theorem frontBlock_mem (_ : Valid maxSize m s v) : s.queue.frontBlock ∈ v.ring s.queue :=
  List.mem_append_left _ List.mem_cons_self

theorem behind_mem (_ : Valid maxSize m s v) {b : ℕ} (hb : b ∈ v.behind) :
    b ∈ v.ring s.queue :=
  List.mem_append_left _ (List.mem_cons_of_mem _ hb)

theorem free_mem (_ : Valid maxSize m s v) {b : ℕ} (hb : b ∈ v.free) : b ∈ v.ring s.queue :=
  List.mem_append_right _ hb

theorem tailBlock_mem_used (h : Valid maxSize m s v) :
    s.queue.tailBlock ∈ s.queue.frontBlock :: v.behind :=
  List.mem_of_getLast? h.tail

theorem tailBlock_mem (h : Valid maxSize m s v) : s.queue.tailBlock ∈ v.ring s.queue :=
  List.mem_append_left _ h.tailBlock_mem_used

theorem tailBlock_of_nil (h : Valid maxSize m s v) (hnil : v.behind = []) :
    s.queue.tailBlock = s.queue.frontBlock := by
  have htail := h.tail
  rw [hnil, List.getLast?_singleton, Option.some_inj] at htail
  exact htail.symm

theorem tailBlock_of_ne_nil (h : Valid maxSize m s v) (hne : v.behind ≠ []) :
    v.behind = v.behind.dropLast ++ [s.queue.tailBlock] := by
  have htail := h.tail
  rw [List.getLast?_cons_of_ne_nil hne] at htail
  obtain ⟨front, hsplit⟩ := List.getLast?_eq_some_iff.mp htail
  rw [hsplit, List.dropLast_concat]

theorem tailBlock_mem_behind (h : Valid maxSize m s v) (hne : v.behind ≠ []) :
    s.queue.tailBlock ∈ v.behind := by
  rw [h.tailBlock_of_ne_nil hne]
  exact List.mem_append_right _ List.mem_cons_self

theorem tailBlock_eq_iff (h : Valid maxSize m s v) :
    s.queue.frontBlock = s.queue.tailBlock ↔ v.behind = [] := by
  constructor
  · intro heq
    by_contra hne
    apply h.frontBlock_notMem
    rw [heq]
    exact h.tailBlock_mem_behind hne
  · intro hnil
    exact (h.tailBlock_of_nil hnil).symm

theorem tailBlock_notMem_free (h : Valid maxSize m s v) : s.queue.tailBlock ∉ v.free := by
  cases List.mem_cons.mp h.tailBlock_mem_used with
  | inl heq =>
    rw [heq]
    exact h.frontBlock_notMem_free
  | inr hin => exact h.behind_notMem_free hin

theorem tailBlock_notMem_dropLast (h : Valid maxSize m s v) :
    s.queue.tailBlock ∉ v.behind.dropLast := by
  intro hin
  have hne : v.behind ≠ [] := List.ne_nil_of_mem (List.mem_of_mem_dropLast hin)
  have hnodup := (List.nodup_cons.mp (List.nodup_append.mp h.nodup).1).2
  rw [h.tailBlock_of_ne_nil hne, List.nodup_append] at hnodup
  exact hnodup.2.2 _ hin _ List.mem_cons_self rfl

theorem moved_of_ne (h : Valid maxSize m s v) {b : ℕ} (hb : b ≠ s.queue.frontBlock) :
    s.consumer.moved b = false := by
  have hconsumer := h.consumer
  cases hc : s.consumer with
  | idle => rfl
  | dequeuing request pc =>
    cases pc with
    | storeFront element block blockFront =>
      rw [hc] at hconsumer
      obtain ⟨_, rfl, _⟩ := hconsumer
      exact decide_eq_false hb
    | _ => rfl

theorem staged_of_notMem (h : Valid maxSize m s v) {b : ℕ} (hb : b ∉ v.free) :
    s.producer.staged b = [] := by
  have hproducer := h.producer
  cases hp : s.producer with
  | idle => rfl
  | enqueuing mode element pc =>
    cases pc with
    | storeTailBlock block =>
      rw [hp] at hproducer
      obtain ⟨_, _, hhead⟩ := hproducer
      have hne : b ≠ block := by
        intro heq
        exact hb (heq ▸ List.mem_of_mem_head? hhead)
      exact if_neg hne
    | _ => rfl

theorem flatMap_behind {b : ℕ} (hb : b ∉ v.behind) (held : List α) :
    v.behind.flatMap (Function.update v.contents b held) = v.behind.flatMap v.contents := by
  apply List.flatMap_congr
  intro a ha
  apply Function.update_of_ne
  intro hab
  exact hb (hab ▸ ha)

theorem held_append (h : Valid maxSize m s v) (x : α) :
    Function.update v.contents s.queue.tailBlock (v.contents s.queue.tailBlock ++ [x])
        s.queue.frontBlock
      ++ v.behind.flatMap
        (Function.update v.contents s.queue.tailBlock (v.contents s.queue.tailBlock ++ [x]))
      = v.held s.queue ++ [x] := by
  by_cases hne : v.behind = []
  · rw [View.held, hne, List.flatMap_nil, List.flatMap_nil, h.tailBlock_of_nil hne,
      Function.update_self, List.append_nil, List.append_nil]
  · have hfront : s.queue.frontBlock ≠ s.queue.tailBlock := mt h.tailBlock_eq_iff.mp hne
    have hsplit := h.tailBlock_of_ne_nil hne
    have hfull : v.behind.dropLast.flatMap
        (Function.update v.contents s.queue.tailBlock (v.contents s.queue.tailBlock ++ [x]))
          = v.behind.dropLast.flatMap v.contents := by
      apply List.flatMap_congr
      intro a ha
      apply Function.update_of_ne
      intro hab
      exact h.tailBlock_notMem_dropLast (hab ▸ ha)
    rw [Function.update_of_ne hfront, View.held, hsplit, List.flatMap_append, List.flatMap_append,
      hfull, List.flatMap_singleton, List.flatMap_singleton, Function.update_self]
    simp only [List.append_assoc]

theorem rethread (h : Valid maxSize m s v) {p : Producer α} {c : Consumer α}
    {history : List (Action Role (Operation α) (Result α))}
    {options : Role → Set (Status (Operation α) (Result α))}
    (hmoved : c.moved = s.consumer.moved) (hbuilt : p.built = s.producer.built)
    (hstaged : p.staged = s.producer.staged)
    (hproducer : p.Ok s.queue { v with options := options } m)
    (hconsumer : c.Ok s.queue { v with options := options })
    (hexplains : Explains (Fifo maxSize) [] history (v.held s.queue) options) :
    Valid maxSize m ⟨s.queue, p, c, history⟩ { v with options := options } where
  ring := h.ring
  allocated := h.allocated
  tail := h.tail
  sound := by
    intro b hb
    dsimp only
    rw [hmoved, hbuilt]
    exact h.sound b hb
  free := by
    intro b hb
    dsimp only
    rw [hstaged]
    exact h.free b hb
  nonempty := h.nonempty
  full := h.full
  capacity := ⟨h.capacity.blocks, h.capacity.enough, h.capacity.largest, h.capacity.le_largest⟩
  producer := hproducer
  consumer := hconsumer
  explains := hexplains

theorem set (h : Valid maxSize m s v) {b : ℕ} {block : Block α} {contents : ℕ → List α}
    {p : Producer α} {c : Consumer α} {history : List (Action Role (Operation α) (Result α))}
    {options : Role → Set (Status (Operation α) (Result α))}
    (hnext : block.next = (s.queue.blocks b).next)
    (hmask : block.sizeMask = (s.queue.blocks b).sizeMask)
    (hsound : Sound block (c.moved b) (contents b) (p.built b))
    (hothers : ∀ a ≠ b, contents a = v.contents a ∧ c.moved a = s.consumer.moved a ∧
      p.built a = s.producer.built a)
    (hfree : ∀ a ∈ v.free, contents a = p.staged a)
    (hnonempty : b ∈ v.behind → contents b ≠ [])
    (hfull : b ∈ v.behind.dropLast → (contents b).length = block.sizeMask)
    (hproducer : p.Ok (s.queue.set b block) { v with contents := contents, options := options } m)
    (hconsumer : c.Ok (s.queue.set b block) { v with contents := contents, options := options })
    (hexplains : Explains (Fifo maxSize) [] history
      (View.held { v with contents := contents, options := options } (s.queue.set b block))
      options) :
    Valid maxSize m ⟨s.queue.set b block, p, c, history⟩
      { v with contents := contents, options := options } where
  ring := h.ring.congr fun a _ => Queue.field_set Block.next hnext a
  allocated := h.allocated
  tail := h.tail
  sound := by
    intro a ha
    dsimp only
    by_cases hab : a = b
    · subst hab
      rw [Queue.blocks_set]
      exact hsound
    · obtain ⟨hcontents, hmoved, hbuilt⟩ := hothers a hab
      rw [Queue.blocks_set_of_ne s.queue block hab, hcontents, hmoved, hbuilt]
      exact h.sound a ha
  free := hfree
  nonempty := by
    intro a ha
    dsimp only
    by_cases hab : a = b
    · subst hab
      exact hnonempty ha
    · rw [(hothers a hab).1]
      exact h.nonempty a ha
  full := by
    intro a ha
    dsimp only
    by_cases hab : a = b
    · subst hab
      rw [Queue.blocks_set]
      exact hfull ha
    · rw [Queue.blocks_set_of_ne s.queue block hab, (hothers a hab).1]
      exact h.full a ha
  capacity := by
    refine ⟨?_, h.capacity.enough, h.capacity.largest, h.capacity.le_largest⟩
    intro a ha
    dsimp only
    rw [Queue.field_set Block.sizeMask hmask a]
    exact h.capacity.blocks a ha
  producer := hproducer
  consumer := hconsumer
  explains := hexplains

theorem touch (h : Valid maxSize m s v) {b : ℕ} {block : Block α}
    {p : Producer α} {c : Consumer α} {history : List (Action Role (Operation α) (Result α))}
    {options : Role → Set (Status (Operation α) (Result α))}
    (hnext : block.next = (s.queue.blocks b).next)
    (hmask : block.sizeMask = (s.queue.blocks b).sizeMask)
    (hsound : Sound block (c.moved b) (v.contents b) (p.built b))
    (hothers : ∀ a ≠ b, c.moved a = s.consumer.moved a ∧ p.built a = s.producer.built a)
    (hstaged : p.staged = s.producer.staged)
    (hproducer : p.Ok (s.queue.set b block) { v with options := options } m)
    (hconsumer : c.Ok (s.queue.set b block) { v with options := options })
    (hexplains : Explains (Fifo maxSize) [] history (v.held s.queue) options) :
    Valid maxSize m ⟨s.queue.set b block, p, c, history⟩ { v with options := options } := by
  apply h.set hnext hmask hsound
  · intro a ha
    exact ⟨rfl, hothers a ha⟩
  · intro a ha
    rw [hstaged]
    exact h.free a ha
  · exact h.nonempty b
  · intro hb
    rw [hmask]
    exact h.full b hb
  · exact hproducer
  · exact hconsumer
  · exact hexplains

end Valid

variable {q : Queue α}

theorem Grows.of_options {options : Role → Set (Status (Operation α) (Result α))}
    (hoptions : options .consumer = v.options .consumer) :
    Grows q v q { v with options := options } where
  frontBlock := rfl
  front := fun _ _ => rfl
  localTail := fun _ _ => rfl
  sizeMask := fun _ _ => rfl
  contents := fun _ _ => List.prefix_refl _
  left := fun _ => rfl
  behind := List.prefix_refl _
  options := hoptions

theorem Grows.set {b : ℕ} {block : Block α} {contents : ℕ → List α}
    {options : Role → Set (Status (Operation α) (Result α))}
    (hfront : block.front = (q.blocks b).front)
    (hlocalTail : block.localTail = (q.blocks b).localTail)
    (hmask : block.sizeMask = (q.blocks b).sizeMask)
    (hcontents : ∀ a, v.contents a <+: contents a)
    (hleft : v.behind ≠ [] → contents q.frontBlock = v.contents q.frontBlock)
    (hoptions : options .consumer = v.options .consumer) :
    Grows q v (q.set b block) { v with contents := contents, options := options } where
  frontBlock := rfl
  front := fun a _ => Queue.field_set Block.front hfront a
  localTail := fun a _ => Queue.field_set Block.localTail hlocalTail a
  sizeMask := fun a _ => Queue.field_set Block.sizeMask hmask a
  contents := fun a _ => hcontents a
  left := hleft
  behind := List.prefix_refl _
  options := hoptions

theorem TailFull.set {b : ℕ} {block : Block α} {contents : ℕ → List α}
    {options : Role → Set (Status (Operation α) (Result α))} (hfull : TailFull q v)
    (hmask : block.sizeMask = (q.blocks b).sizeMask)
    (hcontents : contents q.tailBlock = v.contents q.tailBlock) :
    TailFull (q.set b block) { v with contents := contents, options := options } := by
  intro hne
  have hlen := hfull hne
  rw [Queue.tailBlock_set, Queue.field_set Block.sizeMask hmask]
  dsimp only
  rw [hcontents]
  exact hlen

theorem Shrinks.of_options {options : Role → Set (Status (Operation α) (Result α))}
    (hoptions : options .producer = v.options .producer) :
    Shrinks q v q { v with options := options } where
  tailBlock := rfl
  allocated := rfl
  tail := fun _ => rfl
  sizeMask := fun _ => rfl
  next := fun _ => rfl
  outside := fun _ _ => rfl
  room := fun _ _ _ hroom => hroom
  full := fun hne => ⟨hne, rfl⟩
  free := List.prefix_refl _
  ring := List.Perm.refl _
  options := hoptions

theorem Shrinks.set {b : ℕ} {block : Block α} {contents : ℕ → List α}
    {options : Role → Set (Status (Operation α) (Result α))} (hb : b ∈ v.ring q)
    (htail : block.tail = (q.blocks b).tail) (hmask : block.sizeMask = (q.blocks b).sizeMask)
    (hnext : block.next = (q.blocks b).next)
    (hroom : ∀ n, Room (q.blocks b) (v.contents b) n → Room block (contents b) n)
    (hothers : ∀ a ≠ b, contents a = v.contents a)
    (hfull : v.behind ≠ [] → contents q.tailBlock = v.contents q.tailBlock)
    (hoptions : options .producer = v.options .producer) :
    Shrinks q v (q.set b block) { v with contents := contents, options := options } where
  tailBlock := rfl
  allocated := rfl
  tail := fun a => Queue.field_set Block.tail htail a
  sizeMask := fun a => Queue.field_set Block.sizeMask hmask a
  next := fun a => Queue.field_set Block.next hnext a
  outside := by
    intro a ha
    apply Queue.blocks_set_of_ne
    intro hab
    exact ha (hab ▸ hb)
  room := by
    intro a _ n hold
    by_cases hab : a = b
    · subst hab
      rw [Queue.blocks_set]
      exact hroom n hold
    · rw [Queue.blocks_set_of_ne q block hab]
      dsimp only
      rw [hothers a hab]
      exact hold
  full := fun hne => ⟨hne, hfull hne⟩
  free := List.prefix_refl _
  ring := List.Perm.refl _
  options := hoptions

end Moodycamel
