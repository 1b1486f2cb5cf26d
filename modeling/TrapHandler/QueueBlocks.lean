import TrapHandler.ReaderWriterQueue
import TrapHandler.RingBuffers

/-!
# The blocks of the reader-writer queue

`Holds` says which elements a block holds. While the consumer has moved the front element out and has
not stored the new front, the slot is empty and the element still counts; while the producer has
constructed an element and has not stored the new tail, the element does not count yet. The shadow
copies `localFront` and `localTail` are older values of `front` and `tail`.
-/

namespace Moodycamel

open RingBuffers

variable {α : Type} {block : Block α} {moved : Bool} {held built : List α} {x : α}

def slots : Bool → List α → List (Option α)
  | false, held => held.map some
  | true, held => (held.map some).modifyHead fun _ => none

@[simp] theorem length_slots (moved : Bool) (held : List α) :
    (slots moved held).length = held.length := by
  cases moved with
  | false => simp [slots]
  | true => simp [slots]

theorem slots_append_some (moved : Bool) (held : List α) (x : α) (hheld : moved → held ≠ []) :
    slots moved (held ++ [x]) = slots moved held ++ [some x] := by
  cases moved with
  | false => simp [slots]
  | true =>
    cases held with
    | nil => exact absurd rfl (hheld rfl)
    | cons y held => simp [slots]

structure Holds (block : Block α) (moved : Bool) (held built : List α) : Prop where
  size : ∃ k, block.sizeMask + 1 = 2 ^ (k + 1)
  length : block.data.length = block.sizeMask + 1
  layout : Layout block.data block.front (slots moved held ++ built.map some)
  moved_ne_nil : moved → held ≠ []
  tail : block.tail = (block.front + held.length) % (block.sizeMask + 1)
  localFront_lt : block.localFront < block.sizeMask + 1

/-- The producer has seen that there is room for `m` more elements. -/
def Room (block : Block α) (held : List α) (m : ℕ) : Prop :=
  ∃ i, (block.localFront + i) % (block.sizeMask + 1) = block.front ∧
    i + held.length + m ≤ block.sizeMask

/-- The consumer has seen at least `m` elements. -/
def Seen (block : Block α) (held : List α) (m : ℕ) : Prop :=
  ∃ j, m ≤ j ∧ j ≤ held.length ∧
    block.localTail = (block.front + j) % (block.sizeMask + 1)

theorem Room.length_le {m : ℕ} (h : Room block held m) : held.length + m ≤ block.sizeMask := by
  obtain ⟨i, _, hroom⟩ := h
  omega

theorem Seen.ne_nil (h : Seen block held 1) : held ≠ [] := by
  obtain ⟨j, hj, hle, _⟩ := h
  intro hnil
  rw [hnil, List.length_nil] at hle
  omega

theorem Seen.append {m : ℕ} (h : Seen block held m) (more : List α) :
    Seen block (held ++ more) m := by
  obtain ⟨j, hj, hle, heq⟩ := h
  refine ⟨j, hj, ?_, heq⟩
  rw [List.length_append]
  omega

namespace Holds

theorem and_mask (h : Holds block moved held built) (i : ℕ) :
    i &&& block.sizeMask = i % (block.sizeMask + 1) := by
  obtain ⟨k, hk⟩ := h.size
  exact RingBuffers.and_mask hk i

theorem front_lt (h : Holds block moved held built) : block.front < block.sizeMask + 1 := by
  rw [← h.length]
  exact h.layout.start_lt

theorem sizeMask_pos (h : Holds block moved held built) : 0 < block.sizeMask := by
  obtain ⟨k, hk⟩ := h.size
  have hpos : 0 < 2 ^ k := Nat.two_pow_pos k
  rw [pow_succ] at hk
  omega

theorem next_tail (h : Holds block moved held built) :
    (block.tail + 1) &&& block.sizeMask
      = (block.front + (held.length + 1)) % (block.sizeMask + 1) := by
  rw [h.and_mask, h.tail, Nat.mod_add_mod, Nat.add_assoc]

theorem room_of_localFront (h : Holds block moved held built) (hroom : Room block held 0)
    (hne : (block.tail + 1) &&& block.sizeMask ≠ block.localFront) : Room block held 1 := by
  obtain ⟨i, hi, hle⟩ := hroom
  refine ⟨i, hi, ?_⟩
  by_contra hfull
  apply hne
  have hsum : i + (held.length + 1) = block.sizeMask + 1 := by omega
  rw [h.next_tail, ← hi, Nat.mod_add_mod, Nat.add_assoc, hsum, Nat.add_mod_right,
    Nat.mod_eq_of_lt h.localFront_lt]

theorem next_tail_eq_front (h : Holds block moved held built) (hroom : Room block held 0) :
    (block.tail + 1) &&& block.sizeMask = block.front ↔ held.length = block.sizeMask := by
  have hle := hroom.length_le
  rw [h.next_tail, add_mod_eq_self_iff h.front_lt (by omega)]
  omega

theorem load_front (h : Holds block moved held built) :
    Holds { block with localFront := block.front } moved held built where
  size := h.size
  length := h.length
  layout := h.layout
  moved_ne_nil := h.moved_ne_nil
  tail := h.tail
  localFront_lt := h.front_lt

theorem room_front (h : Holds block moved held built) {m : ℕ}
    (hle : held.length + m ≤ block.sizeMask) :
    Room { block with localFront := block.front } held m := by
  refine ⟨0, Nat.mod_eq_of_lt h.front_lt, ?_⟩
  rw [Nat.zero_add]
  exact hle

theorem construct (h : Holds block moved held []) (hroom : Room block held 1) (x : α) :
    block.construct block.tail x
        = some { block with data := block.data.set block.tail (some x) } ∧
      Holds { block with data := block.data.set block.tail (some x) } moved held [x] := by
  have hlayout := h.layout
  rw [List.map_nil, List.append_nil] at hlayout
  have hle := hroom.length_le
  have hlt : (slots moved held).length < block.data.length := by
    rw [length_slots, h.length]
    omega
  have htail : block.tail = (block.front + (slots moved held).length) % block.data.length := by
    rw [length_slots, h.length]
    exact h.tail
  have hfree := hlayout.next_free hlt
  rw [← htail] at hfree
  have hconstruct := hlayout.construct hlt x
  rw [← htail] at hconstruct
  constructor
  · unfold Block.construct
    rw [hfree]
  · constructor
    · exact h.size
    · rw [List.length_set]
      exact h.length
    · exact hconstruct
    · exact h.moved_ne_nil
    · exact h.tail
    · exact h.localFront_lt

theorem store_tail (h : Holds block moved held [x]) :
    Holds { block with tail := (block.tail + 1) &&& block.sizeMask } moved (held ++ [x]) [] where
  size := h.size
  length := h.length
  layout := by
    rw [slots_append_some moved held x h.moved_ne_nil, List.map_nil, List.append_nil]
    exact h.layout
  moved_ne_nil := fun _ => List.append_ne_nil_of_right_ne_nil held (List.cons_ne_nil x [])
  tail := by
    rw [h.next_tail, List.length_append, List.length_singleton]
  localFront_lt := h.localFront_lt

theorem set_next (h : Holds block moved held built) (next : Option ℕ) :
    Holds { block with next := next } moved held built :=
  ⟨h.size, h.length, h.layout, h.moved_ne_nil, h.tail, h.localFront_lt⟩

theorem makeBlock {k : ℕ} : Holds (makeBlock (2 ^ (k + 1)) : Block α) false [] [] := by
  have hpos : 0 < 2 ^ (k + 1) := Nat.two_pow_pos (k + 1)
  have hsize : (Moodycamel.makeBlock (2 ^ (k + 1)) : Block α).sizeMask + 1 = 2 ^ (k + 1) := by
    unfold Moodycamel.makeBlock
    dsimp only
    omega
  constructor
  · exact ⟨k, hsize⟩
  · rw [hsize]
    exact List.length_replicate
  · exact Layout.empty hpos
  · intro hfalse
    cases hfalse
  · rw [hsize]
    rfl
  · rw [hsize]
    exact hpos

theorem seen_of_ne (h : Holds block moved held built) (hseen : Seen block held 0)
    (hne : block.front ≠ block.localTail) : Seen block held 1 := by
  obtain ⟨j, _, hle, heq⟩ := hseen
  refine ⟨j, ?_, hle, heq⟩
  by_contra hzero
  have hj : j = 0 := by omega
  rw [hj, Nat.add_zero, Nat.mod_eq_of_lt h.front_lt] at heq
  exact hne heq.symm

theorem front_eq_tail (h : Holds block moved held built) (hroom : Room block held 0) :
    block.front = block.tail ↔ held = [] := by
  have hle := hroom.length_le
  rw [h.tail, eq_comm, add_mod_eq_self_iff h.front_lt (by omega), ← List.length_eq_zero_iff]
  omega

theorem load_tail (h : Holds block moved held built) :
    Holds { block with localTail := block.tail } moved held built :=
  ⟨h.size, h.length, h.layout, h.moved_ne_nil, h.tail, h.localFront_lt⟩

theorem seen_tail (h : Holds block moved held built) {m : ℕ} (hm : m ≤ held.length) :
    Seen { block with localTail := block.tail } held m :=
  ⟨held.length, hm, le_rfl, h.tail⟩

theorem read (h : Holds block false (x :: held) built) : block.read block.front = some x := by
  have hhead : block.data[block.front]? = some (some x) := h.layout.head
  rw [Block.read, hhead]
  rfl

theorem destroy (h : Holds block false (x :: held) built) :
    Holds (block.destroy block.front) true (x :: held) built where
  size := h.size
  length := List.length_set.trans h.length
  layout := h.layout.replace_head none
  moved_ne_nil := fun _ => List.cons_ne_nil x held
  tail := h.tail
  localFront_lt := h.localFront_lt

theorem store_front (h : Holds block true (x :: held) built) :
    Holds { block with front := (block.front + 1) &&& block.sizeMask } false held built where
  size := h.size
  length := h.length
  layout := by
    have hdrop := h.layout.drop_head
    rw [h.length, ← h.and_mask] at hdrop
    exact hdrop
  moved_ne_nil := fun hfalse => by cases hfalse
  tail := by
    have htail := h.tail
    rw [h.and_mask, Nat.mod_add_mod, Nat.add_assoc, Nat.add_comm 1]
    exact htail
  localFront_lt := h.localFront_lt

theorem room_store_front {m : ℕ} (h : Holds block true (x :: held) built)
    (hroom : Room block (x :: held) m) :
    Room { block with front := (block.front + 1) &&& block.sizeMask } held m := by
  obtain ⟨i, hi, hle⟩ := hroom
  rw [List.length_cons] at hle
  refine ⟨i + 1, ?_, by dsimp only; omega⟩
  dsimp only
  rw [h.and_mask, ← hi, Nat.mod_add_mod, Nat.add_assoc]

theorem seen_store_front (h : Holds block true (x :: held) built)
    (hseen : Seen block (x :: held) 1) :
    Seen { block with front := (block.front + 1) &&& block.sizeMask } held 0 := by
  obtain ⟨j, hj, hle, heq⟩ := hseen
  rw [List.length_cons] at hle
  refine ⟨j - 1, Nat.zero_le _, by omega, ?_⟩
  dsimp only
  have hsum : 1 + (j - 1) = j := by omega
  rw [h.and_mask, Nat.mod_add_mod, Nat.add_assoc, hsum]
  exact heq

end Holds

structure Sound (block : Block α) (moved : Bool) (held built : List α) : Prop where
  holds : Holds block moved held built
  room : Room block held built.length
  seen : Seen block held 0

namespace Sound

theorem load_front (h : Sound block moved held built) :
    Sound { block with localFront := block.front } moved held built :=
  ⟨h.holds.load_front, h.holds.room_front h.room.length_le, h.seen⟩

theorem construct (h : Sound block moved held []) (hroom : Room block held 1) (x : α) :
    Sound { block with data := block.data.set block.tail (some x) } moved held [x] :=
  ⟨(h.holds.construct hroom x).2, hroom, h.seen⟩

theorem store_tail (h : Sound block moved held [x]) :
    Sound { block with tail := (block.tail + 1) &&& block.sizeMask } moved (held ++ [x]) [] := by
  refine ⟨h.holds.store_tail, ?_, h.seen.append [x]⟩
  obtain ⟨i, hi, hle⟩ := h.room
  refine ⟨i, hi, ?_⟩
  rw [List.length_append]
  exact hle

theorem set_next (h : Sound block moved held built) (next : Option ℕ) :
    Sound { block with next := next } moved held built :=
  ⟨h.holds.set_next next, h.room, h.seen⟩

theorem load_tail (h : Sound block moved held built) :
    Sound { block with localTail := block.tail } moved held built :=
  ⟨h.holds.load_tail, h.room, h.holds.seen_tail (Nat.zero_le _)⟩

theorem destroy (h : Sound block false (x :: held) built) :
    Sound (block.destroy block.front) true (x :: held) built :=
  ⟨h.holds.destroy, h.room, h.seen⟩

theorem store_front (h : Sound block true (x :: held) built) (hseen : Seen block (x :: held) 1) :
    Sound { block with front := (block.front + 1) &&& block.sizeMask } false held built :=
  ⟨h.holds.store_front, h.holds.room_store_front h.room, h.holds.seen_store_front hseen⟩

theorem makeBlock {k : ℕ} : Sound (makeBlock (2 ^ (k + 1)) : Block α) false [] [] :=
  ⟨Holds.makeBlock, ⟨0, Nat.zero_mod _, Nat.zero_le _⟩, ⟨0, le_rfl, le_rfl, (Nat.zero_mod _).symm⟩⟩

end Sound

end Moodycamel
