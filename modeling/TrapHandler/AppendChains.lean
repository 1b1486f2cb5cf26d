import TrapHandler.CharArrays

/-!
# Chains of appends

Texts written one behind the other, each over the terminator of the one in front of it, and never
compared with the size of the array. Such a chain leaves what one copy of the joined text leaves, and
it is inside the array exactly if that copy is.
-/

namespace CharArray

variable {α : Type} [Zero α]

/-- An array and the index at which the next text goes. -/
structure Cursor (α : Type) where
  array : CharArray α
  pos : ℕ

def Cursor.append (p : Cursor α) (s : List α) : Cursor α :=
  ⟨p.array.copyAt p.pos s, p.pos + s.length⟩

def Cursor.appendAll (p : Cursor α) (ss : List (List α)) : Cursor α := ss.foldl Cursor.append p

def chain (a : CharArray α) (ss : List (List α)) : CharArray α :=
  (Cursor.appendAll ⟨a, 0⟩ ss).array

/-- Texts one over the other, all of them at the start of the array. -/
def overwrite (a : CharArray α) (ss : List (List α)) : CharArray α :=
  ss.foldl (fun a s => a.copyAt 0 s) a

variable {a b : CharArray α} {i : ℕ} {s t : List α} {ss : List (List α)}

theorem cells_copyAt_congr (h : a.cells = b.cells) (i : ℕ) (s : List α) :
    (a.copyAt i s).cells = (b.copyAt i s).cells := by
  induction s generalizing a b i with
  | nil =>
    change Function.update a.cells i 0 = Function.update b.cells i 0
    rw [h]
  | cons c s ih =>
    apply ih
    change Function.update a.cells i c = Function.update b.cells i c
    rw [h]

theorem cells_copyAt_store (a : CharArray α) (i : ℕ) (x : α) (s : List α) :
    ((a.store i x).copyAt i s).cells = (a.copyAt i s).cells := by
  have hidem : ∀ y, ((a.store i x).store i y).cells = (a.store i y).cells := by
    intro y
    change Function.update (Function.update a.cells i x) i y = Function.update a.cells i y
    rw [Function.update_idem]
  cases s with
  | nil => exact hidem 0
  | cons c s => exact cells_copyAt_congr (hidem c) (i + 1) s

theorem cells_copyAt_append (a : CharArray α) (i : ℕ) (s t : List α) :
    ((a.copyAt i s).copyAt (i + s.length) t).cells = (a.copyAt i (s ++ t)).cells := by
  induction s generalizing a i with
  | nil => exact cells_copyAt_store a i 0 t
  | cons c s ih =>
    have hpos : i + (c :: s).length = i + 1 + s.length := by
      rw [List.length_cons]
      omega
    rw [hpos]
    exact ih (a.store i c) (i + 1)

namespace Cursor

theorem appendAll_cons (p : Cursor α) (s : List α) (ss : List (List α)) :
    p.appendAll (s :: ss) = (p.append s).appendAll ss := rfl

@[simp] theorem size_appendAll (p : Cursor α) (ss : List (List α)) :
    (p.appendAll ss).array.size = p.array.size := by
  induction ss generalizing p with
  | nil => rfl
  | cons s ss ih =>
    rw [appendAll_cons, ih]
    exact size_copyAt p.array p.pos s

theorem cells_appendAll (p : Cursor α) (hne : ss ≠ []) :
    (p.appendAll ss).array.cells = (p.array.copyAt p.pos ss.flatten).cells := by
  induction ss generalizing p with
  | nil => exact absurd rfl hne
  | cons s ss ih =>
    rw [appendAll_cons, List.flatten_cons]
    by_cases hss : ss = []
    · subst hss
      rw [List.flatten_nil, List.append_nil]
      rfl
    · rw [ih (p.append s) hss]
      exact cells_copyAt_append p.array p.pos s ss.flatten

theorem inside_appendAll_iff (p : Cursor α) (hne : ss ≠ []) : (p.appendAll ss).array.Inside ↔
    p.array.Inside ∧ p.pos + ss.flatten.length < p.array.size := by
  induction ss generalizing p with
  | nil => exact absurd rfl hne
  | cons s ss ih =>
    have hfirst : (p.append s).array.Inside ↔
        p.array.Inside ∧ p.pos + s.length < p.array.size := inside_copyAt_iff
    rw [appendAll_cons, List.flatten_cons, List.length_append]
    by_cases hss : ss = []
    · subst hss
      exact hfirst
    · have hsize : (p.append s).array.size = p.array.size := size_copyAt p.array p.pos s
      have hpos : (p.append s).pos = p.pos + s.length := rfl
      rw [ih (p.append s) hss, hfirst, hsize, hpos, and_assoc, ← Nat.add_assoc]
      refine and_congr_right fun _ => and_iff_right_of_imp ?_
      intro hlt
      exact lt_of_le_of_lt (Nat.le_add_right _ _) hlt

end Cursor

@[simp] theorem size_chain (a : CharArray α) (ss : List (List α)) : (a.chain ss).size = a.size :=
  Cursor.size_appendAll ⟨a, 0⟩ ss

theorem inside_chain_iff (hne : ss ≠ []) :
    (a.chain ss).Inside ↔ a.Inside ∧ ss.flatten.length < a.size := by
  have hiff := Cursor.inside_appendAll_iff ⟨a, 0⟩ hne
  rw [Nat.zero_add] at hiff
  exact hiff

theorem text_chain [DecidableEq α] (hne : ss ≠ []) (hzero : 0 ∉ ss.flatten)
    (hlen : ss.flatten.length < a.size) : (a.chain ss).text = ss.flatten := by
  have hcells : (a.chain ss).cells = (a.copyAt 0 ss.flatten).cells :=
    Cursor.cells_appendAll ⟨a, 0⟩ hne
  calc
    (a.chain ss).text = (a.copyAt 0 ss.flatten).text := by
      rw [text, text, hcells, size_chain, size_copyAt]
    _ = ss.flatten := text_copyAt a hzero hlen

theorem inside_overwrite_iff :
    (a.overwrite ss).Inside ↔ a.Inside ∧ ∀ s ∈ ss, s.length < a.size := by
  induction ss generalizing a with
  | nil => simp [overwrite]
  | cons s ss ih =>
    have hfirst : (a.copyAt 0 s).Inside ↔ a.Inside ∧ s.length < a.size := by
      rw [inside_copyAt_iff, Nat.zero_add]
    have hrest : a.overwrite (s :: ss) = (a.copyAt 0 s).overwrite ss := rfl
    rw [hrest, ih, hfirst, size_copyAt, List.forall_mem_cons, and_assoc]

end CharArray
