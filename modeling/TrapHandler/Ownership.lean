import Mathlib.Data.List.Nodup
import Mathlib.Data.List.Range

/-!
# Owned cells of a heap

A heap numbers its cells in the order of their creation and records every delete. `Owned` accounts
for the cells created in a stretch of a run: each of them is owned at its end or has been deleted in
it once, and no older cell has been touched.
-/

namespace Ownership

variable {α : Type}

/-- A cell is empty until a value has been written, and once it has been deleted. -/
structure Heap (α : Type) where
  cells : List (Option α) := []
  deleted : List ℕ := []
  deriving DecidableEq, Repr

namespace Heap

def size (heap : Heap α) : ℕ := heap.cells.length

def get (heap : Heap α) (p : ℕ) : Option α := heap.cells[p]?.join

def new (heap : Heap α) : ℕ × Heap α :=
  (heap.size, { heap with cells := heap.cells ++ [none] })

def write (heap : Heap α) (p : ℕ) (a : α) : Heap α :=
  { heap with cells := heap.cells.set p (some a) }

def delete (heap : Heap α) (p : ℕ) : Heap α :=
  { cells := heap.cells.set p none, deleted := heap.deleted ++ [p] }

def deleteAll : List ℕ → Heap α → Heap α
  | [], heap => heap
  | p :: rest, heap => deleteAll rest (heap.delete p)

@[simp] theorem new_fst (heap : Heap α) : heap.new.1 = heap.size := rfl

@[simp] theorem deleted_new (heap : Heap α) : heap.new.2.deleted = heap.deleted := rfl

@[simp] theorem deleted_write (heap : Heap α) (p : ℕ) (a : α) :
    (heap.write p a).deleted = heap.deleted := rfl

@[simp] theorem deleted_delete (heap : Heap α) (p : ℕ) :
    (heap.delete p).deleted = heap.deleted ++ [p] := rfl

@[simp] theorem size_new (heap : Heap α) : heap.new.2.size = heap.size + 1 := by
  simp [size, new]

@[simp] theorem size_write (heap : Heap α) (p : ℕ) (a : α) : (heap.write p a).size = heap.size := by
  simp [size, write]

@[simp] theorem size_delete (heap : Heap α) (p : ℕ) : (heap.delete p).size = heap.size := by
  simp [size, delete]

theorem get_new {heap : Heap α} {p : ℕ} (h : p < heap.size) : heap.new.2.get p = heap.get p := by
  rw [get, new, List.getElem?_append_left h, get]

theorem get_write_self {heap : Heap α} {p : ℕ} (a : α) (h : p < heap.size) :
    (heap.write p a).get p = some a := by
  rw [get, write, List.getElem?_set_self h, Option.join_some]

theorem get_write_of_ne {heap : Heap α} {p q : ℕ} (a : α) (h : q ≠ p) :
    (heap.write q a).get p = heap.get p := by
  rw [get, write, List.getElem?_set_ne h, get]

theorem get_delete_of_ne {heap : Heap α} {p q : ℕ} (h : q ≠ p) :
    (heap.delete q).get p = heap.get p := by
  rw [get, delete, List.getElem?_set_ne h, get]

theorem deleteAll_append (ps qs : List ℕ) (heap : Heap α) :
    heap.deleteAll (ps ++ qs) = (heap.deleteAll ps).deleteAll qs := by
  induction ps generalizing heap with
  | nil => rfl
  | cons p ps ih => exact ih (heap.delete p)

theorem get_deleteAll {heap : Heap α} {ps : List ℕ} {p : ℕ} (h : p ∉ ps) :
    (heap.deleteAll ps).get p = heap.get p := by
  induction ps generalizing heap with
  | nil => rfl
  | cons q ps ih =>
    rw [List.mem_cons, not_or] at h
    exact (ih h.2).trans (get_delete_of_ne (Ne.symm h.1))

theorem write_new (heap : Heap α) (a : α) :
    heap.new.2.write heap.size a = { heap with cells := heap.cells ++ [some a] } := by
  rw [write, new, size, List.set_append_right _ _ le_rfl, Nat.sub_self, List.set_cons_zero]

def since (before after : Heap α) : List ℕ :=
  List.range' before.size (after.size - before.size)

theorem mem_since {before after : Heap α} {p : ℕ} (h : before.size ≤ after.size) :
    p ∈ since before after ↔ before.size ≤ p ∧ p < after.size := by
  rw [since, List.mem_range'_1]
  omega

end Heap

open Heap

/-- The cells hold the values, one after the other. -/
def Holds (heap : Heap α) (ptrs : List ℕ) (values : List α) : Prop :=
  ptrs.map heap.get = values.map some

namespace Holds

variable {heap heap' : Heap α} {ptrs : List ℕ} {values : List α}

theorem nil (heap : Heap α) : Holds heap [] [] := rfl

theorem congr (h : Holds heap ptrs values) (hget : ∀ p ∈ ptrs, heap'.get p = heap.get p) :
    Holds heap' ptrs values :=
  (List.map_congr_left hget).trans h

theorem concat {p : ℕ} {a : α} (h : Holds heap ptrs values) (hp : heap.get p = some a) :
    Holds heap (ptrs ++ [p]) (values ++ [a]) := by
  rw [Holds, List.map_append, List.map_append, h, List.map_singleton, List.map_singleton, hp]

theorem append {ptrs' : List ℕ} {values' : List α} (h : Holds heap ptrs values)
    (h' : Holds heap ptrs' values') : Holds heap (ptrs ++ ptrs') (values ++ values') := by
  rw [Holds, List.map_append, List.map_append, h, h']

end Holds

structure Owned (before after : Heap α) (owned : List ℕ) : Prop where
  older : ∀ p < before.size, after.get p = before.get p
  grown : before.size ≤ after.size
  account : ∃ gone, after.deleted = before.deleted ++ gone ∧
    (gone ++ owned).Perm (since before after)

namespace Owned

variable {before heap : Heap α} {owned owned' : List ℕ} {p : ℕ}

theorem refl (heap : Heap α) : Owned heap heap [] := by
  refine ⟨fun _ _ => rfl, le_rfl, [], (List.append_nil _).symm, ?_⟩
  rw [since, Nat.sub_self]
  exact List.Perm.refl _

theorem bounds (h : Owned before heap owned) (hp : p ∈ owned) :
    before.size ≤ p ∧ p < heap.size := by
  obtain ⟨gone, _, hperm⟩ := h.account
  exact (mem_since h.grown).mp (hperm.mem_iff.mp (List.mem_append_right gone hp))

theorem new (h : Owned before heap owned) : Owned before heap.new.2 (owned ++ [heap.new.1]) := by
  obtain ⟨gone, hgone, hperm⟩ := h.account
  have hgrown := h.grown
  refine ⟨?_, ?_, gone, hgone, ?_⟩
  · intro p hp
    rw [get_new (by omega), h.older p hp]
  · rw [size_new]
    omega
  · have hsince : since before heap.new.2 = since before heap ++ [heap.size] := by
      rw [since, since, size_new, Nat.sub_add_comm hgrown, List.range'_concat]
      congr 2
      omega
    rw [hsince, new_fst, ← List.append_assoc]
    exact hperm.append_right _

theorem write (h : Owned before heap owned) (a : α) (hp : p ∈ owned) :
    Owned before (heap.write p a) owned := by
  obtain ⟨gone, hgone, hperm⟩ := h.account
  have hbounds := h.bounds hp
  refine ⟨?_, ?_, gone, hgone, ?_⟩
  · intro q hq
    rw [get_write_of_ne a (by omega), h.older q hq]
  · rw [size_write]
    exact h.grown
  · rw [since, size_write]
    exact hperm

theorem delete (h : Owned before heap owned) (hp : owned.Perm (p :: owned')) :
    Owned before (heap.delete p) owned' := by
  obtain ⟨gone, hgone, hperm⟩ := h.account
  have hbounds := h.bounds (hp.mem_iff.mpr List.mem_cons_self)
  refine ⟨?_, ?_, gone ++ [p], ?_, ?_⟩
  · intro q hq
    rw [get_delete_of_ne (by omega), h.older q hq]
  · rw [size_delete]
    exact h.grown
  · rw [deleted_delete, hgone, List.append_assoc]
  · rw [since, size_delete, List.append_assoc, List.singleton_append]
    exact (hp.symm.append_left gone).trans hperm

theorem perm (h : Owned before heap owned) (hp : owned.Perm owned') : Owned before heap owned' := by
  obtain ⟨gone, hgone, hperm⟩ := h.account
  exact ⟨h.older, h.grown, gone, hgone, (hp.symm.append_left gone).trans hperm⟩

theorem nodup (h : Owned before heap owned) : owned.Nodup := by
  obtain ⟨gone, _, hperm⟩ := h.account
  have hnodup : (gone ++ owned).Nodup := hperm.nodup_iff.mpr (List.nodup_range' 1)
  exact (List.nodup_append.mp hnodup).2.1

theorem append {heap' : Heap α} {ps : List ℕ} (h : Owned before heap owned)
    (h' : Owned heap heap' ps) : Owned before heap' (owned ++ ps) := by
  obtain ⟨gone, hgone, hperm⟩ := h.account
  obtain ⟨gone', hgone', hperm'⟩ := h'.account
  have hgrown := h.grown
  have hgrown' := h'.grown
  refine ⟨?_, by omega, gone ++ gone', ?_, ?_⟩
  · intro p hp
    rw [h'.older p (by omega), h.older p hp]
  · rw [hgone', hgone, List.append_assoc]
  · have hsince : since before heap' = since before heap ++ since heap heap' := by
      obtain ⟨a, ha⟩ := Nat.exists_eq_add_of_le hgrown
      obtain ⟨b, hb⟩ := Nat.exists_eq_add_of_le hgrown'
      unfold since
      rw [hb, Nat.add_sub_cancel_left, ha, Nat.add_sub_cancel_left, Nat.add_assoc,
        Nat.add_sub_cancel_left, List.range'_append_1]
    have hmiddle : (gone ++ gone' ++ (owned ++ ps)).Perm (gone ++ owned ++ (gone' ++ ps)) := by
      rw [List.append_assoc, List.append_assoc]
      apply List.Perm.append_left
      rw [← List.append_assoc, ← List.append_assoc]
      exact List.perm_append_comm.append_right ps
    rw [hsince]
    exact hmiddle.trans (hperm.append hperm')

theorem deleteFront {ps : List ℕ} (h : Owned before heap (ps ++ owned)) :
    Owned before (heap.deleteAll ps) owned := by
  induction ps generalizing heap with
  | nil => exact h
  | cons p ps ih => exact ih (h.delete (List.Perm.refl _))

theorem deleteAll (h : Owned before heap owned) : Owned before (heap.deleteAll owned) [] := by
  induction owned generalizing heap with
  | nil => exact h
  | cons p rest ih => exact ih (h.delete (List.Perm.refl _))

/-- Nothing has been deleted twice, and the cells that have not been deleted are the owned ones. -/
theorem deleted_nodup (h : Owned {} heap owned) : heap.deleted.Nodup := by
  obtain ⟨gone, hgone, hperm⟩ := h.account
  have hnodup : (gone ++ owned).Nodup := hperm.nodup_iff.mpr (List.nodup_range' 1)
  rw [hgone]
  exact (List.nodup_append.mp hnodup).1

theorem perm_filter_deleted (h : Owned {} heap owned) :
    ((List.range heap.size).filter fun p => decide (p ∉ heap.deleted)).Perm owned := by
  obtain ⟨gone, hgone, hperm⟩ := h.account
  have hnodup : (gone ++ owned).Nodup := hperm.nodup_iff.mpr (List.nodup_range' 1)
  have hdisjoint := (List.nodup_append.mp hnodup).2.2
  have hdeleted : heap.deleted = gone := hgone
  have hgone' : gone.filter (fun p => decide (p ∉ gone)) = [] := by
    rw [List.filter_eq_nil_iff]
    intro p hp hnot
    exact of_decide_eq_true hnot hp
  have howned : owned.filter (fun p => decide (p ∉ gone)) = owned := by
    rw [List.filter_eq_self]
    intro p hp
    exact decide_eq_true fun hin => hdisjoint p hin p hp rfl
  have hrange : (gone ++ owned).Perm (List.range heap.size) := by
    rw [List.range_eq_range']
    exact hperm
  have hfilter := (hrange.filter fun p => decide (p ∉ gone)).symm
  rw [List.filter_append, hgone', howned, List.nil_append] at hfilter
  rw [hdeleted]
  exact hfilter

theorem count_deleted (h : Owned before heap []) (p : ℕ) :
    heap.deleted.count p =
      before.deleted.count p + if before.size ≤ p ∧ p < heap.size then 1 else 0 := by
  obtain ⟨gone, hgone, hperm⟩ := h.account
  rw [List.append_nil] at hperm
  rw [hgone, List.count_append, hperm.count_eq, since, List.Nodup.count (List.nodup_range' 1)]
  exact congrArg (before.deleted.count p + ·) (if_congr (mem_since h.grown) rfl rfl)

end Owned

end Ownership
