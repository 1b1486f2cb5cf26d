import Mathlib

/-!
# Sweeps that pass over a neighbour

A loop over a list erases the elements with a property, and goes on behind the element that follows an
erased one. What it leaves has no element with the property exactly if no two neighbours in the list
have it.
-/

namespace Sweeps

variable {α : Type} (p : α → Bool)

/-- The elements that are left; the flag tells whether the next element is passed over. -/
def kept : Bool → List α → List α
  | _, [] => []
  | true, x :: l => x :: kept false l
  | false, x :: l => if p x then kept true l else x :: kept false l

def erased : Bool → List α → List α
  | _, [] => []
  | true, _ :: l => erased false l
  | false, x :: l => if p x then x :: erased true l else erased false l

/-- At least one of any two neighbours does not have the property. -/
def Apart (l : List α) : Prop := l.IsChain fun x y => p x = false ∨ p y = false

variable {p} {l : List α}

theorem apart_cons {x : α} : Apart p (x :: l) ↔
    (∀ y ∈ l.head?, p x = false ∨ p y = false) ∧ Apart p l := List.isChain_cons

theorem kept_false_cons_of_pos {x : α} (h : p x = true) :
    kept p false (x :: l) = kept p true l := if_pos h

theorem kept_false_cons_of_neg {x : α} (h : p x = false) :
    kept p false (x :: l) = x :: kept p false l := by
  rw [kept, h]
  rfl

theorem erased_false_cons_of_pos {x : α} (h : p x = true) :
    erased p false (x :: l) = x :: erased p true l := if_pos h

theorem erased_false_cons_of_neg {x : α} (h : p x = false) :
    erased p false (x :: l) = erased p false l := by
  rw [erased, h]
  rfl

theorem forall_kept_iff' (passOver : Bool) (l : List α) :
    (∀ x ∈ kept p passOver l, p x = false) ↔
      (passOver = true → ∀ y ∈ l.head?, p y = false) ∧ Apart p l := by
  induction l generalizing passOver with
  | nil => simp [kept, Apart]
  | cons x l ih =>
    have hrest := ih false
    rw [Bool.false_eq_true, false_implies, true_and] at hrest
    have hhead : (∀ y ∈ (x :: l).head?, p y = false) ↔ p x = false := by simp
    rw [apart_cons, hhead]
    cases passOver with
    | true =>
      rw [kept, List.forall_mem_cons, hrest, eq_self, true_implies]
      refine and_congr_right fun hx => (and_iff_right ?_).symm
      exact fun _ _ => Or.inl hx
    | false =>
      rw [Bool.false_eq_true, false_implies, true_and]
      cases hx : p x with
      | true =>
        rw [kept_false_cons_of_pos hx, ih true, eq_self, true_implies]
        simp only [Bool.true_eq_false, false_or]
      | false =>
        rw [kept_false_cons_of_neg hx, List.forall_mem_cons, hrest, and_iff_right hx]
        exact (and_iff_right fun _ _ => Or.inl rfl).symm

theorem forall_kept_iff (l : List α) : (∀ x ∈ kept p false l, p x = false) ↔ Apart p l := by
  rw [forall_kept_iff', Bool.false_eq_true, false_implies, true_and]

theorem filter_kept (passOver : Bool) (l : List α) :
    (kept p passOver l).filter (!p ·) = l.filter (!p ·) := by
  induction l generalizing passOver with
  | nil => rw [kept]
  | cons x l ih =>
    cases passOver with
    | true => rw [kept, List.filter_cons, List.filter_cons, ih]
    | false =>
      cases hx : p x with
      | true => rw [kept_false_cons_of_pos hx, ih, List.filter_cons, hx, Bool.not_true]; rfl
      | false => rw [kept_false_cons_of_neg hx, List.filter_cons, List.filter_cons, ih]

/-- The sweep is complete exactly if it leaves as many elements as there are without the property. -/
theorem length_kept_iff (l : List α) :
    (kept p false l).length = (l.filter (!p ·)).length ↔ Apart p l := by
  rw [← filter_kept false l, eq_comm, List.length_filter_eq_length_iff, ← forall_kept_iff]
  simp only [Bool.not_eq_true']

theorem kept_eq_nil_iff (hp : ∀ x, p x = true) (l : List α) :
    kept p false l = [] ↔ l.length ≤ 1 := by
  cases l with
  | nil => simp [kept]
  | cons x l =>
    rw [kept_false_cons_of_pos (hp x)]
    cases l with
    | nil => simp [kept]
    | cons y l => simp [kept]

theorem length_kept (hp : ∀ x, p x = true) (passOver : Bool) (l : List α) :
    (kept p passOver l).length = (l.length + passOver.toNat) / 2 := by
  induction l generalizing passOver with
  | nil =>
    rw [kept]
    cases passOver with
    | true => simp
    | false => simp
  | cons x l ih =>
    cases passOver with
    | true =>
      rw [kept, List.length_cons, ih, List.length_cons, Bool.toNat_false, Bool.toNat_true]
      omega
    | false =>
      rw [kept_false_cons_of_pos (hp x), ih, List.length_cons, Bool.toNat_true, Bool.toNat_false]

end Sweeps
