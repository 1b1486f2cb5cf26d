import Mathlib

/-!
# Scanners

A scanner passes over the characters with a property and stops in front of the first one without it.
On a text that is put together from such characters and a rest it stops at the rest.
-/

namespace Scanners

variable {α : Type} {p : α → Bool} {c : α} {s rest : List α}

def Stops (p : α → Bool) (rest : List α) : Prop := ∀ c ∈ rest.head?, p c = false

theorem stops_nil : Stops p [] := by
  intro c hc
  cases hc

theorem stops_cons (h : p c = false) : Stops p (c :: rest) := by
  intro d hd
  rw [List.head?_cons, Option.mem_some_iff] at hd
  exact hd ▸ h

theorem takeWhile_of_stops (h : Stops p rest) : rest.takeWhile p = [] := by
  cases rest with
  | nil => rfl
  | cons c rest =>
    have hc : p c = false := h c rfl
    rw [List.takeWhile_cons, hc, if_neg Bool.false_ne_true]

theorem dropWhile_of_stops (h : Stops p rest) : rest.dropWhile p = rest := by
  cases rest with
  | nil => rfl
  | cons c rest =>
    have hc : p c = false := h c rfl
    rw [List.dropWhile_cons, hc, if_neg Bool.false_ne_true]

theorem takeWhile_append_stops (hs : ∀ c ∈ s, p c = true) (h : Stops p rest) :
    (s ++ rest).takeWhile p = s := by
  rw [List.takeWhile_append_of_pos hs, takeWhile_of_stops h, List.append_nil]

theorem dropWhile_append_stops (hs : ∀ c ∈ s, p c = true) (h : Stops p rest) :
    (s ++ rest).dropWhile p = rest := by
  rw [List.dropWhile_append_of_pos hs, dropWhile_of_stops h]

theorem forall_mem_takeWhile (s : List α) : ∀ c ∈ s.takeWhile p, p c = true :=
  fun _ hc => List.mem_takeWhile_imp hc

theorem stops_dropWhile (s : List α) : Stops p (s.dropWhile p) := by
  induction s with
  | nil => exact stops_nil
  | cons c s ih =>
    rw [List.dropWhile_cons]
    split_ifs with hc
    · exact ih
    · exact stops_cons (Bool.eq_false_iff.mpr hc)

end Scanners
