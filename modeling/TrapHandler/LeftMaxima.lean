import Mathlib

/-!
# Left-to-right maxima

The entries of a list that are greater than all before them are the ones a running maximum takes up.
Whether another entry is greater than all of the list is told by its first greatest entry.
-/

namespace LeftMaxima

variable {α β : Type} [LinearOrder β] (f : α → β)

def leftMaxima (l : List α) : List α :=
  l.foldl (fun maxima a => if ∀ b ∈ maxima, f b < f a then maxima ++ [a] else maxima) []

@[simp] theorem leftMaxima_nil : leftMaxima f [] = [] := rfl

variable {f}

theorem mem_of_mem_leftMaxima {l : List α} {a : α} (h : a ∈ leftMaxima f l) : a ∈ l := by
  induction l using List.reverseRecOn with
  | nil => exact h
  | append_singleton l c ih =>
    rw [leftMaxima, List.foldl_concat] at h
    split_ifs at h with hnew
    · rcases List.mem_append.mp h with hmem | hmem
      · exact List.mem_append_left [c] (ih hmem)
      · exact List.mem_append_right l hmem
    · exact List.mem_append_left [c] (ih h)

theorem exists_leftMaxima_ge {l : List α} {a : α} (h : a ∈ l) :
    ∃ b ∈ leftMaxima f l, f a ≤ f b := by
  induction l using List.reverseRecOn with
  | nil => cases h
  | append_singleton l c ih =>
    have hconcat : leftMaxima f (l ++ [c]) =
        if ∀ b ∈ leftMaxima f l, f b < f c then leftMaxima f l ++ [c] else leftMaxima f l :=
      List.foldl_concat _ _ _ _
    rw [hconcat]
    rcases List.mem_append.mp h with hmem | hmem
    · obtain ⟨b, hb, hle⟩ := ih hmem
      split_ifs
      · exact ⟨b, List.mem_append_left [c] hb, hle⟩
      · exact ⟨b, hb, hle⟩
    · rw [List.mem_singleton.mp hmem]
      split_ifs with hnew
      · exact ⟨c, List.mem_concat_self, le_rfl⟩
      · push Not at hnew
        exact hnew

theorem forall_leftMaxima_lt {l : List α} {x : β} :
    (∀ b ∈ leftMaxima f l, f b < x) ↔ ∀ b ∈ l, f b < x := by
  constructor
  · intro h a ha
    obtain ⟨b, hb, hle⟩ := exists_leftMaxima_ge (f := f) ha
    exact lt_of_le_of_lt hle (h b hb)
  · exact fun h b hb => h b (mem_of_mem_leftMaxima hb)

theorem leftMaxima_concat (l : List α) (a : α) :
    leftMaxima f (l ++ [a]) =
      if ∀ b ∈ l, f b < f a then leftMaxima f l ++ [a] else leftMaxima f l := by
  have hconcat : leftMaxima f (l ++ [a]) =
      if ∀ b ∈ leftMaxima f l, f b < f a then leftMaxima f l ++ [a] else leftMaxima f l :=
    List.foldl_concat _ _ _ _
  rw [hconcat]
  simp only [forall_leftMaxima_lt]

theorem forall_lt_iff_argmax {l : List α} {x : β} :
    (∀ b ∈ l, f b < x) ↔ ∀ b ∈ l.argmax f, f b < x := by
  constructor
  · exact fun h b hb => h b (List.argmax_mem hb)
  · intro h b hb
    cases hmax : l.argmax f with
    | none =>
      rw [List.argmax_eq_none.mp hmax] at hb
      cases hb
    | some m => exact lt_of_le_of_lt (List.le_of_mem_argmax hb hmax) (h m hmax)

theorem argmax_concat_of_lt {l : List α} {a : α} (h : ∀ b ∈ l, f b < f a) :
    (l ++ [a]).argmax f = some a := by
  rw [List.argmax_concat]
  cases hmax : l.argmax f with
  | none => rfl
  | some m => exact if_pos (h m (List.argmax_mem hmax))

theorem argmax_concat_of_not_lt {l : List α} {a : α} (h : ¬ ∀ b ∈ l, f b < f a) :
    (l ++ [a]).argmax f = l.argmax f := by
  rw [forall_lt_iff_argmax] at h
  rw [List.argmax_concat]
  cases hmax : l.argmax f with
  | none =>
    rw [hmax] at h
    exact absurd (fun b hb => by cases hb) h
  | some m =>
    apply if_neg
    intro hlt
    apply h
    intro b hb
    rw [hmax] at hb
    cases hb
    exact hlt

end LeftMaxima
