import Mathlib

/-!
# Lists with keys

A list in which no two entries have the same key can be searched, changed and cut down by key: what
is found first is the only entry with its key.
-/

namespace KeyedLists

variable {α κ : Type} {key : α → κ} {l : List α} {a b : α}

def Distinct (key : α → κ) (l : List α) : Prop := (l.map key).Nodup

theorem distinct_nil : Distinct key [] := List.nodup_nil

theorem distinct_cons : Distinct key (a :: l) ↔ (∀ b ∈ l, key b ≠ key a) ∧ Distinct key l := by
  rw [Distinct, List.map_cons, List.nodup_cons, List.mem_map]
  apply and_congr_left
  intro _
  constructor
  · intro h b hb hkey
    exact h ⟨b, hb, hkey⟩
  · rintro h ⟨b, hb, hkey⟩
    exact h b hb hkey

theorem Distinct.sublist {l' : List α} (h : Distinct key l) (hl : l'.Sublist l) :
    Distinct key l' :=
  List.Nodup.sublist (hl.map key) h

theorem Distinct.concat (h : Distinct key l) (hnew : ∀ b ∈ l, key b ≠ key a) :
    Distinct key (l ++ [a]) := by
  have hperm := (List.perm_append_singleton a l).map key
  exact hperm.nodup_iff.mpr (distinct_cons.mpr ⟨hnew, h⟩)

theorem Distinct.replace {front back : List α} (h : Distinct key (front ++ a :: back))
    (hkey : key b = key a) : Distinct key (front ++ b :: back) := by
  have hkeys : (front ++ b :: back).map key = (front ++ a :: back).map key := by
    rw [List.map_append, List.map_append, List.map_cons, List.map_cons, hkey]
  rw [Distinct, hkeys]
  exact h

theorem Distinct.filter_key [BEq κ] [LawfulBEq κ] (h : Distinct key l) (ha : a ∈ l) :
    l.filter (key · == key a) = [a] := by
  induction l with
  | nil => cases ha
  | cons c l ih =>
    obtain ⟨hc, hl⟩ := distinct_cons.mp h
    rcases List.mem_cons.mp ha with rfl | ha
    · have hnone : l.filter (key · == key a) = [] := by
        rw [List.filter_eq_nil_iff]
        intro b hb
        rw [beq_iff_eq]
        exact hc b hb
      rw [List.filter_cons, beq_self_eq_true, if_pos rfl, hnone]
    · have hne : ¬ (key c == key a) = true := by
        rw [beq_iff_eq]
        exact Ne.symm (hc a ha)
      rw [List.filter_cons, if_neg hne, ih hl ha]

end KeyedLists
