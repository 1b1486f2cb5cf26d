import Mathlib

/-!
# Circular chains

The elements of a circular linked list, written down from one of them on. A circular list can be
written down from any of its elements, a new element can be linked in behind any of them, and a loop
that follows the links until it is back has visited each element once, and no element of another
list.
-/

namespace CircularChains

variable {α β : Type} {next next' : α → Option α} {a b c : α} {l xs ys : List α}

structure Ring (next : α → Option α) (l : List α) : Prop where
  nodup : l.Nodup
  linked : List.IsChain (fun a b => next a = some b) (l ++ l.head?.toList)

namespace Ring

theorem next_head (h : Ring next (a :: b :: l)) : next a = some b := by
  have hlinked := h.linked
  rw [List.cons_append, List.cons_append, List.isChain_cons_cons] at hlinked
  exact hlinked.1

theorem rotate (h : Ring next (xs ++ ys)) : Ring next (ys ++ xs) := by
  cases xs with
  | nil =>
    rw [List.append_nil]
    exact h
  | cons a xs =>
    cases ys with
    | nil =>
      rw [List.append_nil] at h
      exact h
    | cons b ys =>
      constructor
      · exact (List.perm_append_comm.nodup_iff).mp h.nodup
      · have hlinked := h.linked
        have hsplit : (a :: xs ++ b :: ys) ++ (a :: xs ++ b :: ys).head?.toList
            = (a :: xs) ++ b :: (ys ++ [a]) := by
          simp
        rw [hsplit, List.isChain_split] at hlinked
        have hrotated : (b :: ys ++ a :: xs) ++ (b :: ys ++ a :: xs).head?.toList
            = (b :: ys) ++ a :: (xs ++ [b]) := by
          simp
        rw [hrotated, List.isChain_split]
        exact ⟨hlinked.2, hlinked.1⟩

theorem next_last (h : Ring next (l ++ [a])) : next a = (l ++ [a]).head? := by
  cases l with
  | nil =>
    have hlinked : List.IsChain (fun a b => next a = some b) [a, a] := h.linked
    have hself := List.isChain_pair.mp hlinked
    exact hself
  | cons b l =>
    have hrotated : Ring next (a :: b :: l) := h.rotate
    exact hrotated.next_head

theorem congr (h : Ring next l) (hnext : ∀ a ∈ l, next' a = next a) : Ring next' l := by
  refine ⟨h.nodup, ?_⟩
  rw [List.isChain_iff_forall_rel_of_append_cons_cons]
  intro a b l₁ l₂ hsplit
  have hmem : a ∈ l := by
    have hin : a ∈ l ++ l.head?.toList := by
      rw [hsplit]
      simp
    cases List.mem_append.mp hin with
    | inl hin => exact hin
    | inr hin => exact List.mem_of_mem_head? (Option.mem_toList.mp hin)
  rw [hnext a hmem]
  exact List.isChain_iff_forall_rel_of_append_cons_cons.mp h.linked hsplit

theorem link (h : Ring next (l ++ [a])) (hnew : c ∉ l ++ [a])
    (hnext : ∀ b ∈ l, next' b = next b) (ha : next' a = some c) (hc : next' c = next a) :
    Ring next' (l ++ [a] ++ [c]) := by
  constructor
  · rw [List.nodup_append]
    refine ⟨h.nodup, List.nodup_singleton c, ?_⟩
    intro x hx y hy
    rw [List.mem_singleton] at hy
    subst hy
    intro heq
    exact hnew (heq ▸ hx)
  · have hlast := h.next_last
    have hchain := h.linked
    cases l with
    | nil =>
      have haa : next a = some a := hlast
      have hpair : List.IsChain (fun a b => next' a = some b) [a, c, a] := by
        rw [List.isChain_cons_cons, List.isChain_pair]
        exact ⟨ha, hc.trans haa⟩
      exact hpair
    | cons b l =>
      have hb : next a = some b := hlast
      have hold : List.IsChain (fun a b => next' a = some b) (b :: l ++ [a]) := by
        have hsplit : (b :: l ++ [a]) ++ (b :: l ++ [a]).head?.toList
            = (b :: l) ++ a :: [b] := by
          simp
        rw [hsplit, List.isChain_split] at hchain
        rw [List.isChain_iff_forall_rel_of_append_cons_cons]
        intro x y l₁ l₂ hxy
        have hx : x ∈ b :: l := by
          have hdrop := congrArg List.dropLast hxy
          rw [List.dropLast_concat] at hdrop
          rw [hdrop, List.dropLast_append_of_ne_nil (List.cons_ne_nil _ _)]
          simp
        rw [hnext x hx]
        exact List.isChain_iff_forall_rel_of_append_cons_cons.mp hchain.1 hxy
      have hnew' : (b :: l ++ [a] ++ [c]) ++ (b :: l ++ [a] ++ [c]).head?.toList
          = (b :: l) ++ a :: [c, b] := by
        simp
      rw [hnew', List.isChain_split, List.isChain_cons_cons, List.isChain_pair]
      exact ⟨hold, ha, hc.trans hb⟩

end Ring

/-- A loop that follows the links until it comes to `stop`. -/
def doWhile [DecidableEq α] (next : α → Option α) (stop : α) (body : β → α → Option β) :
    ℕ → α → β → Option β
  | 0, _, _ => none
  | fuel + 1, a, s =>
    match next a, body s a with
    | some b, some s' => if b = stop then some s' else doWhile next stop body fuel b s'
    | _, _ => none

theorem doWhile_of_isChain [DecidableEq α] {stop : α} {body : β → α → Option β} {fuel : ℕ} {s : β}
    (hchain : List.IsChain (fun a b => next a = some b) (a :: l ++ [stop])) (hstop : stop ∉ l)
    (hfuel : l.length < fuel) :
    doWhile next stop body fuel a s = (a :: l).foldlM body s := by
  induction fuel generalizing a l s with
  | zero => omega
  | succ fuel ih =>
    cases hbody : body s a with
    | none =>
      rw [List.foldlM_cons, hbody]
      unfold doWhile
      rw [hbody]
      cases next a with
      | none => rfl
      | some b => rfl
    | some s' =>
      rw [List.foldlM_cons, hbody]
      cases l with
      | nil =>
        have hpair : List.IsChain (fun a b => next a = some b) [a, stop] := hchain
        unfold doWhile
        rw [hbody, List.isChain_pair.mp hpair]
        exact if_pos rfl
      | cons b l =>
        rw [List.cons_append, List.cons_append, List.isChain_cons_cons] at hchain
        have hne : b ≠ stop := by
          intro heq
          exact hstop (heq ▸ List.mem_cons_self)
        have hrest := @ih b l s' hchain.2 (fun hin => hstop (List.mem_cons_of_mem b hin))
          (Nat.lt_of_succ_lt_succ hfuel)
        unfold doWhile
        rw [hbody, hchain.1]
        exact (if_neg hne).trans hrest

theorem Ring.doWhile [DecidableEq α] {body : β → α → Option β} {fuel : ℕ} {s : β}
    (h : Ring next (a :: l)) (hfuel : l.length < fuel) :
    doWhile next a body fuel a s = (a :: l).foldlM body s :=
  doWhile_of_isChain h.linked (List.nodup_cons.mp h.nodup).1 hfuel

def Reaches (next : α → Option α) : α → α → Prop :=
  Relation.ReflTransGen fun a b => next a = some b

theorem reaches_of_isChain (hchain : List.IsChain (fun a b => next a = some b) (a :: l))
    (hb : b ∈ a :: l) : Reaches next a b := by
  induction l generalizing a with
  | nil =>
    rw [List.mem_singleton.mp hb]
    exact Relation.ReflTransGen.refl
  | cons c l ih =>
    rw [List.isChain_cons_cons] at hchain
    rcases List.mem_cons.mp hb with heq | hin
    · rw [heq]
      exact Relation.ReflTransGen.refl
    · exact Relation.ReflTransGen.head hchain.1 (ih hchain.2 hin)

namespace Ring

theorem next_mem (h : Ring next l) (ha : a ∈ l) : ∃ b ∈ l, next a = some b := by
  obtain ⟨xs, ys, rfl⟩ := List.append_of_mem ha
  have hrotated : Ring next (a :: (ys ++ xs)) := h.rotate
  cases hrest : ys ++ xs with
  | nil =>
    rw [hrest] at hrotated
    have hpair : List.IsChain (fun a b => next a = some b) [a, a] := hrotated.linked
    have hself := List.isChain_pair.mp hpair
    exact ⟨a, ha, hself⟩
  | cons b rest =>
    rw [hrest] at hrotated
    refine ⟨b, ?_, hrotated.next_head⟩
    have hb : b ∈ ys ++ xs := hrest ▸ List.mem_cons_self
    rw [List.mem_append, List.mem_cons]
    rcases List.mem_append.mp hb with hin | hin
    · exact .inr (.inr hin)
    · exact .inl hin

theorem reaches_iff (h : Ring next l) (ha : a ∈ l) : Reaches next a b ↔ b ∈ l := by
  constructor
  · intro hreach
    induction hreach with
    | refl => exact ha
    | tail _ hstep ih =>
      obtain ⟨c, hc, hnext⟩ := h.next_mem ih
      rw [hnext] at hstep
      exact (Option.some_inj.mp hstep) ▸ hc
  · intro hb
    obtain ⟨xs, ys, rfl⟩ := List.append_of_mem ha
    have hrotated : Ring next (a :: (ys ++ xs)) := h.rotate
    have hlinked : List.IsChain (fun a b => next a = some b) (a :: (ys ++ xs ++ [a])) :=
      hrotated.linked
    apply reaches_of_isChain hlinked
    rw [List.mem_append, List.mem_cons] at hb
    rw [List.mem_cons, List.mem_append, List.mem_append]
    rcases hb with hin | heq | hin
    · exact .inr (.inl (.inr hin))
    · exact .inl heq
    · exact .inr (.inl (.inl hin))

end Ring

end CircularChains
