import Mathlib

/-!
# Loops

A loop is a step function into `Option`, which is `none` where the loop is left. What a pass keeps
holds in all states that are reached, and a loop with a measure that each pass makes smaller is left.
-/

namespace Loops

open StateTransition

variable {σ : Type} {step : σ → Option σ} {I : σ → Prop} {μ : σ → ℕ} {s t : σ}

/-- Every pass from a state with the invariant keeps it and makes the measure smaller. -/
structure Variant (step : σ → Option σ) (I : σ → Prop) (μ : σ → ℕ) : Prop where
  keeps : ∀ {s t}, I s → step s = some t → I t
  decreases : ∀ {s t}, I s → step s = some t → μ t < μ s

theorem reaches_invariant (hI : ∀ {s t}, I s → step s = some t → I t) (hs : I s)
    (h : Reaches step s t) : I t := by
  induction h with
  | refl => exact hs
  | tail _ hpass ih => exact hI ih hpass

theorem reaches_head (h : step s = some t) {u : σ} (hrest : Reaches step t u) :
    Reaches step s u :=
  Relation.ReflTransGen.head h hrest

theorem Variant.exists_mem_eval (h : Variant step I μ) (hs : I s) :
    ∃ t, t ∈ eval step s ∧ I t := by
  induction hn : μ s using Nat.strong_induction_on generalizing s with
  | _ n ih =>
    cases hpass : step s with
    | none =>
      have hend : s ∈ eval step s := mem_eval.mpr ⟨Relation.ReflTransGen.refl, hpass⟩
      exact ⟨s, hend, hs⟩
    | some t =>
      have hless : μ t < n := hn ▸ h.decreases hs hpass
      obtain ⟨u, hu, hIu⟩ := ih (μ t) hless (h.keeps hs hpass) rfl
      obtain ⟨hreach, hexit⟩ := mem_eval.mp hu
      exact ⟨u, mem_eval.mpr ⟨reaches_head hpass hreach, hexit⟩, hIu⟩

end Loops
