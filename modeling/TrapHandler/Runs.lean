import Mathlib

/-!
# Runs of deterministic machines

A machine is a step function on states and events, and a run folds it over a list of events. What
holds in every state a run passes through is proved from one step.
-/

namespace Runs

variable {σ ε : Type}

/-- `Q` holds of every event of a list and the events before it. -/
def AtEach (Q : List ε → ε → Prop) (es : List ε) : Prop := ∀ pre e, pre ++ [e] <+: es → Q pre e

theorem atEach_nil {Q : List ε → ε → Prop} : AtEach Q [] := by
  intro pre e hpre
  have hlen := hpre.length_le
  simp only [List.length_append, List.length_singleton, List.length_nil] at hlen
  omega

theorem atEach_concat {Q : List ε → ε → Prop} {es : List ε} {e : ε} :
    AtEach Q (es ++ [e]) ↔ AtEach Q es ∧ Q es e := by
  constructor
  · intro h
    constructor
    · intro pre d hpre
      exact h pre d (hpre.trans (List.prefix_append es [e]))
    · exact h es e (List.prefix_refl _)
  · rintro ⟨hes, he⟩ pre d hpre
    cases List.prefix_concat_iff.mp hpre with
    | inl heq =>
      obtain ⟨hpre, hd⟩ := List.append_inj' heq rfl
      rw [hpre, List.singleton_inj.mp hd]
      exact he
    | inr hpre => exact hes pre d hpre

theorem atEach_cons {Q : List ε → ε → Prop} {e : ε} {es : List ε} :
    AtEach Q (e :: es) ↔ Q [] e ∧ AtEach (fun pre d => Q (e :: pre) d) es := by
  constructor
  · intro h
    constructor
    · exact h [] e (List.prefix_append [e] es)
    · intro pre d hpre
      exact h (e :: pre) d (List.cons_prefix_cons.mpr ⟨rfl, hpre⟩)
  · rintro ⟨he, hes⟩ pre d hpre
    cases pre with
    | nil =>
      obtain ⟨rfl, _⟩ := List.cons_prefix_cons.mp hpre
      exact he
    | cons c pre =>
      obtain ⟨rfl, hrest⟩ := List.cons_prefix_cons.mp hpre
      exact hes pre d hrest

theorem atEach_const {C : ε → Prop} {es : List ε} : AtEach (fun _ => C) es ↔ ∀ e ∈ es, C e := by
  constructor
  · intro h e he
    obtain ⟨pre, rest, rfl⟩ := List.append_of_mem he
    refine h pre e ⟨rest, ?_⟩
    rw [List.append_assoc, List.singleton_append]
  · intro h pre e hpre
    exact h e (hpre.subset (List.mem_append_right pre List.mem_cons_self))

variable (step : σ → ε → σ)

def run (s : σ) (es : List ε) : σ := es.foldl step s

@[simp] theorem run_nil (s : σ) : run step s [] = s := rfl

@[simp] theorem run_cons (s : σ) (e : ε) (es : List ε) :
    run step s (e :: es) = run step (step s e) es := rfl

@[simp] theorem run_concat (s : σ) (es : List ε) (e : ε) :
    run step s (es ++ [e]) = step (run step s es) e := by
  rw [run, List.foldl_concat, run]

variable {step} {s : σ}

theorem invariant {I : σ → Prop} (h₀ : I s) (hstep : ∀ t e, I t → I (step t e)) (es : List ε) :
    I (run step s es) := by
  induction es using List.reverseRecOn with
  | nil => exact h₀
  | append_singleton es e ih =>
    rw [run_concat]
    exact hstep _ e ih

theorem invariant_of_mem {I : σ → Prop} {es : List ε} (h₀ : I s)
    (hstep : ∀ t, ∀ e ∈ es, I t → I (step t e)) : I (run step s es) := by
  induction es using List.reverseRecOn with
  | nil => exact h₀
  | append_singleton es e ih =>
    rw [run_concat]
    apply hstep _ e (List.mem_append_right es List.mem_cons_self)
    exact ih fun t d hd => hstep t d (List.mem_append_left [e] hd)

theorem related {τ : Type} (step' : τ → ε → τ) {I : σ → τ → Prop} {t : τ} (h₀ : I s t)
    (hstep : ∀ s t e, I s t → I (step s e) (step' t e)) (es : List ε) :
    I (run step s es) (run step' t es) := by
  induction es using List.reverseRecOn with
  | nil => exact h₀
  | append_singleton es e ih =>
    rw [run_concat, run_concat]
    exact hstep _ _ e ih

/-- Where one step from a good state leads to a good state exactly if it meets `C`, a run passes
through good states only exactly if all of its steps meet `C`. -/
theorem good_iff {I P : σ → Prop} {C : σ → ε → Prop} (hI₀ : I s) (hI : ∀ t e, I t → I (step t e))
    (hP₀ : P s) (hstep : ∀ t e, I t → P t → (P (step t e) ↔ C t e)) (es : List ε) :
    (∀ pre, pre <+: es → P (run step s pre)) ↔ AtEach (fun pre e => C (run step s pre) e) es := by
  constructor
  · intro hgood pre e hpre
    have hP := hgood pre ((List.prefix_append pre [e]).trans hpre)
    have hnext := hgood _ hpre
    rw [run_concat] at hnext
    exact (hstep _ e (invariant hI₀ hI pre) hP).mp hnext
  · intro hC pre
    induction pre using List.reverseRecOn with
    | nil => exact fun _ => hP₀
    | append_singleton pre e ih =>
      intro hpre
      have hP := ih ((List.prefix_append pre [e]).trans hpre)
      rw [run_concat]
      exact (hstep _ e (invariant hI₀ hI pre) hP).mpr (hC pre e hpre)

end Runs
