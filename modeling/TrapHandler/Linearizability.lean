import Mathlib

/-!
# Linearizable objects

An object is given by a relation between a state, an operation, its answer and the state after it.
In a history threads call operations and get answers. A history is linearizable if each operation
can be given one moment between its call and its answer at which it takes effect at once.

A thread need not know the moment when it passes it: as long as an answer that leaves the state
alone was possible, `Explains` keeps it beside the others, and the choices of different threads are
independent of each other.
-/

namespace Linearizability

inductive Action (ι op ret : Type) where
  | call (thread : ι) (o : op)
  | answer (thread : ι) (o : op) (r : ret)
  deriving DecidableEq, Repr

/-- An operation of a thread is pending until it takes effect. -/
inductive Status (op ret : Type) where
  | idle
  | pending (o : op)
  | done (o : op) (r : ret)

variable {ι op ret σ : Type} [DecidableEq ι]

/-- The histories of the object whose operations take effect at once. -/
inductive Runs (spec : σ → op → ret → σ → Prop) (q₀ : σ) :
    List (Action ι op ret) → σ → (ι → Status op ret) → Prop
  | start : Runs spec q₀ [] q₀ fun _ => .idle
  | call {h q st} (i : ι) (o : op) (hrun : Runs spec q₀ h q st) (hidle : st i = .idle) :
      Runs spec q₀ (h ++ [.call i o]) q (Function.update st i (.pending o))
  | effect {h q st q'} (i : ι) (o : op) (r : ret) (hrun : Runs spec q₀ h q st)
      (hpending : st i = .pending o) (hspec : spec q o r q') :
      Runs spec q₀ h q' (Function.update st i (.done o r))
  | answer {h q st} (i : ι) (o : op) (r : ret) (hrun : Runs spec q₀ h q st)
      (hdone : st i = .done o r) :
      Runs spec q₀ (h ++ [.answer i o r]) q (Function.update st i .idle)

def Linearizable (spec : σ → op → ret → σ → Prop) (q₀ : σ) (h : List (Action ι op ret)) : Prop :=
  ∃ q st, Runs spec q₀ h q st

/-- The history is explained by the state whatever is chosen for each thread from its options. -/
def Explains (spec : σ → op → ret → σ → Prop) (q₀ : σ) (h : List (Action ι op ret)) (q : σ)
    (options : ι → Set (Status op ret)) : Prop :=
  ∀ st : ι → Status op ret, (∀ i, st i ∈ options i) → Runs spec q₀ h q st

variable {spec : σ → op → ret → σ → Prop} {q₀ q q' : σ} {h : List (Action ι op ret)}
  {options : ι → Set (Status op ret)} {i : ι} {o : op} {r : ret}

namespace Explains

theorem start : Explains spec q₀ [] q₀ (fun _ : ι => {Status.idle}) := by
  intro st hst
  have heq : st = fun _ => Status.idle := funext fun i => hst i
  rw [heq]
  exact Runs.start

theorem replaced {options' : Set (Status op ret)} {s : Status op ret} {st : ι → Status op ret}
    (hst : ∀ j, st j ∈ Function.update options i options' j) (hs : s ∈ options i) (j : ι) :
    Function.update st i s j ∈ options j := by
  by_cases hij : j = i
  · subst hij
    rw [Function.update_self]
    exact hs
  · have hj := hst j
    rw [Function.update_of_ne hij] at hj ⊢
    exact hj

theorem chosen {options' : Set (Status op ret)} {st : ι → Status op ret}
    (hst : ∀ j, st j ∈ Function.update options i options' j) : st i ∈ options' := by
  have hi := hst i
  rw [Function.update_self] at hi
  exact hi

theorem update_update_self (st : ι → Status op ret) (s : Status op ret) :
    Function.update (Function.update st i s) i (st i) = st := by
  rw [Function.update_idem, Function.update_eq_self]

theorem weaken {options' : ι → Set (Status op ret)} (hexplains : Explains spec q₀ h q options)
    (hsub : ∀ i, options' i ⊆ options i) : Explains spec q₀ h q options' := by
  intro st hst
  exact hexplains st fun i => hsub i (hst i)

theorem call (hexplains : Explains spec q₀ h q options) (hidle : Status.idle ∈ options i) :
    Explains spec q₀ (h ++ [.call i o]) q (Function.update options i {Status.pending o}) := by
  intro st hst
  have hrun := hexplains (Function.update st i .idle) (replaced hst hidle)
  have hnext := Runs.call i o hrun (Function.update_self i Status.idle st)
  have hchosen := Set.mem_singleton_iff.mp (chosen hst)
  rw [← hchosen, update_update_self] at hnext
  exact hnext

theorem observe (hexplains : Explains spec q₀ h q options) (hpending : .pending o ∈ options i)
    (hspec : spec q o r q) :
    Explains spec q₀ h q (Function.update options i (insert (.done o r) (options i))) := by
  intro st hst
  cases chosen hst with
  | inl hdone =>
    have hrun := hexplains (Function.update st i (.pending o)) (replaced hst hpending)
    have hnext := Runs.effect i o r hrun (Function.update_self i (Status.pending o) st) hspec
    rw [← hdone, update_update_self] at hnext
    exact hnext
  | inr hold =>
    apply hexplains
    intro j
    have hreplaced := replaced hst hold j
    rw [Function.update_eq_self] at hreplaced
    exact hreplaced

theorem effect (hexplains : Explains spec q₀ h q options) (hpending : .pending o ∈ options i)
    (hspec : spec q o r q') :
    Explains spec q₀ h q' (Function.update options i {Status.done o r}) := by
  intro st hst
  have hrun := hexplains (Function.update st i (.pending o)) (replaced hst hpending)
  have hnext := Runs.effect i o r hrun (Function.update_self i (Status.pending o) st) hspec
  have hchosen := Set.mem_singleton_iff.mp (chosen hst)
  rw [← hchosen, update_update_self] at hnext
  exact hnext

theorem answer (hexplains : Explains spec q₀ h q options) (hdone : .done o r ∈ options i) :
    Explains spec q₀ (h ++ [.answer i o r]) q (Function.update options i {Status.idle}) := by
  intro st hst
  have hrun := hexplains (Function.update st i (.done o r)) (replaced hst hdone)
  have hnext := Runs.answer i o r hrun (Function.update_self i (Status.done o r) st)
  have hchosen := Set.mem_singleton_iff.mp (chosen hst)
  rw [← hchosen, update_update_self] at hnext
  exact hnext

theorem effect_answer (hexplains : Explains spec q₀ h q options) (hpending : .pending o ∈ options i)
    (hspec : spec q o r q') :
    Explains spec q₀ (h ++ [.answer i o r]) q' (Function.update options i {Status.idle}) := by
  have heffect := hexplains.effect hpending hspec
  have hdone : Status.done o r ∈ Function.update options i {Status.done o r} i := by
    rw [Function.update_self]
    exact Set.mem_singleton _
  have hanswer := heffect.answer hdone
  rw [Function.update_idem] at hanswer
  exact hanswer

theorem linearizable (hexplains : Explains spec q₀ h q options) (hsome : ∀ i, (options i).Nonempty) :
    Linearizable spec q₀ h :=
  ⟨q, _, hexplains (fun i => (hsome i).some) fun i => (hsome i).some_mem⟩

end Explains

end Linearizability
