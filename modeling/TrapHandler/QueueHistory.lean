import TrapHandler.QueueRuns

/-!
# What went into the reader-writer queue and what came out

Only the producer calls `enqueue` and only the consumer removes elements, so the answers of each
thread come in the order in which its operations took effect. Then the elements accepted so far are
those removed so far followed by those still held.
-/

namespace Moodycamel

open Linearizability

variable {α : Type} {maxSize m maxBlockSize : ℕ} {s s' : System α} {v : View α} {q : List α}
  {h : List (Action Role (Operation α) (Result α))} {st : Role → Status (Operation α) (Result α)}

/-- The elements whose `enqueue` has been answered with `true`. -/
def accepted (h : List (Action Role (Operation α) (Result α))) : List α :=
  h.filterMap fun
    | .answer _ (.enqueue _ x) (.flag true) => some x
    | _ => none

/-- The removals, with the element where it has been given away. -/
def removed (h : List (Action Role (Operation α) (Result α))) : List (Option α) :=
  h.filterMap fun
    | .answer _ (.dequeue .tryDequeue) (.element (some x)) => some (some x)
    | .answer _ (.dequeue .pop) (.flag true) => some none
    | _ => none

def Delivers (d : Option α) (x : α) : Prop := ∀ y, d = some y → y = x

def acceptedBy : Status (Operation α) (Result α) → List α
  | .done (.enqueue _ x) (.flag true) => [x]
  | _ => []

def removedBy : Status (Operation α) (Result α) → List (Option α)
  | .done (.dequeue .tryDequeue) (.element (some x)) => [some x]
  | .done (.dequeue .pop) (.flag true) => [none]
  | _ => []

def Operation.role : Operation α → Role
  | .enqueue _ _ => .producer
  | .dequeue _ => .consumer

def Fits : Action Role (Operation α) (Result α) → Prop
  | .call i o => o.role = i
  | .answer i o _ => o.role = i

theorem accepted_call (i : Role) (o : Operation α) : accepted (h ++ [.call i o]) = accepted h := by
  unfold accepted
  rw [List.filterMap_append]
  exact List.append_nil _

theorem removed_call (i : Role) (o : Operation α) : removed (h ++ [.call i o]) = removed h := by
  unfold removed
  rw [List.filterMap_append]
  exact List.append_nil _

theorem accepted_answer (i : Role) (o : Operation α) (r : Result α) :
    accepted (h ++ [.answer i o r]) = accepted h ++ acceptedBy (.done o r) := by
  unfold accepted
  rw [List.filterMap_append]
  congr 1
  cases o with
  | dequeue request => rfl
  | enqueue mode x =>
    cases r with
    | element value => rfl
    | flag success =>
      cases success with
      | false => rfl
      | true => rfl

theorem removed_answer (i : Role) (o : Operation α) (r : Result α) :
    removed (h ++ [.answer i o r]) = removed h ++ removedBy (.done o r) := by
  unfold removed
  rw [List.filterMap_append]
  congr 1
  cases o with
  | enqueue mode x => rfl
  | dequeue request =>
    cases request with
    | peek => rfl
    | tryDequeue =>
      cases r with
      | flag success => rfl
      | element value =>
        cases value with
        | none => rfl
        | some x => rfl
    | pop =>
      cases r with
      | element value => rfl
      | flag success =>
        cases success with
        | false => rfl
        | true => rfl

theorem acceptedBy_of_consumer {o : Operation α} (r : Result α) (ho : o.role = .consumer) :
    acceptedBy (.done o r) = [] := by
  cases o with
  | enqueue mode x => cases ho
  | dequeue request => rfl

theorem removedBy_of_producer {o : Operation α} (r : Result α) (ho : o.role = .producer) :
    removedBy (.done o r) = [] := by
  cases o with
  | enqueue mode x => rfl
  | dequeue request => cases ho

def InRole (st : Role → Status (Operation α) (Result α)) : Prop :=
  ∀ i o, (st i = .pending o ∨ ∃ r, st i = .done o r) → o.role = i

theorem InRole.update {i : Role} {status : Status (Operation α) (Result α)} (hin : InRole st)
    (hnew : ∀ o, (status = .pending o ∨ ∃ r, status = .done o r) → o.role = i) :
    InRole (Function.update st i status) := by
  intro j o hj
  by_cases hij : j = i
  · subst hij
    rw [Function.update_self] at hj
    exact hnew o hj
  · rw [Function.update_of_ne hij] at hj
    exact hin j o hj

theorem inRole_of_runs (hruns : Runs (Fifo maxSize) [] h q st) (hfits : ∀ a ∈ h, Fits a) :
    InRole st := by
  induction hruns with
  | start =>
    intro i o hst
    rcases hst with hst | ⟨r, hst⟩
    · cases hst
    · cases hst
  | call i o hrun hidle ih =>
    apply (ih fun a ha => hfits a (List.mem_append_left _ ha)).update
    intro o' ho'
    rcases ho' with ho' | ⟨r, ho'⟩
    · cases ho'
      exact hfits _ (List.mem_append_right _ List.mem_cons_self)
    · cases ho'
  | effect i o r hrun hpending hspec ih =>
    have hin := ih hfits
    apply hin.update
    intro o' ho'
    rcases ho' with ho' | ⟨r', ho'⟩
    · cases ho'
    · cases ho'
      exact hin i o (.inl hpending)
  | answer i o r hrun hdone ih =>
    apply (ih fun a ha => hfits a (List.mem_append_left _ ha)).update
    intro o' ho'
    rcases ho' with ho' | ⟨r', ho'⟩
    · cases ho'
    · cases ho'

/-- The accepted elements are the removed ones followed by the held ones, where the operations that
have taken effect and are not answered count as well. -/
theorem conserved_of_runs (hruns : Runs (Fifo maxSize) [] h q st) (hfits : ∀ a ∈ h, Fits a) :
    ∃ taken, accepted h ++ acceptedBy (st .producer) = taken ++ q ∧
      List.Forall₂ Delivers (removed h ++ removedBy (st .consumer)) taken := by
  induction hruns with
  | start => exact ⟨[], rfl, List.Forall₂.nil⟩
  | call i o hrun hidle ih =>
    obtain ⟨taken, haccepted, hremoved⟩ := ih fun a ha => hfits a (List.mem_append_left _ ha)
    refine ⟨taken, ?_, ?_⟩
    · rw [accepted_call, ← haccepted]
      cases i with
      | producer => rw [Function.update_self, hidle]; rfl
      | consumer => rw [Function.update_of_ne (by decide)]
    · rw [removed_call]
      cases i with
      | producer => rw [Function.update_of_ne (by decide)]; exact hremoved
      | consumer =>
        rw [hidle] at hremoved
        rw [Function.update_self]
        exact hremoved
  | effect i o r hrun hpending hspec ih =>
    obtain ⟨taken, haccepted, hremoved⟩ := ih hfits
    have hrole := inRole_of_runs hrun hfits i o (.inl hpending)
    cases hspec with
    | accept mode x held =>
      have hi : Role.producer = i := hrole
      subst hi
      rw [hpending] at haccepted
      have hnone := (List.append_nil _).symm.trans haccepted
      refine ⟨taken, ?_, ?_⟩
      · rw [Function.update_self, hnone, List.append_assoc]
        rfl
      · rw [Function.update_of_ne (by decide)]
        exact hremoved
    | refuse mode x held hfull =>
      have hi : Role.producer = i := hrole
      subst hi
      rw [hpending] at haccepted
      refine ⟨taken, ?_, ?_⟩
      · rw [Function.update_self]
        exact haccepted
      · rw [Function.update_of_ne (by decide)]
        exact hremoved
    | empty request =>
      have hi : Role.consumer = i := hrole
      subst hi
      rw [hpending] at hremoved
      refine ⟨taken, ?_, ?_⟩
      · rw [Function.update_of_ne (by decide)]
        exact haccepted
      · rw [Function.update_self]
        cases request with
        | tryDequeue => exact hremoved
        | pop => exact hremoved
        | peek => exact hremoved
    | remove request x held hrequest =>
      have hi : Role.consumer = i := hrole
      subst hi
      rw [hpending] at hremoved
      have hnone : List.Forall₂ Delivers (removed _) taken := (List.append_nil _) ▸ hremoved
      refine ⟨taken ++ [x], ?_, ?_⟩
      · rw [Function.update_of_ne (by decide), haccepted, List.append_assoc]
        rfl
      · rw [Function.update_self]
        cases request with
        | tryDequeue =>
          apply List.rel_append hnone
          exact List.Forall₂.cons (fun y hy => (Option.some_inj.mp hy).symm) List.Forall₂.nil
        | pop =>
          apply List.rel_append hnone
          exact List.Forall₂.cons (fun y hy => by cases hy) List.Forall₂.nil
        | peek => exact absurd rfl hrequest
    | peek x held =>
      have hi : Role.consumer = i := hrole
      subst hi
      rw [hpending] at hremoved
      refine ⟨taken, ?_, ?_⟩
      · rw [Function.update_of_ne (by decide)]
        exact haccepted
      · rw [Function.update_self]
        exact hremoved
  | answer i o r hrun hdone ih =>
    have hbefore := fun a ha => hfits a (List.mem_append_left _ ha)
    obtain ⟨taken, haccepted, hremoved⟩ := ih hbefore
    have hrole := inRole_of_runs hrun hbefore i o (.inr ⟨r, hdone⟩)
    refine ⟨taken, ?_, ?_⟩
    · rw [accepted_answer, ← haccepted]
      cases i with
      | producer => rw [Function.update_self, hdone]; exact List.append_nil _
      | consumer =>
        rw [Function.update_of_ne (by decide), acceptedBy_of_consumer r hrole, List.append_nil]
    · rw [removed_answer]
      cases i with
      | producer =>
        rw [Function.update_of_ne (by decide), removedBy_of_producer r hrole, List.append_nil]
        exact hremoved
      | consumer =>
        rw [hdone] at hremoved
        rw [Function.update_self]
        exact (List.append_nil _).symm ▸ hremoved

theorem fits_concat {a : Action Role (Operation α) (Result α)} (hfits : ∀ a ∈ h, Fits a)
    (ha : Fits a) : ∀ b ∈ h ++ [a], Fits b := by
  intro b hb
  rcases List.mem_append.mp hb with hold | hnew
  · exact hfits b hold
  · rw [List.mem_singleton.mp hnew]
    exact ha

theorem step_fits {e : Event α} (hfits : ∀ a ∈ s.history, Fits a)
    (hstep : s.step maxBlockSize e = some s') : ∀ a ∈ s'.history, Fits a := by
  rcases step_cases hstep with rfl | ⟨mode, x, _, _, rfl⟩ | ⟨request, _, _, rfl⟩ |
    ⟨memory, mode, x, pc, _, _, hproduce⟩ | ⟨request, pc, _, _, hconsume⟩
  · exact hfits
  · exact fits_concat hfits rfl
  · exact fits_concat hfits rfl
  · obtain ⟨r, _, ⟨_, _, _, hhistory⟩ | ⟨_, _, _, hhistory⟩⟩ := produce_cases hproduce
    · rw [hhistory]
      exact hfits
    · rw [hhistory]
      exact fits_concat hfits rfl
  · obtain ⟨r, _, _, hhistory | ⟨_, hhistory⟩⟩ := consume_cases hconsume
    · rw [hhistory]
      exact hfits
    · rw [hhistory]
      exact fits_concat hfits rfl

theorem Valid.conserved (hvalid : Valid maxSize m s v) (hfits : ∀ a ∈ s.history, Fits a) :
    ∃ taken, accepted s.history = taken ++ v.held s.queue ∧
      List.Forall₂ Delivers (removed s.history) taken := by
  obtain ⟨st, hstatus, hruns⟩ := hvalid.runs
  obtain ⟨taken, haccepted, hremoved⟩ := conserved_of_runs hruns hfits
  have hproducer : acceptedBy (st .producer) = [] := by
    rcases hstatus .producer with hst | ⟨o, hst⟩
    · rw [hst]
      rfl
    · rw [hst]
      rfl
  have hconsumer : removedBy (st .consumer) = [] := by
    rcases hstatus .consumer with hst | ⟨o, hst⟩
    · rw [hst]
      rfl
    · rw [hst]
      rfl
  rw [hproducer, List.append_nil] at haccepted
  rw [hconsumer, List.append_nil] at hremoved
  exact ⟨taken, haccepted, hremoved⟩

/-- Whenever one looks, the elements removed so far are the first of those accepted so far, in their
order. -/
theorem run_fifo (h : Admissible maxBlockSize maxSize) (es : List (Event α)) :
    ∃ s taken rest, System.run maxBlockSize maxSize es = some s ∧
      accepted s.history = taken ++ rest ∧ List.Forall₂ Delivers (removed s.history) taken := by
  obtain ⟨m, s, v, hrun, hvalid, hfits⟩ := @run_induction α _ _ h
    (fun s => ∀ a ∈ s.history, Fits a) es (fun a ha => by cases ha)
    fun _ _ _ _ _ _ _ hfits hstep => step_fits hfits hstep
  obtain ⟨taken, haccepted, hremoved⟩ := hvalid.conserved hfits
  exact ⟨s, taken, _, hrun, haccepted, hremoved⟩

theorem run_fifo_overflow :
    ∃ s taken rest, System.run 2 1 overflow = some s ∧ s.history = overflowHistory ∧
      accepted s.history = taken ++ rest ∧ List.Forall₂ Delivers (removed s.history) taken := by
  obtain ⟨s, taken, rest, hrun, haccepted, hremoved⟩ := run_fifo admissible_two_one overflow
  exact ⟨s, taken, rest, hrun, (ended_overflow hrun).2.2.1, haccepted, hremoved⟩

end Moodycamel
