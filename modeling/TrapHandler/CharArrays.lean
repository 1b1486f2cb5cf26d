import Mathlib

/-!
# Character arrays

An array with a size and whatever cells it was allocated with. Stores are not checked against the
size, but their indices are recorded, so a run of stores says both what the array holds and whether
they were all inside it. A text ends in front of the first zero. Where texts are written one behind
the other at a fixed distance, the first one that is too short ends what is read.
-/

structure CharArray (α : Type) where
  size : ℕ
  cells : ℕ → α
  stores : List ℕ

namespace CharArray

variable {α : Type}

def new (size : ℕ) (raw : ℕ → α) : CharArray α := ⟨size, raw, []⟩

def store (a : CharArray α) (i : ℕ) (x : α) : CharArray α :=
  { a with cells := Function.update a.cells i x, stores := a.stores ++ [i] }

def StartsWith (a : CharArray α) (s : List α) : Prop :=
  ∀ i, (h : i < s.length) → a.cells i = s[i]

def Inside (a : CharArray α) : Prop := ∀ i ∈ a.stores, i < a.size

instance (a : CharArray α) : Decidable a.Inside :=
  inferInstanceAs (Decidable (∀ i ∈ a.stores, i < a.size))

variable {a : CharArray α} {i w p : ℕ} {s t : List α} {x sep : α}

theorem startsWith_nil (a : CharArray α) : a.StartsWith [] := by
  intro i h
  exact absurd h (Nat.not_lt_zero i)

theorem StartsWith.left (h : a.StartsWith (s ++ t)) : a.StartsWith s := by
  intro i hi
  have hlt : i < (s ++ t).length := by
    rw [List.length_append]
    omega
  rw [h i hlt, List.getElem_append_left hi]

theorem StartsWith.map_range (h : a.StartsWith s) : (List.range s.length).map a.cells = s := by
  apply List.ext_getElem
  · rw [List.length_map, List.length_range]
  · intro i h₁ h₂
    rw [List.getElem_map, List.getElem_range, h i h₂]

theorem StartsWith.store_of_le (h : a.StartsWith s) (hi : s.length ≤ i) :
    (a.store i x).StartsWith s := by
  intro j hj
  have hne : j ≠ i := by omega
  exact (Function.update_of_ne hne _ _).trans (h j hj)

theorem StartsWith.store (h : a.StartsWith s) : (a.store s.length x).StartsWith (s ++ [x]) := by
  intro j hj
  by_cases hlt : j < s.length
  · rw [List.getElem_append_left hlt]
    exact h.store_of_le le_rfl j hlt
  · rw [List.length_append, List.length_singleton] at hj
    obtain rfl : j = s.length := by omega
    rw [List.getElem_concat_length rfl]
    exact Function.update_self _ _ _

theorem inside_new (size : ℕ) (raw : ℕ → α) : (new size raw).Inside := by
  intro i hi
  cases hi

theorem inside_store_iff : (a.store i x).Inside ↔ a.Inside ∧ i < a.size := by
  constructor
  · intro h
    constructor
    · intro j hj
      exact h j (List.mem_append_left _ hj)
    · exact h i (List.mem_append_right _ List.mem_cons_self)
  · rintro ⟨h, hi⟩ j hj
    cases List.mem_append.mp hj with
    | inl hj => exact h j hj
    | inr hj =>
      obtain rfl := List.mem_singleton.mp hj
      exact hi

theorem Inside.store (h : a.Inside) (hi : i < a.size) : (a.store i x).Inside :=
  inside_store_iff.mpr ⟨h, hi⟩

/-- Of fields that are all taken to have the width `w`, those that are read: the ones that have it at
the front, and the one behind them. -/
def visible (w : ℕ) : List (List α) → List (List α)
  | [] => []
  | s :: ss => if s.length = w then s :: visible w ss else [s]

theorem visible_ne_nil {ss : List (List α)} (h : ss ≠ []) : visible w ss ≠ [] := by
  cases ss with
  | nil => exact absurd rfl h
  | cons s ss =>
    rw [visible]
    split_ifs
    · exact List.cons_ne_nil _ _
    · exact List.cons_ne_nil _ _

theorem mem_of_mem_visible {ss : List (List α)} (h : t ∈ visible w ss) : t ∈ ss := by
  induction ss with
  | nil => exact h
  | cons s ss ih =>
    rw [visible] at h
    split_ifs at h
    · cases List.mem_cons.mp h with
      | inl heq => exact heq ▸ List.mem_cons_self
      | inr htail => exact List.mem_cons_of_mem s (ih htail)
    · exact List.mem_singleton.mp h ▸ List.mem_cons_self

variable [Zero α]

/-- The characters of a text and its terminator, from index `i` on. -/
def copyAt (a : CharArray α) (i : ℕ) : List α → CharArray α
  | [] => a.store i 0
  | c :: s => (a.store i c).copyAt (i + 1) s

def text [DecidableEq α] (a : CharArray α) : List α :=
  ((List.range a.size).map a.cells).takeWhile (· ≠ 0)

@[simp] theorem size_copyAt (a : CharArray α) (i : ℕ) (s : List α) :
    (a.copyAt i s).size = a.size := by
  induction s generalizing a i with
  | nil => rfl
  | cons c s ih =>
    rw [copyAt, ih]
    rfl

theorem StartsWith.copyAt_of_le (h : a.StartsWith s) (hi : s.length ≤ i) (t : List α) :
    (a.copyAt i t).StartsWith s := by
  induction t generalizing a i with
  | nil => exact h.store_of_le hi
  | cons c t ih => exact ih (h.store_of_le hi) (Nat.le_succ_of_le hi)

theorem StartsWith.copyAt (h : a.StartsWith s) (t : List α) :
    (a.copyAt s.length t).StartsWith (s ++ t ++ [0]) := by
  induction t generalizing a s with
  | nil =>
    rw [List.append_nil]
    exact h.store
  | cons c t ih =>
    have hrest := ih (h.store (x := c))
    rw [List.length_append, List.length_singleton, List.append_assoc s [c] t] at hrest
    exact hrest

theorem StartsWith.text [DecidableEq α] (h : a.StartsWith (s ++ [0])) (hs : 0 ∉ s)
    (hlen : s.length < a.size) : a.text = s := by
  obtain ⟨k, hk⟩ : ∃ k, a.size = s.length + 1 + k := ⟨a.size - s.length - 1, by omega⟩
  have hfront : (List.range (s.length + 1)).map a.cells = s ++ [0] := by
    have hread := h.map_range
    rw [List.length_append, List.length_singleton] at hread
    exact hread
  rw [CharArray.text, hk, List.range_add, List.map_append, hfront, List.append_assoc,
    List.takeWhile_append_of_pos, List.singleton_append, List.takeWhile_cons_of_neg,
    List.append_nil]
  · simp
  · intro c hc
    have hne : c ≠ 0 := ne_of_mem_of_not_mem hc hs
    simpa using hne

theorem text_copyAt [DecidableEq α] (a : CharArray α) (hs : 0 ∉ s) (hlen : s.length < a.size) :
    (a.copyAt 0 s).text = s :=
  have hcopy : (a.copyAt 0 s).StartsWith (s ++ [0]) := (startsWith_nil a).copyAt s
  have hsize : s.length < (a.copyAt 0 s).size := by
    rw [size_copyAt]
    exact hlen
  hcopy.text hs hsize

theorem inside_copyAt_iff : (a.copyAt i s).Inside ↔ a.Inside ∧ i + s.length < a.size := by
  induction s generalizing a i with
  | nil => exact inside_store_iff
  | cons c s ih =>
    have hlast : i + 1 + s.length = i + (c :: s).length := by
      rw [List.length_cons]
      omega
    rw [copyAt, ih, inside_store_iff, hlast, and_assoc]
    refine and_congr_right fun _ => and_iff_right_of_imp ?_
    intro hlt
    exact lt_of_le_of_lt (Nat.le_add_right i _) hlt

theorem Inside.copyAt (h : a.Inside) (hi : i + s.length < a.size) : (a.copyAt i s).Inside :=
  inside_copyAt_iff.mpr ⟨h, hi⟩

/-- Texts, each with a separator behind it, every one of them taken to have the width `w`. -/
def fields (w : ℕ) (sep : α) : List (List α) → CharArray α → ℕ → CharArray α × ℕ
  | [], a, p => (a, p)
  | s :: ss, a, p => fields w sep ss ((a.copyAt p s).store (p + w) sep) (p + w + 1)

theorem snd_fields (ss : List (List α)) (a : CharArray α) (p : ℕ) :
    (fields w sep ss a p).2 = p + ss.length * (w + 1) := by
  induction ss generalizing a p with
  | nil => simp [fields]
  | cons s ss ih =>
    rw [fields, ih, List.length_cons]
    ring

theorem StartsWith.fields (h : a.StartsWith s) (hp : s.length ≤ p) (ss : List (List α)) :
    (fields w sep ss a p).1.StartsWith s := by
  induction ss generalizing a p with
  | nil => exact h
  | cons t ss ih => exact ih ((h.copyAt_of_le hp t).store_of_le (by omega)) (by omega)

@[simp] theorem size_fields (ss : List (List α)) (a : CharArray α) (p : ℕ) :
    (fields w sep ss a p).1.size = a.size := by
  induction ss generalizing a p with
  | nil => rfl
  | cons s ss ih =>
    rw [CharArray.fields, ih]
    exact size_copyAt a p s

theorem Inside.fields (h : a.Inside) {ss : List (List α)} (hle : ∀ s ∈ ss, s.length ≤ w)
    (hroom : p + ss.length * (w + 1) ≤ a.size) : (fields w sep ss a p).1.Inside := by
  induction ss generalizing a p with
  | nil => exact h
  | cons s ss ih =>
    have hs := hle s List.mem_cons_self
    rw [List.length_cons, Nat.add_mul, Nat.one_mul] at hroom
    have hcopy : (a.copyAt p s).Inside := h.copyAt (by omega)
    apply ih (hcopy.store _) (fun t ht => hle t (List.mem_cons_of_mem _ ht))
    · change _ ≤ (a.copyAt p s).size
      rw [size_copyAt]
      omega
    · rw [size_copyAt]
      omega

/-- The array that is left when the last separator has been overwritten by a terminator. -/
def closed (r : CharArray α × ℕ) : CharArray α := r.1.store (r.2 - 1) 0

theorem text_closed_short [DecidableEq α] {ss : List (List α)} (h : a.StartsWith s)
    (hzero : 0 ∉ s ++ t) (ht : t.length < w) (hroom : s.length + w < a.size) :
    (closed (fields w sep (t :: ss) a s.length)).text = s ++ t := by
  have hlen : (s ++ t ++ [0]).length = s.length + t.length + 1 := by
    rw [List.length_append, List.length_append, List.length_singleton]
  apply StartsWith.text
  · rw [closed, snd_fields, fields, List.length_cons, Nat.add_mul, Nat.one_mul]
    apply StartsWith.store_of_le
    · apply StartsWith.fields
      · exact (h.copyAt t).store_of_le (by omega)
      · omega
    · omega
  · exact hzero
  · change _ < (fields w sep (t :: ss) a s.length).1.size
    rw [size_fields, List.length_append]
    omega

theorem text_closed_last [DecidableEq α] (h : a.StartsWith s) (hzero : 0 ∉ s ++ t)
    (ht : t.length ≤ w) (hroom : s.length + w < a.size) :
    (closed (fields w sep [t] a s.length)).text = s ++ t := by
  by_cases hlt : t.length < w
  · exact text_closed_short h hzero hlt hroom
  have hlen : (s ++ t).length = s.length + w := by
    rw [List.length_append]
    omega
  have hfront : ((a.copyAt s.length t).store (s.length + w) sep).StartsWith (s ++ t) :=
    (h.copyAt t).left.store_of_le hlen.le
  have hend := hfront.store (x := 0)
  apply StartsWith.text
  · rw [hlen] at hend
    exact hend
  · exact hzero
  · change _ < (fields w sep [t] a s.length).1.size
    rw [size_fields, hlen]
    exact hroom

theorem text_closed_fields [DecidableEq α] {ss : List (List α)} (h : a.StartsWith s)
    (hsep : sep ≠ 0) (hs : 0 ∉ s) (hzero : ∀ t ∈ ss, 0 ∉ t) (hle : ∀ t ∈ ss, t.length ≤ w)
    (hne : ss ≠ []) (hroom : s.length + ss.length * (w + 1) ≤ a.size) :
    (closed (fields w sep ss a s.length)).text = s ++ [sep].intercalate (visible w ss) := by
  induction ss generalizing a s with
  | nil => exact absurd rfl hne
  | cons t ss ih =>
    obtain ⟨ht, hss⟩ := List.forall_mem_cons.mp hle
    obtain ⟨htzero, hsszero⟩ := List.forall_mem_cons.mp hzero
    have hst : 0 ∉ s ++ t := by
      rw [List.mem_append]
      exact not_or_intro hs htzero
    rw [List.length_cons, Nat.add_mul, Nat.one_mul] at hroom
    have hfits : s.length + w < a.size := by omega
    rw [visible]
    by_cases hw : t.length = w
    · rw [if_pos hw]
      cases ss with
      | nil => rw [text_closed_last h hst ht hfits, visible, List.intercalate_singleton]
      | cons u us =>
        have hfront : ((a.copyAt s.length t).store (s.length + w) sep).StartsWith
            (s ++ t ++ [sep]) := by
          have hstored := (h.copyAt t).left.store (x := sep)
          rw [List.length_append, hw] at hstored
          exact hstored
        have hlen : s.length + w + 1 = (s ++ t ++ [sep]).length := by
          rw [List.length_append, List.length_append, List.length_singleton, hw]
        have hfrontZero : 0 ∉ s ++ t ++ [sep] := by
          rw [List.mem_append, List.mem_singleton]
          exact not_or_intro hst hsep.symm
        have hrestRoom : (s ++ t ++ [sep]).length + (u :: us).length * (w + 1) ≤
            ((a.copyAt s.length t).store (s.length + w) sep).size := by
          change _ ≤ (a.copyAt s.length t).size
          rw [← hlen, size_copyAt]
          omega
        have hcons := List.cons_ne_nil u us
        rw [fields, hlen, ih hfront hfrontZero hsszero hss hcons hrestRoom,
          List.intercalate_cons_of_ne_nil (visible_ne_nil hcons)]
        simp only [List.append_assoc]
    · have hlt : t.length < w := by omega
      rw [if_neg hw, text_closed_short h hst hlt hfits, List.intercalate_singleton]

theorem inside_closed {ss : List (List α)} (h : a.Inside) (hle : ∀ t ∈ ss, t.length ≤ w)
    (hne : ss ≠ []) (hroom : p + ss.length * (w + 1) ≤ a.size) :
    (closed (fields w sep ss a p)).Inside := by
  have hpos := List.length_pos_iff.mpr hne
  apply (h.fields hle hroom).store
  rw [snd_fields, size_fields]
  have hmul : 0 < ss.length * (w + 1) := Nat.mul_pos hpos (Nat.succ_pos w)
  omega

end CharArray
