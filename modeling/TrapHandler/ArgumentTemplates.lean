import Mathlib

/-!
# Argument templates

A command line is split into arguments at the spaces that are not between double quotes. It is built
from a template of fixed characters and fields, and it is intact if its arguments are those of the
template with every field in its place. Whether it is intact is decided field by field, from the
quotes and spaces of each.
-/

namespace ArgumentTemplates

variable {α : Type}

abbrev Template (α : Type) := List (α ⊕ List α)

def text (w : List α) : Template α := w.map Sum.inl

def field (f : List α) : Template α := [Sum.inr f]

def fill (t : Template α) : List α := t.flatMap (Sum.elim (fun c => [c]) id)

@[simp] theorem fill_nil : fill ([] : Template α) = [] := rfl

@[simp] theorem fill_cons_inl (c : α) (t : Template α) : fill (.inl c :: t) = c :: fill t := rfl

@[simp] theorem fill_cons_inr (f : List α) (t : Template α) : fill (.inr f :: t) = f ++ fill t :=
  rfl

@[simp] theorem fill_append (t u : Template α) : fill (t ++ u) = fill t ++ fill u :=
  List.flatMap_append

@[simp] theorem fill_text (w : List α) : fill (text w) = w := by
  induction w with
  | nil => rfl
  | cons c w ih =>
    rw [text, List.map_cons, fill_cons_inl]
    exact congrArg (c :: ·) ih

@[simp] theorem fill_field (f : List α) : fill (field f) = f := List.append_nil f

@[simp] theorem inr_mem_text {f w : List α} : Sum.inr f ∈ text w ↔ False := by
  simp only [text, List.mem_map, reduceCtorEq, and_false, exists_false]

@[simp] theorem inr_mem_field {f g : List α} : Sum.inr f ∈ field g ↔ f = g := by
  rw [field, List.mem_singleton, Sum.inr.injEq]

variable [DecidableEq α] (space quote : α)

/-- `current` is the text of the argument that has been started. -/
def splitFrom (inside : Bool) (current : List α) : List α → List (List α)
  | [] => [current]
  | c :: text =>
    if c = quote then splitFrom (!inside) (current ++ [c]) text
    else if c = space ∧ inside = false then current :: splitFrom false [] text
    else splitFrom inside (current ++ [c]) text

def split (text : List α) : List (List α) := splitFrom space quote false [] text

def splitTemplateFrom (inside : Bool) (current : Template α) : Template α → List (Template α)
  | [] => [current]
  | .inr f :: t => splitTemplateFrom inside (current ++ [.inr f]) t
  | .inl c :: t =>
    if c = quote then splitTemplateFrom (!inside) (current ++ [.inl c]) t
    else if c = space ∧ inside = false then current :: splitTemplateFrom false [] t
    else splitTemplateFrom inside (current ++ [.inl c]) t

def splitTemplate (t : Template α) : List (Template α) := splitTemplateFrom space quote false [] t

def Intact (t : Template α) : Prop :=
  split space quote (fill t) = (splitTemplate space quote t).map fill

def Unsplit (inside : Bool) : List α → Prop
  | [] => True
  | c :: f => if c = quote then Unsplit (!inside) f else (c = space → inside) ∧ Unsplit inside f

instance decidableUnsplit (inside : Bool) (f : List α) : Decidable (Unsplit space quote inside f) :=
  match f with
  | [] => inferInstanceAs (Decidable True)
  | c :: f =>
    have : ∀ b, Decidable (Unsplit space quote b f) := fun b => decidableUnsplit b f
    inferInstanceAs (Decidable (if c = quote then _ else _))

/-- The text has an odd number of quotes. -/
def odd : List α → Bool
  | [] => false
  | c :: f => if c = quote then !odd f else odd f

/-- `expected` is the quoting state of the template, `actual` that of the command line. -/
def Agrees (expected actual : Bool) : Template α → Prop
  | [] => True
  | .inr f :: t => Unsplit space quote actual f ∧ Agrees expected (actual ^^ odd quote f) t
  | .inl c :: t =>
    if c = quote then Agrees (!expected) (!actual) t
    else (c = space → expected = actual) ∧ Agrees expected actual t

theorem splitFrom_eq_cons (inside : Bool) (current w : List α) :
    ∃ g ws, splitFrom space quote inside current w = (current ++ g) :: ws := by
  induction w generalizing inside current with
  | nil => exact ⟨[], [], by rw [splitFrom, List.append_nil]⟩
  | cons c w ih =>
    rw [splitFrom]
    split_ifs with hquote hspace
    · obtain ⟨g, ws, h⟩ := ih (!inside) (current ++ [c])
      exact ⟨c :: g, ws, by rw [h, List.append_assoc, List.singleton_append]⟩
    · exact ⟨[], _, by rw [List.append_nil]⟩
    · obtain ⟨g, ws, h⟩ := ih inside (current ++ [c])
      exact ⟨c :: g, ws, by rw [h, List.append_assoc, List.singleton_append]⟩

theorem splitTemplateFrom_eq_cons (inside : Bool) (current t : Template α) :
    ∃ u ts, splitTemplateFrom space quote inside current t = (current ++ u) :: ts := by
  induction t generalizing inside current with
  | nil => exact ⟨[], [], by rw [splitTemplateFrom, List.append_nil]⟩
  | cons s t ih =>
    cases s with
    | inr f =>
      obtain ⟨u, ts, h⟩ := ih inside (current ++ [.inr f])
      exact ⟨.inr f :: u, ts, by
        rw [splitTemplateFrom, h, List.append_assoc, List.singleton_append]⟩
    | inl c =>
      rw [splitTemplateFrom]
      split_ifs with hquote hspace
      · obtain ⟨u, ts, h⟩ := ih (!inside) (current ++ [.inl c])
        exact ⟨.inl c :: u, ts, by rw [h, List.append_assoc, List.singleton_append]⟩
      · exact ⟨[], _, by rw [List.append_nil]⟩
      · obtain ⟨u, ts, h⟩ := ih inside (current ++ [.inl c])
        exact ⟨.inl c :: u, ts, by rw [h, List.append_assoc, List.singleton_append]⟩

theorem sum_length_splitFrom (inside : Bool) (current w : List α) :
    ((splitFrom space quote inside current w).map List.length).sum +
        (splitFrom space quote inside current w).length =
      current.length + w.length + 1 := by
  induction w generalizing inside current with
  | nil => simp only [splitFrom, List.map_singleton, List.sum_singleton, List.length_singleton,
      List.length_nil, Nat.add_zero]
  | cons c w ih =>
    rw [splitFrom, List.length_cons]
    split_ifs
    · rw [ih, List.length_append, List.length_singleton]
      omega
    · have hrest := ih false []
      rw [List.length_nil] at hrest
      rw [List.map_cons, List.sum_cons, List.length_cons]
      omega
    · rw [ih, List.length_append, List.length_singleton]
      omega

theorem length_eq_of_perm {v w : List α} (h : (split space quote v).Perm (split space quote w)) :
    v.length = w.length := by
  have hv := sum_length_splitFrom space quote false [] v
  have hw := sum_length_splitFrom space quote false [] w
  have hsum := (h.map List.length).sum_eq
  have hlen := h.length_eq
  rw [split, split] at hsum hlen
  rw [List.length_nil] at hv hw
  omega

variable {space quote}

theorem splitFrom_append {inside : Bool} {f : List α} (hf : Unsplit space quote inside f)
    (current w : List α) :
    splitFrom space quote inside current (f ++ w) =
      splitFrom space quote (inside ^^ odd quote f) (current ++ f) w := by
  induction f generalizing inside current with
  | nil => rw [List.nil_append, odd, Bool.xor_false, List.append_nil]
  | cons c f ih =>
    rw [List.cons_append, splitFrom, odd]
    rw [Unsplit] at hf
    by_cases hquote : c = quote
    · rw [if_pos hquote] at hf
      rw [if_pos hquote, if_pos hquote, ih hf, List.append_assoc, List.singleton_append,
        Bool.not_xor, Bool.xor_not]
    · rw [if_neg hquote] at hf
      have hspace : ¬ (c = space ∧ inside = false) := by
        rintro ⟨hc, hinside⟩
        rw [hf.1 hc] at hinside
        cases hinside
      rw [if_neg hquote, if_neg hquote, if_neg hspace, ih hf.2, List.append_assoc,
        List.singleton_append]

theorem splitFrom_append_of_not_unsplit {inside : Bool} {f : List α}
    (hf : ¬ Unsplit space quote inside f) (current w : List α) :
    ∃ g ws, splitFrom space quote inside current (f ++ w) = (current ++ g) :: ws ∧
      g.length < f.length := by
  induction f generalizing inside current with
  | nil => exact absurd trivial hf
  | cons c f ih =>
    rw [List.cons_append, splitFrom]
    rw [Unsplit] at hf
    by_cases hquote : c = quote
    · rw [if_pos hquote] at hf
      obtain ⟨g, ws, h, hlen⟩ := ih hf (current ++ [c])
      refine ⟨c :: g, ws, ?_, Nat.succ_lt_succ hlen⟩
      rw [if_pos hquote, h, List.append_assoc, List.singleton_append]
    · rw [if_neg hquote] at hf
      by_cases hspace : c = space ∧ inside = false
      · refine ⟨[], splitFrom space quote false [] (f ++ w), ?_, Nat.succ_pos _⟩
        rw [if_neg hquote, if_pos hspace, List.append_nil]
      · have hrest : ¬ Unsplit space quote inside f := by
          intro hrest
          refine hf ⟨?_, hrest⟩
          intro hc
          by_contra hinside
          exact hspace ⟨hc, Bool.eq_false_iff.mpr hinside⟩
        obtain ⟨g, ws, h, hlen⟩ := ih hrest (current ++ [c])
        refine ⟨c :: g, ws, ?_, Nat.succ_lt_succ hlen⟩
        rw [if_neg hquote, if_neg hspace, h, List.append_assoc, List.singleton_append]

theorem cons_ne_splitTemplate {expected : Bool} {current t : Template α} {g : List α}
    {ws : List (List α)} {u : Template α} (hlen : g.length < (fill u).length) :
    (fill current ++ g) :: ws ≠
      (splitTemplateFrom space quote expected (current ++ u) t).map fill := by
  intro h
  obtain ⟨v, ts, hsplit⟩ := splitTemplateFrom_eq_cons space quote expected (current ++ u) t
  rw [hsplit, List.map_cons, List.cons.injEq] at h
  have hlengths := congrArg List.length h.1
  simp only [fill_append, List.length_append] at hlengths
  omega

theorem splitFrom_space_iff (expected actual : Bool) (current t : Template α) (hne : space ≠ quote)
    (ih : ∀ current, splitFrom space quote actual (fill current) (fill t) =
        (splitTemplateFrom space quote expected current t).map fill ↔
      Agrees space quote expected actual t) :
    splitFrom space quote actual (fill current) (space :: fill t) =
        (splitTemplateFrom space quote expected current (.inl space :: t)).map fill ↔
      expected = actual ∧ Agrees space quote expected actual t := by
  have hcurrent : fill current ++ [space] = fill (current ++ [.inl space]) := by
    rw [fill_append, fill_cons_inl, fill_nil]
  rw [splitTemplateFrom, splitFrom, if_neg hne, if_neg hne]
  cases expected with
  | false =>
    cases actual with
    | false =>
      rw [if_pos ⟨rfl, rfl⟩, if_pos ⟨rfl, rfl⟩, List.map_cons, List.cons.injEq, eq_self, true_and,
        eq_self, true_and]
      exact ih []
    | true =>
      refine iff_of_false ?_ fun h => Bool.false_ne_true h.1
      rw [if_neg fun h => Bool.false_ne_true h.2.symm, if_pos ⟨rfl, rfl⟩]
      intro h
      obtain ⟨g, ws, hsplit⟩ :=
        splitFrom_eq_cons space quote true (fill current ++ [space]) (fill t)
      rw [hsplit, List.map_cons, List.cons.injEq] at h
      have hlengths := congrArg List.length h.1
      simp only [List.length_append, List.length_singleton] at hlengths
      omega
  | true =>
    cases actual with
    | false =>
      refine iff_of_false ?_ fun h => Bool.false_ne_true h.1.symm
      rw [if_pos ⟨rfl, rfl⟩, if_neg fun h => Bool.false_ne_true h.2.symm,
        ← List.append_nil (fill current)]
      exact cons_ne_splitTemplate Nat.one_pos
    | true =>
      rw [if_neg fun h => Bool.false_ne_true h.2.symm, if_neg fun h => Bool.false_ne_true h.2.symm,
        eq_self, true_and, hcurrent]
      exact ih _

theorem splitFrom_fill_iff (hne : space ≠ quote) (expected actual : Bool)
    (current t : Template α) :
    splitFrom space quote actual (fill current) (fill t) =
        (splitTemplateFrom space quote expected current t).map fill ↔
      Agrees space quote expected actual t := by
  induction t generalizing expected actual current with
  | nil =>
    rw [splitTemplateFrom, fill_nil, splitFrom]
    exact iff_of_true rfl trivial
  | cons s t ih =>
    cases s with
    | inr f =>
      have hcurrent : fill current ++ f = fill (current ++ [.inr f]) := by
        rw [fill_append, fill_cons_inr, fill_nil, List.append_nil]
      rw [splitTemplateFrom, Agrees, fill_cons_inr]
      by_cases hf : Unsplit space quote actual f
      · rw [splitFrom_append hf, hcurrent, and_iff_right hf]
        exact ih expected _ _
      · refine iff_of_false ?_ fun h => hf h.1
        obtain ⟨g, ws, hsplit, hlen⟩ :=
          splitFrom_append_of_not_unsplit hf (fill current) (fill t)
        rw [hsplit]
        apply cons_ne_splitTemplate
        rw [fill_cons_inr, fill_nil, List.append_nil]
        exact hlen
    | inl c =>
      have hcurrent : fill current ++ [c] = fill (current ++ [.inl c]) := by
        rw [fill_append, fill_cons_inl, fill_nil]
      rw [fill_cons_inl, Agrees]
      by_cases hspace : c = space
      · subst hspace
        rw [splitFrom_space_iff expected actual current t hne fun u => ih expected actual u,
          if_neg hne, eq_self, true_implies]
      · have hsplit : ∀ b : Bool, ¬ (c = space ∧ b = false) := fun _ h => hspace h.1
        rw [splitTemplateFrom, splitFrom, if_neg (hsplit _), if_neg (hsplit _), hcurrent]
        by_cases hquote : c = quote
        · rw [if_pos hquote, if_pos hquote, if_pos hquote]
          exact ih _ _ _
        · rw [if_neg hquote, if_neg hquote, if_neg hquote,
            and_iff_right fun h => absurd h hspace]
          exact ih _ _ _

/-- A command line is intact exactly if the quoting state of the template is met at each of its
spaces, and no field has a space outside of quotes. -/
theorem intact_iff (hne : space ≠ quote) (t : Template α) :
    Intact space quote t ↔ Agrees space quote false false t :=
  splitFrom_fill_iff hne false false [] t

theorem agrees_text (hne : space ≠ quote) (expected actual : Bool) (w : List α) (t : Template α) :
    Agrees space quote expected actual (text w ++ t) ↔
      (space ∈ w → expected = actual) ∧
        Agrees space quote (expected ^^ odd quote w) (actual ^^ odd quote w) t := by
  induction w generalizing expected actual with
  | nil => simp only [text, List.map_nil, List.nil_append, List.not_mem_nil, false_implies, true_and,
      odd, Bool.xor_false]
  | cons c w ih =>
    have hcons : text (c :: w) ++ t = .inl c :: (text w ++ t) := rfl
    rw [hcons, Agrees, odd]
    by_cases hquote : c = quote
    · have hspace : space ≠ c := fun h => hne (h.trans hquote)
      rw [if_pos hquote, if_pos hquote, ih, List.mem_cons, or_iff_right hspace, Bool.not_inj_iff,
        Bool.not_xor, Bool.not_xor, Bool.xor_not, Bool.xor_not]
    · rw [if_neg hquote, if_neg hquote, ih, List.mem_cons, or_imp, and_assoc, eq_comm (a := c)]

theorem agrees_field (expected actual : Bool) (f : List α) (t : Template α) :
    Agrees space quote expected actual (field f ++ t) ↔
      Unsplit space quote actual f ∧ Agrees space quote expected (actual ^^ odd quote f) t :=
  Iff.rfl

/-- A text outside of quotes that can stand between the spaces of a template. -/
def Bare (space quote : α) (f : List α) : Prop :=
  Unsplit space quote false f ∧ odd quote f = false

def Enclosed (space quote : α) (f : List α) : Prop :=
  Unsplit space quote true f ∧ odd quote f = false

instance (f : List α) : Decidable (Bare space quote f) := inferInstanceAs (Decidable (_ ∧ _))

instance (f : List α) : Decidable (Enclosed space quote f) := inferInstanceAs (Decidable (_ ∧ _))

theorem agrees_text_even (hne : space ≠ quote) (b : Bool) {w : List α} (hodd : odd quote w = false)
    (t : Template α) :
    Agrees space quote b b (text w ++ t) ↔ Agrees space quote b b t := by
  rw [agrees_text hne, and_iff_right fun _ => rfl, hodd, Bool.xor_false]

theorem agrees_text_odd (hne : space ≠ quote) (b : Bool) {w : List α} (hodd : odd quote w = true)
    (t : Template α) :
    Agrees space quote b b (text w ++ t) ↔ Agrees space quote (!b) (!b) t := by
  rw [agrees_text hne, and_iff_right fun _ => rfl, hodd, Bool.xor_true]

theorem agrees_field_text (hne : space ≠ quote) (b : Bool) (f : List α) {w : List α}
    (hw : space ∈ w) (t : Template α) :
    Agrees space quote b b (field f ++ (text w ++ t)) ↔
      (Unsplit space quote b f ∧ odd quote f = false) ∧
        Agrees space quote (b ^^ odd quote w) (b ^^ odd quote w) t := by
  rw [agrees_field, agrees_text hne, and_assoc]
  apply and_congr_right
  intro _
  cases hodd : odd quote f with
  | false => simp only [hw, Bool.xor_false, implies_true, true_and]
  | true => cases b <;> simp [hw]

theorem agrees_field_even (hne : space ≠ quote) (b : Bool) (f : List α) {w : List α}
    (hw : space ∈ w) (hodd : odd quote w = false) (t : Template α) :
    Agrees space quote b b (field f ++ (text w ++ t)) ↔
      (Unsplit space quote b f ∧ odd quote f = false) ∧ Agrees space quote b b t := by
  rw [agrees_field_text hne b f hw, hodd, Bool.xor_false]

theorem agrees_field_odd (hne : space ≠ quote) (b : Bool) (f : List α) {w : List α}
    (hw : space ∈ w) (hodd : odd quote w = true) (t : Template α) :
    Agrees space quote b b (field f ++ (text w ++ t)) ↔
      (Unsplit space quote b f ∧ odd quote f = false) ∧ Agrees space quote (!b) (!b) t := by
  rw [agrees_field_text hne b f hw, hodd, Bool.xor_true]

theorem agrees_field_last (hne : space ≠ quote) (b : Bool) (f : List α) {w : List α}
    (hw : space ∉ w) :
    Agrees space quote b b (field f ++ text w) ↔ Unsplit space quote b f := by
  rw [agrees_field, ← List.append_nil (text w), agrees_text hne]
  exact and_iff_left ⟨fun h => absurd h hw, trivial⟩

theorem odd_of_notMem {f : List α} (hf : quote ∉ f) : odd quote f = false := by
  induction f with
  | nil => rfl
  | cons c f ih =>
    rw [List.mem_cons, not_or] at hf
    rw [odd, if_neg (Ne.symm hf.1), ih hf.2]

theorem odd_append (f g : List α) : odd quote (f ++ g) = (odd quote f ^^ odd quote g) := by
  induction f with
  | nil => rw [List.nil_append, odd, Bool.false_xor]
  | cons c f ih =>
    rw [List.cons_append, odd, odd, ih]
    split_ifs
    · rw [Bool.not_xor]
    · rfl

theorem unsplit_of_notMem {f : List α} (hf : quote ∉ f) : Unsplit space quote true f := by
  induction f with
  | nil => exact trivial
  | cons c f ih =>
    rw [List.mem_cons, not_or] at hf
    rw [Unsplit, if_neg (Ne.symm hf.1)]
    exact ⟨fun _ => rfl, ih hf.2⟩

theorem unsplit_of_space_notMem {f : List α} (hf : space ∉ f) (inside : Bool) :
    Unsplit space quote inside f := by
  induction f generalizing inside with
  | nil => exact trivial
  | cons c f ih =>
    rw [List.mem_cons, not_or] at hf
    rw [Unsplit]
    split_ifs with hquote
    · exact ih hf.2 _
    · exact ⟨fun h => absurd h.symm hf.1, ih hf.2 _⟩

theorem agrees_of_notMem {t : Template α}
    (ht : ∀ f, Sum.inr f ∈ t → space ∉ f ∧ quote ∉ f) (b : Bool) :
    Agrees space quote b b t := by
  induction t generalizing b with
  | nil => exact trivial
  | cons s t ih =>
    have hrest := ih fun f hf => ht f (List.mem_cons_of_mem s hf)
    cases s with
    | inr f =>
      obtain ⟨hspace, hquote⟩ := ht f List.mem_cons_self
      rw [Agrees, odd_of_notMem hquote, Bool.xor_false]
      exact ⟨unsplit_of_space_notMem hspace b, hrest b⟩
    | inl c =>
      rw [Agrees]
      split_ifs
      · exact hrest (!b)
      · exact ⟨fun _ => rfl, hrest b⟩

variable (eq : α)

def optionName (w : List α) : List α := w.takeWhile (· ≠ eq)

variable (space quote)

/-- Every field stands behind the equals sign of its argument; `named` says that the argument has
one. -/
def fieldsNamed (named inside : Bool) : Template α → Bool
  | [] => true
  | .inr _ :: t => named && fieldsNamed named inside t
  | .inl c :: t =>
    if c = quote then fieldsNamed (named || c = eq) (!inside) t
    else if c = space ∧ inside = false then fieldsNamed false false t
    else fieldsNamed (named || c = eq) inside t

def erase (t : Template α) : Template α := t.map (Sum.map id fun _ => [])

variable {space quote eq}

theorem fieldsNamed_erase (named inside : Bool) (t : Template α) :
    fieldsNamed space quote eq named inside (erase t) =
      fieldsNamed space quote eq named inside t := by
  induction t generalizing named inside with
  | nil => rfl
  | cons s t ih =>
    cases s with
    | inr f =>
      have hcons : erase (.inr f :: t) = .inr [] :: erase t := rfl
      rw [hcons, fieldsNamed, fieldsNamed, ih]
    | inl c =>
      have hcons : erase (.inl c :: t) = .inl c :: erase t := rfl
      rw [hcons, fieldsNamed, fieldsNamed, ih, ih, ih]

theorem optionName_append {w : List α} (hw : eq ∈ w) (v : List α) :
    optionName eq (w ++ v) = optionName eq w := by
  induction w with
  | nil => cases hw
  | cons c w ih =>
    rw [optionName, optionName, List.cons_append, List.takeWhile_cons, List.takeWhile_cons]
    by_cases hc : c = eq
    · simp only [hc, ne_eq, not_true_eq_false, decide_false, Bool.false_eq_true, if_false]
    · have hmem : eq ∈ w := (List.mem_cons.mp hw).resolve_left (Ne.symm hc)
      have hrest := ih hmem
      rw [optionName, optionName] at hrest
      rw [hrest]

/-- Two texts are alike up to their equals sign, if they have one. -/
def Alike (eq : α) (named : Bool) (u v : List α) : Prop :=
  if named then eq ∈ u ∧ eq ∈ v ∧ optionName eq u = optionName eq v else u = v

theorem Alike.optionName_eq {named : Bool} {u v : List α} (h : Alike eq named u v) :
    optionName eq u = optionName eq v := by
  cases named with
  | false => exact congrArg (optionName eq) h
  | true => exact h.2.2

theorem Alike.concat {named : Bool} {u v : List α} (h : Alike eq named u v) (c : α) :
    Alike eq (named || c = eq) (u ++ [c]) (v ++ [c]) := by
  cases named with
  | true =>
    obtain ⟨hu, hv, hname⟩ := h
    exact ⟨List.mem_append_left _ hu, List.mem_append_left _ hv,
      by rw [optionName_append hu, optionName_append hv, hname]⟩
  | false =>
    obtain rfl : u = v := h
    by_cases hc : c = eq
    · have hmem : eq ∈ u ++ [c] := List.mem_append_right _ (List.mem_singleton.mpr hc.symm)
      rw [Alike, if_pos (by simpa using hc)]
      exact ⟨hmem, hmem, rfl⟩
    · simp only [Alike, Bool.false_or, hc, decide_false, Bool.false_eq_true, if_false]

theorem Alike.append {u v : List α} (h : Alike eq true u v) (f g : List α) :
    Alike eq true (u ++ f) (v ++ g) := by
  obtain ⟨hu, hv, hname⟩ := h
  exact ⟨List.mem_append_left _ hu, List.mem_append_left _ hv,
    by rw [optionName_append hu, optionName_append hv, hname]⟩

theorem map_optionName_splitTemplateFrom {named inside : Bool} {current current' t t' : Template α}
    (ht : erase t = erase t') (hnamed : fieldsNamed space quote eq named inside t = true)
    (hcurrent : Alike eq named (fill current) (fill current')) :
    (splitTemplateFrom space quote inside current t).map (fun u => optionName eq (fill u)) =
      (splitTemplateFrom space quote inside current' t').map
        (fun u => optionName eq (fill u)) := by
  induction t generalizing named inside current current' t' with
  | nil =>
    obtain rfl : t' = [] := List.map_eq_nil_iff.mp ht.symm
    rw [splitTemplateFrom, splitTemplateFrom, List.map_singleton, List.map_singleton,
      hcurrent.optionName_eq]
  | cons s t ih =>
    cases t' with
    | nil => cases ht
    | cons s' t' =>
      obtain ⟨hs, hrest⟩ := List.cons.inj ht
      cases s with
      | inr f =>
        cases s' with
        | inl c => cases hs
        | inr g =>
          rw [fieldsNamed, Bool.and_eq_true] at hnamed
          obtain ⟨rfl, hnamed⟩ := hnamed
          rw [splitTemplateFrom, splitTemplateFrom]
          apply ih hrest hnamed
          rw [fill_append, fill_append, fill_cons_inr, fill_cons_inr]
          exact hcurrent.append _ _
      | inl c =>
        cases s' with
        | inr g => cases hs
        | inl d =>
          obtain rfl : c = d := Sum.inl.inj hs
          have hnext : Alike eq (named || c = eq) (fill (current ++ [.inl c]))
              (fill (current' ++ [.inl c])) := by
            rw [fill_append, fill_append, fill_cons_inl, fill_nil]
            exact hcurrent.concat c
          rw [splitTemplateFrom, splitTemplateFrom]
          rw [fieldsNamed] at hnamed
          by_cases hquote : c = quote
          · rw [if_pos hquote] at hnamed ⊢
            rw [if_pos hquote]
            exact ih hrest hnamed hnext
          · rw [if_neg hquote] at hnamed ⊢
            rw [if_neg hquote]
            by_cases hspace : c = space ∧ inside = false
            · rw [if_pos hspace] at hnamed ⊢
              rw [if_pos hspace, List.map_cons, List.map_cons, hcurrent.optionName_eq]
              exact congrArg _ (ih hrest hnamed rfl)
            · rw [if_neg hspace] at hnamed ⊢
              rw [if_neg hspace]
              exact ih hrest hnamed hnext

theorem fieldsNamed_value (hspace : eq ≠ space) (hquote : eq ≠ quote) {w : List α} (hw : quote ∉ w)
    (named : Bool) (f : List α) (t : Template α) :
    fieldsNamed space quote eq named false
        (text (w ++ [eq, quote]) ++ (field f ++ (text [quote] ++ t))) =
      fieldsNamed space quote eq true false t := by
  induction w generalizing named with
  | nil =>
    simp only [text, field, List.nil_append, List.map_cons, List.map_nil, List.cons_append,
      fieldsNamed, hspace, hquote, if_true, if_false, false_and, decide_true, Bool.or_true,
      Bool.not_false, Bool.true_or, Bool.true_and, Bool.not_true]
  | cons c w ih =>
    rw [List.mem_cons, not_or] at hw
    have hcons : text (c :: w ++ [eq, quote]) ++ (field f ++ (text [quote] ++ t)) =
        .inl c :: (text (w ++ [eq, quote]) ++ (field f ++ (text [quote] ++ t))) := rfl
    rw [hcons, fieldsNamed, if_neg (Ne.symm hw.1)]
    split_ifs
    · exact ih hw.2 _
    · exact ih hw.2 _

theorem map_optionName_split {t t' : Template α} (ht : erase t = erase t')
    (hnamed : fieldsNamed space quote eq false false t = true) (h : Intact space quote t)
    (h' : Intact space quote t') :
    (split space quote (fill t)).map (optionName eq) =
      (split space quote (fill t')).map (optionName eq) := by
  rw [h, h', List.map_map, List.map_map]
  exact map_optionName_splitTemplateFrom ht hnamed rfl

end ArgumentTemplates
