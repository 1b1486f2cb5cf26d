import TrapHandler.BufferBounds

/-!
# Stretches of a layout

A stretch of a layout says which words a reader goes on behind, and behind which words it reads no
further. Stretches are put behind each other and repeated. A buffer in which a reader stops is one that
begins with whole stretches and the beginning of a last one that stops it.
-/

namespace ByteReader

/-- The buffer begins with a word of `L`. -/
def Begins (L : Language UInt8) : Walk := fun bs => ∃ w ∈ L, w <+: bs

structure Stretch where
  whole : Language UInt8
  stopped : Language UInt8

namespace Stretch

/-- The words that stop a reader in the stretch or in what follows. -/
def andThen (s : Stretch) (next : Language UInt8) : Language UInt8 := s.stopped + s.whole * next

def append (s t : Stretch) : Stretch where
  whole := s.whole * t.whole
  stopped := s.andThen t.stopped

instance : Append Stretch := ⟨append⟩

/-- Any number of whole stretches, and one that stops the reader. -/
def repeated (s : Stretch) : Language UInt8 := KStar.kstar s.whole * s.stopped

/-- One stretch or the other. -/
instance : Add Stretch := ⟨fun s t => ⟨s.whole + t.whole, s.stopped + t.stopped⟩⟩

/-- A byte that is none of `tags` stops the reader. -/
def wrong (tags : List UInt8) : Stretch where
  whole := 0
  stopped := {w | ∃ b, b ∉ tags ∧ w = [b]}

def walk (s : Stretch) (next : Walk) : Walk := fun bs =>
  Begins s.stopped bs ∨ ∃ w ∈ s.whole, ∃ rest, bs = w ++ rest ∧ next rest

variable {s t : Stretch} {K L : Language UInt8} {next : Walk} {bs : List UInt8}

theorem begins_add : Begins (K + L) bs ↔ Begins K bs ∨ Begins L bs := by
  simp only [Begins, Language.mem_add, or_and_right, exists_or]

theorem begins_mul :
    Begins (K * L) bs ↔ ∃ w ∈ K, ∃ rest, bs = w ++ rest ∧ Begins L rest := by
  constructor
  · rintro ⟨_, ⟨v, hv, w, hw, rfl⟩, rest, rfl⟩
    exact ⟨v, hv, w ++ rest, List.append_assoc v w rest, w, hw, List.prefix_append w rest⟩
  · rintro ⟨v, hv, rest, rfl, w, hw, hprefix⟩
    exact ⟨v ++ w, Language.append_mem_mul hv hw, (List.prefix_append_right_inj v).mpr hprefix⟩

theorem walk_add (s t : Stretch) (next : Walk) :
    (s + t).walk next bs ↔ s.walk next bs ∨ t.walk next bs := by
  change (Begins (s.stopped + t.stopped) bs ∨ ∃ w ∈ s.whole + t.whole, _) ↔ _
  simp only [begins_add, Language.mem_add, or_and_right, exists_or, walk]
  exact or_or_or_comm

/-- Words that all begin with `tag`. -/
def Tagged (tag : UInt8) (s : Stretch) : Prop :=
  (∀ w ∈ s.whole, ∃ v, w = tag :: v) ∧ ∀ w ∈ s.stopped, ∃ v, w = tag :: v

theorem not_walk_nil {tag : UInt8} (h : s.Tagged tag) : ¬ s.walk next [] := by
  rintro (⟨w, hw, hprefix⟩ | ⟨w, hw, rest, heq, _⟩)
  · obtain ⟨v, rfl⟩ := h.2 w hw
    cases List.prefix_nil.mp hprefix
  · obtain ⟨v, rfl⟩ := h.1 w hw
    cases heq

theorem eq_of_walk_cons {tag b : UInt8} (h : s.Tagged tag) (hwalk : s.walk next (b :: bs)) :
    b = tag := by
  rcases hwalk with ⟨w, hw, rest, heq⟩ | ⟨w, hw, rest, heq, _⟩
  · obtain ⟨v, rfl⟩ := h.2 w hw
    rw [List.cons_append] at heq
    exact (List.cons.inj heq).1.symm
  · obtain ⟨v, rfl⟩ := h.1 w hw
    exact (List.cons.inj heq).1

theorem begins_wrong_cons {tags : List UInt8} {b : UInt8} :
    Begins (wrong tags).stopped (b :: bs) ↔ b ∉ tags := by
  constructor
  · rintro ⟨_, ⟨a, ha, rfl⟩, rest, heq⟩
    rwa [← (List.cons.inj heq).1]
  · intro hb
    exact ⟨[b], ⟨b, hb, rfl⟩, List.cons_prefix_cons.mpr ⟨rfl, List.nil_prefix⟩⟩

theorem walk_wrong_cons {tags : List UInt8} {b : UInt8} :
    (wrong tags).walk next (b :: bs) ↔ b ∉ tags := by
  rw [walk, begins_wrong_cons]
  refine or_iff_left ?_
  rintro ⟨w, hw, _⟩
  exact Language.notMem_zero w hw

theorem not_walk_wrong_nil {tags : List UInt8} : ¬ (wrong tags).walk next [] := by
  rintro (⟨_, ⟨b, _, rfl⟩, hprefix⟩ | ⟨w, hw, _⟩)
  · cases List.prefix_nil.mp hprefix
  · exact Language.notMem_zero w hw

theorem begins_andThen : Begins (s.andThen L) bs ↔ s.walk (Begins L) bs := by
  rw [andThen, begins_add, begins_mul, walk]

theorem walk_begins (s : Stretch) (L : Language UInt8) :
    s.walk (Begins L) = Begins (s.andThen L) := by
  funext bs
  exact propext begins_andThen.symm

theorem walk_append (s t : Stretch) (next : Walk) : (s ++ t).walk next = s.walk (t.walk next) := by
  funext bs
  change (Begins (s.andThen t.stopped) bs ∨ ∃ w ∈ s.whole * t.whole, _) = _
  rw [begins_andThen, walk, walk]
  apply propext
  constructor
  · rintro ((hstop | ⟨w, hw, rest, rfl, hrest⟩) | ⟨_, ⟨v, hv, w, hw, rfl⟩, rest, rfl, hrest⟩)
    · exact .inl hstop
    · exact .inr ⟨w, hw, rest, rfl, .inl hrest⟩
    · exact .inr ⟨v, hv, w ++ rest, List.append_assoc v w rest, .inr ⟨w, hw, rest, rfl, hrest⟩⟩
  · rintro (hstop | ⟨v, hv, _, rfl, hrest | ⟨w, hw, rest, rfl, hrest⟩⟩)
    · exact .inl (.inl hstop)
    · exact .inl (.inr ⟨v, hv, _, rfl, hrest⟩)
    · exact .inr ⟨v ++ w, Language.append_mem_mul hv hw, rest,
        (List.append_assoc v w rest).symm, hrest⟩

theorem repeated_eq (s : Stretch) : s.repeated = s.andThen s.repeated :=
  calc KStar.kstar s.whole * s.stopped
      = (1 + s.whole * KStar.kstar s.whole) * s.stopped := by
        rw [Language.one_add_self_mul_kstar_eq_kstar]
    _ = s.stopped + s.whole * (KStar.kstar s.whole * s.stopped) := by
        rw [add_mul, one_mul, mul_assoc]

theorem nil_notMem_repeated (h : [] ∉ s.stopped) : [] ∉ s.repeated := by
  rintro ⟨v, _, w, hw, heq⟩
  rw [(List.append_eq_nil_iff.mp heq).2] at hw
  exact h hw

theorem begins_repeated_of_passes {passes : ℕ → Walk} (hwhole : [] ∉ s.whole)
    (hstopped : [] ∉ s.stopped) (hzero : ¬ passes 0 [])
    (hsucc : ∀ fuel, passes (fuel + 1) = s.walk (passes fuel)) {fuel : ℕ}
    (h : bs.length ≤ fuel) : passes fuel bs ↔ Begins s.repeated bs := by
  induction fuel generalizing bs with
  | zero =>
    obtain rfl := List.length_eq_zero_iff.mp (Nat.le_zero.mp h)
    refine iff_of_false hzero ?_
    rintro ⟨w, hw, hprefix⟩
    rw [List.prefix_nil.mp hprefix] at hw
    exact nil_notMem_repeated hstopped hw
  | succ fuel ih =>
    rw [hsucc, repeated_eq, begins_andThen, walk, walk]
    refine or_congr_right (exists_congr fun w => and_congr_right fun hw => ?_)
    refine exists_congr fun rest => and_congr_right fun hbs => ih ?_
    have hne : w ≠ [] := fun hnil => hwhole (hnil ▸ hw)
    have hpos := List.length_pos_iff.mpr hne
    rw [hbs, List.length_append] at h
    omega

end Stretch

end ByteReader
