import TrapHandler.DecimalNumerals
import TrapHandler.VersionStrings

/-!
# The scanners of the version strings

What the cursor of `ParseVersionString` passes: the numbers of `wcstoul`, which may be preceded by
white space and a sign or be missing, a word up to a blank, and a number of characters.
-/

namespace TrapHandler.ParsedVersion

open Scanners

variable {t s rest : WStr} {c : WChar}

def Numeral (t : WStr) : Prop :=
  ∃ blanks sign digits, t = blanks ++ sign ++ digits ∧ (∀ c ∈ blanks, isSpace c = true) ∧
    (sign = [] ∨ sign = [0x2D] ∨ sign = [0x2B]) ∧ digits ≠ [] ∧ ∀ c ∈ digits, isDigit c = true

/-- What `wcstoul` passes over. -/
def Number (t : WStr) : Prop := t = [] ∨ Numeral t

def unsigned (s : WStr) : WStr :=
  if s.head? == some 0x2D || s.head? == some 0x2B then s.tail else s

theorem snd_wcstoul (nptr : WStr) : (wcstoul nptr).2 =
    if (unsigned (nptr.dropWhile isSpace)).takeWhile isDigit = [] then nptr
    else (unsigned (nptr.dropWhile isSpace)).dropWhile isDigit := by
  rw [wcstoul, unsigned]
  split_ifs <;> rfl

theorem unsigned_of_stops (h : ∀ c ∈ s.head?, c ≠ 0x2D ∧ c ≠ 0x2B) : unsigned s = s := by
  rw [unsigned, if_neg]
  simp only [Bool.or_eq_true, beq_iff_eq]
  rintro (hs | hs)
  · exact (h _ hs).1 rfl
  · exact (h _ hs).2 rfl

theorem head_digits {digits : WStr} (hne : digits ≠ []) (h : ∀ c ∈ digits, isDigit c = true) :
    ∀ c ∈ (digits ++ rest).head?, isDigit c = true := by
  cases digits with
  | nil => exact absurd rfl hne
  | cons d digits =>
    intro c hc
    rw [List.cons_append, List.head?_cons, Option.mem_some_iff] at hc
    exact hc ▸ h d List.mem_cons_self

theorem unsigned_numeral {blanks sign digits : WStr} (hblanks : ∀ c ∈ blanks, isSpace c = true)
    (hsign : sign = [] ∨ sign = [0x2D] ∨ sign = [0x2B]) (hne : digits ≠ [])
    (hdigits : ∀ c ∈ digits, isDigit c = true) :
    unsigned ((blanks ++ sign ++ digits ++ rest).dropWhile isSpace) = digits ++ rest := by
  have hhead : ∀ c ∈ (digits ++ rest).head?, isDigit c = true := head_digits hne hdigits
  rw [List.append_assoc, List.append_assoc]
  rcases hsign with rfl | rfl | rfl
  · have hstops : Stops isSpace ([] ++ (digits ++ rest)) :=
      fun c hc => not_isSpace_of_isDigit (hhead c hc)
    rw [dropWhile_append_stops hblanks hstops]
    apply unsigned_of_stops
    intro c hc
    exact ⟨ne_of_isDigit (hhead c hc) (by decide), ne_of_isDigit (hhead c hc) (by decide)⟩
  · have hstops : Stops isSpace ([0x2D] ++ (digits ++ rest)) := stops_cons (by decide)
    rw [dropWhile_append_stops hblanks hstops]
    rfl
  · have hstops : Stops isSpace ([0x2B] ++ (digits ++ rest)) := stops_cons (by decide)
    rw [dropWhile_append_stops hblanks hstops]
    rfl

theorem snd_wcstoul_numeral (ht : Numeral t) (hrest : Stops isDigit rest) :
    (wcstoul (t ++ rest)).2 = rest := by
  obtain ⟨blanks, sign, digits, rfl, hblanks, hsign, hne, hdigits⟩ := ht
  rw [snd_wcstoul, unsigned_numeral hblanks hsign hne hdigits,
    takeWhile_append_stops hdigits hrest, if_neg hne, dropWhile_append_stops hdigits hrest]

theorem snd_wcstoul_of_no_digit (h : ∀ c ∈ s, isDigit c = false) : (wcstoul s).2 = s := by
  rw [snd_wcstoul, if_pos]
  have hsuffix : unsigned (s.dropWhile isSpace) <:+ s := by
    rw [unsigned]
    split_ifs
    · exact (List.tail_suffix _).trans (List.dropWhile_suffix _)
    · exact List.dropWhile_suffix _
  apply takeWhile_of_stops
  intro c hc
  exact h c (hsuffix.subset (List.mem_of_mem_head? hc))

theorem snd_wcstoul_of_stops (hspace : Stops isSpace s) (hdigit : Stops isDigit s)
    (hsign : ∀ c ∈ s.head?, c ≠ 0x2D ∧ c ≠ 0x2B) : (wcstoul s).2 = s := by
  rw [snd_wcstoul, dropWhile_of_stops hspace, unsigned_of_stops hsign,
    takeWhile_of_stops hdigit, if_pos rfl]

theorem exists_number (s : WStr) : ∃ t, Number t ∧ s = t ++ (wcstoul s).2 := by
  rw [snd_wcstoul]
  split_ifs with hdigits
  · exact ⟨[], Or.inl rfl, rfl⟩
  have hrest := List.takeWhile_append_dropWhile (p := isDigit)
    (l := unsigned (s.dropWhile isSpace))
  obtain ⟨sign, hsign, hunsigned⟩ : ∃ sign : WStr, (sign = [] ∨ sign = [0x2D] ∨ sign = [0x2B]) ∧
      s.dropWhile isSpace = sign ++ unsigned (s.dropWhile isSpace) := by
    rw [unsigned]
    split_ifs with h
    · rw [Bool.or_eq_true, beq_iff_eq, beq_iff_eq] at h
      cases hs : s.dropWhile isSpace with
      | nil =>
        rw [hs] at h
        cases h <;> contradiction
      | cons c rest =>
        rw [hs, List.head?_cons, Option.some.injEq, Option.some.injEq] at h
        refine ⟨[c], Or.inr ?_, rfl⟩
        rcases h with rfl | rfl
        · exact Or.inl rfl
        · exact Or.inr rfl
    · exact ⟨[], Or.inl rfl, rfl⟩
  refine ⟨s.takeWhile isSpace ++ sign ++ (unsigned (s.dropWhile isSpace)).takeWhile isDigit,
    Or.inr ⟨_, sign, _, rfl, forall_mem_takeWhile s, hsign, hdigits, forall_mem_takeWhile _⟩, ?_⟩
  calc
    s = s.takeWhile isSpace ++ s.dropWhile isSpace := List.takeWhile_append_dropWhile.symm
    _ = s.takeWhile isSpace ++ (sign ++ unsigned (s.dropWhile isSpace)) := by rw [← hunsigned]
    _ = _ := by
      rw [List.append_assoc, List.append_assoc, hrest]

/-- A text in front of which a number ends, whatever the number is. -/
def Separates (lit : WStr) : Prop :=
  ∃ c rest, lit = c :: rest ∧ isSpace c = false ∧ isDigit c = false ∧ c ≠ 0x2D ∧ c ≠ 0x2B

theorem separates_dot : Separates (wcs ".") :=
  ⟨0x2E, _, rfl, by decide, by decide, by decide, by decide⟩

theorem separates_comma {lit : WStr} (h : lit.head? = some 0x2C) : Separates lit := by
  cases lit with
  | nil => cases h
  | cons c rest =>
    obtain rfl := Option.some.inj h
    exact ⟨0x2C, rest, rfl, by decide, by decide, by decide, by decide⟩

theorem snd_wcstoul_number {lit : WStr} (ht : Number t) (hlit : Separates lit) :
    (wcstoul (t ++ (lit ++ rest))).2 = lit ++ rest := by
  obtain ⟨c, lit, rfl, hspace, hdigit, hsign⟩ := hlit
  rcases ht with rfl | ht
  · apply snd_wcstoul_of_stops (stops_cons hspace) (stops_cons hdigit)
    intro d hd
    exact Option.some.inj hd ▸ hsign
  · exact snd_wcstoul_numeral ht (stops_cons hdigit)

theorem wcstoul_decimal (n : UInt32) (hrest : Stops isDigit rest) :
    wcstoul (decimal n.toNat ++ rest) = (n, rest) := by
  have hdigits : ∀ c ∈ decimal n.toNat, isDigit c = true := fun _ hc => isDigit_of_mem_decimal hc
  have hhead : ∀ c ∈ (decimal n.toNat ++ rest).head?, isDigit c = true :=
    head_digits (decimal_ne_nil n.toNat) hdigits
  have hspace : Stops isSpace (decimal n.toNat ++ rest) :=
    fun c hc => not_isSpace_of_isDigit (hhead c hc)
  have hminus : ((decimal n.toNat ++ rest).head? == some 0x2D) = false := by
    rw [Bool.eq_false_iff, ne_eq, beq_iff_eq]
    exact fun h => absurd (hhead _ h) (by decide)
  have hplus : ((decimal n.toNat ++ rest).head? == some 0x2B) = false := by
    rw [Bool.eq_false_iff, ne_eq, beq_iff_eq]
    exact fun h => absurd (hhead _ h) (by decide)
  simp only [wcstoul, dropWhile_of_stops hspace, hminus, hplus, Bool.or_self, Bool.false_and,
    Bool.false_eq_true, if_false, takeWhile_append_stops hdigits hrest,
    dropWhile_append_stops hdigits hrest, decimal_ne_nil, unsignedNumber_decimal _ hrest,
    n.toNat_lt, if_true, UInt32.ofNat_toNat]

theorem skipWord_append {word : WStr} (h : 0x20 ∉ word) (rest : WStr) :
    skipWord (word ++ (wcs " " ++ rest)) = some rest := by
  induction word with
  | nil => rfl
  | cons c word ih =>
    rw [List.mem_cons, not_or] at h
    rw [List.cons_append, skipWord, if_neg (Ne.symm h.1), ih h.2]

theorem skipWord_of_notMem (h : 0x20 ∉ s) : skipWord s = none := by
  induction s with
  | nil => rfl
  | cons c s ih =>
    rw [List.mem_cons, not_or] at h
    rw [skipWord, if_neg (Ne.symm h.1), ih h.2]

theorem exists_word (s : WStr) :
    0x20 ∉ s ∨ ∃ word rest, 0x20 ∉ word ∧ s = word ++ (wcs " " ++ rest) := by
  by_cases h : 0x20 ∈ s
  · obtain ⟨word, rest, hs, hword⟩ := List.eq_append_cons_of_mem h
    exact Or.inr ⟨word, rest, hword, hs⟩
  · exact Or.inl h

theorem exists_component (s : WStr) : ∃ component rest : WStr, s = component ++ rest ∧
    (∀ c ∈ component, isBlank c = false) ∧ Stops (!isBlank ·) rest := by
  refine ⟨_, _, List.takeWhile_append_dropWhile.symm, ?_, stops_dropWhile s⟩
  intro c hc
  have hnot := forall_mem_takeWhile s c hc
  rwa [Bool.not_eq_true'] at hnot

theorem advance_append {n : ℕ} (h : s.length = n) (rest : WStr) :
    advance n (s ++ rest) = some rest := by
  rw [advance, if_pos, List.drop_left' h]
  rw [List.length_append]
  omega

theorem advance_of_lt {n : ℕ} (h : s.length < n) : advance n s = none := by
  rw [advance, if_neg]
  omega

theorem suffix_of_advance {n : ℕ} (h : advance n s = some rest) : rest <:+ s := by
  rw [advance] at h
  split_ifs at h
  exact Option.some.inj h ▸ List.drop_suffix n s

theorem exists_fixed (n : ℕ) (s : WStr) :
    s.length < n ∨ ∃ fixed rest : WStr, fixed.length = n ∧ s = fixed ++ rest := by
  by_cases h : s.length < n
  · exact Or.inl h
  · refine Or.inr ⟨s.take n, s.drop n, ?_, (List.take_append_drop n s).symm⟩
    rw [List.length_take]
    omega

theorem exists_number_then (lit : WStr) (s : WStr) :
    ¬ lit <+: (wcstoul s).2 ∨
      ∃ t rest, Number t ∧ s = t ++ (lit ++ rest) ∧ (wcstoul s).2 = lit ++ rest := by
  by_cases h : lit <+: (wcstoul s).2
  · obtain ⟨rest, hrest⟩ := h
    obtain ⟨t, ht, hs⟩ := exists_number s
    rw [← hrest] at hs
    exact Or.inr ⟨t, rest, ht, hs, hrest.symm⟩
  · exact Or.inl h

theorem head?_eq_iff : s.head? = some c ↔ [c] <+: s := by
  cases s with
  | nil => simp
  | cons d s => simp [eq_comm]

theorem wcsstr_eq_none_iff (wcsFind : WStr) : wcsstr wcsFind s = none ↔ ¬ wcsFind <:+: s := by
  induction s with
  | nil =>
    rw [wcsstr, List.infix_nil]
    split_ifs with h
    · exact iff_of_false not_false (not_not_intro h)
    · exact iff_of_true rfl h
  | cons c s ih =>
    rw [wcsstr, List.infix_cons_iff, not_or, ← ih, ← List.isPrefixOf_iff_prefix]
    split_ifs with h
    · exact iff_of_false not_false fun hnot => hnot.1 h
    · exact (and_iff_right h).symm

theorem suffix_of_wcsstr {wcsFind : WStr} (h : wcsstr wcsFind s = some rest) :
    rest <:+ s := by
  induction s with
  | nil =>
    rw [wcsstr] at h
    split_ifs at h
    exact Option.some.inj h ▸ List.suffix_rfl
  | cons c s ih =>
    rw [wcsstr] at h
    split_ifs at h
    · exact Option.some.inj h ▸ List.suffix_rfl
    · exact (ih h).trans (List.suffix_cons c s)

theorem upTo_append (s rest : WStr) : upTo (s ++ rest) rest = s := by
  have hlen : (s ++ rest).length - rest.length = s.length := by
    rw [List.length_append]
    omega
  rw [upTo, hlen, List.take_left]

theorem suffix_wcstoul (s : WStr) : (wcstoul s).2 <:+ s := by
  obtain ⟨t, _, hs⟩ := exists_number s
  exact ⟨t, hs.symm⟩

theorem drop_windows (s : WStr) : (wcs "MSWin:" ++ s).drop 6 = s := rfl

theorem drop_linux (s : WStr) : (wcs "Linux " ++ s).drop 6 = s := rfl

theorem drop_hpux (s : WStr) : (wcs "HP-UX " ++ s).drop 6 = s := rfl

theorem drop_dot (s : WStr) : (wcs "." ++ s).drop 1 = s := rfl

theorem head?_dot (s : WStr) : ¬ (wcs "." ++ s).head? ≠ some 0x2E := fun h => h rfl

theorem isPrefixOf_append (word s : WStr) : word.isPrefixOf (word ++ s) = true :=
  List.isPrefixOf_iff_prefix.mpr (List.prefix_append word s)

end TrapHandler.ParsedVersion
