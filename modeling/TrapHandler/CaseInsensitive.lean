import TrapHandler.OpcCommands
import TrapHandler.Ranges

/-!
# Comparison without regard to case

`utils::iequals` compares two strings over the range of the first one, so it is true where the first
is a prefix of the second and reads behind the second where that ends first. Two overloads of
`str_to_severity` are chains of such comparisons, and two are chains of `_stricmp` and `_wcsicmp`.
-/

namespace TrapHandler.Utils

open Ranges

/-- `std::toupper` -/
def toupper (c : ℤ) : ℤ := if 0x61 ≤ c ∧ c ≤ 0x7A then c - 0x20 else c

/-- `tolower` -/
def tolower (c : ℤ) : ℤ := if 0x41 ≤ c ∧ c ≤ 0x5A then c + 0x20 else c

/-- A `char` as an `int`. -/
def ofChar (c : UInt8) : ℤ := c.toInt8.toInt

/-- A `wchar_t` as an `int`. -/
def ofWChar (c : WChar) : ℤ := c.toNat

/-- The string literal `"..."`. -/
def str (s : String) : List UInt8 := s.toList.map (fun c => c.toNat.toUInt8)

/-- `iequals` for strings whose characters are converted by `int`; behind the second string stands a
terminator. -/
def iequals {α : Type} (int : α → ℤ) (str1 str2 : List α) : Comparison :=
  equalRange toupper 0 (str1.map int) (str2.map int)

/-- `_stricmp(s, t) == 0`, for characters that are converted by `int`. -/
def stricmpEq {α : Type} (int : α → ℤ) (s t : List α) : Bool :=
  s.map (tolower ∘ int) == t.map (tolower ∘ int)

def severities : List (String × String) :=
  [("critical", "Critical"), ("major", "Major"), ("minor", "Minor"), ("warning", "Warning"),
    ("normal", "Normal")]

/-- The chain of comparisons of `str_to_severity`. -/
def severityOf (equals : String → Option Bool) : List (String × String) → Option WStr
  | [] => some (wcs "Unknown")
  | (word, severity) :: rest => do
    if ← equals word then return wcs severity
    severityOf equals rest

/-- `str_to_severity(std::string const &)` -/
def strToSeverityString (s : List UInt8) : Option WStr :=
  severityOf (fun word => (iequals ofChar s (str word)).equal) severities

/-- `str_to_severity(std::wstring const &)` -/
def strToSeverityWString (s : WStr) : Option WStr :=
  severityOf (fun word => (iequals ofWChar s (wcs word)).equal) severities

/-- `str_to_severity(const char *)` -/
def strToSeverityChars (s : List UInt8) : Option WStr :=
  severityOf (fun word => some (stricmpEq ofChar s (str word))) severities

/-- `str_to_severity(const wchar_t *)` -/
def strToSeverityWChars (s : WStr) : Option WStr :=
  severityOf (fun word => some (wcsicmpEq s (wcs word))) severities

theorem strToSeverityWChars_eq (s : WStr) : strToSeverityWChars s = some (strToSeverity s) := by
  simp only [strToSeverityWChars, severityOf, severities, strToSeverity, Option.bind_eq_bind,
    Option.bind_some, Option.pure_def, apply_ite some]

variable {α : Type} {int : α → ℤ} {a b : List α}

/-- The characters of a string after `toupper`. -/
def upper (int : α → ℤ) (s : List α) : List ℤ := (s.map int).map toupper

/-- The result is equality after `toupper` and does not depend on the order, and no character behind
the end of a string is read. -/
structure IequalsRight (int : α → ℤ) (a b : List α) : Prop where
  equal : (iequals int a b).equal = some (decide (upper int a = upper int b))
  inside : (iequals int a b).read ≤ a.length ∧ (iequals int a b).read ≤ b.length
  symmetric : (iequals int a b).equal = (iequals int b a).equal

def ProperPrefix (s t : List ℤ) : Prop := s <+: t ∧ s ≠ t

theorem ProperPrefix.length_lt {s t : List ℤ} (h : ProperPrefix s t) : s.length < t.length := by
  obtain ⟨hleads, hne⟩ := h
  refine lt_of_le_of_ne hleads.length_le ?_
  intro hlen
  exact hne (hleads.eq_of_length hlen)

theorem length_upper (int : α → ℤ) (s : List α) : (upper int s).length = s.length := by
  rw [upper, List.length_map, List.length_map]

theorem iequals_of_isPrefix (h : upper int a <+: upper int b) :
    iequals int a b = ⟨some true, a.length⟩ := by
  rw [iequals, equalRange_of_prefix h, List.length_map]

theorem iequals_of_not_isPrefix (hab : ¬ upper int a <+: upper int b)
    (hba : ¬ upper int b <+: upper int a) : (iequals int a b).equal = some false ∧
      (iequals int a b).read ≤ a.length ∧ (iequals int a b).read ≤ b.length := by
  have h : (iequals int a b).equal = some false ∧ (iequals int a b).read ≤ (a.map int).length ∧
      (iequals int a b).read ≤ (b.map int).length := equalRange_of_not_prefix hab hba
  rw [List.length_map, List.length_map] at h
  exact h

theorem iequalsRight_of_eq (h : upper int a = upper int b) : IequalsRight int a b := by
  have hlen : a.length = b.length := by rw [← length_upper int a, h, length_upper]
  have hab : iequals int a b = ⟨some true, a.length⟩ :=
    iequals_of_isPrefix (h ▸ List.prefix_refl _)
  have hba : iequals int b a = ⟨some true, b.length⟩ :=
    iequals_of_isPrefix (h ▸ List.prefix_refl _)
  constructor
  · rw [hab, decide_eq_true h]
  · rw [hab]
    exact ⟨le_rfl, hlen.le⟩
  · rw [hab, hba]

theorem iequalsRight_of_not_prefix (hab : ¬ upper int a <+: upper int b)
    (hba : ¬ upper int b <+: upper int a) : IequalsRight int a b := by
  have hne : upper int a ≠ upper int b := by
    intro heq
    exact hab (heq ▸ List.prefix_refl _)
  obtain ⟨hequal, hinside⟩ := iequals_of_not_isPrefix hab hba
  constructor
  · rw [hequal, decide_eq_false hne]
  · exact hinside
  · rw [hequal, (iequals_of_not_isPrefix hba hab).1]

theorem iequalsRight_iff (int : α → ℤ) (a b : List α) : IequalsRight int a b ↔
    ¬ ProperPrefix (upper int a) (upper int b) ∧ ¬ ProperPrefix (upper int b) (upper int a) := by
  constructor
  · intro h
    refine ⟨?_, ?_⟩
    · rintro ⟨hleads, hne⟩
      have hequal := h.equal
      rw [iequals_of_isPrefix hleads, decide_eq_false hne] at hequal
      cases hequal
    · intro hproper
      have hlen := hproper.length_lt
      rw [length_upper, length_upper] at hlen
      have hread : (iequals int a b).read = b.length + 1 := by
        have hmap : (b.map int).length < (a.map int).length := by
          rw [List.length_map, List.length_map]
          exact hlen
        rw [iequals, read_of_shorter hproper.1 hmap, List.length_map]
      have hinside := h.inside.2
      omega
  · rintro ⟨hab, hba⟩
    by_cases heq : upper int a = upper int b
    · exact iequalsRight_of_eq heq
    · apply iequalsRight_of_not_prefix
      · exact fun hleads => hab ⟨hleads, heq⟩
      · exact fun hleads => hba ⟨hleads, Ne.symm heq⟩

structure AsciiText where
  chars : List UInt8
  ascii : ∀ c ∈ chars, 0 < c ∧ c < 128

namespace AsciiText

def wide (text : AsciiText) : WStr := text.chars.map (·.toUInt16)

end AsciiText

def SeveritiesAgree (text : AsciiText) : Prop :=
  ∃ severity, strToSeverityString text.chars = some severity ∧
    strToSeverityWString text.wide = some severity ∧
      strToSeverityChars text.chars = some severity ∧
        strToSeverity text.wide = severity

theorem severityOf_congr {p q : String → Option Bool} {l : List (String × String)}
    (h : ∀ w ∈ l, p w.1 = q w.1) : severityOf p l = severityOf q l := by
  induction l with
  | nil => rfl
  | cons w l ih =>
    obtain ⟨hw, hl⟩ := List.forall_mem_cons.mp h
    rw [severityOf, severityOf, hw, ih hl]

theorem severityOf_eq_unknown_iff {p : String → Bool} {l : List (String × String)}
    (h : ∀ w ∈ l, wcs w.2 ≠ wcs "Unknown") :
    severityOf (fun word => some (p word)) l = some (wcs "Unknown") ↔ ∀ w ∈ l, p w.1 = false := by
  induction l with
  | nil => exact iff_of_true rfl (List.forall_mem_nil _)
  | cons w l ih =>
    obtain ⟨hw, hl⟩ := List.forall_mem_cons.mp h
    rw [List.forall_mem_cons, ← ih hl]
    cases hp : p w.1 with
    | false => simp [severityOf, hp]
    | true => simp [severityOf, hp, hw]

theorem tolower_eq_iff (c d : ℤ) : tolower c = tolower d ↔ toupper c = toupper d := by
  unfold tolower toupper
  split_ifs <;> omega

theorem map_tolower_eq_iff {s t : List α} :
    s.map (tolower ∘ int) = t.map (tolower ∘ int) ↔ upper int s = upper int t := by
  rw [upper, upper, List.map_map, List.map_map]
  induction s generalizing t with
  | nil => cases t <;> simp
  | cons c s ih =>
    cases t with
    | nil => simp
    | cons d t =>
      simp only [List.map_cons, List.cons.injEq, ih, Function.comp_apply, tolower_eq_iff]

theorem stricmpEq_eq (s t : List α) :
    stricmpEq int s t = decide (upper int s = upper int t) := by
  rw [stricmpEq, Bool.eq_iff_iff, beq_iff_eq, decide_eq_true_eq, map_tolower_eq_iff]

theorem ofWChar_injective : Function.Injective ofWChar := by
  intro c d h
  exact UInt16.toNat_inj.mp (Int.ofNat_inj.mp h)

theorem ofWChar_toLower (c : WChar) : ofWChar (toLower c) = tolower (ofWChar c) := by
  have hlt := c.toNat_lt
  rw [toLower, tolower, ofWChar, ofWChar]
  simp only [Bool.and_eq_true, decide_eq_true_eq, UInt16.le_iff_toNat_le, UInt16.reduceToNat]
  split_ifs with hupper hint hint
  · have hsum : (c + 0x20).toNat = c.toNat + 0x20 := by
      rw [UInt16.toNat_add]
      exact Nat.mod_eq_of_lt (show c.toNat + 0x20 < 2 ^ 16 by omega)
    rw [hsum, Nat.cast_add, Nat.cast_ofNat]
  · omega
  · omega
  · rfl

theorem wcsicmpEq_eq (s t : WStr) : wcsicmpEq s t = stricmpEq ofWChar s t := by
  have hmap : ∀ s : WStr, (s.map toLower).map ofWChar = s.map (tolower ∘ ofWChar) := by
    intro s
    rw [List.map_map]
    exact List.map_congr_left fun c _ => ofWChar_toLower c
  rw [wcsicmpEq, stricmpEq, Bool.eq_iff_iff, beq_iff_eq, beq_iff_eq, ← hmap, ← hmap,
    (List.map_injective_iff.mpr ofWChar_injective).eq_iff]

theorem ofWChar_toUpper (c : WChar) : ofWChar (toUpper c) = toupper (ofWChar c) := by
  have hlt := c.toNat_lt
  rw [toUpper, toupper, ofWChar, ofWChar]
  simp only [Bool.and_eq_true, decide_eq_true_eq, UInt16.le_iff_toNat_le, UInt16.reduceToNat]
  split_ifs with hlower hint hint
  · have hle : (0x20 : UInt16) ≤ c := by
      rw [UInt16.le_iff_toNat_le]
      exact le_trans (by decide) hlower.1
    rw [UInt16.toNat_sub_of_le _ _ hle]
    exact Nat.cast_sub (UInt16.le_iff_toNat_le.mp hle)
  · omega
  · omega
  · rfl

theorem toupper_pos {c : ℤ} (h : 0 < c) : toupper c ≠ toupper 0 := by
  unfold toupper
  split_ifs <;> omega

theorem iequals_eq {s t : WStr} (hs : 0 ∉ s) :
    (iequals ofWChar s t).equal = some (TrapHandler.iequals s t) := by
  have hne : ∀ c ∈ s.map ofWChar, toupper c ≠ toupper 0 := by
    intro c hc
    obtain ⟨d, hd, rfl⟩ := List.mem_map.mp hc
    have hzero : d ≠ 0 := fun h => hs (h ▸ hd)
    have hpos : 0 < d.toNat := Nat.pos_of_ne_zero fun h => hzero (UInt16.toNat_inj.mp h)
    exact toupper_pos (Int.natCast_pos.mpr hpos)
  rw [iequals, equal_eq_isPrefixOf hne]
  clear hne
  induction s generalizing t with
  | nil => rfl
  | cons c s ih =>
    rw [List.mem_cons, not_or] at hs
    cases t with
    | nil => rfl
    | cons d t =>
      have hkey : (toupper (ofWChar c) == toupper (ofWChar d)) = (toUpper c == toUpper d) := by
        rw [← ofWChar_toUpper, ← ofWChar_toUpper, Bool.eq_iff_iff, beq_iff_eq, beq_iff_eq,
          ofWChar_injective.eq_iff]
      rw [TrapHandler.iequals, ← hkey]
      exact congrArg (fun rest => some (_ && rest)) (Option.some.inj (ih hs.2))

theorem ofChar_of_lt {c : UInt8} (h : c < 128) : ofChar c = c.toNat := by
  have all : ∀ n : Fin 128, ofChar (UInt8.ofNat n) = (UInt8.ofNat n).toNat := by decide
  have hc := all ⟨c.toNat, h⟩
  rwa [UInt8.ofNat_toNat] at hc

theorem upper_wcs {w : String × String} (h : w ∈ severities) :
    upper ofWChar (wcs w.1) = upper ofChar (str w.1) := by
  revert w
  decide +kernel

namespace AsciiText

variable (text : AsciiText)

def upper : List ℤ := Utils.upper ofChar text.chars

theorem map_ofWChar : text.wide.map ofWChar = text.chars.map ofChar := by
  rw [wide, List.map_map]
  apply List.map_congr_left
  intro c hc
  rw [ofChar_of_lt (text.ascii c hc).2, Function.comp_apply, ofWChar, UInt8.toNat_toUInt16]

theorem upper_wide : Utils.upper ofWChar text.wide = text.upper := by
  rw [upper, Utils.upper, Utils.upper, map_ofWChar]

theorem toupper_ne {c : ℤ} (h : c ∈ text.chars.map ofChar) : toupper c ≠ toupper 0 := by
  obtain ⟨d, hd, rfl⟩ := List.mem_map.mp h
  obtain ⟨hpos, hlt⟩ := text.ascii d hd
  apply toupper_pos
  rw [ofChar_of_lt hlt]
  exact Int.natCast_pos.mpr (UInt8.lt_iff_toNat_lt.mp hpos)

/-- The result of the chain of `iequals`. -/
def severityByPrefix : Option WStr :=
  severityOf (fun word => some (text.upper.isPrefixOf (Utils.upper ofChar (str word)))) severities

/-- The result of the chain of `_stricmp`. -/
def severityByWord : Option WStr :=
  severityOf (fun word => some (decide (text.upper = Utils.upper ofChar (str word)))) severities

theorem strToSeverityString_eq : strToSeverityString text.chars = text.severityByPrefix := by
  apply severityOf_congr
  intro w _
  exact equal_eq_isPrefixOf fun c hc => text.toupper_ne hc

theorem strToSeverityWString_eq : strToSeverityWString text.wide = text.severityByPrefix := by
  apply severityOf_congr
  intro w hw
  have hne : ∀ c ∈ text.wide.map ofWChar, toupper c ≠ toupper 0 := by
    rw [map_ofWChar]
    exact fun c hc => text.toupper_ne hc
  rw [← upper_wcs hw, ← upper_wide]
  exact equal_eq_isPrefixOf hne

theorem strToSeverityChars_eq : strToSeverityChars text.chars = text.severityByWord := by
  apply severityOf_congr
  intro w _
  rw [stricmpEq_eq]
  rfl

theorem strToSeverityWChars_eq : strToSeverityWChars text.wide = text.severityByWord := by
  apply severityOf_congr
  intro w hw
  rw [wcsicmpEq_eq, stricmpEq_eq, upper_wide, upper_wcs hw]

theorem severitiesAgree_iff_eq :
    SeveritiesAgree text ↔ text.severityByPrefix = text.severityByWord := by
  have hwide : some (strToSeverity text.wide) = text.severityByWord := by
    rw [← Utils.strToSeverityWChars_eq, strToSeverityWChars_eq]
  rw [SeveritiesAgree, strToSeverityString_eq, strToSeverityWString_eq, strToSeverityChars_eq,
    ← hwide]
  constructor
  · rintro ⟨severity, hleads, _, _, rfl⟩
    exact hleads
  · intro h
    exact ⟨_, h, h, rfl, rfl⟩

theorem ne_of_properPrefix {w v : String × String} (hw : w ∈ severities) (hv : v ∈ severities)
    (h : ProperPrefix text.upper (Utils.upper ofChar (str w.1))) :
    text.upper ≠ Utils.upper ofChar (str v.1) := by
  have words : ∀ w ∈ severities, ∀ v ∈ severities,
      Utils.upper ofChar (str v.1) <+: Utils.upper ofChar (str w.1) → w = v := by decide +kernel
  intro heq
  rw [heq] at h
  obtain rfl := words w hw v hv h.1
  exact h.2 rfl

theorem severitiesAgree_iff : SeveritiesAgree text ↔
    ∀ w ∈ severities, ¬ ProperPrefix text.upper (Utils.upper ofChar (str w.1)) := by
  have hknown : ∀ w ∈ severities, wcs w.2 ≠ wcs "Unknown" := by decide +kernel
  rw [severitiesAgree_iff_eq]
  constructor
  · intro h w hw hproper
    have hword : text.severityByWord = some (wcs "Unknown") := by
      rw [severityByWord, severityOf_eq_unknown_iff hknown]
      intro v hv
      exact decide_eq_false (text.ne_of_properPrefix hw hv hproper)
    rw [hword, severityByPrefix, severityOf_eq_unknown_iff hknown] at h
    have hfalse := h w hw
    rw [List.isPrefixOf_iff_prefix.mpr hproper.1] at hfalse
    cases hfalse
  · intro h
    apply severityOf_congr
    intro w hw
    rw [Option.some.injEq, Bool.eq_iff_iff, List.isPrefixOf_iff_prefix, decide_eq_true_eq]
    constructor
    · intro hleads
      by_contra hne
      exact h w hw ⟨hleads, hne⟩
    · intro heq
      rw [heq]

end AsciiText

/-- The comparison is right exactly for strings of which none is a proper prefix of the other, and
the overloads of `str_to_severity` agree exactly on the texts that are no proper prefix of a word. -/
theorem iequals_and_severities {α : Type} (int : α → ℤ) (a b : List α) (text : AsciiText) :
    (IequalsRight int a b ↔ ¬ ProperPrefix (upper int a) (upper int b) ∧
      ¬ ProperPrefix (upper int b) (upper int a)) ∧
      (SeveritiesAgree text ↔
        ∀ w ∈ severities, ¬ ProperPrefix text.upper (upper ofChar (str w.1))) := by
  constructor
  · exact iequalsRight_iff int a b
  · exact text.severitiesAgree_iff

def noText : AsciiText where
  chars := []
  ascii := by
    intro c hc
    cases hc

/-- An empty string equals every other one and is critical in two of the overloads. -/
theorem empty_equals_everything :
    ¬ IequalsRight ofWChar (wcs "") (wcs "x") ∧ ¬ SeveritiesAgree noText := by
  constructor
  · intro h
    have hequal := h.equal
    have hfalse : ¬ upper ofWChar (wcs "") = upper ofWChar (wcs "x") := by decide
    rw [decide_eq_false hfalse] at hequal
    cases hequal
  · intro h
    have hcritical : noText.severityByPrefix = some (wcs "Critical") := rfl
    have hunknown : noText.severityByWord = some (wcs "Unknown") := by decide
    rw [AsciiText.severitiesAgree_iff_eq, hcritical, hunknown] at h
    revert h
    decide

end TrapHandler.Utils
