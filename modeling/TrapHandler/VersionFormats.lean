import TrapHandler.VersionBounds

/-!
# Version strings in their formats

A version string that is put together from its components is taken apart into the same components in
the Windows and in the HP-UX format. In the Linux format the backward scan for the architecture stops
on the blank in front of it, so the architecture that is returned starts with a blank.
-/

namespace TrapHandler.ParsedVersion

open Scanners

def Word (s : WStr) : Prop := ∀ c ∈ s, isBlank c = false

theorem word_iff {s : WStr} : Word s ↔ s.all (!isBlank ·) = true := by
  simp only [Word, List.all_eq_true, Bool.not_eq_true']

instance (s : WStr) : Decidable (Word s) := decidable_of_iff _ word_iff.symm

theorem Word.blank_notMem {s : WStr} (h : Word s) : 0x20 ∉ s := by
  intro hmem
  exact absurd (h _ hmem) (by decide)

theorem stops_isDigit {lit : WStr} (h : Separates lit) (rest : WStr) :
    Stops isDigit (lit ++ rest) := by
  obtain ⟨c, lit, rfl, _, hdigit, _⟩ := h
  exact stops_cons hdigit

structure WindowsVersion where
  major : UInt32
  minor : UInt32
  build : WStr
  servicePack : Option UInt32
  architecture : WStr
  gap : WStr
  description : WStr
  build_ne : build ≠ []
  build_digits : ∀ c ∈ build, isDigit c = true
  architecture_ne : architecture ≠ []
  architecture_word : Word architecture
  gap_ne : gap ≠ []
  gap_blank : ∀ c ∈ gap, isBlank c = true
  description_starts : Stops isBlank description

namespace WindowsVersion

variable (v : WindowsVersion)

def servicePackText : WStr :=
  match v.servicePack with
  | none => wcs ",No Service Pack-"
  | some spLevel => wcs ",Service Pack " ++ (decimal spLevel.toNat ++ wcs "-")

def text : WStr :=
  wcs "MSWin:" ++ (decimal v.major.toNat ++ (wcs "." ++ (decimal v.minor.toNat ++ (wcs ",BUILD:" ++
    (v.build ++ (v.servicePackText ++ (v.architecture ++ (v.gap ++ v.description))))))))

def parsed : ParsedVersion where
  returned := some v.description
  verMajor := v.major
  verMinor := v.minor
  build := v.build
  spLevel := v.servicePack.getD 0
  architecture := v.architecture

theorem separates_servicePackText : Separates v.servicePackText := by
  rw [servicePackText]
  cases v.servicePack with
  | none => exact separates_comma rfl
  | some spLevel => exact separates_comma rfl

theorem parseServicePack_text (rest : WStr) :
    parseServicePack (v.servicePackText ++ rest) = some (some (v.servicePack.getD 0, rest)) := by
  rw [servicePackText]
  cases v.servicePack with
  | none =>
    have hpack : (wcs ",Service Pack ").isPrefixOf (wcs ",No Service Pack-" ++ rest) = false := rfl
    have hnone : (wcs ",No Service Pack").isPrefixOf (wcs ",No Service Pack-" ++ rest) = true := rfl
    have hlen : (wcs ",No Service Pack-").length = 17 := rfl
    simp only [parseServicePack, hpack, hnone, advance_append hlen, Bool.false_eq_true, if_false,
      if_true, Option.map_some, Option.getD_none]
  | some spLevel =>
    have hpack : (wcs ",Service Pack ").isPrefixOf
        (wcs ",Service Pack " ++ (decimal spLevel.toNat ++ (wcs "-" ++ rest))) = true :=
      List.isPrefixOf_iff_prefix.mpr (List.prefix_append _ _)
    have hdrop : (wcs ",Service Pack " ++ (decimal spLevel.toNat ++ (wcs "-" ++ rest))).drop 14 =
      decimal spLevel.toNat ++ (wcs "-" ++ rest) := rfl
    have hnumber : wcstoul (decimal spLevel.toNat ++ (wcs "-" ++ rest)) =
      (spLevel, wcs "-" ++ rest) := wcstoul_decimal spLevel (stops_cons rfl)
    have hminus : 0x2D ∈ wcs "-" ++ rest := List.mem_cons_self
    rw [List.append_assoc, List.append_assoc]
    simp only [parseServicePack, hpack, hdrop, hnumber, hminus, if_true, Option.getD_some]
    rfl

theorem snd_wcstoul_build {rest : WStr} (hrest : Stops isDigit rest) :
    (wcstoul (v.build ++ rest)).2 = rest := by
  refine snd_wcstoul_numeral ?_ hrest
  exact ⟨[], [], v.build, rfl, List.forall_mem_nil _, Or.inl rfl, v.build_ne, v.build_digits⟩

theorem parseVersionString_text : parseVersionString v.text = some v.parsed := by
  have hword : ∀ c ∈ v.architecture, (!isBlank c) = true := by
    intro c hc
    rw [v.architecture_word c hc, Bool.not_false]
  have hgap : Stops (!isBlank ·) (v.gap ++ v.description) := by
    obtain ⟨c, gap, hcons⟩ := List.exists_cons_of_ne_nil v.gap_ne
    rw [hcons]
    apply stops_cons
    rw [v.gap_blank c (hcons ▸ List.mem_cons_self), Bool.not_true]
  have hne : v.architecture ++ (v.gap ++ v.description) ≠ [] :=
    List.append_ne_nil_of_left_ne_nil v.architecture_ne _
  rw [text, parseVersionString_windows,
    parseWindows_eq (wcstoul_decimal v.major (stops_isDigit separates_dot _))
      (wcstoul_decimal v.minor (stops_isDigit (separates_comma rfl) _))
      (v.snd_wcstoul_build (stops_isDigit v.separates_servicePackText _)),
    parseServicePack_text, upTo_append, Option.bind_some, parsed]
  simp only [if_neg hne, takeWhile_append_stops hword hgap, dropWhile_append_stops hword hgap,
    dropWhile_append_stops v.gap_blank v.description_starts]

end WindowsVersion

structure HpuxVersion where
  host : WStr
  major : UInt32
  minor : UInt32
  architecture : WStr
  rest : WStr
  host_word : Word host
  architecture_ne : architecture ≠ []
  architecture_word : Word architecture

namespace HpuxVersion

variable (v : HpuxVersion)

def text : WStr :=
  wcs "HP-UX " ++ (v.host ++ (wcs " " ++ (wcs "B." ++ (decimal v.major.toNat ++ (wcs "." ++
    (decimal v.minor.toNat ++ (wcs " " ++ (wcs "U " ++ (v.architecture ++
      (wcs " " ++ v.rest))))))))))

def parsed : ParsedVersion where
  returned := some v.text
  verMajor := v.major
  verMinor := v.minor
  build := []
  spLevel := 0
  architecture := v.architecture

theorem parseVersionString_text : parseVersionString v.text = some v.parsed := by
  have hword : ∀ c ∈ v.architecture, decide (c ≠ 0x20) = true := by
    intro c hc
    exact decide_eq_true (ne_of_mem_of_not_mem hc v.architecture_word.blank_notMem)
  have hrest : Stops (fun c : WChar => decide (c ≠ 0x20)) (wcs " " ++ v.rest) := stops_cons rfl
  have hadvance : advance 3 (wcs " " ++ (wcs "U " ++ (v.architecture ++ (wcs " " ++ v.rest)))) =
      some (v.architecture ++ (wcs " " ++ v.rest)) := by
    have hlen : (wcs " " ++ wcs "U ").length = 3 := rfl
    rw [← List.append_assoc]
    exact advance_append hlen _
  rw [parsed, text, parseVersionString_hpux,
    parseHpux_eq (skipWord_append v.host_word.blank_notMem _) rfl
      (wcstoul_decimal v.major (stops_isDigit separates_dot _))
      (wcstoul_decimal v.minor (stops_cons rfl)), hadvance, Option.bind_some,
    takeWhile_append_stops hword hrest]

end HpuxVersion

/-- The components of a Windows and of an HP-UX version are those it was put together from. -/
theorem parseVersionString_formats :
    (∀ v : WindowsVersion, parseVersionString v.text = some v.parsed) ∧
      ∀ v : HpuxVersion, parseVersionString v.text = some v.parsed := by
  constructor
  · intro v
    exact v.parseVersionString_text
  · intro v
    exact v.parseVersionString_text

theorem words_of_samples : Word (wcs "x32") ∧ Word (wcs "ux2b") ∧ Word (wcs "9000/800") := by
  decide

theorem buildDigits_of_sample : ∀ c ∈ wcs "3790", isDigit c = true :=
  List.all_eq_true.mp rfl

def server2003 : WindowsVersion where
  major := 5
  minor := 2
  build := wcs "3790"
  servicePack := some 2
  architecture := wcs "x32"
  gap := wcs " "
  description := wcs "Microsoft Windows Server 2003 R2, Enterprise Edition"
  build_ne := List.cons_ne_nil _ _
  build_digits := buildDigits_of_sample
  architecture_ne := List.cons_ne_nil _ _
  architecture_word := words_of_samples.1
  gap_ne := List.cons_ne_nil _ _
  gap_blank := List.forall_mem_singleton.mpr rfl
  description_starts := stops_cons rfl

def ux2b : HpuxVersion where
  host := wcs "ux2b"
  major := 11
  minor := 11
  architecture := wcs "9000/800"
  rest := wcs "2056945439 unlimited-user license"
  host_word := words_of_samples.2.1
  architecture_ne := List.cons_ne_nil _ _
  architecture_word := words_of_samples.2.2

theorem parseVersionString_samples :
    parseVersionString (wcs ("MSWin:5.2,BUILD:3790,Service Pack 2-x32 " ++
        "Microsoft Windows Server 2003 R2, Enterprise Edition")) = some server2003.parsed ∧
      parseVersionString (wcs "HP-UX ux2b B.11.11 U 9000/800 2056945439 unlimited-user license") =
        some ux2b.parsed := by
  have hwindows : server2003.text = wcs ("MSWin:5.2,BUILD:3790,Service Pack 2-x32 " ++
      "Microsoft Windows Server 2003 R2, Enterprise Edition") := by decide
  have hhpux : ux2b.text =
      wcs "HP-UX ux2b B.11.11 U 9000/800 2056945439 unlimited-user license" := by decide
  rw [← hwindows, ← hhpux]
  exact ⟨parseVersionString_formats.1 server2003, parseVersionString_formats.2 ux2b⟩

section Blanks

variable {g r s t architecture : WStr}

theorem prefix_of_prefix_blank (hg : 0x20 ∉ g) (h : g <+: t ++ 0x20 :: r) : g <+: t := by
  rcases List.prefix_or_prefix_of_prefix h (List.prefix_append t _) with hgt | htg
  · exact hgt
  · obtain ⟨u, rfl⟩ := htg
    rw [List.prefix_append_right_inj] at h
    cases u with
    | nil =>
      rw [List.append_nil]
    | cons c u =>
      rw [List.cons_prefix_cons] at h
      exact absurd (h.1 ▸ List.mem_append_right t List.mem_cons_self) hg

theorem wcsstr_append_blank (hg : 0x20 ∉ g) (hs : ¬ 0x20 :: g <:+: s) :
    wcsstr (0x20 :: g) (s ++ 0x20 :: g) = some (0x20 :: g) := by
  induction s with
  | nil =>
    rw [List.nil_append, wcsstr, if_pos (List.isPrefixOf_iff_prefix.mpr (List.prefix_refl _))]
  | cons c s ih =>
    rw [List.infix_cons_iff, not_or] at hs
    rw [List.cons_append, wcsstr, if_neg, ih hs.2]
    intro hleads
    rw [List.isPrefixOf_iff_prefix, List.cons_prefix_cons] at hleads
    exact hs.1 (List.cons_prefix_cons.mpr
      ⟨hleads.1, prefix_of_prefix_blank hg hleads.2⟩)

theorem infix_append_blank (hg : 0x20 ∉ g) (harchitecture : 0x20 ∉ architecture)
    (h : 0x20 :: g <:+: s ++ 0x20 :: architecture) :
    0x20 :: g <:+: s ∨ g <+: architecture := by
  induction s with
  | nil =>
    rw [List.nil_append, List.infix_cons_iff, List.cons_prefix_cons] at h
    rcases h with ⟨_, hleads⟩ | hpart
    · exact Or.inr hleads
    · exact absurd (hpart.subset List.mem_cons_self) harchitecture
  | cons c s ih =>
    rw [List.cons_append, List.infix_cons_iff, List.cons_prefix_cons] at h
    rcases h with ⟨rfl, hleads⟩ | hpart
    · exact Or.inl (List.cons_prefix_cons.mpr
        ⟨rfl, prefix_of_prefix_blank hg hleads⟩).isInfix
    · rcases ih hpart with hfront | hword
      · exact Or.inl (hfront.trans (List.suffix_cons c s).isInfix)
      · exact Or.inr hword

theorem lastWord_append (h : 0x20 ∉ architecture) (s : WStr) :
    lastWord (s ++ 0x20 :: architecture) = architecture := by
  have hword : ∀ c ∈ architecture.reverse, decide (c ≠ 0x20) = true := by
    intro c hc
    exact decide_eq_true (ne_of_mem_of_not_mem (List.mem_reverse.mp hc) h)
  have hstops : Stops (fun c : WChar => decide (c ≠ 0x20)) (0x20 :: s.reverse) := stops_cons rfl
  rw [lastWord, List.reverse_append, List.reverse_cons, List.append_assoc,
    List.singleton_append, takeWhile_append_stops hword hstops, List.reverse_reverse]

end Blanks

structure LinuxVersion where
  host : WStr
  major : UInt32
  minor : UInt32
  build : WStr
  middle : WStr
  architecture : WStr
  host_ne : host ≠ []
  host_word : Word host
  build_ne : build ≠ []
  build_word : Word build
  middle_free : ¬ wcs " GNU/Linux" <:+: middle
  architecture_ne : architecture ≠ []
  architecture_word : Word architecture

namespace LinuxVersion

variable (v : LinuxVersion)

def system : WStr :=
  wcs "#" ++ (v.middle ++ (wcs " " ++ (v.architecture ++ wcs " GNU/Linux")))

def text : WStr :=
  wcs "Linux " ++ (v.host ++ (wcs " " ++ (decimal v.major.toNat ++ (wcs "." ++
    (decimal v.minor.toNat ++ (wcs "." ++ (v.build ++ (wcs " " ++ v.system))))))))

/-- The result has exactly the components of the version and no service pack. -/
def ReturnsComponents : Prop :=
  ∃ parsed, parseVersionString v.text = some parsed ∧ parsed.verMajor = v.major ∧
    parsed.verMinor = v.minor ∧ parsed.build = v.build ∧ parsed.architecture = v.architecture ∧
      parsed.spLevel = 0

/-- For a search that ends at `pEndStr`, the architecture is the word in front of that with the blank
before it. -/
theorem parseVersionString_text {pEndStr : WStr}
    (hfind : wcsstr (wcs " GNU/Linux") v.system = some pEndStr) :
    parseVersionString v.text = some {
      returned := some v.text
      verMajor := v.major
      verMinor := v.minor
      build := v.build
      spLevel := 0
      architecture := 0x20 :: lastWord (upTo v.text pEndStr) } := by
  have hrest : Stops (!isBlank ·) (wcs " " ++ v.system) := stops_cons rfl
  have hsuffix := suffix_behind_build v.host (decimal v.major.toNat) (decimal v.minor.toNat) v.build
    (wcs " " ++ v.system)
  have hne : v.build ++ (wcs " " ++ v.system) ≠ [] :=
    List.append_ne_nil_of_left_ne_nil v.build_ne _
  have hlen : (wcs " ").length = 1 := rfl
  have hmark : ¬ v.system.head? ≠ some 0x23 := fun h => h rfl
  rw [text, parseVersionString_linux, parseLinux_eq (skipWord_append v.host_word.blank_notMem _)
    (wcstoul_decimal v.major (stops_isDigit separates_dot _))
    (wcstoul_decimal v.minor (stops_isDigit separates_dot _)) v.build_word hrest hsuffix,
    if_neg hne, advance_append hlen, Option.bind_some, if_neg hmark, hfind, Option.bind_some]

theorem wcsstr_system (h : ¬ wcs "GNU/Linux" <+: v.architecture) :
    wcsstr (wcs " GNU/Linux") v.system = some (wcs " GNU/Linux") := by
  have hg : (0x20 : WChar) ∉ wcs "GNU/Linux" := by decide
  have hassoc : v.system = (wcs "#" ++ v.middle ++ 0x20 :: v.architecture) ++
      0x20 :: wcs "GNU/Linux" := by
    rw [List.append_assoc, List.append_assoc]
    rfl
  have hfree : ¬ 0x20 :: wcs "GNU/Linux" <:+: wcs "#" ++ v.middle ++ 0x20 :: v.architecture := by
    intro hpart
    rcases infix_append_blank hg v.architecture_word.blank_notMem hpart with hfront | hword
    · rcases List.infix_cons_iff.mp hfront with hleads | hmiddle
      · exact absurd (List.cons_prefix_cons.mp hleads).1 (by decide)
      · exact v.middle_free hmiddle
    · exact h hword
  rw [hassoc]
  exact wcsstr_append_blank hg hfree

/-- What is returned for a version whose architecture does not start with the word searched for. -/
theorem architecture_of_text (h : ¬ wcs "GNU/Linux" <+: v.architecture) :
    parseVersionString v.text = some {
      returned := some v.text
      verMajor := v.major
      verMinor := v.minor
      build := v.build
      spLevel := 0
      architecture := 0x20 :: v.architecture } := by
  have hassoc : v.text = (wcs "Linux " ++ v.host ++ wcs " " ++ decimal v.major.toNat ++ wcs "." ++
      decimal v.minor.toNat ++ wcs "." ++ v.build ++ wcs " " ++ wcs "#" ++ v.middle ++
      0x20 :: v.architecture) ++ wcs " GNU/Linux" := by
    simp only [text, system, List.append_assoc, List.cons_append]
    rfl
  have hfront := upTo_append (wcs "Linux " ++ v.host ++ wcs " " ++ decimal v.major.toNat ++
    wcs "." ++ decimal v.minor.toNat ++ wcs "." ++ v.build ++ wcs " " ++ wcs "#" ++ v.middle ++
    0x20 :: v.architecture) (wcs " GNU/Linux")
  rw [← hassoc] at hfront
  rw [v.parseVersionString_text (v.wcsstr_system h), hfront,
    lastWord_append v.architecture_word.blank_notMem]

theorem system_found : wcs " GNU/Linux" <:+: v.system := by
  refine ⟨wcs "#" ++ v.middle ++ wcs " " ++ v.architecture, [], ?_⟩
  simp only [system, List.append_assoc, List.append_nil]

/-- A word has no blank in front. -/
theorem not_returnsComponents : ¬ v.ReturnsComponents := by
  rintro ⟨parsed, hparsed, _, _, _, harchitecture, _⟩
  cases hfind : wcsstr (wcs " GNU/Linux") v.system with
  | none => exact (wcsstr_eq_none_iff _).mp hfind v.system_found
  | some pEndStr =>
    rw [v.parseVersionString_text hfind, Option.some.injEq] at hparsed
    rw [← hparsed] at harchitecture
    apply v.architecture_word.blank_notMem
    rw [← harchitecture]
    exact List.mem_cons_self

def ubuntu : LinuxVersion where
  host := wcs "osi1155"
  major := 2
  minor := 6
  build := wcs "31-14-generic-pae"
  middle := wcs "48-Ubuntu SMP Fri Oct 16 15:22:42 UTC 2009"
  architecture := wcs "i686"
  host_ne := by decide
  host_word := by decide
  build_ne := by decide
  build_word := by decide
  middle_free := by decide +kernel
  architecture_ne := by decide
  architecture_word := by decide

/-- For "i686" the architecture that is returned is " i686". -/
theorem ubuntu_not_returnsComponents : ¬ ubuntu.ReturnsComponents := by
  have hword : ¬ wcs "GNU/Linux" <+: ubuntu.architecture := by decide
  have hblank : (0x20 :: ubuntu.architecture : WStr) ≠ ubuntu.architecture := by decide
  rintro ⟨parsed, hparsed, _, _, _, harchitecture, _⟩
  rw [ubuntu.architecture_of_text hword, Option.some.injEq] at hparsed
  rw [← hparsed] at harchitecture
  exact hblank harchitecture

end LinuxVersion

end TrapHandler.ParsedVersion
