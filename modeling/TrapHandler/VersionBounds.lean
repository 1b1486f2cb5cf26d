import TrapHandler.VersionScans

/-!
# Version strings that are read beyond their end

The scanners of `ParseVersionString` skip characters without looking at them: the one behind
"No Service Pack", the blank behind the build, the prefix of an HP-UX version. They search for a blank
and for " GNU/Linux" and go on from there whether or not it was found. On all other strings the
function stays inside the string, and its result is a position in it or the cleared error result.
-/

namespace TrapHandler.ParsedVersion

open Scanners

inductive Overruns : WStr → Prop
  | windowsServicePack {major minor build : WStr} : Number major → Number minor → Number build →
      Overruns (wcs "MSWin:" ++ (major ++ (wcs "." ++ (minor ++ (wcs ",BUILD:" ++
        (build ++ wcs ",No Service Pack"))))))
  | linuxHost {host : WStr} : 0x20 ∉ host → Overruns (wcs "Linux " ++ host)
  | linuxBuild {host major minor build : WStr} : 0x20 ∉ host → Number major → Number minor →
      build ≠ [] → (∀ c ∈ build, isBlank c = false) →
      Overruns (wcs "Linux " ++ (host ++ (wcs " " ++ (major ++ (wcs "." ++ (minor ++ (wcs "." ++
        build)))))))
  | linuxSystem {host major minor build rest : WStr} {blank : WChar} : 0x20 ∉ host →
      Number major → Number minor → (∀ c ∈ build, isBlank c = false) → isBlank blank = true →
      ¬ wcs " GNU/Linux" <:+: wcs "#" ++ rest →
      Overruns (wcs "Linux " ++ (host ++ (wcs " " ++ (major ++ (wcs "." ++ (minor ++ (wcs "." ++
        (build ++ blank :: (wcs "#" ++ rest)))))))))
  | hpuxHost {host : WStr} : 0x20 ∉ host → Overruns (wcs "HP-UX " ++ host)
  | hpuxVersion {host rest : WStr} : 0x20 ∉ host → rest.length < 2 →
      Overruns (wcs "HP-UX " ++ (host ++ (wcs " " ++ rest)))
  | hpuxArchitecture {host letter major minor rest : WStr} : 0x20 ∉ host → letter.length = 2 →
      Number major → Number minor → rest.length < 2 →
      (minor = [] → ∀ c ∈ rest, isDigit c = false) →
      Overruns (wcs "HP-UX " ++ (host ++ (wcs " " ++ (letter ++ (major ++ (wcs "." ++ (minor ++
        (wcs " " ++ rest))))))))

/-- Nothing is returned and all outputs are cleared, or a position in the string is returned. -/
def Sound (versionString : WStr) (parsed : ParsedVersion) : Prop :=
  parsed = errorExit ∨ ∃ pStr, parsed.returned = some pStr ∧ pStr <:+ versionString

/-- The function reads no character outside the string, and its result is sound. -/
def ParsesSafely (versionString : WStr) : Prop :=
  ∃ parsed, parseVersionString versionString = some parsed ∧ Sound versionString parsed

variable {tail r₀ r₁ r₂ r₃ : WStr} {verMajor verMinor : UInt32} {parsed : ParsedVersion}

theorem parseServicePack_eq_none_iff (s : WStr) :
    parseServicePack s = none ↔ s = wcs ",No Service Pack" := by
  simp only [parseServicePack]
  constructor
  · intro h
    split_ifs at h with hpack hminus hnone
    rw [Option.map_eq_none_iff] at h
    obtain ⟨rest, rfl⟩ := List.isPrefixOf_iff_prefix.mp hnone
    have hrest : rest.length < 1 := by
      by_contra hlen
      have hle : 17 ≤ (wcs ",No Service Pack" ++ rest).length := by
        rw [List.length_append]
        change 17 ≤ 16 + rest.length
        omega
      rw [advance, if_pos hle] at h
      cases h
    rw [List.length_eq_zero_iff.mp (Nat.lt_one_iff.mp hrest), List.append_nil]
  · rintro rfl
    decide

theorem parseWindows_eq (hmajor : wcstoul tail = (verMajor, wcs "." ++ r₁))
    (hminor : wcstoul r₁ = (verMinor, wcs ",BUILD:" ++ r₂)) (hbuild : (wcstoul r₂).2 = r₃) :
    parseWindows (wcs "MSWin:" ++ tail) = (parseServicePack r₃).bind fun
      | none => some errorExit
      | some (spLevel, pStr) =>
        if pStr = [] then some errorExit
        else some {
          returned := some ((pStr.dropWhile (!isBlank ·)).dropWhile isBlank)
          verMajor, verMinor
          build := upTo r₂ r₃
          spLevel
          architecture := pStr.takeWhile (!isBlank ·) } := by
  have hlit : (wcs ",BUILD:" ++ r₂).drop 7 = r₂ := rfl
  rcases hpack : parseServicePack r₃ with _ | _ | ⟨spLevel, pStr⟩ <;>
    simp only [parseWindows, drop_windows, hmajor, drop_dot, isPrefixOf_append, hminor, hlit,
      hbuild, hpack, Bool.not_true, Bool.false_eq_true, if_false, Option.bind_eq_bind,
      Option.pure_def, Option.bind_none, Option.bind_some]

/-- Without a dot behind the first number or the word behind the second one nothing is returned. -/
theorem parseWindows_of_not_prefix (hmajor : ¬ wcs "." <+: (wcstoul tail).2) :
    parseWindows (wcs "MSWin:" ++ tail) = some errorExit := by
  rw [← List.isPrefixOf_iff_prefix, Bool.not_eq_true] at hmajor
  simp only [parseWindows, drop_windows, hmajor, Bool.not_false, if_true, Option.pure_def]

theorem parseWindows_of_not_build (hmajor : wcstoul tail = (verMajor, wcs "." ++ r₁))
    (hminor : ¬ wcs ",BUILD:" <+: (wcstoul r₁).2) :
    parseWindows (wcs "MSWin:" ++ tail) = some errorExit := by
  rw [← List.isPrefixOf_iff_prefix, Bool.not_eq_true] at hminor
  simp only [parseWindows, drop_windows, hmajor, drop_dot, isPrefixOf_append, hminor, Bool.not_true,
    Bool.not_false, Bool.false_eq_true, if_false, if_true, Option.pure_def]

theorem suffix_of_parseServicePack {s pStr : WStr} {spLevel : UInt32}
    (h : parseServicePack s = some (some (spLevel, pStr))) : pStr <:+ s := by
  simp only [parseServicePack] at h
  split_ifs at h with hpack hminus hnone
  · rw [Option.some.injEq, Option.some.injEq, Prod.mk.injEq] at h
    obtain ⟨_, rfl⟩ := h
    exact (List.drop_suffix _ _).trans ((suffix_wcstoul _).trans (List.drop_suffix _ _))
  · cases Option.some.inj h
  · obtain ⟨pStr', hpStr, heq⟩ := Option.map_eq_some_iff.mp h
    rw [Option.some.injEq, Prod.mk.injEq] at heq
    obtain ⟨_, rfl⟩ := heq
    exact suffix_of_advance hpStr
  · cases Option.some.inj h

theorem parseWindows_safe (tail : WStr) :
    (∃ parsed, parseWindows (wcs "MSWin:" ++ tail) = some parsed ∧
      Sound (wcs "MSWin:" ++ tail) parsed) ∨
    parseWindows (wcs "MSWin:" ++ tail) = none ∧ Overruns (wcs "MSWin:" ++ tail) := by
  rcases exists_number_then (wcs ".") tail with hnot | ⟨major, r₁, hmajor, rfl, hr₁⟩
  · exact Or.inl ⟨errorExit, parseWindows_of_not_prefix hnot, Or.inl rfl⟩
  rcases exists_number_then (wcs ",BUILD:") r₁ with hnot | ⟨minor, r₂, hminor, rfl, hr₂⟩
  · exact Or.inl ⟨errorExit, parseWindows_of_not_build (Prod.ext rfl hr₁) hnot, Or.inl rfl⟩
  obtain ⟨build, hbuild, hr₃⟩ := exists_number r₂
  rw [parseWindows_eq (Prod.ext rfl hr₁) (Prod.ext rfl hr₂) rfl]
  cases hpack : parseServicePack (wcstoul r₂).2 with
  | none =>
    rw [(parseServicePack_eq_none_iff _).mp hpack] at hr₃
    rw [hr₃]
    exact Or.inr ⟨rfl, .windowsServicePack hmajor hminor hbuild⟩
  | some found =>
    left
    cases found with
    | none => exact ⟨errorExit, rfl, Or.inl rfl⟩
    | some found =>
      obtain ⟨spLevel, pStr⟩ := found
      rw [Option.bind_some]
      by_cases hnil : pStr = []
      · exact ⟨errorExit, if_pos hnil, Or.inl rfl⟩
      refine ⟨_, if_neg hnil, Or.inr ⟨_, rfl, ?_⟩⟩
      have hend : (pStr.dropWhile (!isBlank ·)).dropWhile isBlank <:+ pStr :=
        (List.dropWhile_suffix _).trans (List.dropWhile_suffix _)
      have hpStr : pStr <:+ r₂ := (suffix_of_parseServicePack hpack).trans (suffix_wcstoul r₂)
      refine (hend.trans hpStr).trans ⟨wcs "MSWin:" ++ major ++ wcs "." ++ minor ++ wcs ",BUILD:", ?_⟩
      simp only [List.append_assoc]

def lastWord (s : WStr) : WStr := (s.reverse.takeWhile (· ≠ 0x20)).reverse

theorem length_takeWhile_lt {p : WChar → Bool} {c : WChar} (h : p c = false) (s t : WStr) :
    ((s ++ c :: t).takeWhile p).length ≤ s.length := by
  rw [List.takeWhile_append]
  split_ifs with hall
  · rw [List.takeWhile_cons_of_neg (Bool.eq_false_iff.mp h), List.append_nil]
  · exact (List.takeWhile_prefix p).length_le

theorem length_lastWord (s : WStr) :
    (lastWord (wcs "Linux " ++ s)).length + 6 ≤ (wcs "Linux " ++ s).length := by
  have hreverse : (wcs "Linux " ++ s).reverse = s.reverse ++ 0x20 :: (wcs "Linux").reverse := by
    rw [List.reverse_append]
    rfl
  have hlen := length_takeWhile_lt (p := (· ≠ 0x20)) (c := 0x20) (by decide) s.reverse
    (wcs "Linux").reverse
  rw [List.length_reverse] at hlen
  rw [lastWord, List.length_reverse, hreverse, List.length_append]
  change _ ≤ 6 + s.length
  omega

theorem parseLinux_eq {build rest : WStr} (hhost : skipWord tail = some r₀)
    (hmajor : wcstoul r₀ = (verMajor, wcs "." ++ r₁))
    (hminor : wcstoul r₁ = (verMinor, wcs "." ++ (build ++ rest)))
    (hbuild : ∀ c ∈ build, isBlank c = false) (hrest : Stops (!isBlank ·) rest)
    (hsuffix : rest <:+ tail) :
    parseLinux (wcs "Linux " ++ tail) =
      if build ++ rest = [] then some errorExit
      else (advance 1 rest).bind fun pStr =>
        if pStr.head? ≠ some 0x23 then some errorExit
        else (wcsstr (wcs " GNU/Linux") pStr).bind fun pEndStr => some {
          returned := some (wcs "Linux " ++ tail)
          verMajor, verMinor, build
          spLevel := 0
          architecture := 0x20 :: lastWord (upTo (wcs "Linux " ++ tail) pEndStr) } := by
  have hbuild' : ∀ c ∈ build, (!isBlank c) = true := by
    intro c hc
    rw [hbuild c hc, Bool.not_false]
  simp only [parseLinux, drop_linux, hhost, hmajor, hminor, drop_dot, head?_dot, if_false,
    takeWhile_append_stops hbuild' hrest, dropWhile_append_stops hbuild' hrest, Option.bind_eq_bind,
    Option.bind_some, Option.pure_def]
  refine ite_congr rfl (fun _ => rfl) ?_
  intro _
  cases hadvance : advance 1 rest with
  | none => rfl
  | some pStr =>
    rw [Option.bind_some, Option.bind_some]
    refine ite_congr rfl (fun _ => rfl) ?_
    intro _
    cases hfind : wcsstr (wcs " GNU/Linux") pStr with
    | none => rfl
    | some pEndStr =>
      obtain ⟨front, rfl⟩ : pEndStr <:+ tail :=
        ((suffix_of_wcsstr hfind).trans (suffix_of_advance hadvance)).trans hsuffix
      have hlen := length_lastWord front
      rw [Option.bind_some, Option.bind_some, ← List.append_assoc, upTo_append]
      rw [← lastWord, if_neg (by omega), if_neg (by omega)]

theorem parseLinux_of_not_major (hhost : skipWord tail = some r₀)
    (hmajor : ¬ wcs "." <+: (wcstoul r₀).2) :
    parseLinux (wcs "Linux " ++ tail) = some errorExit := by
  have hhead : (wcstoul r₀).2.head? ≠ some 0x2E := fun h => hmajor (head?_eq_iff.mp h)
  simp only [parseLinux, drop_linux, hhost, hhead, Option.bind_eq_bind, Option.bind_some,
    Option.pure_def, if_true, ne_eq, not_false_eq_true]

theorem parseLinux_of_not_minor (hhost : skipWord tail = some r₀)
    (hmajor : wcstoul r₀ = (verMajor, wcs "." ++ r₁)) (hminor : ¬ wcs "." <+: (wcstoul r₁).2) :
    parseLinux (wcs "Linux " ++ tail) = some errorExit := by
  have hhead : (wcstoul r₁).2.head? ≠ some 0x2E := fun h => hminor (head?_eq_iff.mp h)
  simp only [parseLinux, drop_linux, hhost, hmajor, drop_dot, head?_dot, hhead, Option.bind_eq_bind,
    Option.bind_some, Option.pure_def, if_true, if_false, ne_eq, not_false_eq_true]

theorem suffix_behind_build (host major minor build rest : WStr) :
    rest <:+ host ++ (wcs " " ++ (major ++ (wcs "." ++ (minor ++ (wcs "." ++ (build ++ rest)))))) := by
  refine ⟨host ++ wcs " " ++ major ++ wcs "." ++ minor ++ wcs "." ++ build, ?_⟩
  simp only [List.append_assoc]

theorem parseLinux_of_no_host {host : WStr} (hhost : 0x20 ∉ host) :
    parseLinux (wcs "Linux " ++ host) = none := by
  rw [parseLinux, drop_linux, skipWord_of_notMem hhost]
  rfl

theorem parseLinux_safe (tail : WStr) :
    (∃ parsed, parseLinux (wcs "Linux " ++ tail) = some parsed ∧
      Sound (wcs "Linux " ++ tail) parsed) ∨
    parseLinux (wcs "Linux " ++ tail) = none ∧ Overruns (wcs "Linux " ++ tail) := by
  rcases exists_word tail with hhost | ⟨host, r₀, hhost, rfl⟩
  · exact Or.inr ⟨parseLinux_of_no_host hhost, .linuxHost hhost⟩
  have hskip := skipWord_append hhost r₀
  rcases exists_number_then (wcs ".") r₀ with hnot | ⟨major, r₁, hmajor, rfl, hr₁⟩
  · exact Or.inl ⟨errorExit, parseLinux_of_not_major hskip hnot, Or.inl rfl⟩
  rcases exists_number_then (wcs ".") r₁ with hnot | ⟨minor, r₂, hminor, rfl, hr₂⟩
  · exact Or.inl ⟨errorExit, parseLinux_of_not_minor hskip (Prod.ext rfl hr₁) hnot, Or.inl rfl⟩
  obtain ⟨build, rest, rfl, hbuild, hrest⟩ := exists_component r₂
  have hsuffix := suffix_behind_build host major minor build rest
  have heq := parseLinux_eq hskip (Prod.ext rfl hr₁) (Prod.ext rfl hr₂) hbuild hrest hsuffix
  cases rest with
  | nil =>
    by_cases hnil : build = []
    · rw [if_pos (by rw [hnil]; rfl)] at heq
      exact Or.inl ⟨errorExit, heq, Or.inl rfl⟩
    · rw [if_neg (by rw [List.append_nil]; exact hnil)] at heq
      have hoverrun := Overruns.linuxBuild hhost hmajor hminor hnil hbuild
      rw [← List.append_nil build] at hoverrun
      exact Or.inr ⟨heq, hoverrun⟩
  | cons blank r =>
    have hblank := hrest blank rfl
    have hadvance : advance 1 (blank :: r) = some r :=
      advance_append (List.length_singleton (a := blank)) r
    rw [Bool.not_eq_false'] at hblank
    rw [if_neg (List.append_ne_nil_of_right_ne_nil _ (List.cons_ne_nil _ _)), hadvance,
      Option.bind_some] at heq
    by_cases hmark : r.head? = some 0x23
    · obtain ⟨rest, rfl⟩ := head?_eq_iff.mp hmark
      rw [if_neg (fun h => h hmark)] at heq
      cases hfind : wcsstr (wcs " GNU/Linux") ([0x23] ++ rest) with
      | none =>
        rw [hfind, Option.bind_none] at heq
        have hnot := (wcsstr_eq_none_iff _).mp hfind
        exact Or.inr ⟨heq, .linuxSystem hhost hmajor hminor hbuild hblank hnot⟩
      | some pEndStr =>
        rw [hfind, Option.bind_some] at heq
        exact Or.inl ⟨_, heq, Or.inr ⟨_, rfl, List.suffix_rfl⟩⟩
    · rw [if_pos hmark] at heq
      exact Or.inl ⟨errorExit, heq, Or.inl rfl⟩

theorem parseHpux_eq {fixed : WStr} (hhost : skipWord tail = some (fixed ++ r₀))
    (hfixed : fixed.length = 2) (hmajor : wcstoul r₀ = (verMajor, wcs "." ++ r₁))
    (hminor : wcstoul r₁ = (verMinor, wcs " " ++ r₂)) :
    parseHpux (wcs "HP-UX " ++ tail) = (advance 3 (wcs " " ++ r₂)).bind fun pStr => some {
      returned := some (wcs "HP-UX " ++ tail)
      verMajor, verMinor
      build := []
      spLevel := 0
      architecture := pStr.takeWhile (· ≠ 0x20) } := by
  have hisBlank : ¬ (wcs " " ++ r₂).head? ≠ some 0x20 := fun h => h rfl
  simp only [parseHpux, drop_hpux, hhost, advance_append hfixed, hmajor, drop_dot, head?_dot,
    hminor, hisBlank, Option.bind_eq_bind, Option.bind_some, Option.pure_def, if_false]

theorem parseHpux_of_not_major {fixed : WStr} (hhost : skipWord tail = some (fixed ++ r₀))
    (hfixed : fixed.length = 2) (hmajor : ¬ wcs "." <+: (wcstoul r₀).2) :
    parseHpux (wcs "HP-UX " ++ tail) = some errorExit := by
  have hhead : (wcstoul r₀).2.head? ≠ some 0x2E := fun h => hmajor (head?_eq_iff.mp h)
  simp only [parseHpux, drop_hpux, hhost, advance_append hfixed, hhead, Option.bind_eq_bind,
    Option.bind_some, Option.pure_def, if_true, ne_eq, not_false_eq_true]

theorem parseHpux_of_not_minor {fixed : WStr} (hhost : skipWord tail = some (fixed ++ r₀))
    (hfixed : fixed.length = 2) (hmajor : wcstoul r₀ = (verMajor, wcs "." ++ r₁))
    (hminor : ¬ wcs " " <+: (wcstoul r₁).2) :
    parseHpux (wcs "HP-UX " ++ tail) = some errorExit := by
  have hhead : (wcstoul r₁).2.head? ≠ some 0x20 := fun h => hminor (head?_eq_iff.mp h)
  simp only [parseHpux, drop_hpux, hhost, advance_append hfixed, hmajor, drop_dot, head?_dot, hhead,
    Option.bind_eq_bind, Option.bind_some, Option.pure_def, if_true, if_false, ne_eq,
    not_false_eq_true]

theorem no_digit_of_snd_wcstoul {rest : WStr} (hlen : rest.length < 2)
    (h : (wcstoul (wcs " " ++ rest)).2 = wcs " " ++ rest) : ∀ c ∈ rest, isDigit c = false := by
  intro c hc
  obtain rfl : rest = [c] := by
    cases rest with
    | nil => cases hc
    | cons d rest =>
      have hnil : rest = [] := List.length_eq_zero_iff.mp (by rw [List.length_cons] at hlen; omega)
      rw [hnil, List.mem_singleton] at hc
      rw [hnil, hc]
  by_contra hdigit
  rw [Bool.not_eq_false] at hdigit
  have hblank : ∀ d ∈ wcs " ", isSpace d = true := by
    intro d hd
    rw [List.mem_singleton.mp hd]
    rfl
  have hnumeral : Numeral (wcs " " ++ [c]) :=
    ⟨wcs " ", [], [c], rfl, hblank, Or.inl rfl, List.cons_ne_nil _ _,
      fun d hd => List.mem_singleton.mp hd ▸ hdigit⟩
  have hnil := snd_wcstoul_numeral hnumeral stops_nil
  rw [List.append_nil, h] at hnil
  cases hnil

theorem parseHpux_of_no_host {host : WStr} (hhost : 0x20 ∉ host) :
    parseHpux (wcs "HP-UX " ++ host) = none := by
  rw [parseHpux, drop_hpux, skipWord_of_notMem hhost]
  rfl

theorem parseHpux_of_short {host rest : WStr} (hhost : 0x20 ∉ host) (hlen : rest.length < 2) :
    parseHpux (wcs "HP-UX " ++ (host ++ (wcs " " ++ rest))) = none := by
  simp only [parseHpux, drop_hpux, skipWord_append hhost, advance_of_lt hlen, Option.bind_eq_bind,
    Option.bind_some, Option.bind_none]

theorem parseHpux_safe (tail : WStr) :
    (∃ parsed, parseHpux (wcs "HP-UX " ++ tail) = some parsed ∧
      Sound (wcs "HP-UX " ++ tail) parsed) ∨
    parseHpux (wcs "HP-UX " ++ tail) = none ∧ Overruns (wcs "HP-UX " ++ tail) := by
  rcases exists_word tail with hhost | ⟨host, rest, hhost, rfl⟩
  · exact Or.inr ⟨parseHpux_of_no_host hhost, .hpuxHost hhost⟩
  have hskip := skipWord_append hhost rest
  rcases exists_fixed 2 rest with hlen | ⟨fixed, r₀, hfixed, rfl⟩
  · exact Or.inr ⟨parseHpux_of_short hhost hlen, .hpuxVersion hhost hlen⟩
  rcases exists_number_then (wcs ".") r₀ with hnot | ⟨major, r₁, hmajor, rfl, hr₁⟩
  · exact Or.inl ⟨errorExit, parseHpux_of_not_major hskip hfixed hnot, Or.inl rfl⟩
  rcases exists_number_then (wcs " ") r₁ with hnot | ⟨minor, r₂, hminor, rfl, hr₂⟩
  · exact Or.inl
      ⟨errorExit, parseHpux_of_not_minor hskip hfixed (Prod.ext rfl hr₁) hnot, Or.inl rfl⟩
  have heq := parseHpux_eq hskip hfixed (Prod.ext rfl hr₁) (Prod.ext rfl hr₂)
  by_cases hlen : r₂.length < 2
  · have hshort : (wcs " " ++ r₂).length < 3 := Nat.succ_lt_succ hlen
    rw [advance_of_lt hshort, Option.bind_none] at heq
    refine Or.inr ⟨heq, .hpuxArchitecture hhost hfixed hmajor hminor hlen ?_⟩
    rintro rfl
    exact no_digit_of_snd_wcstoul hlen hr₂
  · have hlong : ¬ (wcs " " ++ r₂).length < 3 := by
      change ¬ r₂.length + 1 < 3
      omega
    cases hadvance : advance 3 (wcs " " ++ r₂) with
    | none =>
      rw [advance, if_pos (not_lt.mp hlong)] at hadvance
      cases hadvance
    | some pStr =>
      rw [hadvance, Option.bind_some] at heq
      exact Or.inl ⟨_, heq, Or.inr ⟨_, rfl, List.suffix_rfl⟩⟩

theorem parseVersionString_windows (tail : WStr) :
    parseVersionString (wcs "MSWin:" ++ tail) = parseWindows (wcs "MSWin:" ++ tail) := rfl

theorem parseVersionString_linux (tail : WStr) :
    parseVersionString (wcs "Linux " ++ tail) = parseLinux (wcs "Linux " ++ tail) := rfl

theorem parseVersionString_hpux (tail : WStr) :
    parseVersionString (wcs "HP-UX " ++ tail) = parseHpux (wcs "HP-UX " ++ tail) := rfl

theorem parsesSafely_or_overruns (versionString : WStr) :
    ParsesSafely versionString ∨
      parseVersionString versionString = none ∧ Overruns versionString := by
  by_cases hwindows : (wcs "MSWin:").isPrefixOf versionString = true
  · obtain ⟨tail, rfl⟩ := List.isPrefixOf_iff_prefix.mp hwindows
    exact parseWindows_safe tail
  by_cases hlinux : (wcs "Linux ").isPrefixOf versionString = true
  · obtain ⟨tail, rfl⟩ := List.isPrefixOf_iff_prefix.mp hlinux
    exact parseLinux_safe tail
  by_cases hhpux : (wcs "HP-UX ").isPrefixOf versionString = true
  · obtain ⟨tail, rfl⟩ := List.isPrefixOf_iff_prefix.mp hhpux
    exact parseHpux_safe tail
  · refine Or.inl ⟨errorExit, ?_, Or.inl rfl⟩
    rw [parseVersionString, if_neg hwindows, if_neg hlinux, if_neg hhpux]

theorem snd_wcstoul_blank {minor rest : WStr} (hminor : Number minor)
    (hrest : minor = [] → ∀ c ∈ rest, isDigit c = false) :
    (wcstoul (minor ++ (wcs " " ++ rest))).2 = wcs " " ++ rest := by
  have hblank : ∀ c ∈ wcs " ", isDigit c = false := by
    intro c hc
    rw [List.mem_singleton.mp hc]
    rfl
  rcases hminor with rfl | hminor
  · rw [List.nil_append]
    apply snd_wcstoul_of_no_digit
    intro c hc
    cases List.mem_append.mp hc with
    | inl hc => exact hblank c hc
    | inr hc => exact hrest rfl c hc
  · exact snd_wcstoul_numeral hminor (stops_cons rfl)

theorem parseWindows_of_overrun {major minor build : WStr} (hmajor : Number major)
    (hminor : Number minor) (hbuild : Number build) :
    parseWindows (wcs "MSWin:" ++ (major ++ (wcs "." ++ (minor ++ (wcs ",BUILD:" ++
      (build ++ wcs ",No Service Pack")))))) = none := by
  have hend : (wcstoul (build ++ wcs ",No Service Pack")).2 = wcs ",No Service Pack" := by
    have h : (wcstoul (build ++ (wcs ",No Service Pack" ++ []))).2 =
        wcs ",No Service Pack" ++ [] := snd_wcstoul_number hbuild (separates_comma rfl)
    rwa [List.append_nil] at h
  rw [parseWindows_eq (Prod.ext rfl (snd_wcstoul_number hmajor separates_dot))
    (Prod.ext rfl (snd_wcstoul_number hminor (separates_comma rfl))) hend,
    (parseServicePack_eq_none_iff _).mpr rfl, Option.bind_none]

theorem parseLinux_rest {host major minor build rest : WStr} (hhost : 0x20 ∉ host)
    (hmajor : Number major) (hminor : Number minor) (hbuild : ∀ c ∈ build, isBlank c = false)
    (hrest : Stops (!isBlank ·) rest) (hne : build ++ rest ≠ [])
    (hpast : ∀ pStr, advance 1 rest = some pStr → pStr.head? = some 0x23 ∧
      wcsstr (wcs " GNU/Linux") pStr = none) :
    parseLinux (wcs "Linux " ++ (host ++ (wcs " " ++ (major ++ (wcs "." ++ (minor ++ (wcs "." ++
      (build ++ rest)))))))) = none := by
  have hsuffix := suffix_behind_build host major minor build rest
  rw [parseLinux_eq (skipWord_append hhost _)
    (Prod.ext rfl (snd_wcstoul_number hmajor separates_dot))
    (Prod.ext rfl (snd_wcstoul_number hminor separates_dot)) hbuild hrest hsuffix, if_neg hne]
  cases hadvance : advance 1 rest with
  | none => rfl
  | some pStr =>
    obtain ⟨hmark, hfind⟩ := hpast pStr hadvance
    rw [Option.bind_some, if_neg (fun h => h hmark), hfind, Option.bind_none]

theorem parseVersionString_of_overruns {versionString : WStr} (h : Overruns versionString) :
    parseVersionString versionString = none := by
  cases h with
  | windowsServicePack hmajor hminor hbuild => exact parseWindows_of_overrun hmajor hminor hbuild
  | linuxHost hhost => exact parseLinux_of_no_host hhost
  | @linuxBuild host major minor build hhost hmajor hminor hne hbuild =>
    rw [← List.append_nil build]
    apply parseLinux_rest hhost hmajor hminor hbuild stops_nil
    · rw [List.append_nil]
      exact hne
    · intro pStr hadvance
      cases hadvance
  | linuxSystem hhost hmajor hminor hbuild hblank hsystem =>
    apply parseLinux_rest hhost hmajor hminor hbuild
    · apply stops_cons
      rw [hblank, Bool.not_true]
    · exact List.append_ne_nil_of_right_ne_nil _ (List.cons_ne_nil _ _)
    · intro pStr hadvance
      obtain rfl := Option.some.inj hadvance
      exact ⟨rfl, (wcsstr_eq_none_iff _).mpr hsystem⟩
  | hpuxHost hhost => exact parseHpux_of_no_host hhost
  | hpuxVersion hhost hlen => exact parseHpux_of_short hhost hlen
  | hpuxArchitecture hhost hfixed hmajor hminor hlen hrest =>
    rw [parseVersionString_hpux, parseHpux_eq (skipWord_append hhost _) hfixed
      (Prod.ext rfl (snd_wcstoul_number hmajor separates_dot))
      (Prod.ext rfl (snd_wcstoul_blank hminor hrest)),
      advance_of_lt (Nat.succ_lt_succ hlen), Option.bind_none]

/-- A version string is parsed safely exactly if it is not one of those that are read beyond their
end. -/
theorem parsesSafely_iff (versionString : WStr) :
    ParsesSafely versionString ↔ ¬ Overruns versionString := by
  constructor
  · rintro ⟨parsed, hparsed, _⟩ hoverruns
    rw [parseVersionString_of_overruns hoverruns] at hparsed
    cases hparsed
  · intro h
    rcases parsesSafely_or_overruns versionString with hsafe | ⟨_, hoverruns⟩
    · exact hsafe
    · exact absurd hoverruns h

/-- A version that is cut off behind the name of the system. -/
theorem linux_not_parsesSafely : ¬ ParsesSafely (wcs "Linux ") := by
  rintro ⟨parsed, hparsed, _⟩
  have hnone : parseVersionString (wcs "Linux ") = none := rfl
  rw [hnone] at hparsed
  cases hparsed

end TrapHandler.ParsedVersion
