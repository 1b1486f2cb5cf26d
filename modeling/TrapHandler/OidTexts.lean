import TrapHandler.DecimalNumerals
import TrapHandler.Runs
import TrapHandler.SnmpOid

/-!
# Texts of object identifiers

What the two conversions of `CSnmpOid` do with dotted texts. The parser takes a leading dot or a first
digit from 1 to 8, and counts components only in front of a further dot. The printer gives up behind
a component that ends too close to the end of the buffer, after the component has been written.
-/

namespace TrapHandler.CSnmpOid

open Scanners Runs

def Digits (g : WStr) : Prop := g ≠ [] ∧ ∀ c ∈ g, isDigit c = true

def dottedText (groups : List WStr) : WStr := groups.flatMap (dot :: ·)

def value (g : WStr) : UInt32 := UInt32.ofNat (digitsValue g)

def dotted (cs : List UInt32) : WStr := dottedText (cs.map (decimal ·.toNat))

@[simp] theorem dottedText_nil : dottedText [] = [] := rfl

theorem dottedText_cons (g : WStr) (gs : List WStr) :
    dottedText (g :: gs) = dot :: (g ++ dottedText gs) := rfl

theorem dotted_append (cs ds : List UInt32) : dotted (cs ++ ds) = dotted cs ++ dotted ds := by
  rw [dotted, List.map_append, dottedText, List.flatMap_append]
  rfl

theorem dotted_concat (cs : List UInt32) (c : UInt32) :
    dotted (cs ++ [c]) = dotted cs ++ dot :: decimal c.toNat := by
  rw [dotted_append]
  exact congrArg (dotted cs ++ dot :: ·) (List.append_nil _)

theorem digits_decimal (n : ℕ) : Digits (decimal n) :=
  ⟨decimal_ne_nil n, fun _ hc => isDigit_of_mem_decimal hc⟩

theorem value_decimal (c : UInt32) : value (decimal c.toNat) = c := by
  rw [value, digitsValue_decimal, UInt32.ofNat_toNat]

theorem stops_dottedText (gs : List WStr) : Stops isDigit (dottedText gs) := by
  cases gs with
  | nil => exact stops_nil
  | cons g gs => exact stops_cons rfl

theorem map_value_decimal (cs : List UInt32) : (cs.map (decimal ·.toNat)).map value = cs := by
  rw [List.map_map]
  refine (List.map_congr_left ?_).trans (List.map_id cs)
  intro c _
  exact value_decimal c

theorem length_lt_dottedText {gs : List WStr} (h : ∀ g ∈ gs, Digits g) :
    gs.length ≤ (dottedText gs).length := by
  induction gs with
  | nil => exact le_rfl
  | cons g gs ih =>
    have hrest := ih fun g hg => h g (List.mem_cons_of_mem _ hg)
    rw [dottedText_cons, List.length_cons, List.length_cons, List.length_append]
    omega

variable {fuel : ℕ} {g dst : WStr} {gs : List WStr} {oids : List UInt32}

theorem buildLoop_stop {rest : WStr} (hg : Digits g) (hrest : Stops isDigit rest)
    (hdot : rest.head? ≠ some dot) :
    buildLoop (fuel + 1) (g ++ rest) dst oids =
      { oids := some (oids ++ [value g]), wcsOid := some (dst ++ g) } := by
  simp only [buildLoop, takeWhile_append_stops hg.2 hrest, dropWhile_append_stops hg.2 hrest,
    if_pos hg.1, foldl_uint32, value]
  cases rest with
  | nil => rfl
  | cons c rest =>
    have hc : c ≠ dot := fun heq => hdot (congrArg some heq)
    exact if_pos hc

theorem buildLoop_last (hg : Digits g) :
    buildLoop (fuel + 1) g dst oids =
      { oids := some (oids ++ [value g]), wcsOid := some (dst ++ g) } := by
  have hempty : ([] : WStr).head? ≠ some dot := Option.some_ne_none dot ∘ Eq.symm
  rw [← buildLoop_stop hg stops_nil hempty, List.append_nil]

theorem buildLoop_none {rest : WStr} (hrest : Stops isDigit rest) :
    buildLoop (fuel + 1) rest dst oids =
      if dst.length = 1 then {} else { oids := some oids, wcsOid := some dst.dropLast } := by
  simp only [buildLoop, takeWhile_of_stops hrest, ne_eq, not_true_eq_false, if_false]

theorem buildLoop_dot (hg : Digits g) (rest : WStr) :
    buildLoop (fuel + 1) (g ++ dot :: rest) dst oids =
      if MAXOIDLEN < oids.length + 1 then {}
      else buildLoop fuel rest (dst ++ g ++ [dot]) (oids ++ [value g]) := by
  have hstops : Stops isDigit (dot :: rest) := stops_cons rfl
  simp only [buildLoop, takeWhile_append_stops hg.2 hstops, dropWhile_append_stops hg.2 hstops,
    if_pos hg.1, foldl_uint32, ne_eq, not_true_eq_false, if_false, List.length_append,
    List.length_singleton, gt_iff_lt]
  rfl

theorem buildLoop_dottedText (hg : Digits g) (hgs : ∀ g ∈ gs, Digits g) (hfuel : gs.length < fuel)
    (hoids : oids.length ≤ MAXOIDLEN) :
    buildLoop fuel (g ++ dottedText gs) dst oids =
      if MAXOIDLEN < oids.length + gs.length then {}
      else {
        oids := some (oids ++ (g :: gs).map value)
        wcsOid := some (dst ++ (g ++ dottedText gs)) } := by
  induction gs generalizing g dst oids fuel with
  | nil =>
    cases fuel with
    | zero => exact absurd hfuel (Nat.not_lt_zero _)
    | succ fuel =>
      have hroom : ¬ MAXOIDLEN < oids.length + ([] : List WStr).length := not_lt.mpr hoids
      rw [if_neg hroom, dottedText_nil, List.append_nil]
      exact buildLoop_last hg
  | cons h gs ih =>
    obtain ⟨hh, hgs⟩ := List.forall_mem_cons.mp hgs
    cases fuel with
    | zero => exact absurd hfuel (Nat.not_lt_zero _)
    | succ fuel =>
      rw [List.length_cons] at hfuel
      rw [dottedText_cons, buildLoop_dot hg, List.length_cons]
      by_cases hfull : MAXOIDLEN < oids.length + 1
      · rw [if_pos hfull, if_pos (by omega)]
      · have hlen : (oids ++ [value g]).length ≤ MAXOIDLEN := by
          rw [List.length_append, List.length_singleton]
          omega
        rw [if_neg hfull, ih hh hgs (Nat.lt_of_succ_lt_succ hfuel) hlen]
        simp only [List.length_append, List.length_singleton, List.append_assoc, List.map_cons,
          List.singleton_append, Nat.add_assoc, Nat.add_comm 1]

/-- The first character is not one of those digits that the parser does not accept there. -/
def Starts (text : WStr) : Prop := text.head? ≠ some 0x30 ∧ text.head? ≠ some 0x39

instance (text : WStr) : Decidable (Starts text) := inferInstanceAs (Decidable (_ ∧ _))

theorem starts_digit_iff {c : WChar} {rest : WStr} (hc : isDigit c = true) :
    Starts (c :: rest) ↔ 0x30 < c ∧ c < 0x39 := by
  have hbounds := isDigit_iff.mp hc
  rw [Starts, List.head?_cons, ne_eq, ne_eq, Option.some.injEq, Option.some.injEq,
    ← UInt16.toNat_inj, ← UInt16.toNat_inj, UInt16.lt_iff_toNat_lt, UInt16.lt_iff_toNat_lt]
  change ¬ c.toNat = 48 ∧ ¬ c.toNat = 57 ↔ 48 < c.toNat ∧ c.toNat < 57
  omega

def oidText (leading : Bool) (groups : List WStr) : WStr :=
  if leading then dottedText groups else (dottedText groups).tail

theorem oidText_true (groups : List WStr) : oidText true groups = dottedText groups := rfl

theorem oidText_false (g : WStr) (gs : List WStr) :
    oidText false (g :: gs) = g ++ dottedText gs := rfl

theorem buildFromWcsStr_long {text : WStr} (h : MAXOIDSTRLEN < text.length) :
    buildFromWcsStr (some text) = {} := by
  rw [buildFromWcsStr.eq_def]
  exact if_pos h

theorem starts_dottedText (g : WStr) (gs : List WStr) : Starts (dottedText (g :: gs)) :=
  ⟨by rw [dottedText_cons, List.head?_cons]; decide,
    by rw [dottedText_cons, List.head?_cons]; decide⟩

theorem buildFromWcsStr_dottedText
    (hlen : ¬ MAXOIDSTRLEN < (dottedText (g :: gs)).length) :
    buildFromWcsStr (some (dottedText (g :: gs))) =
      buildLoop ((g ++ dottedText gs).length + 1) (g ++ dottedText gs) [dot] [] := by
  rw [buildFromWcsStr.eq_def]
  exact if_neg hlen

theorem buildFromWcsStr_digits (hg : Digits g)
    (hlen : ¬ MAXOIDSTRLEN < (g ++ dottedText gs).length) :
    buildFromWcsStr (some (g ++ dottedText gs)) =
      if Starts (g ++ dottedText gs) then
        buildLoop ((g ++ dottedText gs).length + 1) (g ++ dottedText gs) [dot] []
      else {} := by
  obtain ⟨hne, hdigits⟩ := hg
  cases g with
  | nil => exact absurd rfl hne
  | cons c g =>
    have hc : isDigit c = true := hdigits c List.mem_cons_self
    have hdot : c ≠ dot := ne_of_isDigit hc (by decide)
    rw [buildFromWcsStr.eq_def]
    refine (if_neg hlen).trans ?_
    simp only [List.cons_append, starts_digit_iff hc, Bool.and_eq_true, decide_eq_true_eq,
      if_neg hdot, List.length_cons]

theorem buildFromWcsStr_oidText (leading : Bool) (hg : Digits g) (hgs : ∀ g ∈ gs, Digits g) :
    buildFromWcsStr (some (oidText leading (g :: gs))) =
      if MAXOIDSTRLEN < (oidText leading (g :: gs)).length ∨ ¬ Starts (oidText leading (g :: gs)) ∨
        MAXOIDLEN < gs.length then {}
      else {
        oids := some ((g :: gs).map value)
        wcsOid := some (dottedText (g :: gs)) } := by
  have hfuel : gs.length < (g ++ dottedText gs).length + 1 := by
    have hle := length_lt_dottedText hgs
    rw [List.length_append]
    omega
  have hloop : buildLoop ((g ++ dottedText gs).length + 1) (g ++ dottedText gs) [dot] [] =
      if MAXOIDLEN < gs.length then {}
      else { oids := some ((g :: gs).map value), wcsOid := some (dottedText (g :: gs)) } := by
    rw [buildLoop_dottedText hg hgs hfuel (Nat.zero_le _), List.length_nil, Nat.zero_add]
    rfl
  by_cases hlong : MAXOIDSTRLEN < (oidText leading (g :: gs)).length
  · rw [if_pos (Or.inl hlong), buildFromWcsStr_long hlong]
  cases leading with
  | true =>
    rw [oidText_true] at hlong ⊢
    rw [buildFromWcsStr_dottedText hlong, hloop]
    simp only [hlong, starts_dottedText, not_true_eq_false, false_or]
  | false =>
    rw [oidText_false] at hlong ⊢
    rw [buildFromWcsStr_digits hg hlong, hloop]
    by_cases hstarts : Starts (g ++ dottedText gs)
    · simp only [hlong, hstarts, not_true_eq_false, false_or, if_true]
    · simp only [hlong, hstarts, not_false_eq_true, false_or, true_or, if_true, if_false]

open CharArray

variable {a : CharArray WChar} {pre cs : List UInt32} {c : UInt32}

theorem length_dotted_concat (pre : List UInt32) (c : UInt32) :
    (dotted (pre ++ [c])).length = (dotted pre).length + 1 + (decimal c.toNat).length := by
  rw [dotted_concat, List.length_append, List.length_cons]
  omega

/-- A component that is written ends inside the buffer. It is written where the text in front of it
leaves room for two characters more. -/
def Fits (pre : List UInt32) (c : UInt32) : Prop :=
  (dotted pre).length + 2 ≤ MAXOIDSTRLEN → (dotted (pre ++ [c])).length ≤ MAXOIDSTRLEN

/-- What one turn of the loop writes. -/
def writeComponent (a : CharArray WChar) (pre : List UInt32) (c : UInt32) : CharArray WChar :=
  (a.copyAt ((dotted pre).length + 1) (decimal c.toNat)).store (dotted (pre ++ [c])).length dot

theorem makeLoop_cons (a : CharArray WChar) (pre : List UInt32) (c : UInt32) (cs : List UInt32) :
    makeLoop (c :: cs) a ((dotted pre).length + 1) =
      if (dotted (pre ++ [c])).length + 2 ≤ MAXOIDSTRLEN then
        makeLoop cs (writeComponent a pre c) ((dotted (pre ++ [c])).length + 1)
      else (writeComponent a pre c, (dotted (pre ++ [c])).length + 1, false) := by
  rw [makeLoop, writeComponent, length_dotted_concat]
  by_cases hroom : (dotted pre).length + 1 + (decimal c.toNat).length + 2 ≤ MAXOIDSTRLEN
  · rw [if_pos hroom, if_neg (by omega)]
  · rw [if_neg hroom, if_pos (by omega)]

@[simp] theorem size_writeComponent (a : CharArray WChar) (pre : List UInt32) (c : UInt32) :
    (writeComponent a pre c).size = a.size := size_copyAt a _ _

theorem inside_writeComponent (hsize : a.size = MAXOIDSTRLEN + 1) :
    (writeComponent a pre c).Inside ↔ a.Inside ∧ (dotted (pre ++ [c])).length ≤ MAXOIDSTRLEN := by
  rw [writeComponent, inside_store_iff, inside_copyAt_iff, size_copyAt, hsize,
    ← length_dotted_concat, Nat.lt_succ_iff, and_assoc, and_self_iff]

theorem startsWith_writeComponent (h : a.StartsWith (dotted pre ++ [dot])) :
    (writeComponent a pre c).StartsWith (dotted (pre ++ [c]) ++ [dot]) := by
  have hlen : (dotted pre ++ [dot]).length = (dotted pre).length + 1 := by
    rw [List.length_append, List.length_singleton]
  have hcopy := (h.copyAt (decimal c.toNat)).left
  rw [hlen, List.append_assoc, List.singleton_append, ← dotted_concat] at hcopy
  exact hcopy.store

theorem length_dotted_le (pre cs : List UInt32) :
    (dotted pre).length ≤ (dotted (pre ++ cs)).length := by
  rw [dotted_append, List.length_append]
  exact Nat.le_add_right _ _

theorem inside_makeLoop (hsize : a.size = MAXOIDSTRLEN + 1)
    (hroom : (dotted pre).length + 2 ≤ MAXOIDSTRLEN) :
    (makeLoop cs a ((dotted pre).length + 1)).1.Inside ↔
      a.Inside ∧ AtEach (fun mid c => Fits (pre ++ mid) c) cs := by
  induction cs generalizing a pre with
  | nil => exact (and_iff_left atEach_nil).symm
  | cons c cs ih =>
    have hfits : Fits (pre ++ []) c ↔ (dotted (pre ++ [c])).length ≤ MAXOIDSTRLEN := by
      rw [List.append_nil]
      exact imp_iff_right hroom
    rw [makeLoop_cons, atEach_cons, hfits]
    split_ifs with hnext
    · rw [ih ((size_writeComponent a pre c).trans hsize) hnext, inside_writeComponent hsize,
        and_assoc]
      simp only [List.append_assoc, List.singleton_append]
    · have hrest : AtEach (fun mid d => Fits (pre ++ c :: mid) d) cs := by
        intro mid d _ hmid
        have hle := length_dotted_le (pre ++ [c]) mid
        rw [List.append_assoc, List.singleton_append] at hle
        omega
      rw [inside_writeComponent hsize, and_iff_left hrest]

theorem makeLoop_text (cs : List UInt32) (hstart : a.StartsWith (dotted pre ++ [dot]))
    (hroom : (dotted pre).length + 2 ≤ MAXOIDSTRLEN) :
    if (dotted (pre ++ cs)).length + 2 ≤ MAXOIDSTRLEN then
      ∃ b : CharArray WChar, makeLoop cs a ((dotted pre).length + 1) =
        (b, (dotted (pre ++ cs)).length + 1, true) ∧
          b.StartsWith (dotted (pre ++ cs) ++ [dot]) ∧ b.size = a.size
    else (makeLoop cs a ((dotted pre).length + 1)).2.2 = false := by
  induction cs generalizing a pre with
  | nil =>
    rw [List.append_nil, if_pos hroom]
    exact ⟨a, rfl, hstart, rfl⟩
  | cons c cs ih =>
    rw [makeLoop_cons]
    by_cases hnext : (dotted (pre ++ [c])).length + 2 ≤ MAXOIDSTRLEN
    · have hrest := ih (startsWith_writeComponent hstart) hnext
      rw [List.append_assoc, List.singleton_append, size_writeComponent] at hrest
      rw [if_pos hnext]
      exact hrest
    · have hle := length_dotted_le (pre ++ [c]) cs
      rw [List.append_assoc, List.singleton_append] at hle
      rw [if_neg hnext, if_neg (by omega)]

theorem zero_notMem_dotted (cs : List UInt32) : (0 : WChar) ∉ dotted cs := by
  intro h
  obtain ⟨g, hg, hmem⟩ := List.mem_flatMap.mp h
  obtain ⟨c, _, rfl⟩ := List.mem_map.mp hg
  cases List.mem_cons.mp hmem with
  | inl hdot => exact absurd hdot (by decide)
  | inr hdigit => exact notMem_decimal (by decide) _ hdigit

variable (raw : ℕ → WChar)

/-- The buffer with the first dot in it. -/
def start : CharArray WChar := (CharArray.new (MAXOIDSTRLEN + 1) raw).store 0 dot

theorem startsWith_start : (start raw).StartsWith (dotted [] ++ [dot]) := by
  have h := (startsWith_nil (CharArray.new (MAXOIDSTRLEN + 1) raw)).store (x := dot)
  exact h

theorem inside_start : (start raw).Inside :=
  (inside_new _ raw).store (Nat.zero_lt_succ _)

theorem inside_loop (cs : List UInt32) :
    (makeLoop cs (start raw) 1).1.Inside ↔ AtEach Fits cs := by
  have hroom : (dotted []).length + 2 ≤ MAXOIDSTRLEN := by decide
  exact (inside_makeLoop rfl hroom).trans (and_iff_right (inside_start raw))

theorem wcsArray_of_le {cs : List UInt32} (hlen : (dotted cs).length + 2 ≤ MAXOIDSTRLEN) :
    ∃ b : CharArray WChar, wcsArray raw cs = (b.store (dotted cs).length 0, true) ∧
      (b.Inside ↔ AtEach Fits cs) ∧ b.StartsWith (dotted cs) ∧ b.size = MAXOIDSTRLEN + 1 := by
  have hroom : (dotted []).length + 2 ≤ MAXOIDSTRLEN := by decide
  have htext := makeLoop_text cs (startsWith_start raw) hroom
  rw [List.nil_append, if_pos hlen] at htext
  obtain ⟨b, hb, hstart, hsize⟩ := htext
  change makeLoop cs (start raw) 1 = _ at hb
  have hinside := inside_loop raw cs
  rw [hb] at hinside
  refine ⟨b, ?_, hinside, hstart.left, hsize⟩
  rw [wcsArray, ← start, hb]
  rfl

theorem wcsArray_of_lt {cs : List UInt32} (hlen : ¬ (dotted cs).length + 2 ≤ MAXOIDSTRLEN) :
    ∃ b : CharArray WChar, wcsArray raw cs = (b, false) ∧ (b.Inside ↔ AtEach Fits cs) := by
  have hroom : (dotted []).length + 2 ≤ MAXOIDSTRLEN := by decide
  have htext := makeLoop_text cs (startsWith_start raw) hroom
  have hinside := inside_loop raw cs
  rw [List.nil_append, if_neg hlen] at htext
  change (makeLoop cs (start raw) 1).2.2 = false at htext
  cases hloop : makeLoop cs (start raw) 1 with
  | mk b rest =>
    obtain ⟨pTmp, kept⟩ := rest
    rw [hloop] at htext hinside
    obtain rfl : kept = false := htext
    refine ⟨b, ?_, hinside⟩
    rw [wcsArray, ← start, hloop]

theorem size_makeLoop (cs : List UInt32) (a : CharArray WChar) (pTmp : ℕ) :
    (makeLoop cs a pTmp).1.size = a.size := by
  induction cs generalizing a pTmp with
  | nil => rfl
  | cons c cs ih =>
    have hsize := size_copyAt a pTmp (decimal c.toNat)
    simp only [makeLoop]
    split_ifs
    · exact hsize
    · exact (ih _ _).trans hsize

theorem size_wcsArray (cs : List UInt32) : (wcsArray raw cs).1.size = MAXOIDSTRLEN + 1 := by
  have hsize := size_makeLoop cs (start raw) 1
  rw [wcsArray, ← start]
  cases hloop : makeLoop cs (start raw) 1 with
  | mk b rest =>
    obtain ⟨pTmp, kept⟩ := rest
    rw [hloop] at hsize
    cases kept with
    | true => exact hsize
    | false => exact hsize

theorem inside_wcsArray (cs : List UInt32) : (wcsArray raw cs).1.Inside ↔ AtEach Fits cs := by
  by_cases hlen : (dotted cs).length + 2 ≤ MAXOIDSTRLEN
  · obtain ⟨b, hb, hinside, _, hsize⟩ := wcsArray_of_le raw hlen
    have hfit : (dotted cs).length < b.size := by omega
    rw [hb]
    exact inside_store_iff.trans ((and_iff_left hfit).trans hinside)
  · obtain ⟨b, hb, hinside⟩ := wcsArray_of_lt raw hlen
    rw [hb]
    exact hinside

theorem makeWcsStr_eq (cs : List UInt32) : makeWcsStr raw { oids := some cs } =
    { oids := some cs
      wcsOid := if (dotted cs).length + 2 ≤ MAXOIDSTRLEN then some (dotted cs) else none } := by
  by_cases hlen : (dotted cs).length + 2 ≤ MAXOIDSTRLEN
  · obtain ⟨b, hb, _, hstart, hsize⟩ := wcsArray_of_le raw hlen
    have htext : (b.store (dotted cs).length 0).text = dotted cs := by
      apply hstart.store.text (zero_notMem_dotted cs)
      change _ < b.size
      omega
    simp only [makeWcsStr, hb, htext, if_pos hlen]
  · obtain ⟨b, hb, _⟩ := wcsArray_of_lt raw hlen
    simp only [makeWcsStr, hb, if_neg hlen]

structure ShortOid where
  components : List UInt32
  components_ne : components ≠ []
  length_le : components.length ≤ MAXOIDLEN
  text_le : (dotted components).length ≤ MAXOIDSTRLEN

/-- More components than the limit, each written in digits. -/
structure LongOid where
  groups : List WStr
  digits : ∀ g ∈ groups, Digits g
  lt_length : MAXOIDLEN < groups.length

/-- Both texts are parsed to the components, and these are printed as the text with the dot. -/
structure ShortOid.RoundTrips (o : ShortOid) : Prop where
  parsed : ∀ leading : Bool, (buildFromWcsStr
    (some (oidText leading (o.components.map (decimal ·.toNat))))).oids = some o.components
  printed : ∀ raw, (makeWcsStr raw (ofComponents o.components)).wcsOid =
    some (dotted o.components)

def LongOid.Rejected (o : LongOid) (leading : Bool) : Prop :=
  (buildFromWcsStr (some (oidText leading o.groups))).nOids = 0 ∧
    (buildFromWcsStr (some (oidText leading o.groups))).oids = none

theorem length_oidText_le (leading : Bool) (groups : List WStr) :
    (oidText leading groups).length ≤ (dottedText groups).length := by
  cases leading with
  | true => exact le_rfl
  | false =>
    rw [oidText, if_neg Bool.false_ne_true, List.length_tail]
    exact Nat.sub_le _ _

theorem ShortOid.buildFromWcsStr_eq (o : ShortOid) (leading : Bool) :
    buildFromWcsStr (some (oidText leading (o.components.map (decimal ·.toNat)))) =
      if Starts (oidText leading (o.components.map (decimal ·.toNat))) then {
        oids := some o.components
        wcsOid := some (dotted o.components) }
      else {} := by
  obtain ⟨components, hne, hlength, htext⟩ := o
  have hshort : ¬ MAXOIDSTRLEN < (oidText leading (components.map (decimal ·.toNat))).length :=
    not_lt.mpr ((length_oidText_le leading _).trans htext)
  cases components with
  | nil => exact absurd rfl hne
  | cons c cs =>
    have hdigits : ∀ g ∈ cs.map (fun d : UInt32 => decimal d.toNat), Digits g := by
      intro g hg
      obtain ⟨d, _, rfl⟩ := List.mem_map.mp hg
      exact digits_decimal d.toNat
    have hcount : ¬ MAXOIDLEN < (cs.map (fun d : UInt32 => decimal d.toNat)).length := by
      rw [List.length_map]
      rw [List.length_cons] at hlength
      omega
    rw [List.map_cons] at hshort
    have hvalues : (decimal c.toNat :: cs.map fun d : UInt32 => decimal d.toNat).map value =
      c :: cs := map_value_decimal (c :: cs)
    rw [List.map_cons, buildFromWcsStr_oidText leading (digits_decimal c.toNat) hdigits, hvalues]
    simp only [hshort, hcount, false_or, or_false, ite_not]
    rfl

theorem ShortOid.roundTrips_iff (o : ShortOid) :
    o.RoundTrips ↔ Starts (oidText false (o.components.map (decimal ·.toNat))) ∧
      (dotted o.components).length + 2 ≤ MAXOIDSTRLEN := by
  constructor
  · intro h
    constructor
    · have hparsed := h.parsed false
      by_contra hstarts
      rw [o.buildFromWcsStr_eq, if_neg hstarts] at hparsed
      cases hparsed
    · have hprinted := h.printed (fun _ => 0)
      by_contra hlong
      rw [ofComponents, makeWcsStr_eq, if_neg hlong] at hprinted
      cases hprinted
  · rintro ⟨hstarts, hlen⟩
    constructor
    · intro leading
      cases leading with
      | true =>
        have hdot : Starts (oidText true (o.components.map (decimal ·.toNat))) := by
          obtain ⟨c, cs, hcons⟩ := List.exists_cons_of_ne_nil o.components_ne
          rw [oidText_true, hcons]
          exact starts_dottedText _ _
        rw [o.buildFromWcsStr_eq, if_pos hdot]
      | false => rw [o.buildFromWcsStr_eq, if_pos hstarts]
    · intro raw
      rw [ofComponents, makeWcsStr_eq, if_pos hlen]

theorem LongOid.rejected_iff (o : LongOid) (leading : Bool) :
    o.Rejected leading ↔ o.groups.length ≠ MAXOIDLEN + 1 ∨
      MAXOIDSTRLEN < (oidText leading o.groups).length ∨
        ¬ Starts (oidText leading o.groups) := by
  obtain ⟨groups, hdigits, hlength⟩ := o
  cases groups with
  | nil => exact absurd hlength (Nat.not_lt_zero _)
  | cons g gs =>
    obtain ⟨hg, hgs⟩ := List.forall_mem_cons.mp hdigits
    have hcount : (g :: gs).length ≠ MAXOIDLEN + 1 ↔ MAXOIDLEN < gs.length := by
      rw [List.length_cons] at hlength ⊢
      omega
    rw [Rejected, hcount, buildFromWcsStr_oidText leading hg hgs]
    split_ifs with hreject
    · refine iff_of_true ⟨rfl, rfl⟩ ?_
      rcases hreject with hlong | hstarts | hmany
      · exact Or.inr (Or.inl hlong)
      · exact Or.inr (Or.inr hstarts)
      · exact Or.inl hmany
    · constructor
      · rintro ⟨_, hnone⟩
        cases hnone
      · intro h
        rcases h with hmany | hlong | hstarts
        · exact absurd (Or.inr (Or.inr hmany)) hreject
        · exact absurd (Or.inl hlong) hreject
        · exact absurd (Or.inr (Or.inl hstarts)) hreject

/-- Short object identifiers and their texts are converted into each other exactly if the text does
not start with 0 or 9 and is two characters shorter than the limit, and longer ones are rejected
except for one component too many in a text that is accepted otherwise. -/
theorem conversions_iff (o : ShortOid) (long : LongOid) (leading : Bool) :
    (o.RoundTrips ↔ Starts (oidText false (o.components.map (decimal ·.toNat))) ∧
      (dotted o.components).length + 2 ≤ MAXOIDSTRLEN) ∧
      (long.Rejected leading ↔ long.groups.length ≠ MAXOIDLEN + 1 ∨
        MAXOIDSTRLEN < (oidText leading long.groups).length ∨
          ¬ Starts (oidText leading long.groups)) := by
  constructor
  · exact o.roundTrips_iff
  · exact long.rejected_iff leading

def nine : ShortOid where
  components := [9]
  components_ne := by decide
  length_le := by decide
  text_le := by decide

def fiftyOne : LongOid where
  groups := List.replicate 51 (wcs "1")
  digits := by
    intro g hg
    rw [List.eq_of_mem_replicate hg]
    exact digits_decimal 1
  lt_length := by decide

/-- The text "9" is not accepted, and one component too many is. -/
theorem nine_and_fiftyOne : ¬ nine.RoundTrips ∧ ¬ fiftyOne.Rejected true := by
  constructor
  · intro h
    have hparsed := h.parsed false
    revert hparsed
    decide
  · rintro ⟨_, hnone⟩
    revert hnone
    decide +kernel

/-- All stores of the printer are inside the buffer, and the object has no text or the whole one. -/
structure PrintsSafely (cs : List UInt32) : Prop where
  inside : ∀ raw, ∀ i ∈ (wcsArray raw cs).1.stores, i ≤ MAXOIDSTRLEN
  text : ∀ raw, (makeWcsStr raw (ofComponents cs)).wcsOid = none ∨
    (makeWcsStr raw (ofComponents cs)).wcsOid = some (dotted cs)

theorem text_makeWcsStr (raw : ℕ → WChar) (cs : List UInt32) :
    (makeWcsStr raw (ofComponents cs)).wcsOid = none ∨
      (makeWcsStr raw (ofComponents cs)).wcsOid = some (dotted cs) := by
  rw [ofComponents, makeWcsStr_eq]
  split_ifs
  · exact Or.inr rfl
  · exact Or.inl rfl

/-- The printer stays in its buffer exactly if each component that is written ends in it. -/
theorem printsSafely_iff (cs : List UInt32) : PrintsSafely cs ↔ AtEach Fits cs := by
  have hbounds : ∀ raw, (∀ i ∈ (wcsArray raw cs).1.stores, i ≤ MAXOIDSTRLEN) ↔
      AtEach Fits cs := by
    intro raw
    rw [← inside_wcsArray raw, Inside, size_wcsArray]
    exact forall₂_congr fun _ _ => Nat.lt_succ_iff.symm
  constructor
  · intro h
    exact (hbounds fun _ => 0).mp (h.inside _)
  · intro h
    constructor
    · intro raw
      exact (hbounds raw).mpr h
    · intro raw
      exact text_makeWcsStr raw cs

/-- The last of these components starts at index 254. -/
theorem not_printsSafely_of_ten_digits : ¬ PrintsSafely (List.replicate 24 0xFFFFFFFF) := by
  have hleads : List.replicate 23 (0xFFFFFFFF : UInt32) ++ [0xFFFFFFFF] <+:
      List.replicate 24 0xFFFFFFFF := List.prefix_refl _
  have hroom : (dotted (List.replicate 23 0xFFFFFFFF)).length + 2 ≤ MAXOIDSTRLEN := by
    decide +kernel
  have hlong : ¬ (dotted (List.replicate 23 0xFFFFFFFF ++ [0xFFFFFFFF])).length ≤
      MAXOIDSTRLEN := by
    decide +kernel
  intro h
  have hinside : (wcsArray (fun _ => 0) (List.replicate 24 0xFFFFFFFF)).1.Inside := by
    intro i hi
    rw [size_wcsArray]
    exact Nat.lt_succ_of_le (h.inside _ i hi)
  exact hlong ((inside_wcsArray _ _).mp hinside _ _ hleads hroom)

end TrapHandler.CSnmpOid
