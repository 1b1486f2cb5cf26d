import TrapHandler.Loops
import TrapHandler.OidTexts

/-!
# Building an object identifier from a text

`BuildFromWcsStr` character by character, with the positions in its source and the stores into the two
arrays. The condition of its outer loop tests a pointer and never ends it. The text is written one
position behind the source where a dot is put in front of it, so the positions bound each other, and
the components never outnumber the pairs of characters read.
-/

namespace TrapHandler.CSnmpOid

open StateTransition Loops Scanners CharArray

/-- A terminated text in memory, and what lies behind the terminator. -/
structure WcsMemory where
  chars : WStr
  terminated : 0 ∉ chars
  behind : ℕ → WChar

def WcsMemory.read (src : WcsMemory) (i : ℕ) : WChar := (src.chars ++ [0])[i]?.getD (src.behind i)

/-- The variables of `BuildFromWcsStr`, and the indices of the source it has read. A null pointer is
an array of no cells. -/
structure Building where
  reads : List ℕ
  pSrc : ℕ
  wcsOid : CharArray WChar
  pDst : ℕ
  oids : CharArray UInt32
  nOids : ℕ

inductive BuildState where
  | loop (b : Building)
  | digits (b : Building) (tmpVal : UInt32)
  /-- Behind the return, where the arrays are deleted or kept. -/
  | done (b : Building) (kept : Bool)

namespace Building

def look (b : Building) : Building := { b with reads := b.reads ++ [b.pSrc] }

/-- `*pDst = *pSrc`, and both pointers are incremented. -/
def copy (b : Building) (c : WChar) : Building :=
  { b with wcsOid := b.wcsOid.store b.pDst c, pDst := b.pDst + 1, pSrc := b.pSrc + 1 }

def addOid (b : Building) (tmpVal : UInt32) : Building :=
  { b with oids := b.oids.store b.nOids tmpVal, nOids := b.nOids + 1 }

def terminate (b : Building) (i : ℕ) : Building := { b with wcsOid := b.wcsOid.store i 0 }

@[simp] theorem pDst_look (b : Building) : b.look.pDst = b.pDst := rfl

end Building

/-- The condition of the outer loop compares the pointer with null. -/
def buildStep (src : WcsMemory) : BuildState → Option BuildState
  | .loop b => some (.digits b 0)
  | .digits b tmpVal =>
    let c := src.read b.pSrc
    let b := b.look
    some <|
      if isDigit c then .digits (b.copy c) (tmpVal * 10 + (c - 0x30).toUInt32)
      else if b.wcsOid.cells (b.pDst - 1) ≠ dot then
        let b := b.addOid tmpVal
        if c ≠ dot then .done (b.terminate b.pDst) true
        else
          let b := b.copy c
          if b.nOids > MAXOIDLEN then .done b false else .loop b
      else if b.pDst = 1 then .done b false
      else .done (b.terminate (b.pDst - 1)) true
  | .done _ _ => none

/-- The part in front of the loop. `rawOids` and `rawWcs` are what the new arrays hold. -/
def buildStart (src : WcsMemory) (rawOids : ℕ → UInt32) (rawWcs : ℕ → WChar) : BuildState :=
  let strLen := src.chars.length
  let reads := List.range (strLen + 1)
  if strLen > MAXOIDSTRLEN then .done ⟨reads, 0, new 0 rawWcs, 0, new 0 rawOids, 0⟩ false
  else
    let oids := new ((strLen + 1) / 2) rawOids
    let c := src.read 0
    let reads := reads ++ [0]
    if 0x30 < c && c < 0x39 then
      .loop ⟨reads, 0, (new (strLen + 1 + 1) rawWcs).store 0 dot, 1, oids, 0⟩
    else if c = dot then .loop ⟨reads, 1, (new (strLen + 1) rawWcs).store 0 dot, 1, oids, 0⟩
    else .done ⟨reads, 0, new 0 rawWcs, 0, oids, 0⟩ false

namespace BuildState

def building : BuildState → Building
  | .loop b => b
  | .digits b _ => b
  | .done b _ => b

/-- `nOids` of the object. -/
def nOids : BuildState → ℕ
  | .done _ false => 0
  | s => s.building.nOids

def object : BuildState → CSnmpOid
  | .done b true =>
    { oids := some ((List.range b.nOids).map b.oids.cells), wcsOid := some b.wcsOid.text }
  | _ => {}

end BuildState

/-- What has been read and stored so far is inside the text and the arrays. -/
structure Bounded (src : WcsMemory) (b : Building) : Prop where
  reads : ∀ i ∈ b.reads, i ≤ src.chars.length
  oids : ∀ i ∈ b.oids.stores, i < (src.chars.length + 1) / 2
  wcsOid : b.wcsOid.Inside

/-- The text written and the components stored, with `off` the distance of the two positions. -/
structure Written (src : WcsMemory) (off : ℕ) (dst : WStr) (os : List UInt32) (b : Building) :
    Prop where
  bounded : Bounded src b
  pSrc : b.pSrc ≤ src.chars.length
  ahead : off ≤ 1
  pDst : b.pDst = b.pSrc + off
  size : b.wcsOid.size = src.chars.length + 1 + off
  length : dst.length = b.pDst
  text : b.wcsOid.StartsWith dst
  nonzero : 0 ∉ dst
  count : os.length = b.nOids
  components : b.oids.StartsWith os

variable {src : WcsMemory} {off : ℕ} {dst g : WStr} {os : List UInt32} {b : Building} {c : WChar}

theorem read_of_lt (h : b.pSrc < src.chars.length) :
    src.chars.drop b.pSrc = src.read b.pSrc :: src.chars.drop (b.pSrc + 1) := by
  rw [List.drop_eq_getElem_cons h, WcsMemory.read, List.getElem?_append_left h,
    List.getElem?_eq_getElem h, Option.getD_some]

theorem read_length (src : WcsMemory) : src.read src.chars.length = 0 := by
  rw [WcsMemory.read, List.getElem?_concat_length, Option.getD_some]

theorem Written.lt_of_read (h : Written src off dst os b) (hc : src.read b.pSrc ≠ 0) :
    b.pSrc < src.chars.length := by
  apply lt_of_le_of_ne h.pSrc
  intro heq
  rw [heq] at hc
  exact hc (read_length src)

theorem Written.lt_of_dot (h : Written src off dst os b) (hdot : src.read b.pSrc = dot) :
    b.pSrc < src.chars.length := by
  apply h.lt_of_read
  rw [hdot]
  decide

theorem eq_read_of_mem_head? (h : c ∈ (src.chars.drop b.pSrc).head?) : c = src.read b.pSrc := by
  by_cases hlt : b.pSrc < src.chars.length
  · rw [read_of_lt hlt] at h
    exact (Option.some.inj h).symm
  · rw [List.drop_of_length_le (not_lt.mp hlt)] at h
    cases h

theorem stops_drop (hc : isDigit (src.read b.pSrc) = false) :
    Stops isDigit (src.chars.drop b.pSrc) := by
  intro c hmem
  rw [eq_read_of_mem_head? hmem]
  exact hc

theorem Written.look (h : Written src off dst os b) : Written src off dst os b.look := by
  refine { h with bounded := { h.bounded with reads := ?_ } }
  intro i hi
  cases List.mem_append.mp hi with
  | inl hi => exact h.bounded.reads i hi
  | inr hi => exact List.mem_singleton.mp hi ▸ h.pSrc

theorem Written.copy (h : Written src off dst os b) (hlt : b.pSrc < src.chars.length)
    (hc : c ≠ 0) : Written src off (dst ++ [c]) os (b.copy c) where
  bounded := by
    have hroom : b.pDst < b.wcsOid.size := by
      rw [h.pDst, h.size]
      omega
    exact ⟨h.bounded.reads, h.bounded.oids, h.bounded.wcsOid.store hroom⟩
  pSrc := hlt
  ahead := h.ahead
  pDst := by
    change b.pDst + 1 = b.pSrc + 1 + off
    rw [h.pDst, Nat.add_right_comm]
  size := h.size
  length := by
    rw [List.length_append, h.length]
    rfl
  text := by
    have hstored := h.text.store (x := c)
    rw [h.length] at hstored
    exact hstored
  nonzero := by
    rw [List.mem_append, List.mem_singleton]
    exact not_or_intro h.nonzero hc.symm
  count := h.count
  components := h.components

theorem Written.addOid (h : Written src off dst os b)
    (hdst : 2 * os.length + 2 ≤ dst.length) (tmpVal : UInt32) :
    Written src off dst (os ++ [tmpVal]) (b.addOid tmpVal) := by
  have hroom : b.nOids < (src.chars.length + 1) / 2 := by
    rw [h.count, h.length, h.pDst] at hdst
    have hle := h.pSrc
    have hahead := h.ahead
    omega
  have hstored := h.components.store (x := tmpVal)
  rw [h.count] at hstored
  refine { h with bounded := { h.bounded with oids := ?_ }, count := ?_, components := hstored }
  · intro i hi
    cases List.mem_append.mp hi with
    | inl hi => exact h.bounded.oids i hi
    | inr hi => exact List.mem_singleton.mp hi ▸ hroom
  · rw [List.length_append, h.count]
    rfl

theorem Written.cells_last (h : Written src off dst os b) (hne : dst ≠ []) :
    b.wcsOid.cells (b.pDst - 1) = dst.getLast hne := by
  have hlt : dst.length - 1 < dst.length := Nat.sub_lt (List.length_pos_iff.mpr hne) Nat.one_pos
  rw [← h.length, h.text _ hlt, List.getLast_eq_getElem]

theorem Written.cells_last_eq_dot_iff (h : Written src off (dst ++ [dot] ++ g) os b)
    (hg : ∀ c ∈ g, isDigit c = true) : b.wcsOid.cells (b.pDst - 1) = dot ↔ g = [] := by
  have hne : dst ++ [dot] ++ g ≠ [] := by simp
  rw [h.cells_last hne]
  constructor
  · intro hlast
    by_contra hg'
    rw [List.getLast_append_of_ne_nil _ hg'] at hlast
    exact ne_of_isDigit (hg _ (List.getLast_mem hg')) (by decide) hlast
  · rintro rfl
    simp

structure Finished (src : WcsMemory) (dst : WStr) (os : List UInt32) (b : Building) : Prop where
  bounded : Bounded src b
  room : dst.length < b.wcsOid.size
  text : b.wcsOid.StartsWith (dst ++ [0])
  nonzero : 0 ∉ dst
  count : os.length = b.nOids
  components : b.oids.StartsWith os

theorem Written.terminate (h : Written src off (dst ++ g) os b) :
    Finished src dst os (b.terminate dst.length) := by
  have hroom : dst.length < b.wcsOid.size := by
    have hlen := h.length
    have hle := h.pSrc
    rw [List.length_append, h.pDst] at hlen
    rw [h.size]
    omega
  have hzero : 0 ∉ dst := fun hmem => h.nonzero (List.mem_append_left _ hmem)
  exact ⟨⟨h.bounded.reads, h.bounded.oids, h.bounded.wcsOid.store hroom⟩, hroom,
    h.text.left.store, hzero, h.count, h.components⟩

theorem Finished.terminator (h : Finished src dst os b) : b.wcsOid.cells dst.length = 0 := by
  have hlt : dst.length < (dst ++ [0]).length := by
    rw [List.length_append, List.length_singleton]
    exact Nat.lt_succ_self _
  rw [h.text _ hlt, List.getElem_concat_length rfl]

theorem Finished.object (h : Finished src dst os b) :
    (BuildState.done b true).object = { oids := some os, wcsOid := some dst } := by
  rw [BuildState.object, ← h.count, h.components.map_range, h.text.text h.nonzero h.room]

theorem value_concat (g : WStr) (c : WChar) :
    value (g ++ [c]) = value g * 10 + (c - 0x30).toUInt32 := by
  rw [value, ← foldl_uint32, List.foldl_concat, foldl_uint32]
  rfl

/-- The text in front of the number that is read ends in a dot, and a component stands for two of
its characters. The parser makes the same of the number and the rest of the source. -/
structure Reading (src : WcsMemory) (off : ℕ) (target : CSnmpOid) (dst g : WStr)
    (os : List UInt32) (b : Building) : Prop where
  written : Written src off (dst ++ [dot] ++ g) os b
  digits : ∀ c ∈ g, isDigit c = true
  paired : 2 * os.length ≤ dst.length
  parsed : ∃ fuel, (g ++ src.chars.drop b.pSrc).length < fuel ∧
    buildLoop fuel (g ++ src.chars.drop b.pSrc) (dst ++ [dot]) os = target

variable {target : CSnmpOid}

theorem Reading.digit (h : Reading src off target dst g os b)
    (hc : isDigit (src.read b.pSrc) = true) :
    Reading src off target dst (g ++ [src.read b.pSrc]) os (b.look.copy (src.read b.pSrc)) := by
  have hne : src.read b.pSrc ≠ 0 := ne_of_isDigit hc (by decide)
  have hlt := h.written.lt_of_read hne
  have hsame : g ++ [src.read b.pSrc] ++ src.chars.drop (b.pSrc + 1) =
      g ++ src.chars.drop b.pSrc := by
    rw [read_of_lt hlt, List.append_assoc]
    rfl
  constructor
  · rw [← List.append_assoc]
    exact h.written.look.copy hlt hne
  · intro c hmem
    cases List.mem_append.mp hmem with
    | inl hmem => exact h.digits c hmem
    | inr hmem => exact List.mem_singleton.mp hmem ▸ hc
  · exact h.paired
  · obtain ⟨fuel, hfuel, hparse⟩ := h.parsed
    rw [← hsame] at hfuel hparse
    exact ⟨fuel, hfuel, hparse⟩

theorem Reading.addOid (h : Reading src off target dst g os b) (hg : g ≠ []) :
    Written src off (dst ++ [dot] ++ g) (os ++ [value g]) (b.look.addOid (value g)) := by
  apply h.written.look.addOid
  have hpos := List.length_pos_iff.mpr hg
  have hpaired := h.paired
  rw [List.length_append, List.length_append, List.length_singleton]
  omega

theorem Reading.stop (h : Reading src off target dst g os b) (hg : g ≠ [])
    (hc : isDigit (src.read b.pSrc) = false) (hdot : src.read b.pSrc ≠ dot) :
    target = { oids := some (os ++ [value g]), wcsOid := some (dst ++ [dot] ++ g) } := by
  have hhead : (src.chars.drop b.pSrc).head? ≠ some dot := by
    intro hmem
    exact hdot (eq_read_of_mem_head? hmem).symm
  obtain ⟨fuel, hfuel, hparse⟩ := h.parsed
  cases fuel with
  | zero => exact absurd hfuel (Nat.not_lt_zero _)
  | succ fuel => rw [← hparse, buildLoop_stop ⟨hg, h.digits⟩ (stops_drop hc) hhead]

theorem Reading.next (h : Reading src off target dst g os b) (hg : g ≠ [])
    (hdot : src.read b.pSrc = dot) :
    if MAXOIDLEN < os.length + 1 then target = {}
    else Reading src off target (dst ++ [dot] ++ g) [] (os ++ [value g])
      ((b.look.addOid (value g)).copy dot) := by
  have hlt := h.written.lt_of_dot hdot
  obtain ⟨fuel, hfuel, hparse⟩ := h.parsed
  rw [read_of_lt hlt, hdot] at hfuel hparse
  cases fuel with
  | zero => exact absurd hfuel (Nat.not_lt_zero _)
  | succ fuel =>
    rw [buildLoop_dot ⟨hg, h.digits⟩] at hparse
    split_ifs at hparse ⊢ with hfull
    · exact hparse.symm
    · have hpos := List.length_pos_iff.mpr hg
      have hpaired := h.paired
      constructor
      · rw [List.append_nil]
        exact (h.addOid hg).copy hlt (by decide)
      · intro c hc
        cases hc
      · rw [List.length_append, List.length_append, List.length_append, List.length_singleton,
          List.length_singleton]
        omega
      · rw [List.length_append, List.length_cons] at hfuel
        have hless : (src.chars.drop (b.pSrc + 1)).length < fuel := by omega
        exact ⟨fuel, hless, hparse⟩

theorem Reading.none (h : Reading src off target dst [] os b)
    (hc : isDigit (src.read b.pSrc) = false) :
    target = if b.pDst = 1 then {} else { oids := some os, wcsOid := some dst } := by
  obtain ⟨fuel, hfuel, hparse⟩ := h.parsed
  have hlen := h.written.length
  rw [List.append_nil] at hlen
  cases fuel with
  | zero => exact absurd hfuel (Nat.not_lt_zero _)
  | succ fuel =>
    rw [List.nil_append, buildLoop_none (stops_drop hc), hlen, List.dropLast_concat] at hparse
    exact hparse.symm

/-- What holds on the way, where the parser makes `target` of the whole text. -/
def Builds (src : WcsMemory) (off : ℕ) (target : CSnmpOid) : BuildState → Prop
  | .loop b => ∃ dst os, Reading src off target dst [] os b
  | .digits b tmpVal => ∃ dst g os, Reading src off target dst g os b ∧ tmpVal = value g
  | .done b true =>
    ∃ dst os, Finished src dst os b ∧ target = { oids := some os, wcsOid := some dst }
  | .done b false => Bounded src b ∧ target = {}

/-- The passes of the two loops that the rest of the source has room for. -/
def passesLeft (src : WcsMemory) : BuildState → ℕ
  | .loop b => 2 * (src.chars.length - b.pSrc) + 2
  | .digits b _ => 2 * (src.chars.length - b.pSrc) + 1
  | .done _ _ => 0

theorem Reading.builds_digit (h : Reading src off target dst g os b)
    (hc : isDigit (src.read b.pSrc) = true) :
    Builds src off target (.digits (b.look.copy (src.read b.pSrc))
      (value g * 10 + (src.read b.pSrc - 0x30).toUInt32)) := by
  rw [← value_concat]
  exact ⟨dst, g ++ [src.read b.pSrc], os, h.digit hc, rfl⟩

theorem Reading.builds_none (h : Reading src off target dst [] os b)
    (hc : isDigit (src.read b.pSrc) = false) :
    Builds src off target
      (if b.look.pDst = 1 then .done b.look false
        else .done (b.look.terminate (b.look.pDst - 1)) true) := by
  have htarget := h.none hc
  have hwritten := h.written.look
  rw [List.append_nil] at hwritten
  rw [Building.pDst_look]
  by_cases hfirst : b.pDst = 1
  · rw [if_pos hfirst] at htarget ⊢
    exact ⟨hwritten.bounded, htarget⟩
  · have hpos : b.pDst - 1 = dst.length := by
      rw [← Building.pDst_look, ← hwritten.length, List.length_append, List.length_singleton,
        Nat.add_sub_cancel]
    rw [if_neg hfirst] at htarget ⊢
    rw [hpos]
    exact ⟨dst, os, hwritten.terminate, htarget⟩

theorem Reading.builds_stop (h : Reading src off target dst g os b) (hg : g ≠ [])
    (hc : isDigit (src.read b.pSrc) = false) (hdot : src.read b.pSrc ≠ dot) :
    Builds src off target (.done ((b.look.addOid (value g)).terminate b.look.pDst) true) := by
  have hwritten := h.addOid hg
  have hpos : (dst ++ [dot] ++ g).length = b.look.pDst := hwritten.length
  rw [← List.append_nil (dst ++ [dot] ++ g)] at hwritten
  rw [← hpos]
  exact ⟨_, _, hwritten.terminate, h.stop hg hc hdot⟩

theorem Reading.builds_dot (h : Reading src off target dst g os b) (hg : g ≠ [])
    (hdot : src.read b.pSrc = dot) :
    Builds src off target
      (if ((b.look.addOid (value g)).copy dot).nOids > MAXOIDLEN then
        .done ((b.look.addOid (value g)).copy dot) false
      else .loop ((b.look.addOid (value g)).copy dot)) := by
  have hnext := h.next hg hdot
  have hcount : os.length + 1 = ((b.look.addOid (value g)).copy dot).nOids :=
    congrArg (· + 1) h.written.count
  rw [hcount] at hnext
  by_cases hfull : ((b.look.addOid (value g)).copy dot).nOids > MAXOIDLEN
  · rw [if_pos hfull] at hnext ⊢
    have hlt := h.written.lt_of_dot hdot
    exact ⟨((h.addOid hg).copy hlt (by decide)).bounded, hnext⟩
  · rw [if_neg hfull] at hnext ⊢
    exact ⟨_, _, hnext⟩

theorem Reading.builds_step (h : Reading src off target dst g os b) {t : BuildState}
    (hstep : buildStep src (.digits b (value g)) = some t) : Builds src off target t := by
  have hlast := h.written.look.cells_last_eq_dot_iff h.digits
  rw [buildStep, Option.some.injEq] at hstep
  subst hstep
  by_cases hc : isDigit (src.read b.pSrc) = true
  · rw [if_pos hc]
    exact h.builds_digit hc
  rw [if_neg hc]
  rw [Bool.not_eq_true] at hc
  by_cases hg : g = []
  · rw [if_neg (not_not.mpr (hlast.mpr hg))]
    subst hg
    exact h.builds_none hc
  rw [if_pos (mt hlast.mp hg)]
  by_cases hdot : src.read b.pSrc = dot
  · rw [if_neg (not_not.mpr hdot), hdot]
    exact h.builds_dot hg hdot
  · rw [if_pos hdot]
    exact h.builds_stop hg hc hdot

theorem Written.passesLeft_step (h : Written src off dst os b) {tmpVal : UInt32} {t : BuildState}
    (hstep : buildStep src (.digits b tmpVal) = some t) :
    passesLeft src t < passesLeft src (.digits b tmpVal) := by
  rw [buildStep, Option.some.injEq] at hstep
  subst hstep
  dsimp only
  split_ifs with hc hlast hdot hfull hfirst
  · have hlt := h.lt_of_read (ne_of_isDigit hc (by decide))
    change 2 * (src.chars.length - (b.pSrc + 1)) + 1 < 2 * (src.chars.length - b.pSrc) + 1
    omega
  · exact Nat.succ_pos _
  · exact Nat.succ_pos _
  · have hlt := h.lt_of_dot (not_not.mp hdot)
    change 2 * (src.chars.length - (b.pSrc + 1)) + 2 < 2 * (src.chars.length - b.pSrc) + 1
    omega
  · exact Nat.succ_pos _
  · exact Nat.succ_pos _

theorem buildStep_variant (src : WcsMemory) (off : ℕ) (target : CSnmpOid) :
    Variant (buildStep src) (Builds src off target) (passesLeft src) := by
  constructor
  · intro s t h hstep
    cases s with
    | loop b =>
      obtain ⟨dst, os, h⟩ := h
      cases hstep
      exact ⟨dst, [], os, h, rfl⟩
    | digits b tmpVal =>
      obtain ⟨dst, g, os, h, rfl⟩ := h
      exact h.builds_step hstep
    | done b kept => cases hstep
  · intro s t h hstep
    cases s with
    | loop b =>
      cases hstep
      exact Nat.lt_succ_self _
    | digits b tmpVal =>
      obtain ⟨dst, g, os, h, -⟩ := h
      exact h.written.passesLeft_step hstep
    | done b kept => cases hstep

section Start

variable {reads : List ℕ} {oids : CharArray UInt32} {wcsOid : CharArray WChar} {pSrc pDst fuel : ℕ}
  (rawWcs : ℕ → WChar)

theorem bounded_start (hreads : ∀ i ∈ reads, i ≤ src.chars.length) (hoids : oids.stores = [])
    (hinside : wcsOid.Inside) : Bounded src ⟨reads, pSrc, wcsOid, pDst, oids, 0⟩ := by
  refine ⟨hreads, ?_, hinside⟩
  intro i hi
  rw [hoids] at hi
  cases hi

theorem written_start (hreads : ∀ i ∈ reads, i ≤ src.chars.length) (hoids : oids.stores = [])
    (hsrc : pSrc ≤ src.chars.length) (hdst : 1 = pSrc + off) :
    Written src off [dot] []
      ⟨reads, pSrc, (new (src.chars.length + 1 + off) rawWcs).store 0 dot, 1, oids, 0⟩ := by
  have hroom : 0 < (new (src.chars.length + 1 + off) rawWcs).size := by
    change 0 < src.chars.length + 1 + off
    omega
  have hinside := (inside_new (src.chars.length + 1 + off) rawWcs).store (x := dot) hroom
  have htext := (startsWith_nil (new (src.chars.length + 1 + off) rawWcs)).store (x := dot)
  exact ⟨bounded_start hreads hoids hinside, hsrc, by omega, hdst, rfl, rfl, htext, by decide, rfl,
    startsWith_nil _⟩

theorem reading_start (hreads : ∀ i ∈ reads, i ≤ src.chars.length) (hoids : oids.stores = [])
    (hsrc : pSrc ≤ src.chars.length) (hdst : 1 = pSrc + off)
    (hfuel : (src.chars.drop pSrc).length < fuel) :
    Reading src off (buildLoop fuel (src.chars.drop pSrc) [dot] []) [] [] []
      ⟨reads, pSrc, (new (src.chars.length + 1 + off) rawWcs).store 0 dot, 1, oids, 0⟩ where
  written := written_start rawWcs hreads hoids hsrc hdst
  digits := List.forall_mem_nil _
  paired := le_rfl
  parsed := ⟨fuel, hfuel, rfl⟩

end Start

theorem le_length_of_mem_reads {i : ℕ}
    (h : i ∈ List.range (src.chars.length + 1) ++ [0]) : i ≤ src.chars.length := by
  cases List.mem_append.mp h with
  | inl h => exact Nat.lt_succ_iff.mp (List.mem_range.mp h)
  | inr h => exact List.mem_singleton.mp h ▸ Nat.zero_le _

theorem buildFromWcsStr_of_le (src : WcsMemory) (hlen : ¬ src.chars.length > MAXOIDSTRLEN) :
    buildFromWcsStr (some src.chars) =
      if 0x30 < src.read 0 && src.read 0 < 0x39 then
        buildLoop (src.chars.length + 1) src.chars [dot] []
      else if src.read 0 = dot then buildLoop src.chars.length (src.chars.drop 1) [dot] []
      else {} := by
  rw [buildFromWcsStr.eq_def]
  refine (if_neg hlen).trans ?_
  cases hchars : src.chars with
  | nil =>
    have hread : src.read 0 = 0 := by rw [WcsMemory.read, hchars]; rfl
    rw [hread]
    rfl
  | cons c rest =>
    have hread : src.read 0 = c := by rw [WcsMemory.read, hchars]; rfl
    rw [hread]
    rfl

theorem pos_of_read_zero (hdot : src.read 0 = dot) : 0 < src.chars.length := by
  apply Nat.pos_of_ne_zero
  intro hzero
  have hread := read_length src
  rw [hzero, hdot] at hread
  exact absurd hread (by decide)

theorem exists_builds_start (src : WcsMemory) (rawOids : ℕ → UInt32) (rawWcs : ℕ → WChar) :
    ∃ off, Builds src off (buildFromWcsStr (some src.chars)) (buildStart src rawOids rawWcs) := by
  have hreads : ∀ i ∈ List.range (src.chars.length + 1) ++ [0], i ≤ src.chars.length :=
    fun _ => le_length_of_mem_reads
  rw [buildStart]
  by_cases hlong : src.chars.length > MAXOIDSTRLEN
  · rw [if_pos hlong, buildFromWcsStr_long hlong]
    have hrange := fun i hi => hreads i (List.mem_append_left _ hi)
    exact ⟨0, bounded_start hrange rfl (inside_new _ _), rfl⟩
  rw [if_neg hlong, buildFromWcsStr_of_le src hlong]
  by_cases hdigit : (0x30 < src.read 0 && src.read 0 < 0x39) = true
  · rw [if_pos hdigit, if_pos hdigit]
    have hfuel := Nat.lt_succ_self (src.chars.drop 0).length
    exact ⟨1, [], [], reading_start rawWcs hreads rfl (Nat.zero_le _) rfl hfuel⟩
  rw [if_neg hdigit, if_neg hdigit]
  by_cases hdot : src.read 0 = dot
  · rw [if_pos hdot, if_pos hdot]
    have hpos := pos_of_read_zero hdot
    have hfuel : (src.chars.drop 1).length < src.chars.length := by
      rw [List.length_drop]
      exact Nat.sub_lt hpos Nat.one_pos
    exact ⟨0, [], [], reading_start rawWcs hreads rfl hpos rfl hfuel⟩
  · rw [if_neg hdot, if_neg hdot]
    exact ⟨0, bounded_start hreads rfl (inside_new _ _), rfl⟩

variable {s : BuildState}

theorem Builds.bounded (h : Builds src off target s) : Bounded src s.building := by
  match s, h with
  | .loop _, ⟨_, _, h⟩ => exact h.written.bounded
  | .digits _ _, ⟨_, _, _, h, _⟩ => exact h.written.bounded
  | .done _ true, ⟨_, _, h, _⟩ => exact h.bounded
  | .done _ false, h => exact h.1

/-- The machine ends with the object of the parser, having stayed inside the text and the arrays. -/
theorem exists_builds_done (src : WcsMemory) (rawOids : ℕ → UInt32) (rawWcs : ℕ → WChar) :
    ∃ off b kept, .done b kept ∈ eval (buildStep src) (buildStart src rawOids rawWcs) ∧
      Builds src off (buildFromWcsStr (some src.chars)) (.done b kept) := by
  obtain ⟨off, hstart⟩ := exists_builds_start src rawOids rawWcs
  obtain ⟨s, hs, hbuilds⟩ := (buildStep_variant src off _).exists_mem_eval hstart
  have hexit := (mem_eval.mp hs).2
  cases s with
  | loop b => cases hexit
  | digits b tmpVal => cases hexit
  | done b kept => exact ⟨off, b, kept, hs, hbuilds⟩

theorem object_of_mem_eval {final : BuildState} {rawOids : ℕ → UInt32} {rawWcs : ℕ → WChar}
    (h : final ∈ eval (buildStep src) (buildStart src rawOids rawWcs)) :
    final.object = buildFromWcsStr (some src.chars) := by
  obtain ⟨off, b, kept, hend, hbuilds⟩ := exists_builds_done src rawOids rawWcs
  obtain rfl := Part.mem_unique h hend
  cases kept with
  | true =>
    obtain ⟨dst, os, hfinished, htarget⟩ := hbuilds
    rw [htarget, hfinished.object]
  | false => exact hbuilds.2.symm

structure BuildsSafely (src : WcsMemory) (start : BuildState) : Prop where
  ends : ∃ final, final ∈ eval (buildStep src) start
  bounded : ∀ s, Reaches (buildStep src) start s → Bounded src s.building
  terminated : ∀ final ∈ eval (buildStep src) start, 0 < final.nOids →
    ∃ i < final.building.wcsOid.size, final.building.wcsOid.cells i = 0

theorem buildStart_safely (src : WcsMemory) (rawOids : ℕ → UInt32) (rawWcs : ℕ → WChar) :
    BuildsSafely src (buildStart src rawOids rawWcs) := by
  obtain ⟨off, hstart⟩ := exists_builds_start src rawOids rawWcs
  obtain ⟨off', b, kept, hend, hbuilds⟩ := exists_builds_done src rawOids rawWcs
  constructor
  · exact ⟨_, hend⟩
  · intro s hs
    exact (reaches_invariant (buildStep_variant src off _).keeps hstart hs).bounded
  · intro final hfinal hcount
    obtain rfl := Part.mem_unique hfinal hend
    cases kept with
    | true =>
      obtain ⟨dst, os, hfinished, -⟩ := hbuilds
      exact ⟨dst.length, hfinished.room, hfinished.terminator⟩
    | false => exact absurd hcount (Nat.lt_irrefl 0)

end TrapHandler.CSnmpOid
