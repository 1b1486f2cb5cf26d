import TrapHandler.FieldParsing
import TrapHandler.OidTexts

/-!
# The cached text of an object identifier

A `CSnmpOid` keeps its text beside its components, and either can be missing. The operations are
those of objects with names, and a run is undefined from the step on that stores outside the buffer
of the text or deletes the text twice. The two conversions agree where the text is there or cannot be
made, and otherwise the constant one returns nothing.
-/

namespace TrapHandler.CSnmpOid

open CharArray Runs Scanners ByteReader ByteReader.Reader

/-- `MakeWcsStr`, with its stores; `none` is a store outside the buffer. -/
def makeWcsStrInside (raw : ℕ → WChar) (o : CSnmpOid) : Option CSnmpOid :=
  match o.oids, o.wcsOid with
  | some oids, none => if (wcsArray raw oids).1.Inside then some (o.makeWcsStr raw) else none
  | _, _ => some o

/-- `operator wchar_t*`, which returns the text of the object it leaves. -/
def operatorWcs (raw : ℕ → WChar) (o : CSnmpOid) : Option CSnmpOid :=
  if o.wcsOid = none then o.makeWcsStrInside raw else some o

/-- `operator const wchar_t*` -/
def operatorConstWcs (raw : ℕ → WChar) (o : CSnmpOid) : Option CSnmpOid :=
  if o.wcsOid ≠ none then o.makeWcsStrInside raw else some o

/-- The branch of `BuildFromWcsStr` in which the text, which was deleted before, is deleted again. -/
def invalidStart : Option WStr → Bool
  | none => false
  | some wcsNewOid =>
    wcsNewOid.length ≤ MAXOIDSTRLEN &&
      match wcsNewOid with
      | [] => true
      | c :: _ => !(0x30 < c && c < 0x39) && c != dot

/-- `operator =(const wchar_t *)`; `none` is the second deletion. -/
def assignWcsStr (wcsNewOid : Option WStr) (o : CSnmpOid) : Option CSnmpOid :=
  if o.wcsOid ≠ none ∧ invalidStart wcsNewOid = true then none
  else some (buildFromWcsStr wcsNewOid)

/-- `operator =(const CSnmpOid &)`, which is empty. -/
def assignOid (o : CSnmpOid) (_newOid : CSnmpOid) : CSnmpOid := o

def copy (copyOid : CSnmpOid) : CSnmpOid :=
  if copyOid.oids = none then {} else { oids := copyOid.oids, wcsOid := copyOid.wcsOid }

/-- What `ParseOid` leaves of an object. -/
def fill (octets : List UInt8) (o : CSnmpOid) : CSnmpOid := { o with oids := some (oidOf octets) }

theorem accepts_parseOid_fill {mem : Memory} {p : ℕ} {fieldLen : UInt32} {o oid : CSnmpOid}
    {c : Cursor} : Accepts (parseOid o fieldLen) mem (some p) oid c ↔
      oid = o.fill (slice mem p fieldLen.toNat) ∧ c = some (p + fieldLen.toNat) :=
  accepts_parseOid

abbrev Objects := ℕ → CSnmpOid

/-- The first name is that of the object an operation is called on. -/
inductive Op where
  | construct (i : ℕ) (wcsNewOid : Option WStr)
  | parseOid (i : ℕ) (octets : List UInt8)
  | copy (i j : ℕ)
  | assignWcsStr (i : ℕ) (wcsNewOid : Option WStr)
  | assignOid (i j : ℕ)
  | append (i j : ℕ)
  | operatorWcs (i : ℕ) (raw : ℕ → WChar)
  | operatorConstWcs (i : ℕ) (raw : ℕ → WChar)

namespace Op

def target : Op → ℕ
  | construct i _ | parseOid i _ | copy i _ | assignWcsStr i _ | assignOid i _ | append i _
  | operatorWcs i _ | operatorConstWcs i _ => i

def result (os : Objects) : Op → Option CSnmpOid
  | construct _ wcsNewOid => ({} : CSnmpOid).assignWcsStr wcsNewOid
  | parseOid i octets => some ((os i).fill octets)
  | copy _ j => some (os j).copy
  | assignWcsStr i wcsNewOid => (os i).assignWcsStr wcsNewOid
  | assignOid i j => some ((os i).assignOid (os j))
  | append i j => some ((os i).append (os j))
  | operatorWcs i raw => (os i).operatorWcs raw
  | operatorConstWcs i raw => (os i).operatorConstWcs raw

end Op

/-- `none` is a run that is undefined. -/
def step (s : Option Objects) (op : Op) : Option Objects := do
  let os ← s
  let o ← op.result os
  return Function.update os op.target o

/-- Digits behind dots, each number modulo `2 ^ 32`. -/
def Reads (text : WStr) (cs : List UInt32) : Prop :=
  ∃ groups : List WStr, (∀ g ∈ groups, Digits g) ∧ text = dottedText groups ∧
    groups.map value = cs

/-- Both conversions return one text, and that is null or it is that of the components. -/
def Coherent (o : CSnmpOid) : Prop :=
  ∀ raw, ∃ p q, o.operatorWcs raw = some p ∧ o.operatorConstWcs raw = some q ∧
    p.wcsOid = q.wcsOid ∧ ∀ text, p.wcsOid = some text → Reads text o.components

/-- A copy and an assignment compare equal, and the components of a sum follow each other. -/
def Op.Delivers (os os' : Objects) : Op → Prop
  | .copy i j => (os' i).equals (os j) = true
  | .assignOid i j => (os' i).equals (os' j) = true
  | .append i j => (os' i).components = (os i).components ++ (os j).components
  | _ => True

/-- A step is defined and delivers what it promises, and leaves coherent objects only. -/
def StepRight (s : Option Objects) (op : Op) : Prop :=
  ∃ os os', s = some os ∧ step s op = some os' ∧ op.Delivers os os' ∧ ∀ i, Coherent (os' i)

def fresh : Option Objects := some fun _ => {}

def RunRight (ops : List Op) : Prop :=
  AtEach (fun pre op => StepRight (run step fresh pre) op) ops

/-- Neither does the text fit nor is it stored outside the buffer. -/
def Unprintable (cs : List UInt32) : Prop :=
  AtEach Fits cs ∧ MAXOIDSTRLEN < (dotted cs).length + 2

variable {o : CSnmpOid} {cs ds : List UInt32} {text : WStr}

theorem coherent_of_text (h : o.wcsOid = some text) : Coherent o ↔ Reads text o.components := by
  have hwcs : ∀ raw, o.operatorWcs raw = some o := by
    intro raw
    rw [operatorWcs, h, if_neg (Option.some_ne_none text)]
  have hconst : ∀ raw, o.operatorConstWcs raw = some o := by
    intro raw
    rw [operatorConstWcs, h, if_pos (Option.some_ne_none text), makeWcsStrInside, h]
    cases o.oids <;> rfl
  constructor
  · intro hcoherent
    obtain ⟨p, q, hp, _, _, hreads⟩ := hcoherent fun _ => 0
    rw [hwcs, Option.some.injEq] at hp
    exact hreads text (hp ▸ h)
  · intro hreads raw
    refine ⟨o, o, hwcs raw, hconst raw, rfl, ?_⟩
    intro other hother
    rw [h, Option.some.injEq] at hother
    exact hother ▸ hreads

theorem coherent_of_null (hoids : o.oids = none) (h : o.wcsOid = none) : Coherent o := by
  intro raw
  have hwcs : o.operatorWcs raw = some o := by
    rw [operatorWcs, if_pos h, makeWcsStrInside, hoids]
  have hconst : o.operatorConstWcs raw = some o := by
    rw [operatorConstWcs, if_neg (not_not_intro h)]
  refine ⟨o, o, hwcs, hconst, rfl, ?_⟩
  intro text htext
  rw [h] at htext
  cases htext

theorem coherent_of_components (cs : List UInt32) :
    Coherent { oids := some cs } ↔ Unprintable cs := by
  have hwcs : ∀ raw, operatorWcs raw { oids := some cs } =
      if (wcsArray raw cs).1.Inside then some (makeWcsStr raw { oids := some cs }) else none := by
    intro raw
    rw [operatorWcs, if_pos rfl, makeWcsStrInside]
  have hconst : ∀ raw, operatorConstWcs raw { oids := some cs } = some { oids := some cs } := by
    intro raw
    rw [operatorConstWcs, if_neg (not_not_intro rfl)]
  constructor
  · intro h
    obtain ⟨p, q, hp, hq, heq, _⟩ := h fun _ => 0
    rw [hwcs] at hp
    rw [hconst, Option.some.injEq] at hq
    split_ifs at hp with hinside
    rw [Option.some.injEq, makeWcsStr_eq] at hp
    refine ⟨(inside_wcsArray _ cs).mp hinside, ?_⟩
    by_contra hlong
    rw [not_lt] at hlong
    rw [← hp, ← hq, if_pos hlong] at heq
    cases heq
  · rintro ⟨hfits, hlong⟩ raw
    have hprinted : makeWcsStr raw { oids := some cs } = { oids := some cs } := by
      rw [makeWcsStr_eq, if_neg (not_le.mpr hlong)]
    refine ⟨_, _, ?_, hconst raw, rfl, ?_⟩
    · rw [hwcs, if_pos ((inside_wcsArray raw cs).mpr hfits), hprinted]
    · intro text htext
      cases htext

theorem dottedText_inj {gs hs : List WStr} (hgs : ∀ g ∈ gs, Digits g) (hhs : ∀ h ∈ hs, Digits h)
    (heq : dottedText gs = dottedText hs) : gs = hs := by
  induction gs generalizing hs with
  | nil =>
    cases hs with
    | nil => rfl
    | cons h hs => cases heq
  | cons g gs ih =>
    cases hs with
    | nil => cases heq
    | cons h hs =>
      obtain ⟨hg, hgs⟩ := List.forall_mem_cons.mp hgs
      obtain ⟨hh, hhs⟩ := List.forall_mem_cons.mp hhs
      rw [dottedText_cons, dottedText_cons, List.cons.injEq] at heq
      have htake := congrArg (List.takeWhile isDigit) heq.2
      have hdrop := congrArg (List.dropWhile isDigit) heq.2
      rw [takeWhile_append_stops hg.2 (stops_dottedText gs),
        takeWhile_append_stops hh.2 (stops_dottedText hs)] at htake
      rw [dropWhile_append_stops hg.2 (stops_dottedText gs),
        dropWhile_append_stops hh.2 (stops_dottedText hs)] at hdrop
      rw [htake, ih hgs hhs hdrop]

theorem Reads.unique (h : Reads text cs) (h' : Reads text ds) : cs = ds := by
  obtain ⟨gs, hgs, hgtext, rfl⟩ := h
  obtain ⟨hs, hhs, hhtext, rfl⟩ := h'
  rw [dottedText_inj hgs hhs (hgtext ▸ hhtext)]

/-- What the parser leaves: nothing, or components with a text that is read as them. -/
def Parsed (o : CSnmpOid) : Prop :=
  o = {} ∨ ∃ text, o.wcsOid = some text ∧ Reads text o.components

theorem Parsed.coherent (h : Parsed o) : Coherent o := by
  rcases h with rfl | ⟨text, htext, hreads⟩
  · exact coherent_of_null rfl rfl
  · exact (coherent_of_text htext).mpr hreads

theorem dottedText_concat (gs : List WStr) (g : WStr) :
    dottedText (gs ++ [g]) = dottedText gs ++ dot :: g := by
  rw [dottedText, List.flatMap_append]
  exact congrArg (dottedText gs ++ dot :: ·) (List.append_nil g)

theorem parsed_of_groups {gs : List WStr} (hgs : ∀ g ∈ gs, Digits g) :
    Parsed { oids := some (gs.map value), wcsOid := some (dottedText gs) } :=
  Or.inr ⟨dottedText gs, rfl, gs, hgs, rfl, rfl⟩

theorem parsed_buildLoop (fuel : ℕ) (src : WStr) {gs : List WStr} (hgs : ∀ g ∈ gs, Digits g) :
    Parsed (buildLoop fuel src (dottedText gs ++ [dot]) (gs.map value)) := by
  induction fuel generalizing src gs with
  | zero => exact Or.inl rfl
  | succ fuel ih =>
    have hsrc := List.takeWhile_append_dropWhile (p := isDigit) (l := src)
    have hstops := stops_dropWhile (p := isDigit) src
    by_cases hdigits : src.takeWhile isDigit = []
    · rw [hdigits, List.nil_append] at hsrc
      rw [← hsrc, buildLoop_none hstops, List.dropLast_concat]
      split_ifs
      · exact Or.inl rfl
      · exact parsed_of_groups hgs
    · have hg : Digits (src.takeWhile isDigit) := ⟨hdigits, forall_mem_takeWhile src⟩
      have hconcat : ∀ g ∈ gs ++ [src.takeWhile isDigit], Digits g := by
        intro g hmem
        cases List.mem_append.mp hmem with
        | inl hmem => exact hgs g hmem
        | inr hmem => exact List.mem_singleton.mp hmem ▸ hg
      by_cases hdot : (src.dropWhile isDigit).head? = some dot
      · obtain ⟨rest, hrest⟩ := List.head?_eq_some_iff.mp hdot
        rw [hrest] at hsrc
        rw [← hsrc, buildLoop_dot hg]
        split_ifs
        · exact Or.inl rfl
        · have hnext := ih rest hconcat
          rw [dottedText_concat, List.map_append] at hnext
          rw [List.append_assoc (dottedText gs)]
          exact hnext
      · have hend := parsed_of_groups hconcat
        rw [dottedText_concat, List.map_append] at hend
        rw [← hsrc, buildLoop_stop hg hstops hdot, List.append_assoc]
        exact hend

theorem parsed_buildFromWcsStr (wcsNewOid : Option WStr) : Parsed (buildFromWcsStr wcsNewOid) := by
  have hnone : ∀ g ∈ ([] : List WStr), Digits g := List.forall_mem_nil _
  rw [buildFromWcsStr.eq_def]
  cases wcsNewOid with
  | none => exact Or.inl rfl
  | some text =>
    dsimp only
    split_ifs
    · exact Or.inl rfl
    · cases text with
      | nil => exact Or.inl rfl
      | cons c rest =>
        dsimp only
        split_ifs
        · exact parsed_buildLoop _ _ hnone
        · exact parsed_buildLoop _ _ hnone
        · exact Or.inl rfl

/-- When an operation keeps the promises, given that all objects are coherent. -/
def Op.Allowed (os : Objects) : Op → Prop
  | .parseOid i octets =>
    if (os i).wcsOid = none then Unprintable (oidOf octets)
    else oidOf octets = (os i).components
  | .assignWcsStr i wcsNewOid => (os i).wcsOid = none ∨ invalidStart wcsNewOid = false
  | .assignOid i j => (os i).components = (os j).components
  | .append i j =>
    (os j).nOids = 0 ∨ Unprintable ((os i).components ++ (os j).components)
  | _ => True

variable {os : Objects}

theorem stepRight_iff (h : ∀ i, Coherent (os i)) (op : Op) :
    StepRight (some os) op ↔ ∃ o, op.result os = some o ∧
      op.Delivers os (Function.update os op.target o) ∧ Coherent o := by
  have hstep : ∀ o, op.result os = some o →
      step (some os) op = some (Function.update os op.target o) := by
    intro o ho
    rw [step, Option.bind_eq_bind, Option.bind_some, ho]
    rfl
  constructor
  · rintro ⟨os₀, os', hos, hos', hdelivers, hcoherent⟩
    obtain rfl := Option.some.inj hos
    cases ho : op.result os with
    | none =>
      rw [step, Option.bind_eq_bind, Option.bind_some, ho] at hos'
      cases hos'
    | some o =>
      rw [hstep o ho, Option.some.injEq] at hos'
      rw [← hos'] at hdelivers hcoherent
      have hself := hcoherent op.target
      rw [Function.update_self] at hself
      exact ⟨o, rfl, hdelivers, hself⟩
  · rintro ⟨o, ho, hdelivers, hcoherent⟩
    refine ⟨os, _, rfl, hstep o ho, hdelivers, ?_⟩
    intro i
    by_cases hi : i = op.target
    · rw [hi, Function.update_self]
      exact hcoherent
    · rw [Function.update_of_ne hi]
      exact h i

theorem assignWcsStr_coherent_iff (wcsNewOid : Option WStr) (o : CSnmpOid) :
    (∃ o', assignWcsStr wcsNewOid o = some o' ∧ Coherent o') ↔
      o.wcsOid = none ∨ invalidStart wcsNewOid = false := by
  have hparsed := (parsed_buildFromWcsStr wcsNewOid).coherent
  rw [assignWcsStr]
  split_ifs with htwice
  · obtain ⟨hne, hinvalid⟩ := htwice
    refine iff_of_false ?_ ?_
    · rintro ⟨o', ho', _⟩
      cases ho'
    · rintro (hnull | hvalid)
      · exact hne hnull
      · rw [hinvalid] at hvalid
        cases hvalid
  · refine iff_of_true ⟨_, rfl, hparsed⟩ ?_
    rw [not_and_or, not_not, Bool.not_eq_true] at htwice
    exact htwice

theorem copy_coherent (h : Coherent o) : Coherent o.copy := by
  rw [copy]
  split_ifs
  · exact coherent_of_null rfl rfl
  · exact h

theorem components_copy (o : CSnmpOid) : o.copy.components = o.components := by
  rw [copy]
  split_ifs with hnull
  · rw [components, components, hnull]
  · rfl

theorem fill_coherent_iff (h : Coherent o) (octets : List UInt8) : Coherent (o.fill octets) ↔
    if o.wcsOid = none then Unprintable (oidOf octets) else oidOf octets = o.components := by
  cases htext : o.wcsOid with
  | none =>
    rw [if_pos rfl, ← coherent_of_components, fill, htext]
  | some text =>
    have hold := (coherent_of_text htext).mp h
    rw [if_neg (Option.some_ne_none text), coherent_of_text (o := o.fill octets) htext]
    constructor
    · intro hnew
      exact hnew.unique hold
    · intro heq
      have hnew : (o.fill octets).components = o.components := heq
      rw [hnew]
      exact hold

theorem append_coherent_iff {addOid : CSnmpOid} (h : Coherent o) :
    Coherent (o.append addOid) ↔
      addOid.nOids = 0 ∨ Unprintable (o.components ++ addOid.components) := by
  rw [append]
  split_ifs with hempty
  · exact iff_of_true h (Or.inl hempty)
  · rw [coherent_of_components, or_iff_right hempty]

theorem components_append (o addOid : CSnmpOid) :
    (o.append addOid).components = o.components ++ addOid.components := by
  rw [append]
  split_ifs with hempty
  · rw [List.length_eq_zero_iff.mp hempty, List.append_nil]
  · rfl

theorem operators_eq (h : Coherent o) (raw : ℕ → WChar) :
    o.operatorWcs raw = some o ∧ o.operatorConstWcs raw = some o := by
  obtain ⟨oids, wcsOid⟩ := o
  cases wcsOid with
  | some text => cases oids <;> exact ⟨rfl, rfl⟩
  | none =>
    cases oids with
    | none => exact ⟨rfl, rfl⟩
    | some cs =>
      obtain ⟨hfits, hlong⟩ := (coherent_of_components cs).mp h
      have hprinted : makeWcsStr raw { oids := some cs } = { oids := some cs } := by
        rw [makeWcsStr_eq, if_neg (not_le.mpr hlong)]
      refine ⟨?_, rfl⟩
      rw [operatorWcs, if_pos rfl, makeWcsStrInside]
      exact (if_pos ((inside_wcsArray raw cs).mpr hfits)).trans (congrArg some hprinted)

theorem stepRight_iff_allowed (h : ∀ i, Coherent (os i)) (op : Op) :
    StepRight (some os) op ↔ op.Allowed os := by
  rw [stepRight_iff h]
  cases op with
  | construct i wcsNewOid =>
    refine iff_of_true ⟨buildFromWcsStr wcsNewOid, ?_, trivial, ?_⟩ trivial
    · rw [Op.result, assignWcsStr, if_neg (fun hand => hand.1 rfl)]
    · exact (parsed_buildFromWcsStr wcsNewOid).coherent
  | parseOid i octets =>
    rw [Op.Allowed, ← fill_coherent_iff (h i)]
    constructor
    · rintro ⟨o, ho, _, hcoherent⟩
      exact Option.some.inj ho ▸ hcoherent
    · intro hcoherent
      exact ⟨_, rfl, trivial, hcoherent⟩
  | copy i j =>
    refine iff_of_true ⟨_, rfl, ?_, copy_coherent (h j)⟩ trivial
    rw [Op.Delivers, Op.target, Function.update_self, equals_iff]
    exact components_copy (os j)
  | assignWcsStr i wcsNewOid =>
    rw [Op.Allowed, ← assignWcsStr_coherent_iff]
    constructor
    · rintro ⟨o, ho, _, hcoherent⟩
      exact ⟨o, ho, hcoherent⟩
    · rintro ⟨o, ho, hcoherent⟩
      exact ⟨o, ho, trivial, hcoherent⟩
  | assignOid i j =>
    have hsame : Function.update os i (os i) = os := Function.update_eq_self i os
    rw [Op.Allowed, Op.result]
    constructor
    · rintro ⟨o, ho, hdelivers, _⟩
      rw [← Option.some.inj ho, Op.Delivers, Op.target, assignOid, hsame, equals_iff] at hdelivers
      exact hdelivers
    · intro heq
      refine ⟨os i, rfl, ?_, h i⟩
      rw [Op.Delivers, Op.target, hsame, equals_iff]
      exact heq
  | append i j =>
    rw [Op.Allowed, ← append_coherent_iff (h i)]
    constructor
    · rintro ⟨o, ho, _, hcoherent⟩
      exact Option.some.inj ho ▸ hcoherent
    · intro hcoherent
      refine ⟨_, rfl, ?_, hcoherent⟩
      rw [Op.Delivers, Op.target, Function.update_self]
      exact components_append (os i) (os j)
  | operatorWcs i raw => exact iff_of_true ⟨_, (operators_eq (h i) raw).1, trivial, h i⟩ trivial
  | operatorConstWcs i raw =>
    exact iff_of_true ⟨_, (operators_eq (h i) raw).2, trivial, h i⟩ trivial

theorem coherent_of_runRight {ops : List Op} (h : RunRight ops) :
    ∃ os, run step fresh ops = some os ∧ ∀ i, Coherent (os i) := by
  induction ops using List.reverseRecOn with
  | nil => exact ⟨_, rfl, fun _ => coherent_of_null rfl rfl⟩
  | append_singleton ops op _ =>
    obtain ⟨os, os', hos, hos', _, hcoherent⟩ := (atEach_concat.mp h).2
    refine ⟨os', ?_, hcoherent⟩
    rw [run_concat, hos']

/-- The promises are kept in every state of a run exactly if each step is allowed in the state before
it. -/
theorem runRight_iff (ops : List Op) : RunRight ops ↔
    AtEach (fun pre op => ∀ os, run step fresh pre = some os → op.Allowed os) ops := by
  induction ops using List.reverseRecOn with
  | nil => exact iff_of_true atEach_nil atEach_nil
  | append_singleton ops op ih =>
    rw [RunRight, atEach_concat, atEach_concat, ← ih]
    refine and_congr_right ?_
    intro hops
    obtain ⟨os, hos, hcoherent⟩ := coherent_of_runRight hops
    rw [hos, stepRight_iff_allowed hcoherent]
    constructor
    · intro hallowed os' hos'
      exact Option.some.inj hos' ▸ hallowed
    · intro hallowed
      exact hallowed os rfl

/-- After `ParseOid` the constant conversion returns nothing and the other one `.1.3`. -/
theorem not_runRight_of_parseOid : ¬ RunRight [.parseOid 0 [0x2B]] := by
  have hcomponents : oidOf [0x2B] = [1, 3] := by decide
  intro h
  have hstep := h [] _ (List.prefix_refl _)
  obtain ⟨os, os', hos, hos', _, hcoherent⟩ := hstep
  obtain rfl := Option.some.inj hos
  have hobject : os' 0 = { oids := some [1, 3] } := by
    rw [← Option.some.inj hos', Op.target, Function.update_self, fill, hcomponents]
  have hlong := ((coherent_of_components _).mp (hobject ▸ hcoherent 0)).2
  revert hlong
  decide

end TrapHandler.CSnmpOid
