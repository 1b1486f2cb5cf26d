import TrapHandler.DecodeBounds

/-!
# The length fields a decoder reaches

The layout of a trap as a survey of its length fields, in the order in which the decoder meets them.
A survey goes on behind a field that passes the check the decoder makes of it, and whose integer is
no longer than its parser accepts. It is compared with the run of the decoder: a field that fails
its check ends the run with a refusal before another byte is loaded, and an integer that is too long
ends it at the null pointer.
-/

namespace TrapHandler

open ByteReader ByteReader.Reader CSnmpTrap

inductive FieldSite where
  | envelope
  | version
  | community
  | request
  | oid
  | agentAddr
  | genericID
  | specificID
  | sourceTime
  | requestID
  | error
  | errorIndex
  | container
  | boolValue
  | integerValue
  | strValue
  | oidValue
  | ipValue
  deriving DecidableEq, Repr

/-- The octets an integer may have; the version is compared with four by the decoder itself. -/
def FieldSite.limit : FieldSite → Option ℕ
  | .genericID => some 4
  | .specificID => some 4
  | .requestID => some 4
  | .error => some 4
  | .errorIndex => some 4
  | .sourceTime => some 8
  | .integerValue => some 8
  | _ => none

structure FieldAt where
  site : FieldSite
  start : ℕ
  deriving DecidableEq, Repr

/-- A packet in memory, as one of the build targets sees it. -/
structure Scan where
  mem : Memory
  platform : Platform
  packetLen : UInt32

namespace Scan

variable (s : Scan)

/-- The offset behind the length field at `p`. -/
def fieldEnd (p : ℕ) : ℕ :=
  if (s.mem p).toNat < 128 then p + 1 else p + 1 + (s.mem p).toNat % 128

/-- The value of the length field at `p`, in 32 bits. -/
def fieldLen (p : ℕ) : UInt32 :=
  if (s.mem p).toNat < 128 then (s.mem p).toUInt32
  else uint32Of (slice s.mem (p + 1) ((s.mem p).toNat % 128))

/-- The check the decoder makes of a length: two are compared as numbers, two by their octet. -/
def passes (f : FieldAt) : Bool :=
  match f.site with
  | .envelope =>
    decide (((s.fieldLen f.start).toNat : ℤ) =
      bytesLeft s.platform s.packetLen (s.fieldEnd f.start))
  | .version => decide (s.fieldLen f.start ≤ 4)
  | .agentAddr => s.mem f.start == 4
  | .genericID => s.mem f.start == 1
  | _ => true

def Overlong (f : FieldAt) : Prop := ∃ limit ∈ f.site.limit, limit < (s.fieldLen f.start).toNat

instance (f : FieldAt) : Decidable (s.Overlong f) :=
  match h : f.site.limit with
  | none => isFalse (by rintro ⟨limit, hlimit, _⟩; rw [h] at hlimit; cases hlimit)
  | some limit =>
    decidable_of_iff (limit < (s.fieldLen f.start).toNat)
      ⟨fun hlt => ⟨limit, h, hlt⟩, by rintro ⟨l, hl, hlt⟩; rw [h] at hl; cases hl; exact hlt⟩

end Scan

abbrev Survey := ℕ → List FieldAt

namespace Survey

variable (s : Scan)

def expect (tag : UInt8) (next : Survey) : Survey := fun p =>
  if s.mem p == tag then next (p + 1) else []

def skip (k : ℕ) (next : Survey) : Survey := fun p => next (p + k)

def lengthField (site : FieldSite) (next : UInt32 → Survey) : Survey := fun p =>
  ⟨site, p⟩ ::
    if s.passes ⟨site, p⟩ = true ∧ ¬ s.Overlong ⟨site, p⟩ then next (s.fieldLen p) (s.fieldEnd p)
    else []

def content (site : FieldSite) (next : Survey) : Survey :=
  lengthField s site fun k => skip k.toNat next

def container (next : Survey) : Survey :=
  expect s SNMP_TYPE_SEQ (lengthField s .container fun _ => next)

def field (site : FieldSite) (tag : UInt8) (next : Survey) : Survey :=
  expect s tag (content s site next)

def value (next : Survey) : Survey := fun p =>
  if s.mem p == SNMP_TYPE_BOOL then
    lengthField s .boolValue (fun _ => skip 2 next) (p + 1)
  else if s.mem p == SNMP_TYPE_INT || s.mem p == SNMP_TYPE_TIME then
    content s .integerValue next (p + 1)
  else if s.mem p == SNMP_TYPE_STR then content s .strValue next (p + 1)
  else if s.mem p == SNMP_TYPE_NULL then next (p + 2)
  else if s.mem p == SNMP_TYPE_OID then content s .oidValue next (p + 1)
  else if s.mem p == SNMP_TYPE_IPADDR then content s .ipValue next (p + 1)
  else []

def varbinds : ℕ → Survey
  | 0 => fun _ => []
  | fuel + 1 => fun p =>
    if s.mem p == SNMP_TYPE_SEQ && p < s.packetLen.toNat then
      lengthField s .container (fun _ => field s .oid SNMP_TYPE_OID (value s (varbinds fuel)))
        (p + 1)
    else []

def v1Fields (next : Survey) : Survey :=
  field s .oid SNMP_TYPE_OID <|
  field s .agentAddr SNMP_TYPE_IPADDR <|
  field s .genericID SNMP_TYPE_INT <|
  field s .specificID SNMP_TYPE_INT <|
  field s .sourceTime SNMP_TYPE_TIME <|
  container s next

def v2Fields (next : Survey) : Survey :=
  field s .requestID SNMP_TYPE_INT <|
  field s .error SNMP_TYPE_INT <|
  field s .errorIndex SNMP_TYPE_INT <|
  container s <|
  container s <|
  field s .oid SNMP_TYPE_OID <|
  field s .sourceTime SNMP_TYPE_TIME <|
  container s <|
  field s .oid SNMP_TYPE_OID <|
  field s .oid SNMP_TYPE_OID next

def fields (next : Survey) (trapType : UInt8) : Survey :=
  if trapType == SNMP_V1TRAP then v1Fields s next else v2Fields s next

def request (next : UInt8 → Survey) : Survey := fun p =>
  if s.mem p == SNMP_V1TRAP || s.mem p == SNMP_V2INFORM || s.mem p == SNMP_V2TRAP then
    lengthField s .request (fun _ => next (s.mem p)) (p + 1)
  else []

def message (next : UInt8 → Survey) : Survey :=
  expect s 0x30 <|
  lengthField s .envelope fun _ =>
  field s .version SNMP_TYPE_INT <|
  field s .community SNMP_TYPE_STR <|
  request s next

end Survey

def Scan.reached (s : Scan) : List FieldAt :=
  Survey.message s (Survey.fields s (Survey.varbinds s s.packetLen.toNat)) 0

variable {α β : Type} {s : Scan} {p : ℕ} {fs : List FieldAt}

/-- What the run from an offset has to do with the length fields that are reached. -/
structure Meets (s : Scan) (r : Reader β) (p : ℕ) (fs : List FieldAt) : Prop where
  ahead : ∀ f ∈ fs, p ≤ f.start
  fault_iff : (r s.mem (some p)).outcome = .fault ↔
    ∃ f ∈ fs, s.passes f = true ∧ s.Overlong f
  refused : ∀ f ∈ fs, s.passes f = false → (r s.mem (some p)).outcome = .reject ∧
    Inside (s.fieldEnd f.start) r s.mem (some p)
  passed : ∀ f ∈ fs, s.passes f = true → ¬ Inside (s.fieldEnd f.start) r s.mem (some p)

structure Reads (s : Scan) (r : Reader β) (p : ℕ) (fs : List FieldAt) : Prop
    extends Meets s r p fs where
  eager : ¬ Inside p r s.mem (some p)

theorem Scan.lt_fieldEnd (s : Scan) (p : ℕ) : p < s.fieldEnd p := by
  rw [Scan.fieldEnd]
  split_ifs
  · omega
  · omega

theorem meets_nil {r : Reader β} (houtcome : (r s.mem (some p)).outcome ≠ .fault) :
    Meets s r p [] where
  ahead := List.forall_mem_nil _
  fault_iff := by
    constructor
    · intro h
      exact absurd h houtcome
    · rintro ⟨f, hf, _⟩
      exact absurd hf List.not_mem_nil
  refused := List.forall_mem_nil _
  passed := List.forall_mem_nil _

theorem reads_skip {r : Reader α} {f : α → Reader β} {a : α} {k : ℕ}
    (hr : Accepts r s.mem (some p) a (some (p + k)))
    (hin : ∀ n, p + k ≤ n → Inside n r s.mem (some p)) (hf : Reads s (f a) (p + k) fs) :
    Reads s (r >>= f) p fs where
  ahead g hg := (Nat.le_add_right p k).trans (hf.ahead g hg)
  eager h := hf.eager (((inside_bind.mp h).2 a _ hr).mono (Nat.le_add_right p k))
  fault_iff := by
    rw [hr.outcome_bind]
    exact hf.fault_iff
  refused g hg hpass := by
    obtain ⟨houtcome, hinside⟩ := hf.refused g hg hpass
    have hstart := hf.ahead g hg
    have hend := s.lt_fieldEnd g.start
    rw [hr.outcome_bind, Inside, hr.touches_bind]
    exact ⟨houtcome, hin _ (by omega), hinside⟩
  passed g hg hpass h := hf.passed g hg hpass ((inside_bind.mp h).2 a _ hr)

theorem reads_consumes {r : Reader α} {f : α → Reader β} {a : α} {k : ℕ}
    (hr : Consumes r s.mem p a k) (hf : Reads s (f a) (p + k) fs) : Reads s (r >>= f) p fs := by
  apply reads_skip hr.accepts _ hf
  intro n hn
  rw [hr.inside_iff]
  omega

theorem reads_advance {f : Unit → Reader β} (hf : Reads s (f ()) (p + 1) fs) :
    Reads s (advance >>= f) p fs :=
  reads_skip (advance_accepts s.mem p) (fun _ _ => touches_advance) hf

theorem reads_offset {f : ℕ → Reader β} (hf : Reads s (f p) p fs) : Reads s (offset >>= f) p fs :=
  reads_skip (k := 0) (offset_accepts s.mem p) (fun _ _ => touches_offset) hf

theorem reads_require {b : Bool} (hb : b = true) {f : Unit → Reader β}
    (hf : Reads s (f ()) p fs) : Reads s (require b >>= f) p fs := by
  subst hb
  exact hf

theorem consumes_getFieldLength (s : Scan) (p : ℕ) :
    Consumes getFieldLength s.mem p (s.fieldLen p) (s.fieldEnd p - p) := by
  rw [Scan.fieldLen, Scan.fieldEnd]
  by_cases hb : (s.mem p).toNat < 128
  · rw [if_pos hb, if_pos hb, Nat.add_sub_cancel_left]
    exact consumes_getFieldLength_short hb
  · have hsub : p + 1 + (s.mem p).toNat % 128 - p = (s.mem p).toNat % 128 + 1 := by omega
    rw [if_neg hb, if_neg hb, hsub]
    exact consumes_getFieldLength_long hb

theorem outcome_getFieldLength_bind {f : UInt32 → Reader β} :
    ((getFieldLength >>= f) s.mem (some p)).outcome =
      (f (s.fieldLen p) s.mem (some (s.fieldEnd p))).outcome := by
  have h := (consumes_getFieldLength s p).accepts.outcome_bind (f := f)
  rwa [Nat.add_sub_cancel' (s.lt_fieldEnd p).le] at h

theorem Scan.inside_getFieldLength_bind {n : ℕ} {f : UInt32 → Reader β} :
    Inside n (getFieldLength >>= f) s.mem (some p) ↔
      s.fieldEnd p ≤ n ∧ Inside n (f (s.fieldLen p)) s.mem (some (s.fieldEnd p)) := by
  have hlt := s.lt_fieldEnd p
  have h := (consumes_getFieldLength s p).inside_bind (f := f) (n := n)
  rw [Nat.add_sub_cancel' hlt.le] at h
  rw [h]
  exact and_congr_left' (by omega)

theorem eager_getFieldLength_bind {f : UInt32 → Reader β} :
    ¬ Inside p (getFieldLength >>= f) s.mem (some p) := by
  intro h
  have hend := (Scan.inside_getFieldLength_bind.mp h).1
  have hlt := s.lt_fieldEnd p
  omega

theorem reads_refused {site : FieldSite} {r : Reader β} (hpass : s.passes ⟨site, p⟩ = false)
    (heager : ¬ Inside p r s.mem (some p)) (houtcome : (r s.mem (some p)).outcome = .reject)
    (hinside : Inside (s.fieldEnd p) r s.mem (some p)) : Reads s r p [⟨site, p⟩] where
  ahead := by simp
  eager := heager
  fault_iff := by
    rw [houtcome]
    simp [hpass]
  refused g hg _ := by
    obtain rfl := List.mem_singleton.mp hg
    exact ⟨houtcome, hinside⟩
  passed g hg hp := by
    obtain rfl := List.mem_singleton.mp hg
    rw [hpass] at hp
    cases hp

theorem reads_null {site : FieldSite} {f : UInt32 → Reader β}
    (hpass : s.passes ⟨site, p⟩ = true) (hlong : s.Overlong ⟨site, p⟩)
    (hf : Crashes (f (s.fieldLen p)) s.mem (some (s.fieldEnd p))) :
    Reads s (getFieldLength >>= f) p [⟨site, p⟩] where
  ahead := by simp
  eager := eager_getFieldLength_bind
  fault_iff := by
    rw [outcome_getFieldLength_bind]
    exact ⟨fun _ => ⟨_, List.mem_singleton_self _, hpass, hlong⟩, fun _ => hf.outcome⟩
  refused g hg hp := by
    obtain rfl := List.mem_singleton.mp hg
    rw [hpass] at hp
    cases hp
  passed g hg _ h := hf.not_inside _ (Scan.inside_getFieldLength_bind.mp h).2

theorem reads_passed {site : FieldSite} {f : UInt32 → Reader β}
    (hpass : s.passes ⟨site, p⟩ = true) (hshort : ¬ s.Overlong ⟨site, p⟩)
    (hf : Reads s (f (s.fieldLen p)) (s.fieldEnd p) fs) :
    Reads s (getFieldLength >>= f) p (⟨site, p⟩ :: fs) where
  ahead g hg := by
    obtain rfl | hg := List.mem_cons.mp hg
    · exact le_rfl
    · exact (s.lt_fieldEnd p).le.trans (hf.ahead g hg)
  eager := eager_getFieldLength_bind
  fault_iff := by
    rw [outcome_getFieldLength_bind, hf.fault_iff]
    constructor
    · rintro ⟨g, hg, hbad⟩
      exact ⟨g, List.mem_cons_of_mem _ hg, hbad⟩
    · rintro ⟨g, hg, hgpass, hglong⟩
      obtain rfl | hg := List.mem_cons.mp hg
      · exact absurd hglong hshort
      · exact ⟨g, hg, hgpass, hglong⟩
  refused g hg hp := by
    obtain rfl | hg := List.mem_cons.mp hg
    · rw [hpass] at hp
      cases hp
    · obtain ⟨houtcome, hinside⟩ := hf.refused g hg hp
      have hahead := hf.ahead g hg
      have hlt := s.lt_fieldEnd g.start
      rw [outcome_getFieldLength_bind, Scan.inside_getFieldLength_bind]
      exact ⟨houtcome, by omega, hinside⟩
  passed g hg hp h := by
    have hrest := (Scan.inside_getFieldLength_bind.mp h).2
    obtain rfl | hg := List.mem_cons.mp hg
    · exact hf.eager hrest
    · exact hf.passed g hg hp hrest

/-- A length field, and a reader that refuses where the field fails its check, goes to the null
pointer where the integer behind it is too long, and has a survey otherwise. -/
theorem reads_lengthField {site : FieldSite} {f : UInt32 → Reader β} {next : UInt32 → Survey}
    (hrefuse : s.passes ⟨site, p⟩ = false → Refuses (f (s.fieldLen p)) s.mem (some (s.fieldEnd p)))
    (hnull : s.passes ⟨site, p⟩ = true → s.Overlong ⟨site, p⟩ →
      Crashes (f (s.fieldLen p)) s.mem (some (s.fieldEnd p)))
    (hf : s.passes ⟨site, p⟩ = true → ¬ s.Overlong ⟨site, p⟩ →
      Reads s (f (s.fieldLen p)) (s.fieldEnd p) (next (s.fieldLen p) (s.fieldEnd p))) :
    Reads s (getFieldLength >>= f) p (Survey.lengthField s site next p) := by
  rw [Survey.lengthField]
  by_cases hpass : s.passes ⟨site, p⟩ = true
  · by_cases hlong : s.Overlong ⟨site, p⟩
    · rw [if_neg (fun h => h.2 hlong)]
      exact reads_null hpass hlong (hnull hpass hlong)
    · rw [if_pos ⟨hpass, hlong⟩]
      exact reads_passed hpass hlong (hf hpass hlong)
  · rw [if_neg (fun h => hpass h.1)]
    rw [Bool.not_eq_true] at hpass
    apply reads_refused hpass eager_getFieldLength_bind
    · rw [outcome_getFieldLength_bind, (hrefuse hpass).outcome]
    · rw [Scan.inside_getFieldLength_bind]
      exact ⟨le_rfl, (hrefuse hpass).inside _⟩

theorem Scan.not_overlong_of_limit_eq_none {g : FieldAt} (h : g.site.limit = none) :
    ¬ s.Overlong g := by
  rintro ⟨limit, hlimit, _⟩
  rw [h] at hlimit
  cases hlimit

theorem Scan.overlong_iff {g : FieldAt} {limit : ℕ} (h : g.site.limit = some limit) :
    s.Overlong g ↔ limit < (s.fieldLen g.start).toNat := by
  rw [Scan.Overlong, h]
  simp

theorem crashes_expectTag {mem : Memory} {tag : UInt8} {f : Unit → Reader β} :
    Crashes (expectTag tag >>= f) mem none :=
  ⟨rfl, fun _ => not_inside_expectTag_none⟩

theorem crashes_varbindLoop {mem : Memory} {packetLen : UInt32} {fuel : ℕ}
    {varArgs : List CSnmpTrapVar} {f : List CSnmpTrapVar → Reader β} :
    Crashes (varbindLoop packetLen fuel varArgs >>= f) mem none where
  outcome := by
    cases fuel with
    | zero => rfl
    | succ fuel => rfl
  not_inside _ h := not_inside_varbindLoop_none (inside_bind.mp h).1

theorem reads_peek {g : UInt8 → Reader β} (hg : Meets s (g (s.mem p)) p fs) :
    Reads s (peek >>= g) p fs where
  ahead := hg.ahead
  eager := by
    rw [inside_peek_bind]
    exact fun h => Nat.lt_irrefl p h.1
  fault_iff := by
    rw [(peek_accepts s.mem p).outcome_bind]
    exact hg.fault_iff
  refused h hh hpass := by
    obtain ⟨hrejected, hrest⟩ := hg.refused h hh hpass
    have hahead := hg.ahead h hh
    have hlt := s.lt_fieldEnd h.start
    rw [(peek_accepts s.mem p).outcome_bind, inside_peek_bind]
    exact ⟨hrejected, by omega, hrest⟩
  passed h hh hpass hin := by
    rw [inside_peek_bind] at hin
    exact hg.passed h hh hpass hin.2

/-- From every offset the run has the survey's length fields in front of it. -/
def Surveyed (s : Scan) (r : Reader β) (survey : Survey) : Prop := ∀ p, Reads s r p (survey p)

variable {next : Survey} {site : FieldSite}

theorem surveyed_expectTag {tag : UInt8} {f : Unit → Reader β} (hf : Surveyed s (f ()) next) :
    Surveyed s (expectTag tag >>= f) (Survey.expect s tag next) := by
  intro p
  simp only [expectTag, bind_assoc]
  rw [Survey.expect]
  by_cases htag : (s.mem p == tag) = true
  · rw [if_pos htag]
    exact reads_peek (reads_require htag (reads_advance (hf (p + 1)))).toMeets
  · rw [if_neg htag]
    apply reads_peek
    apply meets_nil
    rw [(refuses_require (Bool.not_eq_true _ ▸ htag)).outcome]
    simp

theorem surveyed_checked {f : UInt32 → Reader β} {next : UInt32 → Survey}
    (hlimit : site.limit = none)
    (hrefuse : ∀ p, s.passes ⟨site, p⟩ = false →
      Refuses (f (s.fieldLen p)) s.mem (some (s.fieldEnd p)))
    (hf : ∀ p, s.passes ⟨site, p⟩ = true →
      Reads s (f (s.fieldLen p)) (s.fieldEnd p) (next (s.fieldLen p) (s.fieldEnd p))) :
    Surveyed s (getFieldLength >>= f) (Survey.lengthField s site next) := by
  intro p
  apply reads_lengthField (hrefuse p)
  · intro _ hlong
    exact absurd hlong (Scan.not_overlong_of_limit_eq_none hlimit)
  · intro hpass _
    exact hf p hpass

theorem surveyed_lengthField {f : UInt32 → Reader β} {next : UInt32 → Survey}
    (hpass : ∀ p, s.passes ⟨site, p⟩ = true) (hlimit : site.limit = none)
    (hf : ∀ k, Surveyed s (f k) (next k)) :
    Surveyed s (getFieldLength >>= f) (Survey.lengthField s site next) := by
  apply surveyed_checked hlimit
  · intro p hfail
    rw [hpass p] at hfail
    cases hfail
  · intro p _
    exact hf _ _

theorem surveyed_content {r : UInt32 → Reader α} {f : α → Reader β}
    (hpass : ∀ p, s.passes ⟨site, p⟩ = true) (hlimit : site.limit = none)
    (hr : ∀ k p, ∃ a, Consumes (r k) s.mem p a k.toNat) (hf : ∀ a, Surveyed s (f a) next) :
    Surveyed s (getFieldLength >>= fun k => r k >>= f) (Survey.content s site next) := by
  apply surveyed_lengthField hpass hlimit
  intro k p
  obtain ⟨a, ha⟩ := hr k p
  exact reads_consumes ha (hf a _)

theorem surveyed_integer {r : UInt32 → Reader α} {f : α → Reader β} {limit : ℕ}
    (hpass : ∀ p, s.passes ⟨site, p⟩ = true) (hlimit : site.limit = some limit)
    (hshort : ∀ k : UInt32, k.toNat ≤ limit → ∀ p, ∃ a, Consumes (r k) s.mem p a k.toNat)
    (hlong : ∀ k : UInt32, ¬ k.toNat ≤ limit → ∀ p, ∃ a, Accepts (r k) s.mem (some p) a none)
    (hnull : ∀ a, Crashes (f a) s.mem none) (hf : ∀ a, Surveyed s (f a) next) :
    Surveyed s (getFieldLength >>= fun k => r k >>= f) (Survey.content s site next) := by
  intro p
  apply reads_lengthField
  · intro hfail
    rw [hpass p] at hfail
    cases hfail
  · intro _ hover
    rw [Scan.overlong_iff hlimit] at hover
    obtain ⟨a, ha⟩ := hlong (s.fieldLen p) (Nat.not_le.mpr hover) (s.fieldEnd p)
    exact .of_accepts ha (hnull a)
  · intro _ hover
    rw [Scan.overlong_iff hlimit] at hover
    obtain ⟨a, ha⟩ := hshort (s.fieldLen p) (Nat.not_lt.mp hover) (s.fieldEnd p)
    exact reads_consumes ha (hf a _)

theorem Scan.fieldLen_of_short {l : UInt8} (hl : l.toNat < 128) (h : s.mem p = l) :
    s.fieldLen p = l.toUInt32 := by
  rw [Scan.fieldLen, h, if_pos hl]

theorem surveyed_octet {l : UInt8} {r : UInt32 → Reader α} {f : α → Reader β} (hl : l.toNat < 128)
    (hpass : ∀ p, s.passes ⟨site, p⟩ = (s.mem p == l))
    (hlimit : ∀ limit ∈ site.limit, l.toNat ≤ limit)
    (hr : ∀ p, ∃ a, Consumes (r l.toUInt32) s.mem p a l.toUInt32.toNat)
    (hf : ∀ a, Surveyed s (f a) next) :
    Surveyed s (peek >>= fun b => require (b == l) >>= fun _ => getFieldLength >>= fun k =>
      r k >>= f) (Survey.content s site next) := by
  intro p
  rw [Survey.content, Survey.lengthField, hpass]
  by_cases hb : (s.mem p == l) = true
  · have hlen := Scan.fieldLen_of_short hl (beq_iff_eq.mp hb)
    have hshort : ¬ s.Overlong ⟨site, p⟩ := by
      rintro ⟨limit, hmem, hlt⟩
      rw [hlen, UInt8.toNat_toUInt32] at hlt
      exact absurd (hlimit limit hmem) (Nat.not_le.mpr hlt)
    rw [if_pos ⟨hb, hshort⟩]
    have hread : Reads s (getFieldLength >>= fun k => r k >>= f) p
        (⟨site, p⟩ :: Survey.skip (s.fieldLen p).toNat next (s.fieldEnd p)) := by
      apply reads_passed ((hpass p).trans hb) hshort
      obtain ⟨a, ha⟩ := hr (s.fieldEnd p)
      rw [hlen]
      exact reads_consumes ha (hf a _)
    exact reads_peek (reads_require hb hread).toMeets
  · have hb' : (s.mem p == l) = false := Bool.not_eq_true _ ▸ hb
    rw [if_neg (fun h => hb h.1)]
    apply reads_refused ((hpass p).trans hb')
    · rw [inside_peek_bind]
      exact fun h => Nat.lt_irrefl p h.1
    · rw [(peek_accepts s.mem p).outcome_bind]
      exact (refuses_require hb').outcome
    · rw [inside_peek_bind]
      exact ⟨s.lt_fieldEnd p, (refuses_require hb').inside _⟩

theorem surveyed_container {f : UInt32 → Reader β} (hf : ∀ k, Surveyed s (f k) next) :
    Surveyed s (expectTag SNMP_TYPE_SEQ >>= fun _ => getFieldLength >>= f)
      (Survey.container s next) :=
  surveyed_expectTag (surveyed_lengthField (fun _ => rfl) rfl hf)

theorem surveyed_oid {f : CSnmpOid → Reader β} (hf : ∀ oid, Surveyed s (f oid) next) :
    Surveyed s (expectTag SNMP_TYPE_OID >>= fun _ => getFieldLength >>= fun k =>
      parseOid {} k >>= f) (Survey.field s .oid SNMP_TYPE_OID next) :=
  surveyed_expectTag
    (surveyed_content (fun _ => rfl) rfl (fun k _ => consumes_parseOid {} k) hf)

theorem surveyed_str {f : WStr → Reader β} (hf : ∀ str, Surveyed s (f str) next) :
    Surveyed s (expectTag SNMP_TYPE_STR >>= fun _ => getFieldLength >>= fun k =>
      parseStr k >>= f) (Survey.field s .community SNMP_TYPE_STR next) :=
  surveyed_expectTag (surveyed_content (fun _ => rfl) rfl (fun k _ => consumes_parseStr k) hf)

theorem surveyed_intField {f : UInt32 → Reader β} (val : UInt32)
    (hpass : ∀ p, s.passes ⟨site, p⟩ = true) (hlimit : site.limit = some 4)
    (hnull : ∀ a, Crashes (f a) s.mem none) (hf : ∀ a, Surveyed s (f a) next) :
    Surveyed s (expectTag SNMP_TYPE_INT >>= fun _ => getFieldLength >>= fun k =>
      parseInt val k >>= f) (Survey.field s site SNMP_TYPE_INT next) := by
  apply surveyed_expectTag
  refine surveyed_integer hpass hlimit ?_ ?_ hnull hf
  · intro k hk p
    exact consumes_parseInt val hk
  · intro k hk p
    exact ⟨val, (accepts_parseInt_long hk).mpr ⟨rfl, rfl⟩⟩

theorem surveyed_timeField {f : UInt64 → Reader β} (val : UInt64)
    (hnull : ∀ a, Crashes (f a) s.mem none) (hf : ∀ a, Surveyed s (f a) next) :
    Surveyed s (expectTag SNMP_TYPE_TIME >>= fun _ => getFieldLength >>= fun k =>
      parseTime val k >>= f) (Survey.field s .sourceTime SNMP_TYPE_TIME next) := by
  apply surveyed_expectTag
  refine surveyed_integer (fun _ => rfl) rfl ?_ ?_ hnull hf
  · intro k hk p
    exact consumes_parseTime val hk
  · intro k hk p
    exact ⟨val, parseTime_accepts_long hk⟩

theorem surveyed_decodeV2 {this : CSnmpTrap} {f : CSnmpTrap → Reader β}
    (hf : ∀ t, t.packetLen = this.packetLen → Surveyed s (f t) next) :
    Surveyed s (decodeV2 this >>= f) (Survey.v2Fields s next) := by
  simp only [decodeV2, bind_assoc, pure_bind]
  refine surveyed_intField _ (fun _ => rfl) rfl (fun _ => crashes_expectTag) fun requestID => ?_
  refine surveyed_intField _ (fun _ => rfl) rfl (fun _ => crashes_expectTag) fun error => ?_
  refine surveyed_intField _ (fun _ => rfl) rfl (fun _ => crashes_expectTag) fun errorIndex => ?_
  refine surveyed_container fun _ => ?_
  refine surveyed_container fun _ => ?_
  refine surveyed_oid fun _ => ?_
  refine surveyed_timeField _ (fun _ => crashes_expectTag) fun ullSourceTime => ?_
  refine surveyed_container fun _ => ?_
  refine surveyed_oid fun _ => ?_
  exact surveyed_oid fun trapOid => hf _ rfl

theorem surveyed_decodeV1 {uninit : UInt32} {this : CSnmpTrap} {f : CSnmpTrap → Reader β}
    (hf : ∀ t, t.packetLen = this.packetLen → Surveyed s (f t) next) :
    Surveyed s (decodeV1 uninit this >>= f) (Survey.v1Fields s next) := by
  simp only [decodeV1, bind_assoc, pure_bind]
  refine surveyed_oid fun trapOid => ?_
  apply surveyed_expectTag
  refine surveyed_octet (by decide) (fun _ => rfl) (by rintro _ ⟨⟩)
    (fun _ => ⟨_, consumes_foldBytes shiftOctet 4 0⟩) fun snmpSourceIP => ?_
  apply surveyed_expectTag
  refine surveyed_octet (by decide) (fun _ => rfl) ?_
    (fun _ => ⟨_, consumes_foldBytes shiftOctet 1 0⟩) fun genericID => ?_
  · rintro _ ⟨⟩
    decide
  refine surveyed_intField _ (fun _ => rfl) rfl (fun _ => crashes_expectTag) fun specificID => ?_
  refine surveyed_timeField _ (fun _ => crashes_expectTag) fun ullSourceTime => ?_
  exact surveyed_container fun _ => hf _ rfl

theorem surveyed_decodeFields {uninit : UInt32} {this : CSnmpTrap} {f : CSnmpTrap → Reader β}
    (hf : ∀ t, t.packetLen = this.packetLen → Surveyed s (f t) next) :
    Surveyed s (decodeFields uninit this >>= f) (Survey.fields s next this.trapType) := by
  rw [decodeFields, Survey.fields]
  by_cases h : (this.trapType == SNMP_V1TRAP) = true
  · rw [if_pos h, if_pos h]
    exact surveyed_decodeV1 hf
  · rw [if_neg h, if_neg h]
    exact surveyed_decodeV2 hf

theorem surveyed_decodeValue {newVar : UInt8 → CSnmpTrapVar} {f : CSnmpTrapVar → Reader β}
    (hnull : ∀ a, Crashes (f a) s.mem none) (hf : ∀ a, Surveyed s (f a) next) :
    Surveyed s (peek >>= fun b => decodeValue (newVar b) b >>= f) (Survey.value s next) := by
  intro p
  apply reads_peek
  rw [decodeValue, Survey.value]
  split_ifs
  · simp only [bind_assoc, pure_bind]
    refine (reads_advance ?_).toMeets
    refine surveyed_lengthField (fun _ => rfl) rfl (fun _ q => ?_) (p + 1)
    have hbool : ∃ a, Consumes parseBool s.mem q a 2 := consumes_parseBool
    obtain ⟨a, ha⟩ := hbool
    exact reads_consumes ha (hf _ _)
  · simp only [bind_assoc]
    refine (reads_advance ?_).toMeets
    refine surveyed_integer (fun _ => rfl) rfl ?_ ?_ hnull hf (p + 1)
    · intro k hk q
      exact consumes_integerValue (newVar (s.mem p)) hk
    · intro k hk q
      exact integerValue_accepts_long (newVar (s.mem p)) hk
  · simp only [bind_assoc, pure_bind]
    refine (reads_advance ?_).toMeets
    exact surveyed_content (fun _ => rfl) rfl (fun k _ => consumes_parseStr k) (fun _ => hf _)
      (p + 1)
  · simp only [bind_assoc, pure_bind]
    exact (reads_advance (reads_advance (hf _ _))).toMeets
  · simp only [bind_assoc, pure_bind]
    refine (reads_advance ?_).toMeets
    exact surveyed_content (fun _ => rfl) rfl (fun k _ => consumes_parseOid {} k) (fun _ => hf _)
      (p + 1)
  · simp only [bind_assoc, pure_bind]
    refine (reads_advance ?_).toMeets
    exact surveyed_content (fun _ => rfl) rfl (fun _ _ => ⟨_, consumes_foldBytes shiftOctet _ 0⟩)
      (fun _ => hf _) (p + 1)
  · apply meets_nil
    intro h
    cases h

theorem surveyed_varbindLoop (g : List CSnmpTrapVar → β) (fuel : ℕ)
    (varArgs : List CSnmpTrapVar) :
    Surveyed s (varbindLoop s.packetLen fuel varArgs >>= fun varArgs => pure (g varArgs))
      (Survey.varbinds s fuel) := by
  induction fuel generalizing varArgs with
  | zero =>
    intro p
    unfold varbindLoop Survey.varbinds
    simp only [bind_assoc]
    apply reads_peek
    apply meets_nil
    rw [(offset_accepts s.mem p).outcome_bind]
    split_ifs
    · intro h
      cases h
    · intro h
      cases h
  | succ fuel ih =>
    intro p
    unfold varbindLoop Survey.varbinds
    simp only [bind_assoc]
    apply reads_peek
    by_cases hseq : (s.mem p == SNMP_TYPE_SEQ && p < s.packetLen.toNat) = true
    · rw [if_pos hseq]
      refine (reads_offset ?_).toMeets
      rw [if_pos hseq]
      simp only [decodeVarbind, bind_assoc]
      apply reads_advance
      refine surveyed_lengthField (fun _ => rfl) rfl (fun _ => ?_) (p + 1)
      apply surveyed_oid
      intro oid
      exact surveyed_decodeValue (fun _ => crashes_varbindLoop) (fun newVar => ih _)
    · rw [if_neg hseq]
      apply meets_nil
      rw [(offset_accepts s.mem p).outcome_bind, if_neg hseq]
      intro h
      cases h

theorem surveyed_version {f : UInt32 → Reader β} (val : UInt32)
    (hf : ∀ version, Surveyed s (f version) next) :
    Surveyed s (expectTag SNMP_TYPE_INT >>= fun _ => getFieldLength >>= fun k =>
      require (decide (k ≤ 4)) >>= fun _ => parseInt val k >>= f)
      (Survey.field s .version SNMP_TYPE_INT next) := by
  apply surveyed_expectTag
  apply surveyed_checked rfl
  · intro p hfail
    exact refuses_require hfail
  · intro p hpass
    obtain ⟨version, hversion⟩ := consumes_parseInt (p := s.fieldEnd p) val
      (of_decide_eq_true hpass)
    exact reads_require hpass (reads_consumes hversion (hf version _))

theorem surveyed_request {f : UInt8 → UInt32 → Reader β} {next : UInt8 → Survey}
    (hf : ∀ b k, Surveyed s (f b k) (next b)) :
    Surveyed s (peek >>= fun b =>
      require (b == SNMP_V1TRAP || b == SNMP_V2INFORM || b == SNMP_V2TRAP) >>= fun _ =>
        advance >>= fun _ => getFieldLength >>= f b) (Survey.request s next) := by
  intro p
  apply reads_peek
  rw [Survey.request]
  by_cases hreq : (s.mem p == SNMP_V1TRAP || s.mem p == SNMP_V2INFORM ||
      s.mem p == SNMP_V2TRAP) = true
  · rw [if_pos hreq]
    refine (reads_require hreq (reads_advance ?_)).toMeets
    exact surveyed_lengthField (fun _ => rfl) rfl (hf (s.mem p)) (p + 1)
  · rw [if_neg hreq]
    apply meets_nil
    rw [(refuses_require (Bool.not_eq_true _ ▸ hreq)).outcome]
    simp

theorem surveyed_decodeHeader {this : CSnmpTrap} {f : CSnmpTrap → Reader β}
    {next : UInt8 → Survey} (hlen : this.packetLen = s.packetLen)
    (hf : ∀ t, t.packetLen = this.packetLen → Surveyed s (f t) (next t.trapType)) :
    Surveyed s (decodeHeader s.platform this >>= f) (Survey.message s next) := by
  simp only [decodeHeader, bind_assoc, pure_bind]
  apply surveyed_expectTag
  apply surveyed_checked rfl
  · intro p hfail
    exact refuses_offset_bind (refuses_require (by rw [hlen]; exact hfail))
  · intro p hpass
    apply reads_offset
    apply reads_require (by rw [hlen]; exact hpass)
    apply surveyed_version
    intro version
    apply surveyed_str
    intro community p
    apply reads_offset
    apply surveyed_request
    intro b _
    exact hf _ rfl

theorem reads_decode {uninit : UInt32} {this : CSnmpTrap} (hlen : this.packetLen = s.packetLen) :
    Reads s (decode s.platform uninit this) 0 s.reached := by
  apply surveyed_decodeHeader hlen
  intro t ht
  apply surveyed_decodeFields
  intro t' ht'
  rw [ht', ht, hlen]
  exact surveyed_varbindLoop _ _ _

/-- The fields of the goodbye message. -/
example : (Scan.reached ⟨memoryOf goodbyePacket.buf fun _ => 0, .x64, 70⟩).map FieldAt.site =
    [.envelope, .version, .community, .request, .oid, .agentAddr, .genericID, .specificID,
      .sourceTime, .container, .container, .oid, .strValue] := by
  decide +kernel

end TrapHandler
