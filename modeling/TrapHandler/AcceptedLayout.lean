import TrapHandler.DecodeNotification
import TrapHandler.Spans

/-!
# What the decoder accepts

Decoding is flat: the fields of an accepted trap follow each other without a gap, and each ends where
its own length field says. Of the containers only the envelope is compared with anything, so an
accepted datagram need not be a nested encoding of the trap it is decoded into. The octets of a
BOOLEAN or a NULL, and what a cursor beyond the datagram has passed over, are left open here.
-/

namespace TrapHandler

open ByteReader ByteReader.Reader Ber CSnmpTrap

namespace Layout

/-- A tag and a length field of value `fieldLen`. -/
def head (tag : UInt8) (fieldLen : UInt32) : Language UInt8 :=
  {bs | ∃ ls, LengthField ls fieldLen ∧ bs = tag :: ls}

/-- The head of a container, of whatever length. -/
def container (tag : UInt8) : Language UInt8 := {bs | ∃ fieldLen, bs ∈ head tag fieldLen}

/-- A field whose content has the length its length field says, and satisfies `P`. -/
def field (tag : UInt8) (P : List UInt8 → Prop) : Language UInt8 :=
  {bs | ∃ fieldLen content, content.length = fieldLen.toNat ∧ P content ∧
    bs ∈ head tag fieldLen * {content}}

def oid (o : CSnmpOid) : Language UInt8 :=
  field SNMP_TYPE_OID fun content => o = .ofComponents (oidOf content)

def str (s : WStr) : Language UInt8 := field SNMP_TYPE_STR fun content => s = wideOf content

def ip (a : UInt32) : Language UInt8 := field SNMP_TYPE_IPADDR fun content => a = uint32Of content

def int (n : ℕ) : Language UInt8 :=
  field SNMP_TYPE_INT fun content => content.length ≤ 4 ∧ n = octetsValue content

def time (n : ℕ) : Language UInt8 :=
  field SNMP_TYPE_TIME fun content => content.length ≤ 8 ∧ n = octetsValue content

/-- The variables that a value behind the name `oid` is decoded into. -/
inductive Value (oid : CSnmpOid) : CSnmpTrapVar → List UInt8 → Prop
  | unchecked {v bs} (hoid : v.oid = oid)
      (htype : v.iValueType = SNMP_TYPE_BOOL ∨ v.iValueType = SNMP_TYPE_NULL) : Value oid v bs
  | short {tag iVal bs} (htag : tag = SNMP_TYPE_INT ∨ tag = SNMP_TYPE_TIME)
      (hbs : bs ∈ field tag fun content => content.length ≤ 4 ∧ iVal.toNat = octetsValue content) :
      Value oid { oid, iValueType := tag, iVal } bs
  | long {tag ullVal bs} (htag : tag = SNMP_TYPE_INT ∨ tag = SNMP_TYPE_TIME)
      (hbs : bs ∈ field tag fun content =>
        4 < content.length ∧ content.length ≤ 8 ∧ ullVal.toNat = octetsValue content) :
      Value oid { oid, iValueType := tag, ullVal } bs
  | str {s bs} (hbs : bs ∈ str s) :
      Value oid { oid, iValueType := SNMP_TYPE_STR, wcsVal := some s } bs
  | oid {o bs} (hbs : bs ∈ Layout.oid o) :
      Value oid { oid, iValueType := SNMP_TYPE_OID, oidVal := some o } bs
  | ip {a bs} (hbs : bs ∈ ip a) : Value oid { oid, iValueType := SNMP_TYPE_IPADDR, iVal := a } bs

def value (oid : CSnmpOid) (v : CSnmpTrapVar) : Language UInt8 := {bs | Value oid v bs}

def varbind (v : CSnmpTrapVar) : Language UInt8 :=
  container SNMP_TYPE_SEQ * oid v.oid * value v.oid v

def v1 (t : CSnmpTrap) : Language UInt8 :=
  {bs | ∃ enterprise generic specific, t.requestID = 0 ∧ t.error = 0 ∧ t.errorIndex = 0 ∧
    t.trapOid = some (.ofComponents (enterprise ++
      if generic = 6 then [0, UInt32.ofNat specific] else [UInt32.ofNat generic + 1])) ∧
    bs ∈ oid (.ofComponents enterprise) *
      field SNMP_TYPE_IPADDR (fun content =>
        content.length = 4 ∧ t.snmpSourceIP.toNat = octetsValue content) *
      field SNMP_TYPE_INT (fun content => content.length = 1 ∧ generic = octetsValue content) *
      int specific * time t.ullSourceTime.toNat * container SNMP_TYPE_SEQ}

def v2 (t : CSnmpTrap) : Language UInt8 :=
  {bs | ∃ timeName oidName trapOid, t.trapOid = some trapOid ∧
    bs ∈ int t.requestID.toNat * int t.error.toNat * int t.errorIndex.toNat *
      container SNMP_TYPE_SEQ *
      container SNMP_TYPE_SEQ * oid timeName * time t.ullSourceTime.toNat *
      container SNMP_TYPE_SEQ * oid oidName * oid trapOid}

def header (t : CSnmpTrap) : Language UInt8 :=
  {bs | ∃ community, t.community = some community ∧
    (t.trapType = SNMP_V1TRAP ∨ t.trapType = SNMP_V2INFORM ∨ t.trapType = SNMP_V2TRAP) ∧
    bs ∈ int t.version.toNat * str community * container t.trapType}

def trap (t : CSnmpTrap) : Language UInt8 :=
  header t * (if t.trapType = SNMP_V1TRAP then v1 t else v2 t) * (t.varArgs.map varbind).prod

end Layout

variable {α β : Type} {mem : Memory} {p q : ℕ} {b : β} {c : Cursor}

theorem accepts_expectTag_bind {tag : UInt8} {f : Unit → Reader β} :
    Accepts (expectTag tag >>= f) mem (some p) b c ↔
      mem p = tag ∧ Accepts (f ()) mem (some (p + 1)) b c := by
  simp only [expectTag, bind_assoc, accepts_peek_bind, accepts_require_bind, accepts_advance_bind,
    beq_iff_eq]

theorem spans_head {tag : UInt8} {f : UInt32 → Reader β} (htag : mem p = tag)
    (hacc : Accepts (getFieldLength >>= f) mem (some (p + 1)) b c) :
    ∃ fieldLen q, Spans mem p q (Layout.head tag fieldLen) ∧ Accepts (f fieldLen) mem (some q) b c := by
  rw [accepts_bind] at hacc
  obtain ⟨fieldLen, c', hlen, hrest⟩ := hacc
  obtain ⟨ls, hls, hmem, rfl⟩ := accepts_getFieldLength.mp hlen
  refine ⟨fieldLen, p + 1 + ls.length, ⟨tag :: ls, ⟨ls, hls, rfl⟩, ?_, ?_⟩, hrest⟩
  · exact holdsAt_cons.mpr ⟨htag, hmem⟩
  · rw [List.length_cons]
    omega

theorem spans_container {tag : UInt8} {f : UInt32 → Reader β}
    (hacc : Accepts (expectTag tag >>= fun _ => getFieldLength >>= f) mem (some p) b c) :
    ∃ fieldLen q, Spans mem p q (Layout.head tag fieldLen) ∧
      Accepts (f fieldLen) mem (some q) b c := by
  obtain ⟨htag, hrest⟩ := accepts_expectTag_bind.mp hacc
  exact spans_head htag hrest

theorem spans_content {tag : UInt8} {fieldLen : UInt32} {P : List UInt8 → Prop}
    (h : Spans mem p q (Layout.head tag fieldLen)) (hP : P (slice mem q fieldLen.toNat)) :
    Spans mem p (q + fieldLen.toNat) (Layout.field tag P) := by
  have hcontent : Spans mem q (q + fieldLen.toNat) {slice mem q fieldLen.toNat} :=
    ⟨_, rfl, holdsAt_slice mem q _, by rw [length_slice]⟩
  apply (h.append hcontent).mono
  intro bs hbs
  exact ⟨fieldLen, _, length_slice mem q _, hP, hbs⟩

theorem spans_of_head {tag : UInt8} {fieldLen : UInt32}
    (h : Spans mem p q (Layout.head tag fieldLen)) : Spans mem p q (Layout.container tag) :=
  h.mono fun _ hbs => ⟨fieldLen, hbs⟩

theorem spans_oid {f : CSnmpOid → Reader β}
    (hacc : Accepts (expectTag SNMP_TYPE_OID >>= fun _ => getFieldLength >>= fun fieldLen =>
      parseOid {} fieldLen >>= f) mem (some p) b c) :
    ∃ o q, Spans mem p q (Layout.oid (.ofComponents o)) ∧
      Accepts (f (.ofComponents o)) mem (some q) b c := by
  obtain ⟨fieldLen, q, hspan, hrest⟩ := spans_container hacc
  obtain ⟨o, c', ho, hf⟩ := accepts_bind.mp hrest
  obtain ⟨rfl, rfl⟩ := accepts_parseOid.mp ho
  exact ⟨_, _, spans_content hspan rfl, hf⟩

theorem spans_str {f : WStr → Reader β}
    (hacc : Accepts (expectTag SNMP_TYPE_STR >>= fun _ => getFieldLength >>= fun fieldLen =>
      parseStr fieldLen >>= f) mem (some p) b c) :
    ∃ s q, Spans mem p q (Layout.str s) ∧ Accepts (f s) mem (some q) b c := by
  obtain ⟨fieldLen, q, hspan, hrest⟩ := spans_container hacc
  obtain ⟨s, c', hs, hf⟩ := accepts_bind.mp hrest
  obtain ⟨rfl, rfl⟩ := accepts_parseStr.mp hs
  exact ⟨_, _, spans_content hspan rfl, hf⟩

theorem spans_parseInt {tag : UInt8} {fieldLen val : UInt32} {f : UInt32 → Reader β}
    (hspan : Spans mem p q (Layout.head tag fieldLen))
    (hnull : ∀ v, ¬ Accepts (f v) mem none b c)
    (hacc : Accepts (parseInt val fieldLen >>= f) mem (some q) b c) :
    ∃ v r, Spans mem p r
        (Layout.field tag fun content => content.length ≤ 4 ∧ v.toNat = octetsValue content) ∧
      Accepts (f v) mem (some r) b c := by
  obtain ⟨v, c', hv, hf⟩ := accepts_bind.mp hacc
  by_cases hlen : fieldLen ≤ 4
  · obtain ⟨rfl, rfl⟩ := (accepts_parseInt hlen).mp hv
    have hcontent : (slice mem q fieldLen.toNat).length ≤ 4 := by
      rw [length_slice]
      exact hlen
    exact ⟨_, _, spans_content hspan ⟨hcontent, toNat_uint32Of_of_length_le hcontent⟩, hf⟩
  · obtain ⟨_, rfl⟩ := (accepts_parseInt_long hlen).mp hv
    exact absurd hf (hnull v)

theorem spans_parseBigInt {tag : UInt8} {fieldLen : UInt32} {val : UInt64} {f : UInt64 → Reader β}
    (hspan : Spans mem p q (Layout.head tag fieldLen)) (hlong : ¬ fieldLen ≤ 4)
    (hnull : ∀ v, ¬ Accepts (f v) mem none b c)
    (hacc : Accepts (parseBigInt val fieldLen >>= f) mem (some q) b c) :
    ∃ v r, Spans mem p r (Layout.field tag fun content =>
        4 < content.length ∧ content.length ≤ 8 ∧ v.toNat = octetsValue content) ∧
      Accepts (f v) mem (some r) b c := by
  obtain ⟨v, c', hv, hf⟩ := accepts_bind.mp hacc
  by_cases hlen : fieldLen ≤ 8
  · obtain ⟨rfl, rfl⟩ := (accepts_parseBigInt hlen).mp hv
    have hcontent : (slice mem q fieldLen.toNat).length ≤ 8 := by
      rw [length_slice]
      exact hlen
    have hshort : 4 < (slice mem q fieldLen.toNat).length := by
      rw [length_slice]
      exact UInt32.not_le.mp hlong
    exact ⟨_, _, spans_content hspan ⟨hshort, hcontent, toNat_uint64Of_of_length_le hcontent⟩, hf⟩
  · obtain ⟨_, rfl⟩ := (accepts_parseBigInt_long hlen).mp hv
    exact absurd hf (hnull v)

theorem spans_int {val : UInt32} {f : UInt32 → Reader β}
    (hnull : ∀ v, ¬ Accepts (f v) mem none b c)
    (hacc : Accepts (expectTag SNMP_TYPE_INT >>= fun _ => getFieldLength >>= fun fieldLen =>
      parseInt val fieldLen >>= f) mem (some p) b c) :
    ∃ v q, Spans mem p q (Layout.int v.toNat) ∧ Accepts (f v) mem (some q) b c := by
  obtain ⟨fieldLen, q, hspan, hrest⟩ := spans_container hacc
  exact spans_parseInt hspan hnull hrest

theorem field_mono {tag : UInt8} {P Q : List UInt8 → Prop} (h : ∀ content, P content → Q content) :
    ∀ bs ∈ Layout.field tag P, bs ∈ Layout.field tag Q := by
  rintro bs ⟨fieldLen, content, hlen, hP, hbs⟩
  exact ⟨fieldLen, content, hlen, h content hP, hbs⟩

theorem spans_time {val : UInt64} {f : UInt64 → Reader β}
    (hnull : ∀ v, ¬ Accepts (f v) mem none b c)
    (hacc : Accepts (expectTag SNMP_TYPE_TIME >>= fun _ => getFieldLength >>= fun fieldLen =>
      parseTime val fieldLen >>= f) mem (some p) b c) :
    ∃ v q, Spans mem p q (Layout.time v.toNat) ∧ Accepts (f v) mem (some q) b c := by
  obtain ⟨fieldLen, q, hspan, hrest⟩ := spans_container hacc
  by_cases hlen : fieldLen ≤ 4
  · simp only [parseTime, if_pos hlen, bind_assoc, pure_bind] at hrest
    obtain ⟨v, r, hv, hf⟩ := spans_parseInt hspan (fun v => hnull v.toUInt64) hrest
    refine ⟨v.toUInt64, r, hv.mono (field_mono ?_), hf⟩
    rintro content ⟨hle, hval⟩
    exact ⟨by omega, by rw [UInt32.toNat_toUInt64, hval]⟩
  · rw [parseTime, if_neg hlen] at hrest
    obtain ⟨v, r, hv, hf⟩ := spans_parseBigInt hspan hlen hnull hrest
    exact ⟨v, r, hv.mono (field_mono fun content h => ⟨h.2.1, h.2.2⟩), hf⟩

theorem not_accepts_expectTag_none {tag : UInt8} {f : Unit → Reader β} :
    ¬ Accepts (expectTag tag >>= f) mem none b c := by
  simp only [expectTag, bind_assoc]
  exact not_accepts_peek_none

theorem spans_decodeV2 {this t : CSnmpTrap}
    (hacc : Accepts (decodeV2 this) mem (some p) t c) :
    ∃ q, c = some q ∧ Spans mem p q (Layout.v2 t) ∧ t.packetLen = this.packetLen ∧
      t.version = this.version ∧ t.community = this.community ∧ t.trapType = this.trapType ∧
      t.varArgs = this.varArgs := by
  have hnull : ∀ {tag : UInt8} {f : Unit → Reader CSnmpTrap},
      ¬ Accepts (expectTag tag >>= f) mem none t c := not_accepts_expectTag_none
  rw [decodeV2] at hacc
  obtain ⟨requestID, q₁, h₁, hacc⟩ := spans_int (fun _ => hnull) hacc
  obtain ⟨error, q₂, h₂, hacc⟩ := spans_int (fun _ => hnull) hacc
  obtain ⟨errorIndex, q₃, h₃, hacc⟩ := spans_int (fun _ => hnull) hacc
  obtain ⟨_, q₄, h₄, hacc⟩ := spans_container hacc
  obtain ⟨_, q₅, h₅, hacc⟩ := spans_container hacc
  obtain ⟨timeName, q₆, h₆, hacc⟩ := spans_oid hacc
  obtain ⟨ullSourceTime, q₇, h₇, hacc⟩ := spans_time (fun _ => hnull) hacc
  obtain ⟨_, q₈, h₈, hacc⟩ := spans_container hacc
  obtain ⟨oidName, q₉, h₉, hacc⟩ := spans_oid hacc
  obtain ⟨trapOid, q, h, hacc⟩ := spans_oid hacc
  obtain ⟨rfl, rfl⟩ := accepts_pure.mp hacc
  have hspan := (((((((((h₁.append h₂).append h₃).append (spans_of_head h₄)).append
    (spans_of_head h₅)).append h₆).append h₇).append (spans_of_head h₈)).append h₉).append h)
  refine ⟨q, rfl, hspan.mono ?_, rfl, rfl, rfl, rfl, rfl⟩
  intro bs hbs
  exact ⟨_, _, _, rfl, hbs⟩

/-- A length field that was compared with `l` before it is read. -/
theorem spans_fixedHead {tag l : UInt8} (hl : l.toNat < 128) {f : UInt32 → Reader β}
    (hacc : Accepts (expectTag tag >>= fun _ => peek >>= fun b => require (b == l) >>= fun _ =>
      getFieldLength >>= f) mem (some p) b c) :
    ∃ q, Spans mem p q (Layout.head tag l.toUInt32) ∧ Accepts (f l.toUInt32) mem (some q) b c := by
  obtain ⟨htag, hacc⟩ := accepts_expectTag_bind.mp hacc
  rw [accepts_peek_bind, accepts_require_bind, beq_iff_eq] at hacc
  obtain ⟨hbyte, hacc⟩ := hacc
  have hread : Accepts getFieldLength mem (some (p + 1)) l.toUInt32 (some (p + 1 + 1)) :=
    accepts_getFieldLength.mpr ⟨[l], .short l hl, by simpa using hbyte, rfl⟩
  rw [hread.bind_iff] at hacc
  have hhead : [tag, l] ∈ Layout.head tag l.toUInt32 := ⟨[l], .short l hl, rfl⟩
  exact ⟨p + 2, ⟨_, hhead, by simp [htag, hbyte], rfl⟩, hacc⟩

theorem spans_decodeV1 {uninit : UInt32} {this t : CSnmpTrap}
    (hacc : Accepts (decodeV1 uninit this) mem (some p) t c) :
    ∃ q, c = some q ∧ Spans mem p q (Layout.v1 t) ∧ t.packetLen = this.packetLen ∧
      t.version = this.version ∧ t.community = this.community ∧ t.trapType = this.trapType ∧
      t.varArgs = this.varArgs := by
  have hnull : ∀ {tag : UInt8} {f : Unit → Reader CSnmpTrap},
      ¬ Accepts (expectTag tag >>= f) mem none t c := not_accepts_expectTag_none
  rw [decodeV1] at hacc
  obtain ⟨enterprise, q₁, h₁, hacc⟩ := spans_oid hacc
  obtain ⟨q₂, h₂, hacc⟩ := spans_fixedHead (by decide) hacc
  obtain ⟨snmpSourceIP, _, hip, hacc⟩ := accepts_bind.mp hacc
  obtain ⟨rfl, rfl⟩ := accepts_parseIP.mp hip
  obtain ⟨q₃, h₃, hacc⟩ := spans_fixedHead (by decide) hacc
  obtain ⟨genericID, _, hgeneric, hacc⟩ := accepts_bind.mp hacc
  obtain ⟨rfl, rfl⟩ := (accepts_parseInt (by decide)).mp hgeneric
  obtain ⟨specificID, q₄, h₄, hacc⟩ := spans_int (fun _ => hnull) hacc
  obtain ⟨ullSourceTime, q₅, h₅, hacc⟩ := spans_time (fun _ => hnull) hacc
  obtain ⟨_, q, h, hacc⟩ := spans_container hacc
  obtain ⟨rfl, rfl⟩ := accepts_pure.mp hacc
  have haddr : Spans mem q₁ _ (Layout.field SNMP_TYPE_IPADDR fun content =>
      content.length = 4 ∧
        (uint32Of (slice mem q₂ (UInt8.toUInt32 4).toNat)).toNat = octetsValue content) :=
    spans_content h₂ ⟨length_slice mem q₂ _, toNat_uint32Of_of_length_le (by simp)⟩
  have hgen : Spans mem _ _ (Layout.field SNMP_TYPE_INT fun content => content.length = 1 ∧
      (uint32Of (slice mem q₃ (UInt8.toUInt32 1).toNat)).toNat = octetsValue content) :=
    spans_content h₃ ⟨length_slice mem q₃ _, toNat_uint32Of_of_length_le (by simp)⟩
  have hspan := ((((h₁.append haddr).append hgen).append h₄).append h₅).append (spans_of_head h)
  refine ⟨q, rfl, hspan.mono ?_, rfl, rfl, rfl, rfl, rfl⟩
  intro bs hbs
  refine ⟨enterprise, _, _, rfl, rfl, rfl, ?_, hbs⟩
  rw [UInt32.ofNat_toNat, UInt32.ofNat_toNat]
  by_cases hsix : uint32Of (slice mem q₃ (UInt8.toUInt32 1).toNat) = 6
  · rw [if_pos (beq_iff_eq.mpr hsix), if_pos (by rw [hsix]; rfl),
      CSnmpOid.ofComponents_append _ _ (by simp)]
  · have hne : ¬ (uint32Of (slice mem q₃ (UInt8.toUInt32 1).toNat)).toNat = 6 :=
      fun h => hsix (UInt32.toNat_inj.mp h)
    rw [if_neg (fun h => hsix (beq_iff_eq.mp h)), if_neg hne,
      CSnmpOid.ofComponents_append _ _ (by simp)]

theorem spans_value {oid : CSnmpOid} {f : CSnmpTrapVar → Reader β}
    (hnull : ∀ v, ¬ Accepts (f v) mem none b c)
    (hacc : Accepts (decodeValue { oid, iValueType := mem p } (mem p) >>= f) mem (some p) b c) :
    ∃ v q, v.oid = oid ∧ Spans mem p q (Layout.value oid v) ∧ Accepts (f v) mem (some q) b c := by
  rw [decodeValue] at hacc
  split_ifs at hacc with hbool hint hstr hnil hoid hip
  · have htag : mem p = SNMP_TYPE_BOOL := beq_iff_eq.mp hbool
    simp only [bind_assoc, pure_bind, accepts_advance_bind, htag] at hacc
    obtain ⟨fieldLen, q, hspan, hacc⟩ := spans_head htag hacc
    rw [(parseBool_accepts mem q).bind_iff] at hacc
    have hbytes : Spans mem q (q + 2) {[mem q, mem (q + 1)]} := ⟨_, rfl, by simp, rfl⟩
    exact ⟨_, q + 2, rfl, (hspan.append hbytes).mono fun _ _ => .unchecked rfl (.inl rfl), hacc⟩
  · have htag : mem p = SNMP_TYPE_INT ∨ mem p = SNMP_TYPE_TIME := by simpa using hint
    simp only [bind_assoc, accepts_advance_bind] at hacc
    obtain ⟨fieldLen, q, hspan, hacc⟩ := spans_head rfl hacc
    by_cases hlen : fieldLen ≤ 4
    · simp only [if_pos hlen, bind_assoc, pure_bind] at hacc
      obtain ⟨iVal, r, hval, hacc⟩ := spans_parseInt hspan (fun _ => hnull _) hacc
      exact ⟨_, r, rfl, hval.mono (fun bs hbs => .short htag hbs), hacc⟩
    · simp only [if_neg hlen, bind_assoc, pure_bind] at hacc
      obtain ⟨ullVal, r, hval, hacc⟩ := spans_parseBigInt hspan hlen (fun _ => hnull _) hacc
      exact ⟨_, r, rfl, hval.mono (fun bs hbs => .long htag hbs), hacc⟩
  · have htag : mem p = SNMP_TYPE_STR := beq_iff_eq.mp hstr
    simp only [bind_assoc, pure_bind, accepts_advance_bind, htag] at hacc
    obtain ⟨fieldLen, q, hspan, hacc⟩ := spans_head htag hacc
    obtain ⟨s, _, hs, hacc⟩ := accepts_bind.mp hacc
    obtain ⟨rfl, rfl⟩ := accepts_parseStr.mp hs
    have hval : Spans mem p _ (Layout.str _) := spans_content hspan rfl
    exact ⟨_, _, rfl, hval.mono (fun bs hbs => .str hbs), hacc⟩
  · have htag : mem p = SNMP_TYPE_NULL := beq_iff_eq.mp hnil
    simp only [bind_assoc, pure_bind, accepts_advance_bind, htag] at hacc
    have hbytes : Spans mem p (p + 1 + 1) {[SNMP_TYPE_NULL, mem (p + 1)]} :=
      ⟨_, rfl, by simp [htag], rfl⟩
    exact ⟨_, p + 1 + 1, rfl, hbytes.mono fun _ _ => .unchecked rfl (.inr rfl), hacc⟩
  · have htag : mem p = SNMP_TYPE_OID := beq_iff_eq.mp hoid
    simp only [bind_assoc, pure_bind, accepts_advance_bind, htag] at hacc
    obtain ⟨fieldLen, q, hspan, hacc⟩ := spans_head htag hacc
    obtain ⟨o, _, ho, hacc⟩ := accepts_bind.mp hacc
    obtain ⟨rfl, rfl⟩ := accepts_parseOid.mp ho
    have hval : Spans mem p _ (Layout.oid (.ofComponents _)) := spans_content hspan rfl
    exact ⟨_, _, rfl, hval.mono (fun bs hbs => .oid hbs), hacc⟩
  · have htag : mem p = SNMP_TYPE_IPADDR := beq_iff_eq.mp hip
    simp only [bind_assoc, pure_bind, accepts_advance_bind, htag] at hacc
    obtain ⟨fieldLen, q, hspan, hacc⟩ := spans_head htag hacc
    obtain ⟨a, _, ha, hacc⟩ := accepts_bind.mp hacc
    obtain ⟨rfl, rfl⟩ := accepts_parseIP.mp ha
    have hval : Spans mem p _ (Layout.ip _) := spans_content hspan rfl
    exact ⟨_, _, rfl, hval.mono (fun bs hbs => .ip hbs), hacc⟩
  · cases hacc

theorem not_accepts_varbindLoop_none {packetLen : UInt32} {fuel : ℕ}
    {varArgs out : List CSnmpTrapVar} :
    ¬ Accepts (varbindLoop packetLen fuel varArgs) mem none out c := by
  unfold varbindLoop
  exact not_accepts_peek_none

/-- The loop ends in front of the first byte that is no sequence tag, or at the end of the packet. -/
theorem spans_varbindLoop {packetLen : UInt32} {fuel : ℕ} {varArgs out : List CSnmpTrapVar}
    (hacc : Accepts (varbindLoop packetLen fuel varArgs) mem (some p) out c) :
    ∃ (vs : List CSnmpTrapVar) (q : ℕ), out = varArgs ++ vs ∧ c = some q ∧
      Spans mem p q (vs.map Layout.varbind).prod ∧
      (mem q ≠ SNMP_TYPE_SEQ ∨ packetLen.toNat ≤ q) := by
  have hstop : ∀ (p : ℕ) (varArgs : List CSnmpTrapVar),
      ¬ (mem p == SNMP_TYPE_SEQ && p < packetLen.toNat) = true →
      ∃ (vs : List CSnmpTrapVar) (q : ℕ), varArgs = varArgs ++ vs ∧ some p = some q ∧
        Spans mem p q (vs.map Layout.varbind).prod ∧
        (mem q ≠ SNMP_TYPE_SEQ ∨ packetLen.toNat ≤ q) := by
    intro p varArgs htest
    refine ⟨[], p, (List.append_nil varArgs).symm, rfl, spans_one mem p, ?_⟩
    by_cases htag : mem p = SNMP_TYPE_SEQ
    · right
      by_contra hlt
      exact htest (by simp [htag, Nat.not_le.mp hlt])
    · exact .inl htag
  induction fuel generalizing p varArgs with
  | zero =>
    unfold varbindLoop at hacc
    rw [accepts_peek_bind, accepts_offset_bind] at hacc
    split_ifs at hacc with htest
    · cases hacc
    · obtain ⟨rfl, rfl⟩ := accepts_pure.mp hacc
      exact hstop p out htest
  | succ fuel ih =>
    unfold varbindLoop at hacc
    rw [accepts_peek_bind, accepts_offset_bind] at hacc
    split_ifs at hacc with htest
    · have htag : mem p = SNMP_TYPE_SEQ := by
        rw [Bool.and_eq_true, beq_iff_eq] at htest
        exact htest.1
      simp only [decodeVarbind, bind_assoc, accepts_advance_bind] at hacc
      obtain ⟨_, q₁, hhead, hacc⟩ := spans_head htag hacc
      obtain ⟨oid, q₂, hoid, hacc⟩ := spans_oid hacc
      rw [accepts_peek_bind] at hacc
      obtain ⟨v, q₃, hv, hvalue, hacc⟩ :=
        spans_value (fun _ => not_accepts_varbindLoop_none) hacc
      obtain ⟨vs, q, rfl, rfl, hvs, hend⟩ := ih hacc
      have hbind : Spans mem p q₃ (Layout.varbind v) := by
        rw [Layout.varbind, hv]
        exact ((spans_of_head hhead).append hoid).append hvalue
      refine ⟨v :: vs, q, by simp, rfl, ?_, hend⟩
      rw [List.map_cons, List.prod_cons]
      exact hbind.append hvs
    · obtain ⟨rfl, rfl⟩ := accepts_pure.mp hacc
      exact hstop p out htest

/-- The fields in front of the tag of the request, which `pReqType` points to. -/
theorem spans_toRequest {platform : Platform} {this : CSnmpTrap} {f : CSnmpTrap → Reader β}
    (hacc : Accepts (decodeHeader platform this >>= f) mem (some 0) b c) :
    ∃ envLen env version community pos q, Spans mem 0 env (Layout.head SNMP_TYPE_SEQ envLen) ∧
      (envLen.toNat : ℤ) = bytesLeft platform this.packetLen env ∧
      Spans mem env pos (Layout.int version.toNat * Layout.str community) ∧
      (mem pos = SNMP_V1TRAP ∨ mem pos = SNMP_V2INFORM ∨ mem pos = SNMP_V2TRAP) ∧
      Spans mem pos q (Layout.container (mem pos)) ∧
      Accepts (f { this with
        version, community := some community, pReqType := some pos, trapType := mem pos })
        mem (some q) b c := by
  simp only [decodeHeader, bind_assoc, pure_bind] at hacc
  obtain ⟨envLen, env, henv, hacc⟩ := spans_container hacc
  rw [accepts_offset_bind, accepts_require_bind, decide_eq_true_eq] at hacc
  obtain ⟨hlen, hacc⟩ := hacc
  obtain ⟨fieldLen, q₁, hhead, hacc⟩ := spans_container hacc
  rw [accepts_require_bind] at hacc
  obtain ⟨version, q₂, hversion, hacc⟩ :=
    spans_parseInt hhead (fun _ => not_accepts_expectTag_none) hacc.2
  obtain ⟨community, pos, hcommunity, hacc⟩ := spans_str hacc
  rw [accepts_offset_bind, accepts_peek_bind, accepts_require_bind, accepts_advance_bind,
    Bool.or_eq_true, Bool.or_eq_true, beq_iff_eq, beq_iff_eq, beq_iff_eq, or_assoc] at hacc
  obtain ⟨htag, hacc⟩ := hacc
  obtain ⟨_, q, hrequest, hacc⟩ := spans_head rfl hacc
  exact ⟨envLen, env, version, community, pos, q, henv, hlen, hversion.append hcommunity, htag,
    spans_of_head hrequest, hacc⟩

theorem spans_decodeHeader {platform : Platform} {this : CSnmpTrap} {f : CSnmpTrap → Reader β}
    (hacc : Accepts (decodeHeader platform this >>= f) mem (some 0) b c) :
    ∃ envLen env t q, Spans mem 0 env (Layout.head SNMP_TYPE_SEQ envLen) ∧
      (envLen.toNat : ℤ) = bytesLeft platform this.packetLen env ∧
      Spans mem env q (Layout.header t) ∧ t.packetLen = this.packetLen ∧
      t.varArgs = this.varArgs ∧ Accepts (f t) mem (some q) b c := by
  obtain ⟨envLen, env, version, community, pos, q, henv, hlen, hspan, htag, hrequest, hacc⟩ :=
    spans_toRequest hacc
  refine ⟨envLen, env, _, q, henv, hlen, ?_, ?_, ?_, hacc⟩
  · apply (hspan.append hrequest).mono
    intro bs hbs
    exact ⟨community, rfl, htag, hbs⟩
  · rfl
  · rfl

theorem spans_decodeFields {uninit : UInt32} {this t : CSnmpTrap}
    (hacc : Accepts (decodeFields uninit this) mem (some p) t c) :
    ∃ q, c = some q ∧
      Spans mem p q (if t.trapType = SNMP_V1TRAP then Layout.v1 t else Layout.v2 t) ∧
      t.packetLen = this.packetLen ∧ t.version = this.version ∧ t.community = this.community ∧
      t.trapType = this.trapType ∧ t.varArgs = this.varArgs := by
  rw [decodeFields] at hacc
  split_ifs at hacc with htype
  · obtain ⟨q, hc, hspan, hkeep⟩ := spans_decodeV1 hacc
    refine ⟨q, hc, ?_, hkeep⟩
    rw [if_pos (hkeep.2.2.2.1.trans (beq_iff_eq.mp htype))]
    exact hspan
  · obtain ⟨q, hc, hspan, hkeep⟩ := spans_decodeV2 hacc
    refine ⟨q, hc, ?_, hkeep⟩
    rw [if_neg (fun h => htype (beq_iff_eq.mpr (hkeep.2.2.2.1.symm.trans h)))]
    exact hspan

/-- A datagram that is accepted with the cursor inside it is an envelope of the right length around a
flat sequence of fields; what is left over does not begin another binding. -/
theorem accepted_layout (platform : Platform) (uninit : UInt32) (raw : CSnmpTrap)
    (behind : Memory) (packet : SSnmpPacket) (trap : CSnmpTrap) (q : ℕ)
    (h : (packet.decode platform uninit raw behind).outcome = .ok trap (some q))
    (hq : q ≤ packet.buf.length) :
    ∃ envLen envelope fields rest, envelope ∈ Layout.head SNMP_TYPE_SEQ envLen ∧
      fields ∈ Layout.trap trap ∧ packet.buf = envelope ++ fields ++ rest ∧
      envLen.toNat = (fields ++ rest).length ∧ rest.head? ≠ some SNMP_TYPE_SEQ := by
  obtain ⟨envLen, env, t₁, q₁, henv, hlen, hheader, hpacket₁, hargs₁, hacc⟩ := spans_decodeHeader h
  obtain ⟨t₂, c₂, hfields, hacc⟩ := accepts_bind.mp hacc
  obtain ⟨q₂, rfl, hspan₂, hpacket₂, hversion, hcommunity, htype, hargs₂⟩ :=
    spans_decodeFields hfields
  obtain ⟨varArgs, c₃, hloop, hacc⟩ := accepts_bind.mp hacc
  obtain ⟨vs, q₃, rfl, rfl, hspan₃, hend⟩ := spans_varbindLoop hloop
  obtain ⟨rfl, hcursor⟩ := accepts_pure.mp hacc
  obtain rfl : q = q₃ := Option.some.inj hcursor
  have hargs : t₂.varArgs = [] := hargs₂.trans hargs₁
  have hheaderEq : Layout.header t₁ = Layout.header t₂ := by
    rw [Layout.header, Layout.header, hversion, hcommunity, htype]
  have hspan := (hheader.append hspan₂).append hspan₃
  rw [hheaderEq] at hspan
  obtain ⟨envelope, henvelope, hmem₁, rfl⟩ := henv
  obtain ⟨fields, hfieldsMem, hmem₂, rfl⟩ := hspan
  have hmem := holdsAt_append.mpr ⟨hmem₁, hmem₂⟩
  have hpacket : t₂.packetLen.toNat = packet.buf.length := by
    rw [hpacket₂, hpacket₁]
    exact packet.size_eq
  have hle : (envelope ++ fields).length ≤ packet.buf.length := by
    rw [List.length_append]
    omega
  obtain ⟨rest, hrest⟩ := prefix_of_holdsAt_memoryOf hmem hle
  refine ⟨envLen, envelope, fields, rest, henvelope, ?_, hrest.symm, ?_, ?_⟩
  · rw [Layout.trap, hargs, List.nil_append]
    exact hfieldsMem
  · have hleft : bytesLeft platform packet.packetSize (0 + envelope.length) =
        ((fields ++ rest).length : ℕ) := by
      apply bytesLeft_eq
      rw [packet.size_eq, ← hrest, List.append_assoc, Nat.zero_add]
      exact (@List.length_append _ envelope (fields ++ rest)).symm
    exact_mod_cast hlen.trans hleft
  · rw [Nat.zero_add, ← List.length_append, hpacket] at hend
    cases rest with
    | nil => exact nofun
    | cons next rest =>
      have hlt : (envelope ++ fields).length < packet.buf.length := by
        have hlen : packet.buf.length = (envelope ++ fields).length + (rest.length + 1) := by
          rw [← hrest]
          exact List.length_append
        omega
      have hnext := hend.resolve_right (Nat.not_le.mpr hlt)
      have hread : memoryOf packet.buf behind (envelope ++ fields).length = next := by
        rw [memoryOf, ← hrest, List.getElem?_append_right le_rfl, Nat.sub_self]
        rfl
      rw [hread] at hnext
      exact fun heq => hnext (Option.some.inj heq)

def helloTrap : CSnmpTrap where
  ulSourceIP := 0x7F000001
  ullSourceTime := 70000
  trapOid := some (.ofComponents [1, 3, 6, 1, 4, 1, 15282, 10, 0, 8])
  ftRecvTime := 0
  trapType := SNMP_V2TRAP
  version := 1
  packetLen := 95
  community := some helloNotification.community.text
  requestID := 1
  error := 0
  errorIndex := 0
  snmpSourceIP := 0
  pReqType := some 13
  varArgs := helloNotification.varbinds.map Varbind.toVar

theorem accepted_layout_hello :
    ∃ envLen envelope fields rest, envelope ∈ Layout.head SNMP_TYPE_SEQ envLen ∧
      fields ∈ Layout.trap helloTrap ∧ helloPacket.buf = envelope ++ fields ++ rest ∧
      envLen.toNat = (fields ++ rest).length ∧ rest.head? ≠ some SNMP_TYPE_SEQ :=
  accepted_layout .x64 0 default (fun _ => 0) helloPacket helloTrap 95 (by decide +kernel)
    (by decide)

/-- The hello message with a byte behind it and wrong lengths of the request, the binding list and
the last binding. -/
def looseHelloPacket : SSnmpPacket where
  srcAddr := 0x0100007F
  srcPort := 123
  ftRecvTime := 0
  packetSize := 96
  buf := [48, 94, 2, 1, 1, 4, 6, 112, 117, 98, 108, 105, 99, 167, 0, 2, 1, 1, 2, 1, 0, 2, 1, 0,
    48, 0, 48, 15, 6, 8, 43, 6, 1, 2, 1, 1, 3, 0, 67, 3, 1, 17, 112,
    48, 24, 6, 10, 43, 6, 1, 6, 3, 1, 1, 4, 1, 0, 6, 10, 43, 6, 1, 4, 1, 247, 50, 10, 0, 8,
    48, 0, 6, 10, 43, 6, 1, 4, 1, 247, 50, 11, 1, 0,
    4, 10, 116, 101, 115, 116, 115, 121, 115, 116, 101, 109, 0]
  size_eq := by decide

/-- It is accepted as the same trap: the request, the binding list and the last binding do not end
where their length fields say, and a byte of the datagram remains. -/
theorem looseHello_accepted :
    (looseHelloPacket.decode .x64 0 default fun _ => 0).outcome =
        .ok { helloTrap with packetLen := 96 } (some 95) ∧
      looseHelloPacket.buf.length = 96 ∧
      slice (memoryOf looseHelloPacket.buf fun _ => 0) 13 2 = [SNMP_V2TRAP, 0] ∧
      slice (memoryOf looseHelloPacket.buf fun _ => 0) 24 2 = [SNMP_TYPE_SEQ, 0] ∧
      slice (memoryOf looseHelloPacket.buf fun _ => 0) 69 2 = [SNMP_TYPE_SEQ, 0] := by
  decide +kernel

end TrapHandler
