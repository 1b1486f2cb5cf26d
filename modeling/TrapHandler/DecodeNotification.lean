import TrapHandler.FieldParsing
import TrapHandler.Notifications

/-!
# Decoding well-formed notifications

Every element of an encoded message is consumed exactly, so the cursor stands behind the element and
the decoder goes on with the next one. The lemmas follow the encoding: single elements, values,
variable bindings, the binding list, and the message around them.
-/

namespace TrapHandler

open ByteReader ByteReader.Reader Ber CSnmpTrap

variable {α β : Type} {mem : Memory} {p : ℕ}

/-- Length forms that denote their number and stay within four octets. -/
def Definite (length : ℕ → List UInt8 → Prop) : Prop :=
  ∀ n ls, n < 2 ^ 32 → length n ls → IsLength n ls

theorem definite_isLength : Definite IsLength := fun _ _ _ h => h

theorem definite_isShortestLength : Definite IsShortestLength := fun _ _ hn h => h.isLength hn

variable {length : ℕ → List UInt8 → Prop} {tag : UInt8} {content bs : List UInt8}

theorem getFieldLength_accepts (hL : Definite length) (h : IsElement length tag content bs)
    (hmem : HoldsAt mem p bs) (hlen : bs.length < 2 ^ 32) :
    ∃ q, mem p = tag ∧ HoldsAt mem q content ∧ q + content.length = p + bs.length ∧
      Accepts getFieldLength mem (some (p + 1)) (UInt32.ofNat content.length) (some q) := by
  have hn : content.length < 2 ^ 32 := h.content_le.trans hlen
  obtain ⟨ls, hls, hbs⟩ := h
  exact elementLength_accepts ⟨ls, (hL _ _ hn hls).isDefiniteLength, hbs⟩ hmem hn

theorem accepts_container (hL : Definite length) (h : IsElement length tag content bs)
    (hmem : HoldsAt mem p bs) (hlen : bs.length < 2 ^ 32) {f : UInt32 → Reader β} {b : β}
    {c : Cursor}
    (hrest : ∀ q, q + content.length = p + bs.length → HoldsAt mem q content →
      Accepts (f (UInt32.ofNat content.length)) mem (some q) b c) :
    Accepts (expectTag tag >>= fun _ => getFieldLength >>= f) mem (some p) b c := by
  obtain ⟨q, htag, hbody, hq, hacc⟩ := getFieldLength_accepts hL h hmem hlen
  apply (expectTag_accepts htag).bind
  apply hacc.bind
  exact hrest q hq hbody

theorem accepts_field (hL : Definite length) (h : IsElement length tag content bs)
    (hmem : HoldsAt mem p bs) (hlen : bs.length < 2 ^ 32) {parse : UInt32 → Reader α}
    {f : α → Reader β} {a : α} {b : β} {c : Cursor}
    (hparse : ∀ q, HoldsAt mem q content →
      Accepts (parse (UInt32.ofNat content.length)) mem (some q) a (some (q + content.length)))
    (hrest : Accepts (f a) mem (some (p + bs.length)) b c) :
    Accepts (expectTag tag >>= fun _ => getFieldLength >>= fun fieldLen => parse fieldLen >>= f)
      mem (some p) b c := by
  refine accepts_container hL h hmem hlen ?_
  intro q hq hbody
  apply (hparse q hbody).bind
  rw [hq]
  exact hrest

theorem parseStr_accepts {s : TextOctets} (hlen : s.val.length < 2 ^ 32)
    (hmem : HoldsAt mem p s.val) :
    Accepts (parseStr (UInt32.ofNat s.val.length)) mem (some p) s.text
      (some (p + s.val.length)) := by
  rw [accepts_parseStr, toNat_contentLength hlen, hmem]
  refine ⟨?_, rfl⟩
  apply List.map_congr_left
  intro b hb
  exact (charToWChar_of_lt (s.property b hb).2).symm

theorem parseOid_accepts {o : Oid} (hlen : o.octets.length < 2 ^ 32)
    (hmem : HoldsAt mem p o.octets) :
    Accepts (parseOid {} (UInt32.ofNat o.octets.length)) mem (some p) (.ofComponents o.components)
      (some (p + o.octets.length)) := by
  rw [accepts_parseOid, toNat_contentLength hlen, hmem, Oid.octets, oidOf_oidOctets]
  exact ⟨rfl, rfl⟩

theorem uint32Of_octets (a : UInt32) : uint32Of (octets 4 a.toNat) = a := by
  apply UInt32.toNat_inj.mp
  rw [toNat_uint32Of_of_length_le (by simp), octetsValue_octets 4 _ a.toNat_lt]

theorem parseIP_accepts {a : UInt32} (hmem : HoldsAt mem p (octets 4 a.toNat)) :
    Accepts (parseIP (UInt32.ofNat (octets 4 a.toNat).length)) mem (some p) a
      (some (p + (octets 4 a.toNat).length)) := by
  rw [accepts_parseIP, toNat_contentLength (by simp), hmem, uint32Of_octets]
  exact ⟨rfl, rfl⟩

theorem uint32Of_integerOctets {n : ℕ} (hw : integerWidth n ≤ 4) :
    uint32Of (integerOctets n) = UInt32.ofNat n := by
  have hn : n < 2 ^ 31 := (integerWidth_le_iff (by decide)).mp hw
  apply UInt32.toNat_inj.mp
  rw [toNat_uint32Of_of_length_le (by simpa using hw), octetsValue_integerOctets,
    UInt32.toNat_ofNat_of_lt' (show n < 2 ^ 32 by omega)]

theorem uint64Of_integerOctets {n : ℕ} (hw : integerWidth n ≤ 8) :
    uint64Of (integerOctets n) = UInt64.ofNat n := by
  have hn : n < 2 ^ 63 := (integerWidth_le_iff (by decide)).mp hw
  apply UInt64.toNat_inj.mp
  rw [toNat_uint64Of_of_length_le (by simpa using hw), octetsValue_integerOctets,
    UInt64.toNat_ofNat_of_lt' (show n < 2 ^ 64 by omega)]

theorem parseInt_accepts {n : ℕ} {val : UInt32} (hw : integerWidth n ≤ 4)
    (hmem : HoldsAt mem p (integerOctets n)) :
    Accepts (parseInt val (UInt32.ofNat (integerOctets n).length)) mem (some p) (UInt32.ofNat n)
      (some (p + (integerOctets n).length)) := by
  rw [← uint32Of_integerOctets hw]
  exact parseInt_content (by rwa [length_integerOctets]) hmem

theorem parseBigInt_accepts {n : ℕ} {val : UInt64} (hw : integerWidth n ≤ 8)
    (hmem : HoldsAt mem p (integerOctets n)) :
    Accepts (parseBigInt val (UInt32.ofNat (integerOctets n).length)) mem (some p) (UInt64.ofNat n)
      (some (p + (integerOctets n).length)) := by
  rw [← uint64Of_integerOctets hw]
  exact parseBigInt_content (by rwa [length_integerOctets]) hmem

theorem integerWidth_le_four {n : ℕ} (hn : n < 2 ^ 31) : integerWidth n ≤ 4 :=
  (integerWidth_le_iff (by decide)).mpr hn

theorem parseTime_accepts {t : UInt32} {val : UInt64}
    (hmem : HoldsAt mem p (integerOctets t.toNat)) :
    Accepts (parseTime val (UInt32.ofNat (integerOctets t.toNat).length)) mem (some p) t.toUInt64
      (some (p + (integerOctets t.toNat).length)) := by
  have hwidth : integerWidth t.toNat ≤ 8 :=
    (integerWidth_le_iff (by decide)).mpr (t.toNat_lt.trans (by norm_num))
  have hle : UInt32.ofNat (integerOctets t.toNat).length ≤ 4 ↔ integerWidth t.toNat ≤ 4 := by
    rw [contentLength_le_four_iff (by rw [length_integerOctets]; omega), length_integerOctets]
  by_cases hw : integerWidth t.toNat ≤ 4
  · rw [parseTime, if_pos (hle.mpr hw)]
    apply (parseInt_accepts hw hmem).bind
    rw [UInt32.ofNat_toNat]
    exact accepts_pure.mpr ⟨rfl, rfl⟩
  · have ht : t.toUInt64 = UInt64.ofNat t.toNat := by
      apply UInt64.toNat_inj.mp
      rw [UInt32.toNat_toUInt64, UInt64.toNat_ofNat_of_lt' (t.toNat_lt.trans (by norm_num))]
    rw [parseTime, if_neg (fun h => hw (hle.mp h)), ht]
    exact parseBigInt_accepts hwidth hmem

theorem accepts_body (hL : Definite length) (h : IsElement length tag content bs)
    (hmem : HoldsAt mem p bs) (hlen : bs.length < 2 ^ 32) {parse : UInt32 → Reader α} {a : α}
    (hparse : ∀ q, q + content.length = p + bs.length → HoldsAt mem q content →
      Accepts (parse (UInt32.ofNat content.length)) mem (some q) a (some (p + bs.length))) :
    Accepts (advance >>= fun _ => getFieldLength >>= parse) mem (some p) a
      (some (p + bs.length)) := by
  obtain ⟨q, _, hbody, hq, hacc⟩ := getFieldLength_accepts hL h hmem hlen
  apply (advance_accepts mem p).bind
  apply hacc.bind
  exact hparse q hq hbody

theorem decodeValue_integer (hL : Definite length) {name : Oid} {n : ℕ} (hn : n < 2 ^ 63)
    (htag : tag = SNMP_TYPE_INT ∨ tag = SNMP_TYPE_TIME)
    (h : EncodesInteger length tag n bs) (hmem : HoldsAt mem p bs) (hlen : bs.length < 2 ^ 32) :
    Accepts (decodeValue { oid := .ofComponents name.components, iValueType := tag } tag)
      mem (some p) (integerVar name tag n) (some (p + bs.length)) := by
  have hint : (tag == SNMP_TYPE_INT || tag == SNMP_TYPE_TIME) = true := by
    rcases htag with rfl | rfl <;> decide
  have hbool : ¬ (tag == SNMP_TYPE_BOOL) = true := by
    rcases htag with rfl | rfl <;> decide
  rw [decodeValue, if_neg hbool, if_pos hint]
  refine accepts_body hL h hmem hlen ?_
  intro q hq hbody
  have hwidth : integerWidth n ≤ 8 := (integerWidth_le_iff (by decide)).mpr hn
  have hle : UInt32.ofNat (integerOctets n).length ≤ 4 ↔ integerWidth n ≤ 4 := by
    rw [contentLength_le_four_iff (by rw [length_integerOctets]; omega), length_integerOctets]
  by_cases hw : integerWidth n ≤ 4
  · rw [if_pos (hle.mpr hw), integerVar, if_pos hw, ← hq]
    apply (parseInt_accepts hw hbody).bind
    exact accepts_pure.mpr ⟨rfl, rfl⟩
  · rw [if_neg (fun h => hw (hle.mp h)), integerVar, if_neg hw, ← hq]
    apply (parseBigInt_accepts hwidth hbody).bind
    exact accepts_pure.mpr ⟨rfl, rfl⟩

theorem decodeValue_accepts (hL : Definite length) {v : Varbind}
    (h : v.value.Encodes length bs) (hmem : HoldsAt mem p bs) (hlen : bs.length < 2 ^ 32) :
    Accepts (decodeValue { oid := .ofComponents v.name.components, iValueType := mem p } (mem p))
      mem (some p) v.toVar (some (p + bs.length)) := by
  rcases v with ⟨name, value⟩
  cases value with
  | integer n =>
    obtain ⟨_, htag, _⟩ := getFieldLength_accepts hL h hmem hlen
    rw [htag]
    exact decodeValue_integer hL n.property (.inl rfl) h hmem hlen
  | timeTicks t =>
    obtain ⟨_, htag, _⟩ := getFieldLength_accepts hL h hmem hlen
    rw [htag]
    exact decodeValue_integer hL (t.toNat_lt.trans (by norm_num)) (.inr rfl) h hmem hlen
  | octetString s =>
    obtain ⟨_, htag, _⟩ := getFieldLength_accepts hL h hmem hlen
    have hcontent := h.content_le
    rw [htag]
    refine accepts_body hL h hmem hlen ?_
    intro q hq hbody
    rw [← hq]
    apply (parseStr_accepts (hcontent.trans hlen) hbody).bind
    exact accepts_pure.mpr ⟨rfl, rfl⟩
  | null =>
    change bs = [SNMP_TYPE_NULL, 0] at h
    subst h
    rw [(holdsAt_cons.mp hmem).1]
    apply (advance_accepts mem p).bind
    apply (advance_accepts mem (p + 1)).bind
    exact accepts_pure.mpr ⟨rfl, rfl⟩
  | oid o =>
    obtain ⟨_, htag, _⟩ := getFieldLength_accepts hL h hmem hlen
    have hcontent := h.content_le
    rw [htag]
    refine accepts_body hL h hmem hlen ?_
    intro q hq hbody
    rw [← hq]
    apply (parseOid_accepts (hcontent.trans hlen) hbody).bind
    exact accepts_pure.mpr ⟨rfl, rfl⟩
  | ipAddress a =>
    obtain ⟨_, htag, _⟩ := getFieldLength_accepts hL h hmem hlen
    rw [htag]
    refine accepts_body hL h hmem hlen ?_
    intro q hq hbody
    rw [← hq]
    apply (parseIP_accepts hbody).bind
    exact accepts_pure.mpr ⟨rfl, rfl⟩

theorem decodeVarbind_accepts (hL : Definite length) {v : Varbind} (h : v.Encodes length bs)
    (hmem : HoldsAt mem p bs) (hlen : bs.length < 2 ^ 32) :
    mem p = SNMP_TYPE_SEQ ∧
      Accepts decodeVarbind mem (some (p + 1)) v.toVar (some (p + bs.length)) := by
  obtain ⟨name, value, hname, hvalue, hseq⟩ := h
  have hcontent := hseq.content_le
  obtain ⟨q, htag, hbody, hq, hacc⟩ := getFieldLength_accepts hL hseq hmem hlen
  obtain ⟨hnameMem, hvalueMem⟩ := holdsAt_append.mp hbody
  have hnameLen := hname.content_le
  simp only [List.length_append] at hcontent hq
  refine ⟨htag, ?_⟩
  apply hacc.bind
  refine accepts_field hL hname hnameMem (by omega)
    (fun r hr => parseOid_accepts (by omega) hr) ?_
  apply (peek_accepts mem _).bind
  rw [show p + bs.length = q + name.length + value.length by omega]
  exact decodeValue_accepts hL hvalue hvalueMem (by omega)

/-- The loop decodes a list of bindings that ends with the packet, whatever byte lies behind it. -/
theorem varbindLoop_accepts (hL : Definite length) {packetLen : UInt32} {vs : List Varbind}
    {fuel : ℕ} (varArgs : List CSnmpTrapVar) (h : EncodesVarbinds length vs bs)
    (hmem : HoldsAt mem p bs) (hend : p + bs.length = packetLen.toNat) (hfuel : bs.length ≤ fuel) :
    Accepts (varbindLoop packetLen fuel varArgs) mem (some p) (varArgs ++ vs.map Varbind.toVar)
      (some packetLen.toNat) := by
  have hpacket := packetLen.toNat_lt
  induction vs generalizing bs p fuel varArgs with
  | nil =>
    obtain rfl : bs = [] := h
    obtain rfl : p = packetLen.toNat := hend
    unfold varbindLoop
    apply (peek_accepts mem _).bind
    apply (offset_accepts mem _).bind
    rw [if_neg (by simp)]
    exact accepts_pure.mpr ⟨by simp, rfl⟩
  | cons v vs ih =>
    obtain ⟨first, later, hfirst, hlater, rfl⟩ := h
    obtain ⟨hfirstMem, hlaterMem⟩ := holdsAt_append.mp hmem
    rw [List.length_append] at hend hfuel
    obtain ⟨htag, hacc⟩ := decodeVarbind_accepts hL hfirst hfirstMem (by omega)
    have hpos : 0 < first.length := by
      obtain ⟨_, _, _, _, hseq⟩ := hfirst
      have := hseq.content_le
      omega
    obtain ⟨fuel, rfl⟩ : ∃ k, fuel = k + 1 := ⟨fuel - 1, by omega⟩
    unfold varbindLoop
    apply (peek_accepts mem _).bind
    apply (offset_accepts mem _).bind
    rw [if_pos (by simp only [htag, beq_self_eq_true, Bool.true_and, decide_eq_true_eq]; omega)]
    apply (advance_accepts mem p).bind
    apply hacc.bind
    have hloop := ih (varArgs ++ [v.toVar]) hlater hlaterMem (by omega)
      (show later.length ≤ fuel by omega)
    rwa [List.append_assoc, List.singleton_append, ← List.map_cons] at hloop

/-- The object once envelope, version, community and PDU tag have been read. -/
def withHeader (this : CSnmpTrap) (version : ℕ) (community : TextOctets) (pos : ℕ)
    (tag : UInt8) : CSnmpTrap :=
  { this with
    version := UInt32.ofNat version
    community := some community.text
    pReqType := some pos
    trapType := tag }

theorem decodeHeader_accepts (hL : Definite length) (platform : Platform) (this : CSnmpTrap)
    {version : ℕ} {community : TextOctets} {pdu : List UInt8} (hversion : version < 2 ^ 31)
    (h : EncodesMessage length version community pdu bs) (hpdu : IsElement length tag content pdu)
    (htag : tag = SNMP_V1TRAP ∨ tag = SNMP_V2INFORM ∨ tag = SNMP_V2TRAP)
    (hmem : HoldsAt mem 0 bs) (hlen : bs.length = this.packetLen.toNat) :
    ∃ pos q, HoldsAt mem q content ∧ q + content.length = this.packetLen.toNat ∧
      Accepts (decodeHeader platform this) mem (some 0)
        (withHeader this version community pos tag) (some q) := by
  have hpacket := this.packetLen.toNat_lt
  obtain ⟨ver, comm, hver, hcomm, hseq⟩ := h
  have hcontent := hseq.content_le
  obtain ⟨q₀, hseqTag, hbody, hq₀, hseqAcc⟩ := getFieldLength_accepts hL hseq hmem (by omega)
  simp only [List.length_append] at hcontent hq₀
  obtain ⟨hverMem, hrest⟩ := holdsAt_append.mp hbody
  obtain ⟨hcommMem, hpduMem⟩ := holdsAt_append.mp hrest
  obtain ⟨q, hpduTag, hpduBody, hq, hpduAcc⟩ := getFieldLength_accepts hL hpdu hpduMem (by omega)
  refine ⟨q₀ + ver.length + comm.length, q, hpduBody, by omega, ?_⟩
  apply (expectTag_accepts hseqTag).bind
  apply hseqAcc.bind
  apply (offset_accepts mem q₀).bind
  refine (require_accepts ?_).bind ?_
  · rw [toNat_contentLength (by simp only [List.length_append]; omega), decide_eq_true_eq]
    exact (bytesLeft_eq (by simp only [List.length_append]; omega)).symm
  have hwidth := integerWidth_le_four hversion
  refine accepts_container hL hver hverMem (by omega) ?_
  intro q₁ hq₁ hverBody
  refine (require_accepts ?_).bind ?_
  · rw [decide_eq_true_eq, length_integerOctets]
    exact (ofNat_le_iff (by omega) (by decide)).mpr hwidth
  apply (parseInt_accepts hwidth hverBody).bind
  rw [hq₁]
  have hcommLen := hcomm.content_le
  refine accepts_field hL hcomm hcommMem (by omega)
    (fun r hr => parseStr_accepts (by omega) hr) ?_
  apply (offset_accepts mem _).bind
  apply (peek_accepts mem _).bind
  rw [hpduTag]
  refine (require_accepts ?_).bind ?_
  · rcases htag with rfl | rfl | rfl <;> decide
  apply (advance_accepts mem _).bind
  apply hpduAcc.bind
  exact accepts_pure.mpr ⟨rfl, rfl⟩

theorem decodeV2_accepts (hL : Definite length) (this : CSnmpTrap) {n : Notification}
    (h : n.EncodesFields length content) (hmem : HoldsAt mem p content)
    (hend : p + content.length = this.packetLen.toNat) :
    ∃ varbinds q, EncodesVarbinds length n.varbinds varbinds ∧ HoldsAt mem q varbinds ∧
      q + varbinds.length = this.packetLen.toNat ∧
      Accepts (decodeV2 this) mem (some p)
        { this with
          requestID := UInt32.ofNat n.requestID
          error := UInt32.ofNat n.errorStatus
          errorIndex := UInt32.ofNat n.errorIndex
          ullSourceTime := n.sysUpTime.toUInt64
          trapOid := some (.ofComponents n.trapOid.components) } (some q) := by
  have hpacket := this.packetLen.toNat_lt
  obtain ⟨requestID, errorStatus, errorIndex, timeName, time, timeBind, oidName, oid, oidBind,
    varbinds, list, hrequestID, herrorStatus, herrorIndex, htimeName, htime, htimeBind, hoidName,
    hoid, hoidBind, hvarbinds, hlist, rfl⟩ := h
  simp only [List.length_append] at hend
  obtain ⟨hm₁, hm⟩ := holdsAt_append.mp hmem
  obtain ⟨hm₂, hm⟩ := holdsAt_append.mp hm
  obtain ⟨hm₃, hm⟩ := holdsAt_append.mp hm
  obtain ⟨q₁, hlistTag, hlistBody, hq₁, hlistAcc⟩ := getFieldLength_accepts hL hlist hm (by omega)
  simp only [List.length_append] at hq₁
  obtain ⟨hm₄, hm⟩ := holdsAt_append.mp hlistBody
  obtain ⟨hm₅, hm⟩ := holdsAt_append.mp hm
  refine ⟨varbinds, _, hvarbinds, hm, by omega, ?_⟩
  refine accepts_field hL hrequestID hm₁ (by omega)
    (fun r hr => parseInt_accepts (integerWidth_le_four n.requestID.property) hr) ?_
  refine accepts_field hL herrorStatus hm₂ (by omega)
    (fun r hr => parseInt_accepts (integerWidth_le_four n.errorStatus.property) hr) ?_
  refine accepts_field hL herrorIndex hm₃ (by omega)
    (fun r hr => parseInt_accepts (integerWidth_le_four n.errorIndex.property) hr) ?_
  apply (expectTag_accepts hlistTag).bind
  apply hlistAcc.bind
  refine accepts_container hL htimeBind hm₄ (by omega) ?_
  intro r hr hbind
  obtain ⟨hnameMem, htimeMem⟩ := holdsAt_append.mp hbind
  rw [List.length_append] at hr
  have hnameLen := htimeName.content_le
  refine accepts_field hL htimeName hnameMem (by omega)
    (fun s hs => parseOid_accepts (by omega) hs) ?_
  refine accepts_field hL htime htimeMem (by omega) (fun s hs => parseTime_accepts hs) ?_
  rw [Nat.add_assoc, hr]
  refine accepts_container hL hoidBind hm₅ (by omega) ?_
  intro r hr hbind
  obtain ⟨hnameMem, hoidMem⟩ := holdsAt_append.mp hbind
  rw [List.length_append] at hr
  have hnameLen := hoidName.content_le
  have hoidLen := hoid.content_le
  refine accepts_field hL hoidName hnameMem (by omega)
    (fun s hs => parseOid_accepts (by omega) hs) ?_
  refine accepts_field hL hoid hoidMem (by omega) (fun s hs => parseOid_accepts (by omega) hs) ?_
  rw [Nat.add_assoc, hr]
  exact accepts_pure.mpr ⟨rfl, rfl⟩

theorem spliced_trapOid (n : V1Trap) :
    (CSnmpOid.ofComponents n.enterprise.components).append
        (.ofComponents (if UInt32.ofNat n.generic == 6 then [0, UInt32.ofNat n.specific]
          else [UInt32.ofNat n.generic + 1])) = .ofComponents n.trapOid := by
  have hsix : (UInt32.ofNat n.generic == 6) = true ↔ n.generic = 6 := by
    have all : ∀ g : Fin 7, (UInt32.ofNat g == 6) = true ↔ g = 6 := by decide
    exact all n.generic
  by_cases hg : n.generic = 6
  · rw [if_pos (hsix.mpr hg), CSnmpOid.ofComponents_append _ _ (by simp), V1Trap.trapOid, if_pos hg]
  · rw [if_neg (fun h => hg (hsix.mp h)), CSnmpOid.ofComponents_append _ _ (by simp),
      V1Trap.trapOid, if_neg hg]

/-- The version 1 fields are read, and the cursor stands at the first binding. The one-octet length
fields are looked at twice, so the sender must use their short form. -/
theorem decodeV1_accepts (uninit : UInt32) (this : CSnmpTrap) {n : V1Trap}
    (h : n.EncodesFields IsShortestLength content) (hmem : HoldsAt mem p content)
    (hend : p + content.length = this.packetLen.toNat) :
    ∃ varbinds q, EncodesVarbinds IsShortestLength n.varbinds varbinds ∧ HoldsAt mem q varbinds ∧
      q + varbinds.length = this.packetLen.toNat ∧
      Accepts (decodeV1 uninit this) mem (some p)
        { this with
          requestID := 0
          error := 0
          errorIndex := 0
          trapOid := some (.ofComponents n.trapOid)
          snmpSourceIP := n.agentAddr
          ullSourceTime := n.timeStamp.toUInt64 } (some q) := by
  have hL := definite_isShortestLength
  have hpacket := this.packetLen.toNat_lt
  obtain ⟨enterprise, agentAddr, generic, specific, timeStamp, varbinds, list, henterprise,
    hagentAddr, hgeneric, hspecific, htimeStamp, hvarbinds, hlist, rfl⟩ := h
  simp only [List.length_append] at hend
  obtain ⟨hm₁, hm⟩ := holdsAt_append.mp hmem
  obtain ⟨hm₂, hm⟩ := holdsAt_append.mp hm
  obtain ⟨hm₃, hm⟩ := holdsAt_append.mp hm
  obtain ⟨hm₄, hm⟩ := holdsAt_append.mp hm
  obtain ⟨hm₅, hm⟩ := holdsAt_append.mp hm
  obtain ⟨q, hlistTag, hlistBody, hq, hlistAcc⟩ := getFieldLength_accepts hL hlist hm (by omega)
  refine ⟨varbinds, q, hvarbinds, hlistBody, by omega, ?_⟩
  have henterpriseLen := henterprise.content_le
  refine accepts_field hL henterprise hm₁ (by omega)
    (fun r hr => parseOid_accepts (by omega) hr) ?_
  obtain ⟨q₂, htag₂, hbody₂, hq₂, hacc₂⟩ := getFieldLength_accepts hL hagentAddr hm₂ (by omega)
  have hfour : mem (p + enterprise.length + 1) = 4 := by
    obtain ⟨ls, hls, rfl⟩ := hagentAddr
    rw [hls.eq_short (by simp), length_octets] at hm₂
    exact (holdsAt_cons.mp (holdsAt_cons.mp hm₂).2).1
  apply (expectTag_accepts htag₂).bind
  apply (peek_accepts mem _).bind
  apply (require_accepts (by rw [hfour]; rfl)).bind
  apply hacc₂.bind
  apply (parseIP_accepts hbody₂).bind
  rw [hq₂]
  have hwidth : integerWidth n.generic = 1 := by
    have hgen := n.generic.isLt
    have hle : integerWidth n.generic ≤ 1 := (integerWidth_le_iff le_rfl).mpr (by omega)
    have hpos : 1 ≤ integerWidth n.generic := by simp [integerWidth]
    omega
  obtain ⟨q₃, htag₃, hbody₃, hq₃, hacc₃⟩ := getFieldLength_accepts hL hgeneric hm₃ (by omega)
  have hone : mem (p + enterprise.length + agentAddr.length + 1) = 1 := by
    obtain ⟨ls, hls, rfl⟩ := hgeneric
    rw [hls.eq_short (by rw [length_integerOctets, hwidth]; decide), length_integerOctets,
      hwidth] at hm₃
    exact (holdsAt_cons.mp (holdsAt_cons.mp hm₃).2).1
  apply (expectTag_accepts htag₃).bind
  apply (peek_accepts mem _).bind
  apply (require_accepts (by rw [hone]; rfl)).bind
  apply hacc₃.bind
  apply (parseInt_accepts (by omega) hbody₃).bind
  rw [hq₃]
  refine accepts_field hL hspecific hm₄ (by omega)
    (fun r hr => parseInt_accepts (integerWidth_le_four n.specific.property) hr) ?_
  refine accepts_field hL htimeStamp hm₅ (by omega) (fun r hr => parseTime_accepts hr) ?_
  apply (expectTag_accepts hlistTag).bind
  apply hlistAcc.bind
  rw [spliced_trapOid]
  exact accepts_pure.mpr ⟨rfl, rfl⟩

theorem decode_accepts {platform : Platform} {uninit : UInt32} {this this₁ this₂ : CSnmpTrap}
    {c₁ c₂ c₃ : Cursor} {varArgs : List CSnmpTrapVar}
    (hheader : Accepts (decodeHeader platform this) mem (some 0) this₁ c₁)
    (hfields : Accepts (decodeFields uninit this₁) mem c₁ this₂ c₂)
    (hloop : Accepts (varbindLoop this₂.packetLen this₂.packetLen.toNat this₂.varArgs)
      mem c₂ varArgs c₃) :
    Accepts (decode platform uninit this) mem (some 0) { this₂ with varArgs } c₃ :=
  hheader.bind (hfields.bind (hloop.bind (accepts_pure.mpr ⟨rfl, rfl⟩)))

theorem decodeFields_of_v1 (uninit : UInt32) {this : CSnmpTrap}
    (h : this.trapType = SNMP_V1TRAP) : decodeFields uninit this = decodeV1 uninit this := by
  rw [decodeFields, h, if_pos (by decide)]

theorem decodeFields_of_v2 (uninit : UInt32) {this : CSnmpTrap} {n : Notification}
    (h : this.trapType = n.pduTag) : decodeFields uninit this = decodeV2 this := by
  have hne : ¬ (n.pduTag == SNMP_V1TRAP) = true := by
    rw [Notification.pduTag]
    cases n.inform <;> decide
  rw [decodeFields, h, if_neg hne]

theorem toNat_ofNat_of_lt_two_pow_31 (n : { n : ℕ // n < 2 ^ 31 }) :
    (UInt32.ofNat n).toNat = n :=
  UInt32.toNat_ofNat_of_lt' (n.property.trans (by norm_num))

/-- A whole version 2c message is decoded into the notification it encodes. -/
theorem decode_notification (platform : Platform) (uninit : UInt32) (raw : CSnmpTrap)
    (behind : Memory) (packet : SSnmpPacket) (n : Notification)
    (h : n.Encodes IsLength packet.buf) :
    ∃ trap c, (packet.decode platform uninit raw behind).outcome = .ok trap c ∧
      trap.version.toNat = n.version ∧
      trap.community = some n.community.text ∧
      trap.trapType = n.pduTag ∧
      trap.requestID.toNat = n.requestID ∧
      trap.error.toNat = n.errorStatus ∧
      trap.errorIndex.toNat = n.errorIndex ∧
      trap.ullSourceTime.toNat = n.sysUpTime.toNat ∧
      trap.trapOid = some (.ofComponents n.trapOid.components) ∧
      trap.varArgs = n.varbinds.map Varbind.toVar := by
  obtain ⟨content, pdu, hfields, hpdu, hmessage⟩ := h
  have htag : n.pduTag = SNMP_V1TRAP ∨ n.pduTag = SNMP_V2INFORM ∨ n.pduTag = SNMP_V2TRAP := by
    rw [Notification.pduTag]
    cases n.inform <;> simp
  obtain ⟨pos, q₀, hmem₀, hend₀, hheader⟩ := decodeHeader_accepts definite_isLength
    platform (ofPacket packet raw) n.version.property hmessage hpdu htag
    (holdsAt_memoryOf packet.buf behind) packet.size_eq.symm
  obtain ⟨varbinds, q, hvarbinds, hmem, hend, hfieldsAcc⟩ :=
    decodeV2_accepts definite_isLength
      (withHeader (ofPacket packet raw) n.version n.community pos n.pduTag) hfields hmem₀ hend₀
  rw [← decodeFields_of_v2 uninit rfl] at hfieldsAcc
  have hend' : q + varbinds.length = packet.packetSize.toNat := hend
  have hloop := varbindLoop_accepts definite_isLength [] hvarbinds hmem hend'
    (show varbinds.length ≤ packet.packetSize.toNat by omega)
  rw [List.nil_append] at hloop
  refine ⟨_, _, decode_accepts hheader hfieldsAcc hloop, ?_⟩
  exact ⟨toNat_ofNat_of_lt_two_pow_31 n.version, rfl, rfl,
    toNat_ofNat_of_lt_two_pow_31 n.requestID, toNat_ofNat_of_lt_two_pow_31 n.errorStatus,
    toNat_ofNat_of_lt_two_pow_31 n.errorIndex, UInt32.toNat_toUInt64 _, rfl, rfl⟩

/-- The agent's hello message for `testsystem`. -/
def helloNotification : Notification where
  version := ⟨1, by decide⟩
  community := ⟨[112, 117, 98, 108, 105, 99], by decide +kernel⟩
  inform := false
  requestID := ⟨1, by decide⟩
  errorStatus := ⟨0, by decide⟩
  errorIndex := ⟨0, by decide⟩
  sysUpTime := 70000
  trapOid := ⟨[6, 1, 4, 1, 15282, 10, 0, 8]⟩
  varbinds := [{
    name := ⟨[6, 1, 4, 1, 15282, 11, 1, 0]⟩
    value := .octetString ⟨[116, 101, 115, 116, 115, 121, 115, 116, 101, 109], by decide +kernel⟩ }]

def helloPacket : SSnmpPacket where
  srcAddr := 0x0100007F
  srcPort := 123
  ftRecvTime := 0
  packetSize := 95
  buf := [48, 93, 2, 1, 1, 4, 6, 112, 117, 98, 108, 105, 99, 167, 80, 2, 1, 1, 2, 1, 0, 2, 1, 0,
    48, 69, 48, 15, 6, 8, 43, 6, 1, 2, 1, 1, 3, 0, 67, 3, 1, 17, 112,
    48, 24, 6, 10, 43, 6, 1, 6, 3, 1, 1, 4, 1, 0, 6, 10, 43, 6, 1, 4, 1, 247, 50, 10, 0, 8,
    48, 24, 6, 10, 43, 6, 1, 4, 1, 247, 50, 11, 1, 0,
    4, 10, 116, 101, 115, 116, 115, 121, 115, 116, 101, 109]
  size_eq := by decide

theorem encodes_hello : helloNotification.Encodes IsLength helloPacket.buf := by
  have hbind : EncodesVarbinds IsLength helloNotification.varbinds (helloPacket.buf.drop 69) :=
    ⟨_, _, ⟨_, _, isElement_short (by decide), isElement_short (by decide),
      isElement_short (by decide)⟩, rfl, rfl⟩
  have hfields : helloNotification.EncodesFields IsLength (helloPacket.buf.drop 15) := by
    refine ⟨_, _, _, _, _, _, _, _, _, _, _, isElement_short (by decide),
      isElement_short (by decide), isElement_short (by decide), isElement_short (by decide),
      isElement_short (by decide), isElement_short (by decide), isElement_short (by decide),
      isElement_short (by decide), isElement_short (by decide), hbind,
      isElement_short (by decide), rfl⟩
  exact ⟨_, _, hfields, isElement_short (by decide), _, _, isElement_short (by decide),
    isElement_short (by decide), isElement_short (by decide)⟩

theorem decode_hello :
    ∃ trap c, (helloPacket.decode .win32 0 default fun _ => 0xFF).outcome = .ok trap c ∧
      trap.version.toNat = 1 ∧
      trap.community = some helloNotification.community.text ∧
      trap.trapType = SNMP_V2TRAP ∧
      trap.requestID.toNat = 1 ∧
      trap.error.toNat = 0 ∧
      trap.errorIndex.toNat = 0 ∧
      trap.ullSourceTime.toNat = 70000 ∧
      trap.trapOid = some (.ofComponents [1, 3, 6, 1, 4, 1, 15282, 10, 0, 8]) ∧
      trap.varArgs = helloNotification.varbinds.map Varbind.toVar :=
  decode_notification .win32 0 default (fun _ => 0xFF) helloPacket helloNotification encodes_hello

/-- A whole version 1 message is decoded into the trap it encodes. -/
theorem decode_v1Trap (platform : Platform) (uninit : UInt32) (raw : CSnmpTrap)
    (behind : Memory) (packet : SSnmpPacket) (n : V1Trap)
    (h : n.Encodes IsShortestLength packet.buf) :
    ∃ trap c, (packet.decode platform uninit raw behind).outcome = .ok trap c ∧
      trap.version.toNat = n.version ∧
      trap.community = some n.community.text ∧
      trap.trapType = SNMP_V1TRAP ∧
      trap.trapOid = some (.ofComponents n.trapOid) ∧
      trap.snmpSourceIP = n.agentAddr ∧
      trap.ullSourceTime.toNat = n.timeStamp.toNat ∧
      trap.requestID = 0 ∧ trap.error = 0 ∧ trap.errorIndex = 0 ∧
      trap.varArgs = n.varbinds.map Varbind.toVar := by
  obtain ⟨content, pdu, hfields, hpdu, hmessage⟩ := h
  obtain ⟨pos, q₀, hmem₀, hend₀, hheader⟩ := decodeHeader_accepts definite_isShortestLength
    platform (ofPacket packet raw) n.version.property hmessage hpdu (.inl rfl)
    (holdsAt_memoryOf packet.buf behind) packet.size_eq.symm
  obtain ⟨varbinds, q, hvarbinds, hmem, hend, hfieldsAcc⟩ :=
    decodeV1_accepts uninit
      (withHeader (ofPacket packet raw) n.version n.community pos SNMP_V1TRAP) hfields hmem₀ hend₀
  rw [← decodeFields_of_v1 uninit rfl] at hfieldsAcc
  have hend' : q + varbinds.length = packet.packetSize.toNat := hend
  have hloop := varbindLoop_accepts definite_isShortestLength [] hvarbinds hmem hend'
    (show varbinds.length ≤ packet.packetSize.toNat by omega)
  rw [List.nil_append] at hloop
  refine ⟨_, _, decode_accepts hheader hfieldsAcc hloop, ?_⟩
  exact ⟨toNat_ofNat_of_lt_two_pow_31 n.version, rfl, rfl, rfl, rfl, UInt32.toNat_toUInt64 _,
    rfl, rfl, rfl, rfl⟩

/-- The agent's goodbye message for `testsystem`, in version 1. -/
def goodbyeTrap : V1Trap where
  version := ⟨0, by decide⟩
  community := ⟨[112, 117, 98, 108, 105, 99], by decide +kernel⟩
  enterprise := ⟨[6, 1, 4, 1, 15282, 10]⟩
  agentAddr := 0x0A000001
  generic := ⟨6, by decide⟩
  specific := ⟨9, by decide⟩
  timeStamp := 70000
  varbinds := [{
    name := ⟨[6, 1, 4, 1, 15282, 11, 1, 0]⟩
    value := .octetString ⟨[116, 101, 115, 116, 115, 121, 115, 116, 101, 109], by decide +kernel⟩ }]

def goodbyePacket : SSnmpPacket where
  srcAddr := 0x0100007F
  srcPort := 123
  ftRecvTime := 0
  packetSize := 70
  buf := [48, 68, 2, 1, 0, 4, 6, 112, 117, 98, 108, 105, 99, 164, 55,
    6, 8, 43, 6, 1, 4, 1, 247, 50, 10, 64, 4, 10, 0, 0, 1, 2, 1, 6, 2, 1, 9, 67, 3, 1, 17, 112,
    48, 26, 48, 24, 6, 10, 43, 6, 1, 4, 1, 247, 50, 11, 1, 0,
    4, 10, 116, 101, 115, 116, 115, 121, 115, 116, 101, 109]
  size_eq := by decide

theorem encodes_goodbye : goodbyeTrap.Encodes IsShortestLength goodbyePacket.buf := by
  have hbind : EncodesVarbinds IsShortestLength goodbyeTrap.varbinds (goodbyePacket.buf.drop 44) :=
    ⟨_, _, ⟨_, _, isElement_shortest (by decide), isElement_shortest (by decide),
      isElement_shortest (by decide)⟩, rfl, rfl⟩
  have hfields : goodbyeTrap.EncodesFields IsShortestLength (goodbyePacket.buf.drop 15) := by
    refine ⟨_, _, _, _, _, _, _, isElement_shortest (by decide), isElement_shortest (by decide),
      isElement_shortest (by decide), isElement_shortest (by decide),
      isElement_shortest (by decide), hbind, isElement_shortest (by decide), rfl⟩
  exact ⟨_, _, hfields, isElement_shortest (by decide), _, _, isElement_shortest (by decide),
    isElement_shortest (by decide), isElement_shortest (by decide)⟩

theorem decode_goodbye :
    ∃ trap c, (goodbyePacket.decode .x64 0 default fun _ => 0x30).outcome = .ok trap c ∧
      trap.version.toNat = 0 ∧
      trap.community = some goodbyeTrap.community.text ∧
      trap.trapType = SNMP_V1TRAP ∧
      trap.trapOid = some (.ofComponents [1, 3, 6, 1, 4, 1, 15282, 10, 0, 9]) ∧
      trap.snmpSourceIP = 0x0A000001 ∧
      trap.ullSourceTime.toNat = 70000 ∧
      trap.requestID = 0 ∧ trap.error = 0 ∧ trap.errorIndex = 0 ∧
      trap.varArgs = goodbyeTrap.varbinds.map Varbind.toVar :=
  decode_v1Trap .x64 0 default (fun _ => 0x30) goodbyePacket goodbyeTrap encodes_goodbye

end TrapHandler
