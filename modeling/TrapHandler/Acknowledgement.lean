import TrapHandler.AcceptedLayout

/-!
# Acknowledging an inform request

`TrapHandler::processTraps` answers an accepted inform request with the datagram it has received, in
which `CTrapReceiver::SendAck` has overwritten the tag of the request. The place of the tag is what
the decoder has left in `pReqType`: it stands behind the community string, wherever that ends.
-/

namespace TrapHandler

open ByteReader ByteReader.Reader Ber CSnmpTrap

def SNMP_RESPONSE : UInt8 := 0xA2

/-- The arguments of `sendto`. -/
structure SendTo where
  sin_addr : UInt32
  sin_port : UInt16
  buf : List UInt8
  deriving DecidableEq, Repr

/-- The memory after the store through `reqTypePos`, and the datagram that is sent. -/
def sendAck (srcPacket : SSnmpPacket) (reqTypePos : ℕ) (mem : Memory) : Memory × SendTo :=
  let mem := Function.update mem reqTypePos SNMP_RESPONSE
  (mem, {
    sin_addr := srcPacket.srcAddr
    sin_port := srcPacket.srcPort
    buf := slice mem 0 srcPacket.packetSize.toNat })

/-- What `TrapHandler::processTraps` does with a packet up to the acknowledgement: nothing is
acknowledged that is not decoded. -/
def SSnmpPacket.acknowledge (packet : SSnmpPacket) (platform : Platform) (uninit : UInt32)
    (raw : CSnmpTrap) (behind : Memory) : Option (Memory × SendTo) :=
  let mem := memoryOf packet.buf behind
  match (packet.decode platform uninit raw behind).outcome with
  | .ok snmpTrap _ => do
    let pReqType ← snmpTrap.pReqType
    if mem pReqType == 0xA6 then
      some (sendAck packet pReqType mem)
    else
      none
  | _ => none

namespace Layout

def preamble (platform : Platform) (packetLen : UInt32) : Language UInt8 :=
  {bs | ∃ envLen envelope version community, envelope ∈ head SNMP_TYPE_SEQ envLen ∧
    (envLen.toNat : ℤ) = bytesLeft platform packetLen envelope.length ∧
    bs ∈ {envelope} * int version * str community}

end Layout

/-- An acknowledgement is sent for the decoded inform requests, and it is the received packet with
the tag of the request replaced inside the packet. -/
structure AcknowledgesInPlace (platform : Platform) (packet : SSnmpPacket) (uninit : UInt32)
    (raw : CSnmpTrap) (behind : Memory) : Prop where
  sent_iff : (∃ sent, packet.acknowledge platform uninit raw behind = some sent) ↔
    (∃ trap c, (packet.decode platform uninit raw behind).outcome = .ok trap c) ∧
      ∃ pre ∈ Layout.preamble platform packet.packetSize,
        HoldsAt (memoryOf packet.buf behind) 0 (pre ++ [0xA6])
  in_place : ∀ mem datagram,
    packet.acknowledge platform uninit raw behind = some (mem, datagram) →
    ∃ pre ∈ Layout.preamble platform packet.packetSize,
      pre ++ [0xA6] <+: packet.buf ∧ datagram.buf = packet.buf.set pre.length 0xA2 ∧
      ∀ i, packet.buf.length ≤ i → mem i = memoryOf packet.buf behind i

variable {α β : Type} {mem : Memory} {p q : ℕ} {b : β} {c : Cursor}

def RequestTag (b : UInt8) : Prop := b = SNMP_V1TRAP ∨ b = SNMP_V2INFORM ∨ b = SNMP_V2TRAP

theorem requestTag_inform : RequestTag SNMP_V2INFORM := .inr (.inl rfl)

theorem requestTag_iff {b : UInt8} :
    (b == SNMP_V1TRAP || b == SNMP_V2INFORM || b == SNMP_V2TRAP) = true ↔ RequestTag b := by
  simp [RequestTag, or_assoc]

theorem accepts_head_bind {tag : UInt8} {fieldLen : UInt32} {bs : List UInt8}
    {f : UInt32 → Reader β} (hbs : bs ∈ Layout.head tag fieldLen) (hmem : HoldsAt mem p bs) :
    Accepts (expectTag tag >>= fun _ => getFieldLength >>= f) mem (some p) b c ↔
      Accepts (f fieldLen) mem (some (p + bs.length)) b c := by
  obtain ⟨ls, hls, rfl⟩ := hbs
  obtain ⟨htag, hlen⟩ := holdsAt_cons.mp hmem
  have hacc : Accepts getFieldLength mem (some (p + 1)) fieldLen (some (p + 1 + ls.length)) :=
    accepts_getFieldLength.mpr ⟨ls, hls, hlen, rfl⟩
  have hend : p + (ls.length + 1) = p + 1 + ls.length := by omega
  rw [accepts_expectTag_bind, hacc.bind_iff, List.length_cons, hend]
  exact and_iff_right htag

theorem exists_accepts_getFieldLength (mem : Memory) (p : ℕ) :
    ∃ fieldLen q, Accepts getFieldLength mem (some p) fieldLen (some q) := by
  by_cases hb : (mem p).toNat < 128
  · exact ⟨_, _, accepts_getFieldLength.mpr ⟨[mem p], .short _ hb, by simp, rfl⟩⟩
  · refine ⟨_, _, accepts_getFieldLength.mpr
      ⟨mem p :: slice mem (p + 1) ((mem p).toNat % 128), .long _ _ hb (by simp), ?_, rfl⟩⟩
    exact holdsAt_cons.mpr ⟨rfl, holdsAt_slice mem _ _⟩

/-- The preamble of an accepted packet ends where `pReqType` points. -/
theorem spans_preamble {platform : Platform} {this : CSnmpTrap} {f : CSnmpTrap → Reader β}
    (hacc : Accepts (decodeHeader platform this >>= f) mem (some 0) b c) :
    ∃ pos t q, Spans mem 0 pos (Layout.preamble platform this.packetLen) ∧
      RequestTag (mem pos) ∧ t.pReqType = some pos ∧ Accepts (f t) mem (some q) b c := by
  obtain ⟨envLen, env, version, community, pos, q, henv, hlen, hspan, htag, _, hacc⟩ :=
    spans_toRequest hacc
  refine ⟨pos, _, q, ?_, htag, rfl, hacc⟩
  obtain ⟨envelope, henvelope, hmem, rfl⟩ := henv
  have henvelopeSpan : Spans mem 0 (0 + envelope.length) {envelope} := ⟨envelope, rfl, hmem, rfl⟩
  apply (henvelopeSpan.append hspan).mono
  intro bs hbs
  rw [Nat.zero_add] at hlen
  rw [← mul_assoc] at hbs
  exact ⟨envLen, envelope, _, _, henvelope, hlen, hbs⟩

theorem accepts_decodeHeader (platform : Platform) (this : CSnmpTrap) {pre : List UInt8}
    {fieldLen : UInt32} (hpre : pre ∈ Layout.preamble platform this.packetLen)
    (hmem : HoldsAt mem 0 pre) (htag : RequestTag (mem pre.length))
    (hlen : Accepts getFieldLength mem (some (pre.length + 1)) fieldLen c) :
    ∃ t, Accepts (decodeHeader platform this) mem (some 0) t c ∧ t.pReqType = some pre.length ∧
      t.trapType = mem pre.length ∧ t.packetLen = this.packetLen := by
  obtain ⟨envLen, _, version, community, henv, henvLen, _, ⟨envelope, rfl, _, hver, rfl⟩,
    _, hcomm, rfl⟩ := hpre
  obtain ⟨verLen, _, hverLen, ⟨hle, _⟩, verHead, hverHead, verContent, rfl, rfl⟩ := hver
  obtain ⟨commLen, _, hcommLen, _, commHead, hcommHead, commContent, rfl, rfl⟩ := hcomm
  simp only [List.append_assoc, holdsAt_append, List.length_append, Nat.zero_add,
    ← Nat.add_assoc] at hmem htag hlen ⊢
  obtain ⟨henvMem, hverMem, _, hcommMem, _⟩ := hmem
  have hshort : verLen ≤ 4 := by
    rw [UInt32.le_iff_toNat_le, ← hverLen]
    exact hle
  rw [hverLen, hcommLen] at htag hlen
  rw [hverLen] at hcommMem
  refine ⟨{ this with
    version := uint32Of (slice mem (envelope.length + verHead.length) verLen.toNat)
    community := some (wideOf (slice mem
      (envelope.length + verHead.length + verLen.toNat + commHead.length) commLen.toNat))
    pReqType := some (envelope.length + verHead.length + verLen.toNat + commHead.length +
      commLen.toNat)
    trapType := mem (envelope.length + verHead.length + verLen.toNat + commHead.length +
      commLen.toNat) }, ?_, ?_⟩
  · unfold decodeHeader
    apply (accepts_head_bind henv henvMem).mpr
    rw [Nat.zero_add, accepts_offset_bind, accepts_require_bind]
    refine ⟨decide_eq_true henvLen, ?_⟩
    rw [accepts_head_bind hverHead hverMem, accepts_require_bind]
    refine ⟨decide_eq_true hshort, ?_⟩
    rw [((accepts_parseInt hshort).mpr ⟨rfl, rfl⟩).bind_iff, accepts_head_bind hcommHead hcommMem,
      (accepts_parseStr.mpr ⟨rfl, rfl⟩).bind_iff, accepts_offset_bind, accepts_peek_bind,
      accepts_require_bind]
    refine ⟨?_, ?_⟩
    · exact requestTag_iff.mpr htag
    · rw [accepts_advance_bind, hlen.bind_iff, accepts_pure]
      exact ⟨rfl, rfl⟩
  · rw [hverLen, hcommLen]
    exact ⟨rfl, rfl, rfl⟩

theorem returns_decodeV2 (this : CSnmpTrap) :
    Returns (fun t => t.pReqType = this.pReqType) (decodeV2 this) := by
  unfold decodeV2
  repeat (with_reducible apply returns_bind; intro _)
  exact returns_pure rfl

theorem returns_decodeV1 (uninit : UInt32) (this : CSnmpTrap) :
    Returns (fun t => t.pReqType = this.pReqType) (decodeV1 uninit this) := by
  unfold decodeV1
  repeat (with_reducible apply returns_bind; intro _)
  exact returns_pure rfl

theorem returns_decodeFields (uninit : UInt32) (this : CSnmpTrap) :
    Returns (fun t => t.pReqType = this.pReqType) (decodeFields uninit this) := by
  unfold decodeFields
  split
  · exact returns_decodeV1 uninit this
  · exact returns_decodeV2 this

theorem pReqType_of_decode {platform : Platform} {uninit : UInt32} {this trap : CSnmpTrap}
    (hacc : Accepts (decode platform uninit this) mem (some 0) trap c) :
    ∃ pre ∈ Layout.preamble platform this.packetLen, HoldsAt mem 0 pre ∧
      RequestTag (mem pre.length) ∧ trap.pReqType = some pre.length := by
  obtain ⟨pos, t, q, ⟨pre, hpre, hmem, rfl⟩, htag, hpos, hacc⟩ := spans_preamble hacc
  obtain ⟨t', c', hfields, hacc⟩ := accepts_bind.mp hacc
  obtain ⟨varArgs, c'', _, hacc⟩ := accepts_bind.mp hacc
  obtain ⟨rfl, rfl⟩ := accepts_pure.mp hacc
  have hkeep := returns_decodeFields uninit t mem (some q) t' c' hfields
  rw [Nat.zero_add] at htag hpos
  exact ⟨pre, hpre, hmem, htag, hkeep.trans hpos⟩

/-- The fields of a request in which every element is empty. -/
def emptyFields : List UInt8 :=
  [2, 0] ++ ([2, 0] ++ ([2, 0] ++ ([48, 0] ++ ([48, 0] ++ ([6, 0] ++ ([67, 0] ++ ([48, 0] ++
    ([6, 0] ++ ([6, 0] ++ [0])))))))))

theorem emptyHead (tag : UInt8) : [tag, 0] ∈ Layout.head tag 0 :=
  ⟨[0], .short 0 (by decide), rfl⟩

theorem decodeV2_emptyFields (this : CSnmpTrap) (hmem : HoldsAt mem p emptyFields) :
    ∃ t q, Accepts (decodeV2 this) mem (some p) t (some q) ∧ mem q = 0 := by
  simp only [emptyFields, holdsAt_append] at hmem
  obtain ⟨h₁, h₂, h₃, h₄, h₅, h₆, h₇, h₈, h₉, h₁₀, h₁₁⟩ := hmem
  have hint : ∀ (v : UInt32) (p : ℕ), Accepts (parseInt v 0) mem (some p) 0 (some p) :=
    fun v p => (accepts_parseInt (by decide)).mpr ⟨rfl, rfl⟩
  have hoid : ∀ p : ℕ, Accepts (parseOid {} 0) mem (some p) ⟨some [], none⟩ (some p) :=
    fun p => accepts_parseOid.mpr ⟨rfl, rfl⟩
  have htime : ∀ (v : UInt64) (p : ℕ), Accepts (parseTime v 0) mem (some p) 0 (some p) :=
    fun v p => (hint 0 p).bind (accepts_pure.mpr ⟨rfl, rfl⟩)
  refine ⟨{ this with
    requestID := 0
    error := 0
    errorIndex := 0
    ullSourceTime := 0
    trapOid := some { oids := some [] } }, _, ?_, (holdsAt_cons.mp h₁₁).1⟩
  unfold decodeV2
  apply (accepts_head_bind (emptyHead 2) h₁).mpr
  apply (hint _ _).bind
  apply (accepts_head_bind (emptyHead 2) h₂).mpr
  apply (hint _ _).bind
  apply (accepts_head_bind (emptyHead 2) h₃).mpr
  apply (hint _ _).bind
  apply (accepts_head_bind (emptyHead 48) h₄).mpr
  apply (accepts_head_bind (emptyHead 48) h₅).mpr
  apply (accepts_head_bind (emptyHead 6) h₆).mpr
  apply (hoid _).bind
  apply (accepts_head_bind (emptyHead 67) h₇).mpr
  apply (htime _ _).bind
  apply (accepts_head_bind (emptyHead 48) h₈).mpr
  apply (accepts_head_bind (emptyHead 6) h₉).mpr
  apply (hoid _).bind
  apply (accepts_head_bind (emptyHead 6) h₁₀).mpr
  apply (hoid _).bind
  exact accepts_pure.mpr ⟨rfl, rfl⟩

theorem accepts_varbindLoop_stop (packetLen : UInt32) (fuel : ℕ) (varArgs : List CSnmpTrapVar)
    (h : mem p ≠ SNMP_TYPE_SEQ) :
    Accepts (varbindLoop packetLen fuel varArgs) mem (some p) varArgs (some p) := by
  have htest : ¬ (mem p == SNMP_TYPE_SEQ && p < packetLen.toNat) = true := by
    rw [Bool.and_eq_true, beq_iff_eq]
    exact fun h' => h h'.1
  unfold varbindLoop
  rw [accepts_peek_bind, accepts_offset_bind, if_neg htest]
  exact accepts_pure.mpr ⟨rfl, rfl⟩

theorem decode_emptyFields (platform : Platform) (uninit : UInt32) (this : CSnmpTrap)
    {pre : List UInt8} (hpre : pre ∈ Layout.preamble platform this.packetLen)
    (hmem : HoldsAt mem 0 (pre ++ ([SNMP_V2INFORM, 0] ++ emptyFields))) :
    ∃ trap c, Accepts (decode platform uninit this) mem (some 0) trap c := by
  obtain ⟨hpreMem, hrest⟩ := holdsAt_append.mp hmem
  obtain ⟨hhead, hfieldsMem⟩ := holdsAt_append.mp hrest
  obtain ⟨htag, hlenMem⟩ := holdsAt_cons.mp hhead
  rw [Nat.zero_add] at htag hlenMem hfieldsMem
  have hlen : Accepts getFieldLength mem (some (pre.length + 1)) 0 (some (pre.length + 1 + 1)) :=
    accepts_getFieldLength.mpr ⟨[0], .short 0 (by decide), hlenMem, rfl⟩
  obtain ⟨t, hheader, _, htype, _⟩ := accepts_decodeHeader platform this hpre hpreMem
    (by rw [htag]; exact requestTag_inform) hlen
  obtain ⟨t', q, hfields, hstop⟩ := decodeV2_emptyFields t hfieldsMem
  have hv2 : decodeFields uninit t = decodeV2 t := by
    rw [decodeFields, htype, htag, if_neg (by decide)]
  rw [← hv2] at hfields
  have hstopped : mem q ≠ SNMP_TYPE_SEQ := by
    rw [hstop]
    decide
  have hloop := accepts_varbindLoop_stop t'.packetLen t'.packetLen.toNat t'.varArgs hstopped
  exact ⟨_, _, decode_accepts hheader hfields hloop⟩

theorem length_preamble {platform : Platform} {packetLen : UInt32} {pre pre' : List UInt8}
    (hpre : pre ∈ Layout.preamble platform packetLen)
    (hpre' : pre' ∈ Layout.preamble platform packetLen) (hmem : HoldsAt mem 0 pre)
    (hmem' : HoldsAt mem 0 pre') (htag : RequestTag (mem pre.length))
    (htag' : RequestTag (mem pre'.length)) : pre.length = pre'.length := by
  obtain ⟨_, _, hlen⟩ := exists_accepts_getFieldLength mem (pre.length + 1)
  obtain ⟨_, _, hlen'⟩ := exists_accepts_getFieldLength mem (pre'.length + 1)
  let this : CSnmpTrap := { (default : CSnmpTrap) with packetLen }
  obtain ⟨t, ht, hpos, _⟩ := accepts_decodeHeader platform this hpre hmem htag hlen
  obtain ⟨t', ht', hpos', _⟩ := accepts_decodeHeader platform this hpre' hmem' htag' hlen'
  obtain ⟨rfl, _⟩ := ht.unique ht'
  exact Option.some.inj (hpos.symm.trans hpos')

section Acknowledge

variable {platform : Platform} {packet : SSnmpPacket} {uninit : UInt32} {raw : CSnmpTrap}
  {behind : Memory} {trap : CSnmpTrap}

theorem acknowledge_of_ok {pos : ℕ}
    (h : (packet.decode platform uninit raw behind).outcome = .ok trap c)
    (hpos : trap.pReqType = some pos) :
    packet.acknowledge platform uninit raw behind =
      if memoryOf packet.buf behind pos == 0xA6 then
        some (sendAck packet pos (memoryOf packet.buf behind))
      else none := by
  simp only [SSnmpPacket.acknowledge, h, hpos, Option.bind_eq_bind, Option.bind_some]

theorem exists_ok_of_acknowledge {sent : Memory × SendTo}
    (h : packet.acknowledge platform uninit raw behind = some sent) :
    ∃ trap c, (packet.decode platform uninit raw behind).outcome = .ok trap c := by
  unfold SSnmpPacket.acknowledge at h
  split at h
  · exact ⟨_, _, ‹_›⟩
  · cases h

theorem acknowledge_eq_some_iff {sent : Memory × SendTo} :
    packet.acknowledge platform uninit raw behind = some sent ↔
      (∃ trap c, (packet.decode platform uninit raw behind).outcome = .ok trap c) ∧
        ∃ pre ∈ Layout.preamble platform packet.packetSize,
          HoldsAt (memoryOf packet.buf behind) 0 (pre ++ [0xA6]) ∧
          sent = sendAck packet pre.length (memoryOf packet.buf behind) := by
  constructor
  · intro h
    obtain ⟨trap, c, hok⟩ := exists_ok_of_acknowledge h
    obtain ⟨pre, hpre, hmem, _, hpos⟩ := pReqType_of_decode hok
    rw [acknowledge_of_ok hok hpos] at h
    split_ifs at h with htag
    refine ⟨⟨trap, c, hok⟩, pre, hpre, ?_, (Option.some.inj h).symm⟩
    rw [holdsAt_append, Nat.zero_add, holdsAt_cons]
    exact ⟨hmem, beq_iff_eq.mp htag, holdsAt_nil _ _⟩
  · rintro ⟨⟨trap, c, hok⟩, pre, hpre, hmem, rfl⟩
    obtain ⟨hmem, htag, _⟩ := by
      rwa [holdsAt_append, Nat.zero_add, holdsAt_cons] at hmem
    obtain ⟨pre', hpre', hmem', htag', hpos⟩ := pReqType_of_decode hok
    have hlen : pre.length = pre'.length :=
      length_preamble hpre hpre' hmem hmem' (by rw [htag]; exact requestTag_inform) htag'
    rw [← hlen] at hpos
    rw [acknowledge_of_ok hok hpos, if_pos (beq_iff_eq.mpr htag)]

theorem sendAck_buf (pos : ℕ) :
    (sendAck packet pos (memoryOf packet.buf behind)).2.buf = packet.buf.set pos 0xA2 := by
  have hbuf : slice (memoryOf packet.buf behind) 0 packet.buf.length = packet.buf :=
    holdsAt_memoryOf packet.buf behind
  have hset := slice_update (memoryOf packet.buf behind) 0 pos packet.buf.length SNMP_RESPONSE
  rw [Nat.zero_add, hbuf] at hset
  simp only [sendAck, packet.size_eq]
  exact hset

theorem exists_acknowledge_iff :
    (∃ sent, packet.acknowledge platform uninit raw behind = some sent) ↔
      (∃ trap c, (packet.decode platform uninit raw behind).outcome = .ok trap c) ∧
        ∃ pre ∈ Layout.preamble platform packet.packetSize,
          HoldsAt (memoryOf packet.buf behind) 0 (pre ++ [0xA6]) := by
  constructor
  · rintro ⟨sent, hsent⟩
    obtain ⟨hok, pre, hpre, hmem, _⟩ := acknowledge_eq_some_iff.mp hsent
    exact ⟨hok, pre, hpre, hmem⟩
  · rintro ⟨hok, pre, hpre, hmem⟩
    exact ⟨_, acknowledge_eq_some_iff.mpr ⟨hok, pre, hpre, hmem, rfl⟩⟩

theorem acknowledgesInPlace_of_inside
    (h : ∀ pre ∈ Layout.preamble platform packet.packetSize,
      HoldsAt (memoryOf packet.buf behind) 0 pre → pre.length < packet.buf.length) :
    AcknowledgesInPlace platform packet uninit raw behind := by
  refine ⟨exists_acknowledge_iff, ?_⟩
  intro mem sent hsent
  obtain ⟨_, pre, hpre, hmem, heq⟩ := acknowledge_eq_some_iff.mp hsent
  obtain ⟨rfl, rfl⟩ := Prod.mk.inj heq
  have hlen := h pre hpre (holdsAt_append.mp hmem).1
  refine ⟨pre, hpre, ?_, sendAck_buf pre.length, ?_⟩
  · apply prefix_of_holdsAt_memoryOf hmem
    rw [List.length_append, List.length_singleton]
    exact hlen
  · intro i hi
    exact Function.update_of_ne (by omega) _ _

end Acknowledge

/-- Whatever lies behind the buffer, the acknowledgement stays inside the packet exactly if the
packet is no initial part of a preamble. -/
theorem acknowledges_in_place_iff (platform : Platform) (packet : SSnmpPacket) :
    (∀ uninit raw behind, AcknowledgesInPlace platform packet uninit raw behind) ↔
      ¬ ∃ pre ∈ Layout.preamble platform packet.packetSize, packet.buf <+: pre := by
  constructor
  · rintro h ⟨pre, hpre, hbuf⟩
    let request := pre ++ ([SNMP_V2INFORM, 0] ++ emptyFields)
    have hcontract := h 0 default (memoryOf request fun _ => 0)
    have hmemory : memoryOf packet.buf (memoryOf request fun _ => 0) = memoryOf request fun _ => 0 :=
      memoryOf_memoryOf (hbuf.trans (List.prefix_append _ _)) _
    have hmem : HoldsAt (memoryOf packet.buf (memoryOf request fun _ => 0)) 0 request := by
      rw [hmemory]
      exact holdsAt_memoryOf request _
    obtain ⟨hpreMem, hrest⟩ := holdsAt_append.mp hmem
    obtain ⟨htag, _⟩ := holdsAt_cons.mp hrest
    have hok := decode_emptyFields platform 0 (CSnmpTrap.ofPacket packet default) hpre hmem
    obtain ⟨sent, hsent⟩ := hcontract.sent_iff.mpr ⟨hok, pre, hpre, holdsAt_append.mpr
      ⟨hpreMem, holdsAt_cons.mpr ⟨htag, holdsAt_nil _ _⟩⟩⟩
    obtain ⟨pre', hpre', ⟨rest, hinside⟩, _⟩ := hcontract.in_place sent.1 sent.2 hsent
    have hmem' : HoldsAt (memoryOf packet.buf (memoryOf request fun _ => 0)) 0
        (pre' ++ [0xA6] ++ rest) := by
      rw [hinside]
      exact holdsAt_memoryOf packet.buf _
    obtain ⟨hpreMem', htag'⟩ := holdsAt_append.mp (holdsAt_append.mp hmem').1
    rw [holdsAt_cons, Nat.zero_add] at htag'
    rw [Nat.zero_add] at htag
    have hlen : pre.length = pre'.length :=
      length_preamble hpre hpre' hpreMem hpreMem' (by rw [htag]; exact requestTag_inform)
        (by rw [htag'.1]; exact requestTag_inform)
    have hbufLen := hbuf.length_le
    have hinsideLen := congrArg List.length hinside
    simp only [List.length_append, List.length_singleton] at hinsideLen
    omega
  · intro h uninit raw behind
    apply acknowledgesInPlace_of_inside
    intro pre hpre hmem
    by_contra hlen
    exact h ⟨pre, hpre, (holdsAt_memoryOf packet.buf behind).initial hmem (Nat.not_lt.mp hlen)⟩

/-- A packet that ends with its community string. The inform request lies in the memory behind it. -/
def bareHeaderPacket : SSnmpPacket where
  srcAddr := 0x0100007F
  srcPort := 123
  ftRecvTime := 0
  packetSize := 13
  buf := [48, 11, 2, 1, 1, 4, 6, 112, 117, 98, 108, 105, 99]
  size_eq := by decide

def bareHeaderBehind : Memory := fun i =>
  (([SNMP_V2INFORM, 0] ++ emptyFields)[i - bareHeaderPacket.buf.length]?).getD 0

/-- It is accepted and acknowledged, although no byte of it is the tag of an inform request. -/
theorem bareHeader_not_in_place :
    ¬ AcknowledgesInPlace .x64 bareHeaderPacket 0 default bareHeaderBehind := by
  intro h
  have hsent : (bareHeaderPacket.acknowledge .x64 0 default bareHeaderBehind).isSome = true := by
    decide +kernel
  obtain ⟨sent, hsent⟩ := Option.isSome_iff_exists.mp hsent
  obtain ⟨pre, _, hinside, _⟩ := h.in_place sent.1 sent.2 hsent
  have htag : (0xA6 : UInt8) ∈ bareHeaderPacket.buf := hinside.subset (by simp)
  exact absurd htag (by decide)

end TrapHandler
