import TrapHandler.AcceptedLayout

/-!
# Decoded values

Which members of a variable the decoder sets depends on the type of its value. Of the pointers, the
text is set for strings only, and the object identifier for object identifiers only.
-/

namespace TrapHandler

open ByteReader ByteReader.Reader CSnmpTrap

/-- The pointers of a variable are set as its type says, and the type is one of those known. -/
structure ValueStored (v : CSnmpTrapVar) : Prop where
  wcsVal : v.wcsVal.isSome = true ↔ v.iValueType = SNMP_TYPE_STR
  oidVal : v.oidVal.isSome = true ↔ v.iValueType = SNMP_TYPE_OID
  known : v.iValueType ∈ [SNMP_TYPE_BOOL, SNMP_TYPE_INT, SNMP_TYPE_TIME, SNMP_TYPE_STR,
    SNMP_TYPE_NULL, SNMP_TYPE_OID, SNMP_TYPE_IPADDR]

variable {mem : Memory} {c c' : Cursor} {v newVar : CSnmpTrapVar}

theorem valueStored_plain (hwcs : v.wcsVal = none) (hoid : v.oidVal = none)
    (htype : v.iValueType ∈ [SNMP_TYPE_BOOL, SNMP_TYPE_INT, SNMP_TYPE_TIME, SNMP_TYPE_NULL,
      SNMP_TYPE_IPADDR]) : ValueStored v := by
  have hnotStr : v.iValueType ≠ SNMP_TYPE_STR := by
    intro heq
    rw [heq] at htype
    exact absurd htype (by decide)
  have hnotOid : v.iValueType ≠ SNMP_TYPE_OID := by
    intro heq
    rw [heq] at htype
    exact absurd htype (by decide)
  refine ⟨?_, ?_, ?_⟩
  · rw [hwcs]
    exact iff_of_false Bool.false_ne_true hnotStr
  · rw [hoid]
    exact iff_of_false Bool.false_ne_true hnotOid
  · simp only [List.mem_cons, List.not_mem_nil, or_false] at htype ⊢
    tauto

theorem valueStored_str (hwcs : v.wcsVal.isSome = true) (hoid : v.oidVal = none)
    (htype : v.iValueType = SNMP_TYPE_STR) : ValueStored v := by
  refine ⟨iff_of_true hwcs htype, ?_, ?_⟩
  · rw [hoid, htype]
    decide
  · rw [htype]
    decide

theorem valueStored_oid (hwcs : v.wcsVal = none) (hoid : v.oidVal.isSome = true)
    (htype : v.iValueType = SNMP_TYPE_OID) : ValueStored v := by
  refine ⟨?_, iff_of_true hoid htype, ?_⟩
  · rw [hwcs, htype]
    decide
  · rw [htype]
    decide

theorem valueStored_decodeValue (hwcs : newVar.wcsVal = none) (hoid : newVar.oidVal = none)
    (hacc : Accepts (decodeValue newVar newVar.iValueType) mem c v c') : ValueStored v := by
  rw [decodeValue] at hacc
  split_ifs at hacc with hbool hint hstr hnull hoidType hip
  · obtain ⟨_, _, _, hacc⟩ := accepts_bind.mp hacc
    obtain ⟨_, _, _, hacc⟩ := accepts_bind.mp hacc
    obtain ⟨bVal, _, _, hacc⟩ := accepts_bind.mp hacc
    obtain ⟨rfl, _⟩ := accepts_pure.mp hacc
    refine valueStored_plain hwcs hoid ?_
    rw [beq_iff_eq.mp hbool]
    decide
  · obtain ⟨_, _, _, hacc⟩ := accepts_bind.mp hacc
    obtain ⟨fieldLen, _, _, hacc⟩ := accepts_bind.mp hacc
    have htype : newVar.iValueType ∈ [SNMP_TYPE_BOOL, SNMP_TYPE_INT, SNMP_TYPE_TIME,
        SNMP_TYPE_NULL, SNMP_TYPE_IPADDR] := by
      cases Bool.or_eq_true_iff.mp hint with
      | inl heq =>
        rw [beq_iff_eq.mp heq]
        decide
      | inr heq =>
        rw [beq_iff_eq.mp heq]
        decide
    split_ifs at hacc
    · obtain ⟨iVal, _, _, hacc⟩ := accepts_bind.mp hacc
      obtain ⟨rfl, _⟩ := accepts_pure.mp hacc
      exact valueStored_plain hwcs hoid htype
    · obtain ⟨ullVal, _, _, hacc⟩ := accepts_bind.mp hacc
      obtain ⟨rfl, _⟩ := accepts_pure.mp hacc
      exact valueStored_plain hwcs hoid htype
  · obtain ⟨_, _, _, hacc⟩ := accepts_bind.mp hacc
    obtain ⟨_, _, _, hacc⟩ := accepts_bind.mp hacc
    obtain ⟨wcsVal, _, _, hacc⟩ := accepts_bind.mp hacc
    obtain ⟨rfl, _⟩ := accepts_pure.mp hacc
    exact valueStored_str rfl hoid (beq_iff_eq.mp hstr)
  · obtain ⟨_, _, _, hacc⟩ := accepts_bind.mp hacc
    obtain ⟨_, _, _, hacc⟩ := accepts_bind.mp hacc
    obtain ⟨rfl, _⟩ := accepts_pure.mp hacc
    refine valueStored_plain hwcs hoid ?_
    rw [beq_iff_eq.mp hnull]
    decide
  · obtain ⟨_, _, _, hacc⟩ := accepts_bind.mp hacc
    obtain ⟨_, _, _, hacc⟩ := accepts_bind.mp hacc
    obtain ⟨oidVal, _, _, hacc⟩ := accepts_bind.mp hacc
    obtain ⟨rfl, _⟩ := accepts_pure.mp hacc
    exact valueStored_oid hwcs rfl (beq_iff_eq.mp hoidType)
  · obtain ⟨_, _, _, hacc⟩ := accepts_bind.mp hacc
    obtain ⟨_, _, _, hacc⟩ := accepts_bind.mp hacc
    obtain ⟨iVal, _, _, hacc⟩ := accepts_bind.mp hacc
    obtain ⟨rfl, _⟩ := accepts_pure.mp hacc
    refine valueStored_plain hwcs hoid ?_
    rw [beq_iff_eq.mp hip]
    decide
  · cases hacc

theorem valueStored_decodeVarbind (hacc : Accepts decodeVarbind mem c v c') : ValueStored v := by
  rw [decodeVarbind] at hacc
  obtain ⟨_, _, _, hacc⟩ := accepts_bind.mp hacc
  obtain ⟨_, _, _, hacc⟩ := accepts_bind.mp hacc
  obtain ⟨_, _, _, hacc⟩ := accepts_bind.mp hacc
  obtain ⟨oid, _, _, hacc⟩ := accepts_bind.mp hacc
  obtain ⟨b, _, _, hacc⟩ := accepts_bind.mp hacc
  have hwcs : ({ oid, iValueType := b } : CSnmpTrapVar).wcsVal = none := rfl
  exact valueStored_decodeValue hwcs rfl hacc

theorem valueStored_varbindLoop {packetLen : UInt32} {fuel : ℕ} {varArgs out : List CSnmpTrapVar}
    (hargs : ∀ v ∈ varArgs, ValueStored v)
    (hacc : Accepts (varbindLoop packetLen fuel varArgs) mem c out c') :
    ∀ v ∈ out, ValueStored v := by
  induction fuel generalizing c varArgs with
  | zero =>
    unfold varbindLoop at hacc
    obtain ⟨_, _, _, hacc⟩ := accepts_bind.mp hacc
    obtain ⟨_, _, _, hacc⟩ := accepts_bind.mp hacc
    split_ifs at hacc
    · cases hacc
    · obtain ⟨rfl, _⟩ := accepts_pure.mp hacc
      exact hargs
  | succ fuel ih =>
    unfold varbindLoop at hacc
    obtain ⟨_, _, _, hacc⟩ := accepts_bind.mp hacc
    obtain ⟨_, _, _, hacc⟩ := accepts_bind.mp hacc
    split_ifs at hacc
    · obtain ⟨_, _, _, hacc⟩ := accepts_bind.mp hacc
      obtain ⟨newVar, _, hvar, hacc⟩ := accepts_bind.mp hacc
      apply ih _ hacc
      intro v hv
      cases List.mem_append.mp hv with
      | inl hv => exact hargs v hv
      | inr hv =>
        obtain rfl := List.mem_singleton.mp hv
        exact valueStored_decodeVarbind hvar
    · obtain ⟨rfl, _⟩ := accepts_pure.mp hacc
      exact hargs

theorem valueStored_decode {platform : Platform} {uninit : UInt32} {raw trap : CSnmpTrap}
    {behind : Memory} {packet : SSnmpPacket}
    (h : (packet.decode platform uninit raw behind).outcome = .ok trap c) :
    ∀ v ∈ trap.varArgs, ValueStored v := by
  obtain ⟨_, _, t₁, q₁, _, _, _, _, hargs₁, hacc⟩ := spans_decodeHeader h
  obtain ⟨t₂, c₂, hfields, hacc⟩ := accepts_bind.mp hacc
  obtain ⟨_, rfl, _, _, _, _, _, hargs₂⟩ := spans_decodeFields hfields
  obtain ⟨varArgs, c₃, hloop, hacc⟩ := accepts_bind.mp hacc
  obtain ⟨rfl, _⟩ := accepts_pure.mp hacc
  have hargs : t₂.varArgs = [] := hargs₂.trans hargs₁
  apply valueStored_varbindLoop _ hloop
  rw [hargs]
  intro v hv
  cases hv

end TrapHandler
