import TrapHandler.Loops
import TrapHandler.ReaderProgress
import TrapHandler.SnmpTrap

/-!
# The end of the varbind loop

Every part of a binding moves the cursor, whatever its length field says, and a value of no octets
still has its two octets of tag and length. So each pass of the varbind loop that goes on advances by
six bytes at least, unless an integer parser has returned the null pointer.
-/

namespace TrapHandler

open ByteReader ByteReader.Reader CSnmpTrap StateTransition Loops

theorem advances_expectTag (tag : UInt8) : Advances 1 (expectTag tag) :=
  advances_peek.bind fun b => (advances_require (b == tag)).bind fun _ => advances_advance

theorem advances_getFieldLength : Advances 1 getFieldLength := by
  apply advances_next.bind (k := 0)
  intro b
  split_ifs
  · exact advances_pure _
  · exact advances_foldBytes shiftOctet _ 0

theorem advances_parseIP (fieldLen : UInt32) : Advances 0 (parseIP fieldLen) :=
  advances_foldBytes shiftOctet _ 0

theorem advances_parseInt (val fieldLen : UInt32) : Advances 0 (parseInt val fieldLen) := by
  rw [parseInt]
  split_ifs
  · exact (advances_null (k := 0)).bind_zero fun _ => advances_pure val
  · exact advances_foldBytes shiftOctet _ 0

theorem advances_parseBigInt (val : UInt64) (fieldLen : UInt32) :
    Advances 0 (parseBigInt val fieldLen) := by
  rw [parseBigInt]
  split_ifs
  · exact (advances_null (k := 0)).bind_zero fun _ => advances_pure val
  · exact advances_foldBytes shiftOctet64 _ 0

theorem advances_parseTime (val : UInt64) (fieldLen : UInt32) :
    Advances 0 (parseTime val fieldLen) := by
  rw [parseTime]
  split_ifs
  · exact (advances_parseInt 0 fieldLen).bind_zero fun tmpTime => advances_pure tmpTime.toUInt64
  · exact advances_parseBigInt val fieldLen

theorem advances_parseSubIdentifier (left : ℕ) (tmpVal : UInt32) :
    Advances 0 (parseSubIdentifier left tmpVal) := by
  induction left generalizing tmpVal with
  | zero => exact advances_pure (0, tmpVal)
  | succ left ih =>
    apply advances_next.bind_zero
    intro b
    split_ifs
    · exact advances_pure (left, shiftSeptet tmpVal b)
    · exact ih (shiftSeptet tmpVal b)

theorem returns_parseSubIdentifier (left : ℕ) (tmpVal : UInt32) :
    Returns (fun out => out.1 ≤ left - 1) (parseSubIdentifier left tmpVal) := by
  induction left generalizing tmpVal with
  | zero => exact returns_pure le_rfl
  | succ left ih =>
    apply returns_bind
    intro b
    split_ifs
    · exact returns_pure le_rfl
    · intro mem c out c' hacc
      exact (ih _ mem c out c' hacc).trans (Nat.sub_le left 1)

theorem advances_parseOidLoop (size : ℕ) {fuel left : ℕ} (h : left ≤ fuel) (oids : List UInt32) :
    Advances 0 (parseOidLoop size fuel left oids) := by
  induction fuel generalizing left oids with
  | zero =>
    obtain rfl := Nat.le_zero.mp h
    exact advances_pure oids
  | succ fuel ih =>
    cases left with
    | zero => exact advances_pure oids
    | succ left =>
      rw [parseOidLoop]
      apply (advances_parseSubIdentifier (left + 1) 0).bind_of_returns (k := 0)
        (returns_parseSubIdentifier (left + 1) 0)
      rintro ⟨rest, tmpVal⟩ hrest
      have hfuel : rest ≤ fuel := hrest.trans (Nat.le_of_succ_le_succ h)
      dsimp only
      split_ifs
      · exact (advances_store 0 size).bind_zero fun _ => (advances_store 1 size).bind_zero fun _ =>
          ih hfuel [1, 3]
      · exact (advances_store oids.length size).bind_zero fun _ => ih hfuel (oids ++ [tmpVal])

theorem advances_parseOid (val : CSnmpOid) (fieldLen : UInt32) :
    Advances 0 (parseOid val fieldLen) :=
  (advances_allocate _).bind_zero fun _ =>
    (advances_parseOidLoop _ le_rfl []).bind_zero fun _ => advances_pure _

theorem advances_parseBool : Advances 2 parseBool :=
  advances_advance.bind fun _ => advances_next.bind fun b => advances_pure (b != 0)

theorem advances_parseStr (fieldLen : UInt32) : Advances 0 (parseStr fieldLen) := by
  have loop : ∀ size left str, Advances 0 (parseStrLoop size left str) := by
    intro size left
    induction left with
    | zero =>
      intro str
      exact (advances_store str.length size).bind fun _ => advances_pure str
    | succ left ih =>
      intro str
      exact advances_next.bind_zero fun b => (advances_store str.length size).bind_zero fun _ =>
        ih (str ++ [charToWChar b])
  exact (advances_allocate _).bind_zero fun _ => loop _ _ []

theorem advances_length {β : Type} {f : UInt32 → Reader β}
    (hf : ∀ fieldLen, Advances 0 (f fieldLen)) :
    Advances 2 (advance >>= fun _ => getFieldLength >>= f) :=
  advances_advance.bind fun _ => advances_getFieldLength.bind hf

theorem advances_decodeValue (newVar : CSnmpTrapVar) (b : UInt8) :
    Advances 2 (decodeValue newVar b) := by
  rw [decodeValue]
  split_ifs
  · exact advances_length fun _ => advances_parseBool.bind_zero fun _ => advances_pure _
  · apply advances_length
    intro fieldLen
    split_ifs
    · exact (advances_parseInt _ fieldLen).bind fun _ => advances_pure _
    · exact (advances_parseBigInt _ fieldLen).bind fun _ => advances_pure _
  · exact advances_length fun fieldLen => (advances_parseStr fieldLen).bind fun _ =>
      advances_pure _
  · exact advances_advance.bind fun _ => advances_advance.bind fun _ => advances_pure _
  · exact advances_length fun fieldLen => (advances_parseOid {} fieldLen).bind fun _ =>
      advances_pure _
  · exact advances_length fun fieldLen => (advances_parseIP fieldLen).bind fun _ =>
      advances_pure _
  · exact advances_reject

theorem advances_decodeVarbind : Advances 5 decodeVarbind :=
  advances_getFieldLength.bind fun _ => (advances_expectTag SNMP_TYPE_OID).bind fun _ =>
    advances_getFieldLength.bind fun fieldLen => (advances_parseOid {} fieldLen).bind fun _ =>
      advances_peek.bind fun b => advances_decodeValue _ b

/-- A pass of the varbind loop from a cursor and the bindings stored: where it goes on, or how the
loop is left, which it is behind the last binding, by a return, and at the null pointer. -/
def varbindPass (mem : Memory) (packetLen : UInt32) :
    Cursor × List CSnmpTrapVar → (Cursor × List CSnmpTrapVar) ⊕ Outcome (List CSnmpTrapVar)
  | (none, _) => .inr .fault
  | (some p, varArgs) =>
    if mem p == SNMP_TYPE_SEQ && p < packetLen.toNat then
      match (decodeVarbind mem (some (p + 1))).outcome with
      | .ok newVar c => .inl (c, varArgs ++ [newVar])
      | .reject => .inr .reject
      | .fault => .inr .fault
      | .timeout => .inr .timeout
    else .inr (.ok varArgs (some p))

def varbindStep (mem : Memory) (packetLen : UInt32) (s : Cursor × List CSnmpTrapVar) :
    Option (Cursor × List CSnmpTrapVar) :=
  (varbindPass mem packetLen s).getLeft?

variable {mem : Memory} {packetLen : UInt32} {fuel : ℕ} {s t : Cursor × List CSnmpTrapVar}

theorem varbindStep_eq_some (h : varbindStep mem packetLen s = some t) :
    ∃ p newVar, s.1 = some p ∧ p < packetLen.toNat ∧
      Accepts decodeVarbind mem (some (p + 1)) newVar t.1 ∧ t.2 = s.2 ++ [newVar] := by
  have hpass := Sum.getLeft?_eq_some_iff.mp h
  obtain ⟨c, varArgs⟩ := s
  cases c with
  | none => cases hpass
  | some p =>
    rw [varbindPass] at hpass
    split_ifs at hpass with hcond
    have hp : p < packetLen.toNat := of_decide_eq_true (Bool.and_eq_true _ _ ▸ hcond).2
    cases hrun : (decodeVarbind mem (some (p + 1))).outcome with
    | ok newVar c =>
      rw [hrun] at hpass
      obtain rfl := Sum.inl.inj hpass
      exact ⟨p, newVar, rfl, hp, hrun, rfl⟩
    | reject =>
      rw [hrun] at hpass
      cases hpass
    | fault =>
      rw [hrun] at hpass
      cases hpass
    | timeout =>
      rw [hrun] at hpass
      cases hpass

theorem moves_of_varbindStep (h : varbindStep mem packetLen s = some t) {q : ℕ}
    (hq : t.1 = some q) : ∃ p, s.1 = some p ∧ p + 6 ≤ q := by
  obtain ⟨p, newVar, hp, -, hacc, -⟩ := varbindStep_eq_some h
  rw [hq] at hacc
  obtain ⟨p', hp', hle⟩ := advances_decodeVarbind.moves hacc
  obtain rfl := Option.some.inj hp'
  exact ⟨p, hp, by omega⟩

/-- Six bytes of the memory have been passed for each binding that is stored. -/
structure Stored (packetLen : UInt32) (s : Cursor × List CSnmpTrapVar) : Prop where
  passed : ∀ p, s.1 = some p → 6 * s.2.length ≤ p
  bounded : s.2.length ≤ packetLen.toNat / 6 + 1

theorem Stored.step (h : Stored packetLen s) (hstep : varbindStep mem packetLen s = some t) :
    Stored packetLen t := by
  obtain ⟨p, newVar, hp, hlt, -, ht⟩ := varbindStep_eq_some hstep
  have hpassed := h.passed p hp
  have hlen : t.2.length = s.2.length + 1 := by
    rw [ht, List.length_append, List.length_singleton]
  constructor
  · intro q hq
    obtain ⟨p', hp', hle⟩ := moves_of_varbindStep hstep hq
    obtain rfl := Option.some.inj (hp.symm.trans hp')
    omega
  · omega

theorem outcome_varbindLoop_end {p : ℕ} (varArgs : List CSnmpTrapVar)
    (h : ¬ (mem p == SNMP_TYPE_SEQ && p < packetLen.toNat) = true) :
    (varbindLoop packetLen fuel varArgs mem (some p)).outcome = .ok varArgs (some p) := by
  rw [varbindLoop.eq_def, (peek_accepts mem p).outcome_bind, (offset_accepts mem p).outcome_bind,
    if_neg h]
  rfl

theorem outcome_varbindLoop_pass {p : ℕ} (varArgs : List CSnmpTrapVar)
    (h : (mem p == SNMP_TYPE_SEQ && p < packetLen.toNat) = true) :
    (varbindLoop packetLen (fuel + 1) varArgs mem (some p)).outcome =
      ((decodeVarbind >>= fun newVar => varbindLoop packetLen fuel (varArgs ++ [newVar])) mem
        (some (p + 1))).outcome := by
  rw [varbindLoop.eq_def, (peek_accepts mem p).outcome_bind, (offset_accepts mem p).outcome_bind,
    if_pos h]
  exact (advance_accepts mem p).outcome_bind

theorem varbindPass_of_le (h : ∀ p, s.1 = some p → packetLen.toNat ≤ p) :
    varbindPass mem packetLen s = .inr (varbindLoop packetLen 0 s.2 mem s.1).outcome := by
  obtain ⟨c, varArgs⟩ := s
  cases c with
  | none => rfl
  | some p =>
    have hend : ¬ (mem p == SNMP_TYPE_SEQ && p < packetLen.toNat) = true := by
      rw [Bool.and_eq_true, decide_eq_true_eq, not_and, not_lt]
      exact fun _ => h p rfl
    rw [varbindPass, if_neg hend]
    exact congrArg Sum.inr (outcome_varbindLoop_end varArgs hend).symm

theorem outcome_varbindLoop_succ (s : Cursor × List CSnmpTrapVar) :
    (varbindLoop packetLen (fuel + 1) s.2 mem s.1).outcome =
      match varbindPass mem packetLen s with
      | .inl t => (varbindLoop packetLen fuel t.2 mem t.1).outcome
      | .inr outcome => outcome := by
  obtain ⟨c, varArgs⟩ := s
  cases c with
  | none => rfl
  | some p =>
    rw [varbindPass]
    split_ifs with hcond
    · refine (outcome_varbindLoop_pass varArgs hcond).trans ?_
      rw [outcome_bind]
      cases (decodeVarbind mem (some (p + 1))).outcome with
      | ok newVar c => rfl
      | reject => rfl
      | fault => rfl
      | timeout => rfl
    · exact outcome_varbindLoop_end varArgs hcond

theorem exists_varbindPass (hfuel : ∀ p, s.1 = some p → packetLen.toNat ≤ p + fuel) :
    ∃ t ∈ eval (varbindStep mem packetLen) s,
      varbindPass mem packetLen t = .inr (varbindLoop packetLen fuel s.2 mem s.1).outcome := by
  induction fuel generalizing s with
  | zero =>
    have hpass : varbindPass mem packetLen s = _ := varbindPass_of_le hfuel
    have hexit : varbindStep mem packetLen s = none := by
      rw [varbindStep, hpass]
      rfl
    exact ⟨s, mem_eval.mpr ⟨Relation.ReflTransGen.refl, hexit⟩, hpass⟩
  | succ fuel ih =>
    rw [outcome_varbindLoop_succ]
    cases hpass : varbindPass mem packetLen s with
    | inl t =>
      have hstep : varbindStep mem packetLen s = some t := Sum.getLeft?_eq_some_iff.mpr hpass
      have hnext : ∀ q, t.1 = some q → packetLen.toNat ≤ q + fuel := by
        intro q hq
        obtain ⟨p, hp, hle⟩ := moves_of_varbindStep hstep hq
        have hleft := hfuel p hp
        omega
      obtain ⟨u, hu, hlast⟩ := ih hnext
      obtain ⟨hreach, hexit⟩ := mem_eval.mp hu
      exact ⟨u, mem_eval.mpr ⟨reaches_head hstep hreach, hexit⟩, hlast⟩
    | inr outcome =>
      have hexit : varbindStep mem packetLen s = none := by
        rw [varbindStep, hpass]
        rfl
      exact ⟨s, mem_eval.mpr ⟨Relation.ReflTransGen.refl, hexit⟩, hpass⟩

theorem varbindPass_ne_timeout (s : Cursor × List CSnmpTrapVar) :
    varbindPass mem packetLen s ≠ .inr .timeout := by
  obtain ⟨c, varArgs⟩ := s
  cases c with
  | none =>
    intro h
    cases h
  | some p =>
    rw [varbindPass]
    split_ifs
    · cases hrun : (decodeVarbind mem (some (p + 1))).outcome with
      | ok newVar c => exact Sum.inl_ne_inr
      | reject =>
        intro h
        cases h
      | fault =>
        intro h
        cases h
      | timeout => exact absurd hrun (advances_decodeVarbind.ends mem _)
    · intro h
      cases h

theorem exists_varbindPass_start (mem : Memory) (packetLen : UInt32) (c : Cursor)
    (varArgs : List CSnmpTrapVar) :
    ∃ t ∈ eval (varbindStep mem packetLen) (c, varArgs), varbindPass mem packetLen t =
      .inr (varbindLoop packetLen packetLen.toNat varArgs mem c).outcome := by
  apply exists_varbindPass (s := (c, varArgs))
  intro p _
  exact Nat.le_add_left _ p

theorem ends_varbindLoop (packetLen : UInt32) (varArgs : List CSnmpTrapVar) :
    Ends (varbindLoop packetLen packetLen.toNat varArgs) := by
  intro mem c htimeout
  obtain ⟨t, -, hlast⟩ := exists_varbindPass_start mem packetLen c varArgs
  rw [htimeout] at hlast
  exact varbindPass_ne_timeout t hlast

theorem advances_field {β : Type} (tag : UInt8) {f : UInt32 → Reader β}
    (hf : ∀ fieldLen, Advances 0 (f fieldLen)) :
    Advances 0 (expectTag tag >>= fun _ => getFieldLength >>= f) :=
  (advances_expectTag tag).bind_zero fun _ => advances_getFieldLength.bind_zero hf

theorem advances_decodeHeader (platform : Platform) (this : CSnmpTrap) :
    Advances 0 (decodeHeader platform this) := by
  refine advances_field _ fun _ => ?_
  refine advances_offset.bind_zero fun _ => ?_
  refine (advances_require _).bind_zero fun _ => ?_
  refine advances_field _ fun fieldLen => (advances_require _).bind_zero fun _ => ?_
  refine (advances_parseInt _ fieldLen).bind_zero fun _ => ?_
  refine advances_field _ fun fieldLen => (advances_parseStr fieldLen).bind_zero fun _ => ?_
  refine advances_offset.bind_zero fun _ => ?_
  refine advances_peek.bind_zero fun _ => ?_
  refine (advances_require _).bind_zero fun _ => ?_
  refine advances_advance.bind_zero fun _ => ?_
  exact advances_getFieldLength.bind_zero fun _ => advances_pure _

theorem advances_decodeV1 (uninit : UInt32) (this : CSnmpTrap) :
    Advances 0 (decodeV1 uninit this) := by
  refine advances_field _ fun fieldLen => (advances_parseOid _ fieldLen).bind_zero fun _ => ?_
  refine (advances_expectTag _).bind_zero fun _ => ?_
  refine advances_peek.bind_zero fun _ => ?_
  refine (advances_require _).bind_zero fun _ => ?_
  refine advances_getFieldLength.bind_zero fun fieldLen => ?_
  refine (advances_parseIP fieldLen).bind_zero fun _ => ?_
  refine (advances_expectTag _).bind_zero fun _ => ?_
  refine advances_peek.bind_zero fun _ => ?_
  refine (advances_require _).bind_zero fun _ => ?_
  refine advances_getFieldLength.bind_zero fun fieldLen => ?_
  refine (advances_parseInt _ fieldLen).bind_zero fun _ => ?_
  refine advances_field _ fun fieldLen => (advances_parseInt _ fieldLen).bind_zero fun _ => ?_
  refine advances_field _ fun fieldLen => (advances_parseTime _ fieldLen).bind_zero fun _ => ?_
  exact advances_field _ fun _ => advances_pure _

theorem advances_decodeV2 (this : CSnmpTrap) : Advances 0 (decodeV2 this) := by
  refine advances_field _ fun fieldLen => (advances_parseInt _ fieldLen).bind_zero fun _ => ?_
  refine advances_field _ fun fieldLen => (advances_parseInt _ fieldLen).bind_zero fun _ => ?_
  refine advances_field _ fun fieldLen => (advances_parseInt _ fieldLen).bind_zero fun _ => ?_
  refine advances_field _ fun _ => ?_
  refine advances_field _ fun _ => ?_
  refine advances_field _ fun fieldLen => (advances_parseOid _ fieldLen).bind_zero fun _ => ?_
  refine advances_field _ fun fieldLen => (advances_parseTime _ fieldLen).bind_zero fun _ => ?_
  refine advances_field _ fun _ => ?_
  refine advances_field _ fun fieldLen => (advances_parseOid _ fieldLen).bind_zero fun _ => ?_
  refine advances_field _ fun fieldLen => (advances_parseOid _ fieldLen).bind_zero fun _ => ?_
  exact advances_pure _

theorem ends_decode (platform : Platform) (uninit : UInt32) (this : CSnmpTrap) :
    Ends (decode platform uninit this) := by
  apply (advances_decodeHeader platform this).ends.bind
  intro this
  have hfields : Ends (decodeFields uninit this) := by
    rw [decodeFields]
    split_ifs
    · exact (advances_decodeV1 uninit this).ends
    · exact (advances_decodeV2 this).ends
  apply hfields.bind
  intro this
  apply (ends_varbindLoop this.packetLen this.varArgs).bind
  intro varArgs
  exact (advances_pure _).ends

structure VarbindsEnd (mem : Memory) (packetLen : UInt32) (c : Cursor) : Prop where
  ends : ∃ s ∈ eval (varbindStep mem packetLen) (c, []), varbindPass mem packetLen s =
    .inr (varbindLoop packetLen packetLen.toNat [] mem c).outcome
  returns : (varbindLoop packetLen packetLen.toNat [] mem c).outcome ≠ .timeout
  moves : ∀ s t, Reaches (varbindStep mem packetLen) (c, []) s →
    varbindStep mem packetLen s = some t →
      ∀ q, t.1 = some q → ∃ p, s.1 = some p ∧ p + 6 ≤ q
  stored : ∀ s, Reaches (varbindStep mem packetLen) (c, []) s →
    s.2.length ≤ packetLen.toNat / 6 + 1

theorem varbinds_end (mem : Memory) (packetLen : UInt32) (c : Cursor) :
    VarbindsEnd mem packetLen c := by
  have hstart : Stored packetLen (c, []) := ⟨fun p _ => Nat.zero_le p, Nat.zero_le _⟩
  constructor
  · exact exists_varbindPass_start mem packetLen c []
  · exact ends_varbindLoop packetLen [] mem c
  · intro s t _ hstep q hq
    exact moves_of_varbindStep hstep hq
  · intro s hs
    exact (reaches_invariant Stored.step hstart hs).bounded

/-- The decoder ends on every packet, and its varbind loop does from whatever cursor it starts. -/
theorem decode_varbinds_end (platform : Platform) (uninit : UInt32) (raw : CSnmpTrap)
    (behind : Memory) (packet : SSnmpPacket) :
    (packet.decode platform uninit raw behind).outcome ≠ .timeout ∧
      ∀ c, VarbindsEnd (memoryOf packet.buf behind) packet.packetSize c :=
  ⟨ends_decode platform uninit _ _ _, fun c => varbinds_end _ _ c⟩

end TrapHandler
