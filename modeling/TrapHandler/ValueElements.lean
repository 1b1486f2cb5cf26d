import TrapHandler.FieldParsing
import TrapHandler.SnmpTrap

/-!
# Values of variable bindings as elements

A value is one element of the encoding rules, with a length field of any definite form. The decoder
should stop behind its last octet, since the next binding is read from there. It looks at the octet
behind a Boolean, takes the length field of a null for one octet, and loses the cursor on an integer
of more than eight octets.
-/

namespace TrapHandler

open ByteReader ByteReader.Reader Ber CSnmpTrap

inductive IsContent : UInt8 → List UInt8 → Prop
  | bool (b : UInt8) : IsContent SNMP_TYPE_BOOL [b]
  | int {content : List UInt8} (h : content ≠ []) : IsContent SNMP_TYPE_INT content
  | time {content : List UInt8} (h : content ≠ []) : IsContent SNMP_TYPE_TIME content
  | str (content : List UInt8) : IsContent SNMP_TYPE_STR content
  | null : IsContent SNMP_TYPE_NULL []
  | oid {content : List UInt8} (h : content ≠ []) : IsContent SNMP_TYPE_OID content
  | ip {content : List UInt8} (h : content.length = 4) : IsContent SNMP_TYPE_IPADDR content

variable {mem : Memory} {p : ℕ} {tag : UInt8} {content bs : List UInt8}

/-- The value is decoded and the cursor stands behind its element; a Boolean is false where its
octet is zero. -/
def DecodedBehind (mem : Memory) (p : ℕ) (newVar : CSnmpTrapVar) (tag : UInt8)
    (content bs : List UInt8) : Prop :=
  ∃ v, Accepts (decodeValue newVar tag) mem (some p) v (some (p + bs.length)) ∧
    ∀ b, tag = SNMP_TYPE_BOOL → content = [b] → (v.bVal = false ↔ b = 0)

theorem exists_content (h : IsElement IsDefiniteLength tag content bs) (hmem : HoldsAt mem p bs)
    (hlen : content.length < 2 ^ 32) :
    ∃ q, q + content.length = p + bs.length ∧ HoldsAt mem q content ∧
      ∀ (f : UInt32 → Reader CSnmpTrapVar) (v : CSnmpTrapVar) (c : Cursor),
        Accepts (advance >>= fun _ => getFieldLength >>= f) mem (some p) v c ↔
          Accepts (f (UInt32.ofNat content.length)) mem (some q) v c := by
  obtain ⟨q, _, hbody, hq, hacc⟩ := elementLength_accepts h hmem hlen
  refine ⟨q, hq, hbody, ?_⟩
  intro f v c
  rw [(advance_accepts mem p).bind_iff, hacc.bind_iff]

variable {newVar : CSnmpTrapVar}

theorem decodedBehind_iff (htag : tag ≠ SNMP_TYPE_BOOL) :
    DecodedBehind mem p newVar tag content bs ↔
      ∃ v, Accepts (decodeValue newVar tag) mem (some p) v (some (p + bs.length)) := by
  apply exists_congr
  intro v
  exact and_iff_left fun _ h => absurd h htag

theorem not_decodedBehind_bool {b : UInt8}
    (h : IsElement IsDefiniteLength SNMP_TYPE_BOOL [b] bs) (hmem : HoldsAt mem p bs) :
    ¬ DecodedBehind mem p newVar SNMP_TYPE_BOOL [b] bs := by
  rintro ⟨v, hacc, _⟩
  obtain ⟨q, hq, _, hdecode⟩ := exists_content h hmem (by rw [List.length_singleton]; decide)
  obtain ⟨bVal, c, hbool, hpure⟩ := accepts_bind.mp ((hdecode _ v _).mp hacc)
  obtain ⟨_, rfl⟩ := (parseBool_accepts mem q).unique hbool
  obtain ⟨_, hc⟩ := accepts_pure.mp hpure
  have hend := Option.some.inj hc
  rw [List.length_singleton] at hq
  omega

theorem decodedBehind_null_iff (h : IsElement IsDefiniteLength SNMP_TYPE_NULL [] bs) :
    DecodedBehind mem p newVar SNMP_TYPE_NULL [] bs ↔ bs = [SNMP_TYPE_NULL, 0] := by
  have hdecode : Accepts (decodeValue newVar SNMP_TYPE_NULL) mem (some p) newVar
      (some (p + 1 + 1)) := by
    apply (advance_accepts mem p).bind
    apply (advance_accepts mem (p + 1)).bind
    exact accepts_pure.mpr ⟨rfl, rfl⟩
  rw [decodedBehind_iff (by decide)]
  constructor
  · rintro ⟨v, hacc⟩
    obtain ⟨_, hend⟩ := hdecode.unique hacc
    have hlength := Option.some.inj hend
    obtain ⟨ls, hls, rfl⟩ := h
    obtain ⟨_, rfl⟩ | ⟨ds, hpos, _, _, rfl⟩ := hls
    · rfl
    · simp only [List.length_cons, List.append_nil] at hlength
      omega
  · rintro rfl
    exact ⟨newVar, hdecode⟩

/-- The variable a short integer is stored in is that of 32 bits. -/
def withInteger (newVar : CSnmpTrapVar) (content : List UInt8) : CSnmpTrapVar :=
  if content.length ≤ 4 then { newVar with iVal := uint32Of content }
  else { newVar with ullVal := uint64Of content }

theorem decodeValue_integer_eq (htag : tag = SNMP_TYPE_INT ∨ tag = SNMP_TYPE_TIME)
    (newVar : CSnmpTrapVar) :
    decodeValue newVar tag = (advance >>= fun _ => getFieldLength >>= fun fieldLen =>
      if fieldLen ≤ 4 then
        parseInt newVar.iVal fieldLen >>= fun iVal => pure { newVar with iVal }
      else
        parseBigInt newVar.ullVal fieldLen >>= fun ullVal => pure { newVar with ullVal }) := by
  obtain rfl | rfl := htag
  · rfl
  · rfl

theorem decodeValue_short (htag : tag = SNMP_TYPE_INT ∨ tag = SNMP_TYPE_TIME)
    (h : IsElement IsDefiniteLength tag content bs) (hmem : HoldsAt mem p bs)
    (hlen : content.length ≤ 8) :
    Accepts (decodeValue newVar tag) mem (some p) (withInteger newVar content)
      (some (p + bs.length)) := by
  have hlt : content.length < 2 ^ 32 := by omega
  obtain ⟨q, hq, hbody, hdecode⟩ := exists_content h hmem hlt
  rw [decodeValue_integer_eq htag, hdecode, withInteger, ← hq]
  by_cases hshort : content.length ≤ 4
  · rw [if_pos ((contentLength_le_four_iff hlt).mpr hshort), if_pos hshort]
    apply (parseInt_content hshort hbody).bind
    exact accepts_pure.mpr ⟨rfl, rfl⟩
  · rw [if_neg (fun hle => hshort ((contentLength_le_four_iff hlt).mp hle)), if_neg hshort]
    apply (parseBigInt_content hlen hbody).bind
    exact accepts_pure.mpr ⟨rfl, rfl⟩

theorem not_decodedBehind_long (htag : tag = SNMP_TYPE_INT ∨ tag = SNMP_TYPE_TIME)
    (h : IsElement IsDefiniteLength tag content bs) (hmem : HoldsAt mem p bs)
    (hlt : content.length < 2 ^ 32) (hlen : ¬ content.length ≤ 8) :
    ¬ DecodedBehind mem p newVar tag content bs := by
  have hfour : ¬ UInt32.ofNat content.length ≤ 4 := by
    rw [contentLength_le_four_iff hlt]
    omega
  have height : ¬ UInt32.ofNat content.length ≤ 8 := by
    rw [contentLength_le_eight_iff hlt]
    exact hlen
  obtain ⟨q, _, _, hdecode⟩ := exists_content h hmem hlt
  rintro ⟨v, hacc, _⟩
  rw [decodeValue_integer_eq htag, hdecode, if_neg hfour] at hacc
  obtain ⟨ullVal, c, hint, hpure⟩ := accepts_bind.mp hacc
  obtain ⟨_, rfl⟩ := (accepts_parseBigInt_long height).mp hint
  obtain ⟨_, hc⟩ := accepts_pure.mp hpure
  cases hc

theorem decodedBehind_integer_iff (htag : tag = SNMP_TYPE_INT ∨ tag = SNMP_TYPE_TIME)
    (h : IsElement IsDefiniteLength tag content bs) (hmem : HoldsAt mem p bs)
    (hlt : content.length < 2 ^ 32) :
    DecodedBehind mem p newVar tag content bs ↔ content.length ≤ 8 := by
  have hbool : tag ≠ SNMP_TYPE_BOOL := by
    obtain rfl | rfl := htag
    · decide
    · decide
  constructor
  · intro hdecoded
    by_contra hlong
    exact not_decodedBehind_long htag h hmem hlt hlong hdecoded
  · intro hshort
    rw [decodedBehind_iff hbool]
    exact ⟨_, decodeValue_short htag h hmem hshort⟩

theorem decodedBehind_octets (htag : tag = SNMP_TYPE_STR ∨ tag = SNMP_TYPE_OID ∨
      tag = SNMP_TYPE_IPADDR)
    (h : IsElement IsDefiniteLength tag content bs) (hmem : HoldsAt mem p bs)
    (hlt : content.length < 2 ^ 32) : DecodedBehind mem p newVar tag content bs := by
  obtain ⟨q, hq, _, hdecode⟩ := exists_content h hmem hlt
  have hend : some (p + bs.length) = some (q + (UInt32.ofNat content.length).toNat) := by
    rw [toNat_contentLength hlt, hq]
  obtain rfl | rfl | rfl := htag
  · rw [decodedBehind_iff (by decide)]
    exact ⟨_, (hdecode _ _ _).mpr ((accepts_parseStr.mpr ⟨rfl, hend⟩).bind
      (accepts_pure.mpr ⟨rfl, rfl⟩))⟩
  · rw [decodedBehind_iff (by decide)]
    exact ⟨_, (hdecode _ _ _).mpr ((accepts_parseOid.mpr ⟨rfl, hend⟩).bind
      (accepts_pure.mpr ⟨rfl, rfl⟩))⟩
  · rw [decodedBehind_iff (by decide)]
    exact ⟨_, (hdecode _ _ _).mpr ((accepts_parseIP.mpr ⟨rfl, hend⟩).bind
      (accepts_pure.mpr ⟨rfl, rfl⟩))⟩

/-- The decoder stops behind the element exactly for nulls in two octets, integers of at most eight
octets, strings, object identifiers and addresses. -/
theorem decodedBehind_iff_of_isContent (newVar : CSnmpTrapVar) (hcontent : IsContent tag content)
    (h : IsElement IsDefiniteLength tag content bs) (hmem : HoldsAt mem p bs)
    (hlen : content.length < 2 ^ 32) :
    DecodedBehind mem p newVar tag content bs ↔
      tag ≠ SNMP_TYPE_BOOL ∧ (tag = SNMP_TYPE_NULL → bs = [SNMP_TYPE_NULL, 0]) ∧
        (tag = SNMP_TYPE_INT ∨ tag = SNMP_TYPE_TIME → content.length ≤ 8) := by
  cases hcontent with
  | bool b => exact iff_of_false (not_decodedBehind_bool h hmem) fun hcond => hcond.1 rfl
  | int _ =>
    rw [decodedBehind_integer_iff (.inl rfl) h hmem hlen]
    exact ⟨fun hle => ⟨by decide, fun hnull => absurd hnull (by decide), fun _ => hle⟩,
      fun hcond => hcond.2.2 (.inl rfl)⟩
  | time _ =>
    rw [decodedBehind_integer_iff (.inr rfl) h hmem hlen]
    exact ⟨fun hle => ⟨by decide, fun hnull => absurd hnull (by decide), fun _ => hle⟩,
      fun hcond => hcond.2.2 (.inr rfl)⟩
  | null =>
    rw [decodedBehind_null_iff h]
    exact ⟨fun hbs => ⟨by decide, fun _ => hbs, fun _ => Nat.zero_le 8⟩, fun hcond => hcond.2.1 rfl⟩
  | str _ =>
    exact iff_of_true (decodedBehind_octets (.inl rfl) h hmem hlen)
      ⟨by decide, fun hnull => absurd hnull (by decide), fun hint => absurd hint (by decide)⟩
  | oid _ =>
    exact iff_of_true (decodedBehind_octets (.inr (.inl rfl)) h hmem hlen)
      ⟨by decide, fun hnull => absurd hnull (by decide), fun hint => absurd hint (by decide)⟩
  | ip _ =>
    exact iff_of_true (decodedBehind_octets (.inr (.inr rfl)) h hmem hlen)
      ⟨by decide, fun hnull => absurd hnull (by decide), fun hint => absurd hint (by decide)⟩

/-- A string whose length field has two octets. -/
theorem decodedBehind_text :
    DecodedBehind (memoryOf [4, 0x81, 2, 0x68, 0x69] fun _ => 0) 0 { oid := {}, iValueType := 4 }
      SNMP_TYPE_STR [0x68, 0x69] [4, 0x81, 2, 0x68, 0x69] :=
  (decodedBehind_iff_of_isContent { oid := {}, iValueType := 4 } (.str _)
    ⟨[0x81, 2], .inr ⟨[2], by decide, by decide, by decide, rfl⟩, rfl⟩
    (holdsAt_memoryOf [4, 0x81, 2, 0x68, 0x69] _) (by decide)).mpr
    ⟨by decide, by decide, by decide⟩

/-- The Boolean `true` in front of an octet of zero. -/
theorem true_not_decodedBehind :
    ¬ DecodedBehind (memoryOf [1, 1, 0xFF, 0] fun _ => 0) 0 { oid := {}, iValueType := 1 }
      SNMP_TYPE_BOOL [0xFF] [1, 1, 0xFF] :=
  not_decodedBehind_bool ⟨[1], .inl ⟨by decide, rfl⟩, rfl⟩ (by
    rw [HoldsAt]
    decide)

end TrapHandler
