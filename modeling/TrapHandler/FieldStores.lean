import TrapHandler.FieldParsing
import TrapHandler.SnmpTrap

/-!
# Stores of the field parsers

A string and an object identifier are stored in arrays of one element more than their field has
octets, counted in 32 bits. The string needs the element for its terminator, the object identifier
for a first octet that stands for two components.
-/

namespace ByteReader

def Access.Fits : Access → Prop
  | .load _ => True
  | .store index size => index < size
  | .alloc _ => True

end ByteReader

namespace TrapHandler

open ByteReader ByteReader.Reader

variable {mem : Memory} {p size left : ℕ} {fieldLen : UInt32}

/-- The stores for the field behind a length field. -/
structure StoresFit (mem : Memory) (p : ℕ) (fieldLen : UInt32) : Prop where
  str : Touches Access.Fits (parseStr fieldLen) mem (some p)
  oid : ∀ val, Touches Access.Fits (parseOid val fieldLen) mem (some p)
  nOids : ∀ val oid c, Accepts (parseOid val fieldLen) mem (some p) oid c →
    oid.nOids ≤ (fieldLen + 1).toNat

theorem toNat_add_one (h : fieldLen ≠ 0xFFFFFFFF) : (fieldLen + 1).toNat = fieldLen.toNat + 1 := by
  have hlt := fieldLen.toNat_lt
  have hne : fieldLen.toNat ≠ 4294967295 := fun heq => h (UInt32.toNat_inj.mp heq)
  rw [UInt32.toNat_add]
  exact Nat.mod_eq_of_lt (by rw [UInt32.toNat_one]; omega)

theorem fits_parseStrLoop {str : WStr} (h : str.length + left < size) :
    Touches Access.Fits (parseStrLoop size left str) mem (some p) := by
  induction left generalizing p str with
  | zero =>
    rw [parseStrLoop, touches_bind, touches_store]
    exact ⟨h, fun _ _ _ => touches_pure⟩
  | succ left ih =>
    rw [parseStrLoop, (next_accepts mem p).touches_bind, touches_next,
      (store_accepts mem _ _ _).touches_bind, touches_store]
    refine ⟨trivial, ?_, ?_⟩
    · have hlt : str.length < size := by omega
      exact hlt
    · apply ih
      rw [List.length_append, List.length_singleton]
      omega

theorem not_fits_parseStrLoop : ¬ Touches Access.Fits (parseStrLoop 0 left []) mem (some p) := by
  have hstore : ¬ Access.Fits (.store 0 0) := Nat.lt_irrefl 0
  intro h
  cases left with
  | zero =>
    rw [parseStrLoop, touches_bind, touches_store] at h
    exact hstore h.1
  | succ left =>
    rw [parseStrLoop, (next_accepts mem p).touches_bind,
      (store_accepts mem _ _ _).touches_bind, touches_store] at h
    exact hstore h.2.1

theorem fits_parseSubIdentifier {c : Cursor} {tmpVal : UInt32} :
    Touches Access.Fits (parseSubIdentifier left tmpVal) mem c := by
  induction left generalizing c tmpVal with
  | zero => exact touches_pure
  | succ left ih =>
    rw [parseSubIdentifier, touches_bind, touches_next]
    refine ⟨trivial, ?_⟩
    intro b c' _
    split_ifs
    · exact touches_pure
    · exact ih

/-- An array holds the components found so far and one for each octet of the field that is left, and
one more in front of the first component. -/
structure Room (size left : ℕ) (oids : List UInt32) : Prop where
  components : oids.length + left ≤ size
  first : oids = [] → left < size

theorem Room.push {oids : List UInt32} {rest : ℕ} (h : Room size (left + 1) oids)
    (hrest : rest ≤ left) (v : UInt32) :
    oids.length < size ∧ Room size rest (oids ++ [v]) := by
  have hcomponents := h.components
  refine ⟨by omega, ?_, ?_⟩
  · rw [List.length_append, List.length_singleton]
    omega
  · intro hnil
    exact absurd hnil (List.append_ne_nil_of_right_ne_nil _ (List.cons_ne_nil v []))

theorem Room.pair {rest : ℕ} (h : Room size (left + 1) []) (hrest : rest ≤ left) (a b : UInt32) :
    1 < size ∧ Room size rest [a, b] := by
  have hfirst := h.first rfl
  refine ⟨by omega, ?_, ?_⟩
  · simp only [List.length_cons, List.length_nil]
    omega
  · intro hnil
    exact absurd hnil (List.cons_ne_nil _ _)

theorem fits_parseOidLoop {fuel : ℕ} {oids : List UInt32} (hfuel : left ≤ fuel)
    (h : Room size left oids) :
    Touches Access.Fits (parseOidLoop size fuel left oids) mem (some p) ∧
      ∀ out c, Accepts (parseOidLoop size fuel left oids) mem (some p) out c →
        out.length ≤ size := by
  have hdone : ∀ {p : ℕ} {oids : List UInt32}, Room size 0 oids →
      Touches Access.Fits (pure oids) mem (some p) ∧
        ∀ out c, Accepts (pure oids) mem (some p) out c → out.length ≤ size := by
    intro p oids h
    refine ⟨touches_pure, ?_⟩
    intro out c hacc
    obtain ⟨rfl, _⟩ := accepts_pure.mp hacc
    exact h.components
  induction fuel generalizing p left oids with
  | zero =>
    obtain rfl : left = 0 := by omega
    exact hdone h
  | succ fuel ih =>
    cases left with
    | zero => exact hdone h
    | succ left =>
      obtain ⟨group, rest, hgroup, hlen, _, hacc⟩ := parseSubIdentifier_accepts mem p left 0
      have hpos := List.length_pos_iff.mpr hgroup
      have hrest : rest ≤ left := by omega
      rw [parseOidLoop, hacc.touches_bind]
      simp only [hacc.bind_iff]
      split_ifs with hfirst
      · obtain rfl : oids = [] := by
          rw [Bool.and_eq_true, beq_iff_eq, beq_iff_eq] at hfirst
          exact List.length_eq_zero_iff.mp hfirst.2
        obtain ⟨hone, hroom⟩ := h.pair hrest 1 3
        have hzero : 0 < size := by omega
        obtain ⟨htouches, hlength⟩ := ih (p := p + group.length) (by omega) hroom
        rw [(store_accepts mem _ _ _).touches_bind, (store_accepts mem _ _ _).touches_bind,
          touches_store, touches_store]
        simp only [(store_accepts mem _ _ _).bind_iff]
        exact ⟨⟨fits_parseSubIdentifier, hzero, hone, htouches⟩, hlength⟩
      · obtain ⟨hlt, hroom⟩ := h.push hrest (group.foldl shiftSeptet 0)
        obtain ⟨htouches, hlength⟩ := ih (p := p + group.length) (by omega) hroom
        rw [(store_accepts mem _ _ _).touches_bind, touches_store]
        simp only [(store_accepts mem _ _ _).bind_iff]
        exact ⟨⟨fits_parseSubIdentifier, hlt, htouches⟩, hlength⟩

theorem not_fits_parseStr : ¬ Touches Access.Fits (parseStr 0xFFFFFFFF) mem (some p) := by
  have hsize : ((0xFFFFFFFF : UInt32) + 1).toNat = 0 := rfl
  rw [parseStr, (allocate_accepts mem _ _).touches_bind, hsize]
  exact fun h => not_fits_parseStrLoop h.2

/-- Every store fits, except where the number of elements wraps around to none at all. -/
theorem storesFit_iff (mem : Memory) (p : ℕ) (fieldLen : UInt32) :
    StoresFit mem p fieldLen ↔ fieldLen ≠ 0xFFFFFFFF := by
  constructor
  · intro h hmax
    subst hmax
    exact not_fits_parseStr h.str
  · intro hne
    have hsize := toNat_add_one hne
    have hroom : Room (fieldLen + 1).toNat fieldLen.toNat [] := by
      constructor
      · rw [hsize, List.length_nil]
        omega
      · intro _
        omega
    have hloop : Touches Access.Fits
        (parseOidLoop (fieldLen + 1).toNat fieldLen.toNat fieldLen.toNat []) mem (some p) ∧
          ∀ out c, Accepts (parseOidLoop (fieldLen + 1).toNat fieldLen.toNat fieldLen.toNat [])
            mem (some p) out c → out.length ≤ (fieldLen + 1).toNat :=
      fits_parseOidLoop le_rfl hroom
    refine ⟨?_, ?_, ?_⟩
    · rw [parseStr, (allocate_accepts mem _ _).touches_bind, touches_allocate]
      refine ⟨trivial, fits_parseStrLoop ?_⟩
      rw [List.length_nil]
      omega
    · intro val
      rw [parseOid, (allocate_accepts mem _ _).touches_bind, touches_allocate, touches_bind]
      exact ⟨trivial, hloop.1, fun _ _ _ => touches_pure⟩
    · intro val oid c hacc
      rw [parseOid, (allocate_accepts mem _ _).bind_iff, accepts_bind] at hacc
      obtain ⟨oids, c', hoids, hpure⟩ := hacc
      obtain ⟨rfl, _⟩ := accepts_pure.mp hpure
      exact hloop.2 oids c' hoids

/-- A trap whose community has the length `0xFFFFFFFF`. -/
def endlessCommunityPacket : SSnmpPacket where
  srcAddr := 0x0100007F
  srcPort := 123
  ftRecvTime := 0
  packetSize := 11
  buf := [48, 9, 2, 1, 1, 4, 132, 255, 255, 255, 255]
  size_eq := by decide

/-- Decoding it stores to an array without elements. -/
theorem endlessCommunity_not_fits :
    ¬ Touches Access.Fits
      (CSnmpTrap.decode .x64 0 (CSnmpTrap.ofPacket endlessCommunityPacket default))
      (memoryOf endlessCommunityPacket.buf fun _ => 0) (some 0) := by
  intro h
  rw [CSnmpTrap.decode, touches_bind] at h
  have hrest := h.1
  have henvelope : Accepts (CSnmpTrap.expectTag 0x30)
      (memoryOf endlessCommunityPacket.buf fun _ => 0) (some 0) () (some 1) := by decide
  have henvLen : Accepts getFieldLength
      (memoryOf endlessCommunityPacket.buf fun _ => 0) (some 1) 9 (some 2) := by decide
  have hversionTag : Accepts (CSnmpTrap.expectTag SNMP_TYPE_INT)
      (memoryOf endlessCommunityPacket.buf fun _ => 0) (some 2) () (some 3) := by decide
  have hversionLen : Accepts getFieldLength
      (memoryOf endlessCommunityPacket.buf fun _ => 0) (some 3) 1 (some 4) := by decide
  have hversion : Accepts
      (parseInt (CSnmpTrap.ofPacket endlessCommunityPacket default).version 1)
      (memoryOf endlessCommunityPacket.buf fun _ => 0) (some 4) 1 (some 5) := by decide
  have hcommunityTag : Accepts (CSnmpTrap.expectTag SNMP_TYPE_STR)
      (memoryOf endlessCommunityPacket.buf fun _ => 0) (some 5) () (some 6) := by decide
  have hcommunityLen : Accepts getFieldLength
      (memoryOf endlessCommunityPacket.buf fun _ => 0) (some 6) 0xFFFFFFFF (some 11) := by decide
  rw [CSnmpTrap.decodeHeader, henvelope.touches_bind, henvLen.touches_bind,
    (offset_accepts _ _).touches_bind, (require_accepts (by decide)).touches_bind,
    hversionTag.touches_bind, hversionLen.touches_bind, (require_accepts (by decide)).touches_bind,
    hversion.touches_bind, hcommunityTag.touches_bind, hcommunityLen.touches_bind, touches_bind]
    at hrest
  exact not_fits_parseStr hrest.2.2.2.2.2.2.2.2.2.2.1

end TrapHandler
