import TrapHandler.FieldSurvey

/-!
# Which lengths are honoured

A length can be wrong in two ways. An integer can have more octets than its parser accepts: the
parser then returns the null pointer, and no caller looks at it. A length field can be one that 32
bits do not hold, or the indefinite form: only two of the checks the decoder makes of a length look
at its value, and what they look at has been reduced.
-/

namespace TrapHandler

open ByteReader ByteReader.Reader Ber CSnmpTrap

variable {s : Scan} {p : ℕ}

/-- A received datagram in memory, as one of the build targets sees it. -/
def SSnmpPacket.scan (packet : SSnmpPacket) (platform : Platform) (behind : Memory) : Scan where
  mem := memoryOf packet.buf behind
  platform := platform
  packetLen := packet.packetSize

theorem SSnmpPacket.reads (packet : SSnmpPacket) (platform : Platform) (uninit : UInt32)
    (raw : CSnmpTrap) (behind : Memory) :
    Reads (packet.scan platform behind) (CSnmpTrap.decode platform uninit (ofPacket packet raw)) 0
      (packet.scan platform behind).reached :=
  reads_decode rfl

theorem Scan.passes_of_overlong {f : FieldAt} (h : s.Overlong f) :
    s.passes f = true ↔ f.site ≠ .genericID := by
  obtain ⟨site, p⟩ := f
  obtain ⟨limit, hlimit, hlt⟩ := h
  cases site with
  | genericID =>
    cases hlimit
    change 4 < (s.fieldLen p).toNat at hlt
    constructor
    · intro hpass
      have hone : s.mem p = 1 := beq_iff_eq.mp hpass
      rw [Scan.fieldLen_of_short (by decide) hone] at hlt
      exact absurd hlt (by decide)
    · intro hne
      exact absurd rfl hne
  | specificID | sourceTime | requestID | error | errorIndex | integerValue => simp [Scan.passes]
  | envelope | version | community | request | oid | agentAddr | container | boolValue | strValue
  | oidValue | ipValue => cases hlimit

/-- Integers of more octets than their parser accepts are refused: the null pointer is not followed,
and a parser is called only where it assigns the value. -/
structure HonoursNull (packet : SSnmpPacket) (platform : Platform) (uninit : UInt32)
    (raw : CSnmpTrap) (behind : Memory) : Prop where
  refused : ∀ f ∈ (packet.scan platform behind).reached,
    (packet.scan platform behind).Overlong f →
      (packet.decode platform uninit raw behind).outcome = .reject
  not_followed : (packet.decode platform uninit raw behind).outcome ≠ .fault
  assigned : ∀ f ∈ (packet.scan platform behind).reached,
    (packet.scan platform behind).passes f = true → ¬ (packet.scan platform behind).Overlong f

/-- They are refused exactly if all of them are generic ids, whose length octet is compared before
it is read. -/
theorem honoursNull_iff (packet : SSnmpPacket) (platform : Platform) (uninit : UInt32)
    (raw : CSnmpTrap) (behind : Memory) :
    HonoursNull packet platform uninit raw behind ↔
      ∀ f ∈ (packet.scan platform behind).reached,
        (packet.scan platform behind).Overlong f → f.site = .genericID := by
  have hreads := packet.reads platform uninit raw behind
  constructor
  · intro h f hf hlong
    by_contra hsite
    exact h.assigned f hf ((Scan.passes_of_overlong hlong).mpr hsite) hlong
  · intro h
    have hassigned : ∀ f ∈ (packet.scan platform behind).reached,
        (packet.scan platform behind).passes f = true →
          ¬ (packet.scan platform behind).Overlong f := by
      intro f hf hpass hlong
      exact (Scan.passes_of_overlong hlong).mp hpass (h f hf hlong)
    refine ⟨?_, ?_, hassigned⟩
    · intro f hf hlong
      have hfail : (packet.scan platform behind).passes f = false := by
        rw [← Bool.not_eq_true]
        exact fun hpass => hassigned f hf hpass hlong
      exact (hreads.refused f hf hfail).1
    · intro hfault
      obtain ⟨f, hf, hpass, hlong⟩ := hreads.fault_iff.mp hfault
      exact hassigned f hf hpass hlong

def longRequestPacket : SSnmpPacket where
  srcAddr := 0
  srcPort := 162
  ftRecvTime := 0
  packetSize := 22
  buf := [48, 20, 2, 1, 1, 4, 6, 112, 117, 98, 108, 105, 99, 167, 7, 2, 5, 0, 0, 0, 0, 1]
  size_eq := rfl

theorem longRequest_not_honoursNull :
    ¬ HonoursNull longRequestPacket .x64 0 default fun _ => 0 := by
  intro h
  exact h.not_followed (by decide +kernel)

/-- The number in the length field at `p`. -/
def Scan.denoted (s : Scan) (p : ℕ) : ℕ :=
  if (s.mem p).toNat < 128 then (s.mem p).toNat
  else octetsValue (slice s.mem (p + 1) ((s.mem p).toNat % 128))

/-- The indefinite form, or a length of `2 ^ 32` or more. -/
def Scan.Unfit (s : Scan) (p : ℕ) : Prop :=
  s.mem p = 0x80 ∨ ∃ n ls, IsDefiniteLength n ls ∧ HoldsAt s.mem p ls ∧ 2 ^ 32 ≤ n

/-- The decoder's checks that see a reduced length: two compare the number, two the octet. -/
def Scan.Caught (s : Scan) (f : FieldAt) : Prop :=
  match f.site with
  | .envelope => ((s.denoted f.start % 2 ^ 32 : ℕ) : ℤ) ≠
      bytesLeft s.platform s.packetLen (s.fieldEnd f.start)
  | .version => 4 < s.denoted f.start % 2 ^ 32
  | .agentAddr => True
  | .genericID => True
  | _ => False

theorem Scan.toNat_fieldLen (s : Scan) (p : ℕ) : (s.fieldLen p).toNat = s.denoted p % 2 ^ 32 := by
  rw [Scan.fieldLen, Scan.denoted]
  split_ifs with hb
  · rw [UInt8.toNat_toUInt32, Nat.mod_eq_of_lt (by omega)]
  · exact toNat_uint32Of _

theorem Scan.Unfit.long (h : s.Unfit p) : ¬ (s.mem p).toNat < 128 := by
  obtain hindef | ⟨n, ls, hls, hmem, hn⟩ := h
  · rw [hindef]
    decide
  · obtain ⟨hshort, _⟩ | ⟨ds, _, hlong, _, rfl⟩ := hls
    · omega
    · rw [(holdsAt_cons.mp hmem).1, UInt8.toNat_ofNat_of_lt' (show 128 + ds.length < 256 by omega)]
      omega

theorem Scan.passes_of_unfit {f : FieldAt} (h : s.Unfit f.start) :
    s.passes f = false ↔ s.Caught f := by
  obtain ⟨site, p⟩ := f
  have hlong := h.long
  have hoctet : ∀ l : UInt8, l.toNat < 128 → (s.mem p == l) = false := by
    intro l hl
    rw [beq_eq_false_iff_ne]
    rintro rfl
    exact hlong hl
  cases site with
  | envelope => simp [Scan.passes, Scan.Caught, Scan.toNat_fieldLen]
  | version => simp [Scan.passes, Scan.Caught, UInt32.lt_iff_toNat_lt, Scan.toNat_fieldLen]
  | agentAddr => simp [Scan.passes, Scan.Caught, hoctet 4 (by decide)]
  | genericID => simp [Scan.passes, Scan.Caught, hoctet 1 (by decide)]
  | community | request | oid | specificID | sourceTime | requestID | error | errorIndex
  | container | boolValue | integerValue | strValue | oidValue | ipValue =>
    simp [Scan.passes, Scan.Caught]

/-- A length that 32 bits hold is read as the number it denotes, and any other is refused before a
byte behind it is loaded. -/
structure LengthsExact (packet : SSnmpPacket) (platform : Platform) (uninit : UInt32)
    (raw : CSnmpTrap) (behind : Memory) : Prop where
  exact : ∀ p n ls, IsDefiniteLength n ls → HoldsAt (memoryOf packet.buf behind) p ls →
    n < 2 ^ 32 → ∃ fieldLen : UInt32, fieldLen.toNat = n ∧
      Accepts getFieldLength (memoryOf packet.buf behind) (some p) fieldLen
        (some (p + ls.length))
  refused : ∀ f ∈ (packet.scan platform behind).reached,
    (packet.scan platform behind).Unfit f.start →
      (packet.decode platform uninit raw behind).outcome = .reject ∧
        ∀ access ∈ (packet.decode platform uninit raw behind).accesses,
          access.Below ((packet.scan platform behind).fieldEnd f.start)

/-- What does not fit is refused exactly if every such field is an envelope or a version whose
reduced length fails the check, or one of the two fields whose octet is compared. -/
theorem lengthsExact_iff (packet : SSnmpPacket) (platform : Platform) (uninit : UInt32)
    (raw : CSnmpTrap) (behind : Memory) :
    LengthsExact packet platform uninit raw behind ↔
      ∀ f ∈ (packet.scan platform behind).reached,
        (packet.scan platform behind).Unfit f.start →
          (packet.scan platform behind).Caught f := by
  have hreads := packet.reads platform uninit raw behind
  constructor
  · intro h f hf hunfit
    rw [← Scan.passes_of_unfit hunfit, ← Bool.not_eq_true]
    intro hpass
    exact hreads.passed f hf hpass (h.refused f hf hunfit).2
  · intro h
    constructor
    · intro p n ls hls hmem hn
      refine ⟨UInt32.ofNat n, UInt32.toNat_ofNat_of_lt' hn, ?_⟩
      exact accepts_getFieldLength.mpr ⟨ls, lengthField_of_isDefiniteLength hls hn, hmem, rfl⟩
    · intro f hf hunfit
      exact hreads.refused f hf ((Scan.passes_of_unfit hunfit).mpr (h f hf hunfit))

/-- The hello message with an empty community in the indefinite form. -/
def indefinitePacket : SSnmpPacket where
  srcAddr := 0
  srcPort := 162
  ftRecvTime := 0
  packetSize := 89
  buf := [48, 87, 2, 1, 1, 4, 128, 167, 80, 2, 1, 1, 2, 1, 0, 2, 1, 0,
    48, 69, 48, 15, 6, 8, 43, 6, 1, 2, 1, 1, 3, 0, 67, 3, 1, 17, 112,
    48, 24, 6, 10, 43, 6, 1, 6, 3, 1, 1, 4, 1, 0, 6, 10, 43, 6, 1, 4, 1, 247, 50, 10, 0, 8,
    48, 24, 6, 10, 43, 6, 1, 4, 1, 247, 50, 11, 1, 0,
    4, 10, 116, 101, 115, 116, 115, 121, 115, 116, 101, 109]
  size_eq := rfl

theorem indefinite_not_lengthsExact :
    ¬ LengthsExact indefinitePacket .x64 0 default fun _ => 0 := by
  intro h
  have hreached : (⟨.community, 6⟩ : FieldAt) ∈
      (indefinitePacket.scan .x64 fun _ => 0).reached := by decide +kernel
  have hreject := (h.refused _ hreached (.inl rfl)).1
  exact absurd hreject (by decide +kernel)

end TrapHandler
