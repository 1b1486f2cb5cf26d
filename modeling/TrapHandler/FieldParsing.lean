import TrapHandler.Asn1Parsers
import TrapHandler.BasicEncodingRules

/-!
# What the field parsers compute

Each parser is characterised by the bytes it consumes: where the cursor stops, and the value as a
function of those bytes alone. The values are then compared with the numerals and object identifiers
of the basic encoding rules.
-/

namespace TrapHandler

open ByteReader ByteReader.Reader Ber

theorem forall_byte {p : UInt8 → Prop} (h : ∀ n : Fin 256, p (UInt8.ofNat n)) (b : UInt8) : p b := by
  have hb := h ⟨b.toNat, b.toNat_lt⟩
  rwa [UInt8.ofNat_toNat] at hb

theorem highBit_eq_zero_iff (b : UInt8) : (b &&& 0x80 == 0) = true ↔ b.toNat < 128 := by
  revert b
  exact forall_byte (by decide +kernel)

theorem highBit_ne_iff (b : UInt8) : (b &&& 0x80 != 0x80) = true ↔ b.toNat < 128 := by
  revert b
  exact forall_byte (by decide +kernel)

theorem toNat_low7 (b : UInt8) : (b &&& 0x7f).toNat = b.toNat % 128 := by
  rw [UInt8.toNat_and]
  exact Nat.and_two_pow_sub_one_eq_mod b.toNat 7

theorem ofNat_le_iff {m k : ℕ} (hm : m < 2 ^ 32) (hk : k < 2 ^ 32) :
    UInt32.ofNat m ≤ UInt32.ofNat k ↔ m ≤ k := by
  rw [UInt32.le_iff_toNat_le, UInt32.toNat_ofNat_of_lt' hm, UInt32.toNat_ofNat_of_lt' hk]

def uint32Of (bs : List UInt8) : UInt32 := bs.foldl shiftOctet 0

def uint64Of (bs : List UInt8) : UInt64 := bs.foldl shiftOctet64 0

theorem toNat_uint32Of (bs : List UInt8) : (uint32Of bs).toNat = octetsValue bs % 2 ^ 32 := by
  refine foldl_eq_horner_mod UInt32.toNat shiftOctet 0 rfl ?_ bs
  intro v b
  simp [shiftOctet, UInt32.toNat_shiftLeft, Nat.shiftLeft_eq]

theorem toNat_uint64Of (bs : List UInt8) : (uint64Of bs).toNat = octetsValue bs % 2 ^ 64 := by
  refine foldl_eq_horner_mod UInt64.toNat shiftOctet64 0 rfl ?_ bs
  intro v b
  simp [shiftOctet64, UInt64.toNat_shiftLeft, Nat.shiftLeft_eq]

theorem toNat_uint32Of_of_length_le {bs : List UInt8} (h : bs.length ≤ 4) :
    (uint32Of bs).toNat = octetsValue bs := by
  rw [toNat_uint32Of, Nat.mod_eq_of_lt]
  calc
    _ < 256 ^ bs.length := octetsValue_lt bs
    _ ≤ 256 ^ 4 := Nat.pow_le_pow_right (by decide) h

theorem toNat_uint64Of_of_length_le {bs : List UInt8} (h : bs.length ≤ 8) :
    (uint64Of bs).toNat = octetsValue bs := by
  rw [toNat_uint64Of, Nat.mod_eq_of_lt]
  calc
    _ < 256 ^ bs.length := octetsValue_lt bs
    _ ≤ 256 ^ 8 := Nat.pow_le_pow_right (by decide) h

def wideOf (bs : List UInt8) : WStr := bs.map charToWChar

/-- The field cut behind every octet without the continuation bit. -/
def splitSubIdentifiers : List UInt8 → List (List UInt8)
  | [] => []
  | b :: bs =>
    if b &&& 0x80 != 0x80 then [b] :: splitSubIdentifiers bs
    else
      match splitSubIdentifiers bs with
      | [] => [[b]]
      | group :: groups => (b :: group) :: groups

def subIdentifierOf (bs : List UInt8) : UInt32 := bs.foldl shiftSeptet 0

/-- A first value `0x2b` stands for the two components `1.3`. -/
def pushComponent (oids : List UInt32) (tmpVal : UInt32) : List UInt32 :=
  if tmpVal == 0x2b && oids.length == 0 then [1, 3] else oids ++ [tmpVal]

def oidOf (bs : List UInt8) : List UInt32 :=
  ((splitSubIdentifiers bs).map subIdentifierOf).foldl pushComponent []

/-- The octets `getFieldLength` takes as a length field of value `fieldLen`. -/
inductive LengthField : List UInt8 → UInt32 → Prop
  | short (b : UInt8) (hb : b.toNat < 128) : LengthField [b] b.toUInt32
  | long (b : UInt8) (ds : List UInt8) (hb : ¬ b.toNat < 128) (hds : ds.length = b.toNat % 128) :
      LengthField (b :: ds) (uint32Of ds)

theorem accepts_getFieldLength {mem : Memory} {p : ℕ} {fieldLen : UInt32} {c : Cursor} :
    Accepts getFieldLength mem (some p) fieldLen c ↔
      ∃ ls, LengthField ls fieldLen ∧ HoldsAt mem p ls ∧ c = some (p + ls.length) := by
  simp only [getFieldLength, accepts_bind, accepts_next, Option.some.injEq]
  constructor
  · rintro ⟨b, _, ⟨_, rfl, rfl, rfl⟩, h⟩
    split_ifs at h with hb
    · rw [accepts_pure] at h
      obtain ⟨rfl, rfl⟩ := h
      exact ⟨[mem p], .short _ ((highBit_eq_zero_iff _).mp hb), by simp, rfl⟩
    · rw [accepts_foldBytes, toNat_low7] at h
      obtain ⟨rfl, rfl⟩ := h
      refine ⟨mem p :: slice mem (p + 1) ((mem p).toNat % 128), .long _ _ ?_ (by simp), ?_, ?_⟩
      · rwa [← highBit_eq_zero_iff]
      · exact holdsAt_cons.mpr ⟨rfl, holdsAt_slice mem _ _⟩
      · rw [List.length_cons, length_slice, Nat.add_right_comm, Nat.add_assoc]
  · rintro ⟨ls, hls, hmem, rfl⟩
    refine ⟨mem p, some (p + 1), ⟨p, rfl, rfl, rfl⟩, ?_⟩
    cases hls with
    | short b hb =>
      obtain ⟨rfl, _⟩ := holdsAt_cons.mp hmem
      rw [if_pos ((highBit_eq_zero_iff _).mpr hb), accepts_pure]
      exact ⟨rfl, rfl⟩
    | long b ds hb hds =>
      obtain ⟨rfl, hdigits⟩ := holdsAt_cons.mp hmem
      rw [HoldsAt] at hdigits
      rw [if_neg (by rwa [highBit_eq_zero_iff]), accepts_foldBytes, toNat_low7, ← hds, hdigits]
      exact ⟨rfl, by rw [List.length_cons, Nat.add_right_comm, Nat.add_assoc]⟩

/-- Every definite length below `2 ^ 32` is read as the number it denotes. -/
theorem lengthField_of_isDefiniteLength {n : ℕ} {ls : List UInt8} (h : IsDefiniteLength n ls)
    (hn : n < 2 ^ 32) : LengthField ls (UInt32.ofNat n) := by
  obtain ⟨hshort, rfl⟩ | ⟨ds, hpos, hlong, hvalue, rfl⟩ := h
  · have hb : (UInt8.ofNat n).toNat = n := UInt8.toNat_ofNat_of_lt' (show n < 256 by omega)
    have hlen : UInt32.ofNat n = (UInt8.ofNat n).toUInt32 := by
      apply UInt32.toNat_inj.mp
      rw [UInt8.toNat_toUInt32, hb, UInt32.toNat_ofNat_of_lt' hn]
    rw [hlen]
    exact .short _ (by rwa [hb])
  · have hb : (UInt8.ofNat (128 + ds.length)).toNat = 128 + ds.length :=
      UInt8.toNat_ofNat_of_lt' (show 128 + ds.length < 256 by omega)
    have hlen : UInt32.ofNat n = uint32Of ds := by
      apply UInt32.toNat_inj.mp
      rw [toNat_uint32Of, hvalue, Nat.mod_eq_of_lt hn, UInt32.toNat_ofNat_of_lt' hn]
    rw [hlen]
    exact .long _ _ (by omega) (by rw [hb]; omega)

theorem elementLength_accepts {mem : Memory} {p : ℕ} {tag : UInt8} {content bs : List UInt8}
    (h : IsElement IsDefiniteLength tag content bs) (hmem : HoldsAt mem p bs)
    (hlen : content.length < 2 ^ 32) :
    ∃ q, mem p = tag ∧ HoldsAt mem q content ∧ q + content.length = p + bs.length ∧
      Accepts getFieldLength mem (some (p + 1)) (UInt32.ofNat content.length) (some q) := by
  obtain ⟨ls, hls, rfl⟩ := h
  obtain ⟨htag, hrest⟩ := holdsAt_cons.mp hmem
  obtain ⟨hfield, hbody⟩ := holdsAt_append.mp hrest
  refine ⟨p + 1 + ls.length, htag, hbody, ?_, ?_⟩
  · simp only [List.length_cons, List.length_append]
    omega
  · exact accepts_getFieldLength.mpr
      ⟨ls, lengthField_of_isDefiniteLength hls hlen, hfield, rfl⟩

@[simp] theorem accepts_parseIP {mem : Memory} {p : ℕ} {fieldLen v : UInt32} {c : Cursor} :
    Accepts (parseIP fieldLen) mem (some p) v c ↔
      v = uint32Of (slice mem p fieldLen.toNat) ∧ c = some (p + fieldLen.toNat) :=
  accepts_foldBytes

theorem accepts_parseInt {mem : Memory} {p : ℕ} {val fieldLen v : UInt32} {c : Cursor}
    (h : fieldLen ≤ 4) :
    Accepts (parseInt val fieldLen) mem (some p) v c ↔
      v = uint32Of (slice mem p fieldLen.toNat) ∧ c = some (p + fieldLen.toNat) := by
  rw [parseInt, if_neg (UInt32.not_lt.mpr h)]
  exact accepts_foldBytes

theorem accepts_parseInt_long {mem : Memory} {c c' : Cursor} {val fieldLen v : UInt32}
    (h : ¬ fieldLen ≤ 4) :
    Accepts (parseInt val fieldLen) mem c v c' ↔ v = val ∧ c' = none := by
  rw [parseInt, if_pos (UInt32.not_le.mp h)]
  simp only [accepts_bind, accepts_setCursor, accepts_pure]
  constructor
  · rintro ⟨_, _, rfl, rfl, rfl⟩
    exact ⟨rfl, rfl⟩
  · rintro ⟨rfl, rfl⟩
    exact ⟨(), none, rfl, rfl, rfl⟩

theorem accepts_parseBigInt {mem : Memory} {p : ℕ} {val v : UInt64} {fieldLen : UInt32}
    {c : Cursor} (h : fieldLen ≤ 8) :
    Accepts (parseBigInt val fieldLen) mem (some p) v c ↔
      v = uint64Of (slice mem p fieldLen.toNat) ∧ c = some (p + fieldLen.toNat) := by
  rw [parseBigInt, if_neg (UInt32.not_lt.mpr h)]
  exact accepts_foldBytes

theorem accepts_parseBigInt_long {mem : Memory} {c c' : Cursor} {val v : UInt64}
    {fieldLen : UInt32} (h : ¬ fieldLen ≤ 8) :
    Accepts (parseBigInt val fieldLen) mem c v c' ↔ v = val ∧ c' = none := by
  rw [parseBigInt, if_pos (UInt32.not_le.mp h)]
  simp only [accepts_bind, accepts_setCursor, accepts_pure]
  constructor
  · rintro ⟨_, _, rfl, rfl, rfl⟩
    exact ⟨rfl, rfl⟩
  · rintro ⟨rfl, rfl⟩
    exact ⟨(), none, rfl, rfl, rfl⟩

theorem toNat_contentLength {content : List UInt8} (h : content.length < 2 ^ 32) :
    (UInt32.ofNat content.length).toNat = content.length :=
  UInt32.toNat_ofNat_of_lt' h

theorem contentLength_le_four_iff {content : List UInt8} (h : content.length < 2 ^ 32) :
    UInt32.ofNat content.length ≤ 4 ↔ content.length ≤ 4 :=
  ofNat_le_iff h (by decide)

theorem contentLength_le_eight_iff {content : List UInt8} (h : content.length < 2 ^ 32) :
    UInt32.ofNat content.length ≤ 8 ↔ content.length ≤ 8 :=
  ofNat_le_iff h (by decide)

theorem parseInt_content {mem : Memory} {p : ℕ} {val : UInt32} {content : List UInt8}
    (hlen : content.length ≤ 4) (hmem : HoldsAt mem p content) :
    Accepts (parseInt val (UInt32.ofNat content.length)) mem (some p) (uint32Of content)
      (some (p + content.length)) := by
  have hlt : content.length < 2 ^ 32 := by omega
  rw [accepts_parseInt ((contentLength_le_four_iff hlt).mpr hlen), toNat_contentLength hlt, hmem]
  exact ⟨rfl, rfl⟩

theorem parseBigInt_content {mem : Memory} {p : ℕ} {val : UInt64} {content : List UInt8}
    (hlen : content.length ≤ 8) (hmem : HoldsAt mem p content) :
    Accepts (parseBigInt val (UInt32.ofNat content.length)) mem (some p) (uint64Of content)
      (some (p + content.length)) := by
  have hlt : content.length < 2 ^ 32 := by omega
  rw [accepts_parseBigInt ((contentLength_le_eight_iff hlt).mpr hlen), toNat_contentLength hlt,
    hmem]
  exact ⟨rfl, rfl⟩

theorem parseBool_accepts (mem : Memory) (p : ℕ) :
    Accepts parseBool mem (some p) (mem (p + 1) != 0) (some (p + 2)) := by
  apply (advance_accepts mem p).bind
  apply (next_accepts mem (p + 1)).bind
  exact accepts_pure.mpr ⟨rfl, rfl⟩

theorem accepts_parseStrLoop {mem : Memory} {size p left : ℕ} {str s : WStr} {c : Cursor} :
    Accepts (parseStrLoop size left str) mem (some p) s c ↔
      s = str ++ wideOf (slice mem p left) ∧ c = some (p + left) := by
  induction left generalizing p str with
  | zero =>
    simp only [parseStrLoop, accepts_bind, accepts_store, accepts_pure, slice_zero, wideOf,
      List.map_nil, List.append_nil, Nat.add_zero]
    constructor
    · rintro ⟨_, _, hc, hs⟩
      exact ⟨hs.1, hs.2.trans hc⟩
    · intro h
      exact ⟨(), _, rfl, h⟩
  | succ left ih =>
    simp only [parseStrLoop, accepts_bind, accepts_next, accepts_store, Option.some.injEq]
    constructor
    · rintro ⟨_, _, ⟨_, rfl, rfl, rfl⟩, _, _, rfl, h⟩
      rw [ih] at h
      obtain ⟨rfl, rfl⟩ := h
      exact ⟨by simp [wideOf], by rw [Nat.add_right_comm, Nat.add_assoc]⟩
    · rintro ⟨rfl, rfl⟩
      refine ⟨_, _, ⟨p, rfl, rfl, rfl⟩, (), _, rfl, ?_⟩
      rw [ih]
      exact ⟨by simp [wideOf], by rw [Nat.add_right_comm, Nat.add_assoc]⟩

@[simp] theorem accepts_parseStr {mem : Memory} {p : ℕ} {fieldLen : UInt32} {s : WStr}
    {c : Cursor} :
    Accepts (parseStr fieldLen) mem (some p) s c ↔
      s = wideOf (slice mem p fieldLen.toNat) ∧ c = some (p + fieldLen.toNat) := by
  rw [parseStr, (allocate_accepts mem _ _).bind_iff, accepts_parseStrLoop, List.nil_append]

theorem parseSubIdentifier_accepts (mem : Memory) (p left : ℕ) (tmpVal : UInt32) :
    ∃ group rest, group ≠ [] ∧ group.length + rest = left + 1 ∧
      splitSubIdentifiers (slice mem p (left + 1)) =
        group :: splitSubIdentifiers (slice mem (p + group.length) rest) ∧
      Accepts (parseSubIdentifier (left + 1) tmpVal) mem (some p)
        (rest, group.foldl shiftSeptet tmpVal) (some (p + group.length)) := by
  induction left generalizing p tmpVal with
  | zero =>
    refine ⟨[mem p], 0, by simp, rfl, by simp [splitSubIdentifiers], ?_⟩
    apply (next_accepts mem p).bind
    split_ifs <;> exact accepts_pure.mpr ⟨rfl, rfl⟩
  | succ left ih =>
    by_cases hb : (mem p &&& 0x80 != 0x80) = true
    · refine ⟨[mem p], left + 1, by simp, by simp [Nat.add_comm], ?_, ?_⟩
      · rw [slice_succ, splitSubIdentifiers, if_pos hb, List.length_singleton]
      · apply (next_accepts mem p).bind
        rw [if_pos hb]
        exact accepts_pure.mpr ⟨rfl, rfl⟩
    · obtain ⟨group, rest, _, hlen, hsplit, hacc⟩ := ih (p + 1) (shiftSeptet tmpVal (mem p))
      have hcursor : p + 1 + group.length = p + (mem p :: group).length := by
        rw [List.length_cons, Nat.add_right_comm, Nat.add_assoc]
      refine ⟨mem p :: group, rest, by simp, by rw [List.length_cons]; omega, ?_, ?_⟩
      · rw [slice_succ, splitSubIdentifiers, if_neg hb, hsplit, hcursor]
      · apply (next_accepts mem p).bind
        rw [if_neg hb, List.foldl_cons, ← hcursor]
        exact hacc

theorem parseOidLoop_accepts (mem : Memory) (size p fuel left : ℕ) (oids : List UInt32)
    (h : left ≤ fuel) :
    Accepts (parseOidLoop size fuel left oids) mem (some p)
      (((splitSubIdentifiers (slice mem p left)).map subIdentifierOf).foldl pushComponent oids)
      (some (p + left)) := by
  induction fuel generalizing p left oids with
  | zero =>
    obtain rfl : left = 0 := by omega
    exact accepts_pure.mpr ⟨rfl, rfl⟩
  | succ fuel ih =>
    cases left with
    | zero => exact accepts_pure.mpr ⟨rfl, rfl⟩
    | succ left =>
      obtain ⟨group, rest, hgroup, hlen, hsplit, hacc⟩ := parseSubIdentifier_accepts mem p left 0
      have hpos := List.length_pos_iff.mpr hgroup
      have hrest (oids : List UInt32) := ih (p + group.length) rest oids (by omega)
      rw [Nat.add_assoc, hlen] at hrest
      rw [hsplit, List.map_cons, List.foldl_cons]
      apply hacc.bind
      dsimp only
      rw [pushComponent]
      change Accepts (if (subIdentifierOf group == 43 && oids.length == 0) = true then _ else _) _ _ _ _
      split_ifs with hfirst
      · apply (store_accepts mem _ _ _).bind
        apply (store_accepts mem _ _ _).bind
        exact hrest [1, 3]
      · apply (store_accepts mem _ _ _).bind
        exact hrest (oids ++ [subIdentifierOf group])

theorem accepts_parseOid {mem : Memory} {p : ℕ} {fieldLen : UInt32} {val oid : CSnmpOid}
    {c : Cursor} :
    Accepts (parseOid val fieldLen) mem (some p) oid c ↔
      oid = { val with oids := some (oidOf (slice mem p fieldLen.toNat)) } ∧
        c = some (p + fieldLen.toNat) := by
  have hloop := parseOidLoop_accepts mem (fieldLen + 1).toNat p fieldLen.toNat fieldLen.toNat []
    le_rfl
  rw [parseOid, (allocate_accepts mem _ _).bind_iff, hloop.bind_iff, accepts_pure]
  exact Iff.rfl

theorem splitSubIdentifiers_group {continued : List UInt8} {last : UInt8} {bs : List UInt8}
    (hcontinued : ∀ b ∈ continued, ¬ b.toNat < 128) (hlast : last.toNat < 128) :
    splitSubIdentifiers (continued ++ last :: bs) =
      (continued ++ [last]) :: splitSubIdentifiers bs := by
  induction continued with
  | nil => rw [List.nil_append, List.nil_append, splitSubIdentifiers,
      if_pos ((highBit_ne_iff last).mpr hlast)]
  | cons b continued ih =>
    have hb : ¬ (b &&& 0x80 != 0x80) = true := by
      rw [highBit_ne_iff]
      exact hcontinued b (by simp)
    rw [List.cons_append, splitSubIdentifiers, if_neg hb,
      ih (fun b hb => hcontinued b (List.mem_cons_of_mem _ hb))]
    rfl

theorem splitSubIdentifiers_subIdentifier (n : ℕ) (bs : List UInt8) :
    splitSubIdentifiers (subIdentifier n ++ bs) = subIdentifier n :: splitSubIdentifiers bs := by
  rw [subIdentifier, List.append_assoc, List.singleton_append]
  apply splitSubIdentifiers_group
  · intro b hb
    obtain ⟨d, hd, rfl⟩ := mem_digits hb (by decide)
    rw [toNat_continued hd]
    omega
  · rw [UInt8.toNat_ofNat_of_lt' (show n % 128 < 256 by omega)]
    exact Nat.mod_lt n (by decide)

theorem splitSubIdentifiers_flatMap (ns : List ℕ) :
    splitSubIdentifiers (ns.flatMap subIdentifier) = ns.map subIdentifier := by
  induction ns with
  | nil => rfl
  | cons n ns ih => rw [List.flatMap_cons, splitSubIdentifiers_subIdentifier, ih, List.map_cons]

theorem toNat_subIdentifierOf (bs : List UInt8) :
    (subIdentifierOf bs).toNat = septetsValue bs % 2 ^ 32 := by
  refine foldl_eq_horner_mod UInt32.toNat shiftSeptet 0 rfl ?_ bs
  intro v b
  rw [shiftSeptet, UInt32.toNat_add, UInt8.toNat_toUInt32, toNat_low7]
  simp [UInt32.toNat_shiftLeft, Nat.shiftLeft_eq]

theorem subIdentifierOf_subIdentifier (v : UInt32) :
    subIdentifierOf (subIdentifier v.toNat) = v := by
  apply UInt32.toNat_inj.mp
  rw [toNat_subIdentifierOf, septetsValue_subIdentifier, Nat.mod_eq_of_lt v.toNat_lt]

theorem foldl_pushComponent_of_ne_nil {oids : List UInt32} (h : oids ≠ []) (vs : List UInt32) :
    vs.foldl pushComponent oids = oids ++ vs := by
  induction vs generalizing oids with
  | nil => simp
  | cons v vs ih =>
    have hlen : oids.length ≠ 0 := by simpa using h
    have hpush : pushComponent oids v = oids ++ [v] := by simp [pushComponent, hlen]
    rw [List.foldl_cons, hpush, ih (by simp), List.append_assoc, List.singleton_append]

/-- The parser recovers every object identifier below `1.3` from its content octets. -/
theorem oidOf_oidOctets (rest : List UInt32) :
    oidOf (oidOctets 1 3 (rest.map UInt32.toNat)) = 1 :: 3 :: rest := by
  have hfirst : subIdentifierOf (subIdentifier (40 * 1 + 3)) = 0x2b :=
    subIdentifierOf_subIdentifier 0x2b
  have hrest : (rest.map UInt32.toNat).map (subIdentifierOf ∘ subIdentifier) = rest := by
    rw [List.map_map]
    exact List.map_id'' subIdentifierOf_subIdentifier rest
  rw [oidOf, oidOctets, splitSubIdentifiers_subIdentifier, splitSubIdentifiers_flatMap,
    List.map_cons, List.map_map, hfirst, hrest, List.foldl_cons]
  exact foldl_pushComponent_of_ne_nil (by decide) rest

end TrapHandler
