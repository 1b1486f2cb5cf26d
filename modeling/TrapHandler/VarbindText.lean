import TrapHandler.ValueElements

/-!
# The text of a variable

`CSnmpTrapVar::operator const wchar_t*` writes the value of a variable into an array of its own. A
64-bit integer is printed without a sign, one of 32 bits with a sign, and the 64-bit member decides
which of the two a value is. A negative integer is right where it fills all four octets of the
32-bit member.
-/

namespace TrapHandler

open ByteReader ByteReader.Reader Ber CSnmpTrap

/-- What a conversion to `const wchar_t*` comes to: an array, the null pointer, or a text read
through the null pointer. -/
inductive Conversion where
  | array (wcsTmpVal : CharArray WChar)
  | null
  | fault

def Conversion.text : Conversion → Option WStr
  | .array wcsTmpVal => some wcsTmpVal.text
  | .null => none
  | .fault => none

namespace CSnmpTrapVar

/-- `(this->iVal & (0xff000000 << (8 * i))) >> (shiftVal - (8 * i))`. -/
def ipOctet (iVal : UInt32) (i : ℕ) : UInt32 :=
  (iVal &&& ((0xff000000 : UInt32) <<< UInt32.ofNat (8 * i))) >>> UInt32.ofNat (24 - 8 * i)

/-- The loop over the octets of an address: passes left, the array, and the offset of `pTmp`, which
is moved by the number of digits of the whole address. -/
def ipLoop (iVal : UInt32) : ℕ → CharArray WChar → ℕ → CharArray WChar × ℕ
  | 0, wcsTmpVal, pTmp => (wcsTmpVal, pTmp)
  | left + 1, wcsTmpVal, pTmp =>
    let wcsTmpVal := wcsTmpVal.copyAt pTmp (itow (ipOctet iVal (4 - (left + 1))).toInt32)
    let pTmp := if iVal ≥ 100 then pTmp + 3 else if iVal ≥ 10 then pTmp + 2 else pTmp + 1
    ipLoop iVal left (wcsTmpVal.store pTmp CSnmpOid.dot) (pTmp + 1)

/-- The first conversion of a variable; later ones return the same array. `raw` is what the new
array holds. -/
def toWcs (raw : ℕ → WChar) (this : CSnmpTrapVar) : Conversion :=
  if this.iValueType == SNMP_TYPE_BOOL then
    .array ((CharArray.new 6 raw).copyAt 0 (if this.bVal then wcs "true" else wcs "false"))
  else if this.iValueType == SNMP_TYPE_INT || this.iValueType == SNMP_TYPE_TIME then
    if this.ullVal > 0 then
      .array ((CharArray.new 44 raw).copyAt 0 (decimal this.ullVal.toNat))
    else
      .array ((CharArray.new 22 raw).copyAt 0 (itow this.iVal.toInt32))
  else if this.iValueType == SNMP_TYPE_STR then
    match this.wcsVal with
    | none => .fault
    | some wcsVal =>
      .array ((CharArray.new ((cstr wcsVal).length + 1) raw).copyAt 0 (cstr wcsVal))
  else if this.iValueType == SNMP_TYPE_NULL then
    .array ((CharArray.new 5 raw).copyAt 0 (wcs "NULL"))
  else if this.iValueType == SNMP_TYPE_OID then
    match this.oidVal.bind fun oidVal => (oidVal.makeWcsStr raw).wcsOid with
    | none => .fault
    | some wcsOid =>
      .array ((CharArray.new ((cstr wcsOid).length + 1) raw).copyAt 0 (cstr wcsOid))
  else if this.iValueType == SNMP_TYPE_IPADDR then
    match ipLoop this.iVal 4 (CharArray.new 16 raw) 0 with
    | (wcsTmpVal, pTmp) => .array (wcsTmpVal.store (pTmp - 1) 0)
  else .null

end CSnmpTrapVar

def numeral (v : ℤ) : WStr := if v < 0 then 0x2D :: decimal v.natAbs else decimal v.natAbs

theorem itow_eq (value : Int32) : itow value = numeral value.toInt := by
  simp only [itow, numeral, Int32.lt_iff_toInt_lt, Int32.toInt_zero]

theorem numeral_injective : Function.Injective numeral := by
  intro v w h
  have hsign : ∀ n m, (0x2D : WChar) :: decimal n ≠ decimal m := by
    intro n m heq
    have hmem : (0x2D : WChar) ∈ decimal m := heq ▸ List.mem_cons_self
    exact notMem_decimal (by decide) m hmem
  rw [numeral, numeral] at h
  split_ifs at h with hv hw hw
  · have habs := decimal_injective (List.cons.inj h).2
    omega
  · exact absurd h (hsign _ _)
  · exact absurd h.symm (hsign _ _)
  · have habs := decimal_injective h
    omega

theorem zero_notMem_numeral (v : ℤ) : (0 : WChar) ∉ numeral v := by
  have hzero : ∀ n, (0 : WChar) ∉ decimal n := notMem_decimal (by decide)
  rw [numeral]
  split_ifs
  · intro hmem
    cases List.mem_cons.mp hmem with
    | inl heq => exact absurd heq (by decide)
    | inr hmem => exact hzero _ hmem
  · exact hzero _

theorem decimal_eq_numeral (n : ℕ) : decimal n = numeral n := by
  rw [numeral, if_neg (Int.natCast_nonneg n).not_gt, Int.natAbs_natCast]

theorem length_numeral_lt {v : ℤ} (h : v.natAbs < 2 ^ 64) : (numeral v).length < 22 := by
  have hlen : (decimal v.natAbs).length ≤ 20 := by
    rw [length_decimal_le_iff (by decide)]
    exact h.trans (by norm_num)
  rw [numeral]
  split_ifs
  · rw [List.length_cons]
    omega
  · omega

/-- The integer that is printed: the 64-bit member unless it is zero, else the other one with a
sign. -/
def shown (var : CSnmpTrapVar) : ℤ :=
  if var.ullVal > 0 then var.ullVal.toNat else var.iVal.toInt32.toInt

theorem text_toWcs_integer (raw : ℕ → WChar) {var : CSnmpTrapVar}
    (htype : var.iValueType = SNMP_TYPE_INT) :
    (var.toWcs raw).text = some (numeral (shown var)) := by
  have hint : (var.iValueType == SNMP_TYPE_INT || var.iValueType == SNMP_TYPE_TIME) = true := by
    rw [htype]
    rfl
  have hbool : ¬ (var.iValueType == SNMP_TYPE_BOOL) = true := by
    rw [htype]
    decide
  rw [CSnmpTrapVar.toWcs, if_neg hbool, if_pos hint, shown]
  by_cases hull : var.ullVal > 0
  · rw [if_pos hull, if_pos hull, decimal_eq_numeral, Conversion.text, CharArray.text_copyAt]
    · exact zero_notMem_numeral _
    · have hlt := var.ullVal.toNat_lt
      have hlen := length_numeral_lt (v := var.ullVal.toNat) (by omega)
      have hsize : 22 < 44 := by omega
      exact hlen.trans hsize
  · rw [if_neg hull, if_neg hull, itow_eq, Conversion.text, CharArray.text_copyAt]
    · exact zero_notMem_numeral _
    · have hle := var.iVal.toInt32.le_toInt
      have hlt := var.iVal.toInt32.toInt_lt
      exact length_numeral_lt (by omega)

theorem toInt_toInt32_uint32Of {content : List UInt8} (h : content.length ≤ 4) :
    (uint32Of content).toInt32.toInt = Int.bmod (octetsValue content) (2 ^ 32) := by
  rw [← toNat_uint32Of_of_length_le h]
  exact BitVec.toInt_eq_toNat_bmod (uint32Of content).toBitVec

theorem shown_narrow (oid : CSnmpOid) {v : ℤ} (h : signedWidth v ≤ 4) :
    shown (withInteger { oid, iValueType := SNMP_TYPE_INT } (signedOctets v)) =
      if 0 ≤ v ∨ signedWidth v = 4 then v else v + 256 ^ signedWidth v := by
  have hlen : (signedOctets v).length ≤ 4 := by rwa [length_signedOctets]
  have hpos := signedWidth_pos v
  have hbounds := (signedWidth_le_iff hpos).mp le_rfl
  have hzero : ¬ (0 : UInt64) > 0 := by decide
  rw [withInteger, if_pos hlen, shown, if_neg hzero, toInt_toInt32_uint32Of hlen,
    octetsValue_signedOctets_eq, Int.bmod_def]
  generalize signedWidth v = w at h hpos hbounds ⊢
  interval_cases w
  all_goals
    norm_num at hbounds ⊢
    split_ifs <;> omega

theorem shown_wide (oid : CSnmpOid) {v : ℤ} (h : ¬ signedWidth v ≤ 4) (hmax : signedWidth v ≤ 8) :
    shown (withInteger { oid, iValueType := SNMP_TYPE_INT } (signedOctets v)) =
      if 0 ≤ v ∨ signedWidth v = 4 then v else v + 256 ^ signedWidth v := by
  have hlen : ¬ (signedOctets v).length ≤ 4 := by rwa [length_signedOctets]
  have hlen' : (signedOctets v).length ≤ 8 := by rwa [length_signedOctets]
  have hbounds := (signedWidth_le_iff (signedWidth_pos v)).mp le_rfl
  have hfour : ¬ (-2 ^ 31 ≤ v ∧ v < 2 ^ 31) := fun h' =>
    h ((signedWidth_le_iff (k := 4) (by decide)).mpr h')
  have hpow : (256 : ℤ) ^ signedWidth v = 2 * 2 ^ (8 * signedWidth v - 1) := by
    have hsub : 8 * signedWidth v - 1 + 1 = 8 * signedWidth v := by omega
    rw [← pow_succ', hsub, show (256 : ℤ) = 2 ^ 8 by norm_num, ← pow_mul]
  have hvalue := octetsValue_signedOctets_eq v
  have hpositive : uint64Of (signedOctets v) > 0 := by
    rw [gt_iff_lt, UInt64.lt_iff_toNat_lt, toNat_uint64Of_of_length_le hlen', UInt64.toNat_zero]
    zify
    rw [hvalue]
    split_ifs <;> omega
  rw [withInteger, if_neg hlen, shown, if_pos hpositive, toNat_uint64Of_of_length_le hlen', hvalue]
  split_ifs <;> omega

/-- The printed integer is the one that was sent exactly if it is not negative or has four
octets. -/
theorem shown_eq_iff (oid : CSnmpOid) (v : Int64) :
    shown (withInteger { oid, iValueType := SNMP_TYPE_INT } (signedOctets v.toInt)) = v.toInt ↔
      0 ≤ v.toInt ∨ (-2 ^ 31 ≤ v.toInt ∧ v.toInt < -2 ^ 23) := by
  have hmax : signedWidth v.toInt ≤ 8 :=
    (signedWidth_le_iff (by decide)).mpr ⟨v.le_toInt, v.toInt_lt⟩
  have hthree := signedWidth_le_iff (v := v.toInt) (k := 3) (by decide)
  have hfour := signedWidth_le_iff (v := v.toInt) (k := 4) (by decide)
  have hpow : (0 : ℤ) < 256 ^ signedWidth v.toInt := by positivity
  have hshown : shown (withInteger { oid, iValueType := SNMP_TYPE_INT } (signedOctets v.toInt)) =
      if 0 ≤ v.toInt ∨ signedWidth v.toInt = 4 then v.toInt
      else v.toInt + 256 ^ signedWidth v.toInt := by
    by_cases h : signedWidth v.toInt ≤ 4
    · exact shown_narrow oid h
    · exact shown_wide oid h hmax
  rw [hshown]
  split_ifs <;> omega

variable {mem : Memory} {p : ℕ} {nameContent name value binding : List UInt8}

theorem decodeVarbind_iff (hname : IsElement IsDefiniteLength SNMP_TYPE_OID nameContent name)
    (hbinding : IsElement IsDefiniteLength SNMP_TYPE_SEQ (name ++ value) binding)
    (hmem : HoldsAt mem p binding) (hlen : binding.length < 2 ^ 32) :
    ∃ q oid, q + value.length = p + binding.length ∧ HoldsAt mem q value ∧
      ∀ v c, Accepts decodeVarbind mem (some (p + 1)) v c ↔
        Accepts (decodeValue { oid, iValueType := mem q } (mem q)) mem (some q) v c := by
  have hcontent := hbinding.content_le
  have hnameLen := hname.content_le
  rw [List.length_append] at hcontent
  obtain ⟨r, _, hbody, hr, hseq⟩ := elementLength_accepts hbinding hmem
    (by rw [List.length_append]; omega)
  obtain ⟨hnameMem, hvalueMem⟩ := holdsAt_append.mp hbody
  obtain ⟨s, htag, _, hs, hlength⟩ := elementLength_accepts hname hnameMem (by omega)
  have hnat : (UInt32.ofNat nameContent.length).toNat = nameContent.length :=
    toNat_contentLength (by omega)
  have hoid : Accepts (parseOid {} (UInt32.ofNat nameContent.length)) mem (some s)
      (.ofComponents (oidOf (slice mem s nameContent.length))) (some (r + name.length)) := by
    rw [accepts_parseOid, hnat, hs]
    exact ⟨rfl, rfl⟩
  rw [List.length_append] at hr
  refine ⟨r + name.length, .ofComponents (oidOf (slice mem s nameContent.length)), by omega,
    hvalueMem, ?_⟩
  intro v c
  rw [decodeVarbind, hseq.bind_iff, (expectTag_accepts htag).bind_iff, hlength.bind_iff,
    hoid.bind_iff, (peek_accepts mem _).bind_iff]

/-- The text of an integer is its numeral exactly if it is not negative or has four octets. -/
theorem varbind_text_iff (raw : ℕ → WChar) (v : Int64)
    (hname : IsElement IsDefiniteLength SNMP_TYPE_OID nameContent name)
    (hvalue : IsElement IsDefiniteLength SNMP_TYPE_INT (signedOctets v.toInt) value)
    (hbinding : IsElement IsDefiniteLength SNMP_TYPE_SEQ (name ++ value) binding)
    (hmem : HoldsAt mem p binding) (hlen : binding.length < 2 ^ 32) :
    (∃ var, Accepts decodeVarbind mem (some (p + 1)) var (some (p + binding.length)) ∧
        (var.toWcs raw).text = some (numeral v.toInt)) ↔
      0 ≤ v.toInt ∨ (-2 ^ 31 ≤ v.toInt ∧ v.toInt < -2 ^ 23) := by
  obtain ⟨q, oid, hq, hvalueMem, hdecode⟩ := decodeVarbind_iff hname hbinding hmem hlen
  have hwidth : (signedOctets v.toInt).length ≤ 8 := by
    rw [length_signedOctets]
    exact (signedWidth_le_iff (by decide)).mpr ⟨v.le_toInt, v.toInt_lt⟩
  obtain ⟨_, htag, _⟩ := elementLength_accepts hvalue hvalueMem (by omega)
  have hshort : Accepts (decodeValue { oid, iValueType := SNMP_TYPE_INT } SNMP_TYPE_INT) mem
      (some q) (withInteger { oid, iValueType := SNMP_TYPE_INT } (signedOctets v.toInt))
      (some (p + binding.length)) := by
    rw [← hq]
    exact decodeValue_short (.inl rfl) hvalue hvalueMem hwidth
  have htype : (withInteger { oid, iValueType := SNMP_TYPE_INT }
      (signedOctets v.toInt)).iValueType = SNMP_TYPE_INT := by
    rw [withInteger]
    split_ifs
    · rfl
    · rfl
  rw [← shown_eq_iff oid v]
  simp only [hdecode, htag]
  constructor
  · rintro ⟨var, hacc, htext⟩
    obtain ⟨rfl, _⟩ := hshort.unique hacc
    rw [text_toWcs_integer raw htype] at htext
    exact numeral_injective (Option.some.inj htext)
  · intro hshown
    refine ⟨_, hshort, ?_⟩
    rw [text_toWcs_integer raw htype, hshown]

/-- A binding of `-10000000`, which fills four octets. -/
theorem varbind_text_negative :
    ∃ var, Accepts decodeVarbind
        (memoryOf [48, 11, 6, 3, 43, 6, 1, 2, 4, 255, 103, 105, 128] fun _ => 0) (some 1) var
        (some 13) ∧
      (var.toWcs fun _ => 0).text = some (wcs "-10000000") :=
  have hname : IsElement IsDefiniteLength SNMP_TYPE_OID [43, 6, 1] [6, 3, 43, 6, 1] :=
    ⟨[3], .inl ⟨by decide, rfl⟩, rfl⟩
  have hvalue : IsElement IsDefiniteLength SNMP_TYPE_INT (signedOctets (-10000000))
      [2, 4, 255, 103, 105, 128] :=
    ⟨[4], .inl ⟨by decide +kernel, by decide +kernel⟩, by decide +kernel⟩
  have hbinding : IsElement IsDefiniteLength SNMP_TYPE_SEQ
      ([6, 3, 43, 6, 1] ++ [2, 4, 255, 103, 105, 128])
      [48, 11, 6, 3, 43, 6, 1, 2, 4, 255, 103, 105, 128] :=
    ⟨[11], .inl ⟨by decide, rfl⟩, rfl⟩
  (varbind_text_iff (fun _ => 0) (-10000000) hname hvalue hbinding (holdsAt_memoryOf _ _)
    (by decide)).mpr (.inr (by decide))

/-- A binding of `-1` in one octet is read as 255. -/
theorem minusOne_not_text :
    ¬ ∃ var, Accepts decodeVarbind (memoryOf [48, 8, 6, 3, 43, 6, 1, 2, 1, 255] fun _ => 0)
        (some 1) var (some 10) ∧
      (var.toWcs fun _ => 0).text = some (numeral (-1)) := by
  rintro ⟨var, hacc, htext⟩
  have hread : Accepts decodeVarbind (memoryOf [48, 8, 6, 3, 43, 6, 1, 2, 1, 255] fun _ => 0)
      (some 1) { oid := .ofComponents [1, 3, 6, 1], iValueType := 2, iVal := 255 } (some 10) := by
    decide +kernel
  obtain ⟨rfl, _⟩ := hread.unique hacc
  revert htext
  decide +kernel

end TrapHandler
