import TrapHandler.VarbindText

/-!
# The text of an address

Of the octets of an address only the first is printed, since the mask is shifted to the left until
nothing of it is left. The output pointer is moved behind each of them by the number of digits that
the whole address has, up to three.
-/

namespace TrapHandler

open ByteReader ByteReader.Reader Ber CSnmpTrap

def dotted (octets : List UInt8) : WStr :=
  [CSnmpOid.dot].intercalate (octets.map fun octet => decimal octet.toNat)

/-- What `pTmp` is moved by behind each octet. -/
def addressStep (iVal : UInt32) : ℕ := if iVal ≥ 100 then 3 else if iVal ≥ 10 then 2 else 1

/-- A conversion that stores the octets with dots in an array of 16 characters, and nothing
outside of it. -/
def ShowsAddress (octets : List UInt8) (c : Conversion) : Prop :=
  ∃ wcsTmpVal, c = .array wcsTmpVal ∧ wcsTmpVal.size = 16 ∧ wcsTmpVal.Inside ∧
    wcsTmpVal.text = dotted octets

theorem ipLoop_eq_fields (iVal : UInt32) {left : ℕ} (h : left ≤ 4) (wcsTmpVal : CharArray WChar)
    (pTmp : ℕ) :
    CSnmpTrapVar.ipLoop iVal left wcsTmpVal pTmp =
      CharArray.fields (addressStep iVal) CSnmpOid.dot
        ((List.range' (4 - left) left).map fun i => itow (CSnmpTrapVar.ipOctet iVal i).toInt32)
        wcsTmpVal pTmp := by
  induction left generalizing wcsTmpVal pTmp with
  | zero => rfl
  | succ left ih =>
    have hnext : 4 - (left + 1) + 1 = 4 - left := by omega
    have hstep : (if iVal ≥ 100 then pTmp + 3 else if iVal ≥ 10 then pTmp + 2 else pTmp + 1) =
        pTmp + addressStep iVal := by
      rw [addressStep]
      split_ifs
      · rfl
      · rfl
      · rfl
    rw [CSnmpTrapVar.ipLoop, hstep, ih (Nat.le_of_succ_le h), List.range'_succ, hnext,
      List.map_cons, CharArray.fields]

theorem ipOctet_succ (iVal : UInt32) {i : ℕ} (h : i < 3) :
    CSnmpTrapVar.ipOctet iVal (i + 1) = 0 := by
  have hzero : ∀ n, (iVal &&& 0) >>> UInt32.ofNat n = 0 := by
    intro n
    rw [UInt32.and_zero, UInt32.zero_shiftRight]
  rw [CSnmpTrapVar.ipOctet]
  interval_cases i
  · exact hzero _
  · exact hzero _
  · exact hzero _

theorem toNat_ipOctet_zero (iVal : UInt32) :
    (CSnmpTrapVar.ipOctet iVal 0).toNat = iVal.toNat / 2 ^ 24 := by
  have hlt := iVal.toNat_lt
  have hmask : 0xff000000 >>> 24 = 2 ^ 8 - 1 := by decide
  have hshift : (CSnmpTrapVar.ipOctet iVal 0).toNat = (iVal.toNat &&& 0xff000000) >>> 24 := rfl
  rw [hshift, Nat.shiftRight_and_distrib, hmask, Nat.and_two_pow_sub_one_eq_mod,
    Nat.shiftRight_eq_div_pow]
  omega

theorem itow_toInt32 {v : UInt32} (h : v.toNat < 2 ^ 31) : itow v.toInt32 = decimal v.toNat := by
  have hint : v.toInt32.toInt = v.toNat := by
    have hbmod : v.toInt32.toInt = (v.toNat : ℤ).bmod (2 ^ 32) :=
      BitVec.toInt_eq_toNat_bmod v.toBitVec
    rw [hbmod, Int.bmod_def]
    omega
  rw [itow_eq, hint, decimal_eq_numeral]

theorem octetTexts_eq (iVal : UInt32) :
    ((List.range' 0 4).map fun i => itow (CSnmpTrapVar.ipOctet iVal i).toInt32) =
      [decimal (iVal.toNat / 2 ^ 24), wcs "0", wcs "0", wcs "0"] := by
  have hlt := iVal.toNat_lt
  have hfirst : itow (CSnmpTrapVar.ipOctet iVal 0).toInt32 = decimal (iVal.toNat / 2 ^ 24) := by
    rw [itow_toInt32, toNat_ipOctet_zero]
    rw [toNat_ipOctet_zero]
    omega
  have hzero : itow (0 : UInt32).toInt32 = wcs "0" := by decide
  simp only [List.range'_succ, List.range'_zero, List.map_cons, List.map_nil, hfirst,
    ipOctet_succ iVal (i := 0) (by decide), ipOctet_succ iVal (i := 1) (by decide),
    ipOctet_succ iVal (i := 2) (by decide), hzero]

theorem addressStep_pos (iVal : UInt32) : 1 ≤ addressStep iVal := by
  rw [addressStep]
  split_ifs
  · decide
  · decide
  · exact le_rfl

theorem addressStep_eq (iVal : UInt32) :
    addressStep iVal = if 100 ≤ iVal.toNat then 3 else if 10 ≤ iVal.toNat then 2 else 1 := by
  have hhundred : iVal ≥ 100 ↔ 100 ≤ iVal.toNat := UInt32.le_iff_toNat_le
  have hten : iVal ≥ 10 ↔ 10 ≤ iVal.toNat := UInt32.le_iff_toNat_le
  simp only [addressStep, hhundred, hten]

theorem addressStep_eq_one_iff (iVal : UInt32) : addressStep iVal = 1 ↔ iVal.toNat < 10 := by
  rw [addressStep_eq]
  split_ifs
  · omega
  · omega
  · omega

theorem length_firstOctet_le (iVal : UInt32) :
    (decimal (iVal.toNat / 2 ^ 24)).length ≤ addressStep iVal := by
  have hlt := iVal.toNat_lt
  rw [length_decimal_le_iff (addressStep_pos iVal)]
  by_cases h : 100 ≤ iVal.toNat
  · rw [addressStep_eq, if_pos h]
    omega
  · have hzero : iVal.toNat / 2 ^ 24 = 0 := by omega
    rw [hzero]
    positivity

theorem toWcs_address (raw : ℕ → WChar) {var : CSnmpTrapVar}
    (htype : var.iValueType = SNMP_TYPE_IPADDR) :
    ∃ wcsTmpVal, var.toWcs raw = .array wcsTmpVal ∧ wcsTmpVal.size = 16 ∧ wcsTmpVal.Inside ∧
      wcsTmpVal.text = [CSnmpOid.dot].intercalate (CharArray.visible (addressStep var.iVal)
        [decimal (var.iVal.toNat / 2 ^ 24), wcs "0", wcs "0", wcs "0"]) := by
  have hstep := addressStep_pos var.iVal
  have hstepLe : addressStep var.iVal ≤ 3 := by
    rw [addressStep]
    split_ifs
    · decide
    · decide
    · decide
  have hloop := ipLoop_eq_fields var.iVal (Nat.le_refl 4) (CharArray.new 16 raw) 0
  rw [Nat.sub_self, octetTexts_eq] at hloop
  have hinside : (CharArray.new 16 raw).Inside := by
    intro i hi
    cases hi
  have hle : ∀ t ∈ [decimal (var.iVal.toNat / 2 ^ 24), wcs "0", wcs "0", wcs "0"],
      t.length ≤ addressStep var.iVal := by
    simp only [List.forall_mem_cons]
    exact ⟨length_firstOctet_le var.iVal, hstep, hstep, hstep, by simp⟩
  have hzero : ∀ t ∈ [decimal (var.iVal.toNat / 2 ^ 24), wcs "0", wcs "0", wcs "0"],
      (0 : WChar) ∉ t := by
    simp only [List.forall_mem_cons]
    exact ⟨notMem_decimal (by decide) _, by decide, by decide, by decide, by simp⟩
  have hroom : 0 + 4 * (addressStep var.iVal + 1) ≤ (CharArray.new 16 raw).size := by
    change _ ≤ 16
    omega
  refine ⟨CharArray.closed (CSnmpTrapVar.ipLoop var.iVal 4 (CharArray.new 16 raw) 0), ?_, ?_, ?_, ?_⟩
  · rw [CSnmpTrapVar.toWcs, htype]
    rfl
  · change (CSnmpTrapVar.ipLoop var.iVal 4 (CharArray.new 16 raw) 0).1.size = 16
    rw [hloop, CharArray.size_fields]
    rfl
  · rw [hloop]
    exact CharArray.inside_closed hinside hle (List.cons_ne_nil _ _) hroom
  · rw [hloop]
    exact CharArray.text_closed_fields (CharArray.startsWith_nil _) (by decide) List.not_mem_nil
      hzero hle (List.cons_ne_nil _ _) hroom

theorem intercalate_dot_injective {ss ts : List WStr} (hss : ∀ s ∈ ss, CSnmpOid.dot ∉ s)
    (hts : ∀ t ∈ ts, CSnmpOid.dot ∉ t) (hs : ss ≠ []) (ht : ts ≠ [])
    (h : [CSnmpOid.dot].intercalate ss = [CSnmpOid.dot].intercalate ts) : ss = ts := by
  calc
    ss = ([CSnmpOid.dot].intercalate ss).splitOn CSnmpOid.dot :=
      (List.splitOn_intercalate _ hss hs).symm
    _ = ([CSnmpOid.dot].intercalate ts).splitOn CSnmpOid.dot := by rw [h]
    _ = ts := List.splitOn_intercalate _ hts ht

theorem toNat_uint32Of_octets (a b c d : UInt8) :
    (uint32Of [a, b, c, d]).toNat = ((a.toNat * 256 + b.toNat) * 256 + c.toNat) * 256 + d.toNat := by
  have hlen : [a, b, c, d].length ≤ 4 := le_rfl
  rw [toNat_uint32Of_of_length_le hlen, octetsValue]
  simp [horner]

theorem visible_eq_octets_iff (a b c d : UInt8) :
    CharArray.visible (addressStep (uint32Of [a, b, c, d]))
        [decimal ((uint32Of [a, b, c, d]).toNat / 2 ^ 24), wcs "0", wcs "0", wcs "0"] =
      [decimal a.toNat, decimal b.toNat, decimal c.toNat, decimal d.toNat] ↔
    a = 0 ∧ b = 0 ∧ c = 0 ∧ d = 0 := by
  have hvalue := toNat_uint32Of_octets a b c d
  by_cases hstep : addressStep (uint32Of [a, b, c, d]) = 1
  · have hten := (addressStep_eq_one_iff _).mp hstep
    have hfirst : (uint32Of [a, b, c, d]).toNat / 2 ^ 24 = 0 := by omega
    have hall : CharArray.visible 1 [decimal 0, wcs "0", wcs "0", wcs "0"] =
        [decimal 0, decimal 0, decimal 0, decimal 0] := by decide
    rw [hstep, hfirst, hall]
    simp only [List.cons.injEq, decimal_injective.eq_iff, and_true, ← UInt8.toNat_inj,
      UInt8.toNat_zero, eq_comm (a := 0)]
  · apply iff_of_false
    · intro heq
      have hlen := congrArg List.length heq
      have hzero : ¬ (wcs "0").length = addressStep (uint32Of [a, b, c, d]) := Ne.symm hstep
      rw [CharArray.visible, CharArray.visible, if_neg hzero] at hlen
      split_ifs at hlen
      · simp at hlen
      · simp at hlen
    · rintro ⟨rfl, rfl, rfl, rfl⟩
      exact hstep rfl

theorem showsAddress_iff (raw : ℕ → WChar) (a b c d : UInt8) {var : CSnmpTrapVar}
    (htype : var.iValueType = SNMP_TYPE_IPADDR) (hval : var.iVal = uint32Of [a, b, c, d]) :
    ShowsAddress [a, b, c, d] (var.toWcs raw) ↔ a = 0 ∧ b = 0 ∧ c = 0 ∧ d = 0 := by
  obtain ⟨wcsTmpVal, harray, hsize, hinside, htext⟩ := toWcs_address raw htype
  have hzeroDot : CSnmpOid.dot ∉ wcs "0" := by decide
  have hdecimal : ∀ n, CSnmpOid.dot ∉ decimal n := notMem_decimal (by decide)
  have hwritten : ∀ t ∈ [decimal (var.iVal.toNat / 2 ^ 24), wcs "0", wcs "0", wcs "0"],
      CSnmpOid.dot ∉ t := by
    simp only [List.forall_mem_cons]
    exact ⟨hdecimal _, hzeroDot, hzeroDot, hzeroDot, by simp⟩
  have hoctets : ∀ t ∈ [decimal a.toNat, decimal b.toNat, decimal c.toNat, decimal d.toNat],
      CSnmpOid.dot ∉ t := by
    simp only [List.forall_mem_cons]
    exact ⟨hdecimal _, hdecimal _, hdecimal _, hdecimal _, by simp⟩
  rw [← visible_eq_octets_iff, ← hval]
  constructor
  · rintro ⟨wcsTmpVal', harray', _, _, hdotted⟩
    obtain rfl := Conversion.array.inj (harray.symm.trans harray')
    rw [htext] at hdotted
    exact intercalate_dot_injective (fun t ht => hwritten t (CharArray.mem_of_mem_visible ht))
      hoctets (CharArray.visible_ne_nil (List.cons_ne_nil _ _)) (List.cons_ne_nil _ _) hdotted
  · intro hvisible
    refine ⟨wcsTmpVal, harray, hsize, hinside, ?_⟩
    rw [htext, hvisible]
    rfl

variable {mem : Memory} {p : ℕ} {nameContent name value binding : List UInt8}

theorem decodeValue_address {newVar : CSnmpTrapVar} {content bs : List UInt8}
    (h : IsElement IsDefiniteLength SNMP_TYPE_IPADDR content bs) (hmem : HoldsAt mem p bs)
    (hlt : content.length < 2 ^ 32) :
    Accepts (decodeValue newVar SNMP_TYPE_IPADDR) mem (some p)
      { newVar with iVal := uint32Of content } (some (p + bs.length)) := by
  obtain ⟨q, hq, hbody, hdecode⟩ := exists_content h hmem hlt
  have hip : Accepts (parseIP (UInt32.ofNat content.length)) mem (some q) (uint32Of content)
      (some (p + bs.length)) := by
    rw [accepts_parseIP, toNat_contentLength hlt, hbody, hq]
    exact ⟨rfl, rfl⟩
  exact (hdecode _ _ _).mpr (hip.bind (accepts_pure.mpr ⟨rfl, rfl⟩))

/-- Only the address of four zeros is printed as its octets. -/
theorem varbind_address_iff (raw : ℕ → WChar) (a b c d : UInt8)
    (hname : IsElement IsDefiniteLength SNMP_TYPE_OID nameContent name)
    (hvalue : IsElement IsDefiniteLength SNMP_TYPE_IPADDR [a, b, c, d] value)
    (hbinding : IsElement IsDefiniteLength SNMP_TYPE_SEQ (name ++ value) binding)
    (hmem : HoldsAt mem p binding) (hlen : binding.length < 2 ^ 32) :
    (∃ var, Accepts decodeVarbind mem (some (p + 1)) var (some (p + binding.length)) ∧
        ShowsAddress [a, b, c, d] (var.toWcs raw)) ↔
      a = 0 ∧ b = 0 ∧ c = 0 ∧ d = 0 := by
  obtain ⟨q, oid, hq, hvalueMem, hdecode⟩ := decodeVarbind_iff hname hbinding hmem hlen
  have hvalueLen : ([a, b, c, d] : List UInt8).length < 2 ^ 32 := by
    change 4 < 2 ^ 32
    decide
  obtain ⟨_, htag, _⟩ := elementLength_accepts hvalue hvalueMem hvalueLen
  have haddress : Accepts (decodeValue { oid, iValueType := SNMP_TYPE_IPADDR } SNMP_TYPE_IPADDR)
      mem (some q)
      { oid, iValueType := SNMP_TYPE_IPADDR, iVal := uint32Of [a, b, c, d] }
      (some (p + binding.length)) := by
    rw [← hq]
    exact decodeValue_address hvalue hvalueMem hvalueLen
  have hshown : ShowsAddress [a, b, c, d] (CSnmpTrapVar.toWcs raw
        { oid, iValueType := SNMP_TYPE_IPADDR, iVal := uint32Of [a, b, c, d] }) ↔
      a = 0 ∧ b = 0 ∧ c = 0 ∧ d = 0 :=
    showsAddress_iff raw a b c d rfl rfl
  rw [← hshown]
  simp only [hdecode, htag]
  constructor
  · rintro ⟨var, hacc, hshows⟩
    obtain ⟨rfl, _⟩ := haddress.unique hacc
    exact hshows
  · intro hshows
    exact ⟨_, haddress, hshows⟩

/-- A binding of the address `0.0.0.0`. -/
theorem varbind_address_any :
    ∃ var, Accepts decodeVarbind
        (memoryOf [48, 11, 6, 3, 43, 6, 1, 64, 4, 0, 0, 0, 0] fun _ => 0) (some 1) var
        (some 13) ∧ ShowsAddress [0, 0, 0, 0] (var.toWcs fun _ => 0) :=
  have hname : IsElement IsDefiniteLength SNMP_TYPE_OID [43, 6, 1] [6, 3, 43, 6, 1] :=
    ⟨[3], .inl ⟨by decide, rfl⟩, rfl⟩
  have hvalue : IsElement IsDefiniteLength SNMP_TYPE_IPADDR [0, 0, 0, 0] [64, 4, 0, 0, 0, 0] :=
    ⟨[4], .inl ⟨by decide, rfl⟩, rfl⟩
  have hbinding : IsElement IsDefiniteLength SNMP_TYPE_SEQ
      ([6, 3, 43, 6, 1] ++ [64, 4, 0, 0, 0, 0]) [48, 11, 6, 3, 43, 6, 1, 64, 4, 0, 0, 0, 0] :=
    ⟨[11], .inl ⟨by decide, rfl⟩, rfl⟩
  (varbind_address_iff (fun _ => 0) 0 0 0 0 hname hvalue hbinding (holdsAt_memoryOf _ _)
    (by decide)).mpr ⟨rfl, rfl, rfl, rfl⟩

/-- A binding of the address `127.0.0.1`. -/
theorem loopback_not_shown :
    ¬ ∃ var, Accepts decodeVarbind
        (memoryOf [48, 11, 6, 3, 43, 6, 1, 64, 4, 127, 0, 0, 1] fun _ => 0) (some 1) var
        (some 13) ∧ ShowsAddress [127, 0, 0, 1] (var.toWcs fun _ => 0) := by
  rintro ⟨var, hacc, hshows⟩
  have hread : Accepts decodeVarbind
      (memoryOf [48, 11, 6, 3, 43, 6, 1, 64, 4, 127, 0, 0, 1] fun _ => 0) (some 1)
      { oid := .ofComponents [1, 3, 6, 1], iValueType := 64, iVal := 2130706433 } (some 13) := by
    decide +kernel
  obtain ⟨rfl, _⟩ := hread.unique hacc
  obtain ⟨hzero, _⟩ := (showsAddress_iff (fun _ => 0) 127 0 0 1 rfl rfl).mp hshows
  exact absurd hzero (by decide)

end TrapHandler
