import TrapHandler.FieldParsing

/-!
# Texts of octet strings

`ParseStr` assigns each `char` of a string to a `wchar_t`, which extends its sign. An octet below 128
keeps its value, and one from 128 on becomes a character from 65408 on. Different strings still have
different texts.
-/

namespace TrapHandler

open ByteReader ByteReader.Reader CharArray

/-- The stores of `ParseStr`, from index `i` on. -/
def storeStr (strVal : CharArray WChar) (i : ℕ) : List UInt8 → CharArray WChar
  | [] => strVal.store i 0
  | b :: asn1Data => storeStr (strVal.store i (charToWChar b)) (i + 1) asn1Data

structure OctetString where
  octets : List UInt8
  zero_notMem : 0 ∉ octets

namespace OctetString

/-- The array the caller allocates, with the string in it. -/
def stored (raw : ℕ → WChar) (s : OctetString) : CharArray WChar :=
  storeStr (CharArray.new (s.octets.length + 1) raw) 0 s.octets

/-- The characters that are stored are the octets in their order, followed by the terminator, and no
other string has this text. -/
structure KeepsOctets (s : OctetString) : Prop where
  stores : ∀ raw, (s.stored raw).stores = List.range (s.octets.length + 1)
  cells : ∀ raw, (s.stored raw).StartsWith (s.octets.map UInt8.toUInt16 ++ [0])
  distinct : ∀ (other : OctetString) raw, (other.stored raw).text = (s.stored raw).text → other = s

theorem charToWChar_injective : Function.Injective charToWChar := by
  have all : ∀ n : Fin 256, (charToWChar (UInt8.ofNat n)).toUInt8 = UInt8.ofNat n := by
    decide +kernel
  have hleft : Function.LeftInverse UInt16.toUInt8 charToWChar := by
    intro b
    have h := all ⟨b.toNat, b.toNat_lt⟩
    rwa [UInt8.ofNat_toNat] at h
  exact hleft.injective

theorem charToWChar_eq_iff (b : UInt8) : charToWChar b = b.toUInt16 ↔ b < 128 := by
  constructor
  · intro h
    have all : ∀ n : Fin 256, charToWChar (UInt8.ofNat n) = (UInt8.ofNat n).toUInt16 →
        UInt8.ofNat n < 128 := by decide +kernel
    have hb := all ⟨b.toNat, b.toNat_lt⟩
    rw [UInt8.ofNat_toNat] at hb
    exact hb h
  · exact charToWChar_of_lt

theorem charToWChar_eq_zero_iff (b : UInt8) : charToWChar b = 0 ↔ b = 0 := by
  rw [← charToWChar_injective.eq_iff (b := 0)]
  rfl

theorem startsWith_unique {a : CharArray WChar} {s t : WStr} (hs : a.StartsWith s)
    (ht : a.StartsWith t) (hlen : s.length = t.length) : s = t := by
  apply List.ext_getElem hlen
  intro i his hit
  rw [← hs i his, ← ht i hit]

theorem storeStr_eq (a : CharArray WChar) (i : ℕ) (octets : List UInt8) :
    storeStr a i octets = a.copyAt i (wideOf octets) := by
  induction octets generalizing a i with
  | nil => rfl
  | cons b octets ih => exact ih _ _

theorem stores_storeStr (a : CharArray WChar) (i : ℕ) (octets : List UInt8) :
    (storeStr a i octets).stores = a.stores ++ List.range' i (octets.length + 1) := by
  induction octets generalizing a i with
  | nil => rfl
  | cons b octets ih =>
    rw [storeStr, ih, List.length_cons, List.range'_succ]
    exact List.append_assoc _ _ _

variable (raw : ℕ → WChar) (s : OctetString)

theorem zero_notMem_wideOf : (0 : WChar) ∉ wideOf s.octets := by
  intro h
  obtain ⟨b, hb, hzero⟩ := List.mem_map.mp h
  rw [charToWChar_eq_zero_iff] at hzero
  exact s.zero_notMem (hzero ▸ hb)

theorem startsWith_stored : (s.stored raw).StartsWith (wideOf s.octets ++ [0]) := by
  have h := (startsWith_nil (CharArray.new (s.octets.length + 1) raw)).copyAt (wideOf s.octets)
  rw [stored, storeStr_eq]
  exact h

theorem text_stored : (s.stored raw).text = wideOf s.octets := by
  apply (s.startsWith_stored raw).text s.zero_notMem_wideOf
  rw [stored, storeStr_eq, size_copyAt, wideOf, List.length_map]
  exact Nat.lt_succ_self _

theorem accepts_parseStr_stored {mem : Memory} {p : ℕ} {fieldLen : UInt32} {str : WStr}
    (h : slice mem p fieldLen.toNat = s.octets) :
    Accepts (parseStr fieldLen) mem (some p) str (some (p + fieldLen.toNat)) ↔
      str = (s.stored raw).text := by
  rw [accepts_parseStr, h, text_stored, and_iff_left rfl]

def storeIndices (accesses : List Access) : List ℕ :=
  accesses.filterMap fun
    | .store index _ => some index
    | _ => none

theorem storeIndices_parseStrLoop (mem : Memory) (size left p : ℕ) (str : WStr) :
    storeIndices (parseStrLoop size left str mem (some p)).accesses =
      List.range' str.length (left + 1) := by
  induction left generalizing p str with
  | zero => rfl
  | succ left ih =>
    have hloop : (parseStrLoop size (left + 1) str mem (some p)).accesses =
        .load (some p) :: .store str.length size ::
          (parseStrLoop size left (str ++ [charToWChar (mem p)]) mem (some (p + 1))).accesses := rfl
    have htail := ih (p + 1) (str ++ [charToWChar (mem p)])
    rw [List.length_append, List.length_singleton] at htail
    rw [hloop, List.range'_succ, ← htail]
    rfl

theorem storeIndices_parseStr {mem : Memory} {p : ℕ} {fieldLen : UInt32}
    (h : slice mem p fieldLen.toNat = s.octets) :
    storeIndices (parseStr fieldLen mem (some p)).accesses = (s.stored raw).stores := by
  have hlen : s.octets.length = fieldLen.toNat := by
    rw [← h, length_slice]
  have hstr : storeIndices (parseStr fieldLen mem (some p)).accesses =
      storeIndices (parseStrLoop (fieldLen + 1).toNat fieldLen.toNat [] mem (some p)).accesses := rfl
  rw [hstr, storeIndices_parseStrLoop, stored, stores_storeStr, hlen]
  rfl

theorem eq_of_text {raw : ℕ → WChar} {s other : OctetString}
    (h : (other.stored raw).text = (s.stored raw).text) : other = s := by
  rw [text_stored, text_stored] at h
  have hoctets := List.map_injective_iff.mpr charToWChar_injective h
  cases other
  cases s
  cases hoctets
  rfl

/-- A string is stored octet by octet exactly if all of its octets are below 128. -/
theorem keepsOctets_iff (s : OctetString) : s.KeepsOctets ↔ ∀ b ∈ s.octets, b < 128 := by
  constructor
  · intro h
    have hlen : (wideOf s.octets ++ [0]).length =
        (s.octets.map UInt8.toUInt16 ++ [0]).length := by
      rw [List.length_append, List.length_append, wideOf, List.length_map, List.length_map]
    have heq := startsWith_unique (s.startsWith_stored fun _ => 0) (h.cells fun _ => 0) hlen
    rw [List.append_left_inj, wideOf, List.map_inj_left] at heq
    intro b hb
    exact (charToWChar_eq_iff b).mp (heq b hb)
  · intro h
    have hwide : wideOf s.octets = s.octets.map UInt8.toUInt16 :=
      List.map_congr_left fun b hb => charToWChar_of_lt (h b hb)
    constructor
    · intro raw
      rw [stored, stores_storeStr, List.range_eq_range']
      rfl
    · intro raw
      rw [← hwide]
      exact s.startsWith_stored raw
    · intro other raw htext
      exact eq_of_text htext

def letter : OctetString where
  octets := [0xE6]
  zero_notMem := by decide

theorem letter_not_keepsOctets : ¬ letter.KeepsOctets := by
  intro h
  have hcell := h.cells (fun _ => 0) 0 (by decide)
  revert hcell
  decide

end OctetString

end TrapHandler
