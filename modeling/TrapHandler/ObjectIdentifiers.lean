import TrapHandler.FieldParsing

/-!
# Object identifiers in packets

The first sub-identifier of an encoded object identifier stands for two components. `ParseOid`
splits it where it is `0x2b`, the value of the prefix `1.3`, and keeps every other one as it is.
-/

namespace Ber

/-- An object identifier of at least two components, with sub-identifiers of 32 bits. -/
structure ObjectIdentifier where
  first : ℕ
  second : ℕ
  rest : List ℕ
  first_le : first ≤ 2
  second_le : first < 2 → second ≤ 39
  head_lt : 40 * first + second < 2 ^ 32
  rest_lt : ∀ n ∈ rest, n < 2 ^ 32

namespace ObjectIdentifier

def components (o : ObjectIdentifier) : List ℕ := o.first :: o.second :: o.rest

def subIdentifiers (o : ObjectIdentifier) : List ℕ := (40 * o.first + o.second) :: o.rest

def content (o : ObjectIdentifier) : List UInt8 := oidOctets o.first o.second o.rest

theorem content_eq (o : ObjectIdentifier) : o.content = o.subIdentifiers.flatMap subIdentifier := by
  rw [content, oidOctets, subIdentifiers, List.flatMap_cons]

theorem subIdentifiers_lt (o : ObjectIdentifier) : ∀ n ∈ o.subIdentifiers, n < 2 ^ 32 :=
  List.forall_mem_cons.mpr ⟨o.head_lt, o.rest_lt⟩

/-- Only the prefix `1.3` has the first sub-identifier 43. -/
theorem head_eq_iff (o : ObjectIdentifier) :
    40 * o.first + o.second = 43 ↔ o.first = 1 ∧ o.second = 3 := by
  have hfirst := o.first_le
  constructor
  · intro h
    by_cases hone : o.first < 2
    · have hsecond := o.second_le hone
      omega
    · omega
  · rintro ⟨h₁, h₂⟩
    rw [h₁, h₂]

end ObjectIdentifier

end Ber

namespace TrapHandler

open ByteReader Ber

theorem map_toNat_subIdentifierOf {ns : List ℕ} (h : ∀ n ∈ ns, n < 2 ^ 32) :
    ((ns.map subIdentifier).map subIdentifierOf).map UInt32.toNat = ns := by
  induction ns with
  | nil => rfl
  | cons n ns ih =>
    obtain ⟨hn, hns⟩ := List.forall_mem_cons.mp h
    rw [List.map_cons, List.map_cons, List.map_cons, ih hns, toNat_subIdentifierOf,
      septetsValue_subIdentifier, Nat.mod_eq_of_lt hn]

theorem map_toNat_pushComponent (v : UInt32) :
    (pushComponent [] v).map UInt32.toNat = if v.toNat = 43 then [1, 3] else [v.toNat] := by
  have hiff : (v == 0x2b && ([] : List UInt32).length == 0) = true ↔ v.toNat = 43 := by
    rw [List.length_nil, beq_self_eq_true, Bool.and_true, beq_iff_eq, ← UInt32.toNat_inj]
    exact Iff.rfl
  rw [pushComponent]
  by_cases hv : v.toNat = 43
  · rw [if_pos (hiff.mpr hv), if_pos hv]
    rfl
  · rw [if_neg (fun h => hv (hiff.mp h)), if_neg hv]
    rfl

theorem pushComponent_ne_nil (oids : List UInt32) (v : UInt32) : pushComponent oids v ≠ [] := by
  rw [pushComponent]
  split_ifs
  · exact List.cons_ne_nil _ _
  · exact List.append_ne_nil_of_right_ne_nil _ (List.cons_ne_nil _ _)

theorem oidOf_content (o : ObjectIdentifier) :
    (oidOf o.content).map UInt32.toNat =
      if 40 * o.first + o.second = 43 then 1 :: 3 :: o.rest else o.subIdentifiers := by
  have hvalues := map_toNat_subIdentifierOf o.subIdentifiers_lt
  rw [ObjectIdentifier.subIdentifiers, List.map_cons, List.map_cons, List.map_cons] at hvalues
  obtain ⟨hhead, hrest⟩ := List.cons.inj hvalues
  rw [oidOf, ObjectIdentifier.content_eq, splitSubIdentifiers_flatMap,
    ObjectIdentifier.subIdentifiers, List.map_cons, List.map_cons, List.foldl_cons,
    foldl_pushComponent_of_ne_nil (pushComponent_ne_nil _ _), List.map_append, hrest,
    map_toNat_pushComponent, hhead]
  split_ifs
  · rfl
  · rfl

theorem oidOf_content_eq_iff (o : ObjectIdentifier) :
    (oidOf o.content).map UInt32.toNat = o.components ↔ o.first = 1 ∧ o.second = 3 := by
  rw [oidOf_content, ← o.head_eq_iff]
  by_cases h : 40 * o.first + o.second = 43
  · obtain ⟨hfirst, hsecond⟩ := o.head_eq_iff.mp h
    rw [if_pos h, ObjectIdentifier.components, hfirst, hsecond]
    exact iff_of_true rfl rfl
  · rw [if_neg h]
    have hlength : o.subIdentifiers.length ≠ o.components.length := by
      rw [ObjectIdentifier.subIdentifiers, ObjectIdentifier.components]
      simp only [List.length_cons]
      omega
    exact iff_of_false (fun heq => hlength (congrArg List.length heq)) h

/-- The parser moves over the field in any case, and gives back the components exactly if they begin
with `1.3`. -/
theorem parseOid_recovers_iff (o : ObjectIdentifier) (val : CSnmpOid) {mem : Memory} {p : ℕ}
    {fieldLen : UInt32} (hmem : HoldsAt mem p o.content)
    (hlen : fieldLen.toNat = o.content.length) :
    (∃ oid, Accepts (parseOid val fieldLen) mem (some p) oid (some (p + fieldLen.toNat)) ∧
        oid.components.map UInt32.toNat = o.components) ↔
      o.first = 1 ∧ o.second = 3 := by
  have hslice : slice mem p fieldLen.toNat = o.content := by
    rw [hlen]
    exact hmem
  rw [← oidOf_content_eq_iff, ← hslice]
  constructor
  · rintro ⟨oid, hacc, hcomponents⟩
    obtain ⟨rfl, _⟩ := accepts_parseOid.mp hacc
    exact hcomponents
  · intro h
    exact ⟨_, accepts_parseOid.mpr ⟨rfl, rfl⟩, h⟩

/-- The prefix of the management objects, `1.3.6.1.2`. -/
def mgmt : ObjectIdentifier where
  first := 1
  second := 3
  rest := [6, 1, 2]
  first_le := by decide
  second_le := by decide
  head_lt := by decide
  rest_lt := by decide

theorem parseOid_recovers_mgmt :
    ∃ oid, Accepts (parseOid {} 4) (memoryOf mgmt.content fun _ => 0) (some 0) oid (some 4) ∧
      oid.components.map UInt32.toNat = [1, 3, 6, 1, 2] :=
  (parseOid_recovers_iff mgmt {} (p := 0) (holdsAt_memoryOf _ _) (by decide +kernel)).mpr ⟨rfl, rfl⟩

/-- An identifier of a member body, `1.2.840`. -/
def memberBody : ObjectIdentifier where
  first := 1
  second := 2
  rest := [840]
  first_le := by decide
  second_le := by decide
  head_lt := by decide
  rest_lt := by decide

/-- It is read as the two components `42.840`. -/
theorem memberBody_not_recovered :
    ¬ ∃ oid, Accepts (parseOid {} 3) (memoryOf memberBody.content fun _ => 0) (some 0) oid
        (some 3) ∧
      oid.components.map UInt32.toNat = memberBody.components := by
  rintro ⟨oid, hacc, hcomponents⟩
  obtain ⟨rfl, _⟩ := accepts_parseOid.mp hacc
  revert hcomponents
  decide +kernel

end TrapHandler
