import TrapHandler.AcceptedLayout
import TrapHandler.Stretches

/-!
# Which datagrams are decoded without leaving the buffer

The decoder compares no field with the end of the datagram, so it stays inside exactly if the datagram
begins with whole fields of the layout and, behind them, octets that stop the decoder: a byte the
layout does not have there, a length of the envelope or of the version that is refused, or the head of
a text or an identifier for which there is no memory.
-/

namespace TrapHandler

open ByteReader ByteReader.Reader Ber CSnmpTrap

variable {α β : Type} {mem : Memory} {new : ℕ → Bool} {n p : ℕ} {walk : Walk}

namespace Refusal

open Stretch

/-- A field of a length that is `accepted`, or the head of one that is `refused`. -/
def typed (tag : UInt8) (accepted refused : UInt32 → Prop) : Stretch where
  whole := {w | ∃ fieldLen h content, accepted fieldLen ∧ h ∈ Layout.head tag fieldLen ∧
    content.length = fieldLen.toNat ∧ w = h ++ content}
  stopped := {w | ∃ fieldLen, refused fieldLen ∧ w ∈ Layout.head tag fieldLen}

def field (tag : UInt8) (accepted refused : UInt32 → Prop) : Stretch :=
  wrong [tag] + typed tag accepted refused

/-- An integer that is longer than its parser takes is neither accepted nor refused: behind it the
decoder goes on at the null pointer. -/
def integer (tag : UInt8) (limit : ℕ) : Stretch :=
  field tag (fun fieldLen => fieldLen.toNat ≤ limit) fun _ => False

def version : Stretch :=
  field SNMP_TYPE_INT (fun fieldLen => fieldLen ≤ 4) fun fieldLen => ¬ fieldLen ≤ 4

/-- There is memory for one element more than the field has octets, counted in 32 bits. -/
def Room (new : ℕ → Bool) (width : ℕ) (fieldLen : UInt32) : Prop :=
  new (width * (fieldLen + 1).toNat) = true

def container (tag : UInt8) : Stretch :=
  wrong [tag] + ⟨Layout.container tag, 0⟩

def fixed (tag l : UInt8) : Stretch :=
  wrong [tag] +
    { whole := {w | ∃ content, content.length = l.toNat ∧ w = tag :: l :: content}
      stopped := {w | ∃ b, b ≠ l ∧ w = [tag, b]} }

/-- The length of the envelope is that of the rest of a datagram of `n` bytes. -/
def envelope (n : ℕ) : Stretch :=
  wrong [SNMP_TYPE_SEQ] +
    { whole := {w | ∃ fieldLen, w ∈ Layout.head SNMP_TYPE_SEQ fieldLen ∧
        w.length + fieldLen.toNat = n}
      stopped := {w | ∃ fieldLen, w ∈ Layout.head SNMP_TYPE_SEQ fieldLen ∧
        w.length + fieldLen.toNat ≠ n} }

/-- The value of a truth value is looked for in the second octet behind the head. -/
def bool : Stretch where
  whole := {w | ∃ fieldLen, ∃ h ∈ Layout.head SNMP_TYPE_BOOL fieldLen, ∃ a b, w = h ++ [a, b]}
  stopped := 0

def null : Stretch where
  whole := {w | ∃ b, w = [SNMP_TYPE_NULL, b]}
  stopped := 0

variable (new : ℕ → Bool)

def str : Stretch := field SNMP_TYPE_STR (Room new 2) fun fieldLen => ¬ Room new 2 fieldLen

def oid : Stretch := field SNMP_TYPE_OID (Room new 4) fun fieldLen => ¬ Room new 4 fieldLen

/-- The types of values. -/
def types : List UInt8 :=
  [SNMP_TYPE_BOOL, SNMP_TYPE_INT, SNMP_TYPE_TIME, SNMP_TYPE_STR, SNMP_TYPE_NULL, SNMP_TYPE_OID,
    SNMP_TYPE_IPADDR]

def value : Stretch :=
  wrong types + (bool +
    (typed SNMP_TYPE_INT (fun fieldLen => fieldLen.toNat ≤ 8) (fun _ => False) +
    (typed SNMP_TYPE_TIME (fun fieldLen => fieldLen.toNat ≤ 8) (fun _ => False) +
    (typed SNMP_TYPE_STR (Room new 2) (fun fieldLen => ¬ Room new 2 fieldLen) +
    (null +
    (typed SNMP_TYPE_OID (Room new 4) (fun fieldLen => ¬ Room new 4 fieldLen) +
    typed SNMP_TYPE_IPADDR (fun _ => True) (fun _ => False)))))))

def varbind : Stretch := container SNMP_TYPE_SEQ ++ (oid new ++ value new)

def v1 : Stretch :=
  oid new ++ (fixed SNMP_TYPE_IPADDR 4 ++ (fixed SNMP_TYPE_INT 1 ++ (integer SNMP_TYPE_INT 4 ++
    (integer SNMP_TYPE_TIME 8 ++ container SNMP_TYPE_SEQ))))

def v2 : Stretch :=
  integer SNMP_TYPE_INT 4 ++ (integer SNMP_TYPE_INT 4 ++ (integer SNMP_TYPE_INT 4 ++
    (container SNMP_TYPE_SEQ ++ (container SNMP_TYPE_SEQ ++ (oid new ++ (integer SNMP_TYPE_TIME 8 ++
      (container SNMP_TYPE_SEQ ++ (oid new ++ oid new))))))))

def requests : List UInt8 := [SNMP_V1TRAP, SNMP_V2INFORM, SNMP_V2TRAP]

/-- The request and what is behind its head, up to the octets that stop the decoder. -/
def request : Language UInt8 :=
  (wrong requests).stopped +
    (Layout.container SNMP_V1TRAP * (v1 new).andThen (varbind new).repeated +
      (Layout.container SNMP_V2INFORM + Layout.container SNMP_V2TRAP) *
        (v2 new).andThen (varbind new).repeated)

/-- The beginnings of datagrams of `n` bytes behind which nothing more is read. -/
def datagram (n : ℕ) : Language UInt8 :=
  (envelope n ++ (version ++ str new)).andThen (request new)

end Refusal

namespace Walk

open ByteReader.Walk

def lengthField (next : UInt32 → Walk) : Walk := fun bs =>
  ∃ ls fieldLen rest, LengthField ls fieldLen ∧ bs = ls ++ rest ∧ next fieldLen rest

/-- An element whose content the decoder enters. -/
def container (tag : UInt8) (next : Walk) : Walk := expect tag (lengthField fun _ => next)

/-- Behind a length field, where the content is read up to its end. -/
def typed (accepted refused : UInt32 → Prop) (next : Walk) (fieldLen : UInt32) : Walk := fun bs =>
  refused fieldLen ∨ accepted fieldLen ∧ content fieldLen.toNat next bs

def value (new : ℕ → Bool) (next : Walk) : Walk := byte fun b =>
  if b == SNMP_TYPE_BOOL then lengthField fun _ => content 2 next
  else if b == SNMP_TYPE_INT || b == SNMP_TYPE_TIME then
    lengthField (typed (fun fieldLen => fieldLen.toNat ≤ 8) (fun _ => False) next)
  else if b == SNMP_TYPE_STR then
    lengthField (typed (Refusal.Room new 2) (fun fieldLen => ¬ Refusal.Room new 2 fieldLen) next)
  else if b == SNMP_TYPE_NULL then skip 1 next
  else if b == SNMP_TYPE_OID then
    lengthField (typed (Refusal.Room new 4) (fun fieldLen => ¬ Refusal.Room new 4 fieldLen) next)
  else if b == SNMP_TYPE_IPADDR then lengthField (typed (fun _ => True) (fun _ => False) next)
  else stop

end Walk

namespace Refusal

open Stretch

variable {tag b : UInt8} {accepted refused : UInt32 → Prop} {bs : List UInt8} {next : Walk}

theorem exists_head (tag b : UInt8) (bs : List UInt8) (P : UInt32 → List UInt8 → Prop) :
    (∃ fieldLen, ∃ w ∈ Layout.head tag fieldLen, ∃ rest, b :: bs = w ++ rest ∧ P fieldLen rest) ↔
      b = tag ∧ Walk.lengthField P bs := by
  constructor
  · rintro ⟨fieldLen, _, ⟨ls, hls, rfl⟩, rest, heq, hrest⟩
    obtain ⟨rfl, rfl⟩ := List.cons.inj heq
    exact ⟨rfl, ls, fieldLen, rest, hls, rfl, hrest⟩
  · rintro ⟨rfl, ls, fieldLen, rest, hls, rfl, hrest⟩
    exact ⟨fieldLen, b :: ls, ⟨ls, hls, rfl⟩, rest, rfl, hrest⟩

theorem tagged_head {fieldLen : UInt32} {w : List UInt8} (hw : w ∈ Layout.head tag fieldLen) :
    ∃ v, w = tag :: v := by
  obtain ⟨ls, _, rfl⟩ := hw
  exact ⟨ls, rfl⟩

theorem tagged_typed : (typed tag accepted refused).Tagged tag := by
  constructor
  · rintro _ ⟨fieldLen, h, content, _, hh, _, rfl⟩
    obtain ⟨v, rfl⟩ := tagged_head hh
    exact ⟨v ++ content, rfl⟩
  · rintro w ⟨fieldLen, _, hw⟩
    exact tagged_head hw

theorem walk_typed_cons : (typed tag accepted refused).walk next (b :: bs) ↔
    b = tag ∧ Walk.lengthField (Walk.typed accepted refused next) bs := by
  rw [← exists_head]
  constructor
  · rintro (⟨w, ⟨fieldLen, hrefused, hw⟩, rest, heq⟩ |
      ⟨_, ⟨fieldLen, h, content, hacc, hh, hlen, rfl⟩, rest, heq, hrest⟩)
    · exact ⟨fieldLen, w, hw, rest, heq.symm, .inl hrefused⟩
    · refine ⟨fieldLen, h, hh, content ++ rest, by rw [heq, List.append_assoc], .inr ⟨hacc, ?_⟩⟩
      rw [ByteReader.Walk.content, ← hlen, List.drop_left, List.length_append]
      exact ⟨Nat.le_add_right _ _, hrest⟩
  · rintro ⟨fieldLen, w, hw, rest, heq, hrefused | ⟨hacc, hlen, hnext⟩⟩
    · exact .inl ⟨w, ⟨fieldLen, hrefused, hw⟩, rest, heq.symm⟩
    · refine .inr ⟨w ++ rest.take fieldLen.toNat, ⟨fieldLen, w, _, hacc, hw, ?_, rfl⟩,
        rest.drop fieldLen.toNat, ?_, hnext⟩
      · exact List.length_take_of_le hlen
      · rw [heq, List.append_assoc, List.take_append_drop]

/-- A stretch behind a byte that has to be `tag`. -/
theorem walk_wrong_add {s : Stretch} (h : s.Tagged tag) (body : Walk)
    (hcons : ∀ rest, bs = tag :: rest → (s.walk next bs ↔ body rest)) :
    (wrong [tag] + s).walk next bs ↔ ByteReader.Walk.expect tag body bs := by
  rw [walk_add]
  cases bs with
  | nil => exact iff_of_false (not_or.mpr ⟨not_walk_wrong_nil, not_walk_nil h⟩) id
  | cons b bs =>
    rw [walk_wrong_cons, List.mem_singleton, ByteReader.Walk.expect, ByteReader.Walk.byte]
    by_cases hb : b = tag
    · subst hb
      rw [if_pos (beq_self_eq_true b), hcons bs rfl]
      exact or_iff_right (not_not_intro rfl)
    · rw [if_neg (fun h => hb (beq_iff_eq.mp h))]
      exact iff_of_true (.inl hb) trivial

theorem walk_field : (field tag accepted refused).walk next =
    ByteReader.Walk.expect tag (Walk.lengthField (Walk.typed accepted refused next)) := by
  funext bs
  apply propext
  apply walk_wrong_add tagged_typed
  rintro bs rfl
  rw [walk_typed_cons, and_iff_right rfl]

theorem walk_head_cons {s : Stretch} (tag : UInt8) (ahead behind : UInt32 → List UInt8 → Prop)
    (hstopped : ∀ w, w ∈ s.stopped ↔ ∃ fieldLen, ahead fieldLen w ∧ w ∈ Layout.head tag fieldLen)
    (hwhole : ∀ w, w ∈ s.whole ↔ ∃ fieldLen, behind fieldLen w ∧ w ∈ Layout.head tag fieldLen) :
    s.walk next (tag :: bs) ↔ ∃ fieldLen, ∃ w ∈ Layout.head tag fieldLen, ∃ rest,
      tag :: bs = w ++ rest ∧ (ahead fieldLen w ∨ behind fieldLen w ∧ next rest) := by
  constructor
  · rintro (⟨w, hw, rest, heq⟩ | ⟨w, hw, rest, heq, hrest⟩)
    · obtain ⟨fieldLen, hahead, hw⟩ := (hstopped w).mp hw
      exact ⟨fieldLen, w, hw, rest, heq.symm, .inl hahead⟩
    · obtain ⟨fieldLen, hbehind, hw⟩ := (hwhole w).mp hw
      exact ⟨fieldLen, w, hw, rest, heq, .inr ⟨hbehind, hrest⟩⟩
  · rintro ⟨fieldLen, w, hw, rest, heq, hahead | ⟨hbehind, hrest⟩⟩
    · exact .inl ⟨w, (hstopped w).mpr ⟨fieldLen, hahead, hw⟩, rest, heq.symm⟩
    · exact .inr ⟨w, (hwhole w).mpr ⟨fieldLen, hbehind, hw⟩, rest, heq, hrest⟩

theorem walk_container : (container tag).walk next = Walk.container tag next := by
  funext bs
  apply propext
  apply walk_wrong_add
  · constructor
    · rintro w ⟨fieldLen, hw⟩
      exact tagged_head hw
    · intro w hw
      exact absurd hw (Language.notMem_zero w)
  · rintro bs rfl
    have hhead := exists_head tag tag bs fun _ => next
    rw [and_iff_right rfl] at hhead
    rw [← hhead, walk_head_cons tag (fun _ _ => False) fun _ _ => True]
    · simp only [false_or, true_and]
    · intro w
      simp only [false_and, exists_false, iff_false]
      exact Language.notMem_zero w
    · intro w
      simp only [true_and]
      exact Iff.rfl

theorem walk_envelope (h : bs.length = n) : (envelope n).walk next bs ↔
    ByteReader.Walk.expect SNMP_TYPE_SEQ (Walk.lengthField fun fieldLen rest =>
      fieldLen.toNat = rest.length → next rest) bs := by
  apply walk_wrong_add
  · constructor
    · rintro w ⟨fieldLen, hw, _⟩
      exact tagged_head hw
    · rintro w ⟨fieldLen, hw, _⟩
      exact tagged_head hw
  · rintro bs rfl
    have hhead := exists_head SNMP_TYPE_SEQ SNMP_TYPE_SEQ bs
      fun fieldLen rest => fieldLen.toNat = rest.length → next rest
    rw [and_iff_right rfl] at hhead
    rw [← hhead, walk_head_cons SNMP_TYPE_SEQ (fun fieldLen w => w.length + fieldLen.toNat ≠ n)
      fun fieldLen w => w.length + fieldLen.toNat = n]
    · refine exists_congr fun fieldLen => exists_congr fun w => and_congr_right fun _ =>
        exists_congr fun rest => and_congr_right fun heq => ?_
      have hlen : w.length + rest.length = n := by
        rw [← h, heq, List.length_append]
      have hiff : w.length + fieldLen.toNat = n ↔ fieldLen.toNat = rest.length := by omega
      rw [ne_eq, hiff]
      tauto
    · intro w
      exact exists_congr fun _ => and_comm
    · intro w
      exact exists_congr fun _ => and_comm

theorem walk_fixed {l : UInt8} : (fixed tag l).walk next =
    ByteReader.Walk.expect tag
      (ByteReader.Walk.expect l (ByteReader.Walk.content l.toNat next)) := by
  funext bs
  apply propext
  apply walk_wrong_add
  · constructor
    · rintro _ ⟨content, _, rfl⟩
      exact ⟨_, rfl⟩
    · rintro _ ⟨b, _, rfl⟩
      exact ⟨_, rfl⟩
  · rintro bs rfl
    constructor
    · rintro (⟨_, ⟨b, hb, rfl⟩, rest, heq⟩ | ⟨_, ⟨content, hlen, rfl⟩, rest, heq, hrest⟩)
      · obtain ⟨_, rfl⟩ := List.cons.inj heq
        simp [ByteReader.Walk.expect, ByteReader.Walk.byte, hb, ByteReader.Walk.stop]
      · obtain ⟨_, rfl⟩ := List.cons.inj heq
        simp [ByteReader.Walk.expect, ByteReader.Walk.byte, ByteReader.Walk.content, ← hlen, hrest]
    · intro hwalk
      cases bs with
      | nil => exact absurd hwalk id
      | cons b bs =>
        by_cases hb : b = l
        · subst hb
          rw [ByteReader.Walk.expect, ByteReader.Walk.byte, if_pos (beq_self_eq_true b)] at hwalk
          refine .inr ⟨tag :: b :: bs.take b.toNat, ⟨_, List.length_take_of_le hwalk.1, rfl⟩,
            bs.drop b.toNat, ?_, hwalk.2⟩
          simp
        · exact .inl ⟨[tag, b], ⟨b, hb, rfl⟩, bs, rfl⟩

theorem tagged_bool : bool.Tagged SNMP_TYPE_BOOL := by
  constructor
  · rintro _ ⟨fieldLen, h, hh, a, b, rfl⟩
    obtain ⟨v, rfl⟩ := tagged_head hh
    exact ⟨v ++ [a, b], rfl⟩
  · intro w hw
    exact absurd hw (Language.notMem_zero w)

theorem walk_bool_cons : bool.walk next (SNMP_TYPE_BOOL :: bs) ↔
    Walk.lengthField (fun _ => ByteReader.Walk.content 2 next) bs := by
  have hhead := exists_head SNMP_TYPE_BOOL SNMP_TYPE_BOOL bs fun _ =>
    ByteReader.Walk.content 2 next
  rw [and_iff_right rfl] at hhead
  rw [← hhead]
  constructor
  · rintro (⟨w, hw, _⟩ | ⟨_, ⟨fieldLen, h, hh, a, b, rfl⟩, rest, heq, hrest⟩)
    · exact absurd hw (Language.notMem_zero w)
    · refine ⟨fieldLen, h, hh, a :: b :: rest, by rw [heq, List.append_assoc]; rfl, ?_, hrest⟩
      simp
  · rintro ⟨fieldLen, h, hh, rest, heq, hlen, hrest⟩
    match rest, hlen, hrest with
    | a :: b :: rest, _, hrest =>
      exact .inr ⟨h ++ [a, b], ⟨fieldLen, h, hh, a, b, rfl⟩, rest, by rw [heq, List.append_assoc]; rfl,
        hrest⟩

theorem tagged_null : null.Tagged SNMP_TYPE_NULL := by
  constructor
  · rintro _ ⟨b, rfl⟩
    exact ⟨[b], rfl⟩
  · intro w hw
    exact absurd hw (Language.notMem_zero w)

theorem walk_null_cons (hnext : ¬ next []) : null.walk next (SNMP_TYPE_NULL :: bs) ↔
    ByteReader.Walk.skip 1 next bs := by
  constructor
  · rintro (⟨w, hw, _⟩ | ⟨_, ⟨b, rfl⟩, rest, heq, hrest⟩)
    · exact absurd hw (Language.notMem_zero w)
    · obtain ⟨_, rfl⟩ := List.cons.inj heq
      exact hrest
  · intro hwalk
    cases bs with
    | nil => exact absurd hwalk hnext
    | cons b bs => exact .inr ⟨[SNMP_TYPE_NULL, b], ⟨b, rfl⟩, bs, rfl, hwalk⟩

theorem walk_value (hnext : ¬ next []) : (value new).walk next = Walk.value new next := by
  funext bs
  apply propext
  simp only [value, walk_add]
  cases bs with
  | nil =>
    simp only [not_walk_wrong_nil, not_walk_nil tagged_bool, not_walk_nil tagged_null,
      not_walk_nil tagged_typed, or_self]
    exact Iff.rfl
  | cons b bs =>
    have hbool : bool.walk next (b :: bs) ↔ b = SNMP_TYPE_BOOL ∧
        Walk.lengthField (fun _ => ByteReader.Walk.content 2 next) bs := by
      constructor
      · intro h
        obtain rfl := eq_of_walk_cons tagged_bool h
        exact ⟨rfl, walk_bool_cons.mp h⟩
      · rintro ⟨rfl, h⟩
        exact walk_bool_cons.mpr h
    have hnull : null.walk next (b :: bs) ↔ b = SNMP_TYPE_NULL ∧
        ByteReader.Walk.skip 1 next bs := by
      constructor
      · intro h
        obtain rfl := eq_of_walk_cons tagged_null h
        exact ⟨rfl, (walk_null_cons hnext).mp h⟩
      · rintro ⟨rfl, h⟩
        exact (walk_null_cons hnext).mpr h
    rw [walk_wrong_cons, hbool, hnull]
    simp only [walk_typed_cons, Walk.value, ByteReader.Walk.byte]
    have htypes : b ∉ types ↔ b ≠ SNMP_TYPE_BOOL ∧ b ≠ SNMP_TYPE_INT ∧ b ≠ SNMP_TYPE_TIME ∧
        b ≠ SNMP_TYPE_STR ∧ b ≠ SNMP_TYPE_NULL ∧ b ≠ SNMP_TYPE_OID ∧ b ≠ SNMP_TYPE_IPADDR := by
      simp only [types, List.mem_cons, List.not_mem_nil, or_false, not_or, ne_eq]
    rw [htypes]
    split_ifs with hbool' hint hstr hnull' hoid hip
    · obtain rfl := beq_iff_eq.mp hbool'
      simp +decide only [true_and, false_and, false_or, or_false]
    · rcases (Bool.or_eq_true _ _).mp hint with h | h
      · obtain rfl := beq_iff_eq.mp h
        simp +decide only [true_and, false_and, false_or, or_false]
      · obtain rfl := beq_iff_eq.mp h
        simp +decide only [true_and, false_and, false_or, or_false]
    · obtain rfl := beq_iff_eq.mp hstr
      simp +decide only [true_and, false_and, false_or, or_false]
    · obtain rfl := beq_iff_eq.mp hnull'
      simp +decide only [true_and, false_and, false_or, or_false]
    · obtain rfl := beq_iff_eq.mp hoid
      simp +decide only [true_and, false_and, false_or, or_false]
    · obtain rfl := beq_iff_eq.mp hip
      simp +decide only [true_and, false_and, false_or]
    · refine iff_of_true (.inl ?_) trivial
      simp only [Bool.or_eq_true, not_or, beq_iff_eq] at hbool' hint hstr hnull' hoid hip
      exact ⟨hbool', hint.1, hint.2, hstr, hnull', hoid, hip⟩

def passes (new : ℕ → Bool) : ℕ → Walk
  | 0 => ByteReader.Walk.byte fun _ => ByteReader.Walk.stop
  | fuel + 1 => (varbind new).walk (passes new fuel)

theorem walk_varbind (next : Walk) : (varbind new).walk next =
    Walk.container SNMP_TYPE_SEQ ((oid new).walk ((value new).walk next)) := by
  rw [varbind, walk_append, walk_container, walk_append]

theorem not_passes_nil (fuel : ℕ) : ¬ passes new fuel [] := by
  cases fuel with
  | zero => exact id
  | succ fuel =>
    rw [passes, walk_varbind]
    exact id

theorem nil_notMem_stopped {s : Stretch} (h : ¬ s.walk (fun _ => False) []) : [] ∉ s.stopped :=
  fun hnil => h (.inl ⟨[], hnil, List.prefix_rfl⟩)

theorem nil_notMem_whole {s : Stretch} (h : ¬ s.walk (fun _ => True) []) : [] ∉ s.whole :=
  fun hnil => h (.inr ⟨[], hnil, [], rfl, trivial⟩)

theorem passes_iff {fuel : ℕ} (h : bs.length ≤ fuel) :
    passes new fuel bs ↔ Begins (varbind new).repeated bs := by
  have hnil : ∀ next : Walk, ¬ (varbind new).walk next [] := by
    intro next
    rw [walk_varbind]
    exact id
  exact begins_repeated_of_passes (nil_notMem_whole (hnil _)) (nil_notMem_stopped (hnil _)) id
    (fun _ => rfl) h

end Refusal

theorem consumes_parseStrLoop (size left : ℕ) (str : WStr) :
    ∃ s, Consumes (parseStrLoop size left str) mem p s left := by
  induction left generalizing p str with
  | zero => exact ⟨str, (consumes_pure str).store_bind str.length size⟩
  | succ left ih =>
    obtain ⟨s, hs⟩ := ih (p := p + 1) (str ++ [charToWChar (mem p)])
    exact ⟨s, Consumes.next_bind (hs.store_bind str.length size)⟩

theorem consumes_parseStr (fieldLen : UInt32) :
    ∃ s, Consumes (parseStr fieldLen) mem p s fieldLen.toNat := by
  obtain ⟨s, hs⟩ := consumes_parseStrLoop (fieldLen + 1).toNat fieldLen.toNat []
  exact ⟨s, Consumes.allocate_bind _ hs⟩

theorem consumes_parseSubIdentifier (left : ℕ) (tmpVal : UInt32) :
    ∃ k rest v, k + rest = left ∧ (0 < left → 0 < k) ∧
      Consumes (parseSubIdentifier left tmpVal) mem p (rest, v) k := by
  induction left generalizing p tmpVal with
  | zero => exact ⟨0, 0, tmpVal, rfl, id, consumes_pure _⟩
  | succ left ih =>
    by_cases hb : (mem p &&& 0x80 != 0x80) = true
    · refine ⟨1, left, shiftSeptet tmpVal (mem p), Nat.add_comm 1 left, fun _ => Nat.one_pos, ?_⟩
      apply Consumes.next_bind
      rw [if_pos hb]
      exact consumes_pure _
    · obtain ⟨k, rest, v, hk, _, hrest⟩ := ih (p := p + 1) (shiftSeptet tmpVal (mem p))
      refine ⟨k + 1, rest, v, by omega, fun _ => k.succ_pos, ?_⟩
      apply Consumes.next_bind
      rw [if_neg hb]
      exact hrest

theorem consumes_parseOidLoop (size : ℕ) {fuel left : ℕ} (h : left ≤ fuel) (oids : List UInt32) :
    ∃ out, Consumes (parseOidLoop size fuel left oids) mem p out left := by
  induction fuel generalizing left p oids with
  | zero =>
    obtain rfl : left = 0 := by omega
    exact ⟨oids, consumes_pure oids⟩
  | succ fuel ih =>
    cases left with
    | zero => exact ⟨oids, consumes_pure oids⟩
    | succ left =>
      obtain ⟨k, rest, v, hk, hpos, hfirst⟩ :=
        consumes_parseSubIdentifier (p := p) (left + 1) 0
      have hwhole : ∃ out,
          Consumes (parseOidLoop size (fuel + 1) (left + 1) oids) mem p out (k + rest) := by
        by_cases hv : (v == 0x2b && oids.length == 0) = true
        · obtain ⟨out, hout⟩ := ih (p := p + k) (show rest ≤ fuel by omega) [1, 3]
          refine ⟨out, hfirst.bind ?_⟩
          dsimp only
          rw [if_pos hv]
          exact (hout.store_bind 1 size).store_bind 0 size
        · obtain ⟨out, hout⟩ := ih (p := p + k) (show rest ≤ fuel by omega) (oids ++ [v])
          refine ⟨out, hfirst.bind ?_⟩
          dsimp only
          rw [if_neg hv]
          exact hout.store_bind oids.length size
      rwa [hk] at hwhole

theorem consumes_parseOid (val : CSnmpOid) (fieldLen : UInt32) :
    ∃ oid, Consumes (parseOid val fieldLen) mem p oid fieldLen.toNat := by
  obtain ⟨oids, hoids⟩ := consumes_parseOidLoop (fieldLen + 1).toNat (le_refl fieldLen.toNat) []
  refine ⟨{ val with oids := some oids }, ?_⟩
  exact Consumes.allocate_bind _ (hoids.bind (k := 0) (consumes_pure _))

theorem quiet_getFieldLength : Quiet getFieldLength := by
  apply quiet_bind quiet_next
  intro b
  split_ifs
  · exact quiet_pure _
  · exact quiet_foldBytes shiftOctet _ 0

theorem quiet_parseInt (val fieldLen : UInt32) : Quiet (parseInt val fieldLen) := by
  rw [parseInt]
  split_ifs
  · exact quiet_bind (quiet_setCursor none) fun _ => quiet_pure val
  · exact quiet_foldBytes shiftOctet _ 0

theorem quiet_parseBigInt (val : UInt64) (fieldLen : UInt32) : Quiet (parseBigInt val fieldLen) := by
  rw [parseBigInt]
  split_ifs
  · exact quiet_bind (quiet_setCursor none) fun _ => quiet_pure val
  · exact quiet_foldBytes shiftOctet64 _ 0

theorem quiet_parseTime (val : UInt64) (fieldLen : UInt32) : Quiet (parseTime val fieldLen) := by
  rw [parseTime]
  split_ifs
  · exact quiet_bind (quiet_parseInt 0 fieldLen) fun _ => quiet_pure _
  · exact quiet_parseBigInt val fieldLen

theorem quiet_parseBool : Quiet parseBool :=
  quiet_bind quiet_advance fun _ => quiet_bind quiet_next fun _ => quiet_pure _

theorem quiet_parseStrLoop (size left : ℕ) (str : WStr) : Quiet (parseStrLoop size left str) := by
  induction left generalizing str with
  | zero => exact quiet_bind (quiet_store _ size) fun _ => quiet_pure str
  | succ left ih =>
    exact quiet_bind quiet_next fun b => quiet_bind (quiet_store _ size) fun _ => ih _

theorem quiet_parseSubIdentifier (left : ℕ) (tmpVal : UInt32) :
    Quiet (parseSubIdentifier left tmpVal) := by
  induction left generalizing tmpVal with
  | zero => exact quiet_pure _
  | succ left ih =>
    apply quiet_bind quiet_next
    intro b
    split_ifs
    · exact quiet_pure _
    · exact ih _

theorem quiet_parseOidLoop (size fuel left : ℕ) (oids : List UInt32) :
    Quiet (parseOidLoop size fuel left oids) := by
  induction fuel generalizing left oids with
  | zero =>
    cases left with
    | zero => exact quiet_pure oids
    | succ left => exact quiet_timeout
  | succ fuel ih =>
    cases left with
    | zero => exact quiet_pure oids
    | succ left =>
      apply quiet_bind (quiet_parseSubIdentifier _ _)
      rintro ⟨rest, tmpVal⟩
      dsimp only
      split_ifs
      · exact quiet_bind (quiet_store 0 size) fun _ => quiet_bind (quiet_store 1 size) fun _ => ih _ _
      · exact quiet_bind (quiet_store _ size) fun _ => ih _ _

theorem follows_expectTag {tag : UInt8} {f : Unit → Reader β}
    (hf : Follows new n mem (f ()) walk) :
    Follows new n mem (expectTag tag >>= f) (ByteReader.Walk.expect tag walk) := by
  simp only [expectTag, bind_assoc]
  apply follows_peek
  intro b
  by_cases hb : (b == tag) = true
  · rw [if_pos hb]
    exact follows_require hb (follows_advance hf)
  · rw [if_neg hb]
    exact follows_refuse hb

theorem consumes_getFieldLength_short (hb : (mem p).toNat < 128) :
    Consumes getFieldLength mem p (mem p).toUInt32 1 := by
  apply Consumes.next_bind
  rw [if_pos ((highBit_eq_zero_iff _).mpr hb)]
  exact consumes_pure _

theorem consumes_getFieldLength_long (hb : ¬ (mem p).toNat < 128) :
    Consumes getFieldLength mem p (uint32Of (slice mem (p + 1) ((mem p).toNat % 128)))
      ((mem p).toNat % 128 + 1) := by
  apply Consumes.next_bind
  rw [if_neg (by rwa [highBit_eq_zero_iff]), toNat_low7]
  exact consumes_foldBytes shiftOctet _ 0

theorem LengthField.consumes {ls : List UInt8} {fieldLen : UInt32} (h : LengthField ls fieldLen)
    (hmem : HoldsAt mem p ls) : Consumes getFieldLength mem p fieldLen ls.length := by
  cases h with
  | short b hb =>
    obtain ⟨rfl, _⟩ := holdsAt_cons.mp hmem
    exact consumes_getFieldLength_short hb
  | long b ds hb hds =>
    obtain ⟨rfl, hrest⟩ := holdsAt_cons.mp hmem
    have hread := consumes_getFieldLength_long hb
    rw [← hds] at hread
    rw [HoldsAt] at hrest
    rwa [hrest] at hread

theorem exists_lengthField (mem : Memory) (p : ℕ) :
    ∃ ls fieldLen, LengthField ls fieldLen ∧ HoldsAt mem p ls := by
  by_cases hb : (mem p).toNat < 128
  · exact ⟨_, _, .short (mem p) hb, by simp⟩
  · refine ⟨_, _, .long (mem p) (slice mem (p + 1) ((mem p).toNat % 128)) hb (length_slice _ _ _), ?_⟩
    exact holdsAt_cons.mpr ⟨rfl, holdsAt_slice mem (p + 1) _⟩

theorem LengthField.length_pos {ls : List UInt8} {fieldLen : UInt32} (h : LengthField ls fieldLen) :
    0 < ls.length := by
  cases h with
  | short b hb => exact Nat.one_pos
  | long b ds hb hds => exact Nat.succ_pos _

theorem follows_getFieldLength_of_le {f : UInt32 → Reader β} {next : UInt32 → Walk}
    (hf : ∀ fieldLen p, p ≤ n →
      (Stays new n (f fieldLen) mem (some p) ↔ next fieldLen (remaining mem n p))) :
    Follows new n mem (getFieldLength >>= f) (Walk.lengthField next) := by
  have hbehind : ∀ {ls : List UInt8} {fieldLen : UInt32} {p : ℕ}, LengthField ls fieldLen →
      ls.length ≤ n - p → p + ls.length ≤ n := by
    intro ls fieldLen p hls hle
    have hpos := hls.length_pos
    omega
  intro p
  constructor
  · intro hstays
    obtain ⟨ls, fieldLen, hls, hmem⟩ := exists_lengthField mem p
    obtain ⟨hle, hrest⟩ := ((hls.consumes hmem).stays_bind quiet_getFieldLength).mp hstays
    refine ⟨ls, fieldLen, remaining mem n (p + ls.length), hls, ?_, ?_⟩
    · exact remaining_eq_append_iff.mpr ⟨hle, hmem, rfl⟩
    · exact (hf fieldLen _ (hbehind hls hle)).mp hrest
  · rintro ⟨ls, fieldLen, rest, hls, heq, hrest⟩
    obtain ⟨hle, hmem, rfl⟩ := remaining_eq_append_iff.mp heq
    rw [(hls.consumes hmem).stays_bind quiet_getFieldLength]
    exact ⟨hle, (hf fieldLen _ (hbehind hls hle)).mpr hrest⟩

theorem follows_getFieldLength {f : UInt32 → Reader β} {next : UInt32 → Walk}
    (hf : ∀ fieldLen, Follows new n mem (f fieldLen) (next fieldLen)) :
    Follows new n mem (getFieldLength >>= f) (Walk.lengthField next) :=
  follows_getFieldLength_of_le fun fieldLen p _ => hf fieldLen p

theorem follows_expectLength {l : UInt8} (hl : l.toNat < 128) {f : UInt32 → Reader β}
    (hf : Follows new n mem (f l.toUInt32) walk) :
    Follows new n mem (peek >>= fun b => require (b == l) >>= fun _ => getFieldLength >>= f)
      (ByteReader.Walk.expect l walk) := by
  intro p
  rw [stays_peek_bind, stays_require_bind]
  by_cases hp : p < n
  · rw [remaining_of_lt hp, ByteReader.Walk.expect, ByteReader.Walk.byte, and_iff_right hp]
    by_cases hb : (mem p == l) = true
    · obtain rfl : mem p = l := beq_iff_eq.mp hb
      rw [if_pos hb, ← hf (p + 1), imp_iff_right hb,
        (consumes_getFieldLength_short hl).stays_bind quiet_getFieldLength]
      exact and_iff_right (by omega)
    · rw [if_neg hb]
      exact ⟨fun _ => trivial, fun _ h => absurd h hb⟩
  · rw [remaining_of_le (by omega)]
    exact ⟨fun h => absurd h.1 hp, False.elim⟩

theorem follows_container {tag : UInt8} {f : UInt32 → Reader β}
    (hf : ∀ fieldLen, Follows new n mem (f fieldLen) walk) :
    Follows new n mem (expectTag tag >>= fun _ => getFieldLength >>= f)
      ((Refusal.container tag).walk walk) := by
  rw [Refusal.walk_container]
  exact follows_expectTag (follows_getFieldLength hf)

theorem follows_room {width : ℕ} {fieldLen : UInt32} {r : Reader α} {f : α → Reader β}
    (hquiet : Quiet r) (hr : ∀ p, ∃ a, Consumes r mem p a fieldLen.toNat)
    (hf : ∀ a, Follows new n mem (f a) walk) :
    Follows new n mem (allocate (width * (fieldLen + 1).toNat) >>= fun _ => r >>= f)
      (Walk.typed (Refusal.Room new width) (fun fieldLen => ¬ Refusal.Room new width fieldLen) walk
        fieldLen) := by
  intro p
  rw [follows_allocate (follows_content hquiet hr hf) p, Walk.typed, ByteReader.Walk.request,
    Refusal.Room]
  tauto

theorem follows_parseStr {f : WStr → Reader β} (fieldLen : UInt32)
    (hf : ∀ s, Follows new n mem (f s) walk) :
    Follows new n mem (parseStr fieldLen >>= f)
      (Walk.typed (Refusal.Room new 2) (fun fieldLen => ¬ Refusal.Room new 2 fieldLen) walk
        fieldLen) := by
  rw [parseStr, bind_assoc]
  exact follows_room (quiet_parseStrLoop _ _ _) (fun _ => consumes_parseStrLoop _ _ _) hf

theorem follows_parseOid {f : CSnmpOid → Reader β} (val : CSnmpOid) (fieldLen : UInt32)
    (hf : ∀ oid, Follows new n mem (f oid) walk) :
    Follows new n mem (parseOid val fieldLen >>= f)
      (Walk.typed (Refusal.Room new 4) (fun fieldLen => ¬ Refusal.Room new 4 fieldLen) walk
        fieldLen) := by
  simp only [parseOid, bind_assoc, pure_bind]
  exact follows_room (quiet_parseOidLoop _ _ _ _) (fun _ => consumes_parseOidLoop _ le_rfl _)
    fun oids => hf _

theorem follows_oid {f : CSnmpOid → Reader β} (hf : ∀ oid, Follows new n mem (f oid) walk) :
    Follows new n mem (expectTag SNMP_TYPE_OID >>= fun _ => getFieldLength >>= fun fieldLen =>
      parseOid {} fieldLen >>= f) ((Refusal.oid new).walk walk) := by
  rw [Refusal.oid, Refusal.walk_field]
  exact follows_expectTag (follows_getFieldLength fun fieldLen => follows_parseOid {} fieldLen hf)

theorem follows_str {f : WStr → Reader β} (hf : ∀ s, Follows new n mem (f s) walk) :
    Follows new n mem (expectTag SNMP_TYPE_STR >>= fun _ => getFieldLength >>= fun fieldLen =>
      parseStr fieldLen >>= f) ((Refusal.str new).walk walk) := by
  rw [Refusal.str, Refusal.walk_field]
  exact follows_expectTag (follows_getFieldLength fun fieldLen => follows_parseStr fieldLen hf)

/-- A parser that reads integers of at most `limit` octets, and goes to the null pointer where the
integer is longer, in front of a reader that cannot go on from there. -/
theorem follows_integer {r : Reader α} {f : α → Reader β} {limit : ℕ} {fieldLen : UInt32}
    (hquiet : Quiet r) (hshort : fieldLen.toNat ≤ limit → ∀ p, ∃ a, Consumes r mem p a fieldLen.toNat)
    (hlong : ¬ fieldLen.toNat ≤ limit → ∀ p, ∃ a, Accepts r mem (some p) a none)
    (hnull : ∀ a, ¬ Stays new n (f a) mem none) (hf : ∀ a, Follows new n mem (f a) walk) :
    Follows new n mem (r >>= f)
      (Walk.typed (fun fieldLen => fieldLen.toNat ≤ limit) (fun _ => False) walk fieldLen) := by
  intro p
  rw [Walk.typed, false_or]
  by_cases hk : fieldLen.toNat ≤ limit
  · rw [and_iff_right hk]
    exact follows_content hquiet (hshort hk) hf p
  · obtain ⟨a, ha⟩ := hlong hk p
    exact iff_of_false (not_stays_of_accepts_none hquiet ha (hnull a)) fun h => hk h.1

theorem consumes_parseInt (val : UInt32) {fieldLen : UInt32} (h : fieldLen ≤ 4) :
    ∃ a, Consumes (parseInt val fieldLen) mem p a fieldLen.toNat := by
  rw [parseInt, if_neg (UInt32.not_lt.mpr h)]
  exact ⟨_, consumes_foldBytes shiftOctet _ 0⟩

theorem follows_parseInt {f : UInt32 → Reader β} (val fieldLen : UInt32)
    (hnull : ∀ a, ¬ Stays new n (f a) mem none) (hf : ∀ a, Follows new n mem (f a) walk) :
    Follows new n mem (parseInt val fieldLen >>= f)
      (Walk.typed (fun fieldLen => fieldLen.toNat ≤ 4) (fun _ => False) walk fieldLen) := by
  refine follows_integer (quiet_parseInt val fieldLen) ?_ ?_ hnull hf
  · intro hle p
    exact consumes_parseInt val hle
  · intro hgt p
    exact ⟨val, (accepts_parseInt_long hgt).mpr ⟨rfl, rfl⟩⟩

theorem consumes_parseBigInt (val : UInt64) {fieldLen : UInt32} (h : fieldLen ≤ 8) :
    ∃ a, Consumes (parseBigInt val fieldLen) mem p a fieldLen.toNat := by
  rw [parseBigInt, if_neg (UInt32.not_lt.mpr h)]
  exact ⟨_, consumes_foldBytes shiftOctet64 _ 0⟩

theorem consumes_parseTime (val : UInt64) {fieldLen : UInt32} (h : fieldLen ≤ 8) :
    ∃ a, Consumes (parseTime val fieldLen) mem p a fieldLen.toNat := by
  by_cases hshort : fieldLen ≤ 4
  · obtain ⟨v, hv⟩ := consumes_parseInt (p := p) 0 hshort
    rw [parseTime, if_pos hshort]
    exact ⟨_, hv.bind (k := 0) (consumes_pure _)⟩
  · rw [parseTime, if_neg hshort]
    exact consumes_parseBigInt val h

theorem parseTime_accepts_long {c : Cursor} {val : UInt64} {fieldLen : UInt32}
    (h : ¬ fieldLen ≤ 8) : Accepts (parseTime val fieldLen) mem c val none := by
  have hfour : (4 : UInt32) ≤ 8 := by decide
  rw [parseTime, if_neg (fun hle => h (UInt32.le_trans hle hfour))]
  exact (accepts_parseBigInt_long h).mpr ⟨rfl, rfl⟩

theorem follows_parseTime {f : UInt64 → Reader β} (val : UInt64) (fieldLen : UInt32)
    (hnull : ∀ a, ¬ Stays new n (f a) mem none) (hf : ∀ a, Follows new n mem (f a) walk) :
    Follows new n mem (parseTime val fieldLen >>= f)
      (Walk.typed (fun fieldLen => fieldLen.toNat ≤ 8) (fun _ => False) walk fieldLen) := by
  refine follows_integer (quiet_parseTime val fieldLen) ?_ ?_ hnull hf
  · intro hle p
    exact consumes_parseTime val hle
  · intro hgt p
    exact ⟨val, parseTime_accepts_long hgt⟩

theorem not_inside_expectTag_none {tag : UInt8} {f : Unit → Reader β} :
    ¬ Inside n (expectTag tag >>= f) mem none := by
  simp only [expectTag, bind_assoc]
  exact not_inside_peek_none

theorem not_stays_expectTag_none {tag : UInt8} {f : Unit → Reader β} :
    ¬ Stays new n (expectTag tag >>= f) mem none := by
  simp only [expectTag, bind_assoc]
  exact not_stays_peek_none

theorem consumes_parseBool : ∃ a, Consumes parseBool mem p a 2 := by
  refine ⟨_, parseBool_accepts mem p, ?_⟩
  intro n
  have hnext : Consumes (next >>= fun b => pure (b != 0)) mem (p + 1) (mem (p + 1) != 0) 1 :=
    Consumes.next_bind (consumes_pure _)
  rw [parseBool, Inside, (advance_accepts mem p).touches_bind, and_iff_right touches_advance]
  apply (hnext.inside_iff n).trans
  omega

/-- The value of an integer binding, behind its length field. -/
def integerValue (newVar : CSnmpTrapVar) (fieldLen : UInt32) : Reader CSnmpTrapVar :=
  if fieldLen ≤ 4 then parseInt newVar.iVal fieldLen >>= fun iVal => pure { newVar with iVal }
  else parseBigInt newVar.ullVal fieldLen >>= fun ullVal => pure { newVar with ullVal }

theorem quiet_integerValue (newVar : CSnmpTrapVar) (fieldLen : UInt32) :
    Quiet (integerValue newVar fieldLen) := by
  rw [integerValue]
  split_ifs
  · exact quiet_bind (quiet_parseInt _ fieldLen) fun _ => quiet_pure _
  · exact quiet_bind (quiet_parseBigInt _ fieldLen) fun _ => quiet_pure _

theorem consumes_integerValue (newVar : CSnmpTrapVar) {fieldLen : UInt32} (h : fieldLen ≤ 8) :
    ∃ a, Consumes (integerValue newVar fieldLen) mem p a fieldLen.toNat := by
  by_cases hshort : fieldLen ≤ 4
  · obtain ⟨v, hv⟩ := consumes_parseInt (p := p) newVar.iVal hshort
    rw [integerValue, if_pos hshort]
    exact ⟨_, hv.bind (k := 0) (consumes_pure _)⟩
  · obtain ⟨v, hv⟩ := consumes_parseBigInt (p := p) newVar.ullVal h
    rw [integerValue, if_neg hshort]
    exact ⟨_, hv.bind (k := 0) (consumes_pure _)⟩

theorem integerValue_accepts_long {c : Cursor} (newVar : CSnmpTrapVar) {fieldLen : UInt32}
    (h : ¬ fieldLen ≤ 8) : ∃ a, Accepts (integerValue newVar fieldLen) mem c a none := by
  have hfour : (4 : UInt32) ≤ 8 := by decide
  rw [integerValue, if_neg (fun hle => h (UInt32.le_trans hle hfour))]
  exact ⟨_, ((accepts_parseBigInt_long h).mpr ⟨rfl, rfl⟩).bind (accepts_pure.mpr ⟨rfl, rfl⟩)⟩

theorem follows_decodeValue {newVar : UInt8 → CSnmpTrapVar} {f : CSnmpTrapVar → Reader β}
    (hnil : ¬ walk []) (hnull : ∀ a, ¬ Stays new n (f a) mem none)
    (hf : ∀ a, Follows new n mem (f a) walk) :
    Follows new n mem (peek >>= fun b => decodeValue (newVar b) b >>= f)
      ((Refusal.value new).walk walk) := by
  rw [Refusal.walk_value hnil]
  apply follows_peek
  intro b
  rw [decodeValue]
  split_ifs
  · simp only [bind_assoc, pure_bind]
    exact follows_advance (follows_getFieldLength fun _ =>
      follows_content quiet_parseBool (fun _ => consumes_parseBool) fun _ => hf _)
  · simp only [bind_assoc]
    apply follows_advance
    apply follows_getFieldLength
    intro fieldLen
    refine follows_integer (quiet_integerValue (newVar b) fieldLen) ?_ ?_ hnull hf
    · intro hle p
      exact consumes_integerValue (newVar b) hle
    · intro hgt p
      exact integerValue_accepts_long (newVar b) hgt
  · simp only [bind_assoc, pure_bind]
    exact follows_advance (follows_getFieldLength fun fieldLen =>
      follows_parseStr fieldLen fun _ => hf _)
  · simp only [bind_assoc, pure_bind]
    exact follows_advance (follows_advance (hf _))
  · simp only [bind_assoc, pure_bind]
    exact follows_advance (follows_getFieldLength fun fieldLen =>
      follows_parseOid {} fieldLen fun _ => hf _)
  · simp only [bind_assoc, pure_bind]
    apply follows_advance
    apply follows_getFieldLength
    intro fieldLen p
    rw [Walk.typed, false_or, true_and]
    exact follows_content (quiet_foldBytes shiftOctet _ 0)
      (fun _ => ⟨_, consumes_foldBytes shiftOctet _ 0⟩) (fun _ => hf _) p
  · exact follows_stop fun _ => stays_reject

theorem not_inside_varbindLoop_none {packetLen : UInt32} {fuel : ℕ}
    {varArgs : List CSnmpTrapVar} : ¬ Inside n (varbindLoop packetLen fuel varArgs) mem none := by
  unfold varbindLoop
  exact not_inside_peek_none

theorem not_stays_varbindLoop_none {packetLen : UInt32} {fuel : ℕ}
    {varArgs : List CSnmpTrapVar} :
    ¬ Stays new n (varbindLoop packetLen fuel varArgs) mem none := by
  unfold varbindLoop
  exact not_stays_peek_none

theorem follows_loopTest {packetLen : UInt32} {r s : Reader α}
    (hr : Follows new packetLen.toNat mem r (ByteReader.Walk.skip 1 walk))
    (hs : ∀ p, Stays new packetLen.toNat s mem (some p)) :
    Follows new packetLen.toNat mem
      (peek >>= fun b => offset >>= fun p =>
        if (b == SNMP_TYPE_SEQ && p < packetLen.toNat) = true then r else s)
      (ByteReader.Walk.expect SNMP_TYPE_SEQ walk) := by
  intro p
  rw [stays_peek_bind, stays_offset_bind]
  by_cases hp : p < packetLen.toNat
  · rw [remaining_of_lt hp, ByteReader.Walk.expect, ByteReader.Walk.byte, and_iff_right hp]
    by_cases hb : (mem p == SNMP_TYPE_SEQ) = true
    · rw [if_pos (by rw [hb, decide_eq_true hp]; rfl), if_pos hb, hr p, ByteReader.Walk.skip,
        drop_remaining]
    · rw [if_neg (fun h => hb (Bool.and_eq_true _ _ ▸ h).1), if_neg hb]
      exact ⟨fun _ => trivial, fun _ => hs p⟩
  · rw [remaining_of_le (by omega)]
    exact ⟨fun h => absurd h.1 hp, False.elim⟩

theorem follows_varbindLoop {packetLen : UInt32} (fuel : ℕ) (varArgs : List CSnmpTrapVar) :
    Follows new packetLen.toNat mem (varbindLoop packetLen fuel varArgs)
      (Refusal.passes new fuel) := by
  induction fuel generalizing varArgs with
  | zero =>
    have hpasses : Refusal.passes new 0 =
        ByteReader.Walk.expect SNMP_TYPE_SEQ ByteReader.Walk.stop := by
      simp only [Refusal.passes, ByteReader.Walk.expect, ite_self]
    rw [hpasses]
    unfold varbindLoop
    exact follows_loopTest (follows_stop fun _ => stays_timeout) fun _ => stays_pure varArgs
  | succ fuel ih =>
    rw [Refusal.passes, Refusal.walk_varbind]
    unfold varbindLoop
    refine follows_loopTest ?_ fun _ => stays_pure varArgs
    simp only [decodeVarbind, bind_assoc]
    apply follows_advance
    apply follows_getFieldLength
    intro _
    apply follows_oid
    intro oid
    exact follows_decodeValue (Refusal.not_passes_nil fuel)
      (fun _ => not_stays_varbindLoop_none) (fun newVar => ih _)

theorem follows_intField {f : UInt32 → Reader β} (val : UInt32)
    (hnull : ∀ a, ¬ Stays new n (f a) mem none) (hf : ∀ a, Follows new n mem (f a) walk) :
    Follows new n mem (expectTag SNMP_TYPE_INT >>= fun _ => getFieldLength >>= fun fieldLen =>
      parseInt val fieldLen >>= f) ((Refusal.integer SNMP_TYPE_INT 4).walk walk) := by
  rw [Refusal.integer, Refusal.walk_field]
  exact follows_expectTag (follows_getFieldLength fun fieldLen =>
    follows_parseInt val fieldLen hnull hf)

theorem follows_timeField {f : UInt64 → Reader β} (val : UInt64)
    (hnull : ∀ a, ¬ Stays new n (f a) mem none) (hf : ∀ a, Follows new n mem (f a) walk) :
    Follows new n mem (expectTag SNMP_TYPE_TIME >>= fun _ => getFieldLength >>= fun fieldLen =>
      parseTime val fieldLen >>= f) ((Refusal.integer SNMP_TYPE_TIME 8).walk walk) := by
  rw [Refusal.integer, Refusal.walk_field]
  exact follows_expectTag (follows_getFieldLength fun fieldLen =>
    follows_parseTime val fieldLen hnull hf)

theorem follows_decodeV2 {this : CSnmpTrap} {f : CSnmpTrap → Reader β}
    (hf : ∀ t, t.packetLen = this.packetLen → Follows new n mem (f t) walk) :
    Follows new n mem (decodeV2 this >>= f) ((Refusal.v2 new).walk walk) := by
  simp only [decodeV2, bind_assoc, pure_bind, Refusal.v2, Stretch.walk_append]
  refine follows_intField _ (fun _ => not_stays_expectTag_none) fun requestID => ?_
  refine follows_intField _ (fun _ => not_stays_expectTag_none) fun error => ?_
  refine follows_intField _ (fun _ => not_stays_expectTag_none) fun errorIndex => ?_
  refine follows_container fun _ => ?_
  refine follows_container fun _ => ?_
  refine follows_oid fun _ => ?_
  refine follows_timeField _ (fun _ => not_stays_expectTag_none) fun ullSourceTime => ?_
  refine follows_container fun _ => ?_
  refine follows_oid fun _ => ?_
  exact follows_oid fun trapOid => hf _ rfl

theorem follows_fixed {tag l : UInt8} (hl : l.toNat < 128) {r : UInt32 → Reader α} {f : α → Reader β}
    (hquiet : Quiet (r l.toUInt32)) (hr : ∀ p, ∃ a, Consumes (r l.toUInt32) mem p a l.toNat)
    (hf : ∀ a, Follows new n mem (f a) walk) :
    Follows new n mem (expectTag tag >>= fun _ => peek >>= fun b => require (b == l) >>= fun _ =>
      getFieldLength >>= fun fieldLen => r fieldLen >>= f) ((Refusal.fixed tag l).walk walk) := by
  rw [Refusal.walk_fixed]
  exact follows_expectTag (follows_expectLength hl (follows_content hquiet hr hf))

theorem follows_decodeV1 {uninit : UInt32} {this : CSnmpTrap} {f : CSnmpTrap → Reader β}
    (hf : ∀ t, t.packetLen = this.packetLen → Follows new n mem (f t) walk) :
    Follows new n mem (decodeV1 uninit this >>= f) ((Refusal.v1 new).walk walk) := by
  simp only [decodeV1, bind_assoc, pure_bind, Refusal.v1, Stretch.walk_append]
  refine follows_oid fun trapOid => ?_
  refine follows_fixed (by decide) (quiet_foldBytes shiftOctet _ 0)
    (fun _ => ⟨_, consumes_foldBytes shiftOctet 4 0⟩) fun snmpSourceIP => ?_
  refine follows_fixed (by decide) (quiet_parseInt uninit 1)
    (fun _ => ⟨_, consumes_foldBytes shiftOctet 1 0⟩) fun genericID => ?_
  refine follows_intField _ (fun _ => not_stays_expectTag_none) fun specificID => ?_
  refine follows_timeField _ (fun _ => not_stays_expectTag_none) fun ullSourceTime => ?_
  exact follows_container fun _ => hf _ rfl

namespace Walk

open ByteReader.Walk

def request (next : UInt8 → Walk) : Walk := byte fun b =>
  if b == SNMP_V1TRAP || b == SNMP_V2INFORM || b == SNMP_V2TRAP then lengthField fun _ => next b
  else stop

def message (new : ℕ → Bool) (next : UInt8 → Walk) : Walk :=
  expect SNMP_TYPE_SEQ <| lengthField fun fieldLen bs => fieldLen.toNat = bs.length →
    Refusal.version.walk ((Refusal.str new).walk (request next)) bs

end Walk

theorem begins_container_mul {tag b : UInt8} {L : Language UInt8} {bs : List UInt8} :
    Begins (Layout.container tag * L) (b :: bs) ↔
      b = tag ∧ Walk.lengthField (fun _ => Begins L) bs := by
  rw [Stretch.begins_mul, ← Refusal.exists_head]
  constructor
  · rintro ⟨w, ⟨fieldLen, hw⟩, hrest⟩
    exact ⟨fieldLen, w, hw, hrest⟩
  · rintro ⟨fieldLen, w, hw, hrest⟩
    exact ⟨w, ⟨fieldLen, hw⟩, hrest⟩

theorem not_begins_container_mul_nil {tag : UInt8} {L : Language UInt8} :
    ¬ Begins (Layout.container tag * L) [] := by
  rw [Stretch.begins_mul]
  rintro ⟨w, ⟨fieldLen, hw⟩, rest, heq, _⟩
  obtain ⟨v, rfl⟩ := Refusal.tagged_head hw
  cases heq

def Refusal.fields (new : ℕ → Bool) (trapType : UInt8) : Stretch :=
  if trapType == SNMP_V1TRAP then Refusal.v1 new else Refusal.v2 new

theorem walk_request : Walk.request (fun b =>
    Begins ((Refusal.fields new b).andThen (Refusal.varbind new).repeated)) =
      Begins (Refusal.request new) := by
  funext bs
  apply propext
  rw [Refusal.request, Stretch.begins_add, Stretch.begins_add, add_mul, Stretch.begins_add]
  cases bs with
  | nil =>
    simp only [not_begins_container_mul_nil, or_false]
    refine iff_of_false id ?_
    rintro ⟨_, ⟨b, _, rfl⟩, hprefix⟩
    cases List.prefix_nil.mp hprefix
  | cons b bs =>
    rw [Stretch.begins_wrong_cons, begins_container_mul, begins_container_mul, begins_container_mul,
      Walk.request, ByteReader.Walk.byte]
    have hrequests : b ∉ Refusal.requests ↔
        b ≠ SNMP_V1TRAP ∧ b ≠ SNMP_V2INFORM ∧ b ≠ SNMP_V2TRAP := by
      simp only [Refusal.requests, List.mem_cons, List.not_mem_nil, or_false, not_or, ne_eq]
    rw [hrequests]
    by_cases h₁ : b = SNMP_V1TRAP
    · subst h₁
      simp +decide only [if_true, true_and, false_and, false_or, or_false, Refusal.fields]
    · by_cases h₂ : b = SNMP_V2INFORM
      · subst h₂
        simp +decide only [if_true, if_false, true_and, false_and, false_or, or_false, Refusal.fields]
      · by_cases h₃ : b = SNMP_V2TRAP
        · subst h₃
          simp +decide only [if_true, if_false, true_and, false_and, false_or, Refusal.fields]
        · have htest : ¬ (b == SNMP_V1TRAP || b == SNMP_V2INFORM || b == SNMP_V2TRAP) = true := by
            simp [h₁, h₂, h₃]
          rw [if_neg htest]
          exact iff_of_true trivial (.inl ⟨h₁, h₂, h₃⟩)

theorem begins_datagram {bs : List UInt8} (h : bs.length = n) :
    Walk.message new (fun b =>
      Begins ((Refusal.fields new b).andThen (Refusal.varbind new).repeated)) bs ↔
        Begins (Refusal.datagram new n) bs := by
  rw [Walk.message, walk_request, Refusal.datagram, Stretch.begins_andThen, Stretch.walk_append,
    Stretch.walk_append, Refusal.walk_envelope h]

theorem follows_decodeHeader {platform : Platform} {this : CSnmpTrap} {f : CSnmpTrap → Reader β}
    {next : UInt8 → Walk} (hn : n = this.packetLen.toNat)
    (hf : ∀ t, t.packetLen = this.packetLen → Follows new n mem (f t) (next t.trapType)) :
    Follows new n mem (decodeHeader platform this >>= f) (Walk.message new next) := by
  simp only [decodeHeader, bind_assoc, pure_bind]
  apply follows_expectTag
  apply follows_getFieldLength_of_le
  intro fieldLen p hp
  have hleft : bytesLeft platform this.packetLen p = (n - p : ℕ) := bytesLeft_eq (by omega)
  rw [stays_offset_bind, stays_require_bind, length_remaining, hleft, decide_eq_true_eq,
    Nat.cast_inj]
  refine imp_congr_right fun _ => ?_
  refine (?_ : Follows new n mem _ _) p
  rw [Refusal.version, Refusal.walk_field]
  apply follows_expectTag
  apply follows_getFieldLength
  intro fieldLen p
  rw [stays_require_bind, decide_eq_true_eq, Walk.typed]
  by_cases hv : fieldLen ≤ 4
  · rw [imp_iff_right hv, and_iff_right hv, or_iff_right (not_not_intro hv)]
    refine follows_content (quiet_parseInt _ fieldLen) (fun _ => consumes_parseInt _ hv) ?_ p
    intro version
    apply follows_str
    intro community
    apply follows_offset
    intro pReqType
    apply follows_peek
    intro b
    by_cases hb : (b == SNMP_V1TRAP || b == SNMP_V2INFORM || b == SNMP_V2TRAP) = true
    · rw [if_pos hb]
      exact follows_require hb (follows_advance (follows_getFieldLength fun _ => hf _ rfl))
    · rw [if_neg hb]
      exact follows_refuse hb
  · exact iff_of_true (fun h => absurd h hv) (.inl hv)

theorem follows_decodeFields {uninit : UInt32} {this : CSnmpTrap} {f : CSnmpTrap → Reader β}
    (hf : ∀ t, t.packetLen = this.packetLen → Follows new n mem (f t) walk) :
    Follows new n mem (decodeFields uninit this >>= f)
      ((Refusal.fields new this.trapType).walk walk) := by
  rw [decodeFields, Refusal.fields]
  by_cases h : (this.trapType == SNMP_V1TRAP) = true
  · rw [if_pos h, if_pos h]
    exact follows_decodeV1 hf
  · rw [if_neg h, if_neg h]
    exact follows_decodeV2 hf

theorem follows_decode {platform : Platform} {uninit : UInt32} {this : CSnmpTrap} :
    Follows new this.packetLen.toNat mem (decode platform uninit this)
      (Walk.message new fun b =>
        Begins ((Refusal.fields new b).andThen (Refusal.varbind new).repeated)) := by
  apply follows_decodeHeader rfl
  intro t ht
  rw [← Stretch.walk_begins]
  apply follows_decodeFields
  intro t' ht' p
  rw [ht', ht, ← Refusal.passes_iff (length_remaining.trans_le (Nat.sub_le _ p))]
  exact follows_map _ (follows_varbindLoop _ _) p

/-- Whatever memory is granted, what is read of a datagram lies inside it exactly if the datagram
begins with octets behind which nothing more is read. -/
theorem decode_inside_iff (new : ℕ → Bool) (platform : Platform) (uninit : UInt32)
    (raw : CSnmpTrap) (behind : Memory) (packet : SSnmpPacket) :
    (∀ access ∈ (packet.decode platform uninit raw behind).done new,
        access.Below packet.packetSize.toNat) ↔
      Begins (Refusal.datagram new packet.buf.length) packet.buf := by
  have hsize := packet.size_eq
  have hwalk : Follows new packet.packetSize.toNat (memoryOf packet.buf behind)
      (decode platform uninit (ofPacket packet raw)) _ := follows_decode
  have hbuf : remaining (memoryOf packet.buf behind) packet.packetSize.toNat 0 = packet.buf := by
    rw [hsize]
    exact holdsAt_memoryOf packet.buf behind
  have hiff := hwalk 0
  rw [hbuf, begins_datagram rfl] at hiff
  exact hiff

/-- Even a well-formed message makes the decoder read the byte behind it. -/
theorem decode_hello_leaves :
    ¬ ∀ access ∈ (helloPacket.decode .x64 0 default fun _ => 0).done fun bytes => bytes < 2 ^ 31,
      access.Below helloPacket.packetSize.toNat := by
  decide +kernel

def hugeCommunityPacket : SSnmpPacket where
  srcAddr := 0x0100007F
  srcPort := 123
  ftRecvTime := 0
  packetSize := 11
  buf := [48, 9, 2, 1, 1, 4, 132, 127, 255, 255, 255]
  size_eq := by decide

/-- Nothing is read behind its length field. -/
example : Begins (Refusal.datagram (fun bytes => bytes < 2 ^ 31) 11) hugeCommunityPacket.buf := by
  have hversion : [2, 1, 1] ∈ Refusal.version.whole :=
    .inr ⟨1, [2, 1], [1], by decide, ⟨[1], .short 1 (by decide), rfl⟩, rfl, rfl⟩
  have hlength : LengthField [132, 127, 255, 255, 255] 0x7FFFFFFF :=
    .long 132 [127, 255, 255, 255] (by decide) rfl
  have hstr : [4, 132, 127, 255, 255, 255] ∈ (Refusal.str fun bytes => bytes < 2 ^ 31).stopped :=
    .inr ⟨0x7FFFFFFF, by unfold Refusal.Room; decide, _, hlength, rfl⟩
  have henvelope : [48, 9] ∈ (Refusal.envelope 11).whole :=
    .inr ⟨9, ⟨[9], .short 9 (by decide), rfl⟩, rfl⟩
  exact ⟨_, .inl (.inr (Language.append_mem_mul henvelope
    (.inr (Language.append_mem_mul hversion hstr)))), List.prefix_rfl⟩

end TrapHandler
