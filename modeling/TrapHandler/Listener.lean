import TrapHandler.SnmpTrap

/-!
# The listener thread

`ListenerFn` receives datagrams from the open socket into one buffer and queues a copy of each. It
is modelled from the reset of the trap count on, over the results that `recvfrom` returns.
-/

namespace TrapHandler

open ByteReader

structure SockAddrIn where
  sinAddr : UInt32
  sinPort : UInt16

/-- The longest payload of an IPv4 datagram is 65507 bytes. -/
structure Datagram where
  bytes : List UInt8
  sender : SockAddrIn
  length_le : bytes.length ≤ 65507

/-- What one call of `recvfrom` returns, nothing for a socket error, and the system time after it. -/
structure RecvResult where
  datagram : Option Datagram
  ftNow : UInt64

structure Listener where
  sockBuf : Memory
  senderAddr : SockAddrIn
  nRecv : ℤ
  pQueue : List SSnmpPacket
  nReceivedTraps : Int32

def sizeofSockBuf : ℤ := 65535

namespace Listener

def recvfrom (s : Listener) : Option Datagram → Listener
  | some d =>
    { s with
      sockBuf := memoryOf d.bytes s.sockBuf
      senderAddr := d.sender
      nRecv := d.bytes.length }
  | none => { s with nRecv := -1 }

/-- `pQueue.push` of the packet made from the buffer. -/
def push (s : Listener) (ftNow : UInt64) (h : 0 < s.nRecv ∧ s.nRecv < sizeofSockBuf) : Listener :=
  { s with
    pQueue := s.pQueue ++ [
      { ftRecvTime := ftNow
        srcAddr := s.senderAddr.sinAddr
        srcPort := s.senderAddr.sinPort
        packetSize := UInt32.ofNat s.nRecv.toNat
        buf := slice s.sockBuf 0 s.nRecv.toNat
        size_eq := by
          have hsize : s.nRecv.toNat < 65535 := by
            have hlt : s.nRecv < 65535 := h.2
            omega
          rw [length_slice, UInt32.toNat_ofNat_of_lt' (hsize.trans (by decide))] }] }

def interlockedIncrement (s : Listener) : Listener :=
  { s with nReceivedTraps := s.nReceivedTraps + 1 }

def enqueue (s : Listener) (ftNow : UInt64) : Listener :=
  if h : 0 < s.nRecv ∧ s.nRecv < sizeofSockBuf then (s.push ftNow h).interlockedIncrement else s

def receive (s : Listener) (r : RecvResult) : Listener := (s.recvfrom r.datagram).enqueue r.ftNow

/-- The state in which the loop ends, or waits for a result that does not come, and the results it
has not asked for. -/
def loop (s : Listener) : List RecvResult → Listener × List RecvResult
  | [] => (s, [])
  | r :: rest => if s.nRecv > 0 then (s.receive r).loop rest else (s, r :: rest)

end Listener

/-- `pQueue`, the buffer and the sender's address are as the thread finds them. -/
def listenerFn (sockBuf : Memory) (senderAddr : SockAddrIn) (pQueue : List SSnmpPacket)
    (results : List RecvResult) : Listener × List RecvResult :=
  Listener.loop { sockBuf, senderAddr, nRecv := 1, pQueue, nReceivedTraps := 0 } results

def Datagram.packet (d : Datagram) (ftNow : UInt64) : SSnmpPacket where
  srcAddr := d.sender.sinAddr
  srcPort := d.sender.sinPort
  ftRecvTime := ftNow
  packetSize := UInt32.ofNat d.bytes.length
  buf := d.bytes
  size_eq := UInt32.toNat_ofNat_of_lt' (lt_of_le_of_lt d.length_le (by decide))

def arrivals : List RecvResult → List SSnmpPacket
  | [] => []
  | ⟨some d, ftNow⟩ :: rest => d.packet ftNow :: arrivals rest
  | ⟨none, _⟩ :: _ => []

def afterError : List RecvResult → List RecvResult
  | [] => []
  | ⟨some _, _⟩ :: rest => afterError rest
  | ⟨none, _⟩ :: rest => rest

/-- The listener asks for the results up to the first socket error and only that ends it; it queues
every non-empty datagram before it once and in order, and counts what it queues. -/
structure Listens (sockBuf : Memory) (senderAddr : SockAddrIn) (pQueue : List SSnmpPacket)
    (results : List RecvResult) : Prop where
  unread : (listenerFn sockBuf senderAddr pQueue results).2 = afterError results
  returned : (listenerFn sockBuf senderAddr pQueue results).1.nRecv ≤ 0 ↔
    ∃ r ∈ results, r.datagram = none
  queued : (listenerFn sockBuf senderAddr pQueue results).1.pQueue =
    pQueue ++ (arrivals results).filter fun packet => packet.buf ≠ []
  counted : (listenerFn sockBuf senderAddr pQueue results).1.nReceivedTraps.toInt =
    (listenerFn sockBuf senderAddr pQueue results).1.pQueue.length - pQueue.length

namespace Listener

variable {s : Listener} {ftNow : UInt64}

theorem loop_cons (h : 0 < s.nRecv) (r : RecvResult) (rest : List RecvResult) :
    s.loop (r :: rest) = (s.receive r).loop rest := by
  rw [loop, if_pos h]

theorem loop_stopped (h : s.nRecv ≤ 0) (results : List RecvResult) :
    s.loop results = (s, results) := by
  cases results with
  | nil => rfl
  | cons r rest => rw [loop, if_neg (Int.not_lt.mpr h)]

theorem receive_error : s.receive ⟨none, ftNow⟩ = { s with nRecv := -1 } := by
  have hneg : ¬ (0 < (s.recvfrom none).nRecv ∧ (s.recvfrom none).nRecv < sizeofSockBuf) := by
    simp only [recvfrom]
    omega
  rw [receive, enqueue, dif_neg hneg]
  rfl

theorem loop_error (h : 0 < s.nRecv) (rest : List RecvResult) :
    s.loop (⟨none, ftNow⟩ :: rest) = ({ s with nRecv := -1 }, rest) := by
  have hneg : (-1 : ℤ) ≤ 0 := by decide
  rw [loop_cons h, receive_error, loop_stopped hneg]

theorem receive_empty {d : Datagram} (h : d.bytes = []) :
    (s.receive ⟨some d, ftNow⟩).nRecv = 0 := by
  have hzero : (s.recvfrom (some d)).nRecv = 0 := by rw [recvfrom, h]; rfl
  have hneg : ¬ (0 < (s.recvfrom (some d)).nRecv ∧
      (s.recvfrom (some d)).nRecv < sizeofSockBuf) := by
    rw [hzero]
    omega
  rw [receive, enqueue, dif_neg hneg]
  exact hzero

theorem receive_datagram (s : Listener) (ftNow : UInt64) {d : Datagram} (h : d.bytes ≠ []) :
    0 < (s.receive ⟨some d, ftNow⟩).nRecv ∧
      (s.receive ⟨some d, ftNow⟩).pQueue = s.pQueue ++ [d.packet ftNow] ∧
      (s.receive ⟨some d, ftNow⟩).nReceivedTraps = s.nReceivedTraps + 1 := by
  have hpos : 0 < d.bytes.length := List.length_pos_iff.mpr h
  have hle : d.bytes.length ≤ 65507 := d.length_le
  have hsize : 0 < (s.recvfrom (some d)).nRecv ∧ (s.recvfrom (some d)).nRecv < sizeofSockBuf := by
    simp only [recvfrom, sizeofSockBuf]
    omega
  have hbuf : slice (memoryOf d.bytes s.sockBuf) 0 d.bytes.length = d.bytes := holdsAt_memoryOf _ _
  rw [receive, enqueue, dif_pos hsize]
  refine ⟨hsize.1, ?_, rfl⟩
  simp only [interlockedIncrement, push, recvfrom, Datagram.packet, Int.toNat_natCast, hbuf]

end Listener

theorem length_afterError {results : List RecvResult} (h : ∃ r ∈ results, r.datagram = none) :
    (afterError results).length < results.length := by
  induction results with
  | nil =>
    obtain ⟨r, hr, _⟩ := h
    cases hr
  | cons r rest ih =>
    obtain ⟨datagram, ftNow⟩ := r
    cases datagram with
    | none => exact Nat.lt_succ_self _
    | some d =>
      obtain ⟨r, hr, hnone⟩ := h
      cases hr with
      | head => cases hnone
      | tail _ hr => exact Nat.lt_succ_of_lt (ih ⟨r, hr, hnone⟩)

theorem exists_error_cons {d : Datagram} {ftNow : UInt64} {rest : List RecvResult} :
    (∃ r ∈ (⟨some d, ftNow⟩ :: rest : List RecvResult), r.datagram = none) ↔
      ∃ r ∈ rest, r.datagram = none := by
  constructor
  · rintro ⟨r, hr, hnone⟩
    cases hr with
    | head => cases hnone
    | tail _ hr => exact ⟨r, hr, hnone⟩
  · rintro ⟨r, hr, hnone⟩
    exact ⟨r, List.mem_cons_of_mem _ hr, hnone⟩

namespace Listener

theorem runs_to_error_iff {s : Listener} (h : 0 < s.nRecv) (results : List RecvResult) :
    ((s.loop results).2 = afterError results ∧
      ((s.loop results).1.nRecv ≤ 0 ↔ ∃ r ∈ results, r.datagram = none)) ↔
      ∀ packet ∈ arrivals results, packet.buf ≠ [] := by
  induction results generalizing s with
  | nil =>
    refine iff_of_true ⟨rfl, iff_of_false (Int.not_le.mpr h) ?_⟩ ?_
    · rintro ⟨r, hr, _⟩
      cases hr
    · intro packet hpacket
      cases hpacket
  | cons r rest ih =>
    obtain ⟨datagram, ftNow⟩ := r
    cases datagram with
    | none =>
      have hneg : (-1 : ℤ) ≤ 0 := by decide
      rw [loop_error h]
      refine iff_of_true ⟨rfl, iff_of_true hneg ?_⟩ ?_
      · exact ⟨_, List.mem_cons_self, rfl⟩
      · intro packet hpacket
        cases hpacket
    | some d =>
      rw [loop_cons h, exists_error_cons]
      by_cases hd : d.bytes = []
      · have hzero : (s.receive ⟨some d, ftNow⟩).nRecv ≤ 0 := Int.le_of_eq (receive_empty hd)
        rw [loop_stopped hzero]
        refine iff_of_false ?_ fun hall => hall (d.packet ftNow) List.mem_cons_self hd
        rintro ⟨hunread, hreturned⟩
        have hlen := length_afterError (hreturned.mp hzero)
        have hrest : rest = afterError rest := hunread
        rw [← hrest] at hlen
        exact absurd hlen (Nat.lt_irrefl _)
      · obtain ⟨hpos, _, _⟩ := receive_datagram s ftNow hd
        rw [arrivals, List.forall_mem_cons]
        exact (ih hpos).trans ⟨fun hall => ⟨hd, hall⟩, fun hall => hall.2⟩

theorem queue_of_nonempty {s : Listener} (h : 0 < s.nRecv) {results : List RecvResult}
    (hall : ∀ packet ∈ arrivals results, packet.buf ≠ []) :
    (s.loop results).1.pQueue = s.pQueue ++ arrivals results ∧
      (s.loop results).1.nReceivedTraps =
        s.nReceivedTraps + Int32.ofNat (arrivals results).length := by
  induction results generalizing s with
  | nil => exact ⟨(List.append_nil _).symm, (Int32.add_zero _).symm⟩
  | cons r rest ih =>
    obtain ⟨datagram, ftNow⟩ := r
    cases datagram with
    | none =>
      rw [loop_error h]
      exact ⟨(List.append_nil _).symm, (Int32.add_zero _).symm⟩
    | some d =>
      rw [arrivals, List.forall_mem_cons] at hall
      obtain ⟨hpos, hqueue, hcount⟩ := receive_datagram s ftNow hall.1
      obtain ⟨hqueue', hcount'⟩ := ih hpos hall.2
      have hlen : Int32.ofNat (arrivals rest).length + 1 =
          Int32.ofNat ((arrivals rest).length + 1) := (Int32.ofNat_add _ 1).symm
      rw [loop_cons h, arrivals, List.length_cons]
      constructor
      · rw [hqueue', hqueue, List.append_assoc, List.singleton_append]
      · rw [hcount', hcount, ← hlen, Int32.add_assoc, Int32.add_comm 1]

end Listener

/-- A count of packets fits a `long` exactly if it is below 2 to the 31. -/
theorem toInt_ofNat_eq_iff (n : ℕ) : (Int32.ofNat n).toInt = n ↔ n < 2 ^ 31 := by
  have hsize : Int32.size = 2 ^ 32 := rfl
  rw [Int32.toInt_ofNat', Int.bmod_eq_iff (by decide), hsize]
  constructor
  · rintro ⟨_, hlt, _⟩
    omega
  · intro hlt
    refine ⟨by omega, by omega, ?_⟩
    rw [Int.sub_self]
    exact Int.dvd_zero _

/-- The thread does its work exactly if no datagram before the first socket error is empty and
their number fits the count. -/
theorem listens_iff (sockBuf : Memory) (senderAddr : SockAddrIn) (pQueue : List SSnmpPacket)
    (results : List RecvResult) :
    Listens sockBuf senderAddr pQueue results ↔
      (∀ packet ∈ arrivals results, packet.buf ≠ []) ∧ (arrivals results).length < 2 ^ 31 := by
  have hone : (0 : ℤ) < 1 := by decide
  have hopen : 0 < (Listener.mk sockBuf senderAddr 1 pQueue 0).nRecv := hone
  have hruns := Listener.runs_to_error_iff hopen results
  have hqueued : (∀ packet ∈ arrivals results, packet.buf ≠ []) →
      (listenerFn sockBuf senderAddr pQueue results).1.pQueue = pQueue ++ arrivals results ∧
        (listenerFn sockBuf senderAddr pQueue results).1.nReceivedTraps.toInt =
          (Int32.ofNat (arrivals results).length).toInt := by
    intro hall
    obtain ⟨hqueue, hcount⟩ := Listener.queue_of_nonempty hopen hall
    refine ⟨hqueue, ?_⟩
    rw [Int32.zero_add] at hcount
    rw [listenerFn, hcount]
  constructor
  · rintro ⟨hunread, hreturned, _, hcounted⟩
    have hall := hruns.mp ⟨hunread, hreturned⟩
    obtain ⟨hqueue, hcount⟩ := hqueued hall
    refine ⟨hall, (toInt_ofNat_eq_iff _).mp ?_⟩
    rw [← hcount, hcounted, hqueue, List.length_append]
    omega
  · rintro ⟨hall, hfits⟩
    obtain ⟨hunread, hreturned⟩ := hruns.mpr hall
    obtain ⟨hqueue, hcount⟩ := hqueued hall
    have hfilter : (arrivals results).filter (fun packet => packet.buf ≠ []) = arrivals results :=
      List.filter_eq_self.mpr fun packet hpacket => decide_eq_true (hall packet hpacket)
    refine ⟨hunread, hreturned, ?_, ?_⟩
    · rw [hqueue, hfilter]
    · rw [hcount, hqueue, List.length_append, (toInt_ofNat_eq_iff _).mpr hfits]
      omega

def emptyDatagram : Datagram where
  bytes := []
  sender := { sinAddr := 0x0100007F, sinPort := 123 }
  length_le := by decide

/-- An empty datagram ends the thread, and the next datagram stays unread. -/
theorem emptyDatagram_not_listened :
    ¬ Listens (fun _ => 0) ⟨0, 0⟩ []
      [⟨some emptyDatagram, 0⟩,
        ⟨some { emptyDatagram with bytes := [0x30], length_le := by decide }, 1⟩] := by
  intro h
  have hunread := congrArg List.length h.unread
  revert hunread
  decide

end TrapHandler
