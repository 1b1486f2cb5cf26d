import TrapHandler.AddressText
import TrapHandler.DecodeNotification
import TrapHandler.DiskMetricNumbers
import TrapHandler.EventResults

/-!
# Messages of the agent

What an agent reports, the arguments each version of the agent sends for it, and the event that
stands for it at the receiver. A message that is encoded in a packet, whether as a notification or as
a version 1 trap, is decoded and parsed into its event, apart from the service failures of the newest
agents, whose version is not noted, and maintenances of more minutes than have their seconds in 32
bits.
-/

namespace TrapHandler

open ByteReader ByteReader.Reader Ber CSnmpTrap

inductive Severity where
  | critical
  | major
  | minor
  | warning
  | normal

namespace Severity

def name : Severity → WStr
  | critical => wcs "Critical"
  | major => wcs "Major"
  | minor => wcs "Minor"
  | warning => wcs "Warning"
  | normal => wcs "Normal"

/-- The severity that a text names, in letters of either case. -/
def ofText (s : WStr) : Option Severity :=
  [critical, major, minor, warning, normal].find? fun severity => wcsicmpEq s severity.name

end Severity

/-- What a state message holds beside the states, by the version of the agent. -/
inductive Sender where
  | before1_12
  | from1_12 (platform : TextOctets)
  | from1_13 (platform msgGroup severity : TextOctets)

namespace Sender

def platformId : Sender → WStr
  | before1_12 => noPlatform
  | from1_12 platform => platform.text
  | from1_13 platform _ _ => platform.text

def msgGroup : Sender → WStr
  | before1_12 => defaultMsgGrp
  | from1_12 _ => defaultMsgGrp
  | from1_13 _ msgGroup _ => msgGroup.text

def severity : Sender → WStr
  | before1_12 => defaultSeverity
  | from1_12 _ => defaultSeverity
  | from1_13 _ _ severity => (Severity.ofText severity.text).elim (wcs "Unknown") Severity.name

def agentVersion : Sender → AgentVersion
  | before1_12 => .pre1_13
  | from1_12 _ => .pre1_13
  | from1_13 .. => .post1_13

end Sender

/-- The platform, the operating system and the version, which old agents do not send. -/
structure Identity where
  platform : TextOctets
  osFlavor : TextOctets
  ugmonVersion : TextOctets

inductive AgentMessage where
  | processFail (sender : Sender) (host process current desired : TextOctets)
  | serviceFail (sender : Sender) (host service current desired label : TextOctets)
  | clusterFail (host platform resourceGroup cluster state : TextOctets)
  | startMaintenance (platform : Option TextOctets) (host user description duration : TextOctets)
  | error (platform : Option TextOctets) (host message severity : TextOctets)
  | hello (host : TextOctets) (identity : Option Identity)
  | goodbye (host : TextOctets) (identity : Option Identity)

namespace AgentMessage

def layoutClass : AgentMessage → LayoutClass
  | processFail .. => .processFail
  | serviceFail .. => .serviceFail
  | clusterFail .. => .clusterFail
  | startMaintenance .. => .startMaintenance
  | error .. => .error
  | hello .. => .hello
  | goodbye .. => .goodbye

/-- The oldest agents send the desired state in front of the current one. -/
def arguments : AgentMessage → List TextOctets
  | processFail .before1_12 host process current desired => [host, process, desired, current]
  | processFail (.from1_12 platform) host process current desired =>
    [host, platform, process, current, desired]
  | processFail (.from1_13 platform msgGroup severity) host process current desired =>
    [host, platform, process, current, desired, msgGroup, severity]
  | serviceFail .before1_12 host service current desired label =>
    [host, service, desired, current, label]
  | serviceFail (.from1_12 platform) host service current desired label =>
    [host, platform, service, current, desired, label]
  | serviceFail (.from1_13 platform msgGroup severity) host service current desired label =>
    [host, platform, service, current, desired, label, msgGroup, severity]
  | clusterFail host platform resourceGroup cluster state =>
    [host, platform, resourceGroup, cluster, state]
  | startMaintenance none host user description duration => [host, user, description, duration]
  | startMaintenance (some platform) host user description duration =>
    [host, platform, user, description, duration]
  | error none host message severity => [host, message, severity]
  | error (some platform) host message severity => [host, platform, message, severity]
  | hello host none => [host]
  | hello host (some i) => [host, i.platform, i.osFlavor, i.ugmonVersion]
  | goodbye host none => [host]
  | goodbye host (some i) => [host, i.platform, i.osFlavor, i.ugmonVersion]

def created : (k : LayoutClass) → k.Event
  | .processFail => ({} : ProcessFailEvent)
  | .serviceFail => ({} : ServiceFailEvent)
  | .clusterFail => ({} : ClusterFailEvent)
  | .startMaintenance => ({} : StartMaintenanceEvent)
  | .error => ({} : ErrorEvent)
  | .hello => ({} : HelloEvent)
  | .goodbye => ({} : GoodbyeEvent)

def platformOr : Option TextOctets → WStr
  | none => noPlatform
  | some platform => platform.text

/-- The octets of an address, as they follow each other in memory. -/
def addressOctets (srcAddr : UInt32) : List UInt8 :=
  [srcAddr.toUInt8, (srcAddr >>> 8).toUInt8, (srcAddr >>> 16).toUInt8, (srcAddr >>> 24).toUInt8]

/-- The event of a message that came from `srcAddr`; `seconds` is how long a maintenance takes. -/
def event (srcAddr : UInt32) (seconds : UInt64) : (m : AgentMessage) → m.layoutClass.Event
  | processFail sender host process current desired =>
    ({ hostname := host.text
       platformId := sender.platformId
       agentVersion := sender.agentVersion
       processName := process.text
       currentState := current.text
       desiredState := desired.text
       msgGroup := sender.msgGroup
       severity := sender.severity } : ProcessFailEvent)
  | serviceFail sender host service current desired label =>
    ({ hostname := host.text
       platformId := sender.platformId
       agentVersion := sender.agentVersion
       serviceName := service.text
       currentState := current.text
       desiredState := desired.text
       serviceLabel := label.text
       msgGroup := sender.msgGroup
       msgSeverity := sender.severity } : ServiceFailEvent)
  | clusterFail host platform resourceGroup cluster state =>
    ({ hostname := host.text
       platformId := platform.text
       resourceGroup := resourceGroup.text
       clusterName := cluster.text
       state := state.text } : ClusterFailEvent)
  | startMaintenance platform host user description duration =>
    ({ hostname := host.text
       platformId := platformOr platform
       userName := user.text
       description := description.text
       duration := duration.text
       durationSeconds := seconds } : StartMaintenanceEvent)
  | error platform host message severity =>
    ({ hostname := host.text
       platformId := platformOr platform
       message := message.text
       severity := severity.text } : ErrorEvent)
  | hello host none => ({ hostname := host.text, sourceIp := dotted (addressOctets srcAddr) } : HelloEvent)
  | hello host (some i) =>
    ({ hostname := host.text
       platformId := i.platform.text
       sourceIp := dotted (addressOctets srcAddr)
       osFlavor := i.osFlavor.text
       ugmonVersion := i.ugmonVersion.text } : HelloEvent)
  | goodbye host none => ({ hostname := host.text } : GoodbyeEvent)
  | goodbye host (some i) =>
    ({ hostname := host.text
       platformId := i.platform.text
       ugmonVersion := i.ugmonVersion.text
       osFlavor := i.osFlavor.text } : GoodbyeEvent)

/-- A duration that is a number counts minutes. -/
def Takes (seconds : UInt64) : AgentMessage → Prop
  | startMaintenance _ _ _ _ duration =>
    ∀ n, integerOf duration.text = some n → (seconds.toNat : ℤ) = 60 * n
  | _ => True

def StandsFor (m : AgentMessage) (srcAddr : UInt32) (e : m.layoutClass.Event) : Prop :=
  ∃ seconds, m.Takes seconds ∧ e = m.event srcAddr seconds

/-- A host that says hello has a name. -/
def Named : AgentMessage → Prop
  | hello host _ => host.text ≠ [] ∧ host.text ≠ wcs " "
  | _ => True

/-- The version of the newest agents is not noted for a service failure, and the seconds of a
maintenance are computed in 32 bits. -/
def Understood : AgentMessage → Prop
  | serviceFail (.from1_13 ..) .. => False
  | startMaintenance _ _ _ _ duration =>
    ∀ n, integerOf duration.text = some n → 0 ≤ n ∧ 60 * n < 2 ^ 31
  | _ => True

/-- The bindings of a message: its arguments as octet strings, under whatever names. -/
def SentAs (m : AgentMessage) (varbinds : List Varbind) : Prop :=
  varbinds.map Varbind.value = m.arguments.map Value.octetString

/-- The packet is a notification or a version 1 trap with the arguments of the message. -/
def CarriedBy (m : AgentMessage) (packet : SSnmpPacket) : Prop :=
  (∃ n : Notification, m.SentAs n.varbinds ∧ n.Encodes IsLength packet.buf) ∨
    ∃ n : V1Trap, m.SentAs n.varbinds ∧ n.Encodes IsShortestLength packet.buf

theorem cstr_text (s : TextOctets) : cstr s.text = s.text := by
  unfold cstr
  rw [List.takeWhile_eq_self_iff]
  intro c hc
  obtain ⟨b, hb, rfl⟩ := List.mem_map.mp hc
  have hne : b ≠ 0 := (s.property b hb).1
  rw [decide_eq_true_eq]
  intro hzero
  apply hne
  exact UInt8.toUInt16_inj.mp hzero

theorem hasStringArgs_of_sentAs {m : AgentMessage} {varbinds : List Varbind} {trap : CSnmpTrap}
    (hsent : m.SentAs varbinds) (hvars : trap.varArgs = varbinds.map Varbind.toVar) :
    HasStringArgs trap (m.arguments.map TextOctets.text) := by
  have hvar : ∀ (v : Varbind) (s : TextOctets), v.value = .octetString s →
      (v.toVar.iValueType, v.toVar.wcsVal) = (SNMP_TYPE_STR, some s.text) := by
    rintro ⟨name, value⟩ s rfl
    rfl
  have hall : ∀ (vs : List Varbind) (args : List TextOctets),
      vs.map Varbind.value = args.map Value.octetString →
      (vs.map Varbind.toVar).map (fun v => (v.iValueType, v.wcsVal)) =
        (args.map TextOctets.text).map fun s => (SNMP_TYPE_STR, some s) := by
    intro vs
    induction vs with
    | nil =>
      intro args hargs
      cases args with
      | nil => rfl
      | cons s args => cases hargs
    | cons v vs ih =>
      intro args hargs
      cases args with
      | nil => cases hargs
      | cons s args =>
        obtain ⟨hhead, htail⟩ := List.cons.inj hargs
        simp only [List.map_cons]
        rw [hvar v s hhead, ih args htail]
  unfold HasStringArgs
  rw [hvars]
  exact hall varbinds m.arguments hsent

theorem decode_carried (platform : Platform) (uninit : UInt32) (raw : CSnmpTrap)
    (behind : Memory) {packet : SSnmpPacket} {m : AgentMessage} (h : m.CarriedBy packet) :
    ∃ trap c, (packet.decode platform uninit raw behind).outcome = .ok trap c ∧
      trap.ulSourceIP = ntohl packet.srcAddr ∧
      HasStringArgs trap (m.arguments.map TextOctets.text) := by
  obtain ⟨n, hsent, content, pdu, hfields, hpdu, hmessage⟩ |
    ⟨n, hsent, content, pdu, hfields, hpdu, hmessage⟩ := h
  · have htag : n.pduTag = SNMP_V1TRAP ∨ n.pduTag = SNMP_V2INFORM ∨ n.pduTag = SNMP_V2TRAP := by
      unfold Notification.pduTag
      cases n.inform <;> simp
    obtain ⟨pos, q₀, hmem₀, hend₀, hheader⟩ := decodeHeader_accepts definite_isLength platform
      (ofPacket packet raw) n.version.property hmessage hpdu htag
      (holdsAt_memoryOf packet.buf behind) packet.size_eq.symm
    obtain ⟨varbinds, q, hvarbinds, hmem, hend, hfieldsAcc⟩ := decodeV2_accepts definite_isLength
      (withHeader (ofPacket packet raw) n.version n.community pos n.pduTag) hfields hmem₀ hend₀
    rw [← decodeFields_of_v2 uninit rfl] at hfieldsAcc
    have hend' : q + varbinds.length = packet.packetSize.toNat := hend
    have hloop := varbindLoop_accepts definite_isLength [] hvarbinds hmem hend'
      (show varbinds.length ≤ packet.packetSize.toNat by omega)
    refine ⟨_, _, decode_accepts hheader hfieldsAcc hloop, rfl, ?_⟩
    exact hasStringArgs_of_sentAs hsent rfl
  · obtain ⟨pos, q₀, hmem₀, hend₀, hheader⟩ := decodeHeader_accepts definite_isShortestLength
      platform (ofPacket packet raw) n.version.property hmessage hpdu (.inl rfl)
      (holdsAt_memoryOf packet.buf behind) packet.size_eq.symm
    obtain ⟨varbinds, q, hvarbinds, hmem, hend, hfieldsAcc⟩ := decodeV1_accepts uninit
      (withHeader (ofPacket packet raw) n.version n.community pos SNMP_V1TRAP) hfields hmem₀ hend₀
    rw [← decodeFields_of_v1 uninit rfl] at hfieldsAcc
    have hend' : q + varbinds.length = packet.packetSize.toNat := hend
    have hloop := varbindLoop_accepts definite_isShortestLength [] hvarbinds hmem hend'
      (show varbinds.length ≤ packet.packetSize.toNat by omega)
    refine ⟨_, _, decode_accepts hheader hfieldsAcc hloop, rfl, ?_⟩
    exact hasStringArgs_of_sentAs hsent rfl

theorem ntohl_octets (a : UInt32) :
    ntohl a >>> 24 = a &&& (0xff : UInt32) ∧
      (ntohl a &&& (0x00ff0000 : UInt32)) >>> 16 = (a >>> 8) &&& (0xff : UInt32) ∧
      (ntohl a &&& (0x0000ff00 : UInt32)) >>> 8 = (a >>> 16) &&& (0xff : UInt32) ∧
      ntohl a &&& (0x000000ff : UInt32) = (a >>> 24) &&& (0xff : UInt32) := by
  have hbits : ∀ x y : UInt32, (∀ i < 32, x.toBitVec.getLsbD i = y.toBitVec.getLsbD i) → x = y := by
    intro x y h
    apply UInt32.toBitVec_inj.mp
    exact BitVec.eq_of_getLsbD_eq fun i hi => h i hi
  refine ⟨hbits _ _ ?_, hbits _ _ ?_, hbits _ _ ?_, hbits _ _ ?_⟩
  all_goals
    intro i hi
    simp only [ntohl]
    interval_cases i <;> simp [UInt32.toBitVec_and]

theorem toNat_and_octet (a : UInt32) : (a &&& (0xff : UInt32)).toNat = a.toUInt8.toNat := by
  rw [UInt32.toNat_toUInt8, UInt32.toNat_and]
  exact Nat.and_two_pow_sub_one_eq_mod a.toNat 8

theorem dottedIp_ntohl (srcAddr : UInt32) :
    dottedIp (ntohl srcAddr) = dotted (addressOctets srcAddr) := by
  obtain ⟨h0, h1, h2, h3⟩ := ntohl_octets srcAddr
  rw [dottedIp, h0, h1, h2, h3]
  simp only [toNat_and_octet, List.append_assoc]
  simp [dotted, addressOctets, List.intercalate, wcs, CSnmpOid.dot]

theorem toInt_minutes (duration : WStr) :
    (Int32.ofInt (wtoi duration) * 60).toInt64.toInt = (wtoi duration * 60).bmod (2 ^ 32) := by
  have hclamp : (Int32.ofInt (wtoi duration)).toInt = wtoi duration := by
    apply Int32.toInt_ofInt_of_le
    · unfold wtoi
      omega
    · unfold wtoi
      omega
  have hsixty : (60 : Int32).toInt = 60 := rfl
  rw [Int32.toInt_toInt64, Int32.toInt_mul, hclamp, hsixty]

theorem minutesToSeconds_iff {duration : WStr} {n : ℤ} (h : leadingNumber duration = n) :
    ((minutesToSeconds duration).toNat : ℤ) = 60 * n ↔ 0 ≤ n ∧ 60 * n < 2 ^ 31 := by
  have hlt : (minutesToSeconds duration).toNat < 2 ^ 64 := (minutesToSeconds duration).toNat_lt
  have hint : ((minutesToSeconds duration).toNat : ℤ).bmod (2 ^ 64) =
      (wtoi duration * 60).bmod (2 ^ 32) := by
    rw [← toInt_minutes, minutesToSeconds]
    generalize (Int32.ofInt (wtoi duration) * 60).toInt64 = seconds
    exact (BitVec.toInt_eq_toNat_bmod seconds.toBitVec).symm
  generalize (minutesToSeconds duration).toNat = s at hlt hint ⊢
  have hs : (s : ℤ) % (2 ^ 64 : ℕ) = s := Int.emod_eq_of_lt (Int.natCast_nonneg s) (mod_cast hlt)
  rw [Int.bmod_def, hs] at hint
  have hclamp : wtoi duration = max (-2 ^ 31) (min (2 ^ 31 - 1) n) := by rw [wtoi, h]
  by_cases hhigh : 2 ^ 31 - 1 ≤ n
  · have hvalue : ((2 ^ 31 - 1) * 60 : ℤ).bmod (2 ^ 32) = -60 := by decide
    have hlimit : wtoi duration = 2 ^ 31 - 1 := by omega
    rw [hlimit, hvalue] at hint
    split_ifs at hint
    omega
  · by_cases hfits : 0 ≤ n ∧ 60 * n < 2 ^ 31
    · have hn : wtoi duration = n := by omega
      have hmod : n * 60 % (2 ^ 32 : ℕ) = n * 60 := Int.emod_eq_of_lt (by omega) (by omega)
      rw [hn, Int.bmod_def, hmod] at hint
      split_ifs at hint <;> omega
    · rw [Int.bmod_def] at hint
      split_ifs at hint <;> omega

theorem strToSeverity_eq (s : WStr) :
    strToSeverity s = (Severity.ofText s).elim (wcs "Unknown") Severity.name := by
  have hsame : ∀ (lower : WStr) (n : Severity), lower.map toLower = n.name.map toLower →
      wcsicmpEq s lower = wcsicmpEq s n.name := by
    intro lower n heq
    rw [wcsicmpEq, wcsicmpEq, heq]
  have hcritical := hsame (wcs "critical") .critical (by decide)
  have hmajor := hsame (wcs "major") .major (by decide)
  have hminor := hsame (wcs "minor") .minor (by decide)
  have hwarning := hsame (wcs "warning") .warning (by decide)
  have hnormal := hsame (wcs "normal") .normal (by decide)
  rw [strToSeverity, hcritical, hmajor, hminor, hwarning, hnormal]
  simp only [Severity.ofText, List.find?_cons, List.find?_nil]
  cases wcsicmpEq s Severity.critical.name with
  | true => rfl
  | false =>
    cases wcsicmpEq s Severity.major.name with
    | true => rfl
    | false =>
      cases wcsicmpEq s Severity.minor.name with
      | true => rfl
      | false =>
        cases wcsicmpEq s Severity.warning.name with
        | true => rfl
        | false => cases wcsicmpEq s Severity.normal.name <;> rfl

/-- The four other classes end without a return statement. -/
def returned : LayoutClass → Option Bool
  | .processFail => some true
  | .startMaintenance => some true
  | .error => some true
  | _ => none

variable {trap : CSnmpTrap}

theorem parseTrap_processFail (sender : Sender) (host process current desired : TextOctets)
    (srcAddr : UInt32) (h : HasStringArgs trap
      ((processFail sender host process current desired).arguments.map TextOctets.text)) :
    ({} : ProcessFailEvent).parseTrap trap =
      some ⟨some true, (processFail sender host process current desired).event srcAddr 0⟩ := by
  cases sender with
  | before1_12 =>
    rw [processFail_short {} h]
    simp only [cstr_text]
    rfl
  | from1_12 platform =>
    rw [processFail_long {} h]
    simp only [cstr_text]
    rfl
  | from1_13 platform msgGroup severity =>
    simp [ProcessFailEvent.parseTrap, h.hasStrings_eq, h.wcsArg_eq, h.length_eq, arguments,
      cstr_text, event, Sender.platformId, Sender.msgGroup, Sender.severity, Sender.agentVersion,
      strToSeverity_eq]

theorem parseTrap_serviceFail (sender : Sender) (host service current desired label : TextOctets)
    (srcAddr : UInt32) (h : HasStringArgs trap
      ((serviceFail sender host service current desired label).arguments.map TextOctets.text)) :
    ({} : ServiceFailEvent).parseTrap trap =
      some ⟨none, ({ (serviceFail sender host service current desired label).event srcAddr 0 with
        agentVersion := .pre1_13 } : ServiceFailEvent)⟩ := by
  cases sender with
  | before1_12 =>
    rw [serviceFail_short {} h]
    simp only [cstr_text]
    rfl
  | from1_12 platform =>
    rw [serviceFail_long {} h]
    simp only [cstr_text]
    rfl
  | from1_13 platform msgGroup severity =>
    simp [ServiceFailEvent.parseTrap, h.hasStrings_eq, h.wcsArg_eq, h.length_eq, arguments,
      cstr_text, event, Sender.platformId, Sender.msgGroup, Sender.severity, strToSeverity_eq]

theorem parseTrap_startMaintenance (platform : Option TextOctets)
    (host user description duration : TextOctets) (srcAddr : UInt32)
    (h : HasStringArgs trap
      ((startMaintenance platform host user description duration).arguments.map
        TextOctets.text)) :
    ({} : StartMaintenanceEvent).parseTrap trap =
      some ⟨some true, (startMaintenance platform host user description duration).event srcAddr
        (minutesToSeconds duration.text)⟩ := by
  cases platform with
  | none =>
    rw [startMaintenance_short {} h]
    simp only [cstr_text]
    rfl
  | some platform =>
    rw [startMaintenance_long {} h]
    simp only [cstr_text]
    rfl

theorem parseTrap_error (platform : Option TextOctets) (host message severity : TextOctets)
    (srcAddr : UInt32) (h : HasStringArgs trap ((error platform host message severity).arguments.map
      TextOctets.text)) :
    ({} : ErrorEvent).parseTrap trap =
      some ⟨some true, (error platform host message severity).event srcAddr 0⟩ := by
  cases platform with
  | none =>
    rw [error_short {} h]
    simp only [cstr_text]
    rfl
  | some platform =>
    rw [error_long {} h]
    simp only [cstr_text]
    rfl

theorem parseTrap_hello {srcAddr : UInt32} (hip : trap.ulSourceIP = ntohl srcAddr)
    (host : TextOctets) (identity : Option Identity) (hnamed : (hello host identity).Named)
    (h : HasStringArgs trap ((hello host identity).arguments.map TextOctets.text)) :
    ({} : HelloEvent).parseTrap trap = some ⟨none, (hello host identity).event srcAddr 0⟩ := by
  have hname : ¬ (host.text = [] ∨ host.text = wcs " ") := not_or.mpr hnamed
  cases identity with
  | none =>
    simp [HelloEvent.parseTrap, h.hasStrings_eq, h.wcsArg_eq, h.length_eq, arguments, event,
      cstr_text, hname, hip, dottedIp_ntohl]
  | some i =>
    simp [HelloEvent.parseTrap, h.hasStrings_eq, h.wcsArg_eq, h.length_eq, arguments, event,
      cstr_text, hname, hip, dottedIp_ntohl]

theorem parseTrap_goodbye (host : TextOctets) (identity : Option Identity) (srcAddr : UInt32)
    (h : HasStringArgs trap ((goodbye host identity).arguments.map TextOctets.text)) :
    ({} : GoodbyeEvent).parseTrap trap =
      some ⟨none, (goodbye host identity).event srcAddr 0⟩ := by
  cases identity with
  | none =>
    simp [GoodbyeEvent.parseTrap, h.hasStrings_eq, h.wcsArg_eq, h.length_eq, arguments, cstr_text,
      event]
  | some i =>
    simp [GoodbyeEvent.parseTrap, h.hasStrings_eq, h.wcsArg_eq, h.length_eq, arguments, cstr_text,
      event]

theorem standsFor_event {m : AgentMessage} {srcAddr : UInt32} (htakes : m.Takes 0)
    (hunderstood : m.Understood) : m.StandsFor srcAddr (m.event srcAddr 0) ↔ m.Understood :=
  iff_of_true ⟨0, htakes, rfl⟩ hunderstood

theorem standsFor_serviceFail (sender : Sender) (host service current desired label : TextOctets)
    (srcAddr : UInt32) :
    (serviceFail sender host service current desired label).StandsFor srcAddr
      ({ (serviceFail sender host service current desired label).event srcAddr 0 with
        agentVersion := .pre1_13 } : ServiceFailEvent) ↔
      (serviceFail sender host service current desired label).Understood := by
  cases sender with
  | before1_12 => exact iff_of_true ⟨0, trivial, rfl⟩ trivial
  | from1_12 platform => exact iff_of_true ⟨0, trivial, rfl⟩ trivial
  | from1_13 platform msgGroup severity =>
    constructor
    · rintro ⟨seconds, _, heq⟩
      have hversion := congrArg (fun e : ServiceFailEvent => e.agentVersion) heq
      cases hversion
    · intro hfalse
      cases hfalse

theorem standsFor_startMaintenance (platform : Option TextOctets)
    (host user description duration : TextOctets) (srcAddr : UInt32) :
    (startMaintenance platform host user description duration).StandsFor srcAddr
      ((startMaintenance platform host user description duration).event srcAddr
        (minutesToSeconds duration.text)) ↔
      (startMaintenance platform host user description duration).Understood := by
  have htakes : (startMaintenance platform host user description duration).Takes
      (minutesToSeconds duration.text) ↔
        (startMaintenance platform host user description duration).Understood := by
    constructor
    · exact fun h n hn => (minutesToSeconds_iff (leadingNumber_of_integerOf hn)).mp (h n hn)
    · exact fun h n hn => (minutesToSeconds_iff (leadingNumber_of_integerOf hn)).mpr (h n hn)
  rw [← htakes]
  constructor
  · rintro ⟨seconds, hseconds, heq⟩
    have hsame := congrArg (fun e : StartMaintenanceEvent => e.durationSeconds) heq
    change minutesToSeconds duration.text = seconds at hsame
    rw [hsame]
    exact hseconds
  · exact fun h => ⟨_, h, rfl⟩

theorem parseTrap_event {srcAddr : UInt32} (hip : trap.ulSourceIP = ntohl srcAddr)
    (m : AgentMessage) (hnamed : m.Named)
    (h : HasStringArgs trap (m.arguments.map TextOctets.text)) :
    ∃ e, m.layoutClass.parseTrap (created m.layoutClass) trap =
        some ⟨returned m.layoutClass, e⟩ ∧ (m.StandsFor srcAddr e ↔ m.Understood) := by
  cases m with
  | processFail sender host process current desired =>
    exact ⟨_, parseTrap_processFail sender host process current desired srcAddr h,
      standsFor_event trivial trivial⟩
  | serviceFail sender host service current desired label =>
    exact ⟨_, parseTrap_serviceFail sender host service current desired label srcAddr h,
      standsFor_serviceFail sender host service current desired label srcAddr⟩
  | clusterFail host platform resourceGroup cluster state =>
    have hparse : ({} : ClusterFailEvent).parseTrap trap = some ⟨none,
        (clusterFail host platform resourceGroup cluster state).event srcAddr 0⟩ := by
      simp [ClusterFailEvent.parseTrap, h.hasStrings_eq, h.wcsArg_eq, arguments, cstr_text, event]
    exact ⟨_, hparse, standsFor_event trivial trivial⟩
  | startMaintenance platform host user description duration =>
    exact ⟨_, parseTrap_startMaintenance platform host user description duration srcAddr h,
      standsFor_startMaintenance platform host user description duration srcAddr⟩
  | error platform host message severity =>
    exact ⟨_, parseTrap_error platform host message severity srcAddr h,
      standsFor_event trivial trivial⟩
  | hello host identity =>
    exact ⟨_, parseTrap_hello hip host identity hnamed h, standsFor_event trivial trivial⟩
  | goodbye host identity =>
    exact ⟨_, parseTrap_goodbye host identity srcAddr h, standsFor_event trivial trivial⟩

/-- Whatever lies behind the packet, and whatever was in the memory of the object, a message that is
carried by a packet is decoded and parsed. The result is its event exactly if it is understood. -/
theorem received (platform : Platform) (uninit : UInt32) (raw : CSnmpTrap) (behind : Memory)
    (packet : SSnmpPacket) (m : AgentMessage) (hnamed : m.Named) (h : m.CarriedBy packet) :
    ∃ trap c e, (packet.decode platform uninit raw behind).outcome = .ok trap c ∧
      m.layoutClass.parseTrap (created m.layoutClass) trap =
        some ⟨returned m.layoutClass, e⟩ ∧
      (m.StandsFor packet.srcAddr e ↔ m.Understood) := by
  obtain ⟨trap, c, hdecode, hip, hargs⟩ := decode_carried platform uninit raw behind h
  obtain ⟨e, hparse, hstands⟩ := m.parseTrap_event hip hnamed hargs
  exact ⟨trap, c, e, hdecode, hparse, hstands⟩

/-- `testsystem` -/
def testOctets : List UInt8 := [116, 101, 115, 116, 115, 121, 115, 116, 101, 109]

theorem testOctets_text : ∀ b ∈ testOctets, b ≠ 0 ∧ b < 128 := by
  decide +kernel

def testHost : TextOctets := ⟨testOctets, testOctets_text⟩

theorem testHost_named : testHost.text ≠ [] ∧ testHost.text ≠ wcs " " := by
  decide +kernel

theorem received_hello :
    let m := hello testHost none
    m.event helloPacket.srcAddr 0 = ({
      hostname := wcs "testsystem"
      sourceIp := wcs "127.0.0.1" } : HelloEvent) ∧
    ∃ trap c, (helloPacket.decode .win32 0 default fun _ => 0xFF).outcome = .ok trap c ∧
      HelloEvent.parseTrap {} trap = some ⟨none, m.event helloPacket.srcAddr 0⟩ := by
  intro m
  have hcarried : m.CarriedBy helloPacket := .inl ⟨helloNotification, rfl, encodes_hello⟩
  have hnamed : m.Named := testHost_named
  obtain ⟨trap, c, e, hdecode, hparse, hstands⟩ :=
    received .win32 0 default (fun _ => 0xFF) helloPacket m hnamed hcarried
  obtain ⟨seconds, _, rfl⟩ := hstands.mpr trivial
  exact ⟨rfl, trap, c, hdecode, hparse⟩

end AgentMessage

end TrapHandler
