import TrapHandler.SnmpTrap

/-!
# Agent events

The events of the monitoring agent and how each reads the arguments of its trap. Older agents send
fewer arguments, so every class accepts more than one layout. A call of `ParseTrap` is `none` where it
reads through a null pointer.
-/

namespace TrapHandler

def noPlatform : WStr := wcs "UNKNOWN"

def versionPre11 : WStr := wcs "pre-1.11"

def defaultMsgGrp : WStr := wcs "OS_"

def defaultSeverity : WStr := wcs "Major"

def noOsInformation : WStr := wcs "No OS Information - Old version of UGMon"

inductive AgentVersion where
  | pre1_13
  | post1_13
  deriving DecidableEq, Repr

structure AgentEvent where
  hostname : WStr := []
  platformId : WStr := noPlatform
  agentVersion : AgentVersion := .pre1_13
  deriving DecidableEq, Repr

/-- The value of a call that ends without a return statement is `none`. -/
structure Parsed (ε : Type) where
  returned : Option Bool
  event : ε
  deriving DecidableEq, Repr

/-- `utils::str_to_severity` on a `const wchar_t*`. -/
def strToSeverity (str : WStr) : WStr :=
  if wcsicmpEq str (wcs "critical") then wcs "Critical"
  else if wcsicmpEq str (wcs "major") then wcs "Major"
  else if wcsicmpEq str (wcs "minor") then wcs "Minor"
  else if wcsicmpEq str (wcs "warning") then wcs "Warning"
  else if wcsicmpEq str (wcs "normal") then wcs "Normal"
  else wcs "Unknown"

namespace CSnmpTrap

/-- `varArgs.size() == n`, and the first `n` arguments are strings. -/
def hasStrings (trap : CSnmpTrap) (n : ℕ) : Bool :=
  trap.varArgs.length == n && trap.varArgs.all (fun v => v.iValueType == SNMP_TYPE_STR)

/-- `varArgs[i]->wcsVal` as a text. -/
def wcsArg (trap : CSnmpTrap) (i : ℕ) : Option WStr :=
  (trap.varArgs[i]?).bind fun v => v.wcsVal.map cstr

end CSnmpTrap

open CSnmpTrap

structure DiskMetricEvent extends AgentEvent where
  volumeName : WStr := []
  fsSizeMb : ℤ := 0
  availableSpaceMb : ℤ := 0
  deriving DecidableEq, Repr

/-- Both layouts take the volume name and the two sizes from the second to the fourth argument. -/
def DiskMetricEvent.parseTrap (self : DiskMetricEvent) (trap : CSnmpTrap) :
    Option (Parsed DiskMetricEvent) := do
  if hasStrings trap 4 || hasStrings trap 5 then
    let self ←
      if trap.varArgs.length == 4 then do
        let hostname ← wcsArg trap 0
        let volumeName ← wcsArg trap 1
        let fsSize ← wcsArg trap 2
        let availableSpace ← wcsArg trap 3
        pure { self with
          platformId := noPlatform
          hostname
          volumeName
          fsSizeMb := wcstoi64 fsSize
          availableSpaceMb := wcstoi64 availableSpace }
      else do
        let hostname ← wcsArg trap 0
        let platformId ← wcsArg trap 1
        let volumeName ← wcsArg trap 1
        let fsSize ← wcsArg trap 2
        let availableSpace ← wcsArg trap 3
        pure { self with
          hostname
          platformId
          volumeName
          fsSizeMb := wcstoi64 fsSize
          availableSpaceMb := wcstoi64 availableSpace }
    if self.fsSizeMb = I64_MAX ∨ self.fsSizeMb = I64_MIN ∨ self.availableSpaceMb = I64_MAX ∨
        self.availableSpaceMb = I64_MIN then
      pure ⟨some false, self⟩
    else
      pure ⟨some true, self⟩
  else
    pure ⟨some false, self⟩

structure ProcessFailEvent extends AgentEvent where
  processName : WStr := []
  currentState : WStr := []
  desiredState : WStr := []
  msgGroup : WStr := []
  severity : WStr := []
  deriving DecidableEq, Repr

/-- The four-argument layout has the desired state in front of the current one. -/
def ProcessFailEvent.parseTrap (self : ProcessFailEvent) (trap : CSnmpTrap) :
    Option (Parsed ProcessFailEvent) := do
  if hasStrings trap 4 || hasStrings trap 5 || hasStrings trap 7 then
    if trap.varArgs.length == 4 then
      let hostname ← wcsArg trap 0
      let processName ← wcsArg trap 1
      let currentState ← wcsArg trap 3
      let desiredState ← wcsArg trap 2
      pure ⟨some true, { self with
        hostname
        processName
        currentState
        desiredState
        platformId := noPlatform
        msgGroup := defaultMsgGrp
        severity := defaultSeverity }⟩
    else if trap.varArgs.length == 5 then
      let hostname ← wcsArg trap 0
      let platformId ← wcsArg trap 1
      let processName ← wcsArg trap 2
      let currentState ← wcsArg trap 3
      let desiredState ← wcsArg trap 4
      pure ⟨some true, { self with
        hostname
        platformId
        processName
        currentState
        desiredState
        msgGroup := defaultMsgGrp
        severity := defaultSeverity }⟩
    else
      let hostname ← wcsArg trap 0
      let platformId ← wcsArg trap 1
      let processName ← wcsArg trap 2
      let currentState ← wcsArg trap 3
      let desiredState ← wcsArg trap 4
      let msgGroup ← wcsArg trap 5
      let severity ← wcsArg trap 6
      pure ⟨some true, { self with
        agentVersion := .post1_13
        hostname
        platformId
        processName
        currentState
        desiredState
        msgGroup
        severity := strToSeverity severity }⟩
  else
    pure ⟨some false, self⟩

structure ServiceFailEvent extends AgentEvent where
  serviceName : WStr := []
  currentState : WStr := []
  desiredState : WStr := []
  serviceLabel : WStr := []
  msgGroup : WStr := []
  msgSeverity : WStr := []
  deriving DecidableEq, Repr

/-- There is no return statement behind an accepted layout. -/
def ServiceFailEvent.parseTrap (self : ServiceFailEvent) (trap : CSnmpTrap) :
    Option (Parsed ServiceFailEvent) := do
  if hasStrings trap 5 || hasStrings trap 6 || hasStrings trap 8 then
    if trap.varArgs.length == 5 then
      let hostname ← wcsArg trap 0
      let serviceName ← wcsArg trap 1
      let currentState ← wcsArg trap 3
      let desiredState ← wcsArg trap 2
      let serviceLabel ← wcsArg trap 4
      pure ⟨none, { self with
        hostname
        serviceName
        currentState
        desiredState
        serviceLabel
        msgGroup := defaultMsgGrp
        msgSeverity := defaultSeverity }⟩
    else if trap.varArgs.length == 6 then
      let hostname ← wcsArg trap 0
      let platformId ← wcsArg trap 1
      let serviceName ← wcsArg trap 2
      let currentState ← wcsArg trap 3
      let desiredState ← wcsArg trap 4
      let serviceLabel ← wcsArg trap 5
      pure ⟨none, { self with
        hostname
        platformId
        serviceName
        currentState
        desiredState
        serviceLabel
        msgGroup := defaultMsgGrp
        msgSeverity := defaultSeverity }⟩
    else
      let hostname ← wcsArg trap 0
      let platformId ← wcsArg trap 1
      let serviceName ← wcsArg trap 2
      let currentState ← wcsArg trap 3
      let desiredState ← wcsArg trap 4
      let serviceLabel ← wcsArg trap 5
      let msgGroup ← wcsArg trap 6
      let msgSeverity ← wcsArg trap 7
      pure ⟨none, { self with
        hostname
        platformId
        serviceName
        currentState
        desiredState
        serviceLabel
        msgGroup
        msgSeverity := strToSeverity msgSeverity }⟩
  else
    pure ⟨some false, self⟩

structure ClusterFailEvent extends AgentEvent where
  resourceGroup : WStr := []
  clusterName : WStr := []
  state : WStr := []
  deriving DecidableEq, Repr

def ClusterFailEvent.parseTrap (self : ClusterFailEvent) (trap : CSnmpTrap) :
    Option (Parsed ClusterFailEvent) := do
  if hasStrings trap 5 then
    let hostname ← wcsArg trap 0
    let platformId ← wcsArg trap 1
    let resourceGroup ← wcsArg trap 2
    let clusterName ← wcsArg trap 3
    let state ← wcsArg trap 4
    pure ⟨none, { self with hostname, platformId, resourceGroup, clusterName, state }⟩
  else
    pure ⟨some false, self⟩

structure StartMaintenanceEvent extends AgentEvent where
  userName : WStr := []
  description : WStr := []
  duration : WStr := []
  durationSeconds : UInt64 := 0
  deriving DecidableEq, Repr

/-- `_wtoi(duration) * 60` in 32 bits, converted to the unsigned type of the field. -/
def minutesToSeconds (duration : WStr) : UInt64 :=
  (Int32.ofInt (wtoi duration) * 60).toInt64.toUInt64

def StartMaintenanceEvent.parseTrap (self : StartMaintenanceEvent) (trap : CSnmpTrap) :
    Option (Parsed StartMaintenanceEvent) := do
  if hasStrings trap 4 || hasStrings trap 5 then
    if trap.varArgs.length == 4 then
      let hostname ← wcsArg trap 0
      let userName ← wcsArg trap 1
      let description ← wcsArg trap 2
      let duration ← wcsArg trap 3
      pure ⟨some true, { self with
        hostname
        userName
        description
        duration
        durationSeconds := minutesToSeconds duration }⟩
    else
      let hostname ← wcsArg trap 0
      let platformId ← wcsArg trap 1
      let userName ← wcsArg trap 2
      let description ← wcsArg trap 3
      let duration ← wcsArg trap 4
      pure ⟨some true, { self with
        hostname
        platformId
        userName
        description
        duration
        durationSeconds := minutesToSeconds duration }⟩
  else
    pure ⟨some false, self⟩

structure ErrorEvent extends AgentEvent where
  message : WStr := []
  severity : WStr := []
  deriving DecidableEq, Repr

def ErrorEvent.parseTrap (self : ErrorEvent) (trap : CSnmpTrap) : Option (Parsed ErrorEvent) := do
  if hasStrings trap 3 || hasStrings trap 4 then
    if trap.varArgs.length == 3 then
      let hostname ← wcsArg trap 0
      let message ← wcsArg trap 1
      let severity ← wcsArg trap 2
      pure ⟨some true, { self with hostname, message, severity }⟩
    else
      let hostname ← wcsArg trap 0
      let platformId ← wcsArg trap 1
      let message ← wcsArg trap 2
      let severity ← wcsArg trap 3
      pure ⟨some true, { self with hostname, platformId, message, severity }⟩
  else
    pure ⟨some false, self⟩

structure HelloEvent extends AgentEvent where
  sourceIp : WStr := []
  osFlavor : WStr := noOsInformation
  ugmonVersion : WStr := versionPre11
  deriving DecidableEq, Repr

/-- `L"%u.%u.%u.%u"` of the four octets. -/
def dottedIp (ip : UInt32) : WStr :=
  decimal (ip >>> 24).toNat ++ wcs "." ++ decimal ((ip &&& 0x00ff0000) >>> 16).toNat ++ wcs "." ++
    decimal ((ip &&& 0x0000ff00) >>> 8).toNat ++ wcs "." ++ decimal (ip &&& 0x000000ff).toNat

/-- The address is left alone where the host name is empty or a blank. -/
def HelloEvent.parseTrap (self : HelloEvent) (trap : CSnmpTrap) : Option (Parsed HelloEvent) := do
  if hasStrings trap 1 || hasStrings trap 4 then
    let self ←
      if trap.varArgs.length == 1 then do
        let hostname ← wcsArg trap 0
        pure { self with hostname }
      else do
        let hostname ← wcsArg trap 0
        let platformId ← wcsArg trap 1
        let osFlavor ← wcsArg trap 2
        let ugmonVersion ← wcsArg trap 3
        pure { self with hostname, platformId, osFlavor, ugmonVersion }
    if self.hostname = [] ∨ self.hostname = wcs " " then
      pure ⟨none, self⟩
    else
      pure ⟨none, { self with sourceIp := dottedIp trap.ulSourceIP }⟩
  else
    pure ⟨some false, self⟩

structure GoodbyeEvent extends AgentEvent where
  ugmonVersion : WStr := versionPre11
  osFlavor : WStr := noOsInformation
  deriving DecidableEq, Repr

def GoodbyeEvent.parseTrap (self : GoodbyeEvent) (trap : CSnmpTrap) :
    Option (Parsed GoodbyeEvent) := do
  if hasStrings trap 1 || hasStrings trap 4 then
    let hostname ← wcsArg trap 0
    let self := { self with ugmonVersion := versionPre11, hostname }
    if trap.varArgs.length == 4 then
      let platformId ← wcsArg trap 1
      let osFlavor ← wcsArg trap 2
      let ugmonVersion ← wcsArg trap 3
      pure ⟨none, { self with platformId, osFlavor, ugmonVersion }⟩
    else
      pure ⟨none, self⟩
  else
    pure ⟨some false, self⟩

end TrapHandler
