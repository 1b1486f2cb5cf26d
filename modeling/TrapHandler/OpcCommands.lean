import TrapHandler.HostStore
import TrapHandler.AgentEvents

/-!
# Commands for the message browser

The `opcmsg` command lines: those that `OpcNotificationHandler` queues for a host, and those that the
events of the agent write themselves. All of them append their fields to fixed texts.
-/

namespace TrapHandler

/-- `std::toupper`. -/
def toUpper (c : WChar) : WChar := if 0x61 ≤ c && c ≤ 0x7A then c - 0x20 else c

/-- `utils::iequals`. `std::equal` runs over the first text; behind the second one it meets the
terminator, which equals no character of a text. -/
def iequals : WStr → WStr → Bool
  | [], _ => true
  | _ :: _, [] => false
  | c1 :: str1, c2 :: str2 => toUpper c1 == toUpper c2 && iequals str1 str2

/-- `std::replace` of double quotes by single ones. -/
def replaceQuotes (str : WStr) : WStr := str.map fun c => if c = 0x22 then 0x27 else c

/-- `utils::remove_str_quotes_and_back_spaces`. -/
def removeStrQuotesAndBackSpaces (str : WStr) : WStr :=
  str.map fun c => if c = 0x22 then 0x27 else if c = 0x5C then 0x2F else c

namespace OpcNotificationHandler

def helloFromHost (host : Host) : WStr :=
  wcs "opcmsg a=UGMon o=helloMessage -node=" ++
    host.hostname ++
    wcs " msg_t=\"host='" ++
    host.hostname ++
    wcs "' platform='" ++
    host.platform ++
    wcs "' OSFlavor='" ++
    host.architecture ++
    wcs "' SourceIP='" ++
    host.ip ++
    wcs "' UGMonVer='" ++
    host.ugmonVersion ++
    wcs "'\""

def goodbyeFromHost (host : Host) : WStr :=
  wcs "opcmsg a=UGMon o=goodbyeMessage -node=" ++
    host.hostname ++
    wcs " msg_t=\"host='" ++
    host.hostname ++
    wcs "' platform='" ++
    host.platform ++
    wcs "' UGMonVer='" ++
    host.ugmonVersion ++
    wcs "'\""

def processStateChange (host : Host) (messageGroup defaultMessageGroup severity processName
    currentState desiredState : WStr) (post1_13 : Bool) : WStr :=
  (if post1_13 then wcs "opcmsg a=UGMon1_13 o=processState -node="
    else wcs "opcmsg a=UGMon o=processState -node=") ++
    host.hostname ++
    wcs " msg_grp=" ++
    messageGroup ++
    (if iequals messageGroup defaultMessageGroup then host.platform else []) ++
    wcs " sev=" ++
    severity ++
    wcs " msg_t=\"host='" ++
    host.hostname ++
    wcs "' process='" ++
    processName ++
    wcs "' currentState='" ++
    currentState ++
    wcs "' desiredState='" ++
    desiredState ++
    wcs "' platform='" ++
    host.platform ++
    wcs "'\" -option currentState=" ++
    currentState ++
    wcs " -option desiredState=" ++
    desiredState

def serviceStateChange (host : Host) (messageGroup defaultMessageGroup severity serviceName
    currentState desiredState serviceCaption : WStr) (post1_13 : Bool) : WStr :=
  (if post1_13 then wcs "opcmsg a=UGMon1_13 o=serviceState -node="
    else wcs "opcmsg a=UGMon o=serviceState -node=") ++
    host.hostname ++
    wcs " msg_grp=" ++
    messageGroup ++
    (if iequals messageGroup defaultMessageGroup then host.platform else []) ++
    wcs " sev=" ++
    severity ++
    wcs " msg_t=\"host='" ++
    host.hostname ++
    wcs "' service='" ++
    serviceName ++
    wcs "' currentState='" ++
    currentState ++
    wcs "' desiredState='" ++
    desiredState ++
    wcs "' platform='" ++
    host.platform ++
    wcs "'\" -option currentState=" ++
    currentState ++
    wcs " -option desiredState=" ++
    desiredState ++
    wcs " -option label=\"" ++
    replaceQuotes serviceCaption ++
    wcs "\""

end OpcNotificationHandler

def HelloEvent.toCmdStr (self : HelloEvent) : WStr :=
  wcs "opcmsg a=UGMon o=helloMessage -node=" ++
    self.hostname ++
    wcs " msg_t=\"host='" ++
    self.hostname ++
    wcs "' platform='" ++
    self.platformId ++
    wcs "' OSFlavor='" ++
    self.osFlavor ++
    wcs "' SourceIP='" ++
    self.sourceIp ++
    wcs "' UGMonVer='" ++
    self.ugmonVersion ++
    wcs "'\""

/-- The message text starts with an empty host name. -/
def GoodbyeEvent.toCmdStr (self : GoodbyeEvent) : WStr :=
  wcs "opcmsg a=UGMon o=goodbyeMessage -node=" ++
    self.hostname ++
    wcs " msg_t=\"host='" ++
    wcs "' platform='" ++
    self.platformId ++
    wcs "' UGMonVer='" ++
    self.ugmonVersion ++
    wcs "'\""

def ProcessFailEvent.toCmdStr (self : ProcessFailEvent) : WStr :=
  (if self.agentVersion = .post1_13 then wcs "opcmsg a=UGMon1_13 o=processState -node="
    else wcs "opcmsg a=UGMon o=processState -node=") ++
    self.hostname ++
    wcs " msg_grp=" ++
    self.msgGroup ++
    (if self.msgGroup = defaultMsgGrp then self.platformId else []) ++
    wcs " sev=" ++
    self.severity ++
    wcs " msg_t=\"host='" ++
    self.hostname ++
    wcs "' process='" ++
    self.processName ++
    wcs "' currentState='" ++
    self.currentState ++
    wcs "' desiredState='" ++
    self.desiredState ++
    wcs "' platform='" ++
    self.platformId ++
    wcs "'\" -option currentState=" ++
    self.currentState ++
    wcs " -option desiredState=" ++
    self.desiredState

/-- There is no space in front of the message text. The version is compared by `>=`, and there is no
later one. -/
def ServiceFailEvent.toCmdStr (self : ServiceFailEvent) : WStr :=
  wcs "opcmsg o=serviceState -node=" ++
    self.hostname ++
    (if self.agentVersion = .post1_13 then wcs " a=UGMon1_13 msg_grp="
      else wcs " a=UGMon msg_grp=") ++
    self.msgGroup ++
    (if self.msgGroup = defaultMsgGrp then self.platformId else []) ++
    wcs " sev=" ++
    self.msgSeverity ++
    wcs "msg_t=\"host='" ++
    self.hostname ++
    wcs "' service='" ++
    self.serviceName ++
    wcs "' currentState='" ++
    self.currentState ++
    wcs "' desiredState='" ++
    self.desiredState ++
    wcs "' platform='" ++
    self.platformId ++
    wcs "'\" -option currentstate=" ++
    self.currentState ++
    wcs " -option desiredState=" ++
    self.desiredState ++
    wcs " -option label=\"" ++
    self.serviceLabel ++
    wcs "\""

structure GenericEvent extends AgentEvent where
  oid : WStr := []
  sourceIp : WStr := []
  args : List WStr := []
  deriving DecidableEq, Repr

namespace GenericEvent

/-- The cast of the object identifier is one of its pointer: the text is what `objectText` finds in
the memory of the object. The address of the sender is formatted and then dropped. -/
def parseTrap (objectText : CSnmpOid → WStr) (self : GenericEvent) (trap : CSnmpTrap) :
    Option (Parsed GenericEvent) := do
  if trap.varArgs.length = 0 then
    pure ⟨some false, self⟩
  else
    let trapOid ← trap.trapOid
    let hostname ← trap.wcsArg 0
    let args ← trap.varArgs.mapM fun v => v.wcsVal.map (removeStrQuotesAndBackSpaces ∘ cstr)
    pure ⟨some true, { self with
      oid := objectText trapOid
      hostname
      args := self.args ++ args }⟩

/-- `L"..." + i` points into the literal, up to its terminator. -/
def pointInto (literal : WStr) (i : ℕ) : Option WStr :=
  if i ≤ literal.length then some (literal.drop i) else none

/-- The loop over the arguments, from the `i`-th on. -/
def argOptions : ℕ → List WStr → Option WStr
  | _, [] => some []
  | i, arg :: args => do
    let option ← pointInto (wcs " -option ARG") i
    let rest ← argOptions (i + 1) args
    pure (option ++ (wcs "=\"" ++ arg ++ wcs "\"") ++ rest)

def toCmdStr (self : GenericEvent) : Option WStr := do
  let options ← argOptions 0 self.args
  pure (wcs "opcmsg a=UGMon o=Generic_Trap msg_t=\"Generic trap received: " ++
    self.oid ++
    wcs "\" -node=" ++ self.hostname ++
    wcs " -option trapOid=" ++ self.oid ++
    wcs " -option sourceIP=" ++ self.sourceIp ++
    options)

end GenericEvent

end TrapHandler
