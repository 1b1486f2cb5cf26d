import TrapHandler.ArgumentTemplates
import TrapHandler.OpcCommands

/-!
# Two builders for one command

Each of four notifications has a command line written by the event and another one written by the
notification handler for the host of the event. They stand for the same call if they split into the
same arguments in some order.
-/

namespace TrapHandler

open ArgumentTemplates

inductive AgentNotification where
  | hello (event : HelloEvent)
  | goodbye (event : GoodbyeEvent)
  | processState (event : ProcessFailEvent)
  | serviceState (event : ServiceFailEvent)
  deriving DecidableEq, Repr

namespace AgentNotification

def eventCommand : AgentNotification → WStr
  | hello event => event.toCmdStr
  | goodbye event => event.toCmdStr
  | processState event => event.toCmdStr
  | serviceState event => event.toCmdStr

def hostOf (event : AgentEvent) : Host :=
  { hostname := event.hostname, platform := event.platformId }

def handlerCommand : AgentNotification → WStr
  | hello event =>
    OpcNotificationHandler.helloFromHost { hostOf event.toAgentEvent with
      architecture := event.osFlavor
      ip := event.sourceIp
      ugmonVersion := event.ugmonVersion }
  | goodbye event =>
    OpcNotificationHandler.goodbyeFromHost { hostOf event.toAgentEvent with
      architecture := event.osFlavor
      ugmonVersion := event.ugmonVersion }
  | processState event =>
    OpcNotificationHandler.processStateChange (hostOf event.toAgentEvent) event.msgGroup
      defaultMsgGrp event.severity event.processName event.currentState event.desiredState
      (event.agentVersion == .post1_13)
  | serviceState event =>
    OpcNotificationHandler.serviceStateChange (hostOf event.toAgentEvent) event.msgGroup
      defaultMsgGrp event.msgSeverity event.serviceName event.currentState event.desiredState
      event.serviceLabel (event.agentVersion == .post1_13)

def SameCall (n : AgentNotification) : Prop :=
  (split (0x20 : WChar) 0x22 n.eventCommand).Perm (split 0x20 0x22 n.handlerCommand)

/-- Where the two builders do the same. The event compares the message group by `==`, the handler by
`iequals`. -/
def Coincides : AgentNotification → Prop
  | hello _ => True
  | goodbye event => event.hostname = []
  | processState event =>
    iequals event.msgGroup defaultMsgGrp = true →
      event.msgGroup = defaultMsgGrp ∨ event.platformId = []
  | serviceState _ => False

theorem sameCall_of_eq {n : AgentNotification} (h : n.eventCommand = n.handlerCommand) :
    n.SameCall := by
  rw [SameCall, h]

theorem length_of_sameCall {n : AgentNotification} (h : n.SameCall) :
    n.eventCommand.length = n.handlerCommand.length := length_eq_of_perm _ _ h

theorem length_goodbye (event : GoodbyeEvent) :
    (goodbye event).handlerCommand.length =
      (goodbye event).eventCommand.length + event.hostname.length := by
  simp only [handlerCommand, eventCommand, OpcNotificationHandler.goodbyeFromHost,
    GoodbyeEvent.toCmdStr, hostOf, List.length_append]
  omega

theorem iequals_self (str : WStr) : iequals str str = true := by
  induction str with
  | nil => rfl
  | cons c str ih => rw [iequals, beq_self_eq_true, ih, Bool.true_and]

theorem length_processState (event : ProcessFailEvent) :
    (processState event).handlerCommand.length +
        (if event.msgGroup = defaultMsgGrp then event.platformId else []).length =
      (processState event).eventCommand.length +
        (if iequals event.msgGroup defaultMsgGrp then event.platformId else []).length := by
  unfold handlerCommand eventCommand OpcNotificationHandler.processStateChange
    ProcessFailEvent.toCmdStr hostOf
  simp only [List.length_append, beq_iff_eq]
  omega

theorem length_serviceHead (version : AgentVersion) :
    (if version = .post1_13 then wcs "opcmsg a=UGMon1_13 o=serviceState -node="
        else wcs "opcmsg a=UGMon o=serviceState -node=").length + (wcs " msg_grp=").length =
      (wcs "opcmsg o=serviceState -node=").length +
        (if version = .post1_13 then wcs " a=UGMon1_13 msg_grp="
          else wcs " a=UGMon msg_grp=").length := by
  cases version <;> decide

theorem length_serviceState (event : ServiceFailEvent) :
    (serviceState event).handlerCommand.length +
        (if event.msgGroup = defaultMsgGrp then event.platformId else []).length =
      (serviceState event).eventCommand.length +
        (if iequals event.msgGroup defaultMsgGrp then event.platformId else []).length + 1 := by
  have hhead := length_serviceHead event.agentVersion
  have htext : (wcs " msg_t=\"host='").length = (wcs "msg_t=\"host='").length + 1 := by decide
  have hoption : (wcs "'\" -option currentState=").length =
      (wcs "'\" -option currentstate=").length := by decide
  unfold handlerCommand eventCommand OpcNotificationHandler.serviceStateChange
    ServiceFailEvent.toCmdStr hostOf replaceQuotes
  simp only [List.length_append, List.length_map, beq_iff_eq]
  omega

theorem eventCommand_processState {event : ProcessFailEvent}
    (h : (if event.msgGroup = defaultMsgGrp then event.platformId else []) =
      if iequals event.msgGroup defaultMsgGrp then event.platformId else []) :
    (processState event).eventCommand = (processState event).handlerCommand := by
  unfold handlerCommand eventCommand OpcNotificationHandler.processStateChange
    ProcessFailEvent.toCmdStr hostOf
  simp only [h, beq_iff_eq]

theorem sameCall_goodbye_iff (event : GoodbyeEvent) :
    (goodbye event).SameCall ↔ event.hostname = [] := by
  constructor
  · intro h
    have hlen := length_of_sameCall h
    rw [length_goodbye] at hlen
    exact List.length_eq_zero_iff.mp (by omega)
  · intro h
    apply sameCall_of_eq
    rw [eventCommand, handlerCommand, GoodbyeEvent.toCmdStr, OpcNotificationHandler.goodbyeFromHost,
      hostOf, h]
    simp only [List.append_nil]

theorem sameCall_processState_iff (event : ProcessFailEvent) :
    (processState event).SameCall ↔
      (iequals event.msgGroup defaultMsgGrp = true →
        event.msgGroup = defaultMsgGrp ∨ event.platformId = []) := by
  by_cases hdefault : event.msgGroup = defaultMsgGrp
  · refine iff_of_true (sameCall_of_eq (eventCommand_processState ?_)) fun _ => Or.inl hdefault
    rw [hdefault, if_pos rfl, if_pos (iequals_self _)]
  · have hlen := length_processState event
    rw [if_neg hdefault, List.length_nil] at hlen
    by_cases hequals : iequals event.msgGroup defaultMsgGrp = true
    · rw [if_pos hequals] at hlen
      constructor
      · intro h _
        have heq := length_of_sameCall h
        exact Or.inr (List.length_eq_zero_iff.mp (by omega))
      · intro h
        have hplatform := (h hequals).resolve_left hdefault
        apply sameCall_of_eq
        apply eventCommand_processState
        rw [if_neg hdefault, if_pos hequals, hplatform]
    · refine iff_of_true (sameCall_of_eq (eventCommand_processState ?_)) fun h => absurd h hequals
      rw [if_neg hdefault, if_neg hequals]

theorem not_sameCall_serviceState (event : ServiceFailEvent) :
    ¬ (serviceState event).SameCall := by
  intro h
  have hlen := length_serviceState event
  have heq := length_of_sameCall h
  by_cases hdefault : event.msgGroup = defaultMsgGrp
  · rw [hdefault, if_pos rfl, if_pos (iequals_self _)] at hlen
    omega
  · rw [if_neg hdefault, List.length_nil] at hlen
    omega

/-- The two builders write the same call for every hello message, for a goodbye message without a
host name, for a process whose message group is compared alike or whose host has no platform, and
never for a service. -/
theorem sameCall_iff (n : AgentNotification) : n.SameCall ↔ n.Coincides := by
  cases n with
  | hello event => exact iff_of_true (sameCall_of_eq rfl) trivial
  | goodbye event => exact sameCall_goodbye_iff event
  | processState event => exact sameCall_processState_iff event
  | serviceState event => exact iff_of_false (not_sameCall_serviceState event) id

def spoolerEvent : ServiceFailEvent where
  hostname := wcs "osi1112"
  platformId := wcs "WINDOWS"
  serviceName := wcs "Spooler"
  currentState := wcs "Stopped"
  desiredState := wcs "Running"
  serviceLabel := wcs "Print Spooler"
  msgGroup := defaultMsgGrp
  msgSeverity := defaultSeverity

/-- The severity and the message text become one argument. -/
theorem spoolerEvent_not_sameCall : ¬ (serviceState spoolerEvent).SameCall :=
  not_sameCall_serviceState spoolerEvent

end AgentNotification

end TrapHandler
