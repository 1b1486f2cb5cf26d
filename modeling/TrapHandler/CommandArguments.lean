import TrapHandler.ArgumentTemplates
import TrapHandler.OpcCommands

/-!
# The arguments of the commands

Which fields can change how an `opcmsg` command line splits. Fields between quotes must keep the
quotes balanced, and fields outside of quotes must in addition contain no space.
-/

namespace TrapHandler

open ArgumentTemplates

namespace OpcCommand

def space : WChar := 0x20

def quote : WChar := 0x22

def equalsSign : WChar := 0x3D

end OpcCommand

open OpcCommand

/-- The commands of the notification handler, and the one of a generic event. -/
inductive OpcCommand where
  | hello (host : Host)
  | goodbye (host : Host)
  | processState (host : Host) (messageGroup defaultMessageGroup severity processName currentState
      desiredState : WStr) (post1_13 : Bool)
  | serviceState (host : Host) (messageGroup defaultMessageGroup severity serviceName currentState
      desiredState serviceCaption : WStr) (post1_13 : Bool)
  | generic (event : GenericEvent)
  deriving Repr

namespace OpcCommand

def command : OpcCommand → Option WStr
  | hello host => some (OpcNotificationHandler.helloFromHost host)
  | goodbye host => some (OpcNotificationHandler.goodbyeFromHost host)
  | processState host group default severity name current desired post =>
    some (OpcNotificationHandler.processStateChange host group default severity name current desired
      post)
  | serviceState host group default severity name current desired caption post =>
    some (OpcNotificationHandler.serviceStateChange host group default severity name current desired
      caption post)
  | generic event => event.toCmdStr

def groupText (host : Host) (group default : WStr) : WStr :=
  group ++ if iequals group default then host.platform else []

def helloTemplate (host : Host) : Template WChar :=
  text (wcs "opcmsg a=UGMon o=helloMessage -node=") ++ (field host.hostname ++
    (text (wcs " msg_t=\"host='") ++ (field host.hostname ++
    (text (wcs "' platform='") ++ (field host.platform ++
    (text (wcs "' OSFlavor='") ++ (field host.architecture ++
    (text (wcs "' SourceIP='") ++ (field host.ip ++
    (text (wcs "' UGMonVer='") ++ (field host.ugmonVersion ++
    text (wcs "'\""))))))))))))

def goodbyeTemplate (host : Host) : Template WChar :=
  text (wcs "opcmsg a=UGMon o=goodbyeMessage -node=") ++ (field host.hostname ++
    (text (wcs " msg_t=\"host='") ++ (field host.hostname ++
    (text (wcs "' platform='") ++ (field host.platform ++
    (text (wcs "' UGMonVer='") ++ (field host.ugmonVersion ++
    text (wcs "'\""))))))))

def processHead (post : Bool) : WStr :=
  if post then wcs "opcmsg a=UGMon1_13 o=processState -node="
  else wcs "opcmsg a=UGMon o=processState -node="

def processTemplate (host : Host) (group severity name current desired : WStr) (post : Bool) :
    Template WChar :=
  text (processHead post) ++ (field host.hostname ++
    (text (wcs " msg_grp=") ++ (field group ++
    (text (wcs " sev=") ++ (field severity ++
    (text (wcs " msg_t=\"host='") ++ (field host.hostname ++
    (text (wcs "' process='") ++ (field name ++
    (text (wcs "' currentState='") ++ (field current ++
    (text (wcs "' desiredState='") ++ (field desired ++
    (text (wcs "' platform='") ++ (field host.platform ++
    (text (wcs "'\" -option currentState=") ++ (field current ++
    (text (wcs " -option desiredState=") ++ (field desired ++ text [])))))))))))))))))))

def serviceHead (post : Bool) : WStr :=
  if post then wcs "opcmsg a=UGMon1_13 o=serviceState -node="
  else wcs "opcmsg a=UGMon o=serviceState -node="

def serviceTemplate (host : Host) (group severity name current desired caption : WStr)
    (post : Bool) : Template WChar :=
  text (serviceHead post) ++ (field host.hostname ++
    (text (wcs " msg_grp=") ++ (field group ++
    (text (wcs " sev=") ++ (field severity ++
    (text (wcs " msg_t=\"host='") ++ (field host.hostname ++
    (text (wcs "' service='") ++ (field name ++
    (text (wcs "' currentState='") ++ (field current ++
    (text (wcs "' desiredState='") ++ (field desired ++
    (text (wcs "' platform='") ++ (field host.platform ++
    (text (wcs "'\" -option currentState=") ++ (field current ++
    (text (wcs " -option desiredState=") ++ (field desired ++
    (text (wcs " -option label=\"") ++ (field (replaceQuotes caption) ++
    text (wcs "\""))))))))))))))))))))))

def argTemplate : ℕ → List WStr → Template WChar
  | _, [] => []
  | i, arg :: args =>
    text ((wcs " -option ARG").drop i ++ wcs "=\"") ++ (field arg ++
      (text (wcs "\"") ++ argTemplate (i + 1) args))

def genericTemplate (event : GenericEvent) : Template WChar :=
  text (wcs "opcmsg a=UGMon o=Generic_Trap msg_t=\"Generic trap received: ") ++ (field event.oid ++
    (text (wcs "\" -node=") ++ (field event.hostname ++
    (text (wcs " -option trapOid=") ++ (field event.oid ++
    (text (wcs " -option sourceIP=") ++ (field event.sourceIp ++
    argTemplate 0 event.args)))))))

def template : OpcCommand → Template WChar
  | hello host => helloTemplate host
  | goodbye host => goodbyeTemplate host
  | processState host group default severity name current desired post =>
    processTemplate host (groupText host group default) severity name current desired post
  | serviceState host group default severity name current desired caption post =>
    serviceTemplate host (groupText host group default) severity name current desired caption post
  | generic event => genericTemplate event

theorem pointInto_eq (i : ℕ) : GenericEvent.pointInto (wcs " -option ARG") i =
    if i ≤ 12 then some ((wcs " -option ARG").drop i) else none := rfl

theorem argOptions_eq (i : ℕ) (args : List WStr) :
    GenericEvent.argOptions i args =
      if args.length ≤ 13 - i then some (fill (argTemplate i args)) else none := by
  induction args generalizing i with
  | nil =>
    have hlen : ([] : List WStr).length ≤ 13 - i := Nat.zero_le (13 - i)
    rw [if_pos hlen]
    rfl
  | cons arg args ih =>
    rw [GenericEvent.argOptions, pointInto_eq, ih, List.length_cons]
    by_cases hi : i ≤ 12
    · rw [if_pos hi]
      by_cases hlen : args.length ≤ 13 - (i + 1)
      · have hlen' : args.length + 1 ≤ 13 - i := by omega
        rw [if_pos hlen, if_pos hlen', argTemplate]
        simp only [Option.bind_eq_bind, Option.bind_some, Option.pure_def, fill_append, fill_text,
          fill_field, List.append_assoc]
      · have hlen' : ¬ args.length + 1 ≤ 13 - i := by omega
        rw [if_neg hlen, if_neg hlen']
        rfl
    · have hlen' : ¬ args.length + 1 ≤ 13 - i := by omega
      rw [if_neg hi, if_neg hlen']
      rfl

def Built : OpcCommand → Prop
  | generic event => event.args.length ≤ 13
  | _ => True

theorem fill_helloTemplate (host : Host) :
    fill (helloTemplate host) = OpcNotificationHandler.helloFromHost host := by
  unfold helloTemplate OpcNotificationHandler.helloFromHost
  simp only [fill_append, fill_text, fill_field, List.append_assoc]

theorem fill_goodbyeTemplate (host : Host) :
    fill (goodbyeTemplate host) = OpcNotificationHandler.goodbyeFromHost host := by
  unfold goodbyeTemplate OpcNotificationHandler.goodbyeFromHost
  simp only [fill_append, fill_text, fill_field, List.append_assoc]

theorem fill_processTemplate (host : Host) (group default severity name current desired : WStr)
    (post : Bool) :
    fill (processTemplate host (groupText host group default) severity name current desired post) =
      OpcNotificationHandler.processStateChange host group default severity name current desired
        post := by
  unfold processTemplate OpcNotificationHandler.processStateChange groupText processHead
  simp only [fill_append, fill_text, fill_field, List.append_assoc, List.append_nil]

theorem fill_serviceTemplate (host : Host) (group default severity name current desired
    caption : WStr) (post : Bool) :
    fill (serviceTemplate host (groupText host group default) severity name current desired caption
        post) =
      OpcNotificationHandler.serviceStateChange host group default severity name current desired
        caption post := by
  unfold serviceTemplate OpcNotificationHandler.serviceStateChange groupText serviceHead
  simp only [fill_append, fill_text, fill_field, List.append_assoc]

theorem toCmdStr_eq (event : GenericEvent) :
    event.toCmdStr =
      if event.args.length ≤ 13 then some (fill (genericTemplate event)) else none := by
  rw [GenericEvent.toCmdStr, argOptions_eq]
  by_cases hlen : event.args.length ≤ 13
  · rw [if_pos hlen, if_pos hlen]
    simp only [genericTemplate, fill_append, fill_text, fill_field, List.append_assoc,
      Option.bind_eq_bind, Option.bind_some, Option.pure_def]
  · rw [if_neg hlen, if_neg hlen]
    rfl

theorem command_eq {c : OpcCommand} (h : c.Built) : c.command = some (fill c.template) := by
  cases c with
  | hello host => exact congrArg some (fill_helloTemplate host).symm
  | goodbye host => exact congrArg some (fill_goodbyeTemplate host).symm
  | processState host group default severity name current desired post =>
    exact congrArg some (fill_processTemplate host group default severity name current desired
      post).symm
  | serviceState host group default severity name current desired caption post =>
    exact congrArg some (fill_serviceTemplate host group default severity name current desired
      caption post).symm
  | generic event => exact (toCmdStr_eq event).trans (if_pos h)

theorem built_of_command {c : OpcCommand} {cmd : WStr} (h : c.command = some cmd) : c.Built := by
  cases c with
  | generic event =>
    rw [command, toCmdStr_eq] at h
    by_contra hbuilt
    have hlen : ¬ event.args.length ≤ 13 := hbuilt
    rw [if_neg hlen] at h
    cases h
  | _ => exact trivial

theorem space_ne_quote : space ≠ quote := by decide

theorem agrees_hello (host : Host) :
    Agrees space quote false false (helloTemplate host) ↔
      Bare space quote host.hostname ∧ Enclosed space quote host.hostname ∧
        Enclosed space quote host.platform ∧ Enclosed space quote host.architecture ∧
          Enclosed space quote host.ip ∧ Unsplit space quote true host.ugmonVersion := by
  simp (disch := decide) only [helloTemplate, agrees_text_even space_ne_quote,
    agrees_field_even space_ne_quote, agrees_field_odd space_ne_quote,
    agrees_field_last space_ne_quote, Bool.not_false, Bare, Enclosed]

theorem agrees_goodbye (host : Host) :
    Agrees space quote false false (goodbyeTemplate host) ↔
      Bare space quote host.hostname ∧ Enclosed space quote host.hostname ∧
        Enclosed space quote host.platform ∧ Unsplit space quote true host.ugmonVersion := by
  simp (disch := decide) only [goodbyeTemplate, agrees_text_even space_ne_quote,
    agrees_field_even space_ne_quote, agrees_field_odd space_ne_quote,
    agrees_field_last space_ne_quote, Bool.not_false, Bare, Enclosed]

theorem agrees_process (host : Host) (group severity name current desired : WStr) (post : Bool) :
    Agrees space quote false false (processTemplate host group severity name current desired post) ↔
      Bare space quote host.hostname ∧ Bare space quote group ∧ Bare space quote severity ∧
        Enclosed space quote host.hostname ∧ Enclosed space quote name ∧
          Enclosed space quote current ∧ Enclosed space quote desired ∧
            Enclosed space quote host.platform ∧ Bare space quote current ∧
              Unsplit space quote false desired := by
  have hhead : odd quote (processHead post) = false := by cases post <;> decide
  simp (disch := decide) only [processTemplate, agrees_text_even space_ne_quote _ hhead,
    agrees_field_even space_ne_quote, agrees_field_odd space_ne_quote,
    agrees_field_last space_ne_quote, Bool.not_false, Bool.not_true, Bare, Enclosed]

theorem agrees_service (host : Host) (group severity name current desired caption : WStr)
    (post : Bool) :
    Agrees space quote false false
        (serviceTemplate host group severity name current desired caption post) ↔
      Bare space quote host.hostname ∧ Bare space quote group ∧ Bare space quote severity ∧
        Enclosed space quote host.hostname ∧ Enclosed space quote name ∧
          Enclosed space quote current ∧ Enclosed space quote desired ∧
            Enclosed space quote host.platform ∧ Bare space quote current ∧
              Bare space quote desired ∧ Unsplit space quote true (replaceQuotes caption) := by
  have hhead : odd quote (serviceHead post) = false := by cases post <;> decide
  simp (disch := decide) only [serviceTemplate, agrees_text_even space_ne_quote _ hhead,
    agrees_field_even space_ne_quote, agrees_field_odd space_ne_quote,
    agrees_field_last space_ne_quote, Bool.not_false, Bool.not_true, Bare, Enclosed]

theorem quote_notMem_argHead (i : ℕ) : quote ∉ (wcs " -option ARG").drop i := by
  intro h
  exact absurd (List.mem_of_mem_drop h) (by decide)

theorem agrees_args {args : List WStr} (hargs : ∀ arg ∈ args, quote ∉ arg) (i : ℕ) :
    Agrees space quote false false (argTemplate i args) := by
  induction args generalizing i with
  | nil => exact trivial
  | cons arg args ih =>
    rw [List.forall_mem_cons] at hargs
    have hhead : odd quote ((wcs " -option ARG").drop i ++ wcs "=\"") = true := by
      rw [odd_append, odd_of_notMem (quote_notMem_argHead i)]
      rfl
    have htail : odd quote (wcs "\"") = true := by decide
    rw [argTemplate, agrees_text_odd space_ne_quote _ hhead, agrees_field, odd_of_notMem hargs.1,
      Bool.xor_false, Bool.not_false, agrees_text_odd space_ne_quote _ htail]
    exact ⟨unsplit_of_notMem hargs.1, ih hargs.2 (i + 1)⟩

theorem agrees_generic {event : GenericEvent} (hip : Bare space quote event.sourceIp)
    (hargs : ∀ arg ∈ event.args, quote ∉ arg) :
    Agrees space quote false false (genericTemplate event) ↔
      Enclosed space quote event.oid ∧ Bare space quote event.hostname ∧
        Bare space quote event.oid := by
  have hrest : Agrees space quote false false
      (field event.sourceIp ++ argTemplate 0 event.args) := by
    rw [agrees_field, hip.2, Bool.xor_false]
    exact ⟨hip.1, agrees_args hargs 0⟩
  have hhead : odd quote (wcs "opcmsg a=UGMon o=Generic_Trap msg_t=\"Generic trap received: ") =
      true := by decide
  rw [genericTemplate, agrees_text_odd space_ne_quote _ hhead]
  simp (disch := decide) only [agrees_field_even space_ne_quote, agrees_field_odd space_ne_quote,
    Bool.not_false, Bool.not_true, hrest, and_true, Bare, Enclosed]

/-- What is the same for all fields: the kind of the command, the version of the agent, and the
number of trap arguments. -/
inductive Kind where
  | hello
  | goodbye
  | processState (post1_13 : Bool)
  | serviceState (post1_13 : Bool)
  | generic (args : ℕ)
  deriving DecidableEq, Repr

def kind : OpcCommand → Kind
  | hello _ => .hello
  | goodbye _ => .goodbye
  | processState _ _ _ _ _ _ _ post => .processState post
  | serviceState _ _ _ _ _ _ _ _ post => .serviceState post
  | generic event => .generic event.args.length

theorem erase_append (t u : Template WChar) : erase (t ++ u) = erase t ++ erase u :=
  List.map_append

theorem erase_text (w : WStr) : erase (text w) = text w := by
  rw [erase, text, List.map_map]
  rfl

theorem erase_field (f : WStr) : erase (field f) = field [] := rfl

theorem erase_argTemplate (i : ℕ) {args args' : List WStr} (h : args.length = args'.length) :
    erase (argTemplate i args) = erase (argTemplate i args') := by
  induction args generalizing i args' with
  | nil =>
    obtain rfl : args' = [] := List.length_eq_zero_iff.mp h.symm
    rfl
  | cons arg args ih =>
    cases args' with
    | nil => cases h
    | cons arg' args' =>
      simp only [argTemplate, erase_append, erase_text, erase_field, ih (i + 1) (Nat.succ.inj h)]

theorem erase_template {c plain : OpcCommand} (h : plain.kind = c.kind) :
    erase c.template = erase plain.template := by
  cases c with
  | hello host =>
    cases plain with
    | hello host' =>
      simp only [template, helloTemplate, erase_append, erase_text, erase_field]
    | _ => cases h
  | goodbye host =>
    cases plain with
    | goodbye host' =>
      simp only [template, goodbyeTemplate, erase_append, erase_text, erase_field]
    | _ => cases h
  | processState host group default severity name current desired post =>
    cases plain with
    | processState host' group' default' severity' name' current' desired' post' =>
      obtain rfl : post' = post := Kind.processState.inj h
      simp only [template, processTemplate, erase_append, erase_text, erase_field]
    | _ => cases h
  | serviceState host group default severity name current desired caption post =>
    cases plain with
    | serviceState host' group' default' severity' name' current' desired' caption' post' =>
      obtain rfl : post' = post := Kind.serviceState.inj h
      simp only [template, serviceTemplate, erase_append, erase_text, erase_field]
    | _ => cases h
  | generic event =>
    cases plain with
    | generic event' =>
      have hargs := erase_argTemplate 0 (Kind.generic.inj h).symm
      simp only [template, genericTemplate, erase_append, erase_text, erase_field, hargs]
    | _ => cases h

theorem fieldsNamed_argTemplate (named : Bool) (i : ℕ) (args : List WStr) :
    fieldsNamed space quote equalsSign named false (argTemplate i args) = true := by
  induction args generalizing named i with
  | nil => rfl
  | cons arg args ih =>
    have hspace : equalsSign ≠ space := by decide
    have hquote : equalsSign ≠ quote := by decide
    have hvalue := fieldsNamed_value hspace hquote (quote_notMem_argHead i) named arg
      (argTemplate (i + 1) args)
    exact hvalue.trans (ih true (i + 1))

set_option maxRecDepth 20000 in
theorem fieldsNamed_genericTemplate (event : GenericEvent) :
    fieldsNamed space quote equalsSign false false (genericTemplate event) = true := by
  have hfixed : fieldsNamed space quote equalsSign false false (genericTemplate event) =
      fieldsNamed space quote equalsSign true false (argTemplate 0 event.args) := rfl
  rw [hfixed]
  exact fieldsNamed_argTemplate true 0 event.args

theorem fieldsNamed_of_kind {c plain : OpcCommand}
    (hplain : fieldsNamed space quote equalsSign false false plain.template = true)
    (h : plain.kind = c.kind) : fieldsNamed space quote equalsSign false false c.template = true := by
  rw [← fieldsNamed_erase, erase_template h, fieldsNamed_erase]
  exact hplain

theorem fieldsNamed_template (c : OpcCommand) :
    fieldsNamed space quote equalsSign false false c.template = true := by
  cases c with
  | hello host =>
    have hplain : fieldsNamed space quote equalsSign false false (hello {}).template = true := by
      decide +kernel
    exact fieldsNamed_of_kind hplain rfl
  | goodbye host =>
    have hplain : fieldsNamed space quote equalsSign false false (goodbye {}).template = true := by
      decide +kernel
    exact fieldsNamed_of_kind hplain rfl
  | processState host group default severity name current desired post =>
    have hplain : ∀ post, fieldsNamed space quote equalsSign false false
        (processState {} [] [] [] [] [] [] post).template = true := by decide +kernel
    exact fieldsNamed_of_kind (hplain post) rfl
  | serviceState host group default severity name current desired caption post =>
    have hplain : ∀ post, fieldsNamed space quote equalsSign false false
        (serviceState {} [] [] [] [] [] [] [] post).template = true := by decide +kernel
    exact fieldsNamed_of_kind (hplain post) rfl
  | generic event => exact fieldsNamed_genericTemplate event

def fields : OpcCommand → List WStr
  | hello host =>
    [host.hostname, host.platform, host.architecture, host.ip, host.ugmonVersion]
  | goodbye host => [host.hostname, host.platform, host.ugmonVersion]
  | processState host group _ severity name current desired _ =>
    [host.hostname, host.platform, group, severity, name, current, desired]
  | serviceState host group _ severity name current desired caption _ =>
    [host.hostname, host.platform, group, severity, name, current, desired, caption]
  | generic event => event.oid :: event.hostname :: event.sourceIp :: event.args

def Alphanumeric (c : OpcCommand) : Prop := ∀ f ∈ c.fields, f.all isAlnum = true

instance (c : OpcCommand) : Decidable c.Alphanumeric :=
  inferInstanceAs (Decidable (∀ f ∈ c.fields, f.all isAlnum = true))

/-- A generic event is what `ParseTrap` makes of a trap. -/
def Received (objectText : CSnmpOid → WStr) : OpcCommand → Prop
  | generic event =>
    ∃ trap, GenericEvent.parseTrap objectText {} trap = some ⟨some true, event⟩
  | _ => True

/-- The command line splits into as many arguments, with the same option names, as for letters and
digits in all fields, and no field adds, removes or splits an argument. -/
def SplitsAsPlain (c : OpcCommand) : Prop :=
  ∃ cmd, c.command = some cmd ∧
    split space quote cmd = (splitTemplate space quote c.template).map fill ∧
      ∀ plain : OpcCommand, plain.kind = c.kind → plain.Alphanumeric →
        ∃ plainCmd, plain.command = some plainCmd ∧
          (split space quote cmd).map (optionName equalsSign) =
            (split space quote plainCmd).map (optionName equalsSign)

/-- Every field keeps the quotes around it balanced and has no space outside of quotes. The caption
and the arguments of a trap are free, for their quotes are replaced. -/
def Contained : OpcCommand → Prop
  | hello host =>
    Bare space quote host.hostname ∧ Enclosed space quote host.hostname ∧
      Enclosed space quote host.platform ∧ Enclosed space quote host.architecture ∧
        Enclosed space quote host.ip ∧ Unsplit space quote true host.ugmonVersion
  | goodbye host =>
    Bare space quote host.hostname ∧ Enclosed space quote host.hostname ∧
      Enclosed space quote host.platform ∧ Unsplit space quote true host.ugmonVersion
  | processState host group default severity name current desired _ =>
    Bare space quote host.hostname ∧ Bare space quote (groupText host group default) ∧
      Bare space quote severity ∧ Enclosed space quote host.hostname ∧
        Enclosed space quote name ∧ Enclosed space quote current ∧
          Enclosed space quote desired ∧ Enclosed space quote host.platform ∧
            Bare space quote current ∧ Unsplit space quote false desired
  | serviceState host group default severity name current desired _ _ =>
    Bare space quote host.hostname ∧ Bare space quote (groupText host group default) ∧
      Bare space quote severity ∧ Enclosed space quote host.hostname ∧
        Enclosed space quote name ∧ Enclosed space quote current ∧
          Enclosed space quote desired ∧ Enclosed space quote host.platform ∧
            Bare space quote current ∧ Bare space quote desired
  | generic event =>
    event.args.length ≤ 13 ∧ Enclosed space quote event.oid ∧ Bare space quote event.hostname ∧
      Bare space quote event.oid

/-- The sender's address is not stored, and the arguments have lost their quotes. -/
def Sanitized : OpcCommand → Prop
  | generic event => Bare space quote event.sourceIp ∧ ∀ arg ∈ event.args, quote ∉ arg
  | _ => True

theorem quote_notMem_replaceQuotes (str : WStr) : quote ∉ replaceQuotes str := by
  intro h
  obtain ⟨c, _, hc⟩ := List.mem_map.mp h
  split_ifs at hc with hquote
  · exact absurd hc (by decide)
  · exact hquote hc

theorem quote_notMem_removeStrQuotes (str : WStr) :
    quote ∉ removeStrQuotesAndBackSpaces str := by
  intro h
  obtain ⟨c, _, hc⟩ := List.mem_map.mp h
  split_ifs at hc with hquote hback
  · exact absurd hc (by decide)
  · exact absurd hc (by decide)
  · exact hquote hc

theorem quote_notMem_args {varArgs : List CSnmpTrapVar} {args : List WStr}
    (h : varArgs.mapM (fun v => v.wcsVal.map (removeStrQuotesAndBackSpaces ∘ cstr)) = some args) :
    ∀ arg ∈ args, quote ∉ arg := by
  induction varArgs generalizing args with
  | nil =>
    obtain rfl : [] = args := Option.some.inj h
    exact List.forall_mem_nil _
  | cons v varArgs ih =>
    rw [List.mapM_cons] at h
    obtain ⟨arg, harg, h⟩ := Option.bind_eq_some_iff.mp h
    obtain ⟨rest, hrest, h⟩ := Option.bind_eq_some_iff.mp h
    obtain ⟨str, _, rfl⟩ := Option.map_eq_some_iff.mp harg
    obtain rfl : _ :: rest = args := Option.some.inj h
    exact List.forall_mem_cons.mpr ⟨quote_notMem_removeStrQuotes _, ih hrest⟩

theorem sanitized_of_received {objectText : CSnmpOid → WStr} {c : OpcCommand}
    (h : c.Received objectText) : c.Sanitized := by
  cases c with
  | generic event =>
    obtain ⟨trap, h⟩ := h
    rw [GenericEvent.parseTrap] at h
    split_ifs at h with hlen
    · cases h
    · obtain ⟨trapOid, _, h⟩ := Option.bind_eq_some_iff.mp h
      obtain ⟨hostname, _, h⟩ := Option.bind_eq_some_iff.mp h
      obtain ⟨args, hargs, h⟩ := Option.bind_eq_some_iff.mp h
      obtain ⟨_, rfl⟩ := Parsed.mk.inj (Option.some.inj h)
      exact ⟨⟨trivial, rfl⟩, quote_notMem_args hargs⟩
  | _ => exact trivial

theorem contained_iff {c : OpcCommand} (h : c.Sanitized) :
    c.Contained ↔ c.Built ∧ Intact space quote c.template := by
  rw [intact_iff (by decide)]
  cases c with
  | hello host => rw [template, agrees_hello]; exact (and_iff_right trivial).symm
  | goodbye host => rw [template, agrees_goodbye]; exact (and_iff_right trivial).symm
  | processState host group default severity name current desired post =>
    rw [template, agrees_process]
    exact (and_iff_right trivial).symm
  | serviceState host group default severity name current desired caption post =>
    rw [template, agrees_service,
      and_iff_left (unsplit_of_notMem (quote_notMem_replaceQuotes caption))]
    exact (and_iff_right trivial).symm
  | generic event =>
    rw [template, agrees_generic h.1 h.2]
    exact Iff.rfl

theorem alphanumeric_groupText (host : Host) (group default : WStr)
    (hgroup : group.all isAlnum = true) (hplatform : host.platform.all isAlnum = true) :
    (groupText host group default).all isAlnum = true := by
  rw [groupText, List.all_append, hgroup, Bool.true_and]
  split_ifs
  · exact hplatform
  · rfl

theorem replaceQuotes_of_alphanumeric {str : WStr} (h : str.all isAlnum = true) :
    replaceQuotes str = str := by
  rw [List.all_eq_true] at h
  have hkept : ∀ c ∈ str, (if c = 0x22 then 0x27 else c) = c := by
    intro c hc
    rw [if_neg]
    rintro rfl
    exact absurd (h _ hc) (by decide)
  rw [replaceQuotes, List.map_congr_left hkept, List.map_id']

theorem inr_mem_argTemplate {f : WStr} {i : ℕ} {args : List WStr}
    (hf : Sum.inr f ∈ argTemplate i args) : f ∈ args := by
  induction args generalizing i with
  | nil => cases hf
  | cons arg args ih =>
    simp only [argTemplate, List.mem_append, inr_mem_text, inr_mem_field, false_or] at hf
    cases hf with
    | inl harg => exact List.mem_cons.mpr (Or.inl harg)
    | inr hrest => exact List.mem_cons_of_mem arg (ih hrest)

theorem alphanumeric_template {c : OpcCommand} (h : c.Alphanumeric) :
    ∀ f, Sum.inr f ∈ c.template → f.all isAlnum = true := by
  cases c with
  | hello host =>
    simp only [Alphanumeric, fields, List.forall_mem_cons] at h
    simp only [template, helloTemplate, List.mem_append, inr_mem_text, inr_mem_field, false_or,
      or_false, forall_eq_or_imp, forall_eq, h, and_self]
  | goodbye host =>
    simp only [Alphanumeric, fields, List.forall_mem_cons] at h
    simp only [template, goodbyeTemplate, List.mem_append, inr_mem_text, inr_mem_field, false_or,
      or_false, forall_eq_or_imp, forall_eq, h, and_self]
  | processState host group default severity name current desired post =>
    simp only [Alphanumeric, fields, List.forall_mem_cons] at h
    have hgroup := alphanumeric_groupText host group default h.2.2.1 h.2.1
    simp only [template, processTemplate, List.mem_append, inr_mem_text, inr_mem_field, false_or,
      or_false, forall_eq_or_imp, forall_eq, h, hgroup, and_self]
  | serviceState host group default severity name current desired caption post =>
    simp only [Alphanumeric, fields, List.forall_mem_cons] at h
    have hgroup := alphanumeric_groupText host group default h.2.2.1 h.2.1
    have hcaption : replaceQuotes caption = caption :=
      replaceQuotes_of_alphanumeric h.2.2.2.2.2.2.2.1
    simp only [template, serviceTemplate, List.mem_append, inr_mem_text, inr_mem_field, false_or,
      or_false, forall_eq_or_imp, forall_eq, hcaption, h, hgroup, and_self]
  | generic event =>
    simp only [Alphanumeric, fields, List.forall_mem_cons] at h
    obtain ⟨hoid, hname, hip, hargs⟩ := h
    simp only [template, genericTemplate, List.mem_append, inr_mem_text, inr_mem_field, false_or,
      forall_eq_or_imp, hoid, hname, hip, true_and]
    intro f hf
    exact hargs f (inr_mem_argTemplate hf)

theorem intact_of_alphanumeric {c : OpcCommand} (h : c.Alphanumeric) :
    Intact space quote c.template := by
  rw [intact_iff (by decide)]
  apply agrees_of_notMem
  intro f hf
  have hall := List.all_eq_true.mp (alphanumeric_template h f hf)
  exact ⟨fun hspace => absurd (hall _ hspace) (by decide),
    fun hquote => absurd (hall _ hquote) (by decide)⟩

theorem built_of_kind {c plain : OpcCommand} (h : plain.kind = c.kind) (hbuilt : c.Built) :
    plain.Built := by
  cases plain with
  | generic event =>
    cases c with
    | generic event' => exact (Kind.generic.inj h).trans_le hbuilt
    | _ => cases h
  | _ => exact trivial

/-- A command line splits like a plain one exactly if its fields are contained. -/
theorem splitsAsPlain_iff (objectText : CSnmpOid → WStr) (c : OpcCommand)
    (h : c.Received objectText) : c.SplitsAsPlain ↔ c.Contained := by
  rw [contained_iff (sanitized_of_received h)]
  constructor
  · rintro ⟨cmd, hcmd, hintact, _⟩
    have hbuilt := built_of_command hcmd
    rw [command_eq hbuilt, Option.some.injEq] at hcmd
    rw [← hcmd] at hintact
    exact ⟨hbuilt, hintact⟩
  · rintro ⟨hbuilt, hintact⟩
    refine ⟨_, command_eq hbuilt, hintact, ?_⟩
    intro plain hkind hplain
    have hplainBuilt := built_of_kind hkind hbuilt
    exact ⟨_, command_eq hplainBuilt, map_optionName_split (erase_template hkind)
      (fieldsNamed_template c) hintact (intact_of_alphanumeric hplain)⟩

def pingTrap : CSnmpTrap :=
  { (default : CSnmpTrap) with
    trapOid := some (CSnmpOid.ofComponents [1, 3, 6])
    varArgs := [{ oid := {}, iValueType := SNMP_TYPE_STR, wcsVal := some (wcs "osi1112") }] }

/-- The object starts with the address of its components and their number. -/
def objectWords (o : CSnmpOid) : WStr := [0x6C70, 0x004A, UInt16.ofNat o.nOids]

def pingEvent : GenericEvent where
  hostname := wcs "osi1112"
  oid := objectWords (CSnmpOid.ofComponents [1, 3, 6])
  args := [wcs "osi1112"]

theorem pingEvent_splits :
    (generic pingEvent).Received objectWords ∧ (generic pingEvent).SplitsAsPlain := by
  have hreceived : (generic pingEvent).Received objectWords := ⟨pingTrap, by decide⟩
  refine ⟨hreceived, (splitsAsPlain_iff objectWords _ hreceived).mpr ?_⟩
  exact ⟨by decide, by decide, by decide, by decide⟩

def injectingHost : Host where
  hostname := wcs "osi1112 sev=Critical"
  platform := wcs "WINDOWS"

def plainHost : Host where
  hostname := wcs "osi1112"
  platform := wcs "WINDOWS"

theorem injectingHost_not_plain : ¬ (hello injectingHost).SplitsAsPlain := by
  rintro ⟨cmd, hcmd, _, hplain⟩
  obtain ⟨plainCmd, hplainCmd, hnames⟩ := hplain (hello plainHost) rfl (by decide)
  rw [← Option.some.inj hcmd, ← Option.some.inj hplainCmd] at hnames
  have hlen := congrArg List.length hnames
  revert hlen
  decide +kernel

end OpcCommand

end TrapHandler
