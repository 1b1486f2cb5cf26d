import TrapHandler.CommandArguments
import TrapHandler.DecodedValues
import TrapHandler.EventLayouts
import TrapHandler.VarbindText

/-!
# The command of a generic event

A trap of an unknown kind is passed on with all its values as numbered options. The number is added
to the address of the text in front of it, not to the text, so that no option has one.
-/

namespace TrapHandler

open CSnmpTrap OpcCommand

def dottedOid (o : CSnmpOid) : WStr := o.components.flatMap fun n => CSnmpOid.dot :: decimal n.toNat

/-- The options for the values from the `i`-th on. -/
def numberedOptions : ℕ → List WStr → WStr
  | _, [] => []
  | i, v :: values =>
    wcs " -option ARG" ++ decimal i ++ wcs "=\"" ++ v ++ wcs "\"" ++ numberedOptions (i + 1) values

/-- The texts of the values of a trap, with quotes and backslashes replaced. -/
def valueTexts (raw : ℕ → WChar) (trap : CSnmpTrap) : Option (List WStr) :=
  trap.varArgs.mapM fun v => (v.toWcs raw).text.map removeStrQuotesAndBackSpaces

/-- The event is made without a fault, and its command ends with the options for the object
identifier, the address of the sender, and the values in their order. -/
def CommandComplete (objectText : CSnmpOid → WStr) (raw : ℕ → WChar) (trap : CSnmpTrap) : Prop :=
  ∃ event cmd front trapOid values,
    GenericEvent.parseTrap objectText {} trap = some ⟨some true, event⟩ ∧
      event.toCmdStr = some cmd ∧ trap.trapOid = some trapOid ∧ valueTexts raw trap = some values ∧
      cmd = front ++ wcs " -option trapOid=" ++ dottedOid trapOid ++ wcs " -option sourceIP=" ++
        dottedIp trap.ulSourceIP ++ numberedOptions 0 values

def EndsPlain (w : WStr) : Prop := ∃ v c, w = v ++ [c] ∧ isDigit c = false

theorem EndsPlain.append_right (v : WStr) {w : WStr} (h : EndsPlain w) : EndsPlain (v ++ w) := by
  obtain ⟨w, c, rfl, hc⟩ := h
  exact ⟨v ++ w, c, (List.append_assoc v w [c]).symm, hc⟩

theorem endsPlain_concat {c : WChar} (hc : isDigit c = false) (v : WStr) : EndsPlain (v ++ [c]) :=
  ⟨v, c, rfl, hc⟩

theorem EndsPlain.append_pointInto {front option : WStr} {i : ℕ} (hfront : EndsPlain front)
    (h : GenericEvent.pointInto (wcs " -option ARG") i = some option) :
    EndsPlain (front ++ option) := by
  rw [GenericEvent.pointInto] at h
  split_ifs at h with hi
  obtain rfl := Option.some.inj h
  have hlen : (wcs " -option ARG").length = 12 := by decide
  by_cases hend : i = 12
  · rw [hend, ← hlen, List.drop_length, List.append_nil]
    exact hfront
  · have hsplit : wcs " -option ARG" = wcs " -option AR" ++ [0x47] := by decide
    have hle : i ≤ (wcs " -option AR").length := by
      have hshort : (wcs " -option AR").length = 11 := by decide
      omega
    rw [hsplit, List.drop_append_of_le_length hle, ← List.append_assoc]
    exact endsPlain_concat (by decide) _

theorem argOptions_concat {front options : WStr} {i : ℕ} {init : List WStr} {v : WStr}
    (hfront : EndsPlain front) (h : GenericEvent.argOptions i (init ++ [v]) = some options) :
    ∃ pre, EndsPlain pre ∧ front ++ options = pre ++ wcs "=\"" ++ v ++ wcs "\"" := by
  induction init generalizing front options i with
  | nil =>
    obtain ⟨option, hoption, h⟩ := Option.bind_eq_some_iff.mp h
    obtain ⟨rest, hrest, h⟩ := Option.bind_eq_some_iff.mp h
    obtain rfl : [] = rest := Option.some.inj hrest
    obtain rfl := Option.some.inj h
    refine ⟨front ++ option, hfront.append_pointInto hoption, ?_⟩
    simp only [List.append_assoc, List.append_nil]
  | cons a init ih =>
    obtain ⟨option, hoption, h⟩ := Option.bind_eq_some_iff.mp h
    obtain ⟨rest, hrest, h⟩ := Option.bind_eq_some_iff.mp h
    obtain rfl := Option.some.inj h
    have hnext : EndsPlain (front ++ option ++ wcs "=\"" ++ a ++ wcs "\"") :=
      endsPlain_concat (by decide) _
    obtain ⟨pre, hpre, heq⟩ := ih hnext hrest
    refine ⟨pre, hpre, ?_⟩
    rw [← heq]
    simp only [List.append_assoc]

theorem numberedOptions_concat (i : ℕ) (init : List WStr) (v : WStr) :
    ∃ pre, numberedOptions i (init ++ [v]) =
      pre ++ decimal (i + init.length) ++ wcs "=\"" ++ v ++ wcs "\"" := by
  induction init generalizing i with
  | nil => exact ⟨wcs " -option ARG", List.append_nil _⟩
  | cons a init ih =>
    obtain ⟨pre, heq⟩ := ih (i + 1)
    have hindex : i + 1 + init.length = i + (a :: init).length := by
      rw [List.length_cons]
      omega
    rw [List.cons_append, numberedOptions, heq, hindex]
    refine ⟨wcs " -option ARG" ++ decimal i ++ wcs "=\"" ++ a ++ wcs "\"" ++ pre, ?_⟩
    simp only [List.append_assoc]

theorem front_eq_of_notMem {α : Type} {q : α} {a b x y : List α} (hx : q ∉ x) (hy : q ∉ y)
    (h : a ++ [q] ++ x = b ++ [q] ++ y) : a = b := by
  have hextra : ∀ {a b x y z : List α}, q ∉ x → b ++ [q] = a ++ [q] ++ z → x = z ++ y → a = b := by
    intro a b x y z hx hb hxz
    obtain rfl | ⟨z', c, rfl⟩ := z.eq_nil_or_concat
    · rw [List.append_nil] at hb
      exact (List.append_cancel_right hb).symm
    · rw [List.concat_eq_append, ← List.append_assoc] at hb
      obtain ⟨_, hc⟩ := List.append_inj' hb rfl
      have hmem : q ∈ x := by
        rw [hxz, List.concat_eq_append, ← hc]
        simp
      exact absurd hmem hx
  obtain ⟨z, hb, hxz⟩ | ⟨z, ha, hyz⟩ := List.append_eq_append_iff.mp h
  · exact hextra hx hb hxz
  · exact (hextra hy ha hyz).symm

theorem not_endsPlain_of_quotation {front pre v v' : WStr} {n : ℕ} (hv : quote ∉ v)
    (hv' : quote ∉ v')
    (h : pre ++ wcs "=\"" ++ v ++ wcs "\"" =
      front ++ decimal n ++ wcs "=\"" ++ v' ++ wcs "\"") : ¬ EndsPlain pre := by
  have hquote : wcs "=\"" = wcs "=" ++ [quote] := by decide
  have hrest := List.append_cancel_right h
  rw [hquote, ← List.append_assoc, ← List.append_assoc] at hrest
  have hfront := List.append_cancel_right (front_eq_of_notMem hv hv' hrest)
  rintro ⟨w, c, rfl, hc⟩
  have hne : decimal n ≠ [] := by
    rw [decimal, Ne, List.map_eq_nil_iff]
    exact Nat.toDigits_ne_nil
  obtain ⟨digits, d, hdigits⟩ := (List.eq_nil_or_concat (decimal n)).resolve_left hne
  rw [hdigits, List.concat_eq_append, ← List.append_assoc] at hfront
  obtain ⟨_, hcd⟩ := List.append_inj' hfront rfl
  have hd : isDigit d = true := by
    apply isDigit_of_mem_decimal (n := n)
    rw [hdigits, List.concat_eq_append]
    simp
  rw [List.singleton_inj.mp hcd, hd] at hc
  cases hc

theorem length_of_mapM {α β : Type} {f : α → Option β} {xs : List α} {ys : List β}
    (h : xs.mapM f = some ys) : ys.length = xs.length := by
  induction xs generalizing ys with
  | nil =>
    obtain rfl : [] = ys := Option.some.inj h
    rfl
  | cons x xs ih =>
    rw [List.mapM_cons] at h
    obtain ⟨y, _, h⟩ := Option.bind_eq_some_iff.mp h
    obtain ⟨rest, hrest, h⟩ := Option.bind_eq_some_iff.mp h
    obtain rfl : y :: rest = ys := Option.some.inj h
    rw [List.length_cons, List.length_cons, ih hrest]

theorem quote_notMem_valueTexts {raw : ℕ → WChar} {varArgs : List CSnmpTrapVar}
    {values : List WStr}
    (h : varArgs.mapM (fun v => (v.toWcs raw).text.map removeStrQuotesAndBackSpaces) =
      some values) : ∀ v ∈ values, quote ∉ v := by
  induction varArgs generalizing values with
  | nil =>
    obtain rfl : [] = values := Option.some.inj h
    exact List.forall_mem_nil _
  | cons v varArgs ih =>
    rw [List.mapM_cons] at h
    obtain ⟨text, htext, h⟩ := Option.bind_eq_some_iff.mp h
    obtain ⟨rest, hrest, h⟩ := Option.bind_eq_some_iff.mp h
    obtain ⟨str, _, rfl⟩ := Option.map_eq_some_iff.mp htext
    obtain rfl : _ :: rest = values := Option.some.inj h
    exact List.forall_mem_cons.mpr ⟨quote_notMem_removeStrQuotes _, ih hrest⟩

theorem parseTrap_generic {objectText : CSnmpOid → WStr} {trap : CSnmpTrap} {event : GenericEvent}
    (h : GenericEvent.parseTrap objectText {} trap = some ⟨some true, event⟩) :
    event.sourceIp = [] ∧ event.args.length = trap.varArgs.length ∧ trap.varArgs.length ≠ 0 ∧
      ∀ arg ∈ event.args, quote ∉ arg := by
  rw [GenericEvent.parseTrap] at h
  split_ifs at h with hlen
  · cases h
  obtain ⟨_, _, h⟩ := Option.bind_eq_some_iff.mp h
  obtain ⟨_, _, h⟩ := Option.bind_eq_some_iff.mp h
  obtain ⟨args, hargs, h⟩ := Option.bind_eq_some_iff.mp h
  obtain ⟨_, rfl⟩ := Parsed.mk.inj (Option.some.inj h)
  exact ⟨rfl, length_of_mapM hargs, hlen, quote_notMem_args hargs⟩

theorem toCmdStr_generic {event : GenericEvent} {cmd : WStr} {init : List WStr} {v : WStr}
    (hip : event.sourceIp = []) (hargs : event.args = init ++ [v])
    (h : event.toCmdStr = some cmd) :
    ∃ pre, EndsPlain pre ∧ cmd = pre ++ wcs "=\"" ++ v ++ wcs "\"" := by
  obtain ⟨options, hoptions, h⟩ := Option.bind_eq_some_iff.mp h
  have hname : wcs " -option sourceIP=" = wcs " -option sourceIP" ++ [0x3D] := by decide
  rw [hargs] at hoptions
  rw [hip, List.append_nil, hname, ← List.append_assoc] at h
  have hplain : isDigit 0x3D = false := by decide
  obtain ⟨pre, hpre, heq⟩ := argOptions_concat (endsPlain_concat hplain _) hoptions
  exact ⟨pre, hpre, (Option.some.inj h).symm.trans heq⟩

theorem mapM_eq_none_iff {α β : Type} {f : α → Option β} {xs : List α} :
    xs.mapM f = none ↔ ∃ x ∈ xs, f x = none := by
  induction xs with
  | nil => simp
  | cons x xs ih =>
    rw [List.mapM_cons]
    cases hx : f x with
    | none => simp [hx]
    | some y =>
      cases hxs : xs.mapM f with
      | none =>
        obtain ⟨x', hx', hnone⟩ := ih.mp hxs
        exact iff_of_true rfl ⟨x', List.mem_cons_of_mem x hx', hnone⟩
      | some ys =>
        have hsome : ¬ ∃ x ∈ xs, f x = none := by
          rw [← ih, hxs]
          exact Option.some_ne_none ys
        apply iff_of_false (Option.some_ne_none _)
        rintro ⟨x', hx', hnone⟩
        cases List.mem_cons.mp hx' with
        | inl heq =>
          rw [heq, hx] at hnone
          cases hnone
        | inr htail => exact hsome ⟨x', htail, hnone⟩

/-- A decoded trap makes the parser read through a null pointer exactly if one of its values is no
string. -/
theorem parseTrap_generic_fault_iff (objectText : CSnmpOid → WStr) (self : GenericEvent)
    {trap : CSnmpTrap} (hstored : ∀ v ∈ trap.varArgs, ValueStored v) {trapOid : CSnmpOid}
    (hoid : trap.trapOid = some trapOid) :
    self.parseTrap objectText trap = none ↔
      ∃ v ∈ trap.varArgs, v.iValueType ≠ SNMP_TYPE_STR := by
  have hnone : ∀ v ∈ trap.varArgs, v.wcsVal = none ↔ v.iValueType ≠ SNMP_TYPE_STR := by
    intro v hv
    rw [Ne, ← (hstored v hv).wcsVal, Option.not_isSome_iff_eq_none]
  have hmapM : trap.varArgs.mapM
      (fun v => v.wcsVal.map (removeStrQuotesAndBackSpaces ∘ cstr)) = none ↔
        ∃ v ∈ trap.varArgs, v.iValueType ≠ SNMP_TYPE_STR := by
    rw [mapM_eq_none_iff]
    apply exists_congr
    intro v
    apply and_congr_right
    intro hv
    rw [Option.map_eq_none_iff, hnone v hv]
  rw [GenericEvent.parseTrap, hoid]
  by_cases hlen : trap.varArgs.length = 0
  · rw [if_pos hlen, List.length_eq_zero_iff.mp hlen]
    exact iff_of_false (Option.some_ne_none _) (by simp)
  rw [if_neg hlen]
  obtain ⟨v, vs, hvars⟩ := List.exists_cons_of_length_pos (Nat.pos_of_ne_zero hlen)
  have hmem : v ∈ trap.varArgs := by
    rw [hvars]
    exact List.mem_cons_self
  have hhost : trap.wcsArg 0 = v.wcsVal.map cstr := by
    rw [wcsArg, hvars]
    rfl
  rw [hhost]
  cases hv : v.wcsVal with
  | none => exact iff_of_true rfl ⟨v, hmem, (hnone v hmem).mp hv⟩
  | some w =>
    rw [← hmapM]
    cases trap.varArgs.mapM fun v => v.wcsVal.map (removeStrQuotesAndBackSpaces ∘ cstr) with
    | none => exact iff_of_true rfl rfl
    | some args => exact iff_of_false (Option.some_ne_none _) (Option.some_ne_none _)

/-- No command is complete: the last of its options has no number. -/
theorem not_commandComplete (objectText : CSnmpOid → WStr) (raw : ℕ → WChar) (trap : CSnmpTrap) :
    ¬ CommandComplete objectText raw trap := by
  rintro ⟨event, cmd, front, trapOid, values, hparse, hcmd, _, hvalues, rfl⟩
  obtain ⟨hip, hargsLen, hlen, hquote⟩ := parseTrap_generic hparse
  have hvaluesLen := length_of_mapM hvalues
  have hquote' := quote_notMem_valueTexts hvalues
  have hargsNe : event.args ≠ [] := by
    intro hnil
    rw [hnil] at hargsLen
    exact hlen hargsLen.symm
  have hvaluesNe : values ≠ [] := by
    rintro rfl
    exact hlen hvaluesLen.symm
  obtain ⟨init, v, hargs⟩ := (List.eq_nil_or_concat event.args).resolve_left hargsNe
  obtain ⟨init', v', rfl⟩ := (List.eq_nil_or_concat values).resolve_left hvaluesNe
  rw [List.concat_eq_append] at hargs hquote' hcmd
  rw [hargs] at hquote
  obtain ⟨pre, hpre, heq⟩ := toCmdStr_generic hip hargs hcmd
  obtain ⟨pre', hnumbered⟩ := numberedOptions_concat 0 init' v'
  have hlast : quote ∉ v := hquote v (by simp)
  have hlast' : quote ∉ v' := hquote' v' (by simp)
  rw [hnumbered, ← List.append_assoc, ← List.append_assoc, ← List.append_assoc,
    ← List.append_assoc] at heq
  exact not_endsPlain_of_quotation hlast hlast' heq.symm hpre

/-- A trap with the value `hello`. -/
theorem helloValue_not_commandComplete :
    ¬ CommandComplete (fun _ => []) (fun _ => 0)
      { stringTrap [wcs "hello"] with trapOid := some (.ofComponents [1, 3, 6, 1]) } := by
  rintro ⟨event, cmd, front, trapOid, values, hparse, hcmd, _, hvalues, rfl⟩
  have hread : GenericEvent.parseTrap (fun _ => []) {}
      { stringTrap [wcs "hello"] with trapOid := some (.ofComponents [1, 3, 6, 1]) } =
      some ⟨some true, { hostname := wcs "hello", args := [wcs "hello"] }⟩ := by decide
  have htexts : valueTexts (fun _ => 0)
      { stringTrap [wcs "hello"] with trapOid := some (.ofComponents [1, 3, 6, 1]) } =
      some [wcs "hello"] := by decide
  obtain ⟨_, rfl⟩ := Parsed.mk.inj (Option.some.inj (hread.symm.trans hparse))
  obtain rfl := Option.some.inj (htexts.symm.trans hvalues)
  have hargs : [wcs "hello"] = [] ++ [wcs "hello"] := rfl
  obtain ⟨pre, hpre, heq⟩ := toCmdStr_generic rfl hargs hcmd
  have hlast : quote ∉ wcs "hello" := by decide
  have hnumbered : numberedOptions 0 [wcs "hello"] =
      wcs " -option ARG" ++ decimal 0 ++ wcs "=\"" ++ wcs "hello" ++ wcs "\"" := by decide
  rw [hnumbered, ← List.append_assoc, ← List.append_assoc, ← List.append_assoc,
    ← List.append_assoc] at heq
  exact not_endsPlain_of_quotation hlast hlast heq.symm hpre

end TrapHandler
