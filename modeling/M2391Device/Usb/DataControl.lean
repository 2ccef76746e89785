import M2391Device.Lib.Cells
import M2391Device.Usb.UeventRuns

/-!
# DataControl — switching USB data off and on

`Usb::enableUsbData` has a primary control and a chain of fallbacks in both directions, and does not
remember which of them took effect.  A call that switches data on reaches the first control that
accepts its write, so it undoes what the calls before it disabled only if nothing but that control
was disabled.
-/

namespace M2391Device
namespace UsbHal

open Program Transition Cells

universe u

/-! ## The function -/

def DWC_DRIVER : Text := "/sys/bus/platform/drivers/msm-dwc3/"
def PULLUP_PATH : Text := "/config/usb_gadget/g1/UDC"
def ID_PATH : Text := "id"
def VBUS_PATH : Text := "b_sess"
def USB_DATA_PATH : Text := "usb_data_enabled"
def USB_DATA_PATH_SEC : Text := "/sys/devices/virtual/usb_notify/usb_control/disable"
def DYNAMIC_DISABLE : Text := "dynamic_disable"

/-- `getUsbControllerPath(controllerPath)`; the path is empty if no device is found. -/
def getUsbControllerPath : Hal Text := do
  let controllerName ← GetProperty USB_CONTROLLER_PROP
  let entries ← listDirectory DWC_DRIVER
  let entry := (entries.getD []).find? fun deviceDir =>
    deviceDir.d_type = .DT_LNK && contains (controllerName.takeWhile (· ≠ '.')) deviceDir.d_name
  return match entry with
    | none => []
    | some deviceDir => DWC_DRIVER ++ deviceDir.d_name ++ "/"

/-- Two writes joined by `||`. -/
def writeEither (content path content' path' : Text) : Hal Bool := do
  let ret ← WriteStringToFile content path
  if ret then return true else WriteStringToFile content' path'

/-- The fallback of a call that switches data off. -/
def disableFallback (mDevicePath : Text) : Hal Status := do
  let _ ← WriteStringToFile "1" (mDevicePath ++ ID_PATH)
  let _ ← WriteStringToFile "0" (mDevicePath ++ VBUS_PATH)
  let ret ← writeEither "0" (mDevicePath ++ USB_DATA_PATH) "ON" USB_DATA_PATH_SEC
  if !ret then return .ERROR
  let _ ← WriteStringToFile "none" PULLUP_PATH
  return .SUCCESS

/-- The fallback of a call that switches data on. -/
def enableFallback (mDevicePath mGadgetName : Text) : Hal Status := do
  let ret ← writeEither "1" (mDevicePath ++ USB_DATA_PATH) "OFF" USB_DATA_PATH_SEC
  if !ret then return .ERROR
  let _ ← WriteStringToFile mGadgetName PULLUP_PATH
  return .SUCCESS

/-- The controls of a controller that was found. -/
def switchController (dwcDriver : Text) (in_enable : Bool) : Hal Status := do
  let usb ← fields
  let ret ← WriteStringToFile (if in_enable then "0" else "1") (dwcDriver ++ DYNAMIC_DISABLE)
  if ret then return .SUCCESS
  else if in_enable then enableFallback usb.mDevicePath usb.mGadgetName
  else disableFallback usb.mDevicePath

/-- `enableUsbData` up to the label `out`: the status that is reported there. -/
def switchUsbData (in_enable : Bool) : Hal Status := do
  let dwcDriver ← getUsbControllerPath
  if dwcDriver = [] then return .ERROR
  else
    let status ← switchController dwcDriver in_enable
    if status = .SUCCESS then
      assign (.usbDataDisabled !in_enable)
      return .SUCCESS
    else return status

/-- `enableUsbData` from the label `out` on. -/
def reportUsbData (in_portName : Text) (in_enable : Bool) (in_transactionId : Int)
    (status : Status) : Hal Unit := do
  let usb ← fields
  if usb.mCallback then
    notify (.enableUsbDataStatus in_portName in_enable status in_transactionId)
    let (status, currentPortStatus) ← getPortStatusHelper usb.mContaminantStatusPath
    notify (.portStatusChange currentPortStatus status)
  else return ()

/-- `enableUsbData(in_portName, in_enable, in_transactionId)` -/
def enableUsbData (in_portName : Text) (in_enable : Bool) (in_transactionId : Int) : Hal Unit := do
  let status ← switchUsbData in_enable
  reportUsbData in_portName in_enable in_transactionId status

/-! ## What a call that switches data on writes -/

/-- The writes of the three ways to switch data on, and of a call that finds none. -/
inductive EnableWrites (dwcDriver mDevicePath mGadgetName : Text) :
    List (Text × Text × Bool) → Status → Prop where
  | primary : EnableWrites dwcDriver mDevicePath mGadgetName
      [("0".toList, dwcDriver ++ DYNAMIC_DISABLE, true)] .SUCCESS
  | data {pulledUp : Bool} : EnableWrites dwcDriver mDevicePath mGadgetName
      [("0".toList, dwcDriver ++ DYNAMIC_DISABLE, false),
        ("1".toList, mDevicePath ++ USB_DATA_PATH, true), (mGadgetName, PULLUP_PATH, pulledUp)]
      .SUCCESS
  | second {pulledUp : Bool} : EnableWrites dwcDriver mDevicePath mGadgetName
      [("0".toList, dwcDriver ++ DYNAMIC_DISABLE, false),
        ("1".toList, mDevicePath ++ USB_DATA_PATH, false), ("OFF".toList, USB_DATA_PATH_SEC, true),
        (mGadgetName, PULLUP_PATH, pulledUp)]
      .SUCCESS
  | refused : EnableWrites dwcDriver mDevicePath mGadgetName
      [("0".toList, dwcDriver ++ DYNAMIC_DISABLE, false),
        ("1".toList, mDevicePath ++ USB_DATA_PATH, false), ("OFF".toList, USB_DATA_PATH_SEC, false)]
      .ERROR

section Enable

variable {σ : Type u} {w : World σ} {s s' : State σ} {dwcDriver mDevicePath mGadgetName : Text}
  {status : Status} {in_enable : Bool}

/-- The second write is made only if the first one is refused. -/
theorem writeEither_run (w : World σ) (s : State σ) (content path content' path' : Text) :
    ∃ ret t, (writeEither content path content' path').run w.step s = (.ok ret, t) ∧
      (ret = true ∧ writes ((writeEither content path content' path').trace w.step s) =
          [(content, path, true)] ∨
        writes ((writeEither content path content' path').trace w.step s) =
          [(content, path, false), (content', path', ret)]) := by
  rw [writeEither, run_writeFile, trace_writeFile]
  cases (w.writeFile content path s.world).1 with
  | true => exact ⟨true, _, rfl, Or.inl ⟨rfl, rfl⟩⟩
  | false => exact ⟨_, _, rfl, Or.inr rfl⟩

theorem enableFallback_writes
    (hrun : (enableFallback mDevicePath mGadgetName).run w.step s = (.ok status, s')) :
    EnableWrites dwcDriver mDevicePath mGadgetName
      (("0".toList, dwcDriver ++ DYNAMIC_DISABLE, false) ::
        writes ((enableFallback mDevicePath mGadgetName).trace w.step s)) status := by
  rcases writeEither_run w s "1" (mDevicePath ++ USB_DATA_PATH) "OFF" USB_DATA_PATH_SEC with
    ⟨ret, t, heither, hwrites⟩
  rw [enableFallback, run_bind_ok heither] at hrun
  rw [enableFallback, trace_bind_ok heither, writes_append]
  cases ret with
  | true =>
      rcases hwrites with ⟨_, hwrites⟩ | hwrites
      · rw [hwrites]
        cases hrun
        exact .data
      · rw [hwrites]
        cases hrun
        exact .second
  | false =>
      rcases hwrites with ⟨hfalse, _⟩ | hwrites
      · cases hfalse
      · rw [hwrites]
        cases hrun
        exact .refused

theorem switchController_writes
    (hrun : (switchController dwcDriver true).run w.step s = (.ok status, s')) :
    EnableWrites dwcDriver s.usb.mDevicePath s.usb.mGadgetName
      (writes ((switchController dwcDriver true).trace w.step s)) status := by
  have hfirst : (switchController dwcDriver true).run w.step s =
      (WriteStringToFile "0" (dwcDriver ++ DYNAMIC_DISABLE) >>= fun ret =>
        if ret then Pure.pure Status.SUCCESS
        else enableFallback s.usb.mDevicePath s.usb.mGadgetName).run w.step s := rfl
  have htrace : (switchController dwcDriver true).trace w.step s = ⟨.fields, s.usb⟩ ::
      (WriteStringToFile "0" (dwcDriver ++ DYNAMIC_DISABLE) >>= fun ret =>
        if ret then Pure.pure Status.SUCCESS
        else enableFallback s.usb.mDevicePath s.usb.mGadgetName).trace w.step s := rfl
  rw [hfirst, run_writeFile] at hrun
  rw [htrace, trace_writeFile]
  cases haccepted : (w.writeFile "0".toList (dwcDriver ++ DYNAMIC_DISABLE) s.world).1 with
  | true =>
      rw [haccepted] at hrun
      cases hrun
      exact .primary
  | false =>
      rw [haccepted] at hrun
      exact enableFallback_writes hrun

end Enable

/-! ## Disabling values -/

/-- The values that switch data off, in the cells that hold them. -/
def Disabling (content path : Text) : Prop :=
  content = "1" ∧ DYNAMIC_DISABLE <:+ path ∨ content = "0" ∧ USB_DATA_PATH <:+ path ∨
    content = "ON" ∧ path = USB_DATA_PATH_SEC

/-- The cell of the first write that was accepted. -/
def firstAccepted (ws : List (Text × Text × Bool)) : Option Text :=
  (ws.find? fun x => x.2.2).map fun x => x.2.1

theorem last_of_suffix {part path : Text} {a b : Char} (ha : part.getLast? = some a)
    (hb : path.getLast? = some b) (hab : a ≠ b) : ¬ part <:+ path := by
  rintro ⟨above, rfl⟩
  rw [List.getLast?_append, ha] at hb
  exact hab (Option.some.inj hb)

theorem last_append (front : Text) {rest : Text} {b : Char} (hb : rest.getLast? = some b) :
    (front ++ rest).getLast? = some b := by
  rw [List.getLast?_append, hb]
  rfl

section Disabling

variable {dwcDriver mDevicePath mGadgetName : Text} {ws : List (Text × Text × Bool)}

theorem last_dynamicDisable : DYNAMIC_DISABLE.getLast? = some 'e' := by decide

theorem last_usbData : USB_DATA_PATH.getLast? = some 'd' := by decide

theorem last_pullup : PULLUP_PATH.getLast? = some 'C' := by decide

theorem not_disabling_primary : ¬ Disabling "0" (dwcDriver ++ DYNAMIC_DISABLE) := by
  rintro (⟨heq, _⟩ | ⟨_, hsuffix⟩ | ⟨heq, _⟩)
  · cases heq
  · exact last_of_suffix last_usbData (last_append _ last_dynamicDisable) (by decide) hsuffix
  · cases heq

theorem not_disabling_data : ¬ Disabling "1" (mDevicePath ++ USB_DATA_PATH) := by
  rintro (⟨_, hsuffix⟩ | ⟨heq, _⟩ | ⟨heq, _⟩)
  · exact last_of_suffix last_dynamicDisable (last_append _ last_usbData) (by decide) hsuffix
  · cases heq
  · cases heq

theorem not_disabling_second : ¬ Disabling "OFF" USB_DATA_PATH_SEC := by
  rintro (⟨heq, _⟩ | ⟨heq, _⟩ | ⟨heq, _⟩) <;> cases heq

theorem not_disabling_pullup {content : Text} : ¬ Disabling content PULLUP_PATH := by
  rintro (⟨_, hsuffix⟩ | ⟨_, hsuffix⟩ | ⟨_, heq⟩)
  · exact last_of_suffix last_dynamicDisable last_pullup (by decide) hsuffix
  · exact last_of_suffix last_usbData last_pullup (by decide) hsuffix
  · exact absurd heq (by decide)

/-- What a call that succeeds wrote: nothing that disables, and to one control only. -/
theorem EnableWrites.accepted (h : EnableWrites dwcDriver mDevicePath mGadgetName ws .SUCCESS)
    {content path : Text} (hmem : (content, path, true) ∈ ws) :
    ¬ Disabling content path ∧ (firstAccepted ws = some path ∨ path = PULLUP_PATH) := by
  cases h with
  | primary =>
      rcases List.mem_cons.1 hmem with heq | hmem
      · cases heq
        exact ⟨not_disabling_primary, Or.inl rfl⟩
      · cases hmem
  | data =>
      rcases List.mem_cons.1 hmem with heq | hmem
      · cases heq
      rcases List.mem_cons.1 hmem with heq | hmem
      · cases heq
        exact ⟨not_disabling_data, Or.inl rfl⟩
      rcases List.mem_cons.1 hmem with heq | hmem
      · cases heq
        exact ⟨not_disabling_pullup, Or.inr rfl⟩
      · cases hmem
  | second =>
      rcases List.mem_cons.1 hmem with heq | hmem
      · cases heq
      rcases List.mem_cons.1 hmem with heq | hmem
      · cases heq
      rcases List.mem_cons.1 hmem with heq | hmem
      · cases heq
        exact ⟨not_disabling_second, Or.inl rfl⟩
      rcases List.mem_cons.1 hmem with heq | hmem
      · cases heq
        exact ⟨not_disabling_pullup, Or.inr rfl⟩
      · cases hmem

theorem mem_of_firstAccepted {path : Text} (h : firstAccepted ws = some path) :
    ∃ content, (content, path, true) ∈ ws := by
  rcases Option.map_eq_some_iff.1 h with ⟨⟨content, target, accepted⟩, hfind, rfl⟩
  have haccepted : accepted = true := List.find?_some hfind
  subst haccepted
  exact ⟨content, List.mem_of_find?_eq_some hfind⟩

/-- After writes as those of a call that succeeds, no cell disables exactly if the cells that did
were all the one that accepted the first write. -/
theorem EnableWrites.enabled_iff (h : EnableWrites dwcDriver mDevicePath mGadgetName ws .SUCCESS)
    (before : List (Text × Text × Bool)) :
    (∀ path content, lastAccepted (before ++ ws) path = some content → ¬ Disabling content path) ↔
      ∀ path content, lastAccepted before path = some content → Disabling content path →
        firstAccepted ws = some path := by
  constructor
  · intro henabled path content hbefore hdisabling
    by_contra hother
    -- a cell that the call does not reach keeps its value
    have hkept : lastAccepted (before ++ ws) path = some content := by
      rw [lastAccepted_append]
      cases hafter : lastAccepted ws path with
      | none => simpa using hbefore
      | some value =>
          rcases (h.accepted (mem_of_lastAccepted hafter)).2 with hfirst | rfl
          · exact absurd hfirst hother
          · exact absurd hdisabling not_disabling_pullup
    exact henabled path content hkept hdisabling
  · intro hrestored path content hafter hdisabling
    rw [lastAccepted_append, Option.or_eq_some_iff] at hafter
    rcases hafter with hwritten | ⟨hnone, hbefore⟩
    · exact (h.accepted (mem_of_lastAccepted hwritten)).1 hdisabling
    · rcases mem_of_firstAccepted (hrestored path content hbefore hdisabling) with ⟨value, hmem⟩
      exact lastAccepted_ne_none hmem hnone

end Disabling

/-! ## Sequences of calls -/

/-- A call that returned: its arguments and what it did. -/
structure DataCall where
  in_portName : Text
  in_enable : Bool
  in_transactionId : Int
  ops : List (Answered Op Res)

inductive DataEvent
  | call (x : DataCall)
  /-- Between two calls anything else may happen. -/
  | other

inductive DataStep {σ : Type u} (w : World σ) : State σ → DataEvent → State σ → Prop where
  | call {s s' : State σ} {in_portName : Text} {in_enable : Bool} {in_transactionId : Int} :
      (enableUsbData in_portName in_enable in_transactionId).run w.step s = (.ok (), s') →
      DataStep w s (.call ⟨in_portName, in_enable, in_transactionId,
        (enableUsbData in_portName in_enable in_transactionId).trace w.step s⟩) s'
  | other {s s' : State σ} : DataStep w s .other s'

/-- The call ends with the status `SUCCESS`, which is what it reports (`DataStep.succeeds_iff`). -/
def DataCall.Succeeds (x : DataCall) : Prop := .usbDataDisabled (!x.in_enable) ∈ assigns x.ops

def DataEvent.writes : DataEvent → List (Text × Text × Bool)
  | .call x => UsbHal.writes x.ops
  | .other => []

/-- The value of a cell after a history of calls. -/
def cellAfter (h : List DataEvent) (path : Text) : Option Text :=
  lastAccepted (h.flatMap DataEvent.writes) path

/-- No cell holds a disabling value. -/
def Released (h : List DataEvent) : Prop :=
  ∀ path content, cellAfter h path = some content → ¬ Disabling content path

/-- After each call that switches data on and succeeds, the port status is enabled, and so are the
controls. -/
def EnablesData {σ : Type u} (w : World σ) (s₀ : State σ) (h : List DataEvent) : Prop :=
  ∀ k x t, h[k]? = some (.call x) → x.in_enable = true → x.Succeeds →
    Run (DataStep w) s₀ (h.take (k + 1)) t →
    dataStatus t.usb = .ENABLED ∧ Released (h.take (k + 1))

/-- The cells with a disabling value before such a call are all the one that accepts its first
write. -/
def ReachesDisabled (h : List DataEvent) : Prop :=
  ∀ k x path content, h[k]? = some (.call x) → x.in_enable = true → x.Succeeds →
    cellAfter (h.take k) path = some content → Disabling content path →
    firstAccepted (writes x.ops) = some path

section Steps

variable {σ : Type u} {w : World σ} {s s' : State σ} {x : DataCall} {status : Status}
  {in_enable : Bool} {dwcDriver : Text}

/-- The ends of the names of the files that switch data. -/
def dataControls : List Text :=
  [DYNAMIC_DISABLE, ID_PATH, VBUS_PATH, USB_DATA_PATH, USB_DATA_PATH_SEC, PULLUP_PATH]

def IsDataControl (path : Text) : Prop := ∃ name ∈ dataControls, name <:+ path

theorem isDataControl_append {front name : Text} (hname : name ∈ dataControls) :
    IsDataControl (front ++ name) := ⟨name, hname, List.suffix_append front name⟩

theorem getUsbControllerPath_footprint :
    getUsbControllerPath.Performs (Op.In { lists := (· = DWC_DRIVER) }) := by
  refine Performs.bind (performs_getProperty.2 trivial) fun controllerName => ?_
  exact Performs.bind (performs_listDirectory.2 rfl) fun entries => trivial

theorem writeEither_footprint {writes : Text → Prop} {content path content' path' : Text}
    (hpath : writes path) (hpath' : writes path') :
    (writeEither content path content' path').Performs (Op.In { writes := writes }) :=
  Performs.bind (performs_writeFile.2 hpath) fun _ =>
    Performs.ite (fun _ => trivial) fun _ => performs_writeFile.2 hpath'

theorem switchController_footprint :
    (switchController dwcDriver in_enable).Performs (Op.In { writes := IsDataControl }) := by
  have hsecond : IsDataControl USB_DATA_PATH_SEC := ⟨_, by decide, List.suffix_rfl⟩
  have hpullup : IsDataControl PULLUP_PATH := ⟨_, by decide, List.suffix_rfl⟩
  refine Performs.bind (performs_fields.2 trivial) fun usb => ?_
  have hdata : IsDataControl (usb.mDevicePath ++ USB_DATA_PATH) := isDataControl_append (by decide)
  refine Performs.bind (performs_writeFile.2 (isDataControl_append (by decide))) fun ret => ?_
  refine Performs.ite (fun _ => trivial) fun _ => Performs.ite (fun _ => ?_) fun _ => ?_
  · refine Performs.bind (writeEither_footprint hdata hsecond) fun ret => ?_
    exact Performs.ite (fun _ => trivial) fun _ =>
      Performs.bind (performs_writeFile.2 hpullup) fun _ => trivial
  · refine Performs.bind (performs_writeFile.2 (isDataControl_append (by decide))) fun _ => ?_
    refine Performs.bind (performs_writeFile.2 (isDataControl_append (by decide))) fun _ => ?_
    refine Performs.bind (writeEither_footprint hdata hsecond) fun ret => ?_
    exact Performs.ite (fun _ => trivial) fun _ =>
      Performs.bind (performs_writeFile.2 hpullup) fun _ => trivial

theorem switchUsbData_footprint : (switchUsbData in_enable).Performs (Op.In {
    lists := (· = DWC_DRIVER)
    writes := IsDataControl
    assigns := (· = .usbDataDisabled !in_enable) }) := by
  refine Performs.bind (performs_mono getUsbControllerPath_footprint
    ⟨nofun, fun _ h => h, nofun, nofun, nofun⟩) fun dwcDriver => Performs.ite (fun _ => trivial) fun _ => ?_
  refine Performs.bind (performs_mono switchController_footprint
    ⟨nofun, nofun, fun _ h => h, nofun, nofun⟩) fun status => ?_
  exact Performs.ite (fun _ => Performs.bind (performs_assign.2 rfl) fun _ => trivial) fun _ => trivial

/-- `usbDataDisabled` is assigned exactly on success, after the writes of a controller. -/
theorem switchUsbData_run (hrun : (switchUsbData in_enable).run w.step s = (.ok status, s')) :
    status ≠ .SUCCESS ∧ assigns ((switchUsbData in_enable).trace w.step s) = [] ∨
      status = .SUCCESS ∧
        assigns ((switchUsbData in_enable).trace w.step s) = [.usbDataDisabled !in_enable] ∧
        s'.usb.usbDataDisabled = !in_enable ∧
        ∃ dwcDriver t t', (switchController dwcDriver in_enable).run w.step t = (.ok .SUCCESS, t') ∧
          writes ((switchUsbData in_enable).trace w.step s) =
            writes ((switchController dwcDriver in_enable).trace w.step t) := by
  rcases hpath : getUsbControllerPath.run w.step s with ⟨_ | dwcDriver, t⟩
  · rw [switchUsbData, run_bind_error hpath] at hrun
    cases hrun
  rw [switchUsbData, run_bind_ok hpath] at hrun
  have hquiet : getUsbControllerPath.Performs Op.Quiet :=
    getUsbControllerPath_footprint.mono fun _ => Op.In.quiet
  rw [switchUsbData, trace_bind_ok hpath, assigns_append, writes_append, assigns_of_quiet hquiet,
    writes_of_quiet hquiet, List.nil_append, List.nil_append]
  by_cases hempty : dwcDriver = []
  · rw [if_pos hempty] at hrun ⊢
    cases hrun
    exact Or.inl ⟨by decide, rfl⟩
  rw [if_neg hempty] at hrun ⊢
  rcases hswitch : (switchController dwcDriver in_enable).run w.step t with ⟨_ | status', t'⟩
  · rw [run_bind_error hswitch] at hrun
    cases hrun
  rw [run_bind_ok hswitch] at hrun
  rw [trace_bind_ok hswitch, assigns_append, writes_append,
    assigns_of_within (switchController_footprint.mono fun _ => Op.In.within), List.nil_append]
  by_cases hstatus : status' = .SUCCESS
  · rw [if_pos hstatus] at hrun ⊢
    cases hrun
    rw [hstatus] at hswitch
    exact Or.inr ⟨rfl, rfl, rfl, dwcDriver, t, t', hswitch, List.append_nil _⟩
  · rw [if_neg hstatus] at hrun ⊢
    cases hrun
    exact Or.inl ⟨hstatus, rfl⟩

theorem reportUsbData_quiet {in_portName : Text} {in_transactionId : Int} :
    (reportUsbData in_portName in_enable in_transactionId status).Performs Op.Quiet := by
  refine Performs.bind (performs_fields.2 trivial) fun usb => ?_
  refine Performs.ite (fun _ => ?_) fun _ => trivial
  refine Performs.bind (performs_notify.2 trivial) fun _ => ?_
  refine Performs.bind getPortStatusHelper_quiet fun ⟨status, statuses⟩ => ?_
  exact performs_notify.2 trivial

/-- A call is the switching, whose status is known, and then only a report. -/
theorem DataStep.call_inv (h : DataStep w s (.call x) s') :
    ∃ status t, (switchUsbData x.in_enable).run w.step s = (.ok status, t) ∧ s'.usb = t.usb ∧
      x.ops = (switchUsbData x.in_enable).trace w.step s ++
        (reportUsbData x.in_portName x.in_enable x.in_transactionId status).trace w.step t ∧
      writes x.ops = writes ((switchUsbData x.in_enable).trace w.step s) ∧
      assigns x.ops = assigns ((switchUsbData x.in_enable).trace w.step s) := by
  cases h with
  | @call _ in_portName in_enable in_transactionId hrun =>
      rcases hswitch : (switchUsbData in_enable).run w.step s with ⟨_ | status, t⟩
      · rw [enableUsbData, run_bind_error hswitch] at hrun
        cases hrun
      rw [enableUsbData, run_bind_ok hswitch] at hrun
      have htrace : (enableUsbData in_portName in_enable in_transactionId).trace w.step s =
          (switchUsbData in_enable).trace w.step s ++
            (reportUsbData in_portName in_enable in_transactionId status).trace w.step t := by
        rw [enableUsbData, trace_bind_ok hswitch]
      have husb : ((reportUsbData in_portName in_enable in_transactionId status).run w.step t).2.usb =
          t.usb := usb_of_quiet reportUsbData_quiet
      rw [hrun] at husb
      refine ⟨status, t, rfl, husb, htrace, ?_, ?_⟩
      · rw [htrace, writes_append, writes_of_quiet reportUsbData_quiet, List.append_nil]
      · rw [htrace, assigns_append, assigns_of_quiet reportUsbData_quiet, List.append_nil]

/-- A call that succeeds and switches data on. -/
theorem DataStep.enables (h : DataStep w s (.call x) s') (henable : x.in_enable = true)
    (hsucceeds : x.Succeeds) :
    dataStatus s'.usb = .ENABLED ∧ ∃ dwcDriver mDevicePath mGadgetName,
      EnableWrites dwcDriver mDevicePath mGadgetName (writes x.ops) .SUCCESS := by
  rcases h.call_inv with ⟨status, t, hswitch, husb, _, hwrites, hassigns⟩
  rw [DataCall.Succeeds, hassigns] at hsucceeds
  rcases switchUsbData_run hswitch with ⟨_, hnone⟩ | ⟨_, _, hdisabled, dwcDriver, u, u', hrun, heq⟩
  · rw [hnone] at hsucceeds
    cases hsucceeds
  · rw [henable] at hrun heq hdisabled
    rw [henable] at hwrites
    refine ⟨?_, dwcDriver, u.usb.mDevicePath, u.usb.mGadgetName, ?_⟩
    · rw [dataStatus, husb, hdisabled]
      rfl
    · rw [hwrites, heq]
      exact switchController_writes hrun

/-- The status that is reported is `SUCCESS` exactly if the call succeeds. -/
theorem DataStep.succeeds_iff (h : DataStep w s (.call x) s') :
    ∃ status t, x.ops = (switchUsbData x.in_enable).trace w.step s ++
        (reportUsbData x.in_portName x.in_enable x.in_transactionId status).trace w.step t ∧
      (x.Succeeds ↔ status = .SUCCESS) := by
  rcases h.call_inv with ⟨status, t, hswitch, _, hops, _, hassigns⟩
  refine ⟨status, t, hops, ?_⟩
  rw [DataCall.Succeeds, hassigns]
  rcases switchUsbData_run hswitch with ⟨hstatus, hnone⟩ | ⟨hstatus, hassign, _⟩
  · rw [hnone]
    simp [hstatus]
  · rw [hassign]
    simp [hstatus]

end Steps

/-! ## Runs -/

section Runs

variable {σ : Type u} {w : World σ} {s₀ s : State σ} {h : List DataEvent} {x : DataCall} {k : Nat}

/-- The step of a call, and the cells after it. -/
theorem callAt (hrun : Run (DataStep w) s₀ h s) (hk : h[k]? = some (.call x)) :
    ∃ t t', DataStep w t (.call x) t' ∧ Run (DataStep w) s₀ (h.take (k + 1)) t' ∧
      ∀ path, cellAfter (h.take (k + 1)) path =
        lastAccepted ((h.take k).flatMap DataEvent.writes ++ UsbHal.writes x.ops) path := by
  rcases hrun.atIndex hk with ⟨t, t', hpre, hstep, _⟩
  have htake := take_succ_eq hk
  refine ⟨t, t', hstep, ?_, fun path => ?_⟩
  · rw [htake]
    exact Run.snoc _ hpre hstep
  · rw [htake, cellAfter, List.flatMap_append]
    simp [DataEvent.writes]

/-- A call that switches data on and succeeds releases all controls exactly if the ones that were
disabled before are the one it reaches. -/
theorem released_iff (hrun : Run (DataStep w) s₀ h s) (hk : h[k]? = some (.call x))
    (henable : x.in_enable = true) (hsucceeds : x.Succeeds) :
    Released (h.take (k + 1)) ↔
      ∀ path content, cellAfter (h.take k) path = some content → Disabling content path →
        firstAccepted (UsbHal.writes x.ops) = some path := by
  rcases callAt hrun hk with ⟨t, t', hstep, _, hcells⟩
  rcases (hstep.enables henable hsucceeds).2 with ⟨_, _, _, hwrites⟩
  have hreleased := hwrites.enabled_iff ((h.take k).flatMap DataEvent.writes)
  simp only [Released, hcells]
  exact hreleased

/-- Along every sequence of calls, switching data on undoes what was switched off exactly if each
call that does so reaches whatever is disabled before it. -/
theorem enablesData_iff (hrun : Run (DataStep w) s₀ h s) :
    EnablesData w s₀ h ↔ ReachesDisabled h := by
  constructor
  · intro henables k x path content hk henable hsucceeds
    rcases callAt hrun hk with ⟨_, t', _, hrun', _⟩
    have hreleased := (henables k x t' hk henable hsucceeds hrun').2
    exact (released_iff hrun hk henable hsucceeds).1 hreleased path content
  · intro hreaches k x t hk henable hsucceeds hrun'
    refine ⟨?_, (released_iff hrun hk henable hsucceeds).2 fun path content =>
      hreaches k x path content hk henable hsucceeds⟩
    rw [take_succ_eq hk] at hrun'
    rcases hrun'.snoc_inv with ⟨_, _, hstep⟩
    exact (hstep.enables henable hsucceeds).1

end Runs

/-! ## A switch through a fallback -/

/-- A system in which the writes are accepted or not as a list says, and then all. -/
def World.scripted : World (List Bool) where
  readFile _ x := (none, x)
  writeFile _ _ x := (x.headD true, x.tail)
  listDirectory _ x := (some [⟨.DT_LNK, "a600000.ssusb"⟩], x)
  access _ _ x := (.ENOENT, x)
  getProperty _ x := ("a600000.dwc3", x)
  setProperty _ _ x := x
  iterate names x := (inOrder names, x)
  tryRoleSwitchLock x := (false, x)

/-- The object of this device, under a system that answers the writes in this way. -/
def dataInitial (accepted : List Bool) : State (List Bool) :=
  ⟨{ Usb.initial with
      mDevicePath := "/sys/devices/platform/soc/a600000.ssusb/"
      mGadgetName := "a600000.dwc3" }, accepted⟩

def callOf (s : State (List Bool)) (in_enable : Bool) : DataCall :=
  ⟨"port0", in_enable, 0, (enableUsbData "port0" in_enable 0).trace World.scripted.step s⟩

def afterCall (s : State (List Bool)) (in_enable : Bool) : State (List Bool) :=
  ((enableUsbData "port0" in_enable 0).run World.scripted.step s).2

/-- The second of two calls: data is switched on after it was switched off. -/
def onCall (accepted : List Bool) : DataCall := callOf (afterCall (dataInitial accepted) false) true

def offAndOn (accepted : List Bool) : List DataEvent :=
  [.call (callOf (dataInitial accepted) false), .call (onCall accepted)]

theorem offAndOn_run (accepted : List Bool)
    (hoff : ((enableUsbData "port0" false 0).run World.scripted.step (dataInitial accepted)).1 = .ok ())
    (hon : ((enableUsbData "port0" true 0).run World.scripted.step
      (afterCall (dataInitial accepted) false)).1 = .ok ()) :
    Run (DataStep World.scripted) (dataInitial accepted) (offAndOn accepted)
      (afterCall (afterCall (dataInitial accepted) false) true) :=
  Run.cons (.call (Prod.ext hoff rfl)) (Run.single (.call (Prod.ext hon rfl)))

/-- The primary control of this device. -/
def dynamicDisable : Text := DWC_DRIVER ++ "a600000.ssusb" ++ "/" ++ DYNAMIC_DISABLE

theorem writes_primary :
    UsbHal.writes (callOf (dataInitial []) false).ops = [("1".toList, dynamicDisable, true)] ∧
      UsbHal.writes (onCall []).ops = [("0".toList, dynamicDisable, true)] := by
  decide +kernel

/-- With every write accepted, both calls reach the primary control. -/
theorem enablesData_primary : EnablesData World.scripted (dataInitial []) (offAndOn []) := by
  refine (enablesData_iff (offAndOn_run [] (by decide +kernel) (by decide +kernel))).2 ?_
  intro k x path content hk henable _ hcell _
  rcases k with _ | _ | k
  · cases hk
    cases henable
  · cases hk
    have hmem : (content, path, true) ∈ UsbHal.writes (callOf (dataInitial []) false).ops := by
      simpa [offAndOn, DataEvent.writes] using mem_of_lastAccepted hcell
    rw [writes_primary.1, List.mem_singleton] at hmem
    cases hmem
    rw [writes_primary.2]
    rfl
  · cases hk

/-- The first write is refused: data is switched off by a fallback, and on by the primary
control. -/
theorem fallback_not_undone :
    Run (DataStep World.scripted) (dataInitial [false]) (offAndOn [false])
        (afterCall (afterCall (dataInitial [false]) false) true) ∧
      ¬ EnablesData World.scripted (dataInitial [false]) (offAndOn [false]) := by
  have hrun := offAndOn_run [false] (by decide +kernel) (by decide +kernel)
  refine ⟨hrun, fun henables => ?_⟩
  have hsucceeds : (onCall [false]).Succeeds := by
    rw [DataCall.Succeeds]
    decide +kernel
  have hcell : cellAfter (offAndOn [false])
      ("/sys/devices/platform/soc/a600000.ssusb/" ++ USB_DATA_PATH) = some "0".toList := by
    decide +kernel
  have hdisabling : Disabling "0" ("/sys/devices/platform/soc/a600000.ssusb/" ++ USB_DATA_PATH) :=
    Or.inr (Or.inl ⟨rfl, List.suffix_append _ _⟩)
  exact (henables 1 (onCall [false]) _ rfl rfl hsucceeds hrun).2 _ _ hcell hdisabling

end UsbHal
end M2391Device
