import M2391Device.Usb.System

/-!
# PortStatus — what the HAL reports about its ports

`getPortStatusHelper` of `usb/Usb.cpp` and the functions it calls.  They read and report; none of
them writes a file or a field (`getPortStatusHelper_footprint`).
-/

namespace M2391Device
namespace UsbHal

/-! ## Roles -/

inductive RoleTag
  | powerRole
  | dataRole
  | mode
  deriving DecidableEq

def PortRole.tag : PortRole → RoleTag
  | .powerRole _ => .powerRole
  | .dataRole _ => .dataRole
  | .mode _ => .mode

/-- `get<PortRole::powerRole>()`, which asserts that the union holds one. -/
def PortRole.getPowerRole : PortRole → Except Terminated PortPowerRole
  | .powerRole role => .ok role
  | _ => .error .badAccess

def PortRole.getDataRole : PortRole → Except Terminated PortDataRole
  | .dataRole role => .ok role
  | _ => .error .badAccess

def PortRole.getMode : PortRole → Except Terminated PortMode
  | .mode value => .ok value
  | _ => .error .badAccess

/-- `appendRoleNodeHelper(portName, tag)` -/
def appendRoleNodeHelper (portName : Text) (tag : RoleTag) : Text :=
  if portName = ".." ∨ '/' ∈ portName then []
  else
    let node : Text := "/sys/class/typec/" ++ portName
    match tag with
    | .dataRole => node ++ "/data_role"
    | .powerRole => node ++ "/power_role"
    | .mode => node ++ "/port_type"

/-- `extractRole(roleName)`: the text between the first `[` and the first `]`. -/
def extractRole (roleName : Text) : Text :=
  match roleName.findIdx? (· = '['), roleName.findIdx? (· = ']') with
  | some first, some last =>
      let rest := roleName.drop (first + 1)
      -- `last - first - 1` wraps around when the brackets are the other way round
      if first < last then rest.take (last - first - 1) else rest
  | _, _ => roleName

/-- `getAccessoryConnected(portName, accessory)`; `none` is an error. -/
def getAccessoryConnected (portName : Text) : Hal (Option Text) := do
  let accessory ← ReadFileToString ("/sys/class/typec/" ++ portName ++ "-partner/accessory_mode")
  return accessory.map trim

/-- The role that a role name stands for, for a current role of the given kind. -/
def roleOfName (tag : RoleTag) (roleName : Text) : Option PortRole :=
  if roleName = "source" then
    some (if tag = .powerRole then .powerRole .SOURCE else .mode .DFP)
  else if roleName = "sink" then
    some (if tag = .powerRole then .powerRole .SINK else .mode .UFP)
  else if roleName = "host" then
    some (if tag = .dataRole then .dataRole .HOST else .mode .DFP)
  else if roleName = "device" then
    some (if tag = .dataRole then .dataRole .DEVICE else .mode .UFP)
  else none

/-- The role that is set before anything is read. -/
def RoleTag.noRole : RoleTag → PortRole
  | .powerRole => .powerRole .NONE
  | .dataRole => .dataRole .NONE
  | .mode => .mode .NONE

/-- The second half of `getCurrentRoleHelper`, which reads the role itself. -/
def readCurrentRole (portName : Text) (tag : RoleTag) : Hal (Status × PortRole) := do
  -- the mode is derived from the data role
  let filename : Text :=
    "/sys/class/typec/" ++ portName ++ (if tag = .powerRole then "/power_role" else "/data_role")
  match ← ReadFileToString filename with
  | none => return (.ERROR, tag.noRole)
  | some roleName =>
      let roleName := extractRole roleName
      match roleOfName tag roleName with
      | some role => return (.SUCCESS, role)
      | none =>
          return (if roleName = "none" then .SUCCESS else .UNRECOGNIZED_ROLE, tag.noRole)

/-- `getCurrentRoleHelper(portName, connected, currentRole)` for a role of the given kind. -/
def getCurrentRoleHelper (portName : Text) (connected : Bool) (tag : RoleTag) :
    Hal (Status × PortRole) := do
  if !connected then return (.SUCCESS, tag.noRole)
  if tag = .dataRole then readCurrentRole portName tag
  else
    match ← getAccessoryConnected portName with
    | none => return (.ERROR, tag.noRole)
    | some accessory =>
        if accessory = "analog_audio" then
          return (.SUCCESS,
            if tag = .powerRole then .powerRole .SINK else .mode .AUDIO_ACCESSORY)
        else if accessory = "debug" ∧ tag = .mode then
          return (.SUCCESS, .mode .DEBUG_ACCESSORY)
        else readCurrentRole portName tag

/-! ## Ports -/

/-- `names.insert({entry, false})` if it is not a key yet. -/
def insertPort (names : List (Text × Bool)) (entry : Text) : List (Text × Bool) :=
  if names.any fun x => x.1 = entry then names else names ++ [(entry, false)]

/-- `names[entry] = true` -/
def connectPort (names : List (Text × Bool)) (entry : Text) : List (Text × Bool) :=
  if names.any fun x => x.1 = entry then
    names.map fun x => if x.1 = entry then (entry, true) else x
  else names ++ [(entry, true)]

/-- The body of the loop over `/sys/class/typec/`. -/
def addEntry (names : List (Text × Bool)) (ep : Dirent) : List (Text × Bool) :=
  if ep.d_type = .DT_LNK then
    match find? "-partner" ep.d_name with
    | none => insertPort names ep.d_name
    | some n => connectPort names (ep.d_name.take n)
  else names

def getTypeCPortNamesHelper : Hal (List (Text × Bool)) := do
  match ← listDirectory "/sys/class/typec/" with
  | none => return []
  | some entries => return entries.foldl addEntry []

def canSwitchRoleHelper (portName : Text) : Hal Bool := do
  let supportsPD ←
    ReadFileToString ("/sys/class/typec/" ++ portName ++ "-partner/supports_usb_power_delivery")
  return supportsPD.any fun text => text.head? = some 'y'

/-- `connected ? canSwitchRoleHelper(portName) : false` -/
def canSwitchRole (portName : Text) (connected : Bool) : Hal Bool :=
  if connected then canSwitchRoleHelper portName else pure false

def isConnectedToUsbPowerBrick : Hal Bool := do
  let chargerType ← ReadFileToString "/sys/class/power_supply/usb/type"
  return chargerType.any fun text => trim text = "USB_DCP"

/-- `!contaminantStatusPath.empty() && ReadFileToString(contaminantStatusPath, ..)` -/
def readContaminantPresence (contaminantStatusPath : Text) : Hal (Option Text) :=
  if contaminantStatusPath = [] then pure none else ReadFileToString contaminantStatusPath

/-- The fields on contaminants and on the power brick, which only the first port has. -/
def firstPortStatus (contaminantStatusPath : Text) (status : PortStatus) : Hal PortStatus := do
  let contaminantPresence ← readContaminantPresence contaminantStatusPath
  let status :=
    match contaminantPresence with
    | some text =>
        { status with
          supportedContaminantProtectionModes := [.FORCE_SINK, .FORCE_DISABLE]
          contaminantDetectionStatus :=
            if text.head? = some '1' then .DETECTED else .NOT_DETECTED }
    | none =>
        { status with
          supportedContaminantProtectionModes := [.NONE]
          contaminantProtectionStatus := .NONE }
  let brick ← isConnectedToUsbPowerBrick
  return { status with powerBrickStatus := if brick then .CONNECTED else .NOT_CONNECTED }

/-- The three roles of a port, in the order in which they are read; the first that fails ends the
report with what it has so far.  Reading a role of another kind than was asked for is fatal. -/
def readRoles (portName : Text) (connected : Bool) : Hal (Bool × PortStatus) := do
  let status : PortStatus := { portName := portName }
  let (result, role) ← getCurrentRoleHelper portName connected .powerRole
  if result ≠ .SUCCESS then return (false, status)
  let power ← orTerminate role.getPowerRole
  let status := { status with currentPowerRole := power }
  let (result, role) ← getCurrentRoleHelper portName connected .dataRole
  if result ≠ .SUCCESS then return (false, status)
  let data ← orTerminate role.getDataRole
  let status := { status with currentDataRole := data }
  let (result, role) ← getCurrentRoleHelper portName connected .mode
  if result ≠ .SUCCESS then return (false, status)
  let mode ← orTerminate role.getMode
  return (true, { status with currentMode := mode })

/-- What the status of data and power is derived from. -/
def dataStatus (usb : Usb) : UsbDataStatus :=
  if usb.usbDataDisabled then .DISABLED_FORCE else .ENABLED

/-- The body of the loop over the ports; `false` stands for `goto done`. -/
def portStatus (contaminantStatusPath portName : Text) (connected : Bool) :
    Hal (Bool × PortStatus) := do
  let (complete, status) ← readRoles portName connected
  if !complete then return (false, status)
  let writable ← access (appendRoleNodeHelper portName .mode) true
  let canChangeDataRole ← canSwitchRole portName connected
  let canChangePowerRole ← canSwitchRole portName connected
  let usb ← fields
  let status := { status with
    canChangeMode := decide (writable = .ok)
    canChangeDataRole := canChangeDataRole
    canChangePowerRole := canChangePowerRole
    supportedModes := [.DRP, .AUDIO_ACCESSORY]
    usbDataStatus := [dataStatus usb]
    powerTransferLimited := usb.limitedPower
    contaminantProtectionStatus := .FORCE_SINK }
  if portName ≠ "port0" then return (true, status)
  let status ← firstPortStatus contaminantStatusPath status
  return (true, status)

/-- The loop over the ports.  A port that fails leaves the later ones at their defaults. -/
def portStatuses (contaminantStatusPath : Text) :
    List (Text × Bool) → Hal (Bool × List PortStatus)
  | [] => return (true, [])
  | (portName, connected) :: rest => do
      let (complete, status) ← portStatus contaminantStatusPath portName connected
      if !complete then return (false, status :: rest.map fun _ => {})
      let (complete, statuses) ← portStatuses contaminantStatusPath rest
      return (complete, status :: statuses)

/-- `getPortStatusHelper(currentPortStatus, contaminantStatusPath)` -/
def getPortStatusHelper (contaminantStatusPath : Text) : Hal (Status × List PortStatus) := do
  let names ← getTypeCPortNamesHelper
  if names = [] then
    -- hardcoded parameters for targets without a type-C port
    return (.SUCCESS, [{}])
  let order ← (Program.call (Op.iterate names) : Hal _)
  let (complete, statuses) ← portStatuses contaminantStatusPath order.1
  return (if complete then .SUCCESS else .ERROR, statuses)

/-! ## None of them writes anything -/

section Reads

open Program

variable {portName : Text} {connected : Bool}

theorem readCurrentRole_reads {tag : RoleTag} : (readCurrentRole portName tag).Performs Op.Reads := by
  refine Performs.bind (performs_readFile.2 trivial) ?_
  rintro (_ | roleName)
  · exact trivial
  · simp only
    split <;> exact trivial

theorem getCurrentRoleHelper_reads {tag : RoleTag} :
    (getCurrentRoleHelper portName connected tag).Performs Op.Reads := by
  refine Performs.ite (fun _ => trivial) fun _ => ?_
  refine Performs.ite (fun _ => readCurrentRole_reads) fun _ => ?_
  refine Performs.bind (Performs.bind (performs_readFile.2 trivial) fun _ => trivial) ?_
  rintro (_ | accessory)
  · exact trivial
  · exact Performs.ite (fun _ => trivial) fun _ =>
      Performs.ite (fun _ => trivial) fun _ => readCurrentRole_reads

theorem readRoles_reads : (readRoles portName connected).Performs Op.Reads := by
  refine Performs.bind getCurrentRoleHelper_reads fun ⟨result, role⟩ => ?_
  refine Performs.ite (fun _ => trivial) fun _ => ?_
  refine Performs.bind (performs_orTerminate _) fun power => ?_
  refine Performs.bind getCurrentRoleHelper_reads fun ⟨result, role⟩ => ?_
  refine Performs.ite (fun _ => trivial) fun _ => ?_
  refine Performs.bind (performs_orTerminate _) fun data => ?_
  refine Performs.bind getCurrentRoleHelper_reads fun ⟨result, role⟩ => ?_
  refine Performs.ite (fun _ => trivial) fun _ => ?_
  exact Performs.bind (performs_orTerminate _) fun mode => trivial

theorem canSwitchRole_footprint : (canSwitchRole portName connected).Performs (Op.In { reads :=
    (· = "/sys/class/typec/" ++ portName ++ "-partner/supports_usb_power_delivery".toList) }) :=
  Performs.ite (fun _ => Performs.bind (performs_readFile.2 rfl) fun _ => trivial) fun _ => trivial

theorem isConnectedToUsbPowerBrick_footprint : isConnectedToUsbPowerBrick.Performs
    (Op.In { reads := (· = "/sys/class/power_supply/usb/type".toList) }) :=
  Performs.bind (performs_readFile.2 rfl) fun _ => trivial

theorem readContaminantPresence_footprint {path : Text} :
    (readContaminantPresence path).Performs (Op.In { reads := (· = path) }) :=
  Performs.ite (fun _ => trivial) fun _ => performs_readFile.2 rfl

theorem Op.In.reads {files : Text → Prop} {o : Op} (ho : o.In { reads := files }) : o.Reads :=
  ho.mono ⟨fun _ _ => trivial, nofun, nofun, nofun, nofun⟩

theorem firstPortStatus_reads {path : Text} {status : PortStatus} :
    (firstPortStatus path status).Performs Op.Reads := by
  refine Performs.bind (readContaminantPresence_footprint.mono fun _ => Op.In.reads) fun presence => ?_
  exact Performs.bind (isConnectedToUsbPowerBrick_footprint.mono fun _ => Op.In.reads)
    fun _ => trivial

theorem portStatus_reads {path : Text} :
    (portStatus path portName connected).Performs Op.Reads := by
  refine Performs.bind readRoles_reads fun ⟨complete, status⟩ => ?_
  refine Performs.ite (fun _ => trivial) fun _ => ?_
  refine Performs.bind (performs_access trivial) fun writable => ?_
  refine Performs.bind (canSwitchRole_footprint.mono fun _ => Op.In.reads) fun canChangeDataRole => ?_
  refine Performs.bind (canSwitchRole_footprint.mono fun _ => Op.In.reads) fun canChangePowerRole => ?_
  refine Performs.bind (performs_fields.2 trivial) fun usb => ?_
  refine Performs.ite (fun _ => trivial) fun _ => ?_
  exact Performs.bind firstPortStatus_reads fun _ => trivial

theorem portStatuses_reads {path : Text} {names : List (Text × Bool)} :
    (portStatuses path names).Performs Op.Reads := by
  induction names with
  | nil => exact trivial
  | cons name rest ih =>
      refine Performs.bind portStatus_reads fun ⟨complete, status⟩ => ?_
      exact Performs.ite (fun _ => trivial) fun _ => Performs.bind ih fun _ => trivial

theorem getTypeCPortNamesHelper_footprint :
    getTypeCPortNamesHelper.Performs (Op.In { lists := (· = "/sys/class/typec/".toList) }) := by
  refine Performs.bind (performs_listDirectory.2 rfl) ?_
  rintro (_ | entries) <;> exact trivial

theorem getPortStatusHelper_footprint {path : Text} : (getPortStatusHelper path).Performs
    (Op.In { reads := fun _ => True, lists := (· = "/sys/class/typec/".toList) }) := by
  refine Performs.bind (performs_mono getTypeCPortNamesHelper_footprint
    ⟨nofun, fun _ h => h, nofun, nofun, nofun⟩) fun names => ?_
  refine Performs.ite (fun _ => trivial) fun _ => ?_
  refine Performs.bind (Performs.call_iff.2 trivial) fun order => ?_
  exact Performs.bind (performs_mono portStatuses_reads ⟨fun _ h => h, nofun, nofun, nofun, nofun⟩)
    fun _ => trivial

theorem getPortStatusHelper_quiet {path : Text} : (getPortStatusHelper path).Performs Op.Quiet :=
  getPortStatusHelper_footprint.mono fun _ => Op.In.quiet

end Reads

end UsbHal
end M2391Device
