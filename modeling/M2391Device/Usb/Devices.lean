import M2391Device.Usb.System

/-!
# Devices — power control of the attached devices

The functions of `usb/Usb.cpp` that look at a device below its sysfs directory and set its power
controls, and the list of the devices whose interfaces are all of the HID class.
-/

namespace M2391Device
namespace UsbHal

def USB_CLASS_AUDIO : Int := 1
def USB_CLASS_HID : Int := 3
def USB_CLASS_HUB : Int := 9

def BACKLIGHT_PATH : Text := "/sys/class/backlight/panel0-backlight/brightness"
def GOOGLE_USB_VENDOR_ID_STR : Text := "18d1"
def GOOGLE_USBC_35_ADAPTER_UNPLUGGED_ID_STR : Text := "5029"

/-! ## HID devices and the display -/

/-- The end of `manageHidPower`, which a failed write before it does not reach. -/
def setAutosuspend (path : Text) (allow : Bool) : Hal Unit := do
  let ret ←
    WriteStringToFile (if allow then "3000" else "60000") (path ++ "/power/autosuspend_delay_ms")
  if !ret then return ()
  let _ ← WriteStringToFile "auto" (path ++ "/power/control")
  return ()

/-- `manageHidPower(path, allow)` -/
def manageHidPower (path : Text) (allow : Bool) : Hal Unit := do
  let runtimeState ← ReadFileToString (path ++ "/power/runtime_status")
  if runtimeState = some "active" then
    let ret ← WriteStringToFile "on" (path ++ "/power/control")
    if !ret then return ()
    setAutosuspend path allow
  else setAutosuspend path allow

def isDisplayOff : Hal Bool := do
  match ← ReadFileToString BACKLIGHT_PATH with
  | none => return false
  | some brightness =>
      let value ← orTerminate (stoi 10 brightness)
      return !(decide (value > 0))

/-- The class of an interface, or -1. -/
def getDeviceInterfaceClass (devicePath intf : Text) : Hal Int := do
  match ← ReadFileToString (devicePath ++ "/" ++ intf ++ "/bInterfaceClass") with
  | none => return -1
  | some bInterfaceClass =>
      if bInterfaceClass = [] then return -1 else orTerminate (stoi 16 bInterfaceClass)

/-- An entry of a device's directory that is one of its interfaces. -/
def Dirent.isInterface (intfDir : Dirent) : Bool :=
  intfDir.d_type = .DT_DIR && ':' ∈ intfDir.d_name

/-- The loop of `checkUsbHidOnly` over the rest of the directory. -/
def checkEntries (devicePath : Text) (hidOnly : Bool) : List Dirent → Hal Bool
  | [] => return hidOnly
  | intfDir :: rest =>
      if intfDir.isInterface then do
        let interfaceClass ← getDeviceInterfaceClass devicePath intfDir.d_name
        if interfaceClass = USB_CLASS_HID then checkEntries devicePath true rest
        else return false
      else checkEntries devicePath hidOnly rest

/-- `checkUsbHidOnly(devicePath)` -/
def checkUsbHidOnly (devicePath : Text) : Hal Bool := do
  match ← listDirectory devicePath with
  | none => return false
  | some entries => checkEntries devicePath false entries

/-- `removeUsbHIDDevice(usb, devicePath)` -/
def removeUsbHIDDevice (devicePath : Text) : Hal Unit := assign (.removeHidDev devicePath)

/-- `checkUsbHIDDevice(usb, devicePath)` -/
def checkUsbHIDDevice (devicePath : Text) : Hal Unit := do
  let hidOnly ← checkUsbHidOnly devicePath
  if hidOnly then assign (.pushHidDev devicePath) else return ()

/-- `handleDisplayEvent(usb)` -/
def handleDisplayEvent : Hal Unit := do
  let displayOff ← isDisplayOff
  let usb ← fields
  Program.each (fun dev => manageHidPower dev displayOff) usb.hidDevs

/-! ## Autosuspend -/

/-- `canProductAutoSuspend(deviceIdVendor, deviceIdProduct)` -/
def canProductAutoSuspend (deviceIdVendor deviceIdProduct : Text) : Bool :=
  deviceIdVendor = GOOGLE_USB_VENDOR_ID_STR &&
    deviceIdProduct = GOOGLE_USBC_35_ADAPTER_UNPLUGGED_ID_STR

/-- `canUsbDeviceAutoSuspend(devicePath)`; a file that cannot be read counts as empty. -/
def canUsbDeviceAutoSuspend (devicePath : Text) : Hal Bool := do
  let deviceIdVendor ← ReadFileToString (devicePath ++ "/idVendor")
  let deviceIdProduct ← ReadFileToString (devicePath ++ "/idProduct")
  return canProductAutoSuspend (trim (deviceIdVendor.getD [])) (trim (deviceIdProduct.getD []))

/-- `checkUsbDeviceAutoSuspend(devicePath)` -/
def checkUsbDeviceAutoSuspend (devicePath : Text) : Hal Unit := do
  let canSuspend ← canUsbDeviceAutoSuspend devicePath
  if canSuspend then
    let _ ← WriteStringToFile "auto" (devicePath ++ "/power/control")
    let _ ← WriteStringToFile "enabled" (devicePath ++ "/power/wakeup")
    return ()
  else return ()

/-- The case labels that a HID interface falls through to. -/
def enableAutosuspend (devicePath : Text) : Hal Bool := do
  let ret ← WriteStringToFile "auto" (devicePath ++ "/power/control")
  if !ret then return ret
  WriteStringToFile "enabled" (devicePath ++ "/power/wakeup")

/-- `if (checkUsbHidOnly(devicePath) && !isDisplayOff()) manageHidPower(devicePath, false);` -/
def delayHidSuspend (devicePath : Text) : Hal Unit := do
  let hidOnly ← checkUsbHidOnly devicePath
  if hidOnly then
    let displayOff ← isDisplayOff
    if displayOff then return () else manageHidPower devicePath false
  else return ()

/-- `checkUsbInterfaceAutoSuspend(devicePath, intf)` -/
def checkUsbInterfaceAutoSuspend (devicePath intf : Text) : Hal Bool := do
  let interfaceClass ← getDeviceInterfaceClass devicePath intf
  if interfaceClass = USB_CLASS_HID then
    delayHidSuspend devicePath
    enableAutosuspend devicePath
  else if interfaceClass = USB_CLASS_AUDIO ∨ interfaceClass = USB_CLASS_HUB then
    enableAutosuspend devicePath
  else return false

/-! ## What they write -/

/-- The controls that the HAL writes for a device. -/
def powerControls (devicePath : Text) : List Text :=
  [devicePath ++ "/power/control", devicePath ++ "/power/wakeup",
    devicePath ++ "/power/autosuspend_delay_ms"]

/-- Reading the class of an interface of the device. -/
def Op.ReadsClass (devicePath : Text) : Op → Prop
  | .readFile path => ∃ intf, path = devicePath ++ "/" ++ intf ++ "/bInterfaceClass".toList
  | _ => False

/-- What looks at a device and at the display, and writes the power controls of the device. -/
abbrev Footprint.ofDevice (devicePath : Text) : Footprint where
  reads := fun _ => True
  lists := (· = devicePath)
  writes := (· ∈ powerControls devicePath)

section Footprint

open Program

variable {devicePath intf : Text} {allow : Bool}

theorem writesControl {content : Text} :
    (WriteStringToFile content (devicePath ++ "/power/control")).Performs
      (Op.In { writes := (· ∈ powerControls devicePath) }) :=
  performs_writeFile.2 (List.Mem.head _)

theorem writesWakeup {content : Text} :
    (WriteStringToFile content (devicePath ++ "/power/wakeup")).Performs
      (Op.In { writes := (· ∈ powerControls devicePath) }) :=
  performs_writeFile.2 (List.Mem.tail _ (List.Mem.head _))

theorem writesDelay {content : Text} :
    (WriteStringToFile content (devicePath ++ "/power/autosuspend_delay_ms")).Performs
      (Op.In { writes := (· ∈ powerControls devicePath) }) :=
  performs_writeFile.2 (List.Mem.tail _ (List.Mem.tail _ (List.Mem.head _)))

theorem setAutosuspend_footprint : (setAutosuspend devicePath allow).Performs
    (Op.In { writes := (· ∈ powerControls devicePath) }) := by
  refine Performs.bind writesDelay fun ret => ?_
  refine Performs.ite (fun _ => trivial) fun _ => ?_
  exact Performs.bind writesControl fun _ => trivial

/-- What reads the state of a device, and writes its power controls. -/
abbrev Footprint.ofHid (devicePath : Text) : Footprint where
  reads := (· = devicePath ++ "/power/runtime_status".toList)
  writes := (· ∈ powerControls devicePath)

theorem manageHidPower_footprint :
    (manageHidPower devicePath allow).Performs (Op.In (.ofHid devicePath)) := by
  have hautosuspend : (setAutosuspend devicePath allow).Performs (Op.In (.ofHid devicePath)) :=
    performs_mono setAutosuspend_footprint ⟨nofun, nofun, fun _ h => h, nofun, nofun⟩
  refine Performs.bind (performs_readFile.2 rfl) fun runtimeState => ?_
  refine Performs.ite (fun _ => ?_) fun _ => hautosuspend
  refine Performs.bind (performs_mono writesControl ⟨nofun, nofun, fun _ h => h, nofun, nofun⟩)
    fun ret => ?_
  exact Performs.ite (fun _ => trivial) fun _ => hautosuspend

theorem isDisplayOff_footprint :
    isDisplayOff.Performs (Op.In { reads := (· = BACKLIGHT_PATH) }) := by
  refine Performs.bind (performs_readFile.2 rfl) ?_
  rintro (_ | brightness)
  · exact trivial
  · exact Performs.bind (performs_orTerminate _) fun _ => trivial

theorem getDeviceInterfaceClass_reads :
    (getDeviceInterfaceClass devicePath intf).Performs (Op.ReadsClass devicePath) := by
  refine Performs.bind (performs_readFile.2 ⟨intf, rfl⟩) ?_
  rintro (_ | bInterfaceClass)
  · exact trivial
  · exact Performs.ite (fun _ => trivial) fun _ => performs_orTerminate _

theorem checkEntries_reads {hidOnly : Bool} {entries : List Dirent} :
    (checkEntries devicePath hidOnly entries).Performs (Op.ReadsClass devicePath) := by
  induction entries generalizing hidOnly with
  | nil => exact trivial
  | cons intfDir rest ih =>
      refine Performs.ite (fun _ => ?_) fun _ => ih
      refine Performs.bind getDeviceInterfaceClass_reads fun interfaceClass => ?_
      exact Performs.ite (fun _ => ih) fun _ => trivial

theorem Op.ReadsClass.in_device {o : Op} (ho : o.ReadsClass devicePath) :
    o.In { reads := fun _ => True, lists := (· = devicePath) } := by
  cases o <;> first | exact trivial | exact ho.elim

theorem checkUsbHidOnly_footprint : (checkUsbHidOnly devicePath).Performs
    (Op.In { reads := fun _ => True, lists := (· = devicePath) }) := by
  refine Performs.bind (performs_listDirectory.2 rfl) ?_
  rintro (_ | entries)
  · exact trivial
  · exact checkEntries_reads.mono fun _ => Op.ReadsClass.in_device

theorem checkUsbDeviceAutoSuspend_footprint :
    (checkUsbDeviceAutoSuspend devicePath).Performs (Op.In (.ofDevice devicePath)) := by
  refine Performs.bind ?_ fun canSuspend => ?_
  · refine Performs.bind (performs_readFile.2 trivial) fun _ => ?_
    exact Performs.bind (performs_readFile.2 trivial) fun _ => trivial
  · refine Performs.ite (fun _ => ?_) fun _ => trivial
    refine Performs.bind (performs_mono writesControl ⟨nofun, nofun, fun _ h => h, nofun, nofun⟩)
      fun _ => ?_
    exact Performs.bind (performs_mono writesWakeup ⟨nofun, nofun, fun _ h => h, nofun, nofun⟩)
      fun _ => trivial

theorem enableAutosuspend_footprint : (enableAutosuspend devicePath).Performs
    (Op.In { writes := (· ∈ powerControls devicePath) }) := by
  refine Performs.bind writesControl fun ret => ?_
  exact Performs.ite (fun _ => trivial) fun _ => writesWakeup

theorem delayHidSuspend_footprint :
    (delayHidSuspend devicePath).Performs (Op.In (.ofDevice devicePath)) := by
  refine Performs.bind (performs_mono checkUsbHidOnly_footprint
    ⟨fun _ h => h, fun _ h => h, nofun, nofun, nofun⟩) fun hidOnly => ?_
  refine Performs.ite (fun _ => ?_) fun _ => trivial
  refine Performs.bind (performs_mono isDisplayOff_footprint
    ⟨fun _ _ => trivial, nofun, nofun, nofun, nofun⟩) fun displayOff => ?_
  exact Performs.ite (fun _ => trivial) fun _ => performs_mono manageHidPower_footprint
    ⟨fun _ _ => trivial, nofun, fun _ h => h, nofun, nofun⟩

theorem checkUsbInterfaceAutoSuspend_footprint :
    (checkUsbInterfaceAutoSuspend devicePath intf).Performs (Op.In (.ofDevice devicePath)) := by
  have henable : (enableAutosuspend devicePath).Performs (Op.In (.ofDevice devicePath)) :=
    performs_mono enableAutosuspend_footprint ⟨nofun, nofun, fun _ h => h, nofun, nofun⟩
  refine Performs.bind (performs_mono (getDeviceInterfaceClass_reads.mono fun _ =>
    Op.ReadsClass.in_device) ⟨fun _ h => h, fun _ h => h, nofun, nofun, nofun⟩) fun interfaceClass => ?_
  refine Performs.ite (fun _ => ?_) fun _ => ?_
  · exact Performs.bind delayHidSuspend_footprint fun _ => henable
  · exact Performs.ite (fun _ => henable) fun _ => trivial

end Footprint

end UsbHal
end M2391Device
