import M2391Device.Lib.Regex
import M2391Device.Usb.Devices
import M2391Device.Usb.PortStatus

/-!
# Uevent — the handler of kernel uevents

`uevent_event` of `usb/Usb.cpp` with the two handlers it calls, from the bytes of a datagram on.  The
chain of conditions is a function of the message (`dispatch`), which names the branch that is taken
with the captures it uses; what each branch does is `handle`.
-/

namespace M2391Device
namespace UsbHal

universe u

/-! ## The regular expressions -/

section Patterns

open Regex

/-- `.`, which matches no line terminator. -/
def anyChar : Regex Char := single fun c => c ≠ '\n' ∧ c ≠ '\r'

/-- `\d` -/
def digit : Regex Char := single Char.isDigit

/-- `[^/]` -/
def notSlash : Regex Char := single fun c => c ≠ '/'

/-- `[\d\.-]` -/
def portChar : Regex Char := single fun c => c.isDigit ∨ c = '.' ∨ c = '-'

/-- `/devices/platform/soc/.*dwc3/xhci-hcd\.\d\.auto/usb\d` -/
def rootHubPath : List (Regex Char) :=
  [lit "/devices/platform/soc/".toList, star anyChar, lit "dwc3/xhci-hcd.".toList, digit,
    lit ".auto/usb".toList, digit]

/-- `/\d-\d(?:/[\d\.-]+)*` -/
def portPath : List (Regex Char) :=
  [lit "/".toList, digit, lit "-".toList, digit, star (seq (lit "/".toList) (plus portChar))]

/-- `/([^/]*:[^/]*)` with group 2 -/
def interfaceName : List (Regex Char) :=
  [lit "/".toList, group 2 (concat [star notSlash, lit ":".toList, star notSlash])]

def add_regex : Regex Char := concat [lit "add@".toList, group 1 (concat (rootHubPath ++ portPath))]

def remove_regex : Regex Char :=
  concat [lit "remove@".toList, group 1 (concat (group 2 (concat rootHubPath) :: portPath))]

def bind_regex : Regex Char :=
  concat (lit "bind@".toList :: group 1 (concat (rootHubPath ++ portPath)) :: interfaceName)

def bus_reset_regex : Regex Char :=
  concat (lit "change@".toList :: group 1 (concat (rootHubPath ++ portPath)) :: interfaceName)

/-- `(add|remove)@/devices/platform/soc/.*/.*dwc3/udc/.*dwc3` -/
def udc_regex : Regex Char :=
  concat [group 1 (alt (lit "add".toList) (lit "remove".toList)),
    lit "@/devices/platform/soc/".toList, star anyChar, lit "/".toList, star anyChar,
    lit "dwc3/udc/".toList, star anyChar, lit "dwc3".toList]

/-- `offline@/devices/platform/soc/([^/]+)/[^/]+/(xhci-hcd\.\d\.auto)/usb\d+` -/
def offline_regex : Regex Char :=
  concat [lit "offline@/devices/platform/soc/".toList, group 1 (plus notSlash), lit "/".toList,
    plus notSlash, lit "/".toList,
    group 2 (concat [lit "xhci-hcd.".toList, digit, lit ".auto".toList]), lit "/usb".toList,
    plus digit]

/-- `change@(/devices/platform/soc/.*qcom,mdss_mdp/backlight/panel0-backlight)` -/
def backlight_regex : Regex Char :=
  concat [lit "change@".toList, group 1 (concat [lit "/devices/platform/soc/".toList, star anyChar,
    lit "qcom,mdss_mdp/backlight/panel0-backlight".toList])]

end Patterns

/-! ## Which branch a message takes -/

inductive Branch
  | typec
  | powerSupply
  | add (devpath : Text)
  | bind (devpath intfpath : Text)
  | udc
  | offline (soc xhci : Text)
  | busReset (devpath intfpath : Text)
  | remove (devpath parentpath : Text)
  | backlight
  | ignored
  deriving DecidableEq

/-- The conditions of `uevent_event`, in order. -/
def dispatch (mIgnoreWakeup : Bool) (gadgetName msg : Text) : Branch :=
  if contains "typec/port" msg then .typec
  else if contains "power_supply/usb" msg then .powerSupply
  else
    match add_regex.fullMatch msg with
    | some m => .add (m.str 1)
    | none =>
    match if mIgnoreWakeup then none else bind_regex.fullMatch msg with
    | some m => .bind (m.str 1) (m.str 2)
    | none =>
    if (udc_regex.fullMatch msg).isSome ∧ contains gadgetName msg then .udc
    else
    match offline_regex.fullMatch msg with
    | some m => .offline (m.str 1) (m.str 2)
    | none =>
    match bus_reset_regex.fullMatch msg with
    | some m => .busReset (m.str 1) (m.str 2)
    | none =>
    match remove_regex.fullMatch msg with
    | some m => .remove (m.str 1) (m.str 2)
    | none => if (backlight_regex.fullMatch msg).isSome then .backlight else .ignored

/-! ## Type-C events -/

/-- The node that `switchToDrp` writes, unless it is known not to exist. -/
def switchToDrp (portName : Text) : Hal Unit := do
  let filename := appendRoleNodeHelper portName .mode
  let found ← access filename false
  if found = .ENOENT then return ()
  let _ ← WriteStringToFile "dual" filename
  return ()

def POWER_OPERATION_MODE : Text := "/sys/class/typec/port0/power_operation_mode"
def MAX_POWER : Text := "/config/usb_gadget/g1/configs/b.1/MaxPower"
def BM_ATTRIBUTES : Text := "/config/usb_gadget/g1/configs/b.1/bmAttributes"

/-- The message of a partner that was added. -/
def isPartnerAdded (msg : Text) : Bool :=
  List.isPrefixOf "add@".toList msg && List.isSuffixOf "-partner".toList msg

/-- The flag that `switchMode` waits for; it is set under `mPartnerLock`, with a notification. -/
def notePartner (msg : Text) : Hal Unit :=
  if isPartnerAdded msg then assign (.mPartnerUp true) else return ()

/-- The attributes are saved in fields that `ReadFileToString` clears first, and overridden. -/
def overridePower : Hal Unit := do
  assign (.mMaxPower [])
  let maxPower ← ReadFileToString MAX_POWER
  assign (.mMaxPower (maxPower.getD []))
  assign (.mAttributes [])
  let attributes ← ReadFileToString BM_ATTRIBUTES
  assign (.mAttributes (attributes.getD []))
  let _ ← WriteStringToFile "0" MAX_POWER
  let _ ← WriteStringToFile "0xc0" BM_ATTRIBUTES
  return ()

/-- The saved attributes are written back, and the first one is forgotten. -/
def restorePower (usb : Usb) : Hal Unit :=
  if usb.mMaxPower = [] then return ()
  else do
    let _ ← WriteStringToFile usb.mMaxPower MAX_POWER
    let _ ← WriteStringToFile usb.mAttributes BM_ATTRIBUTES
    assign (.mMaxPower [])

/-- The part of `handle_typec_uevent` that follows the power operation mode. -/
def handlePowerMode : Hal Unit := do
  match ← ReadFileToString POWER_OPERATION_MODE with
  | none => return ()
  | some text =>
      let power_operation_mode := trim text
      let usb ← fields
      if usb.mPowerOpMode = power_operation_mode then
        assign (.mPowerOpMode power_operation_mode)
      else if power_operation_mode = "usb_power_delivery" then
        overridePower
        assign (.mPowerOpMode power_operation_mode)
      else
        restorePower usb
        assign (.mPowerOpMode power_operation_mode)

/-- The status report under `mLock`; without a callback there is nothing to report on. -/
def reportPortStatus : Hal (List PortStatus) := do
  let usb ← fields
  if usb.mCallback then
    let (status, statuses) ← getPortStatusHelper usb.mContaminantStatusPath
    notify (.portStatusChange statuses status)
    return statuses
  else return []

/-- One port of the loop at the end of `handle_typec_uevent`. -/
def switchDisconnected (port : PortStatus) : Hal Unit := do
  match ← listDirectory ("/sys/class/typec/" ++ port.portName ++ "-partner") with
  | none => switchToDrp port.portName
  | some _ => return ()

/-- `handle_typec_uevent(usb, msg)` -/
def handle_typec_uevent (msg : Text) : Hal Unit := do
  notePartner msg
  handlePowerMode
  let currentPortStatus ← reportPortStatus
  let locked ← (Program.call Op.tryRoleSwitchLock : Hal Bool)
  if locked then Program.each switchDisconnected currentPortStatus else return ()

/-! ## Power supply events -/

/-- The terminator of a C string. -/
def NUL : Char := Char.ofNat 0

/-- The strings after the first one, up to an empty one. -/
def keyStrings (rest : Text) : List Text := (rest.splitOn NUL).takeWhile (· ≠ [])

/-- The value of the first `POWER_SUPPLY_NAME`, if the scan finds one. -/
def supplyName? (rest : Text) : Option Text :=
  ((keyStrings rest).find? (List.isPrefixOf "POWER_SUPPLY_NAME=".toList)).map (·.drop 18)

/-- `handle_psy_uevent(usb, msg)`, where `rest` is what follows the first string. -/
def handle_psy_uevent (rest : Text) : Hal Unit := do
  if (supplyName? rest).any (· ≠ "usb".toList) then return ()
  let usb ← fields
  let contaminantPresence ← readContaminantPresence usb.mContaminantStatusPath
  let moisture_detected := contaminantPresence.any fun text => text.head? = some '1'
  let powerBrickStatus ← isConnectedToUsbPowerBrick
  let usb ← fields
  if usb.mContaminantPresence ≠ moisture_detected ∨ usb.powerBrickConnected ≠ powerBrickStatus then
    assign (.mContaminantPresence moisture_detected)
    assign (.powerBrickConnected powerBrickStatus)
    let _ ← reportPortStatus
    return ()
  else return ()

/-! ## Gadget controller events -/

def VENDOR_USB_ADB_DISABLED_PROP : Text := "vendor.sys.usb.adb.disabled"
def USB_CONTROLLER_PROP : Text := "vendor.usb.controller"

/-- The loop that binds the controller, with the number of tries left. -/
def bindUdc (gadgetName : Text) : Nat → Hal Unit
  | 0 => return ()
  | tries + 1 => do
      let _ ← WriteStringToFile gadgetName "/config/usb_gadget/g1/UDC"
      let udcName ← ReadFileToString "/config/usb_gadget/g1/UDC"
      if trim (udcName.getD []) = gadgetName then return () else bindUdc gadgetName tries

def handleUdcAdded (gadgetName : Text) : Hal Unit := do
  SetProperty VENDOR_USB_ADB_DISABLED_PROP "0"
  let adbd ← GetProperty "init.svc.adbd"
  -- `retry` runs from 5 down to 0
  if adbd = "running" then return () else bindUdc gadgetName 6

def handleUdcRemoved : Hal Unit := do
  let entries ← listDirectory "/sys/class/udc"
  let udc_found := (entries.getD []).any fun entity => entity.d_type = .DT_LNK
  if udc_found then return () else SetProperty VENDOR_USB_ADB_DISABLED_PROP "1"

/-! ## The handler -/

/-- A restart of host mode.  The two arguments of each write stand in the order of the source. -/
def restartHostMode (xhci : Text) : Hal Unit := do
  let _ ← WriteStringToFile "/sys/bus/platform/drivers/xhci-hcd/unbind" xhci
  let _ ← WriteStringToFile "/sys/bus/platform/drivers/xhci-hcd/bind" xhci
  return ()

def handleBusReset (devpath : Text) : Hal Unit := do
  assign (.usbResetRecov 1)
  let _ ← WriteStringToFile "0" ("/sys" ++ devpath ++ "/../authorized")
  return ()

def handleRemove (devpath parentpath : Text) : Hal Unit := do
  let usb ← fields
  if usb.usbResetRecov ≠ 0 then
    assign (.usbResetRecov 0)
    let _ ← WriteStringToFile "1" ("/sys" ++ parentpath ++ "/authorized")
    removeUsbHIDDevice ("/sys" ++ devpath)
  else removeUsbHIDDevice ("/sys" ++ devpath)

/-- The string at the beginning of a datagram. -/
def header (buf : Text) : Text := buf.takeWhile (· ≠ NUL)

/-- What each branch does. -/
def handle (gadgetName buf : Text) : Branch → Hal Unit
  | .typec => handle_typec_uevent (header buf)
  | .powerSupply => handle_psy_uevent (buf.drop ((header buf).length + 1))
  | .add devpath => checkUsbDeviceAutoSuspend ("/sys" ++ devpath)
  | .bind devpath intfpath => do
      let _ ← checkUsbInterfaceAutoSuspend ("/sys" ++ devpath) intfpath
      checkUsbHIDDevice ("/sys" ++ devpath)
  | .udc =>
      if List.isPrefixOf "add".toList (header buf) then handleUdcAdded gadgetName
      else if List.isPrefixOf "remove".toList (header buf) then handleUdcRemoved
      else return ()
  | .offline soc xhci => if contains "f8800" soc then restartHostMode xhci else return ()
  | .busReset devpath _ => handleBusReset devpath
  | .remove devpath parentpath => handleRemove devpath parentpath
  | .backlight => handleDisplayEvent
  | .ignored => return ()

def UEVENT_MSG_LEN : Nat := 2048

/-- The branch for the received bytes; a datagram that fills the buffer is discarded. -/
def classify (usb : Usb) (gadgetName buf : Text) : Branch :=
  if buf.length = 0 ∨ UEVENT_MSG_LEN ≤ buf.length then .ignored
  else dispatch usb.mIgnoreWakeup gadgetName (header buf)

/-- `uevent_event`, for the bytes that `uevent_kernel_multicast_recv` stores in `msg`. -/
def uevent_event (buf : Text) : Hal Unit := do
  let gadgetName ← GetProperty USB_CONTROLLER_PROP
  let usb ← fields
  handle gadgetName buf (classify usb gadgetName buf)

end UsbHal
end M2391Device
