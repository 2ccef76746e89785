import M2391Device.Lib.Locks
import M2391Device.Usb.Newlines
import M2391Device.Usb.PortRequests

/-!
# Service — the threads of the USB HAL and their locks

Binder calls and the handler of uevents run side by side on one object.  Each of them is a program
over the operations of the HAL and three mutexes; where a function holds a mutex for a block, the
block stands under `withLock`.  Without the locks, the programs are those of the sequential model
(`alone_uevent_event`).
-/

namespace M2391Device
namespace UsbHal

open Program Locks

universe u

/-! ## Operations of the service -/

/-- Notifications that answer a request and say nothing of the ports. -/
inductive Reply
  | queryPortStatus (portName : Text) (status : Status) (transactionId : Int)
  | contaminantEnabledStatus (portName : Text) (enable : Bool) (status : Status)
      (transactionId : Int)
  | enableUsbDataWhileDockedStatus (portName : Text) (status : Status) (transactionId : Int)
  deriving DecidableEq

/-- What is done with the worker's thread. -/
inductive PollCall
  /-- `mPoll.join()`, which waits for the worker to end; it may never do so. -/
  | join
  | detach
  /-- `mPoll = std::thread(&Usb::uevent_work, this)` -/
  | start
  deriving DecidableEq

inductive ServiceOp
  | hal (o : Op)
  /-- `realpath(path, ..)` -/
  | realpath (path : Text)
  /-- `access(path, R_OK) == 0` -/
  | readable (path : Text)
  /-- `mCallback` is assigned, to a null pointer or not. -/
  | mCallback (value : Bool)
  | mIgnoreWakeup (value : Bool)
  | mContaminantStatusPath (value : Text)
  /-- `eventfd_write(mEventFd, 1) == 0` -/
  | eventfd_write
  /-- `mPoll.joinable()` -/
  | joinable
  /-- A call on `mPoll`; it fails with a `std::system_error`. -/
  | mPoll (c : PollCall)
  | reply (r : Reply)
  deriving DecidableEq

abbrev ServiceRes : ServiceOp → Type
  | .hal o => Res o
  | .realpath _ => Option Text
  | .readable _ => Bool
  | .mCallback _ => Unit
  | .mIgnoreWakeup _ => Unit
  | .mContaminantStatusPath _ => Unit
  | .eventfd_write => Bool
  | .joinable => Bool
  | .mPoll _ => Bool
  | .reply _ => Unit

abbrev Service (α : Type) := Program ServiceOp ServiceRes Terminated α

def ofHal {α : Type} : Hal α → Service α
  | .pure a => .pure a
  | .throw e => .throw e
  | .perform o next => .perform (.hal o) fun r => ofHal (next r)

/-- The system under the service. -/
structure ServiceWorld (σ : Type u) extends World σ where
  realpath : Text → σ → Option Text × σ
  readable : Text → σ → Bool × σ
  eventfd_write : σ → Bool × σ
  joinable : σ → Bool × σ
  mPoll : PollCall → σ → Bool × σ

def ServiceWorld.step {σ : Type u} (w : ServiceWorld σ) :
    (o : ServiceOp) → State σ → ServiceRes o × State σ
  | .hal o, s => w.toWorld.step o s
  | .realpath path, s => s.system (w.realpath path)
  | .readable path, s => s.system (w.readable path)
  | .mCallback value, s => ((), { s with usb.mCallback := value })
  | .mIgnoreWakeup value, s => ((), { s with usb.mIgnoreWakeup := value })
  | .mContaminantStatusPath value, s => ((), { s with usb.mContaminantStatusPath := value })
  | .eventfd_write, s => s.system w.eventfd_write
  | .joinable, s => s.system w.joinable
  | .mPoll c, s => s.system (w.mPoll c)
  | .reply _, s => ((), s)

def reply (r : Reply) : Service Unit := .call (ServiceOp.reply r)

/-! ## What a new callback sets off -/

def PLATFORM_DEVICES : Text := "/sys/bus/platform/devices/"
def USB_DEVICES : Text := "/sys/bus/usb/devices/"

/-- `checkUsbInHostMode()` -/
def checkUsbInHostMode : Hal Unit := do
  let controller ← GetProperty USB_CONTROLLER_PROP
  let entries ← listDirectory (PLATFORM_DEVICES ++ controller)
  if (entries.getD []).any fun gadgetDir => contains "xhci-hcd" gadgetDir.d_name then
    SetProperty VENDOR_USB_ADB_DISABLED_PROP "1"
  else SetProperty VENDOR_USB_ADB_DISABLED_PROP "0"

/-- The first half of `checkUsbWakeupSupport`: whether the first controller can wake the system. -/
def controllerWakes : Hal Bool := do
  let entries ← listDirectory PLATFORM_DEVICES
  match (entries.getD []).find? fun platDir => contains "susb" platDir.d_name with
  | none => return false
  | some platDir =>
      let found ← access (PLATFORM_DEVICES ++ platDir.d_name ++ "/power/wakeup") false
      return decide (found = .ok)

/-- The interfaces of a device, up to the first for which autosuspend is enabled. -/
def suspendInterfaces (device : Text) : List Dirent → Hal Unit
  | [] => return ()
  | intfDir :: rest =>
      if intfDir.isInterface then do
        let enabled ← checkUsbInterfaceAutoSuspend device intfDir.d_name
        if enabled then return () else suspendInterfaces device rest
      else suspendInterfaces device rest

/-- A link in the directory of USB devices; the interfaces have a colon in their names. -/
def suspendDevice (deviceDir : Dirent) : Service Unit :=
  if deviceDir.d_type = .DT_LNK ∧ ':' ∉ deviceDir.d_name then do
    match ← (Program.call (ServiceOp.realpath (USB_DEVICES ++ deviceDir.d_name)) : Service _) with
    | none => return ()
    | some device =>
        match ← ofHal (listDirectory device) with
        | none => return ()
        | some entries => ofHal (suspendInterfaces device entries)
  else return ()

/-- `checkUsbWakeupSupport()` -/
def checkUsbWakeupSupport : Service Bool := do
  let wakes ← ofHal controllerWakes
  if !wakes then return true
  else
    let entries ← ofHal (listDirectory USB_DEVICES)
    Program.each suspendDevice (entries.getD [])
    return false

/-- Where the presence of contaminants may be read, in the order in which the paths are tried. -/
def contaminantStatusPaths : List Text :=
  ["/sys/class/power_supply/usb/moisture_detected",
    "/sys/class/qcom-battery/moisture_detection_status",
    "/sys/bus/iio/devices/iio:device4/in_index_usb_moisture_detected_input"]

/-- The first path that can be read, or none. -/
def findContaminantStatusPath : List Text → Service Text
  | [] => return []
  | path :: rest => do
      let readable ← (Program.call (ServiceOp.readable path) : Service Bool)
      if readable then return path else findContaminantStatusPath rest

/-- A call on `mPoll`, whose exception nobody catches. -/
def callPoll (c : PollCall) : Service Unit := do
  let ok ← (Program.call (ServiceOp.mPoll c) : Service Bool)
  if ok then return () else .throw .systemError

/-- A worker that was left behind goes on without `mPoll`. -/
def detachWorker : Service Unit := do
  let joinable ← (Program.call ServiceOp.joinable : Service Bool)
  if joinable then callPoll .detach else return ()

/-- The end of `setCallback` for a callback that is removed, after the unlock. -/
def stopWorker : Service Unit := do
  let written ← (Program.call ServiceOp.eventfd_write : Service Bool)
  if written then callPoll .join else return ()

/-- `setCallback(callback)` as far as it holds `mLock`, with whether the callback is removed. -/
def registerCallback (callback : Bool) : Service Bool := do
  let usb ← ofHal fields
  (Program.call (ServiceOp.mCallback callback) : Service Unit)
  if usb.mCallback = callback then return false
  else if callback then
    detachWorker
    callPoll .start
    let ignoreWakeup ← checkUsbWakeupSupport
    (Program.call (ServiceOp.mIgnoreWakeup ignoreWakeup) : Service Unit)
    ofHal checkUsbInHostMode
    let path ← findContaminantStatusPath contaminantStatusPaths
    (Program.call (ServiceOp.mContaminantStatusPath path) : Service Unit)
    return false
  else return true

/-! ## The other calls -/

/-- `enableUsbDataWhileDocked` under its lock. -/
def reportDocked (in_portName : Text) (in_transactionId : Int) : Service Unit := do
  let usb ← ofHal fields
  if usb.mCallback then
    reply (.enableUsbDataWhileDockedStatus in_portName .NOT_SUPPORTED in_transactionId)
  else return ()

/-- `queryPortStatus` under its lock. -/
def reportQuery (in_transactionId : Int) : Service Unit := do
  let usb ← ofHal fields
  if usb.mCallback then
    let (status, currentPortStatus) ← ofHal (getPortStatusHelper usb.mContaminantStatusPath)
    ofHal (notify (.portStatusChange currentPortStatus status))
    reply (.queryPortStatus "all" .SUCCESS in_transactionId)
  else return ()

/-- `enableContaminantPresenceDetection` under its lock; it is enabled whatever is asked for. -/
def reportContaminantDetection (portName : Text) (in_transactionId : Int) : Service Unit := do
  let usb ← ofHal fields
  if usb.mCallback ∧ in_transactionId ≥ 0 then
    reply (.contaminantEnabledStatus portName true .SUCCESS in_transactionId)
  else return ()

/-- The end of `switchRole`, under `mLock`. -/
def reportRoleSwitch (portName : Text) (newRole : PortRole) (roleSwitch : Bool)
    (in_transactionId : Int) : Hal Unit := do
  let usb ← fields
  if usb.mCallback then
    notify (.roleSwitchStatus portName newRole (if roleSwitch then .SUCCESS else .ERROR)
      in_transactionId)
  else return ()

/-! ## Threads -/

inductive Mutex
  | mLock
  | mRoleSwitchLock
  | mPartnerLock
  deriving DecidableEq

/-- What `mPartnerCV` is waited on for. -/
inductive Condition
  | mPartnerUp
  deriving DecidableEq

namespace Threaded

abbrev Thread (α : Type) := Locks.Thread ServiceRes Mutex Condition Terminated α

/-- Operations of the HAL in a thread. -/
def hal {α : Type} (x : Hal α) : Thread α := Locks.lift (ofHal x)

def service {α : Type} (x : Service α) : Thread α := Locks.lift x

def enableUsbData (in_portName : Text) (in_enable : Bool) (in_transactionId : Int) : Thread Unit :=
  withLock .mLock (hal (UsbHal.enableUsbData in_portName in_enable in_transactionId))

def enableUsbDataWhileDocked (in_portName : Text) (in_transactionId : Int) : Thread Unit :=
  withLock .mLock (service (reportDocked in_portName in_transactionId))

def limitPowerTransfer (in_portName : Text) (in_limit : Bool) (in_transactionId : Int) :
    Thread Unit :=
  withLock .mLock (hal (UsbHal.limitPowerTransfer in_portName in_limit in_transactionId))

def resetUsbPort (in_portName : Text) (in_transactionId : Int) : Thread Unit :=
  withLock .mLock (hal (UsbHal.resetUsbPort in_portName in_transactionId))

def queryPortStatus (in_transactionId : Int) : Thread Unit :=
  withLock .mLock (service (reportQuery in_transactionId))

def enableContaminantPresenceDetection (portName : Text) (in_transactionId : Int) : Thread Unit :=
  withLock .mLock (service (reportContaminantDetection portName in_transactionId))

def setCallback (callback : Bool) : Thread Unit := do
  let removed ← withLock .mLock (service (registerCallback callback))
  if removed then service stopWorker else return ()

/-- `switchMode(portName, newRole)`.  The loop around `wait_for` is the wait for `mPartnerUp`: it ends
when the time is over, or when the flag is set. -/
def switchMode (portName : Text) (newRole : PortRole) : Thread Bool :=
  if appendRoleNodeHelper portName newRole.tag = [] then return false
  else do
    let roleSwitch ← withLock .mPartnerLock do
      hal (assign (.mPartnerUp false))
      let ok ← hal (WriteStringToFile (convertRoletoString newRole)
        (appendRoleNodeHelper portName newRole.tag))
      if ok then .perform (.await .mPartnerLock .mPartnerUp) .pure else return false
    if roleSwitch then return true
    else
      hal (switchToDrp portName)
      return false

/-- The role itself, of a node that has a name. -/
def performSwitch (portName : Text) (newRole : PortRole) : Thread Bool :=
  if newRole.tag = .mode then switchMode portName newRole else hal (writeRole portName newRole)

def switchRole (portName : Text) (newRole : PortRole) (in_transactionId : Int) : Thread Unit :=
  if appendRoleNodeHelper portName newRole.tag = [] then return ()
  else withLock .mRoleSwitchLock do
    let roleSwitch ← performSwitch portName newRole
    withLock .mLock (hal (reportRoleSwitch portName newRole roleSwitch in_transactionId))

/-- The flag is set under the lock of its waiter. -/
def notePartner (msg : Text) : Thread Unit :=
  if isPartnerAdded msg then withLock .mPartnerLock (hal (assign (.mPartnerUp true))) else return ()

/-- The end of `handle_typec_uevent`: without the lock, a role switch is in progress. -/
def switchAllDisconnected (currentPortStatus : List PortStatus) : Thread Unit :=
  .perform (.tryLock .mRoleSwitchLock) fun locked =>
    if locked then do
      hal (Program.each switchDisconnected currentPortStatus)
      .perform (.unlock .mRoleSwitchLock) .pure
    else return ()

def handle_typec_uevent (msg : Text) : Thread Unit := do
  notePartner msg
  hal handlePowerMode
  let currentPortStatus ← withLock .mLock (hal reportPortStatus)
  switchAllDisconnected currentPortStatus

def handle_psy_uevent (rest : Text) : Thread Unit :=
  if (supplyName? rest).any (· ≠ "usb".toList) then return ()
  else do
    let usb ← hal fields
    let contaminantPresence ← hal (readContaminantPresence usb.mContaminantStatusPath)
    let moisture_detected := contaminantPresence.any fun text => text.head? = some '1'
    let powerBrickStatus ← hal isConnectedToUsbPowerBrick
    let usb ← hal fields
    if usb.mContaminantPresence ≠ moisture_detected ∨ usb.powerBrickConnected ≠ powerBrickStatus then
      hal (assign (.mContaminantPresence moisture_detected))
      hal (assign (.powerBrickConnected powerBrickStatus))
      let _ ← withLock .mLock (hal reportPortStatus)
      return ()
    else return ()

/-- What each branch does; only the first two take locks. -/
def handle (gadgetName buf : Text) : Branch → Thread Unit
  | .typec => handle_typec_uevent (header buf)
  | .powerSupply => handle_psy_uevent (buf.drop ((header buf).length + 1))
  | branch => hal (UsbHal.handle gadgetName buf branch)

def uevent_event (buf : Text) : Thread Unit := do
  let gadgetName ← hal (GetProperty USB_CONTROLLER_PROP)
  let usb ← hal fields
  handle gadgetName buf (classify usb gadgetName buf)

end Threaded

/-- A binder call, or a datagram for the worker. -/
inductive Entry
  | enableUsbData (in_portName : Text) (in_enable : Bool) (in_transactionId : Int)
  | enableUsbDataWhileDocked (in_portName : Text) (in_transactionId : Int)
  | switchRole (portName : Text) (newRole : PortRole) (in_transactionId : Int)
  | limitPowerTransfer (in_portName : Text) (in_limit : Bool) (in_transactionId : Int)
  | resetUsbPort (in_portName : Text) (in_transactionId : Int)
  | queryPortStatus (in_transactionId : Int)
  | enableContaminantPresenceDetection (portName : Text) (in_transactionId : Int)
  | setCallback (callback : Bool)
  | uevent (buf : Text)

def Entry.program : Entry → Threaded.Thread Unit
  | .enableUsbData in_portName in_enable in_transactionId =>
      Threaded.enableUsbData in_portName in_enable in_transactionId
  | .enableUsbDataWhileDocked in_portName in_transactionId =>
      Threaded.enableUsbDataWhileDocked in_portName in_transactionId
  | .switchRole portName newRole in_transactionId =>
      Threaded.switchRole portName newRole in_transactionId
  | .limitPowerTransfer in_portName in_limit in_transactionId =>
      Threaded.limitPowerTransfer in_portName in_limit in_transactionId
  | .resetUsbPort in_portName in_transactionId => Threaded.resetUsbPort in_portName in_transactionId
  | .queryPortStatus in_transactionId => Threaded.queryPortStatus in_transactionId
  | .enableContaminantPresenceDetection portName in_transactionId =>
      Threaded.enableContaminantPresenceDetection portName in_transactionId
  | .setCallback callback => Threaded.setCallback callback
  | .uevent buf => Threaded.uevent_event buf

/-! ## A thread alone -/

section Alone

variable {α β : Type}

theorem ofHal_bind (x : Hal α) (f : α → Hal β) :
    ofHal (x >>= f) = ofHal x >>= fun a => ofHal (f a) := by
  induction x with
  | pure a => rfl
  | throw e => rfl
  | perform o next ih => exact congrArg (Program.perform (ServiceOp.hal o)) (funext ih)

theorem ofHal_ite {c : Prop} [Decidable c] (x y : Hal α) :
    ofHal (if c then x else y) = if c then ofHal x else ofHal y := apply_ite ofHal c x y

/-- An attempt to take a lock is the operation of the sequential model. -/
def tried (_ : Mutex) : Service Bool := .call (ServiceOp.hal .tryRoleSwitchLock)

/-- The program of a thread, when it is alone. -/
abbrev alone (p : Threaded.Thread α) : Service α := Locks.erase tried p

@[simp] theorem alone_hal (x : Hal α) : alone (Threaded.hal x) = ofHal x := Locks.erase_lift _

theorem alone_bind (p : Threaded.Thread α) (f : α → Threaded.Thread β) :
    alone (p >>= f) = alone p >>= fun a => alone (f a) := Locks.erase_bind p f

theorem alone_withLock (l : Mutex) (p : Threaded.Thread α) : alone (withLock l p) = alone p :=
  Locks.erase_withLock l p

theorem alone_ite {c : Prop} [Decidable c] (p q : Threaded.Thread α) :
    alone (if c then p else q) = if c then alone p else alone q := apply_ite _ c p q

theorem alone_notePartner (msg : Text) :
    alone (Threaded.notePartner msg) = ofHal (notePartner msg) := by
  rw [Threaded.notePartner, notePartner, alone_ite, ofHal_ite, alone_withLock]
  rfl

theorem alone_switchAllDisconnected (currentPortStatus : List PortStatus) :
    alone (Threaded.switchAllDisconnected currentPortStatus) = ofHal (do
      let locked ← (Program.call Op.tryRoleSwitchLock : Hal Bool)
      if locked then Program.each switchDisconnected currentPortStatus else return ()) := by
  refine congrArg (Program.perform (ServiceOp.hal .tryRoleSwitchLock)) (funext fun locked => ?_)
  cases locked with
  | false => rfl
  | true =>
      calc
        alone (Threaded.hal (Program.each switchDisconnected currentPortStatus) >>= fun _ =>
            .perform (.unlock .mRoleSwitchLock) .pure)
            = alone (Threaded.hal (Program.each switchDisconnected currentPortStatus)) >>=
                fun a => .pure a := alone_bind _ _
        _ = alone (Threaded.hal (Program.each switchDisconnected currentPortStatus)) :=
              Program.bind_pure _
        _ = ofHal (Program.each switchDisconnected currentPortStatus) := alone_hal _

theorem alone_handle_typec_uevent (msg : Text) :
    alone (Threaded.handle_typec_uevent msg) = ofHal (handle_typec_uevent msg) := by
  simp only [Threaded.handle_typec_uevent, handle_typec_uevent, alone_bind, ofHal_bind,
    alone_notePartner, alone_hal, alone_withLock, alone_switchAllDisconnected]

theorem alone_handle_psy_uevent (rest : Text) :
    alone (Threaded.handle_psy_uevent rest) = ofHal (handle_psy_uevent rest) := by
  simp only [Threaded.handle_psy_uevent, handle_psy_uevent, alone_ite, ofHal_ite, alone_bind,
    ofHal_bind, alone_hal, alone_withLock]
  rfl

/-- The handler of uevents, when nobody interferes, is the one of the sequential model. -/
theorem alone_uevent_event (buf : Text) :
    alone (Threaded.uevent_event buf) = ofHal (uevent_event buf) := by
  have hhandle : ∀ gadgetName b, alone (Threaded.handle gadgetName buf b) =
      ofHal (handle gadgetName buf b) := by
    intro gadgetName b
    cases b with
    | typec => exact alone_handle_typec_uevent _
    | powerSupply => exact alone_handle_psy_uevent _
    | _ => exact alone_hal _
  simp only [Threaded.uevent_event, uevent_event, alone_bind, ofHal_bind, alone_hal, hhandle]

/-- So are the calls, apart from a switch of the mode. -/
theorem alone_switchRole (portName : Text) {newRole : PortRole} (hmode : newRole.tag ≠ .mode)
    (in_transactionId : Int) : alone (Threaded.switchRole portName newRole in_transactionId) =
      ofHal (switchRole portName newRole in_transactionId) := by
  rw [Threaded.switchRole, switchRole, alone_ite, ofHal_ite, alone_withLock, alone_bind, ofHal_bind,
    Threaded.performSwitch, if_neg hmode, alone_hal]
  congr 2
  funext roleSwitch
  rw [alone_withLock, alone_hal]
  rfl

end Alone

end UsbHal
end M2391Device
