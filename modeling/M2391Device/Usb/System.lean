import M2391Device.Lib.Program

/-!
# System — what the USB HAL asks of the system, and the state of its object

The functions of `usb/Usb.cpp` are programs over the operations below.  The system that answers them
is arbitrary: every read, write, listing and property may come out in any way, and may come out
differently each time.  Strings are lists of `char`.
-/

namespace M2391Device
namespace UsbHal

universe u

/-- A `std::string`, or a C string without its terminator. -/
abbrev Text := List Char

instance : Coe String Text := ⟨String.toList⟩

/-! ## Strings -/

/-- `strstr(text, part)` as a condition. -/
def contains (part text : Text) : Bool := text.tails.any part.isPrefixOf

/-- `text.find(part)` -/
def find? (part text : Text) : Option Nat := text.tails.findIdx? part.isPrefixOf

/-- `text.c_str()`, which ends at the first NUL. -/
def c_str (text : Text) : Text := text.takeWhile (· ≠ Char.ofNat 0)

/-- `isspace` -/
def isSpace (c : Char) : Bool := c = ' ' || (9 ≤ c.toNat && c.toNat ≤ 13)

/-- `android::base::Trim` -/
def trim (text : Text) : Text :=
  (text.reverse.dropWhile isSpace).reverse.dropWhile isSpace

/-- The value of a digit in the given base. -/
def digit? (base : Nat) (c : Char) : Option Nat :=
  let value :=
    if '0' ≤ c ∧ c ≤ '9' then c.toNat - 48
    else if 'a' ≤ c ∧ c ≤ 'z' then c.toNat - 87
    else if 'A' ≤ c ∧ c ≤ 'Z' then c.toNat - 55
    else base
  if value < base then some value else none

/-- The digits at the beginning of a text. -/
def leadingDigits (base : Nat) : Text → List Nat
  | [] => []
  | c :: rest =>
      match digit? base c with
      | none => []
      | some d => d :: leadingDigits base rest

/-- What ends the process: an exception of `std::stoi` or `std::thread`, which nothing catches, or the
assertion on the tag of a union. -/
inductive Terminated
  | invalidArgument
  | outOfRange
  | badAccess
  | systemError
  deriving DecidableEq

/-- What `std::stoi` parses after the sign; `0x` is read over if a digit of base 16 follows. -/
def magnitude? (base : Nat) (text : Text) : Option Nat :=
  let digits :=
    match text with
    | '0' :: x :: rest =>
        if base = 16 ∧ (x = 'x' ∨ x = 'X') ∧ leadingDigits 16 rest ≠ [] then leadingDigits 16 rest
        else leadingDigits base text
    | _ => leadingDigits base text
  if digits = [] then none else some (digits.foldl (fun n d => base * n + d) 0)

/-- `std::stoi(text, 0, base)` -/
def stoi (base : Nat) (text : Text) : Except Terminated Int :=
  let text := text.dropWhile isSpace
  let (negative, unsigned) :=
    match text with
    | '-' :: rest => (true, rest)
    | '+' :: rest => (false, rest)
    | _ => (false, text)
  match magnitude? base unsigned with
  | none => .error .invalidArgument
  | some n =>
      let value : Int := if negative then -(n : Int) else n
      if value < -2147483648 ∨ 2147483647 < value then .error .outOfRange else .ok value

/-- A path with another end does not have this one, whatever is before the end. -/
theorem not_suffix_append {file front name : Text} (hname : ¬ file <:+ name ∧ ¬ name <:+ file) :
    ¬ file <:+ front ++ name := fun h =>
  (List.suffix_or_suffix_of_suffix h (List.suffix_append front name)).elim hname.1 hname.2

theorem none_suffix_append {files : List Text} {front name : Text}
    (hname : ∀ file ∈ files, ¬ file <:+ name ∧ ¬ name <:+ file) :
    ¬ ∃ file ∈ files, file <:+ front ++ name := fun ⟨file, hfile, h⟩ =>
  not_suffix_append (hname file hfile) h

/-! ## Port status -/

inductive Status
  | SUCCESS
  | ERROR
  | NOT_SUPPORTED
  | UNRECOGNIZED_ROLE
  deriving DecidableEq

inductive PortPowerRole
  | NONE
  | SOURCE
  | SINK
  deriving DecidableEq

inductive PortDataRole
  | NONE
  | HOST
  | DEVICE
  deriving DecidableEq

inductive PortMode
  | NONE
  | UFP
  | DFP
  | DRP
  | AUDIO_ACCESSORY
  | DEBUG_ACCESSORY
  deriving DecidableEq

inductive PortRole
  | powerRole (role : PortPowerRole)
  | dataRole (role : PortDataRole)
  | mode (mode : PortMode)
  deriving DecidableEq

inductive UsbDataStatus
  | ENABLED
  | DISABLED_FORCE
  deriving DecidableEq

inductive ContaminantProtectionMode
  | NONE
  | FORCE_SINK
  | FORCE_DISABLE
  deriving DecidableEq

inductive ContaminantProtectionStatus
  | NONE
  | FORCE_SINK
  deriving DecidableEq

inductive ContaminantDetectionStatus
  | NOT_SUPPORTED
  | NOT_DETECTED
  | DETECTED
  deriving DecidableEq

inductive PowerBrickStatus
  | UNKNOWN
  | CONNECTED
  | NOT_CONNECTED
  deriving DecidableEq

/-- `PortStatus`, with the defaults of its parcelable. -/
structure PortStatus where
  portName : Text := []
  currentPowerRole : PortPowerRole := .NONE
  currentDataRole : PortDataRole := .NONE
  currentMode : PortMode := .NONE
  canChangeMode : Bool := false
  canChangePowerRole : Bool := false
  canChangeDataRole : Bool := false
  supportedModes : List PortMode := []
  supportedContaminantProtectionModes : List ContaminantProtectionMode := []
  supportsEnableContaminantPresenceProtection : Bool := false
  contaminantProtectionStatus : ContaminantProtectionStatus := .NONE
  supportsEnableContaminantPresenceDetection : Bool := false
  contaminantDetectionStatus : ContaminantDetectionStatus := .NOT_SUPPORTED
  usbDataStatus : List UsbDataStatus := []
  powerTransferLimited : Bool := false
  powerBrickStatus : PowerBrickStatus := .UNKNOWN
  deriving DecidableEq

/-- A call of the registered callback. -/
inductive Notification
  | portStatusChange (statuses : List PortStatus) (status : Status)
  | enableUsbDataStatus (portName : Text) (enable : Bool) (status : Status) (transactionId : Int)
  | limitPowerTransferStatus (portName : Text) (limit : Bool) (status : Status)
      (transactionId : Int)
  | resetUsbPortStatus (portName : Text) (status : Status) (transactionId : Int)
  | roleSwitchStatus (portName : Text) (newRole : PortRole) (status : Status)
      (transactionId : Int)
  deriving DecidableEq

/-! ## The object -/

/-- The fields that the binder threads write as well. -/
structure Shared where
  /-- Whether `mCallback` is set. -/
  mCallback : Bool
  mIgnoreWakeup : Bool
  mContaminantStatusPath : Text
  mPartnerUp : Bool
  usbDataDisabled : Bool
  limitedPower : Bool
  deriving DecidableEq

structure Usb extends Shared where
  mDevicePath : Text
  mGadgetName : Text
  mContaminantPresence : Bool
  powerBrickConnected : Bool
  mPowerOpMode : Text
  mMaxPower : Text
  mAttributes : Text
  hidDevs : List Text
  usbResetRecov : Nat
  deriving DecidableEq

/-- An assignment to a field. -/
inductive Assignment
  | mPartnerUp (value : Bool)
  | mContaminantPresence (value : Bool)
  | powerBrickConnected (value : Bool)
  | mPowerOpMode (value : Text)
  | mMaxPower (value : Text)
  | mAttributes (value : Text)
  /-- `hidDevs.push_back(devicePath)` -/
  | pushHidDev (devicePath : Text)
  /-- `hidDevs.remove(devicePath)`, which removes every equal entry. -/
  | removeHidDev (devicePath : Text)
  | usbResetRecov (value : Nat)
  | usbDataDisabled (value : Bool)
  | limitedPower (value : Bool)
  deriving DecidableEq

def Assignment.apply (usb : Usb) : Assignment → Usb
  | .mPartnerUp value => { usb with mPartnerUp := value }
  | .mContaminantPresence value => { usb with mContaminantPresence := value }
  | .powerBrickConnected value => { usb with powerBrickConnected := value }
  | .mPowerOpMode value => { usb with mPowerOpMode := value }
  | .mMaxPower value => { usb with mMaxPower := value }
  | .mAttributes value => { usb with mAttributes := value }
  | .pushHidDev devicePath => { usb with hidDevs := usb.hidDevs ++ [devicePath] }
  | .removeHidDev devicePath => { usb with hidDevs := usb.hidDevs.filter (· ≠ devicePath) }
  | .usbResetRecov value => { usb with usbResetRecov := value }
  | .usbDataDisabled value => { usb with usbDataDisabled := value }
  | .limitedPower value => { usb with limitedPower := value }

/-! ## Operations -/

inductive FileType
  | DT_LNK
  | DT_DIR
  | other
  deriving DecidableEq

structure Dirent where
  d_type : FileType
  d_name : Text
  deriving DecidableEq

/-- How `access` ended. -/
inductive Access
  | ok
  | ENOENT
  | error
  deriving DecidableEq

inductive Op
  /-- `ReadFileToString(path, ..)` -/
  | readFile (path : Text)
  /-- `WriteStringToFile(content, path)` -/
  | writeFile (content path : Text)
  /-- All entries of a directory, from `opendir` to `closedir`. -/
  | listDirectory (path : Text)
  /-- `access(path, writable ? W_OK : F_OK)` -/
  | access (path : Text) (writable : Bool)
  /-- `GetProperty(key, "")` -/
  | getProperty (key : Text)
  | setProperty (key value : Text)
  /-- The order in which a loop over a `std::unordered_map` takes its entries. -/
  | iterate (names : List (Text × Bool))
  /-- `mRoleSwitchLock.try_lock()` -/
  | tryRoleSwitchLock
  /-- Reading the fields of the object. -/
  | fields
  | assign (a : Assignment)
  | notify (n : Notification)
  deriving DecidableEq

/-- The answer of an operation; `none` stands for an error. -/
abbrev Res : Op → Type
  | .readFile _ => Option Text
  | .writeFile _ _ => Bool
  | .listDirectory _ => Option (List Dirent)
  | .access _ _ => Access
  | .getProperty _ => Text
  | .setProperty _ _ => Unit
  | .iterate names => { order : List (Text × Bool) // order.Perm names }
  | .tryRoleSwitchLock => Bool
  | .fields => Usb
  | .assign _ => Unit
  | .notify _ => Unit

abbrev Hal (α : Type) := Program Op Res Terminated α

/-- The system under the HAL. -/
structure World (σ : Type u) where
  readFile : Text → σ → Option Text × σ
  writeFile : Text → Text → σ → Bool × σ
  listDirectory : Text → σ → Option (List Dirent) × σ
  access : Text → Bool → σ → Access × σ
  getProperty : Text → σ → Text × σ
  setProperty : Text → Text → σ → σ
  iterate : (names : List (Text × Bool)) → σ → { order : List (Text × Bool) // order.Perm names } × σ
  tryRoleSwitchLock : σ → Bool × σ

/-- The object and the system. -/
structure State (σ : Type u) where
  usb : Usb
  world : σ

variable {σ : Type u}

/-- A system call, which leaves the object alone. -/
def State.system {α : Type} (s : State σ) (f : σ → α × σ) : α × State σ :=
  ((f s.world).1, { s with world := (f s.world).2 })

def World.step (w : World σ) : (o : Op) → State σ → Res o × State σ
  | .readFile path, s => s.system (w.readFile path)
  | .writeFile content path, s => s.system (w.writeFile content path)
  | .listDirectory path, s => s.system (w.listDirectory path)
  | .access path writable, s => s.system (w.access path writable)
  | .getProperty key, s => s.system (w.getProperty key)
  | .setProperty key value, s => s.system fun x => ((), w.setProperty key value x)
  | .iterate names, s => s.system (w.iterate names)
  | .tryRoleSwitchLock, s => s.system w.tryRoleSwitchLock
  | .fields, s => (s.usb, s)
  | .assign a, s => ((), { s with usb := a.apply s.usb })
  | .notify _, s => ((), s)

/-! ## The operations as programs -/

def ReadFileToString (path : Text) : Hal (Option Text) := .call (Op.readFile path)

def WriteStringToFile (content path : Text) : Hal Bool := .call (Op.writeFile content path)

def listDirectory (path : Text) : Hal (Option (List Dirent)) := .call (Op.listDirectory path)

/-- `access(path, ..)`; an empty path names no file, whatever the system holds. -/
def access (path : Text) (writable : Bool) : Hal Access :=
  if path = [] then pure .ENOENT else .call (Op.access path writable)

def GetProperty (key : Text) : Hal Text := .call (Op.getProperty key)

def SetProperty (key value : Text) : Hal Unit := .call (Op.setProperty key value)

def fields : Hal Usb := .call Op.fields

def assign (a : Assignment) : Hal Unit := .call (Op.assign a)

def notify (n : Notification) : Hal Unit := .call (Op.notify n)

/-- A result whose exception nobody catches. -/
def orTerminate {α : Type} : Except Terminated α → Hal α
  | .ok a => pure a
  | .error e => .throw e

/-! ## What they perform -/

section Performs

variable {P : Op → Prop}

@[simp] theorem performs_readFile {path : Text} :
    (ReadFileToString path).Performs P ↔ P (.readFile path) := Program.Performs.call_iff

@[simp] theorem performs_writeFile {content path : Text} :
    (WriteStringToFile content path).Performs P ↔ P (.writeFile content path) :=
  Program.Performs.call_iff

@[simp] theorem performs_listDirectory {path : Text} :
    (listDirectory path).Performs P ↔ P (.listDirectory path) := Program.Performs.call_iff

theorem performs_access {path : Text} {writable : Bool} (h : P (.access path writable)) :
    (access path writable).Performs P :=
  Program.Performs.ite (fun _ => trivial) fun _ => Program.Performs.call_iff.2 h

@[simp] theorem performs_getProperty {key : Text} :
    (GetProperty key).Performs P ↔ P (.getProperty key) := Program.Performs.call_iff

@[simp] theorem performs_setProperty {key value : Text} :
    (SetProperty key value).Performs P ↔ P (.setProperty key value) := Program.Performs.call_iff

@[simp] theorem performs_fields : fields.Performs P ↔ P .fields := Program.Performs.call_iff

@[simp] theorem performs_assign {a : Assignment} : (assign a).Performs P ↔ P (.assign a) :=
  Program.Performs.call_iff

@[simp] theorem performs_notify {n : Notification} : (notify n).Performs P ↔ P (.notify n) :=
  Program.Performs.call_iff

@[simp] theorem performs_orTerminate {α : Type} (x : Except Terminated α) :
    (orTerminate x).Performs P := by
  cases x <;> exact trivial

end Performs

/-! ## One operation and the rest -/

section First

variable {α : Type} {w : World σ} {s : State σ}

theorem run_readFile {path : Text} {f : Option Text → Hal α} :
    (ReadFileToString path >>= f).run w.step s =
      (f (w.readFile path s.world).1).run w.step (s.system (w.readFile path)).2 := rfl

theorem trace_readFile {path : Text} {f : Option Text → Hal α} :
    (ReadFileToString path >>= f).trace w.step s =
      ⟨.readFile path, (w.readFile path s.world).1⟩ ::
        (f (w.readFile path s.world).1).trace w.step (s.system (w.readFile path)).2 := rfl

theorem run_listDirectory {path : Text} {f : Option (List Dirent) → Hal α} :
    (listDirectory path >>= f).run w.step s =
      (f (w.listDirectory path s.world).1).run w.step (s.system (w.listDirectory path)).2 := rfl

theorem trace_listDirectory {path : Text} {f : Option (List Dirent) → Hal α} :
    (listDirectory path >>= f).trace w.step s =
      ⟨.listDirectory path, (w.listDirectory path s.world).1⟩ ::
        (f (w.listDirectory path s.world).1).trace w.step (s.system (w.listDirectory path)).2 := rfl

theorem run_writeFile {content path : Text} {f : Bool → Hal α} :
    (WriteStringToFile content path >>= f).run w.step s =
      (f (w.writeFile content path s.world).1).run w.step (s.system (w.writeFile content path)).2 :=
  rfl

theorem trace_writeFile {content path : Text} {f : Bool → Hal α} :
    (WriteStringToFile content path >>= f).trace w.step s =
      ⟨.writeFile content path, (w.writeFile content path s.world).1⟩ ::
        (f (w.writeFile content path s.world).1).trace w.step
          (s.system (w.writeFile content path)).2 := rfl

end First

/-! ## Footprints -/

/-- What a program may touch: the files that it reads and writes, the directories that it lists, the
fields that it assigns and the properties that it sets. -/
structure Footprint where
  reads : Text → Prop := fun _ => False
  lists : Text → Prop := fun _ => False
  writes : Text → Prop := fun _ => False
  assigns : Assignment → Prop := fun _ => False
  properties : Text → Prop := fun _ => False

/-- Operations within a footprint; a notification is in none. -/
def Op.In (f : Footprint) : Op → Prop
  | .readFile path => f.reads path
  | .listDirectory path => f.lists path
  | .writeFile _ path => f.writes path
  | .assign a => f.assigns a
  | .setProperty key _ => f.properties key
  | .notify _ => False
  | _ => True

/-- Operations that change neither a file nor a field nor a property. -/
def Op.Quiet : Op → Prop
  | .writeFile _ _ => False
  | .setProperty _ _ => False
  | .assign _ => False
  | _ => True

/-- Operations that only ask, and list no directory. -/
abbrev Op.Reads : Op → Prop := Op.In { reads := fun _ => True }

/-- Operations that write no files but those of `paths`, and assign no fields but as in `fields`. -/
def Op.Within (paths : Text → Prop) (fields : Assignment → Prop) : Op → Prop
  | .writeFile _ path => paths path
  | .assign a => fields a
  | _ => True

/-- Operations that are no notifications. -/
def Op.Mute : Op → Prop
  | .notify _ => False
  | _ => True

instance : LE Footprint where
  le f g := (∀ path, f.reads path → g.reads path) ∧ (∀ path, f.lists path → g.lists path) ∧
    (∀ path, f.writes path → g.writes path) ∧ (∀ a, f.assigns a → g.assigns a) ∧
      ∀ key, f.properties key → g.properties key

section Footprints

variable {f g : Footprint} {o : Op} {paths paths' : Text → Prop} {fields fields' : Assignment → Prop}

theorem Op.In.mono (ho : o.In f) (h : f ≤ g) : o.In g := by
  rcases h with ⟨hreads, hlists, hwrites, hassigns, hproperties⟩
  cases o with
  | readFile path => exact hreads path ho
  | listDirectory path => exact hlists path ho
  | writeFile content path => exact hwrites path ho
  | assign a => exact hassigns a ho
  | setProperty key value => exact hproperties key ho
  | _ => exact ho

/-- A program within a footprint is within any larger one. -/
theorem performs_mono {α : Type} {x : Hal α} (hx : x.Performs (Op.In f)) (h : f ≤ g) :
    x.Performs (Op.In g) := hx.mono fun _ ho => ho.mono h

theorem Op.Within.mono (h : o.Within paths fields) (hpaths : ∀ p, paths p → paths' p)
    (hfields : ∀ a, fields a → fields' a) : o.Within paths' fields' := by
  cases o with
  | writeFile content path => exact hpaths path h
  | assign a => exact hfields a h
  | _ => exact trivial

theorem Op.In.within (ho : o.In f) : o.Within f.writes f.assigns := by
  cases o <;> first | exact trivial | exact ho

theorem performs_within {α : Type} {x : Hal α} (hx : x.Performs (Op.In f))
    (hpaths : ∀ p, f.writes p → paths p) (hfields : ∀ a, f.assigns a → fields a) :
    x.Performs (Op.Within paths fields) := hx.mono fun _ ho => ho.within.mono hpaths hfields

theorem Op.In.mute (ho : o.In f) : o.Mute := by
  cases o <;> first | exact trivial | exact ho

/-- What has a footprint of files that are read and directories that are listed is quiet. -/
theorem Op.In.quiet {files dirs : Text → Prop} (ho : o.In { reads := files, lists := dirs }) :
    o.Quiet := by
  cases o <;> first | exact trivial | exact ho

theorem Op.Quiet.within (h : o.Quiet) : o.Within paths fields := by
  cases o <;> first | exact trivial | exact h.elim

end Footprints

end UsbHal
end M2391Device
