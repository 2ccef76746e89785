import M2391Device.Usb.Service
import Mathlib.Data.Setoid.Basic

/-!
# LockDiscipline — what the USB HAL does under which lock

`mLock` protects the callback and the flags that every port status repeats, `mPartnerLock` the flag
that a mode switch waits for, and `mRoleSwitchLock` the role nodes of the ports.  Every binder call
and the handler of uevents keep to that (`program_obeys`), take their locks in one order, and call the
callback only while it is set, with what is so at that moment.
-/

namespace M2391Device
namespace UsbHal

open Program Locks

universe u

/-! ## The discipline -/

/-- The ends of the names of the nodes that a role is written to. -/
def roleFiles : List Text := ["/data_role", "/power_role", "/port_type"]

def IsRoleNode (path : Text) : Prop := ∃ file ∈ roleFiles, file <:+ path

instance (path : Text) : Decidable (IsRoleNode path) :=
  inferInstanceAs (Decidable (∃ file ∈ roleFiles, file <:+ path))

def Mutex.level : Mutex → Nat
  | .mRoleSwitchLock => 2
  | .mPartnerLock => 1
  | .mLock => 0

/-- The fields under `mLock`. -/
def Usb.underLock (usb : Usb) : Shared := { usb.toShared with mPartnerUp := false }

def Mutex.Same {σ : Type u} : Mutex → Setoid (State σ)
  | .mLock => Setoid.ker fun s => s.usb.underLock
  | .mPartnerLock => Setoid.ker fun s => s.usb.mPartnerUp
  | .mRoleSwitchLock => ⊤

/-- The lock that an assignment needs; the other fields belong to the worker. -/
def Assignment.guard : Assignment → Option Mutex
  | .mPartnerUp _ => some .mPartnerLock
  | .usbDataDisabled _ => some .mLock
  | .limitedPower _ => some .mLock
  | _ => none

/-- What a notification says of the flags is so. -/
def Notification.Agrees (usb : Usb) : Notification → Prop
  | .portStatusChange statuses _ =>
      ∀ p ∈ statuses, p.usbDataStatus ≠ [] → Repeats (fun f => f.read usb) p
  | .enableUsbDataStatus _ enable status _ => status = .SUCCESS → usb.usbDataDisabled = !enable
  -- whatever the status: the limit is set also where a write is refused
  | .limitPowerTransferStatus _ limit _ _ => usb.limitedPower = limit
  | _ => True

def ServiceOp.Allowed {σ : Type u} (H : Set Mutex) (s : State σ) : ServiceOp → Prop
  | .hal (.writeFile _ path) => IsRoleNode path → .mRoleSwitchLock ∈ H
  | .hal (.assign a) => ∀ l, a.guard = some l → l ∈ H
  | .hal (.notify n) => .mLock ∈ H ∧ s.usb.mCallback = true ∧ n.Agrees s.usb
  | .mCallback _ => .mLock ∈ H
  | .mIgnoreWakeup _ => .mLock ∈ H
  | .mContaminantStatusPath _ => .mLock ∈ H
  | .joinable => .mLock ∈ H
  -- the only wait for another thread that is no wait for a lock
  | .mPoll .join => H = ∅
  | .mPoll _ => .mLock ∈ H
  | .reply _ => .mLock ∈ H ∧ s.usb.mCallback = true
  | _ => True

def discipline {σ : Type u} : Discipline ServiceOp Mutex (State σ) Nat where
  level := Mutex.level
  Same := Mutex.Same
  Allowed := ServiceOp.Allowed

def ServiceWorld.machine {σ : Type u} (w : ServiceWorld σ) :
    Machine ServiceOp ServiceRes Condition (State σ) where
  step := w.step
  holds := fun | .mPartnerUp => fun s => s.usb.mPartnerUp

/-- Operations that need no more than these locks, whatever the state. -/
def Op.Under (H : Set Mutex) : Op → Prop
  | .writeFile _ path => IsRoleNode path → .mRoleSwitchLock ∈ H
  | .assign a => ∀ l, a.guard = some l → l ∈ H
  | .notify _ => False
  | _ => True

def ServiceOp.Under (H : Set Mutex) : ServiceOp → Prop
  | .hal o => o.Under H
  | .mCallback _ => .mLock ∈ H
  | .mIgnoreWakeup _ => .mLock ∈ H
  | .mContaminantStatusPath _ => .mLock ∈ H
  | .joinable => .mLock ∈ H
  | .mPoll .join => H = ∅
  | .mPoll _ => .mLock ∈ H
  | .reply _ => False
  | _ => True

section Discipline

variable {σ : Type u} {w : ServiceWorld σ} {H : Set Mutex} {s t : State σ} {o : ServiceOp}

theorem ServiceOp.Under.allowed (h : o.Under H) : o.Allowed H s := by
  cases o with
  | hal o => cases o <;> first | exact h | exact h.elim
  | reply r => exact h.elim
  | mPoll c => cases c <;> exact h
  | _ => exact h

/-- The locks protect fields of the object only. -/
theorem Mutex.same_of_usb (l : Mutex) (h : t.usb = s.usb) : l.Same s t := by
  cases l with
  | mLock => exact congrArg Usb.underLock (Eq.symm h)
  | mPartnerLock => exact congrArg (fun usb : Usb => usb.mPartnerUp) (Eq.symm h)
  | mRoleSwitchLock => trivial

/-- What is allowed leaves alone what the locks of other threads protect. -/
theorem ServiceOp.Allowed.same (h : o.Allowed H s) {l : Mutex} (hl : l ∉ H) :
    l.Same s (w.step o s).2 := by
  have hguarded : .mLock ∈ H → ∀ t : State σ, t.usb.mPartnerUp = s.usb.mPartnerUp → l.Same s t := by
    intro hlock t ht
    cases l with
    | mLock => exact absurd hlock hl
    | mPartnerLock => exact Eq.symm ht
    | mRoleSwitchLock => trivial
  cases o with
  | hal o =>
      cases o with
      | assign a =>
          cases l with
          | mRoleSwitchLock => trivial
          | mLock => cases a <;> first | exact rfl | exact absurd (h _ rfl) hl
          | mPartnerLock => cases a <;> first | exact rfl | exact absurd (h _ rfl) hl
      | _ => exact l.same_of_usb rfl
  | mCallback value => exact hguarded h _ rfl
  | mIgnoreWakeup value => exact hguarded h _ rfl
  | mContaminantStatusPath value => exact hguarded h _ rfl
  | _ => exact l.same_of_usb rfl

end Discipline

/-! ## Role nodes and other files -/

section Paths

theorem not_roleNode {front name : Text}
    (hname : ∀ file ∈ roleFiles, ¬ file <:+ name ∧ ¬ name <:+ file) : ¬ IsRoleNode (front ++ name) :=
  none_suffix_append hname

theorem not_roleNode_power {devicePath path : Text} (hpath : path ∈ powerControls devicePath) :
    ¬ IsRoleNode path := by
  rcases List.mem_cons.1 hpath with rfl | hpath
  · exact not_roleNode (by decide)
  rcases List.mem_cons.1 hpath with rfl | hpath
  · exact not_roleNode (by decide)
  rcases List.mem_cons.1 hpath with rfl | hpath
  · exact not_roleNode (by decide)
  · cases hpath

/-- The branches that take no lock write no role node. -/
theorem not_roleNode_branch {b : Branch} {path : Text} (hcaptured : b.Captured) (hb : b ≠ .typec)
    (h : b.Writes path) : ¬ IsRoleNode path := by
  cases b with
  | typec => exact absurd rfl hb
  | add devpath => exact not_roleNode_power h
  | bind devpath intfpath => exact not_roleNode_power h
  | udc =>
      rw [show path = [] ++ "/config/usb_gadget/g1/UDC".toList from h]
      exact not_roleNode (by decide)
  | offline soc xhci =>
      rcases hcaptured with ⟨d, _, hname⟩
      rw [h.2, hname, show ("xhci-hcd." : Text) ++ d :: ".auto".toList =
        (("xhci-hcd." : Text) ++ [d]) ++ ".auto".toList by simp]
      exact not_roleNode (by decide)
  | busReset devpath intfpath =>
      rw [show path = _ from h]
      exact not_roleNode (by decide)
  | remove devpath parentpath =>
      rw [show path = _ from h]
      exact not_roleNode (by decide)
  | backlight =>
      rcases h with ⟨device, hpath⟩
      exact not_roleNode_power hpath
  | powerSupply => exact h.elim
  | ignored => exact h.elim

end Paths

/-! ## Programs that need no more than their locks -/

section Under

variable {H : Set Mutex} {f : Footprint} {α : Type} {x : Hal α}

/-- What needs a lock is the role nodes and the guarded fields. -/
theorem under_of_footprint (hx : x.Performs (Op.In f)) (hwrites : ∀ path, f.writes path →
      IsRoleNode path → .mRoleSwitchLock ∈ H)
    (hassigns : ∀ a, f.assigns a → ∀ l, a.guard = some l → l ∈ H) : x.Performs (Op.Under H) := by
  refine hx.mono fun o ho => ?_
  cases o with
  | writeFile content path => exact hwrites path ho
  | assign a => exact hassigns a ho
  | notify n => exact ho.elim
  | _ => exact trivial

/-- What reads and lists only. -/
theorem under_of_reads {files dirs : Text → Prop}
    (hx : x.Performs (Op.In { reads := files, lists := dirs })) : x.Performs (Op.Under H) :=
  under_of_footprint hx (fun _ h => h.elim) fun _ h => h.elim

theorem unguarded {a : Assignment} (ha : a.guard = none) : ∀ l, a.guard = some l → l ∈ H := by
  intro l hl
  rw [ha] at hl
  cases hl

theorem checkUsbInterfaceAutoSuspend_under {devicePath intf : Text} :
    (checkUsbInterfaceAutoSuspend devicePath intf).Performs (Op.Under H) :=
  under_of_footprint checkUsbInterfaceAutoSuspend_footprint
    (fun _ hpath hnode => absurd hnode (not_roleNode_power hpath)) fun _ h => h.elim

theorem handlePowerMode_under : handlePowerMode.Performs (Op.Under H) := by
  refine under_of_footprint handlePowerMode_footprint ?_ ?_
  · rintro _ (rfl | rfl) hnode
    · exact absurd hnode (by decide)
    · exact absurd hnode (by decide)
  · intro a ha
    cases a <;> first | exact unguarded rfl | exact ha.elim

/-- The branches that take no locks need none. -/
theorem handle_under {gadgetName buf : Text} {b : Branch} (hcaptured : b.Captured)
    (htypec : b ≠ .typec) (hsupply : b ≠ .powerSupply) :
    (handle gadgetName buf b).Performs (Op.Under H) := by
  refine under_of_footprint (handle_footprint gadgetName buf htypec hsupply)
    (fun _ hpath hnode => absurd hnode (not_roleNode_branch hcaptured htypec hpath)) ?_
  intro a ha
  cases b with
  | typec => exact absurd rfl htypec
  | _ => cases a <;> first | exact unguarded rfl | exact ha.elim

theorem not_roleNode_control {path : Text} (hpath : IsDataControl path) : ¬ IsRoleNode path := by
  rcases hpath with ⟨name, hname, front, rfl⟩
  refine not_roleNode ?_
  revert name
  decide

theorem switchUsbData_under {in_enable : Bool} (hlock : .mLock ∈ H) :
    (switchUsbData in_enable).Performs (Op.Under H) := by
  refine under_of_footprint switchUsbData_footprint
    (fun _ hpath hnode => absurd hnode (not_roleNode_control hpath)) ?_
  rintro _ rfl _ ⟨⟩
  exact hlock

theorem restrictCharge_under {in_limit : Bool} : (restrictCharge in_limit).Performs (Op.Under H) := by
  refine under_of_footprint restrictCharge_footprint ?_ fun _ h => h.elim
  rintro _ (rfl | rfl) hnode
  · exact absurd hnode (by decide)
  · exact absurd hnode (by decide)

theorem resetController_footprint : resetController.Performs (Op.In {
    reads := fun path => "mode".toList <:+ path
    lists := fun path => path = DWC_DRIVER
    writes := fun path => "mode".toList <:+ path }) := by
  refine Performs.bind (performs_mono getUsbControllerPath_footprint
    ⟨nofun, fun _ h => h, nofun, nofun, nofun⟩) fun dwcDriver => Performs.ite (fun _ => trivial) fun _ => ?_
  have hmode : "mode".toList <:+ dwcDriver ++ "mode" := List.suffix_append _ _
  refine Performs.bind (performs_readFile.2 hmode) ?_
  rintro (_ | mode)
  · exact trivial
  refine Performs.ite (fun _ => trivial) fun _ => ?_
  refine Performs.bind (performs_writeFile.2 hmode) fun ret => Performs.ite (fun _ => trivial) fun _ => ?_
  exact Performs.bind (performs_writeFile.2 hmode) fun _ => trivial

theorem resetController_under : resetController.Performs (Op.Under H) := by
  refine under_of_footprint resetController_footprint ?_ fun _ h => h.elim
  rintro _ ⟨front, rfl⟩ hnode
  exact absurd hnode (not_roleNode (by decide))

/-! ### Roles -/

theorem writeRole_footprint {portName : Text} {newRole : PortRole} :
    (writeRole portName newRole).Performs (Op.In {
      reads := fun path => path = appendRoleNodeHelper portName newRole.tag
      writes := fun path => path = appendRoleNodeHelper portName newRole.tag }) := by
  refine Performs.bind (performs_writeFile.2 rfl) fun ret => Performs.ite (fun _ => trivial) fun _ => ?_
  refine Performs.bind (performs_readFile.2 rfl) ?_
  rintro (_ | written) <;> exact trivial

theorem writeRole_under {portName : Text} {newRole : PortRole} (hrole : .mRoleSwitchLock ∈ H) :
    (writeRole portName newRole).Performs (Op.Under H) :=
  under_of_footprint writeRole_footprint (fun _ _ _ => hrole) fun _ h => h.elim

theorem switchToDrp_under {portName : Text} (hrole : .mRoleSwitchLock ∈ H) :
    (switchToDrp portName).Performs (Op.Under H) :=
  under_of_footprint (switchToDrp_footprint portName) (fun _ _ _ => hrole) fun _ h => h.elim

theorem switchDisconnected_under {port : PortStatus} (hrole : .mRoleSwitchLock ∈ H) :
    (switchDisconnected port).Performs (Op.Under H) :=
  under_of_footprint (switchDisconnected_footprint port) (fun _ _ _ => hrole) fun _ h => h.elim

/-! ### A new callback -/

theorem performs_ofHal {P : ServiceOp → Prop} {α : Type} {x : Hal α}
    (hx : x.Performs fun o => P (.hal o)) : (ofHal x).Performs P := by
  induction x with
  | pure a => exact trivial
  | throw e => exact trivial
  | perform o next ih => exact ⟨hx.1, fun r => ih r (hx.2 r)⟩

theorem returns_ofHal {F : α → Prop} (hx : x.Returns F) : (ofHal x).Returns F := by
  induction x with
  | pure a => exact hx
  | throw e => exact trivial
  | perform o next ih => exact fun r => ih r (hx r)

theorem suspendInterfaces_under {device : Text} {entries : List Dirent} :
    (suspendInterfaces device entries).Performs (Op.Under H) := by
  induction entries with
  | nil => exact trivial
  | cons intfDir rest ih =>
      refine Performs.ite (fun _ => ?_) fun _ => ih
      refine Performs.bind checkUsbInterfaceAutoSuspend_under fun enabled => ?_
      exact Performs.ite (fun _ => trivial) fun _ => ih

theorem suspendDevice_under {deviceDir : Dirent} :
    (suspendDevice deviceDir).Performs (ServiceOp.Under H) := by
  refine Performs.ite (fun _ => ?_) fun _ => trivial
  refine Performs.bind (Performs.call_iff.2 trivial) ?_
  rintro (_ | device)
  · exact trivial
  refine Performs.bind (performs_ofHal (performs_listDirectory.2 trivial)) ?_
  rintro (_ | entries)
  · exact trivial
  · exact performs_ofHal suspendInterfaces_under

theorem checkUsbWakeupSupport_under : checkUsbWakeupSupport.Performs (ServiceOp.Under H) := by
  refine Performs.bind (performs_ofHal ?_) fun wakes => Performs.ite (fun _ => trivial) fun _ => ?_
  · refine Performs.bind (performs_listDirectory.2 trivial) fun entries => ?_
    split
    · exact trivial
    · exact Performs.bind (performs_access trivial) fun found => trivial
  · refine Performs.bind (performs_ofHal (performs_listDirectory.2 trivial)) fun entries => ?_
    exact Performs.bind (Performs.each fun _ _ => suspendDevice_under) fun _ => trivial

theorem findContaminantStatusPath_under {paths : List Text} :
    (findContaminantStatusPath paths).Performs (ServiceOp.Under H) := by
  induction paths with
  | nil => exact trivial
  | cons path rest ih =>
      refine Performs.bind (Performs.call_iff.2 trivial) fun readable => ?_
      exact Performs.ite (fun _ => trivial) fun _ => ih

theorem checkUsbInHostMode_under : checkUsbInHostMode.Performs (Op.Under H) := by
  refine Performs.bind (performs_getProperty.2 trivial) fun controller => ?_
  refine Performs.bind (performs_listDirectory.2 trivial) fun entries => ?_
  exact Performs.ite (fun _ => performs_setProperty.2 trivial) fun _ => performs_setProperty.2 trivial

theorem callPoll_under {c : PollCall} (hc : (ServiceOp.mPoll c).Under H) :
    (callPoll c).Performs (ServiceOp.Under H) :=
  Performs.bind (Performs.call_iff.2 hc) fun _ => Performs.ite (fun _ => trivial) fun _ => trivial

theorem detachWorker_under (hlock : .mLock ∈ H) : detachWorker.Performs (ServiceOp.Under H) :=
  Performs.bind (Performs.call_iff.2 hlock) fun _ =>
    Performs.ite (fun _ => callPoll_under hlock) fun _ => trivial

/-- The worker is waited for without a lock. -/
theorem stopWorker_under (hnone : H = ∅) : stopWorker.Performs (ServiceOp.Under H) :=
  Performs.bind (Performs.call_iff.2 trivial) fun _ =>
    Performs.ite (fun _ => callPoll_under hnone) fun _ => trivial

theorem registerCallback_under {callback : Bool} (hlock : .mLock ∈ H) :
    (registerCallback callback).Performs (ServiceOp.Under H) := by
  refine Performs.bind (performs_ofHal (performs_fields.2 trivial)) fun usb => ?_
  refine Performs.bind (Performs.call_iff.2 hlock) fun _ => ?_
  refine Performs.ite (fun _ => trivial) fun _ => Performs.ite (fun _ => ?_) fun _ => trivial
  refine Performs.bind (detachWorker_under hlock) fun _ => ?_
  refine Performs.bind (callPoll_under hlock) fun _ => ?_
  refine Performs.bind checkUsbWakeupSupport_under fun ignoreWakeup => ?_
  refine Performs.bind (Performs.call_iff.2 hlock) fun _ => ?_
  refine Performs.bind (performs_ofHal checkUsbInHostMode_under) fun _ => ?_
  refine Performs.bind findContaminantStatusPath_under fun path => ?_
  exact Performs.bind (Performs.call_iff.2 hlock) fun _ => trivial

end Under

end UsbHal
end M2391Device
