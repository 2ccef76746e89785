import M2391Device.Lib.History
import M2391Device.Usb.Captures

/-!
# UeventRuns — what a branch may write, and sequences of uevents

Each branch of the handler writes few files and few fields (`handle_within`), whatever the system
answers.  A run is a sequence of handled uevents; between two of them the binder threads may write
the fields they share with the handler, and the system may change as `rely` allows.
-/

namespace M2391Device
namespace UsbHal

open Program Transition

universe u

/-! ## Footprints of the branches -/

/-- The node that `switchToDrp` writes for a port. -/
def IsPortType (path : Text) : Prop :=
  ∃ portName, path = appendRoleNodeHelper portName .mode ∧ path ≠ []

/-- The files that a branch may write. -/
def Branch.Writes : Branch → Text → Prop
  | .typec, path => path = MAX_POWER ∨ path = BM_ATTRIBUTES ∨ IsPortType path
  | .add devpath, path => path ∈ powerControls ("/sys" ++ devpath)
  | .bind devpath _, path => path ∈ powerControls ("/sys" ++ devpath)
  | .udc, path => path = "/config/usb_gadget/g1/UDC"
  | .offline soc xhci, path => contains "f8800" soc = true ∧ path = xhci
  | .busReset devpath _, path => path = "/sys" ++ devpath ++ "/../authorized"
  | .remove _ parentpath, path => path = "/sys" ++ parentpath ++ "/authorized"
  | .backlight, path => ∃ dev, path ∈ powerControls dev
  | _, _ => False

/-- The fields that a branch may assign. -/
def Branch.Assigns : Branch → Assignment → Prop
  | .typec, .mPartnerUp _ => True
  | .typec, .mPowerOpMode _ => True
  | .typec, .mMaxPower _ => True
  | .typec, .mAttributes _ => True
  | .powerSupply, .mContaminantPresence _ => True
  | .powerSupply, .powerBrickConnected _ => True
  | .bind devpath _, .pushHidDev dev => dev = "/sys" ++ devpath
  | .busReset _ _, .usbResetRecov _ => True
  | .remove _ _, .usbResetRecov _ => True
  | .remove devpath _, .removeHidDev dev => dev = "/sys" ++ devpath
  | _, _ => False

/-- What a branch may touch that neither waits for a lock nor reports the ports. -/
abbrev Branch.footprint (b : Branch) : Footprint where
  reads := fun _ => True
  lists := fun _ => True
  writes := b.Writes
  assigns := b.Assigns
  properties := fun _ => True

section Footprint

theorem switchToDrp_footprint (portName : Text) :
    (switchToDrp portName).Performs (Op.In { writes := IsPortType }) := by
  by_cases hempty : appendRoleNodeHelper portName .mode = []
  · -- `access` reports that there is no such file
    simp only [switchToDrp, access, if_pos hempty]
    exact trivial
  · refine Performs.bind (performs_access trivial) fun found => ?_
    refine Performs.ite (fun _ => trivial) fun _ => ?_
    exact Performs.bind (performs_writeFile.2 ⟨portName, rfl, hempty⟩) fun _ => trivial

theorem switchDisconnected_footprint (port : PortStatus) : (switchDisconnected port).Performs
    (Op.In { lists := fun _ => True, writes := IsPortType }) := by
  refine Performs.bind (performs_listDirectory.2 trivial) ?_
  rintro (_ | entries)
  · exact performs_mono (switchToDrp_footprint _) ⟨nofun, nofun, fun _ h => h, nofun, nofun⟩
  · exact trivial

theorem reportPortStatus_quiet : reportPortStatus.Performs Op.Quiet := by
  refine Performs.bind (performs_fields.2 trivial) fun usb => ?_
  refine Performs.ite (fun _ => ?_) fun _ => trivial
  refine Performs.bind getPortStatusHelper_quiet fun ⟨status, statuses⟩ => ?_
  exact Performs.bind (performs_notify.2 trivial) fun _ => trivial

/-- The files of `handlePowerMode`. -/
def IsPowerAttribute (path : Text) : Prop := path = MAX_POWER ∨ path = BM_ATTRIBUTES

/-- The fields of `handlePowerMode`. -/
def Assignment.OfPower : Assignment → Prop
  | .mPowerOpMode _ => True
  | .mMaxPower _ => True
  | .mAttributes _ => True
  | _ => False

theorem overridePower_footprint : overridePower.Performs (Op.In {
    reads := IsPowerAttribute
    writes := IsPowerAttribute
    assigns := Assignment.OfPower }) := by
  refine Performs.bind (performs_assign.2 trivial) fun _ => ?_
  refine Performs.bind (performs_readFile.2 (Or.inl rfl)) fun _ => ?_
  refine Performs.bind (performs_assign.2 trivial) fun _ => ?_
  refine Performs.bind (performs_assign.2 trivial) fun _ => ?_
  refine Performs.bind (performs_readFile.2 (Or.inr rfl)) fun _ => ?_
  refine Performs.bind (performs_assign.2 trivial) fun _ => ?_
  refine Performs.bind (performs_writeFile.2 (Or.inl rfl)) fun _ => ?_
  exact Performs.bind (performs_writeFile.2 (Or.inr rfl)) fun _ => trivial

theorem restorePower_footprint (usb : Usb) : (restorePower usb).Performs
    (Op.In { writes := IsPowerAttribute, assigns := Assignment.OfPower }) := by
  refine Performs.ite (fun _ => trivial) fun _ => ?_
  refine Performs.bind (performs_writeFile.2 (Or.inl rfl)) fun _ => ?_
  refine Performs.bind (performs_writeFile.2 (Or.inr rfl)) fun _ => ?_
  exact performs_assign.2 trivial

theorem handlePowerMode_footprint : handlePowerMode.Performs (Op.In {
    reads := fun _ => True
    writes := IsPowerAttribute
    assigns := Assignment.OfPower }) := by
  refine Performs.bind (performs_readFile.2 trivial) ?_
  rintro (_ | text)
  · exact trivial
  refine Performs.bind (performs_fields.2 trivial) fun usb => ?_
  refine Performs.ite (fun _ => performs_assign.2 trivial) fun _ => ?_
  refine Performs.ite (fun _ => ?_) fun _ => ?_
  · exact Performs.bind (performs_mono overridePower_footprint
      ⟨fun _ _ => trivial, nofun, fun _ h => h, fun _ h => h, nofun⟩) fun _ => performs_assign.2 trivial
  · exact Performs.bind (performs_mono (restorePower_footprint usb)
      ⟨nofun, nofun, fun _ h => h, fun _ h => h, nofun⟩) fun _ => performs_assign.2 trivial

theorem notePartner_footprint (msg : Text) :
    (notePartner msg).Performs (Op.In { assigns := (· = .mPartnerUp true) }) :=
  Performs.ite (fun _ => performs_assign.2 rfl) fun _ => trivial

/-- The part of `handle_typec_uevent` that follows the power mode. -/
def reportAndSwitch : Hal Unit := do
  let currentPortStatus ← reportPortStatus
  let locked ← (Program.call Op.tryRoleSwitchLock : Hal Bool)
  if locked then Program.each switchDisconnected currentPortStatus else return ()

theorem handle_typec_uevent_eq (msg : Text) : handle_typec_uevent msg =
    notePartner msg >>= fun _ => handlePowerMode >>= fun _ => reportAndSwitch := rfl

theorem reportAndSwitch_within :
    reportAndSwitch.Performs (Op.Within IsPortType fun _ => False) := by
  refine Performs.bind (reportPortStatus_quiet.mono fun _ => Op.Quiet.within) fun statuses => ?_
  refine Performs.bind (Performs.call_iff.2 trivial) fun locked => ?_
  refine Performs.ite (fun _ => Performs.each fun port _ => ?_) fun _ => trivial
  exact (switchDisconnected_footprint port).mono fun _ => Op.In.within

theorem handle_typec_uevent_within (msg : Text) :
    (handle_typec_uevent msg).Performs (Op.Within Branch.typec.Writes Branch.typec.Assigns) := by
  refine Performs.bind (performs_within (notePartner_footprint msg) nofun ?_) fun _ => ?_
  · rintro _ rfl
    exact trivial
  refine Performs.bind (performs_within handlePowerMode_footprint ?_ ?_) fun _ => ?_
  · rintro path (rfl | rfl)
    · exact Or.inl rfl
    · exact Or.inr (Or.inl rfl)
  · intro a ha
    cases a <;> first | exact trivial | exact ha.elim
  exact reportAndSwitch_within.mono fun _ ho => ho.mono (fun _ h => Or.inr (Or.inr h)) fun _ h => h.elim

theorem handle_psy_uevent_within (rest : Text) :
    (handle_psy_uevent rest).Performs
      (Op.Within Branch.powerSupply.Writes Branch.powerSupply.Assigns) := by
  refine Performs.ite (fun _ => trivial) fun _ => ?_
  refine Performs.bind (performs_fields.2 trivial) fun usb => ?_
  refine Performs.bind (performs_within readContaminantPresence_footprint nofun nofun) fun _ => ?_
  refine Performs.bind (performs_within isConnectedToUsbPowerBrick_footprint nofun nofun) fun _ => ?_
  refine Performs.bind (performs_fields.2 trivial) fun usb => ?_
  refine Performs.ite (fun _ => ?_) fun _ => trivial
  refine Performs.bind (performs_assign.2 trivial) fun _ => ?_
  refine Performs.bind (performs_assign.2 trivial) fun _ => ?_
  exact Performs.bind (reportPortStatus_quiet.mono fun _ => Op.Quiet.within) fun _ => trivial

theorem bindUdc_footprint (gadgetName : Text) (tries : Nat) :
    (bindUdc gadgetName tries).Performs (Op.In Branch.udc.footprint) := by
  induction tries with
  | zero => exact trivial
  | succ tries ih =>
      refine Performs.bind (performs_writeFile.2 rfl) fun _ => ?_
      refine Performs.bind (performs_readFile.2 trivial) fun udcName => ?_
      exact Performs.ite (fun _ => trivial) fun _ => ih

theorem handleUdcAdded_footprint (gadgetName : Text) :
    (handleUdcAdded gadgetName).Performs (Op.In Branch.udc.footprint) := by
  refine Performs.bind (performs_setProperty.2 trivial) fun _ => ?_
  refine Performs.bind (performs_getProperty.2 trivial) fun adbd => ?_
  exact Performs.ite (fun _ => trivial) fun _ => bindUdc_footprint gadgetName 6

theorem handleUdcRemoved_footprint : handleUdcRemoved.Performs (Op.In Branch.udc.footprint) := by
  refine Performs.bind (performs_listDirectory.2 trivial) fun entries => ?_
  exact Performs.ite (fun _ => trivial) fun _ => performs_setProperty.2 trivial

theorem checkUsbHIDDevice_footprint (devicePath : Text) :
    (checkUsbHIDDevice devicePath).Performs (Op.In {
      reads := fun _ => True
      lists := (· = devicePath)
      assigns := (· = .pushHidDev devicePath) }) := by
  refine Performs.bind (performs_mono checkUsbHidOnly_footprint
    ⟨fun _ h => h, fun _ h => h, nofun, nofun, nofun⟩) fun hidOnly => ?_
  exact Performs.ite (fun _ => performs_assign.2 rfl) fun _ => trivial

theorem handleDisplayEvent_footprint :
    handleDisplayEvent.Performs (Op.In Branch.backlight.footprint) := by
  refine Performs.bind (performs_mono isDisplayOff_footprint
    ⟨fun _ _ => trivial, nofun, nofun, nofun, nofun⟩) fun displayOff => ?_
  refine Performs.bind (performs_fields.2 trivial) fun usb => Performs.each fun dev _ => ?_
  exact performs_mono manageHidPower_footprint
    ⟨fun _ _ => trivial, nofun, fun path hpath => ⟨dev, hpath⟩, nofun, nofun⟩

/-- Whatever the system answers, a branch that neither takes a lock nor reports the ports stays within
its footprint. -/
theorem handle_footprint (gadgetName buf : Text) {b : Branch} (htypec : b ≠ .typec)
    (hsupply : b ≠ .powerSupply) : (handle gadgetName buf b).Performs (Op.In b.footprint) := by
  cases b with
  | typec => exact absurd rfl htypec
  | powerSupply => exact absurd rfl hsupply
  | add devpath =>
      exact performs_mono checkUsbDeviceAutoSuspend_footprint
        ⟨fun _ _ => trivial, fun _ _ => trivial, fun _ h => h, nofun, nofun⟩
  | bind devpath intfpath =>
      refine Performs.bind (performs_mono checkUsbInterfaceAutoSuspend_footprint
        ⟨fun _ _ => trivial, fun _ _ => trivial, fun _ h => h, nofun, nofun⟩) fun _ => ?_
      refine performs_mono (checkUsbHIDDevice_footprint _)
        ⟨fun _ _ => trivial, fun _ _ => trivial, nofun, ?_, nofun⟩
      rintro _ rfl
      exact rfl
  | udc =>
      refine Performs.ite (fun _ => handleUdcAdded_footprint gadgetName) fun _ => ?_
      exact Performs.ite (fun _ => handleUdcRemoved_footprint) fun _ => trivial
  | offline soc xhci =>
      refine Performs.ite (fun hrestart => ?_) fun _ => trivial
      refine Performs.bind (performs_writeFile.2 ⟨hrestart, rfl⟩) fun _ => ?_
      exact Performs.bind (performs_writeFile.2 ⟨hrestart, rfl⟩) fun _ => trivial
  | busReset devpath intfpath =>
      refine Performs.bind (performs_assign.2 trivial) fun _ => ?_
      exact Performs.bind (performs_writeFile.2 rfl) fun _ => trivial
  | remove devpath parentpath =>
      refine Performs.bind (performs_fields.2 trivial) fun usb => ?_
      refine Performs.ite (fun _ => ?_) fun _ => performs_assign.2 rfl
      refine Performs.bind (performs_assign.2 trivial) fun _ => ?_
      refine Performs.bind (performs_writeFile.2 rfl) fun _ => ?_
      exact performs_assign.2 rfl
  | backlight => exact handleDisplayEvent_footprint
  | ignored => exact trivial

/-- Every branch stays within its files and fields. -/
theorem handle_within (gadgetName buf : Text) (b : Branch) :
    (handle gadgetName buf b).Performs (Op.Within b.Writes b.Assigns) := by
  cases b with
  | typec => exact handle_typec_uevent_within _
  | powerSupply => exact handle_psy_uevent_within _
  | _ => exact performs_within (handle_footprint gadgetName buf nofun nofun) (fun _ h => h) fun _ h => h

end Footprint

/-! ## Sequences of uevents -/

/-- A uevent that was handled to its end: its bytes, the branch it took, and what it did. -/
structure Handled where
  buf : Text
  branch : Branch
  ops : List (Answered Op Res)

inductive Event
  | uevent (x : Handled)
  /-- Between two uevents: the binder threads and the system. -/
  | other

variable {σ : Type u} {w : World σ}

/-- The branch of a message in a state. -/
def World.branch (w : World σ) (s : State σ) (buf : Text) : Branch :=
  classify s.usb (w.getProperty USB_CONTROLLER_PROP s.world).1 buf

/-- The state in which the branch is entered. -/
def World.entered (w : World σ) (s : State σ) : State σ :=
  { s with world := (w.getProperty USB_CONTROLLER_PROP s.world).2 }

/-- What the branch of a message is. -/
def World.body (w : World σ) (s : State σ) (buf : Text) : Hal Unit :=
  handle (w.getProperty USB_CONTROLLER_PROP s.world).1 buf (w.branch s buf)

/-- An operation changes the fields of the object by an assignment or not at all. -/
theorem World.step_keeps (w : World σ) {paths : Text → Prop} {assigns : Assignment → Prop}
    {I : Usb → Prop} (o : Op) (s : State σ) (ho : o.Within paths assigns)
    (hkeep : ∀ a usb, assigns a → I usb → I (a.apply usb)) (hs : I s.usb) :
    I (w.step o s).2.usb := by
  cases o with
  | assign a => exact hkeep a s.usb ho hs
  | _ => exact hs

theorem run_uevent_event (s : State σ) (buf : Text) :
    (uevent_event buf).run w.step s = (w.body s buf).run w.step (w.entered s) := rfl

theorem trace_uevent_event (s : State σ) (buf : Text) :
    (uevent_event buf).trace w.step s =
      ⟨.getProperty USB_CONTROLLER_PROP, (w.getProperty USB_CONTROLLER_PROP s.world).1⟩ ::
        ⟨.fields, s.usb⟩ :: (w.body s buf).trace w.step (w.entered s) := rfl

inductive Step (w : World σ) (rely : σ → σ → Prop) : State σ → Event → State σ → Prop where
  | uevent {s s' : State σ} {buf : Text} :
      (uevent_event buf).run w.step s = (.ok (), s') →
      Step w rely s (.uevent ⟨buf, w.branch s buf, (uevent_event buf).trace w.step s⟩) s'
  | other {s : State σ} {shared : Shared} {x : σ} :
      rely s.world x →
      Step w rely s .other { s with usb.toShared := shared, world := x }

/-- What a handled uevent is: the branch of its message, run to its end. -/
theorem Step.uevent_inv {rely : σ → σ → Prop} {s s' : State σ} {x : Handled}
    (h : Step w rely s (.uevent x) s') :
    x.branch = w.branch s x.buf ∧
      (w.body s x.buf).run w.step (w.entered s) = (.ok (), s') ∧
      x.ops =
        ⟨.getProperty USB_CONTROLLER_PROP, (w.getProperty USB_CONTROLLER_PROP s.world).1⟩ ::
          ⟨.fields, s.usb⟩ :: (w.body s x.buf).trace w.step (w.entered s) := by
  cases h with
  | uevent hrun => exact ⟨rfl, hrun, rfl⟩

/-- A handled uevent performs no operation but those of its branch. -/
theorem Step.ops_within {rely : σ → σ → Prop} {s s' : State σ} {x : Handled}
    (h : Step w rely s (.uevent x) s') :
    ∀ o ∈ x.ops, o.1.Within x.branch.Writes x.branch.Assigns := by
  rcases h.uevent_inv with ⟨hbranch, _, hops⟩
  rw [hops, hbranch]
  refine List.forall_mem_cons.2 ⟨trivial, List.forall_mem_cons.2 ⟨trivial, ?_⟩⟩
  exact (handle_within _ _ _).trace

/-- The state after a message. -/
def World.after (w : World σ) (s : State σ) (buf : Text) : State σ :=
  ((uevent_event buf).run w.step s).2

/-- What the assignments of a branch keep, its messages keep. -/
theorem World.after_keeps (I : Usb → Prop) {s : State σ} {buf : Text}
    (hkeep : ∀ a usb, (w.branch s buf).Assigns a → I usb → I (a.apply usb)) (hs : I s.usb) :
    I (w.after s buf).usb := by
  have hbody : (w.body s buf).Performs (Op.Within (w.branch s buf).Writes (w.branch s buf).Assigns) :=
    handle_within _ _ _
  have hstart : I (w.entered s).usb := hs
  rw [World.after, run_uevent_event]
  exact hbody.invariant (fun t : State σ => I t.usb)
    (fun o t ho ht => w.step_keeps o t ho hkeep ht) hstart

theorem Step.keeps {rely : σ → σ → Prop} {s s' : State σ} {x : Handled}
    (h : Step w rely s (.uevent x) s') (I : Usb → Prop)
    (hkeep : ∀ a usb, x.branch.Assigns a → I usb → I (a.apply usb)) (hs : I s.usb) : I s'.usb := by
  rcases h.uevent_inv with ⟨hbranch, hrun, _⟩
  rw [hbranch] at hkeep
  have hafter := World.after_keeps I hkeep hs
  rw [World.after, run_uevent_event, hrun] at hafter
  exact hafter

theorem Step.captured {rely : σ → σ → Prop} {s s' : State σ} {x : Handled}
    (h : Step w rely s (.uevent x) s') : x.branch.Captured := by
  rw [h.uevent_inv.1]
  exact captured_classify _ _ _

/-- The fields that the constructor of the class determines. -/
def Constructed (s : State σ) : Prop :=
  s.usb.hidDevs = [] ∧ s.usb.mPowerOpMode = [] ∧ s.usb.mMaxPower = [] ∧ s.usb.mAttributes = []

/-- Writes of files in a list of operations: content, path and result. -/
def writes (ops : List (Answered Op Res)) : List (Text × Text × Bool) :=
  ops.filterMap fun
    | ⟨.writeFile content path, ok⟩ => some (content, path, ok)
    | _ => none

@[simp] theorem writes_nil : writes [] = [] := rfl

@[simp] theorem writes_append (ops ops' : List (Answered Op Res)) :
    writes (ops ++ ops') = writes ops ++ writes ops' := List.filterMap_append

theorem mem_writes {ops : List (Answered Op Res)} {content path : Text} {ok : Bool} :
    (content, path, ok) ∈ writes ops ↔
      (⟨.writeFile content path, ok⟩ : Answered Op Res) ∈ ops := by
  rw [writes, List.mem_filterMap]
  constructor
  · rintro ⟨⟨o, r⟩, hmem, heq⟩
    cases o <;> simp at heq
    rcases heq with ⟨rfl, rfl, rfl⟩
    exact hmem
  · intro hmem
    exact ⟨_, hmem, rfl⟩

/-- Assignments in a list of operations. -/
def assigns (ops : List (Answered Op Res)) : List Assignment :=
  ops.filterMap fun
    | ⟨.assign a, _⟩ => some a
    | _ => none

theorem mem_assigns {ops : List (Answered Op Res)} {a : Assignment} :
    a ∈ assigns ops ↔ (⟨.assign a, ()⟩ : Answered Op Res) ∈ ops := by
  rw [assigns, List.mem_filterMap]
  constructor
  · rintro ⟨⟨o, r⟩, hmem, heq⟩
    cases o <;> simp at heq
    subst heq
    exact hmem
  · intro hmem
    exact ⟨_, hmem, rfl⟩

/-- A handled uevent assigns only what its branch may assign. -/
theorem Step.assigns_within {rely : σ → σ → Prop} {s s' : State σ} {x : Handled} {a : Assignment}
    (h : Step w rely s (.uevent x) s') (ha : a ∈ assigns x.ops) : x.branch.Assigns a :=
  h.ops_within _ (mem_assigns.1 ha)

/-- A handled uevent writes only what its branch may write. -/
theorem writes_uevent_event {s : State σ} {buf content path : Text} {ok : Bool}
    (h : (content, path, ok) ∈ writes ((uevent_event buf).trace w.step s)) :
    (w.branch s buf).Writes path := by
  rw [mem_writes, trace_uevent_event] at h
  rcases List.mem_cons.1 h with heq | h
  · cases heq
  rcases List.mem_cons.1 h with heq | h
  · cases heq
  exact (handle_within _ buf _).trace _ h

theorem writes_of_quiet {α : Type} {x : Hal α} {s : State σ} (hx : x.Performs Op.Quiet) :
    writes (x.trace w.step s) = [] := by
  refine List.eq_nil_iff_forall_not_mem.2 ?_
  rintro ⟨content, path, ok⟩ hmem
  exact hx.trace _ (mem_writes.1 hmem)

theorem assigns_append (ops ops' : List (Answered Op Res)) :
    assigns (ops ++ ops') = assigns ops ++ assigns ops' := List.filterMap_append

theorem assigns_of_within {α : Type} {x : Hal α} {s : State σ} {paths : Text → Prop}
    (hx : x.Performs (Op.Within paths fun _ => False)) : assigns (x.trace w.step s) = [] := by
  refine List.eq_nil_iff_forall_not_mem.2 ?_
  intro a hmem
  exact hx.trace _ (mem_assigns.1 hmem)

theorem assigns_of_quiet {α : Type} {x : Hal α} {s : State σ} (hx : x.Performs Op.Quiet) :
    assigns (x.trace w.step s) = [] :=
  assigns_of_within (hx.mono (Q := Op.Within (fun _ => False) fun _ => False) fun _ => Op.Quiet.within)

/-- A program that assigns no field leaves the object as it is. -/
theorem usb_of_within {α : Type} {x : Hal α} {s : State σ} {paths : Text → Prop}
    (hx : x.Performs (Op.Within paths fun _ => False)) : (x.run w.step s).2.usb = s.usb := by
  refine hx.invariant (fun t : State σ => t.usb = s.usb) ?_ rfl
  intro o t ho ht
  exact w.step_keeps (I := fun usb => usb = s.usb) o t ho (fun _ _ ha _ => ha.elim) ht

theorem usb_of_quiet {α : Type} {x : Hal α} {s : State σ} (hx : x.Performs Op.Quiet) :
    (x.run w.step s).2.usb = s.usb :=
  usb_of_within (hx.mono (Q := Op.Within (fun _ => False) fun _ => False) fun _ => Op.Quiet.within)

/-! ## Positions of a history -/

section Positions

variable {rely : σ → σ → Prop} {s₀ s : State σ} {h : List Event} {e : Event} {i : Nat} {x : Handled}

/-- The uevent at a position. -/
def handledAt (h : List Event) (i : Nat) (x : Handled) : Prop := h[i]? = some (.uevent x)

theorem handledAt_snoc :
    handledAt (h ++ [e]) i x ↔ handledAt h i x ∨ i = h.length ∧ e = .uevent x := by
  rw [handledAt, handledAt, List.getElem?_append]
  by_cases hi : i < h.length
  · rw [if_pos hi]
    constructor
    · exact Or.inl
    · rintro (hx | ⟨hlast, _⟩)
      · exact hx
      · omega
  · rw [if_neg hi, List.getElem?_eq_none (Nat.le_of_not_lt hi)]
    constructor
    · intro hx
      rcases List.getElem?_eq_some_iff.1 hx with ⟨hlt, heq⟩
      have hzero : i - h.length = 0 := by simpa using hlt
      refine Or.inr ⟨by omega, ?_⟩
      simpa [hzero] using heq
    · rintro (hnone | ⟨rfl, rfl⟩)
      · cases hnone
      · simp

theorem handledAt.lt_length (hi : handledAt h i x) : i < h.length :=
  (List.getElem?_eq_some_iff.1 hi).1

/-- The step of a handled uevent. -/
theorem handledAt.step (hrun : Run (Step w rely) s₀ h s) (hi : handledAt h i x) :
    ∃ t t', Run (Step w rely) s₀ (h.take i) t ∧ Step w rely t (.uevent x) t' := by
  rcases hrun.atIndex hi with ⟨t, t', hpre, hstep, _⟩
  exact ⟨t, t', hpre, hstep⟩

end Positions

/-! ## Single messages -/

/-- What is recorded of a message that is handled in a state. -/
def World.handled (w : World σ) (s : State σ) (buf : Text) : Handled :=
  ⟨buf, w.branch s buf, (uevent_event buf).trace w.step s⟩

theorem World.handled_branch (w : World σ) (s : State σ) (buf : Text) :
    (w.handled s buf).branch = w.branch s buf := rfl

theorem World.handles {rely : σ → σ → Prop} {s : State σ} {buf : Text}
    (hok : ((uevent_event buf).run w.step s).1 = .ok ()) :
    Step w rely s (.uevent (w.handled s buf)) (w.after s buf) :=
  .uevent (Prod.ext hok rfl)

/-- A loop that takes its entries as they come. -/
def inOrder (names : List (Text × Bool)) : { order : List (Text × Bool) // order.Perm names } :=
  ⟨names, .refl names⟩

/-- A system in which every write succeeds and there is nothing to read. -/
def World.idle : World Unit where
  readFile _ x := (none, x)
  writeFile _ _ x := (true, x)
  listDirectory _ x := (none, x)
  access _ _ x := (.ENOENT, x)
  getProperty _ x := ([], x)
  setProperty _ _ x := x
  iterate names x := (inOrder names, x)
  tryRoleSwitchLock x := (false, x)

/-- The object before the first uevent. -/
def Usb.initial : Usb where
  mCallback := false
  mIgnoreWakeup := false
  mContaminantStatusPath := []
  mPartnerUp := false
  usbDataDisabled := false
  limitedPower := false
  mDevicePath := []
  mGadgetName := []
  mContaminantPresence := false
  powerBrickConnected := false
  mPowerOpMode := []
  mMaxPower := []
  mAttributes := []
  hidDevs := []
  usbResetRecov := 0

def State.initial {σ : Type u} (x : σ) : State σ := ⟨Usb.initial, x⟩

theorem World.idle_writes {s : State Unit} {buf content path : Text} {ok : Bool}
    (h : (content, path, ok) ∈ writes (World.idle.handled s buf).ops) : ok = true := by
  rcases trace_answered (mem_writes.1 h) with ⟨t, heq⟩
  exact heq

theorem World.idle_branch {s : State Unit} (h : s.usb.mIgnoreWakeup = false) (buf : Text) :
    World.idle.branch s buf = World.idle.branch (.initial ()) buf := by
  simp [World.branch, classify, h, State.initial, Usb.initial, World.idle]

/-- No message changes which messages are ignored. -/
theorem World.after_mIgnoreWakeup {s : State σ} {buf : Text} :
    (w.after s buf).usb.mIgnoreWakeup = s.usb.mIgnoreWakeup := by
  refine World.after_keeps (fun usb => usb.mIgnoreWakeup = s.usb.mIgnoreWakeup) ?_ rfl
  intro a usb _ hsame
  cases a <;> exact hsame

end UsbHal
end M2391Device
