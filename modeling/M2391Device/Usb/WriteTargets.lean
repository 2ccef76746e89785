import M2391Device.Usb.BusReset

/-!
# WriteTargets — where the writes of the uevent handler go

Every branch builds its paths from a literal directory, a captured device path or the list of HID
devices, all of which lie below the two kernel file systems.  The restart of host mode is the one
branch that does not: there the two arguments of each write are swapped, and the path is the bare
name of the controller.
-/

namespace M2391Device
namespace UsbHal

open Program Transition

universe u

/-! ## Control nodes -/

/-- An absolute path in sysfs, or in the configuration file system of the gadget. -/
def IsControlNode (path : Text) : Prop :=
  "/sys/".toList <+: path ∨ "/config/usb_gadget/".toList <+: path

def UNBIND : Text := "/sys/bus/platform/drivers/xhci-hcd/unbind"
def BIND : Text := "/sys/bus/platform/drivers/xhci-hcd/bind"

variable {σ : Type u} {w : World σ} {rely : σ → σ → Prop} {s s' : State σ} {h : List Event}
  {buf : Text}

/-- What the handler writes on a message. -/
def World.writes (w : World σ) (s : State σ) (buf : Text) : List (Text × Text × Bool) :=
  UsbHal.writes ((uevent_event buf).trace w.step s)

/-- An offline event that restarts host mode. -/
def World.Restarts (w : World σ) (s : State σ) (buf xhci : Text) : Prop :=
  ∃ soc, w.branch s buf = .offline soc xhci ∧ contains "f8800" soc = true

/-- Every write goes to a control node, and a restart writes the controller to the unbind node and
then to the bind node of the driver. -/
structure World.TargetsControlNodes (w : World σ) (s : State σ) (buf : Text) : Prop where
  control_node : ∀ content path ok, (content, path, ok) ∈ w.writes s buf → IsControlNode path
  restart : ∀ xhci, w.Restarts s buf xhci →
    (w.writes s buf).map (fun x => (x.1, x.2.1)) = [(xhci, UNBIND), (xhci, BIND)]

namespace IsControlNode

theorem append {path : Text} (hpath : IsControlNode path) (rest : Text) :
    IsControlNode (path ++ rest) := by
  rcases hpath with hsys | hconfig
  · exact Or.inl (hsys.trans (List.prefix_append _ _))
  · exact Or.inr (hconfig.trans (List.prefix_append _ _))

theorem sys (rest : Text) : IsControlNode ("/sys" ++ '/' :: rest) := Or.inl ⟨rest, rfl⟩

theorem device {devpath : Text} (hdevice : IsDevice devpath) : IsControlNode ("/sys" ++ devpath) := by
  rcases hdevice with ⟨root, ⟨x, controller, bus, _, _, rfl⟩, a, b, ports, _, _, _, rfl⟩
  exact sys _

theorem root {path : Text} (hroot : IsRootHub path) : IsControlNode ("/sys" ++ path) := by
  rcases hroot with ⟨x, controller, bus, _, _, rfl⟩
  exact sys _

theorem power {device path : Text} (hdevice : IsControlNode device)
    (hpath : path ∈ powerControls device) : IsControlNode path := by
  rcases List.mem_cons.1 hpath with rfl | hpath
  · exact hdevice.append _
  rcases List.mem_cons.1 hpath with rfl | hpath
  · exact hdevice.append _
  rcases List.mem_cons.1 hpath with rfl | hpath
  · exact hdevice.append _
  · cases hpath

theorem portType {path : Text} (hpath : IsPortType path) : IsControlNode path := by
  rcases hpath with ⟨portName, rfl, hnonempty⟩
  unfold appendRoleNodeHelper at hnonempty ⊢
  split at hnonempty
  · exact absurd rfl hnonempty
  · rename_i hok
    rw [if_neg hok]
    exact ((sys "class/typec/".toList).append portName).append _

/-- The name of a controller is no path at all. -/
theorem not_controller {name : Text} (hname : IsController name) : ¬ IsControlNode name := by
  rcases hname with ⟨d, _, rfl⟩
  rintro (⟨rest, heq⟩ | ⟨rest, heq⟩)
  · cases heq
  · cases heq

end IsControlNode

/-! ## The HID devices of a display event -/

/-- A display event writes the power controls of the devices in the list. -/
theorem writes_handleDisplayEvent {content path : Text} {ok : Bool}
    (hmem : (content, path, ok) ∈ UsbHal.writes (handleDisplayEvent.trace w.step s)) :
    ∃ device ∈ s.usb.hidDevs, path ∈ powerControls device := by
  have hquiet : isDisplayOff.Performs Op.Quiet := isDisplayOff_footprint.mono fun _ => Op.In.quiet
  rcases hdisplay : isDisplayOff.run w.step s with ⟨displayOff | displayOff, t⟩
  · rw [handleDisplayEvent, trace_bind_error hdisplay, writes_of_quiet hquiet] at hmem
    cases hmem
  · have husb : t.usb = s.usb := by
      have hsame := usb_of_quiet (w := w) (s := s) hquiet
      rwa [hdisplay] at hsame
    rw [handleDisplayEvent, trace_bind_ok hdisplay, writes_append,
      writes_of_quiet hquiet, List.nil_append] at hmem
    have hloop : (Program.each (fun dev => manageHidPower dev displayOff) t.usb.hidDevs).Performs
        (Op.Within (fun p => ∃ device ∈ s.usb.hidDevs, p ∈ powerControls device) fun _ => False) := by
      refine Performs.each fun device hdevice => ?_
      rw [husb] at hdevice
      exact performs_within manageHidPower_footprint (fun p hp => ⟨device, hdevice, hp⟩) nofun
    rcases List.mem_cons.1 (mem_writes.1 hmem) with heq | hrest
    · cases heq
    · exact hloop.trace _ hrest

/-- The paths in the list of HID devices. -/
def KnownDevices (s : State σ) : Prop := ∀ device ∈ s.usb.hidDevs, IsControlNode device

theorem knownDevices (hstart : Constructed s) (hrun : Run (Step w rely) s h s') :
    KnownDevices s' := by
  refine hrun.invariant KnownDevices ?_ ?_
  · intro device hdevice
    rw [hstart.1] at hdevice
    cases hdevice
  · intro t e u hknown hstep
    cases e with
    | other =>
        cases hstep
        exact hknown
    | uevent x =>
        have hcaptured := hstep.captured
        refine hstep.keeps (fun usb => ∀ device ∈ usb.hidDevs, IsControlNode device) ?_ hknown
        intro a usb ha hknown device hdevice
        cases a with
        | pushHidDev pushed =>
            -- only a bind event pushes, and it pushes the path it captured
            rcases List.mem_append.1 hdevice with hold | hnew
            · exact hknown device hold
            · rw [List.mem_singleton] at hnew
              cases hb : x.branch with
              | bind devpath intfpath =>
                  rw [hb] at ha hcaptured
                  have hpushed : pushed = "/sys" ++ devpath := ha
                  rw [hnew, hpushed]
                  exact .device hcaptured
              | _ =>
                  rw [hb] at ha
                  exact ha.elim
        | removeHidDev removed => exact hknown device (List.mem_of_mem_filter hdevice)
        | _ => exact hknown device hdevice

/-! ## The branches -/

theorem World.writes_eq (w : World σ) (s : State σ) (buf : Text) :
    w.writes s buf = UsbHal.writes ((w.body s buf).trace w.step (w.entered s)) := rfl

/-- A branch that does not restart host mode writes control nodes. -/
theorem control_node_of_branch (hknown : KnownDevices s) {content path : Text} {ok : Bool}
    (hrestart : ∀ xhci, ¬ w.Restarts s buf xhci)
    (hmem : (content, path, ok) ∈ w.writes s buf) : IsControlNode path := by
  have hwrites : (w.branch s buf).Writes path := writes_uevent_event hmem
  have hcaptured : (w.branch s buf).Captured := captured_classify _ _ _
  cases hb : w.branch s buf with
  | typec =>
      rw [hb] at hwrites
      rcases hwrites with rfl | rfl | hport
      · exact Or.inr ⟨"g1/configs/b.1/MaxPower".toList, rfl⟩
      · exact Or.inr ⟨"g1/configs/b.1/bmAttributes".toList, rfl⟩
      · exact .portType hport
  | add devpath =>
      rw [hb] at hwrites hcaptured
      exact IsControlNode.power (.device hcaptured) hwrites
  | bind devpath intfpath =>
      rw [hb] at hwrites hcaptured
      exact IsControlNode.power (.device hcaptured) hwrites
  | udc =>
      rw [hb] at hwrites
      rcases hwrites with rfl
      exact Or.inr ⟨"g1/UDC".toList, rfl⟩
  | offline soc xhci =>
      rw [hb] at hwrites
      exact absurd ⟨soc, hb, hwrites.1⟩ (hrestart xhci)
  | busReset devpath intfpath =>
      rw [hb] at hwrites hcaptured
      rcases hwrites with rfl
      exact (IsControlNode.device hcaptured).append _
  | remove devpath parentpath =>
      rw [hb] at hwrites hcaptured
      rcases hwrites with rfl
      exact (IsControlNode.root hcaptured.1).append _
  | backlight =>
      -- the paths are those of the list, which the state holds
      rw [World.writes_eq, World.body, hb] at hmem
      rcases writes_handleDisplayEvent hmem with ⟨device, hdevice, hpath⟩
      exact (hknown device hdevice).power hpath
  | powerSupply =>
      rw [hb] at hwrites
      exact hwrites.elim
  | ignored =>
      rw [hb] at hwrites
      exact hwrites.elim

/-- A restart writes to the name of the controller. -/
theorem restart_writes {xhci : Text} (hrestart : w.Restarts s buf xhci) :
    ∃ ok, (UNBIND, xhci, ok) ∈ w.writes s buf := by
  rcases hrestart with ⟨soc, hb, hsoc⟩
  rw [World.writes_eq, World.body, hb]
  have hbody : handle (w.getProperty USB_CONTROLLER_PROP s.world).1 buf (.offline soc xhci) =
      restartHostMode xhci := if_pos hsoc
  rw [hbody]
  exact ⟨_, List.mem_cons_self⟩

theorem restart_misses {xhci : Text} (hrestart : w.Restarts s buf xhci) :
    ¬ w.TargetsControlNodes s buf := by
  intro htargets
  rcases restart_writes hrestart with ⟨ok, hmem⟩
  rcases hrestart with ⟨soc, hb, _⟩
  have hcaptured : (w.branch s buf).Captured := captured_classify _ _ _
  rw [hb] at hcaptured
  exact IsControlNode.not_controller hcaptured (htargets.control_node _ _ _ hmem)

/-- In every reachable state, for every message and whatever the system answers: the writes of the
handler go to control nodes exactly if the message does not restart host mode. -/
theorem targetsControlNodes_iff (hstart : Constructed s) (hrun : Run (Step w rely) s h s')
    (buf : Text) :
    w.TargetsControlNodes s' buf ↔ ∀ xhci, ¬ w.Restarts s' buf xhci := by
  constructor
  · exact fun htargets xhci hrestart => restart_misses hrestart htargets
  · intro hrestart
    constructor
    · exact fun _ _ _ hmem => control_node_of_branch (knownDevices hstart hrun) hrestart hmem
    · exact fun xhci hxhci => absurd hxhci (hrestart xhci)

theorem targetsControlNodes_reset :
    World.idle.TargetsControlNodes (.initial ()) (resetOf "/1-1") := by
  have hstart : Constructed (.initial () : State Unit) := ⟨rfl, rfl, rfl, rfl⟩
  have hrun : Run (Step World.idle Eq) (.initial ()) [] (.initial ()) := Run.nil
  refine (targetsControlNodes_iff hstart hrun _).2 ?_
  rintro xhci ⟨soc, hb, _⟩
  rw [branch_resetAttached] at hb
  cases hb

/-- A controller of the SoC node that goes offline. -/
def hostOffline : Text := "offline@/devices/platform/soc/4ef8800.ssusb/4e00000.dwc3/xhci-hcd.1.auto/usb2"

theorem hostOffline_misses : ¬ World.idle.TargetsControlNodes (.initial ()) hostOffline := by
  have hb : World.idle.branch (.initial ()) hostOffline =
      .offline "4ef8800.ssusb" "xhci-hcd.1.auto" := by
    decide +kernel
  exact restart_misses ⟨_, hb, by decide⟩

end UsbHal
end M2391Device
