import M2391Device.Usb.Uevent

/-!
# Captures — what the regular expressions of the handler capture

The device paths that the branches of `uevent_event` work with are captured from the message.  Each
capture has the shape that its expression gives it (`captured_dispatch`), whatever the message is.
-/

namespace M2391Device
namespace UsbHal

open Regex

/-! ## Shapes -/

/-- The path of a root hub: what the second group of `remove_regex` captures. -/
def IsRootHub (path : Text) : Prop :=
  ∃ (x : Text) (controller bus : Char), controller.isDigit = true ∧ bus.isDigit = true ∧
    path = "/devices/platform/soc/" ++ (x ++ ("dwc3/xhci-hcd." ++ (controller :: (".auto/usb" ++ [bus]))))

/-- The characters of a port number, as in `[\d\.-]`. -/
def IsPortChar (c : Char) : Prop := c.isDigit = true ∨ c = '.' ∨ c = '-'

/-- The components below the device on the root hub: none, or a last one after some others. -/
def IsPorts (ports : Text) : Prop :=
  ports = [] ∨
    ∃ above last : Text, ports = above ++ '/' :: last ∧ last ≠ [] ∧ (∀ c ∈ last, IsPortChar c) ∧
      ∀ c ∈ above, IsPortChar c ∨ c = '/'

/-- A device below a root hub: `root/d-d` and further components. -/
def IsBelow (root devpath : Text) : Prop :=
  ∃ (a b : Char) (ports : Text), a.isDigit = true ∧ b.isDigit = true ∧ IsPorts ports ∧
    devpath = root ++ ('/' :: a :: '-' :: b :: ports)

def IsDevice (devpath : Text) : Prop := ∃ root, IsRootHub root ∧ IsBelow root devpath

/-- The name of a controller: what the second group of `offline_regex` captures. -/
def IsController (name : Text) : Prop :=
  ∃ d : Char, d.isDigit = true ∧ name = "xhci-hcd." ++ (d :: ".auto".toList)

/-- What the captures of a branch look like. -/
def Branch.Captured : Branch → Prop
  | .add devpath => IsDevice devpath
  | .bind devpath _ => IsDevice devpath
  | .offline _ xhci => IsController xhci
  | .busReset devpath _ => IsDevice devpath
  | .remove devpath parentpath => IsRootHub parentpath ∧ IsBelow parentpath devpath
  | _ => True

/-! ## Matches -/

section Matches

variable {u : Text} {c d : Captures Char}

theorem matches_rootHubPath (h : Matches (concat rootHubPath) u c d) : IsRootHub u ∧ d = c := by
  rcases matches_concat_lit_iff.1 h with ⟨_, rfl, h₁⟩
  rcases matches_concat_cons_iff.1 h₁ with ⟨x, _, _, rfl, hany, h₂⟩
  rcases matches_star_single_iff.1 hany with ⟨_, rfl⟩
  rcases matches_concat_lit_iff.1 h₂ with ⟨_, rfl, h₃⟩
  rcases matches_concat_single_iff.1 h₃ with ⟨controller, _, hcontroller, rfl, h₄⟩
  rcases matches_concat_lit_iff.1 h₄ with ⟨_, rfl, h₅⟩
  rcases matches_concat_single_iff.1 h₅ with ⟨bus, _, hbus, rfl, h₆⟩
  rcases matches_concat_nil_iff.1 h₆ with ⟨rfl, rfl⟩
  exact ⟨⟨x, controller, bus, hcontroller, hbus, rfl⟩, rfl⟩

/-- One further component. -/
theorem matches_component (h : Matches (seq (lit "/".toList) (plus portChar)) u c d) :
    ∃ last, u = '/' :: last ∧ last ≠ [] ∧ (∀ a ∈ last, IsPortChar a) := by
  rcases matches_seq_iff.1 h with ⟨_, last, _, rfl, hslash, hplus⟩
  rcases matches_lit_iff.1 hslash with ⟨rfl, rfl⟩
  rcases matches_plus_single_iff.1 hplus with ⟨hlast, hchars, rfl⟩
  exact ⟨last, rfl, hlast, fun a ha => by simpa [IsPortChar] using hchars a ha⟩

theorem matches_ports (h : Matches (star (seq (lit "/".toList) (plus portChar))) u c d) :
    IsPorts u := by
  by_cases hu : u = []
  · exact Or.inl hu
  rcases h.star_last hu with ⟨above, _, _, rfl, _, habove, hlast⟩
  rcases matches_component hlast with ⟨last, rfl, hnonempty, hchars⟩
  refine Or.inr ⟨above, last, rfl, hnonempty, hchars, ?_⟩
  refine habove.star_forall (fun a => IsPortChar a ∨ a = '/') ?_
  intro v c d hround a ha
  rcases matches_component hround with ⟨last, rfl, _, hchars⟩
  rcases List.mem_cons.1 ha with rfl | ha
  · exact Or.inr rfl
  · exact Or.inl (hchars a ha)

theorem matches_portPath {root : Text} (h : Matches (concat portPath) u c d) :
    IsBelow root (root ++ u) ∧ d = c := by
  refine ⟨?_, h.captures_eq rfl⟩
  rcases matches_concat_lit_iff.1 h with ⟨_, rfl, h₁⟩
  rcases matches_concat_single_iff.1 h₁ with ⟨a, _, ha, rfl, h₂⟩
  rcases matches_concat_lit_iff.1 h₂ with ⟨_, rfl, h₃⟩
  rcases matches_concat_single_iff.1 h₃ with ⟨b, _, hb, rfl, h₄⟩
  rcases matches_concat_cons_iff.1 h₄ with ⟨ports, _, _, rfl, hports, h₅⟩
  rcases matches_concat_nil_iff.1 h₅ with ⟨rfl, rfl⟩
  exact ⟨a, b, ports, ha, hb, matches_ports hports, by simp⟩

/-- The first group of `add_regex`, `bind_regex` and `bus_reset_regex`. -/
theorem matches_devpath (h : Matches (group 1 (concat (rootHubPath ++ portPath))) u c d) :
    IsDevice u ∧ d = (1, u) :: c := by
  rcases matches_group_iff.1 h with ⟨_, hboth, rfl⟩
  rcases matches_concat_append_iff.1 hboth with ⟨root, _, _, rfl, hpath, hport⟩
  rcases matches_rootHubPath hpath with ⟨hroot, rfl⟩
  rcases matches_portPath hport with ⟨hbelow, rfl⟩
  exact ⟨⟨root, hroot, hbelow⟩, rfl⟩

theorem add_regex_captured {msg : Text} {m : Captures Char} (h : add_regex.fullMatch msg = some m) :
    IsDevice (m.str 1) := by
  rcases matches_concat_lit_iff.1 (fullMatch_sound h) with ⟨_, _, h₁⟩
  rcases matches_concat_cons_iff.1 h₁ with ⟨devpath, _, _, _, hpath, h₂⟩
  rcases matches_devpath hpath with ⟨hdevice, rfl⟩
  rcases matches_concat_nil_iff.1 h₂ with ⟨_, rfl⟩
  exact hdevice

/-- The expressions that go on with the name of an interface. -/
theorem interface_regex_captured {action msg : Text} {m : Captures Char}
    (h : Regex.fullMatch (concat (lit action :: group 1 (concat (rootHubPath ++ portPath)) ::
      interfaceName)) msg = some m) :
    IsDevice (m.str 1) := by
  rcases matches_concat_lit_iff.1 (fullMatch_sound h) with ⟨_, _, h₁⟩
  rcases matches_concat_cons_iff.1 h₁ with ⟨devpath, _, _, _, hpath, h₂⟩
  rcases matches_devpath hpath with ⟨hdevice, rfl⟩
  rcases matches_concat_lit_iff.1 h₂ with ⟨_, _, h₃⟩
  rcases matches_concat_cons_iff.1 h₃ with ⟨intf, _, _, _, hintf, h₄⟩
  rcases matches_group_iff.1 hintf with ⟨_, hname, rfl⟩
  rcases matches_concat_nil_iff.1 h₄ with ⟨_, rfl⟩
  -- the group of the interface captures nothing else
  rw [hname.captures_eq rfl]
  exact hdevice

theorem remove_regex_captured {msg : Text} {m : Captures Char}
    (h : remove_regex.fullMatch msg = some m) :
    IsRootHub (m.str 2) ∧ IsBelow (m.str 2) (m.str 1) := by
  rcases matches_concat_lit_iff.1 (fullMatch_sound h) with ⟨_, _, h₁⟩
  rcases matches_concat_cons_iff.1 h₁ with ⟨devpath, _, _, _, houter, h₂⟩
  rcases matches_concat_nil_iff.1 h₂ with ⟨_, rfl⟩
  rcases matches_group_iff.1 houter with ⟨_, hboth, rfl⟩
  rcases matches_concat_cons_iff.1 hboth with ⟨root, _, _, rfl, hinner, hport⟩
  rcases matches_group_iff.1 hinner with ⟨_, hpath, rfl⟩
  rcases matches_rootHubPath hpath with ⟨hroot, rfl⟩
  rcases matches_portPath hport with ⟨hbelow, rfl⟩
  exact ⟨hroot, hbelow⟩

theorem matches_controller
    (h : Matches (concat [lit "xhci-hcd.".toList, digit, lit ".auto".toList]) u c d) :
    IsController u := by
  rcases matches_concat_lit_iff.1 h with ⟨_, rfl, h₁⟩
  rcases matches_concat_single_iff.1 h₁ with ⟨a, _, ha, rfl, h₂⟩
  rcases matches_concat_lit_iff.1 h₂ with ⟨_, rfl, h₃⟩
  rcases matches_concat_nil_iff.1 h₃ with ⟨rfl, rfl⟩
  exact ⟨a, ha, by rw [List.append_nil]⟩

theorem offline_regex_captured {msg : Text} {m : Captures Char}
    (h : offline_regex.fullMatch msg = some m) : IsController (m.str 2) := by
  rcases matches_concat_lit_iff.1 (fullMatch_sound h) with ⟨_, _, h₁⟩
  rcases matches_concat_cons_iff.1 h₁ with ⟨soc, _, _, _, _, h₂⟩
  rcases matches_concat_lit_iff.1 h₂ with ⟨_, _, h₃⟩
  rcases matches_concat_cons_iff.1 h₃ with ⟨dwc3, _, _, _, _, h₄⟩
  rcases matches_concat_lit_iff.1 h₄ with ⟨_, _, h₅⟩
  rcases matches_concat_cons_iff.1 h₅ with ⟨xhci, _, _, _, hxhci, h₆⟩
  rcases matches_group_iff.1 hxhci with ⟨_, hname, rfl⟩
  rw [h₆.captures_eq rfl]
  exact matches_controller hname

end Matches

/-! ## The branches -/

theorem captured_dispatch (mIgnoreWakeup : Bool) (gadgetName msg : Text) :
    (dispatch mIgnoreWakeup gadgetName msg).Captured := by
  unfold dispatch
  split
  · exact trivial
  split
  · exact trivial
  split
  · next m hadd => exact add_regex_captured hadd
  split
  · next m hbind =>
    by_cases hignore : mIgnoreWakeup = true
    · rw [if_pos hignore] at hbind
      cases hbind
    · rw [if_neg hignore] at hbind
      exact interface_regex_captured hbind
  split
  · exact trivial
  split
  · next m hoffline => exact offline_regex_captured hoffline
  split
  · next m hreset => exact interface_regex_captured hreset
  split
  · next m hremove => exact remove_regex_captured hremove
  split <;> exact trivial

/-- The captures of a branch have their shape, whatever was received. -/
theorem captured_classify (usb : Usb) (gadgetName buf : Text) :
    (classify usb gadgetName buf).Captured := by
  unfold classify
  split
  · exact trivial
  · exact captured_dispatch _ _ _

end UsbHal
end M2391Device
