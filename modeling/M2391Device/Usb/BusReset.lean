import M2391Device.Usb.UeventRuns

/-!
# BusReset — de-authorized nodes and the remove event that authorizes them again

A bus reset writes to the `authorized` file next to the device that was reset, the recovery to that
of the root hub that a remove event names.  One flag links the two, whatever devices they are about,
so they meet in the same node only if the device sits directly on the root hub of the remove event.
-/

namespace M2391Device
namespace UsbHal

open Program Transition

universe u

/-! ## Paths -/

/-- What stands before the last `/` of a path. -/
def dirname (path : Text) : Text := ((path.reverse.dropWhile (· ≠ '/')).drop 1).reverse

/-- What stands after the last `/` of a path. -/
def basename (path : Text) : Text := (path.reverse.takeWhile (· ≠ '/')).reverse

/-- The node of a path; a last directory `..` is resolved to the one above the directory that it
stands in. -/
def resolve (path : Text) : Text :=
  if List.isSuffixOf "/..".toList (dirname path) then
    dirname (dirname (dirname path)) ++ '/' :: basename path
  else path

theorem reverse_cut (dir : Text) {name : Text} (hname : '/' ∉ name) :
    (dir ++ '/' :: name).reverse.dropWhile (· ≠ '/') = '/' :: dir.reverse ∧
      (dir ++ '/' :: name).reverse.takeWhile (· ≠ '/') = name.reverse := by
  have hall : ∀ c ∈ name.reverse, (decide (c ≠ '/')) = true := by
    intro c hc
    refine decide_eq_true ?_
    rintro rfl
    exact hname (List.mem_reverse.1 hc)
  have hreverse : (dir ++ '/' :: name).reverse = name.reverse ++ '/' :: dir.reverse := by simp
  rw [hreverse, List.dropWhile_append_of_pos hall, List.takeWhile_append_of_pos hall]
  simp

theorem dirname_append (dir : Text) {name : Text} (hname : '/' ∉ name) :
    dirname (dir ++ '/' :: name) = dir := by
  rw [dirname, (reverse_cut dir hname).1]
  simp

theorem basename_append (dir : Text) {name : Text} (hname : '/' ∉ name) :
    basename (dir ++ '/' :: name) = name := by
  rw [basename, (reverse_cut dir hname).2, List.reverse_reverse]

theorem resolve_up (dir : Text) {device name : Text} (hdevice : '/' ∉ device) (hname : '/' ∉ name) :
    resolve (dir ++ '/' :: device ++ "/..".toList ++ '/' :: name) = dir ++ '/' :: name := by
  have hdots : '/' ∉ ['.', '.'] := by decide
  have hup : dirname (dir ++ '/' :: device ++ "/..".toList) = dir ++ '/' :: device :=
    dirname_append (dir ++ '/' :: device) hdots
  have hsuffix : List.isSuffixOf "/..".toList (dir ++ '/' :: device ++ "/..".toList) = true :=
    List.isSuffixOf_iff_suffix.2 (List.suffix_append _ _)
  rw [resolve, dirname_append _ hname, basename_append _ hname, if_pos hsuffix, hup,
    dirname_append dir hdevice]

theorem resolve_plain {dir name : Text} (hname : '/' ∉ name) (hlast : dir.getLast? ≠ some '.') :
    resolve (dir ++ '/' :: name) = dir ++ '/' :: name := by
  rw [resolve, dirname_append _ hname, if_neg]
  intro hsuffix
  rcases List.isSuffixOf_iff_suffix.1 hsuffix with ⟨above, rfl⟩
  exact hlast (by simp)

/-! ## Root hubs and the devices on them -/

/-- The device sits on the root hub itself, below no other hub. -/
def IsAttached (root devpath : Text) : Prop :=
  ∃ a b : Char, a.isDigit = true ∧ b.isDigit = true ∧ devpath = root ++ ['/', a, '-', b]

theorem IsRootHub.ends {path : Text} (h : IsRootHub path) :
    ∃ (above : Text) (bus : Char), bus.isDigit = true ∧ path = above ++ ['b', bus] := by
  rcases h with ⟨x, controller, bus, _, hbus, rfl⟩
  refine ⟨"/devices/platform/soc/" ++ (x ++ ("dwc3/xhci-hcd." ++ (controller :: ".auto/us".toList))),
    bus, hbus, ?_⟩
  simp only [List.append_assoc, List.cons_append]
  rfl

theorem isDigit_ne {c other : Char} (h : c.isDigit = true) (hother : other.isDigit = false) :
    c ≠ other := by
  rintro rfl
  rw [h] at hother
  cases hother

theorem IsPortChar.ne {c other : Char} (h : IsPortChar c) (hother : other.isDigit = false)
    (hdot : other ≠ '.') (hdash : other ≠ '-') : c ≠ other := by
  rcases h with hdigit | rfl | rfl
  · exact isDigit_ne hdigit hother
  · exact hdot.symm
  · exact hdash.symm

theorem not_mem_of_ports {ports : Text} (h : ∀ c ∈ ports, IsPortChar c) : '/' ∉ ports := fun hmem =>
  (h '/' hmem).ne (by decide) (by decide) (by decide) rfl

theorem dirname_attached (root : Text) {a b : Char} (ha : a.isDigit = true) (hb : b.isDigit = true) :
    '/' ∉ [a, '-', b] ∧ dirname (root ++ ['/', a, '-', b]) = root := by
  have hname : '/' ∉ [a, '-', b] := by
    simp [(isDigit_ne ha (by decide : '/'.isDigit = false)).symm,
      (isDigit_ne hb (by decide : '/'.isDigit = false)).symm]
  exact ⟨hname, dirname_append root hname⟩

/-- A device path is a directory and a name. -/
theorem IsBelow.split {root devpath : Text} (h : IsBelow root devpath) :
    ∃ name, '/' ∉ name ∧ devpath = dirname devpath ++ '/' :: name := by
  rcases h with ⟨a, b, ports, ha, hb, rfl | ⟨above, last, rfl, _, hlast, _⟩, rfl⟩
  · rcases dirname_attached root ha hb with ⟨hname, hdir⟩
    exact ⟨_, hname, by rw [hdir]⟩
  · have hname := not_mem_of_ports hlast
    have hpath : root ++ '/' :: a :: '-' :: b :: (above ++ '/' :: last) =
        (root ++ '/' :: a :: '-' :: b :: above) ++ '/' :: last := by simp
    exact ⟨last, hname, by rw [hpath, dirname_append _ hname]⟩

/-- The directory of a device is a root hub exactly if the device is attached to it. -/
theorem IsBelow.dirname_eq_iff {root hub devpath : Text} (h : IsBelow root devpath)
    (hhub : IsRootHub hub) : dirname devpath = hub ↔ IsAttached hub devpath := by
  constructor
  · rintro rfl
    rcases h with ⟨a, b, ports, ha, hb, rfl | ⟨above, last, rfl, _, hlast, habove⟩, rfl⟩
    · exact ⟨a, b, ha, hb, by rw [(dirname_attached root ha hb).2]⟩
    · -- the last but one character of the directory is none of a root hub
      exfalso
      have hpath : root ++ '/' :: a :: '-' :: b :: (above ++ '/' :: last) =
          (root ++ '/' :: a :: '-' :: b :: above) ++ '/' :: last := by simp
      rw [hpath, dirname_append _ (not_mem_of_ports hlast)] at hhub
      rcases hhub.ends with ⟨front, bus, _, heq⟩
      have hsuffix : ['b', bus] <:+ '/' :: a :: '-' :: b :: above :=
        List.suffix_of_suffix_length_le ⟨front, heq.symm⟩ ⟨root, rfl⟩ (by simp)
      have hmem : 'b' ∈ '/' :: a :: '-' :: b :: above := hsuffix.subset (by simp)
      have hnotdigit : 'b'.isDigit = false := by decide
      rcases List.mem_cons.1 hmem with heq | hmem
      · cases heq
      rcases List.mem_cons.1 hmem with heq | hmem
      · exact isDigit_ne ha hnotdigit heq.symm
      rcases List.mem_cons.1 hmem with heq | hmem
      · cases heq
      rcases List.mem_cons.1 hmem with heq | hmem
      · exact isDigit_ne hb hnotdigit heq.symm
      rcases habove 'b' hmem with hport | heq
      · exact hport.ne hnotdigit (by decide) (by decide) rfl
      · cases heq
  · rintro ⟨a, b, ha, hb, rfl⟩
    exact (dirname_attached hub ha hb).2

/-! ## What the handled uevents do -/

namespace Handled

/-- A bus reset writes "0" to a node. -/
def Deauthorizes (x : Handled) (node : Text) : Prop :=
  (∃ devpath intfpath, x.branch = .busReset devpath intfpath) ∧
    ∃ path, (("0" : Text), path, true) ∈ writes x.ops ∧ resolve path = node

def Reauthorizes (x : Handled) (node : Text) : Prop :=
  ∃ path, (("1" : Text), path, true) ∈ writes x.ops ∧ resolve path = node

def Clears (x : Handled) : Prop := .usbResetRecov 0 ∈ assigns x.ops

def WritesSucceed (x : Handled) : Prop := ∀ content path ok, (content, path, ok) ∈ writes x.ops → ok = true

end Handled

/-- A node that a bus reset de-authorized, and no event after it authorized. -/
def LeftDeauthorized (h : List Event) (node : Text) : Prop :=
  ∃ i x, handledAt h i x ∧ x.Deauthorizes node ∧
    ∀ j y, i < j → handledAt h j y → ¬ y.Reauthorizes node

/-- What the recovery is for. -/
structure Recovers {σ : Type u} (h : List Event) (s : State σ) : Prop where
  same_node : ∀ i j x y node, i < j → handledAt h i x → handledAt h j y → x.Deauthorizes node →
    y.Clears → (∀ m z, i < m → m < j → handledAt h m z → ¬ z.Clears) → y.Reauthorizes node
  none_left : s.usb.usbResetRecov = 0 → ∀ node, ¬ LeftDeauthorized h node

/-- The first remove event after a bus reset is on the root hub that the reset device is attached
to. -/
def FollowedOnHub (h : List Event) : Prop :=
  ∀ i j x y devpath intfpath removed root, i < j → handledAt h i x → handledAt h j y →
    x.branch = .busReset devpath intfpath → y.branch = .remove removed root →
    (∀ m z, i < m → m < j → handledAt h m z → ∀ d r, z.branch ≠ .remove d r) →
    IsAttached root devpath

/-! ## One step -/

section Steps

variable {σ : Type u} {w : World σ} {rely : σ → σ → Prop} {s s' : State σ} {x : Handled}

theorem Step.busReset (h : Step w rely s (.uevent x) s') {devpath intfpath : Text}
    (hbranch : x.branch = .busReset devpath intfpath) :
    (∃ ok, writes x.ops = [(("0" : Text), "/sys" ++ devpath ++ "/../authorized", ok)]) ∧
      assigns x.ops = [.usbResetRecov 1] ∧ s'.usb.usbResetRecov = 1 := by
  rcases h.uevent_inv with ⟨hb, hrun, hops⟩
  rw [World.body, ← hb, hbranch] at hrun hops
  exact ⟨⟨_, by rw [hops]; rfl⟩, by rw [hops]; rfl,
    congrArg (fun r => r.2.usb.usbResetRecov) hrun.symm⟩

section Remove

variable {devpath parentpath : Text}

theorem handleRemove_set (hflag : s.usb.usbResetRecov ≠ 0) :
    (∃ ok, writes ((handleRemove devpath parentpath).trace w.step s) =
        [(("1" : Text), "/sys" ++ parentpath ++ "/authorized", ok)]) ∧
      assigns ((handleRemove devpath parentpath).trace w.step s) =
        [.usbResetRecov 0, .removeHidDev ("/sys" ++ devpath)] ∧
      ((handleRemove devpath parentpath).run w.step s).2.usb.usbResetRecov = 0 := by
  have htrace : (handleRemove devpath parentpath).trace w.step s =
      ⟨.fields, s.usb⟩ :: (if s.usb.usbResetRecov ≠ 0 then _ else _ : Hal Unit).trace w.step s := rfl
  have hrun : (handleRemove devpath parentpath).run w.step s =
      (if s.usb.usbResetRecov ≠ 0 then _ else _ : Hal Unit).run w.step s := rfl
  rw [if_pos hflag] at htrace hrun
  rw [htrace, hrun]
  exact ⟨⟨_, rfl⟩, rfl, rfl⟩

theorem handleRemove_clear (hflag : s.usb.usbResetRecov = 0) :
    assigns ((handleRemove devpath parentpath).trace w.step s) =
        [.removeHidDev ("/sys" ++ devpath)] ∧
      ((handleRemove devpath parentpath).run w.step s).2.usb.usbResetRecov = 0 := by
  have hnot : ¬ s.usb.usbResetRecov ≠ 0 := fun hne => hne hflag
  have htrace : (handleRemove devpath parentpath).trace w.step s =
      ⟨.fields, s.usb⟩ :: (if s.usb.usbResetRecov ≠ 0 then _ else _ : Hal Unit).trace w.step s := rfl
  have hrun : (handleRemove devpath parentpath).run w.step s =
      (if s.usb.usbResetRecov ≠ 0 then _ else _ : Hal Unit).run w.step s := rfl
  rw [if_neg hnot] at htrace hrun
  rw [htrace, hrun]
  exact ⟨rfl, hflag⟩

theorem handleRemove_ok : ((handleRemove devpath parentpath).run w.step s).1 = .ok () := by
  have hrun : (handleRemove devpath parentpath).run w.step s =
      (if s.usb.usbResetRecov ≠ 0 then _ else _ : Hal Unit).run w.step s := rfl
  rw [hrun]
  by_cases hflag : s.usb.usbResetRecov ≠ 0
  · rw [if_pos hflag]
    rfl
  · rw [if_neg hflag]
    rfl

/-- A remove event recovers exactly if the flag is set. -/
theorem Step.remove (h : Step w rely s (.uevent x) s')
    (hbranch : x.branch = .remove devpath parentpath) :
    s'.usb.usbResetRecov = 0 ∧
      (s.usb.usbResetRecov = 0 → ¬ x.Clears) ∧
      (s.usb.usbResetRecov ≠ 0 → x.Clears ∧
        ∃ ok, writes x.ops = [(("1" : Text), "/sys" ++ parentpath ++ "/authorized", ok)]) := by
  rcases h.uevent_inv with ⟨hb, hrun, hops⟩
  rw [World.body, ← hb, hbranch] at hrun hops
  have hafter : s'.usb = ((handleRemove devpath parentpath).run w.step (w.entered s)).2.usb :=
    congrArg (fun r => r.2.usb) hrun.symm
  have hwrites : writes x.ops =
      writes ((handleRemove devpath parentpath).trace w.step (w.entered s)) := by
    rw [hops]
    rfl
  have hassigns : assigns x.ops =
      assigns ((handleRemove devpath parentpath).trace w.step (w.entered s)) := by
    rw [hops]
    rfl
  rw [Handled.Clears, hafter, hwrites, hassigns]
  by_cases hflag : (w.entered s).usb.usbResetRecov = 0
  · rcases handleRemove_clear (w := w) hflag with ⟨hassign, hzero⟩
    refine ⟨hzero, fun _ => ?_, fun hset => absurd hflag hset⟩
    rw [hassign]
    simp
  · rcases handleRemove_set (w := w) hflag with ⟨hwrite, hassign, hzero⟩
    refine ⟨hzero, fun hclear => absurd hclear hflag, fun _ => ⟨?_, hwrite⟩⟩
    rw [hassign]
    exact List.mem_cons_self

end Remove

/-- No other event touches the flag. -/
theorem Step.flag_unchanged (h : Step w rely s (.uevent x) s')
    (hreset : ∀ d i, x.branch ≠ .busReset d i) (hremove : ∀ d r, x.branch ≠ .remove d r) :
    ¬ x.Clears ∧ s'.usb.usbResetRecov = s.usb.usbResetRecov := by
  have hnone : ∀ value, ¬ x.branch.Assigns (.usbResetRecov value) := by
    intro value hassigns
    cases hb : x.branch with
    | busReset d i => exact hreset d i hb
    | remove d r => exact hremove d r hb
    | _ =>
        rw [hb] at hassigns
        exact hassigns
  refine ⟨fun hclears => hnone 0 (h.assigns_within hclears), ?_⟩
  refine h.keeps (fun usb => usb.usbResetRecov = s.usb.usbResetRecov) ?_ rfl
  intro a usb ha hsame
  cases a with
  | usbResetRecov value => exact absurd ha (hnone value)
  | _ => exact hsame

theorem Step.clears_inv (h : Step w rely s (.uevent x) s') (hclears : x.Clears) :
    ∃ d r, x.branch = .remove d r := by
  by_contra hnot
  have hremove : ∀ d r, x.branch ≠ .remove d r := fun d r heq => hnot ⟨d, r, heq⟩
  by_cases hreset : ∃ d i, x.branch = .busReset d i
  · rcases hreset with ⟨d, i, hbranch⟩
    rw [Handled.Clears, (h.busReset hbranch).2.1] at hclears
    simp at hclears
  · exact (h.flag_unchanged (fun d i heq => hreset ⟨d, i, heq⟩) hremove).1 hclears

end Steps

/-! ## The nodes of a reset and of a recovery -/

/-- The file that authorizes the devices of a hub. -/
def authorized (devpath : Text) : Text := "/sys" ++ devpath ++ "/authorized"

theorem authorized_inj {devpath devpath' : Text} :
    authorized devpath = authorized devpath' ↔ devpath = devpath' := by
  constructor
  · intro h
    have hsys : ("/sys" : Text) ++ devpath = "/sys" ++ devpath' := List.append_cancel_right h
    exact List.append_cancel_left hsys
  · rintro rfl
    rfl

section Nodes

variable {σ : Type u} {w : World σ} {rely : σ → σ → Prop} {s s' : State σ} {x : Handled}
  {devpath intfpath root node : Text}

theorem slash_notMem_authorized : '/' ∉ "authorized".toList := by decide

theorem resolve_reset (h : IsDevice devpath) :
    resolve ("/sys" ++ devpath ++ "/../authorized") = authorized (dirname devpath) := by
  rcases h with ⟨hub, _, hbelow⟩
  rcases hbelow.split with ⟨name, hname, hpath⟩
  have hup := resolve_up ("/sys" ++ dirname devpath) hname slash_notMem_authorized
  rw [List.append_assoc _ _ ('/' :: name), ← hpath] at hup
  have hsplit : "/../authorized".toList = "/..".toList ++ '/' :: "authorized".toList := rfl
  rw [hsplit, ← List.append_assoc]
  exact hup

theorem resolve_recovery (h : IsRootHub root) :
    resolve ("/sys" ++ root ++ "/authorized") = authorized root := by
  refine resolve_plain slash_notMem_authorized ?_
  rcases h.ends with ⟨above, bus, hbus, rfl⟩
  have hlast : (("/sys" : Text) ++ (above ++ ['b', bus])).getLast? = some bus := by
    rw [← List.append_assoc, List.getLast?_append]
    rfl
  rw [hlast]
  intro heq
  exact isDigit_ne hbus (by decide : '.'.isDigit = false) (Option.some.inj heq)

/-- The node that a bus reset de-authorizes. -/
theorem Step.deauthorizes_iff (h : Step w rely s (.uevent x) s') (hok : x.WritesSucceed)
    (hbranch : x.branch = .busReset devpath intfpath) :
    x.Deauthorizes node ↔ node = authorized (dirname devpath) := by
  rcases (h.busReset hbranch).1 with ⟨ok, hwrites⟩
  have hdevice : IsDevice devpath := by
    have hcaptured := h.captured
    rw [hbranch] at hcaptured
    exact hcaptured
  have hsuccess : ok = true := hok _ _ _ (hwrites ▸ List.mem_cons_self)
  subst hsuccess
  constructor
  · rintro ⟨_, path, hmem, rfl⟩
    rw [hwrites, List.mem_singleton] at hmem
    cases hmem
    exact resolve_reset hdevice
  · rintro rfl
    exact ⟨⟨_, _, hbranch⟩, _, hwrites ▸ List.mem_cons_self, resolve_reset hdevice⟩

/-- The node that a recovery authorizes. -/
theorem Step.reauthorizes_iff (h : Step w rely s (.uevent x) s') (hok : x.WritesSucceed)
    (hflag : s.usb.usbResetRecov ≠ 0) (hbranch : x.branch = .remove devpath root) :
    x.Reauthorizes node ↔ node = authorized root := by
  rcases ((h.remove hbranch).2.2 hflag).2 with ⟨ok, hwrites⟩
  have hroot : IsRootHub root := by
    have hcaptured := h.captured
    rw [hbranch] at hcaptured
    exact hcaptured.1
  have hsuccess : ok = true := hok _ _ _ (hwrites ▸ List.mem_cons_self)
  subst hsuccess
  constructor
  · rintro ⟨path, hmem, rfl⟩
    rw [hwrites, List.mem_singleton] at hmem
    cases hmem
    exact resolve_recovery hroot
  · rintro rfl
    exact ⟨_, hwrites ▸ List.mem_cons_self, resolve_recovery hroot⟩

end Nodes

/-! ## Runs -/

section Runs

variable {σ : Type u} {w : World σ} {rely : σ → σ → Prop} {s₀ s : State σ} {h : List Event}
  {e : Event} {i j : Nat} {x y : Handled} {devpath intfpath removed root : Text}

/-- The flag stays set from a bus reset until a remove event. -/
theorem flag_set (hrun : Run (Step w rely) s₀ h s) (hi : handledAt h i x)
    (hbranch : x.branch = .busReset devpath intfpath)
    (hno : ∀ m z, i < m → handledAt h m z → ∀ d r, z.branch ≠ .remove d r) :
    s.usb.usbResetRecov ≠ 0 := by
  induction hrun with
  | nil => cases hi
  | @snoc h t u e hpre hstep ih =>
      rcases handledAt_snoc.1 hi with hold | ⟨_, rfl⟩
      · have hearlier := ih hold fun m z him hz => hno m z him (handledAt_snoc.2 (Or.inl hz))
        cases e with
        | other =>
            cases hstep
            exact hearlier
        | uevent z =>
            have hz := hno h.length z hold.lt_length (handledAt_snoc.2 (Or.inr ⟨rfl, rfl⟩))
            by_cases hreset : ∃ d i, z.branch = .busReset d i
            · rcases hreset with ⟨d, i, hz⟩
              rw [(hstep.busReset hz).2.2]
              exact Nat.one_ne_zero
            · rw [(hstep.flag_unchanged (fun d i heq => hreset ⟨d, i, heq⟩) hz).2]
              exact hearlier
      · rw [(hstep.busReset hbranch).2.2]
        exact Nat.one_ne_zero

/-- The first remove event after a bus reset recovers. -/
theorem recovers_first (hrun : Run (Step w rely) s₀ h s) (hij : i < j) (hi : handledAt h i x)
    (hj : handledAt h j y) (hbranch : x.branch = .busReset devpath intfpath)
    (hremove : y.branch = .remove removed root)
    (hfirst : ∀ m z, i < m → m < j → handledAt h m z → ∀ d r, z.branch ≠ .remove d r) :
    ∃ t t', Step w rely t (.uevent y) t' ∧ t.usb.usbResetRecov ≠ 0 ∧ y.Clears := by
  rcases hj.step hrun with ⟨t, t', hpre, hstep⟩
  have hset : t.usb.usbResetRecov ≠ 0 := by
    refine flag_set hpre (getElem?_take_of_lt hij hi) hbranch ?_
    intro m z him hz
    rcases getElem?_of_take hz with ⟨hmj, hz⟩
    exact hfirst m z him hmj hz
  exact ⟨t, t', hstep, hset, ((hstep.remove hremove).2.2 hset).1⟩

/-- If a remove event follows at all, there is a first one. -/
theorem exists_first_remove (hij : i < j) (hj : handledAt h j y)
    (hremove : y.branch = .remove removed root) :
    ∃ k z d r, i < k ∧ k ≤ j ∧ handledAt h k z ∧ z.branch = .remove d r ∧
      ∀ m z, i < m → m < k → handledAt h m z → ∀ d r, z.branch ≠ .remove d r := by
  have hP : ∃ x, Event.uevent y = .uevent x ∧ ∃ d r, x.branch = .remove d r :=
    ⟨y, rfl, removed, root, hremove⟩
  rcases exists_first_after (P := fun e => ∃ x, e = .uevent x ∧ ∃ d r, x.branch = .remove d r)
    hij hj hP with ⟨k, f, hik, hk, ⟨z, rfl, d, r, hz⟩, hfirst⟩
  refine ⟨k, z, d, r, hik, ?_, hk, hz, ?_⟩
  · by_contra hlt
    exact hfirst j _ hij (Nat.lt_of_not_le hlt) hj hP
  · intro m z him hmk hm d r hremove
    exact hfirst m _ him hmk hm ⟨z, rfl, d, r, hremove⟩

theorem Step.attached_iff {t t' : State σ} (hreset : ∃ u u', Step w rely u (.uevent x) u')
    (hrecovery : Step w rely t (.uevent y) t') (hbranch : x.branch = .busReset devpath intfpath)
    (hremove : y.branch = .remove removed root) :
    authorized (dirname devpath) = authorized root ↔ IsAttached root devpath := by
  rcases hreset with ⟨u, u', hreset⟩
  have hdevice := hreset.captured
  have hroot := hrecovery.captured
  rw [hbranch] at hdevice
  rw [hremove] at hroot
  rcases hdevice with ⟨hub, _, hbelow⟩
  rw [authorized_inj]
  exact hbelow.dirname_eq_iff hroot.1

variable (hrun : Run (Step w rely) s₀ h s) (hok : ∀ i x, handledAt h i x → x.WritesSucceed)

include hrun hok

/-- If the recovery reaches the nodes of the resets, the resets are followed on their root hubs. -/
theorem followed_of_same_node
    (hsame : ∀ i j x y node, i < j → handledAt h i x → handledAt h j y → x.Deauthorizes node →
      y.Clears → (∀ m z, i < m → m < j → handledAt h m z → ¬ z.Clears) → y.Reauthorizes node) :
    FollowedOnHub h := by
  intro i j x y devpath intfpath removed root hij hi hj hbranch hremove hfirst
  rcases recovers_first hrun hij hi hj hbranch hremove hfirst with ⟨t, t', hstep, hset, hclears⟩
  rcases hi.step hrun with ⟨u, u', _, hreset⟩
  have hdeauth : x.Deauthorizes (authorized (dirname devpath)) :=
    (hreset.deauthorizes_iff (hok i x hi) hbranch).2 rfl
  have hbetween : ∀ m z, i < m → m < j → handledAt h m z → ¬ z.Clears := by
    intro m z him hmj hm hz
    rcases hm.step hrun with ⟨v, v', _, hstep⟩
    rcases hstep.clears_inv hz with ⟨d, r, hz⟩
    exact hfirst m z him hmj hm d r hz
  have hreauth := hsame i j x y _ hij hi hj hdeauth hclears hbetween
  rw [hstep.reauthorizes_iff (hok j y hj) hset hremove] at hreauth
  exact (Step.attached_iff ⟨u, u', hreset⟩ hstep hbranch hremove).1 hreauth

/-- The first remove event after a followed reset authorizes its node. -/
theorem FollowedOnHub.reauthorizes (hfollowed : FollowedOnHub h) {node : Text} (hij : i < j)
    (hi : handledAt h i x) (hj : handledAt h j y) (hdeauth : x.Deauthorizes node)
    (hremove : y.branch = .remove removed root)
    (hfirst : ∀ m z, i < m → m < j → handledAt h m z → ∀ d r, z.branch ≠ .remove d r) :
    y.Reauthorizes node := by
  rcases hdeauth.1 with ⟨devpath, intfpath, hbranch⟩
  rcases recovers_first hrun hij hi hj hbranch hremove hfirst with ⟨t, t', hstep, hset, _⟩
  rcases hi.step hrun with ⟨u, u', _, hreset⟩
  have hattached := hfollowed i j x y _ _ _ _ hij hi hj hbranch hremove hfirst
  have hnode := (Step.attached_iff ⟨u, u', hreset⟩ hstep hbranch hremove).2 hattached
  rw [hstep.reauthorizes_iff (hok j y hj) hset hremove, ← hnode]
  exact (hreset.deauthorizes_iff (hok i x hi) hbranch).1 hdeauth

/-- In every run whose writes succeed, the recovery authorizes what the resets de-authorized exactly
if the first remove event after each reset is on the root hub that the reset device is attached
to. -/
theorem recovers_iff_followedOnHub : Recovers h s ↔ FollowedOnHub h := by
  constructor
  · exact fun hrecovers => followed_of_same_node hrun hok hrecovers.same_node
  · intro hfollowed
    constructor
    · intro i j x y node hij hi hj hdeauth hclears hbetween
      rcases hdeauth.1 with ⟨devpath, intfpath, hbranch⟩
      rcases hj.step hrun with ⟨t, t', _, hstep⟩
      rcases hstep.clears_inv hclears with ⟨removed, root, hremove⟩
      refine hfollowed.reauthorizes hrun hok hij hi hj hdeauth hremove ?_
      -- an earlier remove event would have cleared the flag
      intro m z him hmj hm d r hz
      rcases exists_first_remove him hm hz with ⟨k, f, d', r', hik, hkm, hk, hf, hfirst⟩
      rcases recovers_first hrun hik hi hk hbranch hf hfirst with ⟨_, _, _, _, hkclears⟩
      exact hbetween k f hik (by omega) hk hkclears
    · rintro hzero node ⟨i, x, hi, hdeauth, hleft⟩
      rcases hdeauth.1 with ⟨devpath, intfpath, hbranch⟩
      refine flag_set hrun hi hbranch ?_ hzero
      intro m z him hm d r hz
      rcases exists_first_remove him hm hz with ⟨k, f, d', r', hik, _, hk, hf, hfirst⟩
      exact hleft k f hik hk (hfollowed.reauthorizes hrun hok hik hi hk hdeauth hf hfirst)

end Runs

/-! ## A recovery that works, and one that misses -/

def hub : Text := "/devices/platform/soc/a600000.dwc3/xhci-hcd.0.auto/usb1"

/-- A bus reset of the device at a port, and the remove event of that device. -/
def resetOf (port : Text) : Text := "change@" ++ hub ++ port ++ "/1-1:1.0"
def removeOf (port : Text) : Text := "remove@" ++ hub ++ port

/-- Both messages, handled one after the other. -/
def afterReset (port : Text) : State Unit := World.idle.after (.initial ()) (resetOf port)
def afterRemove (port : Text) : State Unit := World.idle.after (afterReset port) (removeOf port)

def handledReset (port : Text) : Handled := World.idle.handled (.initial ()) (resetOf port)
def handledRemove (port : Text) : Handled := World.idle.handled (afterReset port) (removeOf port)

def resetAndRemove (port : Text) : List Event :=
  [.uevent (handledReset port), .uevent (handledRemove port)]

/-- The branches that a message of an idle system takes. -/
theorem branch_resetAttached : World.idle.branch (.initial ()) (resetOf "/1-1") =
    .busReset (hub ++ "/1-1") "1-1:1.0" := by
  decide +kernel

theorem branch_removeAttached : World.idle.branch (.initial ()) (removeOf "/1-1") =
    .remove (hub ++ "/1-1") hub := by
  decide +kernel

theorem branch_resetNested : World.idle.branch (.initial ()) (resetOf "/1-1/1-1.2") =
    .busReset (hub ++ "/1-1/1-1.2") "1-1:1.0" := by
  decide +kernel

theorem branch_removeNested : World.idle.branch (.initial ()) (removeOf "/1-1/1-1.2") =
    .remove (hub ++ "/1-1/1-1.2") hub := by
  decide +kernel

section ResetAndRemove

variable {port devpath intfpath removed root : Text} {i j : Nat} {x : Handled}
  (hreset : World.idle.branch (.initial ()) (resetOf port) = .busReset devpath intfpath)
  (hremove : World.idle.branch (.initial ()) (removeOf port) = .remove removed root)

include hremove

theorem branch_handledRemove : (handledRemove port).branch = .remove removed root := by
  rw [handledRemove, World.handled, afterReset, World.idle_branch World.after_mIgnoreWakeup, hremove]

include hreset

/-- Both messages are handled to their end. -/
theorem resetAndRemove_run :
    Run (Step World.idle Eq) (.initial ()) (resetAndRemove port) (afterRemove port) := by
  refine Run.cons (World.handles ?_) (Run.single (World.handles ?_))
  · rw [run_uevent_event, World.body, hreset]
    rfl
  · have hbranch : World.idle.branch (afterReset port) (removeOf port) = .remove removed root :=
      branch_handledRemove hremove
    rw [afterReset] at hbranch
    rw [run_uevent_event, World.body, hbranch]
    exact handleRemove_ok

omit hreset hremove

theorem handledAt_resetAndRemove (hi : handledAt (resetAndRemove port) i x) :
    i = 0 ∧ x = handledReset port ∨ i = 1 ∧ x = handledRemove port := by
  rcases i with _ | _ | i
  · exact Or.inl ⟨rfl, (Event.uevent.inj (Option.some.inj hi)).symm⟩
  · exact Or.inr ⟨rfl, (Event.uevent.inj (Option.some.inj hi)).symm⟩
  · cases hi

theorem resetAndRemove_succeeds (hi : handledAt (resetAndRemove port) i x) : x.WritesSucceed := by
  intro content path ok hmem
  rcases handledAt_resetAndRemove hi with ⟨_, rfl⟩ | ⟨_, rfl⟩
  · exact World.idle_writes hmem
  · exact World.idle_writes hmem

include hreset hremove

theorem resetAndRemove_followed (hattached : IsAttached root devpath) :
    FollowedOnHub (resetAndRemove port) := by
  intro i j x y devpath' intfpath' removed' root' hij hi hj hx hy _
  rcases handledAt_resetAndRemove hi with ⟨rfl, rfl⟩ | ⟨rfl, rfl⟩
  · rcases handledAt_resetAndRemove hj with ⟨rfl, rfl⟩ | ⟨rfl, rfl⟩
    · exact absurd hij (Nat.lt_irrefl 0)
    · rw [branch_handledRemove hremove] at hy
      have hx' : Branch.busReset devpath intfpath = .busReset devpath' intfpath' := hreset ▸ hx
      cases hx'
      cases hy
      exact hattached
  · rw [branch_handledRemove hremove] at hx
    cases hx

theorem attached_of_followed (hfollowed : FollowedOnHub (resetAndRemove port)) :
    IsAttached root devpath := by
  refine hfollowed 0 1 _ _ devpath intfpath removed root Nat.zero_lt_one rfl rfl hreset
    (branch_handledRemove hremove) ?_
  intro m z hm hm'
  omega

end ResetAndRemove

theorem recovers_attached : Recovers (resetAndRemove "/1-1") (afterRemove "/1-1") := by
  have hattached : IsAttached hub (hub ++ "/1-1") := ⟨'1', '1', rfl, rfl, rfl⟩
  exact (recovers_iff_followedOnHub (resetAndRemove_run branch_resetAttached branch_removeAttached)
    fun _ _ => resetAndRemove_succeeds).2
      (resetAndRemove_followed branch_resetAttached branch_removeAttached hattached)

/-- A device behind another hub: its hub is de-authorized, and the root hub authorized. -/
theorem nested_not_recovered :
    Run (Step World.idle Eq) (.initial ()) (resetAndRemove "/1-1/1-1.2") (afterRemove "/1-1/1-1.2") ∧
      (∀ i x, handledAt (resetAndRemove "/1-1/1-1.2") i x → x.WritesSucceed) ∧
      ¬ Recovers (resetAndRemove "/1-1/1-1.2") (afterRemove "/1-1/1-1.2") := by
  have hrun := resetAndRemove_run branch_resetNested branch_removeNested
  refine ⟨hrun, fun _ _ => resetAndRemove_succeeds, fun hrecovers => ?_⟩
  have hfollowed := followed_of_same_node hrun (fun _ _ => resetAndRemove_succeeds)
    hrecovers.same_node
  rcases attached_of_followed branch_resetNested branch_removeNested hfollowed with ⟨a, b, _, _, heq⟩
  have hlength := congrArg List.length (List.append_cancel_left heq)
  have hlong : ("/1-1/1-1.2" : Text).length = 10 := by decide
  rw [hlong] at hlength
  cases hlength

end UsbHal
end M2391Device
