import M2391Device.Usb.UeventRuns

/-!
# HidDevices — the list of HID devices against the events that were handled

A bind event of an interface checks the whole device and appends its path if every interface is of
the HID class; a remove event takes the path out again.  The list is what it should be as long as no
bind event is handled for a device that is listed already, which a device with two interfaces
breaks.
-/

namespace M2391Device
namespace UsbHal

open Program Transition

universe u

/-! ## The check -/

/-- An interface whose class was read as that of HID devices. -/
def ReadsHid (devicePath : Text) (intf : Dirent) (o : Answered Op Res) : Prop :=
  ∃ text, o = ⟨.readFile (devicePath ++ "/" ++ intf.d_name ++ "/bInterfaceClass"), some text⟩ ∧
    text ≠ [] ∧ stoi 16 text = .ok USB_CLASS_HID

/-- The operations after a listing read all the interfaces, and all of them as HID ones. -/
def ReadsAllHid (devicePath : Text) (entries : List Dirent) (reads : List (Answered Op Res)) : Prop :=
  List.Forall₂ (ReadsHid devicePath) (entries.filter Dirent.isInterface) reads

section Check

variable {σ : Type u} {w : World σ} {s s' : State σ} {devicePath intf : Text}

/-- What `getDeviceInterfaceClass` makes of the answer to its read. -/
def classOf : Option Text → Except Terminated Int
  | none => .ok (-1)
  | some bInterfaceClass =>
      if bInterfaceClass = [] then .ok (-1) else stoi 16 bInterfaceClass

theorem classOf_eq_hid {answer : Option Text} :
    classOf answer = .ok USB_CLASS_HID ↔
      ∃ text, answer = some text ∧ text ≠ [] ∧ stoi 16 text = .ok USB_CLASS_HID := by
  cases answer with
  | none => simp [classOf, USB_CLASS_HID]
  | some text =>
      by_cases hempty : text = []
      · simp [classOf, hempty, USB_CLASS_HID]
      · simp [classOf, hempty]

theorem getDeviceInterfaceClass_eq :
    getDeviceInterfaceClass devicePath intf =
      ReadFileToString (devicePath ++ "/" ++ intf ++ "/bInterfaceClass") >>=
        fun answer => orTerminate (classOf answer) := by
  unfold getDeviceInterfaceClass
  congr 1
  funext answer
  cases answer with
  | none => rfl
  | some text =>
      by_cases hempty : text = []
      · simp [classOf, hempty, orTerminate]
      · simp [classOf, hempty]

theorem getDeviceInterfaceClass_run {interfaceClass : Int}
    (hrun : (getDeviceInterfaceClass devicePath intf).run w.step s = (.ok interfaceClass, s')) :
    ∃ answer, classOf answer = .ok interfaceClass ∧
      (getDeviceInterfaceClass devicePath intf).trace w.step s =
        [⟨.readFile (devicePath ++ "/" ++ intf ++ "/bInterfaceClass"), answer⟩] := by
  rw [getDeviceInterfaceClass_eq, run_readFile] at hrun
  rw [getDeviceInterfaceClass_eq, trace_readFile]
  generalize (w.readFile (devicePath ++ "/" ++ intf ++ "/bInterfaceClass") s.world).1 = answer at *
  refine ⟨answer, ?_⟩
  cases hclass : classOf answer with
  | error e =>
      rw [hclass] at hrun
      cases hrun
  | ok value =>
      rw [hclass] at hrun
      cases hrun
      exact ⟨rfl, rfl⟩

theorem checkEntries_cons {intfDir : Dirent} {rest : List Dirent} {hidOnly : Bool}
    (hintf : intfDir.isInterface = true) :
    checkEntries devicePath hidOnly (intfDir :: rest) =
      getDeviceInterfaceClass devicePath intfDir.d_name >>= fun interfaceClass =>
        if interfaceClass = USB_CLASS_HID then checkEntries devicePath true rest
        else Pure.pure false := by
  rw [checkEntries, if_pos hintf]

/-- The check of the entries says yes exactly if there was an interface, and all were read as HID
ones. -/
theorem checkEntries_run {entries : List Dirent} {hidOnly result : Bool}
    (hrun : (checkEntries devicePath hidOnly entries).run w.step s = (.ok result, s')) :
    result = true ↔
      (hidOnly = true ∨ entries.filter Dirent.isInterface ≠ []) ∧
        ReadsAllHid devicePath entries
          ((checkEntries devicePath hidOnly entries).trace w.step s) := by
  induction entries generalizing hidOnly s with
  | nil =>
      cases hrun
      simp [ReadsAllHid, checkEntries]
  | cons intfDir rest ih =>
      by_cases hintf : intfDir.isInterface = true
      · rw [checkEntries_cons hintf] at hrun ⊢
        rcases hclass : (getDeviceInterfaceClass devicePath intfDir.d_name).run w.step s with
          ⟨_ | interfaceClass, t⟩
        · rw [run_bind_error hclass] at hrun
          cases hrun
        rcases getDeviceInterfaceClass_run hclass with ⟨answer, hanswer, htrace⟩
        rw [run_bind_ok hclass] at hrun
        rw [trace_bind_ok hclass, htrace, ReadsAllHid, List.filter_cons_of_pos hintf,
          List.singleton_append, List.forall₂_cons]
        by_cases hhid : interfaceClass = USB_CLASS_HID
        · rw [if_pos hhid] at hrun ⊢
          rw [ih hrun]
          have hreads : ReadsHid devicePath intfDir
              ⟨.readFile (devicePath ++ "/" ++ intfDir.d_name ++ "/bInterfaceClass"), answer⟩ := by
            rw [hhid] at hanswer
            rcases classOf_eq_hid.1 hanswer with ⟨text, rfl, hnonempty, hstoi⟩
            exact ⟨text, rfl, hnonempty, hstoi⟩
          constructor
          · rintro ⟨_, hrest⟩
            exact ⟨Or.inr (List.cons_ne_nil _ _), hreads, hrest⟩
          · rintro ⟨_, _, hrest⟩
            exact ⟨Or.inl rfl, hrest⟩
        · rw [if_neg hhid] at hrun ⊢
          cases hrun
          constructor
          · intro hfalse
            cases hfalse
          · rintro ⟨_, ⟨text, heq, hnonempty, hstoi⟩, _⟩
            -- an interface of another class was read, and is not an HID one
            cases heq
            have hclass' := classOf_eq_hid.2 ⟨text, rfl, hnonempty, hstoi⟩
            rw [hanswer] at hclass'
            exact absurd (Except.ok.inj hclass') hhid
      -- other entries are neither read nor counted
      · have hskip : checkEntries devicePath hidOnly (intfDir :: rest) =
            checkEntries devicePath hidOnly rest := if_neg hintf
        rw [hskip] at hrun ⊢
        rw [ih hrun, ReadsAllHid, ReadsAllHid, List.filter_cons_of_neg hintf]

end Check

/-! ## What the events say about a device -/

/-- Operations that look at the system or at the object. -/
def IsLook (o : Answered Op Res) : Bool :=
  match o.1 with
  | .assign _ => false
  | _ => true

namespace Handled

def Binds (x : Handled) (path : Text) : Prop :=
  ∃ devpath intfpath, x.branch = .bind devpath intfpath ∧ path = "/sys" ++ devpath

def Removes (x : Handled) (path : Text) : Prop :=
  ∃ devpath parentpath, x.branch = .remove devpath parentpath ∧ path = "/sys" ++ devpath

/-- The last listing of the device shows an interface, and the reads after it show that all its
interfaces are HID ones. -/
def FoundHidOnly (x : Handled) (path : Text) : Prop :=
  ∃ entries reads, (⟨.listDirectory path, some entries⟩ :: reads) <:+ x.ops.filter IsLook ∧
    entries.filter Dirent.isInterface ≠ [] ∧ ReadsAllHid path entries reads

end Handled

/-- The list is a set of devices that were last found to be HID devices and not removed since. -/
structure HidListValid {σ : Type u} (h : List Event) (s : State σ) : Prop where
  nodup : s.usb.hidDevs.Nodup
  connected : ∀ path ∈ s.usb.hidDevs, ∃ i x, handledAt h i x ∧ x.Binds path ∧ x.FoundHidOnly path ∧
    ∀ j y, i < j → handledAt h j y → ¬ y.Binds path ∧ ¬ y.Removes path

/-- The list is valid in every state of a run, and a remove event leaves the other entries as they
are. -/
structure TracksDevices {σ : Type u} (w : World σ) (rely : σ → σ → Prop) (s₀ : State σ)
    (h : List Event) : Prop where
  valid : ∀ k t, Run (Step w rely) s₀ (h.take k) t → HidListValid (h.take k) t
  remove : ∀ k x path t t', handledAt h k x → x.Removes path → Run (Step w rely) s₀ (h.take k) t →
    Step w rely t (.uevent x) t' →
    t'.usb.hidDevs.filter (· ≠ path) = t.usb.hidDevs.filter (· ≠ path)

/-- No bind event is handled for a device that is in the list. -/
def BindsFresh {σ : Type u} (w : World σ) (rely : σ → σ → Prop) (s₀ : State σ) (h : List Event) :
    Prop :=
  ∀ i x path t, handledAt h i x → x.Binds path → Run (Step w rely) s₀ (h.take i) t →
    path ∉ t.usb.hidDevs

/-! ## One step -/

section Steps

variable {σ : Type u} {w : World σ} {rely : σ → σ → Prop} {s s' : State σ} {x : Handled}
  {devpath intfpath parentpath devicePath path : Text}

/-- Reading a file. -/
def Op.IsRead : Op → Prop
  | .readFile _ => True
  | _ => False

theorem Op.ReadsClass.isRead {o : Op} (ho : o.ReadsClass devicePath) : o.IsRead := by
  cases o <;> first | exact trivial | exact ho.elim

/-- The reads after the last listing are determined by the operations. -/
theorem suffix_listing_unique {ops reads reads' : List (Answered Op Res)} {path path' : Text}
    {answer : Res (.listDirectory path)} {answer' : Res (.listDirectory path')}
    (hreads : ∀ o ∈ reads, o.1.IsRead) (hreads' : ∀ o ∈ reads', o.1.IsRead)
    (h : (⟨.listDirectory path, answer⟩ :: reads) <:+ ops)
    (h' : (⟨.listDirectory path', answer'⟩ :: reads') <:+ ops) :
    (⟨.listDirectory path, answer⟩ : Answered Op Res) = ⟨.listDirectory path', answer'⟩ ∧
      reads = reads' := by
  -- the longer of the two would hold the listing of the other one among its reads
  rcases List.suffix_or_suffix_of_suffix h h' with hsuffix | hsuffix
  · rcases List.suffix_cons_iff.1 hsuffix with heq | hsuffix
    · exact List.cons.inj heq
    · exact (hreads' _ (hsuffix.subset List.mem_cons_self)).elim
  · rcases List.suffix_cons_iff.1 hsuffix with heq | hsuffix
    · exact List.cons.inj heq.symm
    · exact (hreads _ (hsuffix.subset List.mem_cons_self)).elim

theorem ReadsAllHid.isRead {entries : List Dirent} {reads : List (Answered Op Res)}
    (h : ReadsAllHid devicePath entries reads) : ∀ o ∈ reads, o.1.IsRead := by
  rw [ReadsAllHid] at h
  generalize entries.filter Dirent.isInterface = intfs at h
  induction h with
  | nil =>
      intro o ho
      cases ho
  | cons hread _ ih =>
      rcases hread with ⟨text, rfl, _⟩
      exact List.forall_mem_cons.2 ⟨trivial, ih⟩

theorem checkUsbHidOnly_run {result : Bool}
    (hrun : (checkUsbHidOnly devicePath).run w.step s = (.ok result, s')) :
    ∃ (answer : Option (List Dirent)) (reads : List (Answered Op Res)),
      (checkUsbHidOnly devicePath).trace w.step s = ⟨.listDirectory devicePath, answer⟩ :: reads ∧
        (∀ o ∈ reads, o.1.IsRead) ∧
        (result = true ↔ ∃ entries, answer = some entries ∧
          entries.filter Dirent.isInterface ≠ [] ∧ ReadsAllHid devicePath entries reads) := by
  rw [checkUsbHidOnly, run_listDirectory] at hrun
  rw [checkUsbHidOnly, trace_listDirectory]
  generalize (w.listDirectory devicePath s.world).1 = answer at *
  refine ⟨answer, _, rfl, ?_⟩
  cases answer with
  | none =>
      cases hrun
      refine ⟨?_, by simp⟩
      intro o ho
      cases ho
  | some entries =>
      refine ⟨(checkEntries_reads.mono fun _ => Op.ReadsClass.isRead).trace, ?_⟩
      rw [checkEntries_run hrun]
      simp

/-- The check at the end of a bind event, and what it finds. -/
theorem checkUsbHIDDevice_run
    (hrun : (checkUsbHIDDevice devicePath).run w.step s = (.ok (), s')) :
    ∃ (answer : Option (List Dirent)) (reads last : List (Answered Op Res)),
      (checkUsbHIDDevice devicePath).trace w.step s =
        ⟨.listDirectory devicePath, answer⟩ :: reads ++ last ∧
      (∀ o ∈ reads, o.1.IsRead) ∧ last.filter IsLook = [] ∧
      ((∃ entries, answer = some entries ∧ entries.filter Dirent.isInterface ≠ [] ∧
          ReadsAllHid devicePath entries reads) ∧ s'.usb.hidDevs = s.usb.hidDevs ++ [devicePath] ∨
        (¬ ∃ entries, answer = some entries ∧ entries.filter Dirent.isInterface ≠ [] ∧
          ReadsAllHid devicePath entries reads) ∧ s'.usb.hidDevs = s.usb.hidDevs) := by
  rcases hcheck : (checkUsbHidOnly devicePath).run w.step s with ⟨_ | result, t⟩
  · rw [checkUsbHIDDevice, run_bind_error hcheck] at hrun
    cases hrun
  have hquiet : ((checkUsbHidOnly devicePath).run w.step s).2.usb = s.usb :=
    usb_of_quiet (checkUsbHidOnly_footprint.mono fun _ => Op.In.quiet)
  rw [hcheck] at hquiet
  have husb : t.usb = s.usb := hquiet
  rcases checkUsbHidOnly_run hcheck with ⟨answer, reads, htrace, hreads, hresult⟩
  rw [checkUsbHIDDevice, run_bind_ok hcheck] at hrun
  rw [checkUsbHIDDevice, trace_bind_ok hcheck, htrace]
  refine ⟨answer, reads, _, rfl, hreads, ?_⟩
  cases result with
  | true =>
      rw [if_pos rfl] at hrun ⊢
      cases hrun
      exact ⟨rfl, Or.inl ⟨hresult.1 rfl, congrArg (fun usb : Usb => usb.hidDevs ++ [devicePath]) husb⟩⟩
  | false =>
      rw [if_neg Bool.false_ne_true] at hrun ⊢
      cases hrun
      exact ⟨rfl, Or.inr ⟨fun hfound => Bool.false_ne_true (hresult.2 hfound),
        congrArg Usb.hidDevs husb⟩⟩

/-- A bind event appends the device exactly if the check finds a HID device. -/
theorem Step.bind (h : Step w rely s (.uevent x) s') (hbranch : x.branch = .bind devpath intfpath) :
    x.FoundHidOnly ("/sys" ++ devpath) ∧ s'.usb.hidDevs = s.usb.hidDevs ++ ["/sys" ++ devpath] ∨
      ¬ x.FoundHidOnly ("/sys" ++ devpath) ∧ s'.usb.hidDevs = s.usb.hidDevs := by
  rcases h.uevent_inv with ⟨hb, hrun, hops⟩
  rw [World.body, ← hb, hbranch] at hrun hops
  generalize hpath : ("/sys" : Text) ++ devpath = path
  have hbody : handle (w.getProperty USB_CONTROLLER_PROP s.world).1 x.buf (.bind devpath intfpath) =
      checkUsbInterfaceAutoSuspend path intfpath >>= fun _ => checkUsbHIDDevice path := by
    rw [← hpath]
    rfl
  rw [hbody] at hrun hops
  rcases hpower : (checkUsbInterfaceAutoSuspend path intfpath).run w.step (w.entered s) with
    ⟨_ | done, t⟩
  · rw [run_bind_error hpower] at hrun
    cases hrun
  -- the suspend setting comes before the check, and leaves the list of devices as it is
  have hkept : ((checkUsbInterfaceAutoSuspend path intfpath).run w.step (w.entered s)).2.usb = s.usb :=
    usb_of_within (performs_within checkUsbInterfaceAutoSuspend_footprint (fun _ h => h) nofun)
  rw [hpower] at hkept
  have husb : t.usb = s.usb := hkept
  rw [run_bind_ok hpower] at hrun
  rw [trace_bind_ok hpower] at hops
  rcases checkUsbHIDDevice_run hrun with ⟨answer, reads, last, htrace, hreads, hlast, hcases⟩
  -- what is looked at last is the directory and what the check reads in it
  have hlisting : (⟨.listDirectory path, answer⟩ :: reads) <:+ x.ops.filter IsLook := by
    have hlooks : (⟨.listDirectory path, answer⟩ :: reads : List (Answered Op Res)).filter IsLook =
        ⟨.listDirectory path, answer⟩ :: reads := by
      refine List.filter_eq_self.2 (List.forall_mem_cons.2 ⟨rfl, ?_⟩)
      rintro ⟨o, r⟩ ho
      have hread := hreads _ ho
      cases o <;> first | rfl | exact hread.elim
    rw [hops, htrace, ← List.append_assoc, ← List.cons_append, ← List.cons_append,
      List.filter_append, hlast, List.append_nil, ← List.cons_append, ← List.cons_append,
      List.filter_append, hlooks]
    exact List.suffix_append _ _
  have hfound : x.FoundHidOnly path ↔ ∃ entries, answer = some entries ∧
      entries.filter Dirent.isInterface ≠ [] ∧ ReadsAllHid path entries reads := by
    constructor
    · rintro ⟨entries, reads', hsuffix, hnonempty, hall⟩
      rcases suffix_listing_unique hreads hall.isRead hlisting hsuffix with ⟨heq, rfl⟩
      cases heq
      exact ⟨entries, rfl, hnonempty, hall⟩
    · rintro ⟨entries, rfl, hnonempty, hall⟩
      exact ⟨entries, reads, hlisting, hnonempty, hall⟩
  rw [hfound, ← husb]
  exact hcases

theorem handleRemove_hidDevs :
    ((handleRemove devpath parentpath).run w.step s).2.usb.hidDevs =
      s.usb.hidDevs.filter (· ≠ "/sys" ++ devpath) := by
  have hrun : (handleRemove devpath parentpath).run w.step s =
      (if s.usb.usbResetRecov ≠ 0 then _ else _ : Hal Unit).run w.step s := rfl
  rw [hrun]
  by_cases hflag : s.usb.usbResetRecov ≠ 0
  · rw [if_pos hflag]
    rfl
  · rw [if_neg hflag]
    rfl

theorem Step.remove_hidDevs (h : Step w rely s (.uevent x) s') (hremove : x.Removes path) :
    s'.usb.hidDevs = s.usb.hidDevs.filter (· ≠ path) := by
  rcases hremove with ⟨devpath, parentpath, hbranch, rfl⟩
  rcases h.uevent_inv with ⟨hb, hrun, _⟩
  rw [World.body, ← hb, hbranch] at hrun
  have hafter : s'.usb = ((handleRemove devpath parentpath).run w.step (w.entered s)).2.usb :=
    congrArg (fun r => r.2.usb) hrun.symm
  rw [hafter]
  exact handleRemove_hidDevs

theorem Step.bind_hidDevs (h : Step w rely s (.uevent x) s') (hbind : x.Binds path) :
    x.FoundHidOnly path ∧ s'.usb.hidDevs = s.usb.hidDevs ++ [path] ∨
      ¬ x.FoundHidOnly path ∧ s'.usb.hidDevs = s.usb.hidDevs := by
  rcases hbind with ⟨devpath, intfpath, hbranch, rfl⟩
  exact h.bind hbranch

theorem Step.hidDevs_unchanged (h : Step w rely s (.uevent x) s') (hbind : ∀ p, ¬ x.Binds p)
    (hremove : ∀ p, ¬ x.Removes p) : s'.usb.hidDevs = s.usb.hidDevs := by
  refine h.keeps (fun usb => usb.hidDevs = s.usb.hidDevs) ?_ rfl
  intro a usb ha hsame
  cases hb : x.branch with
  | bind devpath intfpath => exact absurd ⟨_, _, hb, rfl⟩ (hbind ("/sys" ++ devpath))
  | remove devpath parentpath => exact absurd ⟨_, _, hb, rfl⟩ (hremove ("/sys" ++ devpath))
  | _ =>
      rw [hb] at ha
      cases a <;> first | exact hsame | exact ha.elim

theorem Handled.Binds.unique {path' : Text} (hbind : x.Binds path) (hbind' : x.Binds path') :
    path = path' := by
  rcases hbind with ⟨devpath, intfpath, hbranch, rfl⟩
  rcases hbind' with ⟨devpath', intfpath', hbranch', rfl⟩
  rw [hbranch] at hbranch'
  cases hbranch'
  rfl

theorem Handled.Binds.not_removes {path' : Text} (hbind : x.Binds path) : ¬ x.Removes path' := by
  rintro ⟨devpath', parentpath, hbranch', _⟩
  rcases hbind with ⟨devpath, intfpath, hbranch, _⟩
  rw [hbranch] at hbranch'
  cases hbranch'

/-- The list after an event is determined by the list before it. -/
theorem Step.hidDevs_congr {t t' : State σ} (h : Step w rely s (.uevent x) s')
    (h' : Step w rely t (.uevent x) t') (hsame : s.usb.hidDevs = t.usb.hidDevs) :
    s'.usb.hidDevs = t'.usb.hidDevs := by
  by_cases hbind : ∃ p, x.Binds p
  · rcases hbind with ⟨p, hp⟩
    rcases h.bind_hidDevs hp with ⟨hfound, heq⟩ | ⟨hnot, heq⟩ <;>
      rcases h'.bind_hidDevs hp with ⟨hfound', heq'⟩ | ⟨hnot', heq'⟩
    · rw [heq, heq', hsame]
    · exact absurd hfound hnot'
    · exact absurd hfound' hnot
    · rw [heq, heq', hsame]
  by_cases hremove : ∃ p, x.Removes p
  · rcases hremove with ⟨p, hp⟩
    rw [h.remove_hidDevs hp, h'.remove_hidDevs hp, hsame]
  · rw [h.hidDevs_unchanged (not_exists.1 hbind) (not_exists.1 hremove),
      h'.hidDevs_unchanged (not_exists.1 hbind) (not_exists.1 hremove), hsame]

end Steps

/-! ## Runs -/

section Runs

variable {σ : Type u} {w : World σ} {rely : σ → σ → Prop} {s₀ s : State σ} {h : List Event}
  {e : Event}

/-- A history determines the list. -/
theorem hidDevs_determined {t : State σ} (hrun : Run (Step w rely) s₀ h s)
    (hrun' : Run (Step w rely) s₀ h t) : s.usb.hidDevs = t.usb.hidDevs := by
  induction hrun generalizing t with
  | nil => rw [hrun'.nil_inv]
  | snoc e hpre hstep ih =>
      rcases hrun'.snoc_inv with ⟨t₁, hpre', hstep'⟩
      have hsame := ih hpre'
      cases e with
      | uevent x => exact hstep.hidDevs_congr hstep' hsame
      | other =>
          cases hstep
          cases hstep'
          exact hsame

theorem BindsFresh.init (hfresh : BindsFresh w rely s₀ (h ++ [e])) : BindsFresh w rely s₀ h := by
  intro i x path t hi hbind hrun
  refine hfresh i x path t (handledAt_snoc.2 (Or.inl hi)) hbind ?_
  rwa [List.take_append_of_le_length (Nat.le_of_lt hi.lt_length)]

/-- An event that neither binds nor removes a device keeps what is known of it. -/
theorem connected_snoc {path : Text} (hquiet : ∀ x, e = .uevent x → ¬ x.Binds path ∧ ¬ x.Removes path)
    (hconnected : ∃ i x, handledAt h i x ∧ x.Binds path ∧ x.FoundHidOnly path ∧
      ∀ j y, i < j → handledAt h j y → ¬ y.Binds path ∧ ¬ y.Removes path) :
    ∃ i x, handledAt (h ++ [e]) i x ∧ x.Binds path ∧ x.FoundHidOnly path ∧
      ∀ j y, i < j → handledAt (h ++ [e]) j y → ¬ y.Binds path ∧ ¬ y.Removes path := by
  rcases hconnected with ⟨i, x, hi, hbind, hfound, hlater⟩
  refine ⟨i, x, handledAt_snoc.2 (Or.inl hi), hbind, hfound, ?_⟩
  intro j y hij hj
  rcases handledAt_snoc.1 hj with hold | ⟨_, heq⟩
  · exact hlater j y hij hold
  · exact hquiet y heq

/-- A bind event of a device that is not in the list keeps the list valid. -/
theorem HidListValid.bind {x : Handled} {s' : State σ} {path : Text} (hvalid : HidListValid h s)
    (hstep : Step w rely s (.uevent x) s') (hbind : x.Binds path) (hfresh : path ∉ s.usb.hidDevs) :
    HidListValid (h ++ [.uevent x]) s' := by
  have hold : ∀ p ∈ s.usb.hidDevs, ∃ i y, handledAt (h ++ [.uevent x]) i y ∧ y.Binds p ∧
      y.FoundHidOnly p ∧
      ∀ j z, i < j → handledAt (h ++ [.uevent x]) j z → ¬ z.Binds p ∧ ¬ z.Removes p := by
    intro p hp
    refine connected_snoc ?_ (hvalid.connected p hp)
    rintro y heq
    cases heq
    refine ⟨fun hbinds => hfresh ?_, hbind.not_removes⟩
    rwa [hbind.unique hbinds]
  rcases hstep.bind_hidDevs hbind with ⟨hfound, heq⟩ | ⟨_, heq⟩
  · constructor
    · rw [heq, List.nodup_append]
      refine ⟨hvalid.nodup, List.pairwise_singleton _ _, ?_⟩
      intro p hp q hq hpq
      rw [List.mem_singleton.1 hq] at hpq
      exact hfresh (hpq ▸ hp)
    · intro p hp
      rw [heq] at hp
      rcases List.mem_append.1 hp with hp | hp
      · exact hold p hp
      · rw [List.mem_singleton] at hp
        subst hp
        refine ⟨h.length, x, handledAt_snoc.2 (Or.inr ⟨rfl, rfl⟩), hbind, hfound, ?_⟩
        intro j y hlt hj
        have hbound := hj.lt_length
        rw [List.length_append, List.length_singleton] at hbound
        omega
  · constructor
    · rw [heq]
      exact hvalid.nodup
    · rw [heq]
      exact hold

theorem HidListValid.remove {x : Handled} {s' : State σ} {path : Text} (hvalid : HidListValid h s)
    (hstep : Step w rely s (.uevent x) s') (hremove : x.Removes path) :
    HidListValid (h ++ [.uevent x]) s' := by
  have heq := hstep.remove_hidDevs hremove
  constructor
  · rw [heq]
    exact hvalid.nodup.filter _
  · intro p hp
    rw [heq, List.mem_filter] at hp
    refine connected_snoc ?_ (hvalid.connected p hp.1)
    rintro y hy
    cases hy
    refine ⟨fun hbinds => hbinds.not_removes hremove, fun hremoves => ?_⟩
    -- the path that was removed is no longer in the list
    rcases hremove with ⟨devpath, parentpath, hbranch, rfl⟩
    rcases hremoves with ⟨devpath', parentpath', hbranch', rfl⟩
    rw [hbranch] at hbranch'
    cases hbranch'
    simp at hp

theorem HidListValid.unchanged {s' : State σ} (hvalid : HidListValid h s)
    (hsame : s'.usb.hidDevs = s.usb.hidDevs)
    (hquiet : ∀ x, e = .uevent x → ∀ p, ¬ x.Binds p ∧ ¬ x.Removes p) :
    HidListValid (h ++ [e]) s' := by
  constructor
  · rw [hsame]
    exact hvalid.nodup
  · intro p hp
    rw [hsame] at hp
    exact connected_snoc (fun x hx => hquiet x hx p) (hvalid.connected p hp)

theorem hidListValid_of_fresh (hstart : Constructed s₀) (hrun : Run (Step w rely) s₀ h s)
    (hfresh : BindsFresh w rely s₀ h) : HidListValid h s := by
  induction hrun with
  | nil =>
      have hempty : s₀.usb.hidDevs = [] := hstart.1
      refine ⟨hempty ▸ List.nodup_nil, ?_⟩
      intro path hpath
      rw [hempty] at hpath
      cases hpath
  | @snoc h t u e hpre hstep ih =>
      have hvalid := ih hfresh.init
      cases e with
      | other =>
          refine hvalid.unchanged ?_ fun x hx => by cases hx
          cases hstep
          rfl
      | uevent x =>
          by_cases hbind : ∃ p, x.Binds p
          · rcases hbind with ⟨p, hp⟩
            refine hvalid.bind hstep hp ?_
            refine hfresh h.length x p t (handledAt_snoc.2 (Or.inr ⟨rfl, rfl⟩)) hp ?_
            rwa [List.take_left]
          by_cases hremove : ∃ p, x.Removes p
          · rcases hremove with ⟨p, hp⟩
            exact hvalid.remove hstep hp
          · refine hvalid.unchanged
              (hstep.hidDevs_unchanged (not_exists.1 hbind) (not_exists.1 hremove)) ?_
            rintro y hy p
            cases hy
            exact ⟨fun hbinds => hbind ⟨p, hbinds⟩, fun hremoves => hremove ⟨p, hremoves⟩⟩

/-- A bind event of a listed device adds it a second time, or leaves an entry whose check failed. -/
theorem not_valid_of_listed {x : Handled} {s' : State σ} {path : Text}
    (hstep : Step w rely s (.uevent x) s') (hbind : x.Binds path) (hlisted : path ∈ s.usb.hidDevs) :
    ¬ HidListValid (h ++ [.uevent x]) s' := by
  intro hvalid
  rcases hstep.bind_hidDevs hbind with ⟨_, heq⟩ | ⟨hnot, heq⟩
  · have hnodup := hvalid.nodup
    rw [heq, List.nodup_append] at hnodup
    exact hnodup.2.2 path hlisted path List.mem_cons_self rfl
  · rcases hvalid.connected path (heq ▸ hlisted) with ⟨i, y, hi, _, hfound, hlater⟩
    rcases handledAt_snoc.1 hi with hold | ⟨_, hy⟩
    · exact (hlater h.length x hold.lt_length (handledAt_snoc.2 (Or.inr ⟨rfl, rfl⟩))).1 hbind
    · cases hy
      exact hnot hfound

theorem bindsFresh_of_valid (hrun : Run (Step w rely) s₀ h s)
    (hvalid : ∀ k t, Run (Step w rely) s₀ (h.take k) t → HidListValid (h.take k) t) :
    BindsFresh w rely s₀ h := by
  intro i x path t hi hbind hpre hlisted
  rcases hrun.atIndex hi with ⟨t₁, t₂, hpre₁, hstep, _⟩
  rw [hidDevs_determined hpre hpre₁] at hlisted
  have hafter := hvalid (i + 1) t₂
  rw [take_succ_eq hi] at hafter
  exact not_valid_of_listed hstep hbind hlisted (hafter (Run.snoc _ hpre₁ hstep))

/-- Along every run from a constructed object, the list tracks the HID devices exactly if no bind
event is handled for a device that is in the list. -/
theorem tracksDevices_iff (hstart : Constructed s₀) (hrun : Run (Step w rely) s₀ h s) :
    TracksDevices w rely s₀ h ↔ BindsFresh w rely s₀ h := by
  constructor
  · exact fun htracks => bindsFresh_of_valid hrun htracks.valid
  · intro hfresh
    constructor
    · intro k t hpre
      refine hidListValid_of_fresh hstart hpre ?_
      intro i x path u hi hbind hrun'
      rcases getElem?_of_take hi with ⟨hik, hi⟩
      rw [List.take_take, Nat.min_eq_left (Nat.le_of_lt hik)] at hrun'
      exact hfresh i x path u hi hbind hrun'
    · intro k x path t t' _ hremove _ hstep
      rw [hstep.remove_hidDevs hremove, List.filter_filter]
      simp

end Runs

/-! ## A keyboard with two interfaces -/

/-- A system in which every device has two HID interfaces and the display is on. -/
def World.keyboard : World Unit :=
  { World.idle with
    readFile := fun _ x => (some "03", x)
    listDirectory := fun _ x => (some [⟨.DT_DIR, "1-1:1.0"⟩, ⟨.DT_DIR, "1-1:1.1"⟩], x) }

def keyboard : Text := "/devices/platform/soc/a600000.dwc3/xhci-hcd.0.auto/usb1/1-1"

def bindKeyboard (intf : Text) : Text := "bind@" ++ keyboard ++ "/" ++ intf

theorem keyboard_branch (s : State Unit) (buf : Text) :
    World.keyboard.branch s buf = World.idle.branch s buf := rfl

theorem branch_bindKeyboard :
    World.idle.branch (.initial ()) (bindKeyboard "1-1:1.0") = .bind keyboard "1-1:1.0" ∧
      World.idle.branch (.initial ()) (bindKeyboard "1-1:1.1") = .bind keyboard "1-1:1.1" := by
  decide +kernel

/-- The state after the first interface was bound. -/
def afterBind : State Unit := World.keyboard.after (.initial ()) (bindKeyboard "1-1:1.0")

def firstBind : Handled := World.keyboard.handled (.initial ()) (bindKeyboard "1-1:1.0")
def secondBind : Handled := World.keyboard.handled afterBind (bindKeyboard "1-1:1.1")

theorem firstBind_step : Step World.keyboard Eq (.initial ()) (.uevent firstBind) afterBind := by
  refine World.handles ?_
  rw [run_uevent_event, World.body, keyboard_branch, branch_bindKeyboard.1]
  decide +kernel

theorem afterBind_mIgnoreWakeup : afterBind.usb.mIgnoreWakeup = false := by
  rw [afterBind, World.after_mIgnoreWakeup]
  rfl

theorem secondBind_branch : World.keyboard.branch afterBind (bindKeyboard "1-1:1.1") =
    .bind keyboard "1-1:1.1" := by
  rw [keyboard_branch, World.idle_branch afterBind_mIgnoreWakeup]
  exact branch_bindKeyboard.2

theorem afterBind_listed : ("/sys" ++ keyboard) ∈ afterBind.usb.hidDevs := by
  rw [afterBind, World.after, run_uevent_event, World.body, keyboard_branch, branch_bindKeyboard.1]
  decide +kernel

theorem secondBind_step : Step World.keyboard Eq afterBind (.uevent secondBind)
    (World.keyboard.after afterBind (bindKeyboard "1-1:1.1")) := by
  refine World.handles ?_
  rw [run_uevent_event, World.body, secondBind_branch, afterBind, World.after, run_uevent_event,
    World.body, keyboard_branch, branch_bindKeyboard.1]
  decide +kernel

/-- One interface: the device is listed once. -/
theorem keyboard_tracked : TracksDevices World.keyboard Eq (.initial ()) [.uevent firstBind] := by
  have hstart : Constructed (.initial () : State Unit) := ⟨rfl, rfl, rfl, rfl⟩
  refine (tracksDevices_iff hstart (Run.single firstBind_step)).2 ?_
  intro i x path t hi _ hrun hlisted
  have hzero : i = 0 := Nat.lt_one_iff.1 hi.lt_length
  subst hzero
  rw [List.take_zero] at hrun
  rw [hrun.nil_inv] at hlisted
  cases hlisted

def bothInterfaces : List Event := [.uevent firstBind, .uevent secondBind]

theorem bothInterfaces_run : Run (Step World.keyboard Eq) (.initial ()) bothInterfaces
    (World.keyboard.after afterBind (bindKeyboard "1-1:1.1")) :=
  Run.cons firstBind_step (Run.single secondBind_step)

theorem bothInterfaces_listed : ¬ BindsFresh World.keyboard Eq (.initial ()) bothInterfaces := by
  intro hfresh
  have hsecond : handledAt bothInterfaces 1 secondBind := rfl
  have hbinds : secondBind.Binds ("/sys" ++ keyboard) := by
    refine ⟨keyboard, "1-1:1.1", ?_, rfl⟩
    rw [secondBind, World.handled_branch, secondBind_branch]
  have hpre : Run (Step World.keyboard Eq) (.initial ()) (bothInterfaces.take 1) afterBind :=
    Run.single firstBind_step
  exact hfresh 1 secondBind _ afterBind hsecond hbinds hpre afterBind_listed

/-- Both interfaces: the device is listed twice. -/
theorem keyboard_twice :
    Constructed (.initial () : State Unit) ∧
      Run (Step World.keyboard Eq) (.initial ()) bothInterfaces
        (World.keyboard.after afterBind (bindKeyboard "1-1:1.1")) ∧
      ¬ TracksDevices World.keyboard Eq (.initial ()) bothInterfaces := by
  refine ⟨⟨rfl, rfl, rfl, rfl⟩, bothInterfaces_run, fun htracks => ?_⟩
  exact bothInterfaces_listed (bindsFresh_of_valid bothInterfaces_run htracks.valid)

end UsbHal
end M2391Device
