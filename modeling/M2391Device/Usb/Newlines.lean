import M2391Device.Lib.TwoRuns
import M2391Device.Usb.SwitchMode
import M2391Device.Usb.DataControl
import M2391Device.Usb.PortReports

/-!
# Newlines — attributes with and without their trailing newline

sysfs ends the content of an attribute with a newline.  Most functions trim what they read, look at
its first character or take out the bracketed word, and cannot tell whether the newline is there.
`manageHidPower` and `resetUsbPort` compare the raw text with a word.
-/

namespace M2391Device
namespace UsbHal

open Program

universe u v

/-! ## Two more functions -/

/-- The part of `switchRole` that writes a role of power or data, and reads it back. -/
def writeRole (portName : Text) (newRole : PortRole) : Hal Bool := do
  let ret ← WriteStringToFile (convertRoletoString newRole)
    (appendRoleNodeHelper portName newRole.tag)
  if !ret then return false
  match ← ReadFileToString (appendRoleNodeHelper portName newRole.tag) with
  | none => return false
  | some written => return decide (extractRole written = convertRoletoString newRole)

/-- `switchRole(portName, newRole, in_transactionId)` for a role of power or data; a mode goes
through `switchMode` instead, which reads nothing back. -/
def switchRole (portName : Text) (newRole : PortRole) (in_transactionId : Int) : Hal Unit := do
  if appendRoleNodeHelper portName newRole.tag = [] then return ()
  else
    let roleSwitch ← writeRole portName newRole
    let usb ← fields
    if usb.mCallback then
      notify (.roleSwitchStatus portName newRole (if roleSwitch then .SUCCESS else .ERROR)
        in_transactionId)
    else return ()

/-- `resetUsbPort` with the mode it has read: nothing is done while disconnected. -/
def toggleMode (dwcDriver : Text) : Option Text → Hal Status
  | none => return .ERROR
  | some mode =>
      if mode = "none" then return .SUCCESS
      else do
        let ret ← WriteStringToFile "none" (dwcDriver ++ "mode")
        if !ret then return .ERROR
        let ret ← WriteStringToFile (c_str mode) (dwcDriver ++ "mode")
        return if ret then .SUCCESS else .ERROR

/-- The mode of a controller that was found. -/
def readMode (dwcDriver : Text) : Hal (Option Text) := ReadFileToString (dwcDriver ++ "mode")

/-- `resetUsbPort` up to the label `out`. -/
def resetController : Hal Status := do
  let dwcDriver ← getUsbControllerPath
  if dwcDriver = [] then return .ERROR
  else
    let mode ← readMode dwcDriver
    toggleMode dwcDriver mode

/-- `resetUsbPort(in_portName, in_transactionId)` -/
def resetUsbPort (in_portName : Text) (in_transactionId : Int) : Hal Unit := do
  let status ← resetController
  let usb ← fields
  if usb.mCallback then notify (.resetUsbPortStatus in_portName status in_transactionId)
  else return ()

/-! ## The same but for a newline -/

def SameText (text text' : Text) : Prop :=
  text = text' ∨ text' = text ++ ['\n'] ∨ text = text' ++ ['\n']

/-- The attributes with a single value that the functions read. -/
def singleValued : List Text :=
  ["/power_operation_mode", "/accessory_mode", "/power_role", "/data_role",
    "/power/runtime_status", "/mode"]

def IsSingleValued (path : Text) : Prop := ∃ name ∈ singleValued, name <:+ path

/-- The form in which the kernel shows the roles of a port, the current one in brackets. -/
def Bracketed (text : Text) : Prop :=
  ∃ before role after, text = before ++ '[' :: (role ++ ']' :: after) ∧ '[' ∉ before ∧
    ']' ∉ before ∧ ']' ∉ role

/-- The same answer, but for a newline at the end of a single value. -/
inductive SameAnswer : Answered Op Res → Answered Op Res → Prop where
  | same (o : Answered Op Res) : SameAnswer o o
  | read {path text text' : Text} :
      IsSingleValued path → SameText text text' →
      (IsRole path → Bracketed text ∧ Bracketed text') →
      SameAnswer ⟨.readFile path, some text⟩ ⟨.readFile path, some text'⟩
  /-- A value that is copied back. -/
  | write {content content' path : Text} {ok : Bool} :
      SameText content content' →
      SameAnswer ⟨.writeFile content path, ok⟩ ⟨.writeFile content' path, ok⟩

inductive SameRequest : Op → Op → Prop where
  | same (o : Op) : SameRequest o o
  | write {content content' path : Text} :
      SameText content content' → SameRequest (.writeFile content path) (.writeFile content' path)

/-- Two systems that differ only in such newlines. -/
def Twins {σ : Type u} {τ : Type v} (w : World σ) (w' : World τ) (sim : σ → τ → Prop) : Prop :=
  Simulates SameRequest SameAnswer w.step w'.step
    fun (s : State σ) (t : State τ) => s.usb = t.usb ∧ sim s.world t.world

section Texts

variable {text text' path : Text} {c : Char}

instance : Decidable (IsSingleValued path) := inferInstanceAs (Decidable (∃ name ∈ singleValued, _))

theorem SameText.symm (h : SameText text text') : SameText text' text := by
  rcases h with rfl | rfl | rfl
  · exact Or.inl rfl
  · exact Or.inr (Or.inr rfl)
  · exact Or.inr (Or.inl rfl)

theorem trim_newline (text : Text) : trim (text ++ ['\n']) = trim text := by
  have hspace : isSpace '\n' = true := by decide
  rw [trim, trim, List.reverse_append, List.reverse_singleton, List.singleton_append,
    List.dropWhile_cons_of_pos hspace]

theorem SameText.trim (h : SameText text text') : UsbHal.trim text = UsbHal.trim text' := by
  rcases h with rfl | rfl | rfl
  · rfl
  · exact (trim_newline text).symm
  · exact trim_newline text'

theorem head_newline (text : Text) (hc : c ≠ '\n') :
    (text ++ ['\n']).head? = some c ↔ text.head? = some c := by
  cases text with
  | nil => simp [hc.symm]
  | cons a rest => simp

theorem SameText.head (h : SameText text text') (hc : c ≠ '\n') :
    text.head? = some c ↔ text'.head? = some c := by
  rcases h with rfl | rfl | rfl
  · exact Iff.rfl
  · exact (head_newline text hc).symm
  · exact head_newline text' hc

theorem findIdx?_between {before after : Text} (hc : c ∉ before) :
    (before ++ c :: after).findIdx? (· = c) = some before.length := by
  induction before with
  | nil => simp [List.findIdx?_cons]
  | cons a before ih =>
      have hac : a ≠ c := fun heq => hc (heq ▸ List.mem_cons_self)
      have hnext := ih fun hmem => hc (List.mem_cons_of_mem a hmem)
      rw [List.cons_append, List.findIdx?_cons]
      simp [hac, hnext]

/-- What stands in the first brackets, whatever follows them. -/
theorem extractRole_bracketed {before role after : Text} (hopen : '[' ∉ before)
    (hclose : ']' ∉ before) (hrole : ']' ∉ role) :
    extractRole (before ++ '[' :: (role ++ ']' :: after)) = role := by
  have hfirst : (before ++ '[' :: (role ++ ']' :: after)).findIdx? (· = '[') = some before.length :=
    findIdx?_between hopen
  have hlast : (before ++ '[' :: (role ++ ']' :: after)).findIdx? (· = ']') =
      some (before.length + 1 + role.length) := by
    have hnone : ']' ∉ before ++ '[' :: role := by
      rw [List.mem_append, List.mem_cons]
      rintro (hmem | heq | hmem)
      · exact hclose hmem
      · exact absurd heq (by decide)
      · exact hrole hmem
    have hsplit : before ++ '[' :: (role ++ ']' :: after) =
        (before ++ '[' :: role) ++ ']' :: after := by simp
    rw [hsplit, findIdx?_between hnone]
    simp only [List.length_append, List.length_cons]
    congr 1
    omega
  have hrest : (before ++ '[' :: (role ++ ']' :: after)).drop (before.length + 1) =
      role ++ ']' :: after := by
    rw [← List.drop_drop, List.drop_left, List.drop_succ_cons, List.drop_zero]
  have hlt : before.length < before.length + 1 + role.length := by omega
  have hwidth : before.length + 1 + role.length - before.length - 1 = role.length := by omega
  simp only [extractRole, hfirst, hlast, hrest, if_pos hlt, hwidth, List.take_left']

theorem extractRole_newline (h : Bracketed text) :
    extractRole (text ++ ['\n']) = extractRole text := by
  rcases h with ⟨before, role, after, rfl, hopen, hclose, hrole⟩
  have hlonger : before ++ '[' :: (role ++ ']' :: after) ++ ['\n'] =
      before ++ '[' :: (role ++ ']' :: (after ++ ['\n'])) := by simp
  rw [hlonger, extractRole_bracketed hopen hclose hrole, extractRole_bracketed hopen hclose hrole]

theorem SameText.extractRole (h : SameText text text') (ht : Bracketed text)
    (ht' : Bracketed text') : UsbHal.extractRole text = UsbHal.extractRole text' := by
  rcases h with rfl | rfl | rfl
  · rfl
  · exact (extractRole_newline ht).symm
  · exact extractRole_newline ht'

theorem c_str_newline (text : Text) :
    c_str (text ++ ['\n']) = c_str text ∨ c_str (text ++ ['\n']) = c_str text ++ ['\n'] := by
  induction text with
  | nil => exact Or.inr rfl
  | cons a rest ih =>
      by_cases ha : a ≠ Char.ofNat 0
      · simp only [c_str] at ih ⊢
        rw [List.cons_append, List.takeWhile_cons_of_pos (by simpa using ha),
          List.takeWhile_cons_of_pos (by simpa using ha)]
        simpa using ih
      · refine Or.inl ?_
        simp only [c_str]
        rw [List.cons_append, List.takeWhile_cons_of_neg (by simpa using ha),
          List.takeWhile_cons_of_neg (by simpa using ha)]

theorem SameText.c_str (h : SameText text text') : SameText (UsbHal.c_str text) (UsbHal.c_str text') := by
  rcases h with rfl | rfl | rfl
  · exact Or.inl rfl
  · rcases c_str_newline text with heq | heq
    · exact Or.inl heq.symm
    · exact Or.inr (Or.inl heq)
  · rcases c_str_newline text' with heq | heq
    · exact Or.inl heq
    · exact Or.inr (Or.inr heq)

end Texts

/-! ## Functions that cannot tell -/

section Blind

variable {α β : Type} {path portName : Text} {connected : Bool}

/-- A program that does the same with and without the newlines. -/
abbrev Blind (p : Hal α) : Prop := Related SameRequest SameAnswer Eq p p

/-- Operations whose answers no newline changes. -/
def Op.Plain (o : Op) : Prop := ∀ path, o = .readFile path → ¬ IsSingleValued path

theorem same_of_plain {o : Op} (ho : o.Plain) (r r' : Res o) (h : SameAnswer ⟨o, r⟩ ⟨o, r'⟩) :
    r = r' := by
  generalize hx : (⟨o, r⟩ : Answered Op Res) = x at h
  generalize hy : (⟨o, r'⟩ : Answered Op Res) = y at h
  cases h with
  | same z =>
      rw [← hx] at hy
      cases hy
      rfl
  | read hpath _ _ =>
      cases hx
      exact absurd hpath (ho _ rfl)
  | write _ =>
      cases hx
      cases hy
      rfl

/-- What a file may read as in the two systems. -/
theorem read_cases {r r' : Option Text}
    (h : SameAnswer ⟨.readFile path, r⟩ ⟨.readFile path, r'⟩) :
    r = r' ∨ ∃ text text', r = some text ∧ r' = some text' ∧ SameText text text' ∧
      (IsRole path → Bracketed text ∧ Bracketed text') := by
  generalize hx : (⟨.readFile path, r⟩ : Answered Op Res) = x at h
  generalize hy : (⟨.readFile path, r'⟩ : Answered Op Res) = y at h
  cases h with
  | same z =>
      rw [← hx] at hy
      cases hy
      exact Or.inl rfl
  | read hpath htext hrole =>
      cases hx
      cases hy
      exact Or.inr ⟨_, _, rfl, rfl, htext, hrole⟩
  | write _ => cases hx

theorem write_same {content content' path' : Text} {ok ok' : Bool}
    (h : SameAnswer ⟨.writeFile content path, ok⟩ ⟨.writeFile content' path', ok'⟩) : ok = ok' := by
  generalize hx : (⟨.writeFile content path, ok⟩ : Answered Op Res) = x at h
  generalize hy : (⟨.writeFile content' path', ok'⟩ : Answered Op Res) = y at h
  cases h with
  | same z =>
      rw [← hx] at hy
      cases hy
      rfl
  | read _ _ _ => cases hx
  | write _ =>
      cases hx
      cases hy
      rfl

theorem Blind.bind {p : Hal α} {f : α → Hal β} (hp : Blind p) (hf : ∀ a, Blind (f a)) :
    Blind (p >>= f) :=
  Related.bind hp fun a a' haa' => by
    subst haa'
    exact hf a

theorem blind_pure (a : α) : Blind (Pure.pure a : Hal α) := Related.pure rfl

/-- A program that reads no such file. -/
theorem blind_of_footprint {p : Hal α} {f : Footprint} (hp : p.Performs (Op.In f))
    (hf : ∀ path, f.reads path → ¬ IsSingleValued path) : Blind p := by
  have hplain : p.Performs Op.Plain := by
    refine hp.mono ?_
    rintro _ ho path rfl
    exact hf path ho
  exact Related.of_performs hplain (fun o _ => .same o) fun _ ho => same_of_plain ho

theorem blind_call {o : Op} (ho : o.Plain) : Blind (Program.call o : Hal (Res o)) :=
  Related.call (.same o) (same_of_plain ho)

/-- A file that is read for something that no newline changes. -/
theorem Blind.read {f : Option Text → Hal β} {γ : Type} (look : Option Text → γ)
    (hlook : ∀ r r', SameAnswer ⟨.readFile path, r⟩ ⟨.readFile path, r'⟩ → look r = look r')
    (hf : ∀ r r', look r = look r' → Related SameRequest SameAnswer Eq (f r) (f r')) :
    Blind (ReadFileToString path >>= f) :=
  Related.bind (Related.call (.same _) hlook) hf

theorem blind_write (content path : Text) : Blind (WriteStringToFile content path) :=
  blind_call fun _ h => by cases h

theorem blind_assign (a : Assignment) : Blind (assign a) := blind_call fun _ h => by cases h

theorem blind_notify (n : Notification) : Blind (notify n) := blind_call fun _ h => by cases h

theorem blind_fields : Blind fields := blind_call fun _ h => by cases h

theorem blind_access (path : Text) (writable : Bool) : Blind (access path writable) :=
  Related.ite (fun _ => blind_pure _) fun _ =>
    blind_call (o := .access path writable) fun _ h => by cases h

theorem blind_orTerminate (x : Except Terminated α) : Blind (orTerminate x) := by
  cases x
  · exact rfl
  · exact blind_pure _

/-- The bracketed word of a role is the same. -/
theorem extractRole_same {r r' : Option Text} (hpath : IsRole path)
    (h : SameAnswer ⟨.readFile path, r⟩ ⟨.readFile path, r'⟩) :
    r.map extractRole = r'.map extractRole := by
  rcases read_cases h with rfl | ⟨text, text', rfl, rfl, htext, hrole⟩
  · rfl
  · rcases hrole hpath with ⟨hbracketed, hbracketed'⟩
    exact congrArg some (htext.extractRole hbracketed hbracketed')

theorem trim_same {r r' : Option Text}
    (h : SameAnswer ⟨.readFile path, r⟩ ⟨.readFile path, r'⟩) : r.map trim = r'.map trim := by
  rcases read_cases h with rfl | ⟨text, text', rfl, rfl, htext, _⟩
  · rfl
  · exact congrArg some htext.trim

theorem head_same {c : Char} (hc : c ≠ '\n') {r r' : Option Text}
    (h : SameAnswer ⟨.readFile path, r⟩ ⟨.readFile path, r'⟩) :
    r.map (fun text => decide (text.head? = some c)) =
      r'.map fun text => decide (text.head? = some c) := by
  rcases read_cases h with rfl | ⟨text, text', rfl, rfl, htext, _⟩
  · rfl
  · simp only [Option.map_some, htext.head hc]

theorem readCurrentRole_blind {tag : RoleTag} : Blind (readCurrentRole portName tag) := by
  refine Blind.read (fun r => r.map extractRole) (fun r r' => extractRole_same ?_) ?_
  · by_cases htag : tag = .powerRole
    · rw [if_pos htag]
      exact Or.inl (List.suffix_append _ _)
    · rw [if_neg htag]
      exact Or.inr (List.suffix_append _ _)
  · rintro (_ | text) (_ | text') heq
    · exact blind_pure _
    · cases heq
    · cases heq
    · have hsame : extractRole text = extractRole text' := Option.some.inj heq
      simp only [hsame]
      cases roleOfName tag (extractRole text') <;> exact blind_pure _

theorem getAccessoryConnected_blind : Blind (getAccessoryConnected portName) := by
  refine Blind.read (fun r => r.map trim) (fun r r' => trim_same) fun r r' heq => ?_
  exact Related.pure heq

theorem getCurrentRoleHelper_blind {tag : RoleTag} :
    Blind (getCurrentRoleHelper portName connected tag) := by
  refine Related.ite (fun _ => blind_pure _) fun _ => ?_
  refine Related.ite (fun _ => readCurrentRole_blind) fun _ => ?_
  refine Blind.bind getAccessoryConnected_blind ?_
  rintro (_ | accessory)
  · exact blind_pure _
  · exact Related.ite (fun _ => blind_pure _) fun _ =>
      Related.ite (fun _ => blind_pure _) fun _ => readCurrentRole_blind

theorem readRoles_blind : Blind (readRoles portName connected) := by
  refine Blind.bind getCurrentRoleHelper_blind fun ⟨result, role⟩ => ?_
  refine Related.ite (fun _ => blind_pure _) fun _ => ?_
  refine Blind.bind (blind_orTerminate _) fun power => ?_
  refine Blind.bind getCurrentRoleHelper_blind fun ⟨result, role⟩ => ?_
  refine Related.ite (fun _ => blind_pure _) fun _ => ?_
  refine Blind.bind (blind_orTerminate _) fun data => ?_
  refine Blind.bind getCurrentRoleHelper_blind fun ⟨result, role⟩ => ?_
  refine Related.ite (fun _ => blind_pure _) fun _ => ?_
  exact Blind.bind (blind_orTerminate _) fun mode => blind_pure _

theorem canSwitchRole_blind : Blind (canSwitchRole portName connected) := by
  refine Related.ite (fun _ => ?_) fun _ => blind_pure _
  refine Blind.read (fun r => r.map fun text => decide (text.head? = some 'y'))
    (fun r r' => head_same (by decide)) ?_
  rintro (_ | text) (_ | text') heq
  · exact blind_pure _
  · cases heq
  · cases heq
  · exact Related.pure (Option.some.inj heq)

theorem isConnectedToUsbPowerBrick_blind : Blind isConnectedToUsbPowerBrick := by
  refine Blind.read (fun r => r.map trim) (fun r r' => trim_same) ?_
  rintro (_ | text) (_ | text') heq
  · exact blind_pure _
  · cases heq
  · cases heq
  · have hsame : trim text = trim text' := Option.some.inj heq
    refine Related.pure ?_
    simp only [Option.any_some, hsame]

/-- The text on contaminants is only looked at for its first character. -/
theorem firstPortStatus_blind {status : PortStatus} : Blind (firstPortStatus path status) := by
  have hpresence : Related SameRequest SameAnswer
      (fun r r' : Option Text => r.map (fun text => decide (text.head? = some '1')) =
        r'.map fun text => decide (text.head? = some '1'))
      (readContaminantPresence path) (readContaminantPresence path) :=
    Related.ite (fun _ => Related.pure rfl) fun _ =>
      Related.call (.same _) fun r r' => head_same (by decide)
  refine Related.bind hpresence ?_
  rintro (_ | text) (_ | text') heq
  · exact Blind.bind isConnectedToUsbPowerBrick_blind fun _ => blind_pure _
  · cases heq
  · cases heq
  · have hsame : (text.head? = some '1') = (text'.head? = some '1') := by
      simpa using Option.some.inj heq
    simp only [hsame]
    exact Blind.bind isConnectedToUsbPowerBrick_blind fun _ => blind_pure _

theorem portStatus_blind : Blind (portStatus path portName connected) := by
  refine Blind.bind readRoles_blind fun ⟨complete, status⟩ => ?_
  refine Related.ite (fun _ => blind_pure _) fun _ => ?_
  refine Blind.bind (blind_access _ _) fun writable => ?_
  refine Blind.bind canSwitchRole_blind fun canChangeDataRole => ?_
  refine Blind.bind canSwitchRole_blind fun canChangePowerRole => ?_
  refine Blind.bind blind_fields fun usb => ?_
  refine Related.ite (fun _ => blind_pure _) fun _ => ?_
  exact Blind.bind firstPortStatus_blind fun _ => blind_pure _

theorem portStatuses_blind {names : List (Text × Bool)} : Blind (portStatuses path names) := by
  induction names with
  | nil => exact blind_pure _
  | cons name rest ih =>
      refine Blind.bind portStatus_blind fun ⟨complete, status⟩ => ?_
      exact Related.ite (fun _ => blind_pure _) fun _ => Blind.bind ih fun _ => blind_pure _

theorem getPortStatusHelper_blind : Blind (getPortStatusHelper path) := by
  have hnames : Blind getTypeCPortNamesHelper :=
    blind_of_footprint getTypeCPortNamesHelper_footprint fun _ h => h.elim
  refine Blind.bind hnames fun names => Related.ite (fun _ => blind_pure _) fun _ => ?_
  refine Blind.bind (blind_call fun _ h => by cases h) fun order => ?_
  exact Blind.bind portStatuses_blind fun _ => blind_pure _

theorem handlePowerMode_blind : Blind handlePowerMode := by
  refine Blind.read (fun r => r.map trim) (fun r r' => trim_same) ?_
  rintro (_ | text) (_ | text') heq
  · exact blind_pure _
  · cases heq
  · cases heq
  · have hsame : trim text = trim text' := Option.some.inj heq
    simp only [hsame]
    refine Blind.bind blind_fields fun usb => ?_
    refine Related.ite (fun _ => blind_assign _) fun _ => ?_
    refine Related.ite (fun _ => ?_) fun _ => ?_
    · have hattribute : ∀ path, IsPowerAttribute path → ¬ IsSingleValued path := by
        rintro _ (rfl | rfl) <;> decide +kernel
      exact Blind.bind (blind_of_footprint overridePower_footprint hattribute) fun _ => blind_assign _
    · have hrestore : Blind (restorePower usb) :=
        blind_of_footprint (restorePower_footprint usb) fun _ h => h.elim
      exact Blind.bind hrestore fun _ => blind_assign _

theorem handle_typec_uevent_blind (msg : Text) : Blind (handle_typec_uevent msg) := by
  rw [handle_typec_uevent_eq]
  refine Blind.bind (Related.ite (fun _ => blind_assign _) fun _ => blind_pure _) fun _ => ?_
  refine Blind.bind handlePowerMode_blind fun _ => ?_
  refine Blind.bind (Blind.bind blind_fields fun usb => ?_) fun statuses => ?_
  · refine Related.ite (fun _ => ?_) fun _ => blind_pure _
    refine Blind.bind getPortStatusHelper_blind fun ⟨status, statuses⟩ => ?_
    exact Blind.bind (blind_notify _) fun _ => blind_pure _
  · refine Blind.bind (blind_call fun _ h => by cases h) fun locked => ?_
    refine Related.ite (fun _ => Related.each fun port _ => ?_) fun _ => blind_pure _
    exact blind_of_footprint (switchDisconnected_footprint port) fun _ h => h.elim

theorem isRole_node {newRole : PortRole} (hmode : newRole.tag ≠ .mode)
    (hnode : appendRoleNodeHelper portName newRole.tag ≠ []) :
    IsRole (appendRoleNodeHelper portName newRole.tag) := by
  rw [appendRoleNodeHelper] at hnode ⊢
  by_cases hname : portName = ".." ∨ '/' ∈ portName
  · exact absurd (if_pos hname) hnode
  · rw [if_neg hname]
    cases htag : newRole.tag with
    | powerRole => exact Or.inl (List.suffix_append _ _)
    | dataRole => exact Or.inr (List.suffix_append _ _)
    | mode => exact absurd htag hmode

theorem switchRole_blind {newRole : PortRole} (hmode : newRole.tag ≠ .mode)
    (in_transactionId : Int) : Blind (switchRole portName newRole in_transactionId) := by
  refine Related.ite (fun _ => blind_pure _) fun hnode => ?_
  refine Blind.bind (Blind.bind (blind_write _ _) fun ret => ?_) fun roleSwitch => ?_
  · refine Related.ite (fun _ => blind_pure _) fun _ => ?_
    refine Blind.read (fun r => r.map extractRole)
      (fun r r' => extractRole_same (isRole_node hmode hnode)) ?_
    rintro (_ | text) (_ | text') heq
    · exact blind_pure _
    · cases heq
    · cases heq
    · have hsame : extractRole text = extractRole text' := Option.some.inj heq
      refine Related.pure ?_
      simp only [hsame]
  · refine Blind.bind blind_fields fun usb => ?_
    exact Related.ite (fun _ => blind_notify _) fun _ => blind_pure _

end Blind

/-! ## Functions that can -/

/-- The two runs of a function take the same way: the same result, and the same operations with the
same answers but for the newlines. -/
structure SameRun {σ : Type u} {τ : Type v} {α : Type} (w : World σ) (w' : World τ) (p : Hal α)
    (s : State σ) (t : State τ) : Prop where
  result : (p.run w.step s).1 = (p.run w'.step t).1
  ops : List.Forall₂ SameAnswer (p.trace w.step s) (p.trace w'.step t)

/-- What `resetUsbPort` reads as the mode of the controller, if it finds one. -/
def controllerMode : Hal (Option Text) := do
  let dwcDriver ← getUsbControllerPath
  if dwcDriver = [] then return none else readMode dwcDriver

/-- The functions of the HAL, run in the two systems. -/
structure NewlineBlind {σ : Type u} {τ : Type v} (w : World σ) (w' : World τ) (s : State σ)
    (t : State τ) : Prop where
  getCurrentRoleHelper : ∀ portName connected tag,
    SameRun w w' (UsbHal.getCurrentRoleHelper portName connected tag) s t
  switchRole : ∀ portName newRole in_transactionId, newRole.tag ≠ .mode →
    SameRun w w' (UsbHal.switchRole portName newRole in_transactionId) s t
  handle_typec_uevent : ∀ msg, SameRun w w' (UsbHal.handle_typec_uevent msg) s t
  manageHidPower : ∀ path allow, SameRun w w' (UsbHal.manageHidPower path allow) s t
  resetUsbPort : ∀ in_portName in_transactionId,
    SameRun w w' (UsbHal.resetUsbPort in_portName in_transactionId) s t

/-- A value is read in both systems without its newline, or in neither. -/
def SameWord {α : Type} (word r r' : α) : Prop := r = word ↔ r' = word

section Twins

variable {σ : Type u} {τ : Type v} {w : World σ} {w' : World τ} {sim : σ → τ → Prop} {s : State σ}
  {t : State τ} {α : Type} {path : Text} {allow : Bool}

/-- The states of the two systems, with the same object. -/
abbrev SimState (sim : σ → τ → Prop) (s : State σ) (t : State τ) : Prop :=
  s.usb = t.usb ∧ sim s.world t.world

abbrev AgreeOn (w : World σ) (w' : World τ) (sim : σ → τ → Prop) (p q : Hal α) (s : State σ)
    (t : State τ) : Prop :=
  Agree SameAnswer w.step w'.step (SimState sim) Eq p q s t

theorem eq_of_alike {x y : Except Terminated α} (h : ResultsAlike Eq x y) : x = y := by
  cases h with
  | ok heq => exact congrArg Except.ok heq
  | error e => rfl

theorem AgreeOn.sameRun {p : Hal α} (h : AgreeOn w w' sim p p s t) : SameRun w w' p s t :=
  ⟨eq_of_alike h.results, h.traces⟩

theorem Blind.sameRun {p : Hal α} (hp : Blind p) (htwins : Twins w w' sim)
    (hst : SimState sim s t) : SameRun w w' p s t :=
  AgreeOn.sameRun (Related.agree htwins hp hst)

/-- A file that is read in both systems. -/
theorem agree_read {β : Type} {f g : Option Text → Hal β} (htwins : Twins w w' sim)
    (hst : SimState sim s t)
    (hf : ∀ r r', r = (w.readFile path s.world).1 → r' = (w'.readFile path t.world).1 →
      SameAnswer ⟨.readFile path, r⟩ ⟨.readFile path, r'⟩ →
      Related SameRequest SameAnswer Eq (f r) (g r')) :
    AgreeOn w w' sim (ReadFileToString path >>= f) (ReadFileToString path >>= g) s t := by
  rcases htwins (.readFile path) (.readFile path) s t (.same _) hst with ⟨hsame, hst'⟩
  have hrest := Related.agree htwins (hf _ _ rfl rfl hsame) hst'
  exact ⟨hrest.results, hrest.states, .cons hsame hrest.traces⟩

theorem setAutosuspend_blind : Blind (setAutosuspend path allow) :=
  blind_of_footprint setAutosuspend_footprint fun _ h => h.elim

/-- The write that follows the state of a HID device. -/
theorem manageHidPower_trace (w : World σ) (s : State σ) (path : Text) (allow : Bool) :
    ∃ x rest, (manageHidPower path allow).trace w.step s =
        ⟨.readFile (path ++ "/power/runtime_status"),
          (w.readFile (path ++ "/power/runtime_status") s.world).1⟩ :: x :: rest ∧
      ∃ content, x.1 = .writeFile content
        (if (w.readFile (path ++ "/power/runtime_status") s.world).1 = some "active" then
          path ++ "/power/control" else path ++ "/power/autosuspend_delay_ms") := by
  rw [manageHidPower, trace_readFile]
  by_cases hactive : (w.readFile (path ++ "/power/runtime_status") s.world).1 = some "active"
  · simp only [if_pos hactive]
    exact ⟨_, _, rfl, _, rfl⟩
  · simp only [if_neg hactive]
    exact ⟨_, _, rfl, _, rfl⟩

theorem SameAnswer.writes {content content' path' : Text} {x y : Answered Op Res}
    (h : SameAnswer x y) (hx : x.1 = .writeFile content path)
    (hy : y.1 = .writeFile content' path') : path = path' := by
  cases h with
  | same z =>
      rw [hx] at hy
      cases hy
      rfl
  | read _ _ _ => cases hx
  | write _ =>
      cases hx
      cases hy
      rfl

theorem manageHidPower_iff (htwins : Twins w w' sim) (hst : SimState sim s t) :
    SameRun w w' (manageHidPower path allow) s t ↔
      SameWord (some "active".toList) (w.readFile (path ++ "/power/runtime_status") s.world).1
        (w'.readFile (path ++ "/power/runtime_status") t.world).1 := by
  constructor
  · intro hrun
    rcases manageHidPower_trace w s path allow with ⟨x, rest, htrace, content, hx⟩
    rcases manageHidPower_trace w' t path allow with ⟨y, rest', htrace', content', hy⟩
    have hops := hrun.ops
    rw [htrace, htrace'] at hops
    have hwrite := (List.forall₂_cons.1 (List.forall₂_cons.1 hops).2).1.writes hx hy
    -- the first write goes to one node or to the other, by the word that was read
    have hne : path ++ "/power/control".toList ≠ path ++ "/power/autosuspend_delay_ms".toList :=
      fun heq => absurd (List.append_cancel_left heq) (by decide)
    by_cases hactive : (w.readFile (path ++ "/power/runtime_status") s.world).1 = some "active"
    · by_cases hactive' : (w'.readFile (path ++ "/power/runtime_status") t.world).1 = some "active"
      · exact iff_of_true hactive hactive'
      · rw [if_pos hactive, if_neg hactive'] at hwrite
        exact absurd hwrite hne
    · by_cases hactive' : (w'.readFile (path ++ "/power/runtime_status") t.world).1 = some "active"
      · rw [if_neg hactive, if_pos hactive'] at hwrite
        exact absurd hwrite.symm hne
      · exact iff_of_false hactive hactive'
  · intro hword
    refine AgreeOn.sameRun (agree_read htwins hst fun r r' hr hr' _ => ?_)
    rw [← hr, ← hr'] at hword
    by_cases hactive : r = some "active"
    · have hactive' : r' = some "active" := hword.1 hactive
      rw [if_pos hactive, if_pos hactive']
      refine Blind.bind (blind_write _ _) fun ret => ?_
      exact Related.ite (fun _ => blind_pure _) fun _ => setAutosuspend_blind
    · have hactive' : ¬ r' = some "active" := fun h => hactive (hword.2 h)
      rw [if_neg hactive, if_neg hactive']
      exact setAutosuspend_blind

theorem getUsbControllerPath_blind : Blind getUsbControllerPath :=
  blind_of_footprint getUsbControllerPath_footprint fun _ h => h.elim

theorem getUsbControllerPath_run (w : World σ) (s : State σ) :
    ∃ dwcDriver s', getUsbControllerPath.run w.step s = (.ok dwcDriver, s') := ⟨_, _, rfl⟩

theorem toggleMode_related {dwcDriver : Text} {r r' : Option Text}
    (hsame : SameAnswer ⟨.readFile path, r⟩ ⟨.readFile path, r'⟩)
    (hword : SameWord (some "none".toList) r r') :
    Related SameRequest SameAnswer Eq (toggleMode dwcDriver r) (toggleMode dwcDriver r') := by
  have htoggle : ∀ mode mode' : Text, SameText mode mode' → mode ≠ "none" → mode' ≠ "none" →
      Related SameRequest SameAnswer Eq (toggleMode dwcDriver (some mode))
        (toggleMode dwcDriver (some mode')) := by
    intro mode mode' htext hmode hmode'
    rw [toggleMode, toggleMode, if_neg hmode, if_neg hmode']
    refine Related.bind (blind_write _ _) fun ret ret' hret => ?_
    subst hret
    refine Related.ite (fun _ => blind_pure _) fun _ => ?_
    have hback : Related SameRequest SameAnswer Eq
        (WriteStringToFile (c_str mode) (dwcDriver ++ "mode"))
        (WriteStringToFile (c_str mode') (dwcDriver ++ "mode")) :=
      Related.call (SameRequest.write htext.c_str) fun ok ok' => write_same
    exact Related.bind hback fun ok ok' heq => Related.pure (by rw [heq])
  rcases read_cases hsame with rfl | ⟨text, text', rfl, rfl, htext, _⟩
  · cases r with
    | none => exact blind_pure _
    | some mode =>
        by_cases hmode : mode = "none"
        · rw [toggleMode, if_pos hmode]
          exact blind_pure _
        · exact htoggle mode mode (Or.inl rfl) hmode hmode
  · by_cases hmode : text = "none"
    · have hmode' : text' = "none" := Option.some.inj (hword.1 (congrArg some hmode))
      rw [toggleMode, toggleMode, if_pos hmode, if_pos hmode']
      exact blind_pure _
    · have hmode' : text' ≠ "none" := fun h => hmode (Option.some.inj (hword.2 (congrArg some h)))
      exact htoggle text text' htext hmode hmode'

/-- The end of `resetUsbPort`. -/
theorem reportReset_blind (in_portName : Text) (in_transactionId : Int) (status : Status) :
    Blind (do
      let usb ← fields
      if usb.mCallback then notify (.resetUsbPortStatus in_portName status in_transactionId)
      else return ()) := by
  refine Blind.bind blind_fields fun usb => ?_
  exact Related.ite (fun _ => blind_notify _) fun _ => blind_pure _

theorem resetUsbPort_of_word (htwins : Twins w w' sim) (hst : SimState sim s t) {in_portName : Text}
    {in_transactionId : Int}
    (hword : SameWord (.ok (some "none".toList)) (controllerMode.run w.step s).1
      (controllerMode.run w'.step t).1) :
    SameRun w w' (resetUsbPort in_portName in_transactionId) s t := by
  have hcontroller : AgreeOn w w' sim resetController resetController s t := by
    refine Agree.bind (Related.agree htwins getUsbControllerPath_blind hst) ?_
    intro dwcDriver dwcDriver' s' t' hpath hpath' hsame hst'
    subst hsame
    rw [controllerMode, run_bind_ok hpath, run_bind_ok hpath'] at hword
    by_cases hempty : dwcDriver = []
    · rw [if_pos hempty]
      exact Related.agree htwins (blind_pure _) hst'
    · rw [if_neg hempty] at hword ⊢
      refine agree_read htwins hst' fun r r' hr hr' hsame => toggleMode_related hsame ?_
      have hread : ((readMode dwcDriver).run w.step s').1 = .ok r := congrArg Except.ok hr.symm
      have hread' : ((readMode dwcDriver).run w'.step t').1 = .ok r' := congrArg Except.ok hr'.symm
      rw [hread, hread'] at hword
      exact ⟨fun h => Except.ok.inj (hword.1 (congrArg Except.ok h)),
        fun h => Except.ok.inj (hword.2 (congrArg Except.ok h))⟩
  refine AgreeOn.sameRun (Agree.bind hcontroller ?_)
  intro status status' s' t' _ _ hsame hst'
  subst hsame
  exact Related.agree htwins (reportReset_blind _ _ _) hst'

theorem sameWord_of_both {word : α} {r r' : Option α} (hnone : r = none ↔ r' = none)
    (hboth : (r ≠ none ∧ r ≠ some word) ↔ (r' ≠ none ∧ r' ≠ some word)) :
    SameWord (some word) r r' := by
  cases r with
  | none => simp [SameWord, hnone.1 rfl]
  | some a =>
      cases r' with
      | none => cases hnone.2 rfl
      | some a' =>
          have hne : a ≠ word ↔ a' ≠ word := by simpa using hboth
          simpa [SameWord] using not_iff_not.1 hne

def Op.IsWrite : Op → Prop
  | .writeFile _ _ => True
  | _ => False

theorem SameAnswer.isWrite {x y : Answered Op Res} (h : SameAnswer x y) :
    x.1.IsWrite ↔ y.1.IsWrite := by
  cases h <;> exact Iff.rfl

/-- `resetUsbPort` with a controller: after it has read the mode it writes, unless there is none or
the port is disconnected. -/
theorem resetUsbPort_trace {dwcDriver : Text} {s' : State σ} (in_portName : Text)
    (in_transactionId : Int) (hpath : getUsbControllerPath.run w.step s = (.ok dwcDriver, s'))
    (hfound : dwcDriver ≠ []) :
    ∃ x rest, (resetUsbPort in_portName in_transactionId).trace w.step s =
        getUsbControllerPath.trace w.step s ++
          ⟨.readFile (dwcDriver ++ "mode"), (w.readFile (dwcDriver ++ "mode") s'.world).1⟩ ::
            x :: rest ∧
      (x.1.IsWrite ↔ (w.readFile (dwcDriver ++ "mode") s'.world).1 ≠ none ∧
        (w.readFile (dwcDriver ++ "mode") s'.world).1 ≠ some "none".toList) := by
  rw [resetUsbPort, resetController, bind_bind, trace_bind_ok hpath, if_neg hfound, bind_bind]
  rw [readMode, trace_readFile]
  cases (w.readFile (dwcDriver ++ "mode") s'.world).1 with
  | none => exact ⟨_, _, rfl, by simp [Op.IsWrite]⟩
  | some mode =>
      by_cases hmode : mode = "none"
      · rw [toggleMode, if_pos hmode, hmode]
        exact ⟨_, _, rfl, iff_of_false id fun h => h.2 rfl⟩
      · rw [toggleMode, if_neg hmode]
        exact ⟨_, _, rfl, iff_of_true trivial ⟨nofun, fun h => hmode (Option.some.inj h)⟩⟩

theorem word_of_resetUsbPort (htwins : Twins w w' sim) (hst : SimState sim s t)
    {in_portName : Text} {in_transactionId : Int}
    (hrun : SameRun w w' (resetUsbPort in_portName in_transactionId) s t) :
    SameWord (.ok (some "none".toList)) (controllerMode.run w.step s).1
      (controllerMode.run w'.step t).1 := by
  have hpaths := Related.agree htwins getUsbControllerPath_blind hst
  rcases getUsbControllerPath_run w s with ⟨dwcDriver, s', hpath⟩
  rcases getUsbControllerPath_run w' t with ⟨dwcDriver', t', hpath'⟩
  have hsame : dwcDriver = dwcDriver' := by
    have heq := eq_of_alike hpaths.results
    rw [hpath, hpath'] at heq
    exact Except.ok.inj heq
  subst hsame
  rw [controllerMode, run_bind_ok hpath, run_bind_ok hpath']
  by_cases hempty : dwcDriver = []
  · rw [if_pos hempty]
    exact Iff.rfl
  rw [if_neg hempty]
  rcases resetUsbPort_trace in_portName in_transactionId hpath hempty with ⟨x, rest, htrace, hx⟩
  rcases resetUsbPort_trace in_portName in_transactionId hpath' hempty with ⟨y, rest', htrace', hy⟩
  have hops := hrun.ops
  rw [htrace, htrace'] at hops
  have hlength := List.Forall₂.length_eq hpaths.traces
  -- the two runs look for the controller in the same way, and then read its mode
  have hdrop := List.forall₂_drop (getUsbControllerPath.trace w.step s).length hops
  rw [List.drop_left, hlength, List.drop_left] at hdrop
  rcases List.forall₂_cons.1 hdrop with ⟨hread, hnext⟩
  have hwrite := (List.forall₂_cons.1 hnext).1.isWrite
  rw [hx, hy] at hwrite
  have hnone : (w.readFile (dwcDriver ++ "mode") s'.world).1 = none ↔
      (w'.readFile (dwcDriver ++ "mode") t'.world).1 = none := by
    rcases read_cases hread with heq | ⟨_, _, heq, heq', _⟩
    · rw [heq]
    · rw [heq, heq']
      exact iff_of_false nofun nofun
  have hword := sameWord_of_both hnone hwrite
  exact ⟨fun h => congrArg Except.ok (hword.1 (Except.ok.inj h)),
    fun h => congrArg Except.ok (hword.2 (Except.ok.inj h))⟩

/-- The functions take the same way in the two systems exactly if no state of a HID device reads
`active`, and no mode of the controller `none`, in one of them only. -/
theorem newlineBlind_iff (htwins : Twins w w' sim) (hst : SimState sim s t) :
    NewlineBlind w w' s t ↔
      (∀ path : Text, SameWord (some "active".toList)
        (w.readFile (path ++ "/power/runtime_status") s.world).1
        (w'.readFile (path ++ "/power/runtime_status") t.world).1) ∧
      SameWord (.ok (some "none".toList)) (controllerMode.run w.step s).1
        (controllerMode.run w'.step t).1 := by
  constructor
  · intro hblind
    refine ⟨fun path => (manageHidPower_iff htwins hst).1 (hblind.manageHidPower path true), ?_⟩
    exact word_of_resetUsbPort htwins hst (hblind.resetUsbPort [] 0)
  · rintro ⟨hactive, hmode⟩
    constructor
    · exact fun portName connected tag => getCurrentRoleHelper_blind.sameRun htwins hst
    · exact fun portName newRole id hrole => (switchRole_blind hrole id).sameRun htwins hst
    · exact fun msg => (handle_typec_uevent_blind msg).sameRun htwins hst
    · exact fun path allow => (manageHidPower_iff htwins hst).2 (hactive path)
    · exact fun portName id => resetUsbPort_of_word htwins hst hmode

end Twins

/-! ## Two file systems -/

/-- A system with these files and one USB controller, which accepts every write. -/
def World.files (content : Text → Option Text) : World Unit :=
  { World.idle with
    readFile := fun path x => (content path, x)
    listDirectory := fun _ x => (some [⟨.DT_LNK, "a600000.ssusb"⟩], x)
    getProperty := fun _ x => ("a600000.dwc3", x) }

theorem twins_files {content content' : Text → Option Text}
    (hsame : ∀ path, SameAnswer ⟨.readFile path, content path⟩ ⟨.readFile path, content' path⟩) :
    Twins (World.files content) (World.files content') fun _ _ => True := by
  intro o o' s t hask hst
  rcases hst with ⟨husb, _⟩
  cases hask with
  | same =>
      cases o with
      | readFile path => exact ⟨hsame path, husb, trivial⟩
      | fields =>
          refine ⟨?_, husb, trivial⟩
          simp only [World.step, husb]
          exact .same _
      | assign a => exact ⟨.same _, congrArg (fun usb => a.apply usb) husb, trivial⟩
      | _ => exact ⟨.same _, husb, trivial⟩
  | write htext => exact ⟨.write htext, husb, trivial⟩

/-- The state of every device and the mode of the controller, with or without the newline. -/
def attributes (status mode : Text) (newline : Bool) (path : Text) : Option Text :=
  if ("/power/runtime_status" : Text) <:+ path then some (if newline then status ++ ['\n'] else status)
  else if ("/mode" : Text) <:+ path then some (if newline then mode ++ ['\n'] else mode)
  else none

theorem not_isRole {name path : Text} (hname : name <:+ path)
    (hpower : ¬ name <:+ "/power_role" ∧ ¬ "/power_role" <:+ name)
    (hdata : ¬ name <:+ "/data_role" ∧ ¬ "/data_role" <:+ name) : ¬ IsRole path := by
  rintro (hrole | hrole)
  · exact (List.suffix_or_suffix_of_suffix hname hrole).elim hpower.1 hpower.2
  · exact (List.suffix_or_suffix_of_suffix hname hrole).elim hdata.1 hdata.2

theorem twins_attributes (status mode : Text) :
    Twins (World.files (attributes status mode false)) (World.files (attributes status mode true))
      fun _ _ => True := by
  refine twins_files fun path => ?_
  by_cases hstatus : ("/power/runtime_status" : Text) <:+ path
  · simp only [attributes, if_pos hstatus, if_true, Bool.false_eq_true, if_false]
    refine .read ⟨_, by decide, hstatus⟩ (Or.inr (Or.inl rfl)) fun hrole => ?_
    exact absurd hrole (not_isRole hstatus (by decide) (by decide))
  by_cases hmode : ("/mode" : Text) <:+ path
  · simp only [attributes, if_neg hstatus, if_pos hmode, if_true, Bool.false_eq_true, if_false]
    refine .read ⟨_, by decide, hmode⟩ (Or.inr (Or.inl rfl)) fun hrole => ?_
    exact absurd hrole (not_isRole hmode (by decide) (by decide))
  · simp only [attributes, if_neg hstatus, if_neg hmode]
    exact .same _

/-- Suspended devices and a controller in peripheral mode. -/
theorem newlineBlind_suspended :
    NewlineBlind (World.files (attributes "suspended" "peripheral" false))
      (World.files (attributes "suspended" "peripheral" true)) (.initial ()) (.initial ()) := by
  refine (newlineBlind_iff (twins_attributes _ _) ⟨rfl, trivial⟩).2 ⟨fun path => ?_, ?_⟩
  · have hstatus : ("/power/runtime_status" : Text) <:+ path ++ "/power/runtime_status".toList :=
      List.suffix_append _ _
    simp only [SameWord, World.files, attributes, if_pos hstatus]
    exact iff_of_false (by decide) (by decide)
  · exact iff_of_false (by decide +kernel) (by decide +kernel)

/-- Active devices and a disconnected port: with the newline, neither comparison succeeds. -/
theorem newline_tells :
    Twins (World.files (attributes "active" "none" false))
        (World.files (attributes "active" "none" true)) (fun _ _ => True) ∧
      ¬ NewlineBlind (World.files (attributes "active" "none" false))
        (World.files (attributes "active" "none" true)) (.initial ()) (.initial ()) ∧
      (∀ path allow, ¬ SameRun (World.files (attributes "active" "none" false))
        (World.files (attributes "active" "none" true)) (manageHidPower path allow) (.initial ())
        (.initial ())) ∧
      ∀ in_portName in_transactionId, ¬ SameRun (World.files (attributes "active" "none" false))
        (World.files (attributes "active" "none" true)) (resetUsbPort in_portName in_transactionId)
        (.initial ()) (.initial ()) := by
  have hactive : ∀ path allow, ¬ SameRun (World.files (attributes "active" "none" false))
      (World.files (attributes "active" "none" true)) (manageHidPower path allow) (.initial ())
      (.initial ()) := by
    intro path allow hrun
    have hword := (manageHidPower_iff (twins_attributes "active" "none") ⟨rfl, trivial⟩).1 hrun
    have hstatus : ("/power/runtime_status" : Text) <:+ path ++ "/power/runtime_status".toList :=
      List.suffix_append _ _
    simp only [SameWord, World.files, attributes, if_pos hstatus] at hword
    exact absurd (hword.1 rfl) (by decide)
  refine ⟨twins_attributes _ _, fun hblind => hactive [] true (hblind.manageHidPower [] true),
    hactive, fun in_portName id hrun => ?_⟩
  have hword := word_of_resetUsbPort (twins_attributes "active" "none") ⟨rfl, trivial⟩ hrun
  exact absurd (hword.1 (by decide +kernel)) (by decide +kernel)

end UsbHal
end M2391Device
