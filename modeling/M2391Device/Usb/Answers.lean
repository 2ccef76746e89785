import M2391Device.Usb.Interleavings

/-!
# Answers — what the callback is told

Every call but `setCallback` comes with a transaction id, and its outcome is told to the callback in a
notification that repeats the id.  Whatever else goes on at the same time, a call that returns has
given one such notification, its own (`answered_once`); or none, when there was no callback to give it
to.  And whatever the callback is told is so: of the flags at that moment, and of the ports as they
were listed last (`notified_current`).
-/

namespace M2391Device
namespace UsbHal

open Program Locks Transition

universe u v

/-! ## Answers -/

/-- The outcome of a request; a change of the ports is none. -/
def ServiceOp.IsAnswer : ServiceOp → Bool
  | .hal (.notify (.portStatusChange _ _)) => false
  | .hal (.notify _) => true
  | .reply _ => true
  | _ => false

/-- The answers of a call: what was asked for comes back with the transaction id. -/
def Entry.Answer (o : ServiceOp) : Entry → Prop
  | .enableUsbData in_portName in_enable in_transactionId => ∃ status,
      o = .hal (.notify (.enableUsbDataStatus in_portName in_enable status in_transactionId))
  | .enableUsbDataWhileDocked in_portName in_transactionId =>
      o = .reply (.enableUsbDataWhileDockedStatus in_portName .NOT_SUPPORTED in_transactionId)
  | .switchRole portName newRole in_transactionId => ∃ status,
      o = .hal (.notify (.roleSwitchStatus portName newRole status in_transactionId))
  | .limitPowerTransfer in_portName in_limit in_transactionId => ∃ status,
      o = .hal (.notify (.limitPowerTransferStatus in_portName in_limit status in_transactionId))
  | .resetUsbPort in_portName in_transactionId => ∃ status,
      o = .hal (.notify (.resetUsbPortStatus in_portName status in_transactionId))
  | .queryPortStatus in_transactionId =>
      o = .reply (.queryPortStatus "all" .SUCCESS in_transactionId)
  | .enableContaminantPresenceDetection portName in_transactionId =>
      o = .reply (.contaminantEnabledStatus portName true .SUCCESS in_transactionId)
  | .setCallback _ => False
  | .uevent _ => False

/-- The calls that answer a callback that is set: not a role switch of a port whose name is no name,
nor, of two of the functions, one with a negative id. -/
def Entry.Answers : Entry → Prop
  | .switchRole portName newRole _ => appendRoleNodeHelper portName newRole.tag ≠ []
  | .limitPowerTransfer _ _ in_transactionId => 0 ≤ in_transactionId
  | .enableContaminantPresenceDetection _ in_transactionId => 0 ≤ in_transactionId
  | .setCallback _ => False
  | .uevent _ => False
  | _ => True

/-- A listing of the ports, if there was one, and its outcome. -/
abbrev Listing := Option (Option (List Dirent))

/-- A report of the ports is one of those that were listed before. -/
def Notification.Reports (listing : Listing) : Notification → Prop
  | .portStatusChange statuses status =>
      ∃ entries, listing = some entries ∧ ReportOf (typeCPorts entries) status statuses
  | _ => True

/-- What is noted of a call. -/
structure Ledger where
  answers : List ServiceOp
  /-- The object was without a callback when the call looked last. -/
  unheard : Bool
  listing : Listing
  /-- What the callback was told, each time with the listing before. -/
  told : List (Notification × Listing)

def Ledger.new : Ledger where
  answers := []
  unheard := false
  listing := none
  told := []

/-- Whether the object was without a callback, after an operation. -/
def unheardAfter : (o : ServiceOp) → ServiceRes o → Bool → Bool
  | .hal .fields, usb, _ => !usb.mCallback
  | _, _, unheard => unheard

/-- The listing of the ports that an operation makes. -/
def listingOf : (o : ServiceOp) → ServiceRes o → Listing
  | .hal (.listDirectory path), entries => if path = "/sys/class/typec/" then some entries else none
  | _, _ => none

def ServiceOp.told : ServiceOp → List Notification
  | .hal (.notify n) => [n]
  | _ => []

def Ledger.note : (o : Instr ServiceOp Mutex Condition) → Answer ServiceRes o → Ledger → Ledger
  | .op o, r, g =>
      { answers := if o.IsAnswer then g.answers ++ [o] else g.answers
        unheard := unheardAfter o r g.unheard
        listing := (listingOf o r).or g.listing
        told := g.told ++ o.told.map fun n => (n, g.listing) }
  | _, _, g => g

/-- Every report that was made is one of the ports that were listed for it. -/
def Ledger.Honest (g : Ledger) : Prop := ∀ x ∈ g.told, x.1.Reports x.2

/-- One answer; or none, because nobody was there. -/
def Entry.Answered (e : Entry) (g : Ledger) : Prop :=
  (∃ o, g.answers = [o] ∧ e.Answer o) ∨ g.answers = [] ∧ (e.Answers → g.unheard = true)

/-! ## The notes on a program -/

section Noting

variable {α β : Type} {Q : α → Ledger → Prop} {R : β → Ledger → Prop} {g : Ledger} {o : ServiceOp}

/-- The notes on a program, with those of its instructions: it is honest all along. -/
abbrev Noted (Q : α → Ledger → Prop) (p : Threaded.Thread α) (g : Ledger) : Prop :=
  p.Meets (Notes Ledger.note) Ledger.Honest Q (fun _ _ => True) g

theorem honest_new : Ledger.new.Honest := fun _ h => absurd h List.not_mem_nil

theorem noted_pure {a : α} (hg : g.Honest) (h : Q a g) : Noted Q (Pure.pure a) g := ⟨hg, h⟩

theorem noted_seq {p : Threaded.Thread α} {f : α → Threaded.Thread β} (h : Noted Q p g)
    (hf : ∀ a g', g'.Honest → Q a g' → Noted R (f a) g') : Noted R (p >>= f) g := Meets.seq h hf

theorem noted_mono {Q' : α → Ledger → Prop} {p : Threaded.Thread α} (h : Noted Q p g)
    (hQ : ∀ a g', g'.Honest → Q a g' → Q' a g') : Noted Q' p g :=
  Meets.mono h hQ fun _ _ _ h => h

/-- Locks are not noted. -/
theorem noted_withLock {l : Mutex} {p : Threaded.Thread α} (h : Noted Q p g) :
    Noted Q (withLock l p) g := by
  refine ⟨h.now, ?_⟩
  rintro _ _ rfl
  refine noted_seq h fun a g' hg' hQ => ⟨hg', ?_⟩
  rintro _ _ rfl
  exact ⟨hg', hQ⟩

/-- An operation, after which the rest goes on. -/
theorem noted_op {r : ServiceRes o → Threaded.Thread α} (hg : g.Honest)
    (h : ∀ x, Noted Q (r x) (Ledger.note (.op o) x g)) : Noted Q (.perform (.op o) r) g := by
  refine ⟨hg, ?_⟩
  rintro x _ rfl
  exact h x

/-- A program without locks, of whose operations each keeps something of the notes. -/
theorem noted_service {P : ServiceOp → Prop} {K : Ledger → Prop} {F : α → Prop} {x : Service α}
    (hx : x.Performs P) (hreturns : x.Returns F)
    (hkeep : ∀ o r g', P o → K g' → K (Ledger.note (.op o) r g')) (hhonest : ∀ g', K g' → g'.Honest)
    (hg : K g) : Noted (fun a g' => K g' ∧ F a) (Threaded.service x) g := by
  induction x generalizing g with
  | pure a => exact ⟨hhonest g hg, hg, hreturns⟩
  | throw e => exact ⟨hhonest g hg, trivial⟩
  | perform o next ih =>
      exact noted_op (hhonest g hg) fun r => ih r (hx.2 r) (hreturns r) (hkeep o r g hx.1 hg)

/-- Operations that tell nobody anything. -/
def ServiceOp.Mute : ServiceOp → Prop
  | .hal o => o.Mute
  | .reply _ => False
  | _ => True

theorem ServiceOp.Mute.note (ho : o.Mute) (r : ServiceRes o) :
    (Ledger.note (.op o) r g).answers = g.answers ∧ (Ledger.note (.op o) r g).told = g.told := by
  cases o with
  | hal o =>
      cases o with
      | notify n => exact ho.elim
      | _ => exact ⟨rfl, List.append_nil _⟩
  | reply r => exact ho.elim
  | _ => exact ⟨rfl, List.append_nil _⟩

theorem ServiceOp.Under.mute {H : Set Mutex} (h : o.Under H) : o.Mute := by
  cases o with
  | hal o => cases o <;> first | exact trivial | exact h.elim
  | reply r => exact h.elim
  | _ => exact trivial

/-- What is told after nothing but operations of a kind. -/
theorem honest_of_told {g' : Ledger} (hg : g.Honest) (h : g'.told = g.told) : g'.Honest := by
  rw [Ledger.Honest, h]
  exact hg

/-- A program, or a part of one, that answers nothing. -/
abbrev Unanswered (p : Threaded.Thread α) : Prop :=
  ∀ g : Ledger, g.Honest → Noted (fun _ g' => g'.answers = g.answers) p g

theorem unanswered_service {x : Service α} (hx : x.Performs ServiceOp.Mute) :
    Unanswered (Threaded.service x) := by
  intro g hg
  refine noted_mono (noted_service (K := fun g' => g'.answers = g.answers ∧ g'.Honest) hx Returns.any
    (fun o r g' ho hK => ?_) (fun _ hK => hK.2) ⟨rfl, hg⟩) fun _ _ _ h => h.1.1
  rcases ho.note r with ⟨hanswers, htold⟩
  exact ⟨Eq.trans hanswers hK.1, honest_of_told hK.2 htold⟩

theorem unanswered_hal {x : Hal α} (hx : x.Performs Op.Mute) : Unanswered (Threaded.hal x) :=
  unanswered_service (performs_ofHal hx)

theorem unanswered_footprint {f : Footprint} {x : Hal α} (hx : x.Performs (Op.In f)) :
    Unanswered (Threaded.hal x) := unanswered_hal (hx.mono fun _ => Op.In.mute)

theorem unanswered_pure (a : α) : Unanswered (Pure.pure a) := fun _ hg => noted_pure hg rfl

theorem unanswered_bind {p : Threaded.Thread α} {f : α → Threaded.Thread β} (hp : Unanswered p)
    (hf : ∀ a, Unanswered (f a)) : Unanswered (p >>= f) := fun g hg =>
  noted_seq (hp g hg) fun a g' hg' h =>
    noted_mono (hf a g' hg') fun _ _ _ h' => Eq.trans h' h

theorem unanswered_ite {c : Prop} [Decidable c] {p q : Threaded.Thread α} (hp : Unanswered p)
    (hq : Unanswered q) : Unanswered (if c then p else q) := fun g hg =>
  Meets.ite (fun _ => hp g hg) fun _ => hq g hg

theorem unanswered_withLock {l : Mutex} {p : Threaded.Thread α} (hp : Unanswered p) :
    Unanswered (withLock l p) := fun g hg => noted_withLock (hp g hg)

theorem noted_fields {k : Usb → Threaded.Thread α} (hg : g.Honest)
    (h : ∀ usb g', g'.Honest → g'.answers = g.answers → g'.unheard = !usb.mCallback → Noted Q (k usb) g') :
    Noted Q (Threaded.hal fields >>= k) g :=
  noted_op hg fun usb => h usb _ (honest_of_told hg (List.append_nil _)) rfl rfl

theorem honest_notify {n : Notification} (hg : g.Honest) (hn : n.Reports g.listing) (r : Unit) :
    (Ledger.note (.op (.hal (.notify n))) r g).Honest := by
  intro x hx
  rcases List.mem_append.1 hx with hbefore | hlast
  · exact hg x hbefore
  · rw [List.mem_singleton.1 hlast]
    exact hn

theorem noted_notify {n : Notification} (hg : g.Honest) (hn : n.Reports g.listing)
    (hanswer : (ServiceOp.hal (.notify n)).IsAnswer = true) :
    Noted (fun _ g' => g'.answers = g.answers ++ [.hal (.notify n)]) (Threaded.hal (notify n)) g :=
  noted_op hg fun r => ⟨honest_notify hg hn r, if_pos hanswer⟩

theorem noted_reply {r : Reply} (hg : g.Honest) :
    Noted (fun _ g' => g'.answers = g.answers ++ [.reply r]) (Threaded.service (reply r)) g :=
  noted_op hg fun _ => ⟨honest_of_told hg (List.append_nil _), rfl⟩

/-- A report is made of a listing, and nothing else is listed for it. -/
theorem noted_portStatusHelper {path : Text} (hg : g.Honest) :
    Noted (fun r g' => g'.answers = g.answers ∧
      (Notification.portStatusChange r.2 r.1).Reports g'.listing)
      (Threaded.hal (getPortStatusHelper path)) g := by
  rw [getPortStatusHelper_eq, hal_bind]
  refine noted_op hg fun entries => ?_
  let P : ServiceOp → Prop := fun o => ∃ o', o = .hal o' ∧ o'.Reads
  let K : Ledger → Prop := fun g' => g'.answers = g.answers ∧ g'.listing = some entries ∧ g'.Honest
  have hreads : (ofHal (reportPorts path ((entries.getD []).foldl addEntry []))).Performs P :=
    performs_ofHal (reportPorts_reads.mono fun o ho => ⟨o, rfl, ho⟩)
  have hkeep : ∀ o r g', P o → K g' → K (Ledger.note (.op o) r g') := by
    rintro _ r g' ⟨o, rfl, ho⟩ ⟨hanswers, hlisting, hg'⟩
    have hmute : ServiceOp.Mute (.hal o) := Op.In.mute ho
    refine ⟨Eq.trans (hmute.note r).1 hanswers, ?_, honest_of_told hg' (hmute.note r).2⟩
    cases o <;> first | exact hlisting | exact ho.elim
  have hlisted : K (Ledger.note (.op (.hal (.listDirectory "/sys/class/typec/"))) entries g) :=
    ⟨rfl, rfl, honest_of_told hg (List.append_nil _)⟩
  have hreport : (ofHal (reportPorts path ((entries.getD []).foldl addEntry []))).Returns fun r =>
      ReportOf (typeCPorts entries) r.1 r.2 := returns_ofHal reportPorts_returns
  refine noted_mono (noted_service hreads hreport hkeep (fun _ hK => hK.2.2) hlisted) ?_
  rintro r g' _ ⟨⟨hanswers, hlisting, _⟩, hreport⟩
  exact ⟨hanswers, entries, hlisting, hreport⟩

/-- The status of the ports, reported to the callback, and what comes after. -/
theorem noted_report {path : Text} {k : Status × List PortStatus → Threaded.Thread α} (hg : g.Honest)
    (hk : ∀ r g', g'.Honest → g'.answers = g.answers → Noted Q (k r) g') :
    Noted Q (Threaded.hal (getPortStatusHelper path) >>= fun r =>
      Threaded.hal (notify (.portStatusChange r.2 r.1)) >>= fun _ => k r) g := by
  refine noted_seq (noted_portStatusHelper hg) fun r g' hg' h => ?_
  exact noted_op hg' fun x => hk r _ (honest_notify hg' h.2 x) h.1

end Noting

/-! ## The answers of the calls -/

section Calls

variable {g : Ledger} {e : Entry}

/-- The end of the functions that answer in a notification, and perhaps report the ports after it. -/
theorem noted_answerIf {c : Usb → Prop} [DecidablePred c] {n : Notification} {k : Usb → Hal Unit}
    (hg : g.Honest) (hnone : g.answers = []) (hn : ∀ listing, n.Reports listing)
    (hanswer : (ServiceOp.hal (.notify n)).IsAnswer = true) (he : e.Answer (.hal (.notify n)))
    (hc : ∀ usb, ¬ c usb → e.Answers → usb.mCallback = false)
    (hk : ∀ usb, Unanswered (Threaded.hal (k usb))) :
    Noted (fun _ g' => e.Answered g')
      (Threaded.hal (fields >>= fun usb =>
        if c usb then notify n >>= fun _ => k usb else Pure.pure ())) g := by
  rw [hal_bind]
  refine noted_fields hg fun usb g₁ hg₁ hanswers hunheard => ?_
  rw [hal_ite]
  refine Meets.ite (fun _ => ?_) fun hunset => ?_
  · rw [hal_bind]
    refine noted_seq (noted_notify hg₁ (hn _) hanswer) fun _ g₂ hg₂ hone => ?_
    refine noted_mono (hk usb g₂ hg₂) fun _ g₃ _ h => Or.inl ⟨_, ?_, he⟩
    calc
      g₃.answers = g₂.answers := h
      _ = g₁.answers ++ [.hal (.notify n)] := hone
      _ = [] ++ [.hal (.notify n)] := by rw [hanswers, hnone]
  · refine noted_pure hg₁ (Or.inr ⟨Eq.trans hanswers hnone, fun h => ?_⟩)
    rw [hunheard, hc usb hunset h]
    rfl

theorem noted_replyIf {c : Usb → Prop} [DecidablePred c] {r : Reply} (hg : g.Honest)
    (hnone : g.answers = []) (he : e.Answer (.reply r))
    (hc : ∀ usb, ¬ c usb → e.Answers → usb.mCallback = false) :
    Noted (fun _ g' => e.Answered g')
      (Threaded.service (ofHal fields >>= fun usb => if c usb then reply r else Pure.pure ())) g := by
  rw [service_bind]
  refine noted_fields hg fun usb g₁ hg₁ hanswers hunheard => ?_
  rw [service_ite]
  refine Meets.ite (fun _ => ?_) fun hunset => ?_
  · refine noted_mono (noted_reply hg₁) fun _ g₂ _ h => Or.inl ⟨_, ?_, he⟩
    calc
      g₂.answers = g₁.answers ++ [.reply r] := h
      _ = [] ++ [.reply r] := by rw [hanswers, hnone]
  · refine noted_pure hg₁ (Or.inr ⟨Eq.trans hanswers hnone, fun h => ?_⟩)
    rw [hunheard, hc usb hunset h]
    rfl

/-- The report that two of the functions end with. -/
theorem report_unanswered (path : Text) : Unanswered (Threaded.hal
    (getPortStatusHelper path >>= fun r => notify (.portStatusChange r.2 r.1))) := by
  intro g hg
  rw [hal_bind]
  exact noted_report (k := fun _ => Pure.pure ()) hg fun _ _ hg' h => noted_pure hg' h

theorem enableUsbData_answered (in_portName : Text) (in_enable : Bool) (in_transactionId : Int) :
    Noted (fun _ g => (Entry.enableUsbData in_portName in_enable in_transactionId).Answered g)
      (Threaded.enableUsbData in_portName in_enable in_transactionId) .new := by
  refine noted_withLock ?_
  rw [UsbHal.enableUsbData, hal_bind]
  have hswitch : Unanswered (Threaded.hal (switchUsbData in_enable)) :=
    unanswered_footprint switchUsbData_footprint
  refine noted_seq (hswitch _ honest_new) fun status g hg hnone => ?_
  exact noted_answerIf (e := .enableUsbData in_portName in_enable in_transactionId) (n :=
    .enableUsbDataStatus in_portName in_enable status in_transactionId) hg hnone (fun _ => trivial) rfl
    ⟨status, rfl⟩ (fun _ h _ => Bool.eq_false_iff.2 h) fun usb => report_unanswered _

theorem limitPowerTransfer_answered (in_portName : Text) (in_limit : Bool) (in_transactionId : Int) :
    Noted (fun _ g => (Entry.limitPowerTransfer in_portName in_limit in_transactionId).Answered g)
      (Threaded.limitPowerTransfer in_portName in_limit in_transactionId) .new := by
  refine noted_withLock ?_
  rw [UsbHal.limitPowerTransfer, hal_bind]
  have hrestrict : Unanswered (Threaded.hal (restrictCharge in_limit)) :=
    unanswered_footprint restrictCharge_footprint
  refine noted_seq (hrestrict _ honest_new) fun status g hg hnone => ?_
  rw [hal_bind]
  have hassign : Unanswered (Threaded.hal (assign (.limitedPower in_limit))) :=
    unanswered_hal (performs_assign.2 trivial)
  refine noted_seq (hassign g hg) fun _ g' hg' h => ?_
  exact noted_answerIf (e := .limitPowerTransfer in_portName in_limit in_transactionId) (n :=
    .limitPowerTransferStatus in_portName in_limit status in_transactionId) hg' (Eq.trans h hnone)
    (fun _ => trivial) rfl ⟨status, rfl⟩
    (fun _ h hid => Bool.eq_false_iff.2 fun hset => h ⟨hset, hid⟩) fun usb => report_unanswered _

theorem resetUsbPort_answered (in_portName : Text) (in_transactionId : Int) :
    Noted (fun _ g => (Entry.resetUsbPort in_portName in_transactionId).Answered g)
      (Threaded.resetUsbPort in_portName in_transactionId) .new := by
  refine noted_withLock ?_
  rw [UsbHal.resetUsbPort, hal_bind]
  have hreset : Unanswered (Threaded.hal resetController) :=
    unanswered_footprint resetController_footprint
  refine noted_seq (hreset _ honest_new) fun status g hg hnone => ?_
  exact noted_answerIf (e := .resetUsbPort in_portName in_transactionId) (n :=
    .resetUsbPortStatus in_portName status in_transactionId) (k := fun _ => Pure.pure ()) hg hnone
    (fun _ => trivial) rfl ⟨status, rfl⟩ (fun _ h _ => Bool.eq_false_iff.2 h) fun _ => unanswered_pure ()

theorem enableUsbDataWhileDocked_answered (in_portName : Text) (in_transactionId : Int) :
    Noted (fun _ g => (Entry.enableUsbDataWhileDocked in_portName in_transactionId).Answered g)
      (Threaded.enableUsbDataWhileDocked in_portName in_transactionId) .new :=
  noted_withLock (noted_replyIf (c := fun usb => usb.mCallback = true) honest_new rfl rfl
    fun _ h _ => Bool.eq_false_iff.2 h)

theorem enableContaminantPresenceDetection_answered (portName : Text) (in_transactionId : Int) :
    Noted (fun _ g => (Entry.enableContaminantPresenceDetection portName in_transactionId).Answered g)
      (Threaded.enableContaminantPresenceDetection portName in_transactionId) .new :=
  noted_withLock (noted_replyIf (c := fun usb => usb.mCallback = true ∧ in_transactionId ≥ 0) honest_new
    rfl rfl fun _ h hid => Bool.eq_false_iff.2 fun hset => h ⟨hset, hid⟩)

theorem queryPortStatus_answered (in_transactionId : Int) :
    Noted (fun _ g => (Entry.queryPortStatus in_transactionId).Answered g)
      (Threaded.queryPortStatus in_transactionId) .new := by
  refine noted_withLock ?_
  rw [reportQuery, service_bind]
  refine noted_fields honest_new fun usb g₁ hg₁ hnone hunheard => ?_
  rw [service_ite]
  refine Meets.ite (fun _ => ?_) fun hunset => ?_
  · rw [service_bind]
    refine noted_report (k := fun _ =>
      Threaded.service (reply (.queryPortStatus "all" .SUCCESS in_transactionId))) hg₁ fun r g₂ hg₂ h => ?_
    refine noted_mono (noted_reply hg₂) fun _ g₃ _ hone => Or.inl ⟨_, ?_, rfl⟩
    calc
      g₃.answers = g₂.answers ++ [.reply (.queryPortStatus "all" .SUCCESS in_transactionId)] := hone
      _ = [] ++ [.reply (.queryPortStatus "all" .SUCCESS in_transactionId)] := by
            rw [h, hnone]
            rfl
  · refine noted_pure hg₁ (Or.inr ⟨hnone, fun _ => ?_⟩)
    rw [hunheard, Bool.eq_false_iff.2 hunset]
    rfl

theorem switchMode_unanswered (portName : Text) (newRole : PortRole) :
    Unanswered (Threaded.switchMode portName newRole) := by
  refine unanswered_ite (unanswered_pure false) (unanswered_bind (unanswered_withLock ?_) ?_)
  · refine unanswered_bind (unanswered_hal (performs_assign.2 trivial)) fun _ => ?_
    refine unanswered_bind (unanswered_hal (performs_writeFile.2 trivial)) fun ok => ?_
    refine unanswered_ite (fun g hg => ⟨hg, ?_⟩) (unanswered_pure false)
    rintro r _ rfl
    exact noted_pure hg rfl
  · refine fun roleSwitch => unanswered_ite (unanswered_pure true) ?_
    exact unanswered_bind (unanswered_footprint (switchToDrp_footprint _)) fun _ => unanswered_pure false

theorem switchRole_answered (portName : Text) (newRole : PortRole) (in_transactionId : Int) :
    Noted (fun _ g => (Entry.switchRole portName newRole in_transactionId).Answered g)
      (Threaded.switchRole portName newRole in_transactionId) .new := by
  refine Meets.ite (fun hname => noted_pure honest_new (Or.inr ⟨rfl, fun h => absurd hname h⟩)) fun _ => ?_
  have hswitch : Unanswered (Threaded.performSwitch portName newRole) :=
    unanswered_ite (switchMode_unanswered portName newRole) (unanswered_footprint writeRole_footprint)
  refine noted_withLock (noted_seq (hswitch _ honest_new) fun roleSwitch g hg hnone =>
    noted_withLock ?_)
  exact noted_answerIf (e := .switchRole portName newRole in_transactionId) (n := .roleSwitchStatus
    portName newRole (if roleSwitch then .SUCCESS else .ERROR) in_transactionId)
    (k := fun _ => Pure.pure ()) hg hnone (fun _ => trivial) rfl ⟨_, rfl⟩
    (fun _ h _ => Bool.eq_false_iff.2 h) fun _ => unanswered_pure ()

/-! ### Programs without an answer -/

theorem setCallback_unanswered (callback : Bool) : Unanswered (Threaded.setCallback callback) := by
  have hregister : Unanswered (Threaded.service (registerCallback callback)) :=
    unanswered_service ((registerCallback_under (H := Set.univ) trivial).mono
      fun _ => ServiceOp.Under.mute)
  have hstop : Unanswered (Threaded.service stopWorker) :=
    unanswered_service ((stopWorker_under (H := ∅) rfl).mono fun _ => ServiceOp.Under.mute)
  exact unanswered_bind (unanswered_withLock hregister) fun removed =>
    unanswered_ite hstop (unanswered_pure ())

theorem reportPortStatus_unanswered : Unanswered (Threaded.hal reportPortStatus) := by
  intro g hg
  rw [reportPortStatus, hal_bind]
  refine noted_fields hg fun usb g₁ hg₁ h _ => ?_
  rw [hal_ite]
  refine Meets.ite (fun _ => ?_) fun _ => noted_pure hg₁ h
  rw [hal_bind]
  exact noted_report (k := fun r => Pure.pure r.2) hg₁ fun _ _ hg₂ h₂ => noted_pure hg₂ (Eq.trans h₂ h)

theorem handle_typec_uevent_unanswered (msg : Text) :
    Unanswered (Threaded.handle_typec_uevent msg) := by
  have hnote : Unanswered (Threaded.notePartner msg) :=
    unanswered_ite (unanswered_withLock (unanswered_hal (performs_assign.2 trivial))) (unanswered_pure ())
  refine unanswered_bind hnote fun _ => ?_
  refine unanswered_bind (unanswered_footprint handlePowerMode_footprint) fun _ => ?_
  refine unanswered_bind (unanswered_withLock reportPortStatus_unanswered) fun currentPortStatus => ?_
  have hports : Unanswered (Threaded.hal (Program.each switchDisconnected currentPortStatus)) :=
    unanswered_footprint (Performs.each fun port _ => switchDisconnected_footprint port)
  refine fun g hg => ⟨hg, ?_⟩
  rintro locked _ rfl
  refine Meets.ite (fun _ => noted_seq (hports _ hg) fun _ g' hg' h => ⟨hg', ?_⟩)
    fun _ => noted_pure hg rfl
  rintro _ _ rfl
  exact noted_pure hg' h

theorem handle_psy_uevent_unanswered (rest : Text) : Unanswered (Threaded.handle_psy_uevent rest) := by
  have hassign : ∀ a, Unanswered (Threaded.hal (assign a)) := fun a =>
    unanswered_hal (performs_assign.2 trivial)
  refine unanswered_ite (unanswered_pure ()) ?_
  refine unanswered_bind (unanswered_hal (performs_fields.2 trivial)) fun usb => ?_
  refine unanswered_bind (unanswered_footprint readContaminantPresence_footprint) fun presence => ?_
  refine unanswered_bind (unanswered_footprint isConnectedToUsbPowerBrick_footprint) fun brick => ?_
  refine unanswered_bind (unanswered_hal (performs_fields.2 trivial)) fun usb' => ?_
  refine unanswered_ite ?_ (unanswered_pure ())
  refine unanswered_bind (hassign _) fun _ => unanswered_bind (hassign _) fun _ => ?_
  exact unanswered_bind (unanswered_withLock reportPortStatus_unanswered) fun _ => unanswered_pure ()

theorem uevent_event_unanswered (buf : Text) : Unanswered (Threaded.uevent_event buf) := by
  refine unanswered_bind (unanswered_hal (performs_getProperty.2 trivial)) fun gadgetName => ?_
  refine unanswered_bind (unanswered_hal (performs_fields.2 trivial)) fun usb => ?_
  cases classify usb gadgetName buf with
  | typec => exact handle_typec_uevent_unanswered _
  | powerSupply => exact handle_psy_uevent_unanswered _
  | _ => exact unanswered_footprint (handle_footprint gadgetName buf nofun nofun)

theorem program_answered (e : Entry) : Noted (fun _ g => e.Answered g) e.program .new := by
  cases e with
  | enableUsbData => exact enableUsbData_answered _ _ _
  | enableUsbDataWhileDocked => exact enableUsbDataWhileDocked_answered _ _
  | switchRole => exact switchRole_answered _ _ _
  | limitPowerTransfer => exact limitPowerTransfer_answered _ _ _
  | resetUsbPort => exact resetUsbPort_answered _ _
  | queryPortStatus => exact queryPortStatus_answered _
  | enableContaminantPresenceDetection => exact enableContaminantPresenceDetection_answered _ _
  | setCallback =>
      exact noted_mono (setCallback_unanswered _ _ honest_new) fun _ _ _ hg => Or.inr ⟨hg, False.elim⟩
  | uevent =>
      exact noted_mono (uevent_event_unanswered _ _ honest_new) fun _ _ _ hg => Or.inr ⟨hg, False.elim⟩

end Calls

/-! ## Every interleaving -/

/-- What a notification says is so: of the flags as they are, and of the ports as they were listed. -/
def Notification.Current (usb : Usb) (listing : Listing) (n : Notification) : Prop :=
  n.Agrees usb ∧ n.Reports listing

section Runs

variable {σ : Type u} {ι : Type v} [DecidableEq ι] {w : ServiceWorld σ} {s₀ : State σ}
  {s : HalThreads σ ι} {h : List (HalEvent ι)} {i : ι}

/-- The listing of the ports that a thread makes with an event. -/
def listingBy (i : ι) : HalEvent ι → Listing
  | .act j ⟨.op o, r⟩ => if j = i then listingOf o r else none
  | _ => none

/-- The last listing of the ports that a thread has made. -/
def lastListing (i : ι) (h : List (HalEvent ι)) : Listing := (h.filterMap (listingBy i)).getLast?

theorem lastListing_snoc {e : HalEvent ι} :
    lastListing i (h ++ [e]) = (listingBy i e).or (lastListing i h) := by
  cases hlisting : listingBy i e with
  | none => simp [lastListing, List.filterMap_append, hlisting]
  | some entries => simp [lastListing, List.filterMap_append, hlisting]

/-- The listing that is noted of a call is the last one. -/
theorem lastListing_of_noted {p : Threaded.Thread Unit} {g : Ledger} {entries : Option (List Dirent)}
    (hnoted : noted Ledger.note .new i h = some (p, g)) (hlisting : g.listing = some entries) :
    lastListing i h = some entries := by
  induction h using List.reverseRecOn generalizing p g with
  | nil => cases hnoted
  | append_singleton h e ih =>
      rw [noted, List.foldl_append] at hnoted
      change e.noted Ledger.note .new i (noted Ledger.note .new i h) = some (p, g) at hnoted
      rw [lastListing_snoc]
      cases e with
      | start j q =>
          by_cases hj : j = i
          · rw [Event.noted, if_pos hj] at hnoted
            cases hnoted
            cases hlisting
          · rw [Event.noted, if_neg hj] at hnoted
            exact ih hnoted hlisting
      | act j a =>
          rcases a with ⟨o, r⟩
          by_cases hj : j = i
          · rw [Event.noted, if_pos hj] at hnoted
            rcases Option.map_eq_some_iff.1 hnoted with ⟨⟨p', g'⟩, hg', hpair⟩
            cases hpair
            cases o with
            | op o =>
                rw [listingBy, if_pos hj]
                change (listingOf o r).or g'.listing = some entries at hlisting
                cases hnow : listingOf o r with
                | none => exact ih hg' (by rwa [hnow] at hlisting)
                | some entries' =>
                    rw [hnow] at hlisting
                    exact hlisting
            | _ => exact ih hg' hlisting
          · rw [Event.noted, if_neg hj] at hnoted
            have hnone : listingBy i (.act j ⟨o, r⟩) = none := by
              cases o with
              | op o => exact if_neg hj
              | _ => rfl
            rw [hnone]
            exact ih hnoted hlisting
      | environment => exact ih hnoted hlisting

/-- What is left of a thread, from the notes so far. -/
theorem noted_run (hrun : Run (Interleaves w) (.idle s₀) h s) {p : Threaded.Thread Unit} {g : Ledger}
    (hnoted : noted Ledger.note .new i h = some (p, g)) (e : Entry) :
    Noted (fun _ g => p = e.program → e.Answered g) (s.code i) g := by
  have hstarts : ∀ (i : ι) (p : Threaded.Thread Unit), Starts i p →
      Noted (fun _ g => p = e.program → e.Answered g) p .new := by
    rintro _ _ ⟨e', rfl⟩
    by_cases he : e'.program = e.program
    · rw [he]
      exact noted_mono (program_answered e) fun _ _ _ hg _ => hg
    · exact noted_mono (program_answered e') fun _ _ _ _ hp => absurd hp he
  exact noted_meets hstarts (fun _ _ _ _ => rfl) hrun hnoted

/-- A call that is over has been answered once, with what was asked for and its id, and nothing else
has been; or not at all, and then, if it is one that answers, it had no callback. -/
theorem answered_once (hrun : Run (Interleaves w) (.idle s₀) h s) {e : Entry} {g : Ledger}
    (hnoted : noted Ledger.note .new i h = some (e.program, g)) (hdone : s.code i = .pure ()) :
    e.Answered g := by
  have hmeets := noted_run hrun hnoted e
  rw [hdone] at hmeets
  exact hmeets.2 rfl

/-- A thread that is about to call the callback has `mLock`, the callback is set, and what it is told
is so: of the flags at that moment, and of the ports as the thread has listed them last. -/
theorem notified_current (hrun : Run (Interleaves w) (.idle s₀) h s) {o : ServiceOp}
    {next : ServiceRes o → Threaded.Thread Unit} (hcode : s.code i = .perform (.op o) next)
    (ho : (∃ n, o = .hal (.notify n)) ∨ ∃ r, o = .reply r) :
    s.owner .mLock = some i ∧ s.shared.usb.mCallback = true ∧
      ∀ n, o = .hal (.notify n) → n.Current s.shared.usb (lastListing i h) := by
  rcases notified_agrees hrun hcode ho with ⟨hown, hcallback, hagrees⟩
  refine ⟨hown, hcallback, fun n hn => ⟨hagrees n hn, ?_⟩⟩
  subst hn
  have hbusy : s.code i ≠ .pure () := by
    rw [hcode]
    exact nofun
  have hbegun : ∃ p g, noted Ledger.note .new i h = some (p, g) := exists_noted hrun hbusy
  rcases hbegun with ⟨p, g, hnoted⟩
  have hmeets := noted_run hrun hnoted (.uevent [])
  rw [hcode] at hmeets
  -- the notification is one that the notes are honest with
  have hhonest : (Ledger.note (.op (.hal (.notify n))) () g).Honest := (hmeets.answered rfl).now
  have hreports : n.Reports g.listing := hhonest (n, g.listing) (List.mem_append_right _ List.mem_cons_self)
  cases n with
  | portStatusChange statuses status =>
      rcases hreports with ⟨entries, hlisting, hreport⟩
      exact ⟨entries, lastListing_of_noted hnoted hlisting, hreport⟩
  | _ => trivial

end Runs

/-- Of two calls at the same time, the first is over. -/
theorem answered_once_docked : ∃ h, ∃ s : HalThreads Unit Bool, ∃ g : Ledger,
    Run (Interleaves ServiceWorld.idle) (.idle registered) h s ∧
      noted Ledger.note .new false h = some (Entry.program (.enableUsbDataWhileDocked "port0" 7), g) ∧
      g.answers = [.reply (.enableUsbDataWhileDockedStatus "port0" .NOT_SUPPORTED 7)] ∧
      (Entry.enableUsbDataWhileDocked "port0" 7).Answered g := by
  have hrun : ∃ h, ∃ s : HalThreads Unit Bool, ∃ g : Ledger,
      Run (Interleaves ServiceWorld.idle) (.idle registered) h s ∧
        noted Ledger.note .new false h = some (Entry.program (.enableUsbDataWhileDocked "port0" 7), g) ∧
        g.answers = [.reply (.enableUsbDataWhileDockedStatus "port0" .NOT_SUPPORTED 7)] ∧
        s.code false = .pure () := by
    refine ⟨_, _, _, Run.snoc _ (Run.snoc _ (Run.snoc _ (Run.snoc _ (Run.snoc _ (Run.snoc _ Run.nil
      (.start (i := false) rfl ⟨.enableUsbDataWhileDocked "port0" 7, rfl⟩))
      (.start (i := true) rfl ⟨.enableUsbDataWhileDocked "port1" 8, rfl⟩))
      (.lock (i := false) rfl rfl)) (.op (i := false) rfl)) (.op (i := false) rfl))
      (.unlock (i := false) rfl rfl), rfl, rfl, rfl⟩
  rcases hrun with ⟨h, s, g, hrun, hnoted, hanswers, hdone⟩
  exact ⟨h, s, g, hrun, hnoted, hanswers, answered_once hrun hnoted hdone⟩

/-- A system with a port, at which nothing is connected. -/
def ServiceWorld.onePort : ServiceWorld Unit :=
  { ServiceWorld.idle with listDirectory := fun _ x => (some [⟨.DT_LNK, "port0"⟩], x) }

/-- A query of the port while the power is limited, about to tell its callback. -/
theorem notified_current_query : ∃ h, ∃ s : HalThreads Unit Unit, ∃ p next,
    Run (Interleaves ServiceWorld.onePort) (.idle { registered with usb.limitedPower := true }) h s ∧
      s.code () = .perform (.op (.hal (.notify (.portStatusChange [p] .SUCCESS)))) next ∧
      p.portName = "port0" ∧ p.usbDataStatus = [.ENABLED] ∧ p.powerTransferLimited = true ∧
      lastListing () h = some (some [⟨.DT_LNK, "port0"⟩]) ∧
      (Notification.portStatusChange [p] .SUCCESS).Current s.shared.usb (lastListing () h) := by
  have hrun : ∃ h, ∃ s : HalThreads Unit Unit, ∃ p next,
      Run (Interleaves ServiceWorld.onePort) (.idle { registered with usb.limitedPower := true }) h s ∧
        s.code () = .perform (.op (.hal (.notify (.portStatusChange [p] .SUCCESS)))) next ∧
        p.portName = "port0" ∧ p.usbDataStatus = [.ENABLED] ∧ p.powerTransferLimited = true ∧
        lastListing () h = some (some [⟨.DT_LNK, "port0"⟩]) := by
    refine ⟨_, _, _, _, Run.snoc _ (Run.snoc _ (Run.snoc _ (Run.snoc _ (Run.snoc _ (Run.snoc _
      (Run.snoc _ (Run.snoc _ Run.nil
      (.start (i := ()) rfl ⟨.queryPortStatus 7, rfl⟩)) (.lock (i := ()) rfl rfl))
      (.op (i := ()) rfl)) (.op (i := ()) rfl)) (.op (i := ()) rfl)) (.op (i := ()) rfl))
      (.op (i := ()) rfl)) (.op (i := ()) rfl), rfl, rfl, rfl, rfl, rfl⟩
  rcases hrun with ⟨h, s, p, next, hrun, hcode, hname, hdata, hpower, hlisting⟩
  have hcurrent := notified_current hrun hcode (Or.inl ⟨_, rfl⟩)
  exact ⟨h, s, p, next, hrun, hcode, hname, hdata, hpower, hlisting, hcurrent.2.2 _ rfl⟩

end UsbHal
end M2391Device
