import M2391Device.Usb.DataControl
import M2391Device.Usb.PortReports

/-!
# PortRequests — what a failed request leaves behind

`enableUsbData` and `limitPowerTransfer` each set a flag that every port status repeats.  The first
leaves its flag alone when it fails; the second sets it in any case, also after a refused write that
it reports.
-/

namespace M2391Device
namespace UsbHal

open Program Transition

universe u

/-! ## The function -/

def RESTRICT_CUR : Text := "/sys/class/qcom-battery/restrict_cur"
def RESTRICT_CHG : Text := "/sys/class/qcom-battery/restrict_chg"

/-- The writes of `limitPowerTransfer`, and the status that comes of them: a refused write does not
keep the next one from being made. -/
def restrictCharge (in_limit : Bool) : Hal Status := do
  if in_limit then
    let cur ← WriteStringToFile "0" RESTRICT_CUR
    let chg ← WriteStringToFile "1" RESTRICT_CHG
    return if cur && chg then .SUCCESS else .ERROR
  else
    let chg ← WriteStringToFile "0" RESTRICT_CHG
    return if chg then .SUCCESS else .ERROR

/-- `limitPowerTransfer` after the assignment. -/
def reportPowerTransfer (in_portName : Text) (in_limit : Bool) (in_transactionId : Int)
    (status : Status) : Hal Unit := do
  let usb ← fields
  if usb.mCallback ∧ in_transactionId ≥ 0 then
    notify (.limitPowerTransferStatus in_portName in_limit status in_transactionId)
    let (status, currentPortStatus) ← getPortStatusHelper usb.mContaminantStatusPath
    notify (.portStatusChange currentPortStatus status)
  else return ()

/-- `limitPowerTransfer(in_portName, in_limit, in_transactionId)` -/
def limitPowerTransfer (in_portName : Text) (in_limit : Bool) (in_transactionId : Int) :
    Hal Unit := do
  let status ← restrictCharge in_limit
  assign (.limitedPower in_limit)
  reportPowerTransfer in_portName in_limit in_transactionId status

/-! ## Requests -/

def Flag.assignment (value : Bool) : Flag → Assignment
  | .usbDataDisabled => .usbDataDisabled value
  | .limitedPower => .limitedPower value

inductive Request
  | enableUsbData (in_enable : Bool)
  | limitPowerTransfer (in_limit : Bool)
  deriving DecidableEq

namespace Request

def flag : Request → Flag
  | .enableUsbData _ => .usbDataDisabled
  | .limitPowerTransfer _ => .limitedPower

/-- The value of the flag that is asked for. -/
def value : Request → Bool
  | .enableUsbData in_enable => !in_enable
  | .limitPowerTransfer in_limit => in_limit

def program (in_portName : Text) (in_transactionId : Int) : Request → Hal Unit
  | .enableUsbData in_enable => UsbHal.enableUsbData in_portName in_enable in_transactionId
  | .limitPowerTransfer in_limit => UsbHal.limitPowerTransfer in_portName in_limit in_transactionId

/-- The notification that carries the status of the call. -/
def notification (in_portName : Text) (in_transactionId : Int) (status : Status) :
    Request → Notification
  | .enableUsbData in_enable =>
      .enableUsbDataStatus in_portName in_enable status in_transactionId
  | .limitPowerTransfer in_limit =>
      .limitPowerTransferStatus in_portName in_limit status in_transactionId

/-- The calls whose status a callback gets to know. -/
def Notifies (in_transactionId : Int) : Request → Prop
  | .enableUsbData _ => True
  | .limitPowerTransfer _ => 0 ≤ in_transactionId

end Request

/-- The callback notifications in a list of operations. -/
def notifications (ops : List (Answered Op Res)) : List Notification :=
  ops.filterMap fun
    | ⟨.notify n, _⟩ => some n
    | _ => none

/-- A call that returned: its arguments, whether a callback was set, and what it did. -/
structure PortCall where
  request : Request
  in_portName : Text
  in_transactionId : Int
  mCallback : Bool
  ops : List (Answered Op Res)

inductive RequestEvent
  | call (x : PortCall)
  /-- Another thread or the system, which do not set the flags. -/
  | other

inductive RequestStep {σ : Type u} (w : World σ) : State σ → RequestEvent → State σ → Prop where
  | call {s s' : State σ} {request : Request} {in_portName : Text} {in_transactionId : Int} :
      (request.program in_portName in_transactionId).run w.step s = (.ok (), s') →
      RequestStep w s (.call ⟨request, in_portName, in_transactionId, s.usb.mCallback,
        (request.program in_portName in_transactionId).trace w.step s⟩) s'
  | other {s s' : State σ} :
      (∀ f : Flag, f.read s'.usb = f.read s.usb) → RequestStep w s .other s'

namespace PortCall

/-- The call ends with a notification of this status. -/
def Reported (x : PortCall) (status : Status) : Prop :=
  x.request.notification x.in_portName x.in_transactionId status ∈ notifications x.ops

instance (x : PortCall) (status : Status) : Decidable (x.Reported status) :=
  inferInstanceAs (Decidable (_ ∈ _))

/-- The call gets to the assignment of its flag. -/
def Assigns (x : PortCall) : Prop := x.request.flag.assignment x.request.value ∈ assigns x.ops

instance (x : PortCall) : Decidable x.Assigns := inferInstanceAs (Decidable (_ ∈ _))

/-- Somebody is told of the call; and if it limits the power, no write of it is refused. -/
def Confirmed (x : PortCall) : Prop :=
  x.mCallback = true ∧ x.request.Notifies x.in_transactionId ∧
    (x.request.flag = .limitedPower → ∀ y ∈ writes x.ops, y.2.2 = true)

end PortCall

/-- The value of the last call for a flag that was reported as `SUCCESS`. -/
def lastReported (f : Flag) (h : List RequestEvent) : Option Bool :=
  (h.filterMap fun
    | .call x => if x.request.flag = f ∧ x.Reported .SUCCESS then some x.request.value else none
    | .other => none).getLast?

/-- The flag as the notifications so far have it. -/
def expected {σ : Type u} (s₀ : State σ) (h : List RequestEvent) (f : Flag) : Bool :=
  (lastReported f h).getD (f.read s₀.usb)

/-- All along a history, the flags and the reports of the ports are what the notifications of the
calls say. -/
structure FollowsReports {σ : Type u} (w : World σ) (s₀ : State σ) (h : List RequestEvent) :
    Prop where
  flags : ∀ k t (f : Flag), Run (RequestStep w) s₀ (h.take k) t → f.read t.usb = expected s₀ (h.take k) f
  shown : ∀ k t path status statuses t', Run (RequestStep w) s₀ (h.take k) t → ¬ IsRoleSource path →
    (getPortStatusHelper path).run w.step t = (.ok (status, statuses), t') →
    Shows (expected s₀ (h.take k)) (w.ports t) statuses
  failed : ∀ k x t t' (f : Flag), h[k]? = some (.call x) → Run (RequestStep w) s₀ (h.take k) t →
    RequestStep w t (.call x) t' → x.Reported .ERROR → f.read t'.usb = f.read t.usb

/-- Each call that gives its flag another value is confirmed; and whenever the ports are reported,
the system has a role to read for each of them. -/
structure ConfirmsChanges {σ : Type u} (w : World σ) (s₀ : State σ) (h : List RequestEvent) :
    Prop where
  confirmed : ∀ k x t, h[k]? = some (.call x) → Run (RequestStep w) s₀ (h.take k) t → x.Assigns →
    x.Confirmed ∨ x.request.flag.read t.usb = x.request.value
  legible : ∀ k t path, Run (RequestStep w) s₀ (h.take k) t → ¬ IsRoleSource path →
    ∀ o ∈ (getPortStatusHelper path).trace w.step t, ¬ Illegible o.1 o.2

/-! ## Notifications -/

section Notifications

variable {σ : Type u} {w : World σ} {s s' : State σ} {n : Notification} {α : Type} {x : Hal α}

theorem notifications_append (ops ops' : List (Answered Op Res)) :
    notifications (ops ++ ops') = notifications ops ++ notifications ops' := List.filterMap_append

theorem mem_notifications {ops : List (Answered Op Res)} :
    n ∈ notifications ops ↔ (⟨.notify n, ()⟩ : Answered Op Res) ∈ ops := by
  rw [notifications, List.mem_filterMap]
  constructor
  · rintro ⟨⟨o, r⟩, hmem, heq⟩
    cases o <;> simp at heq
    subst heq
    exact hmem
  · intro hmem
    exact ⟨_, hmem, rfl⟩

theorem notifications_of_mute (hx : x.Performs Op.Mute) : notifications (x.trace w.step s) = [] := by
  refine List.eq_nil_iff_forall_not_mem.2 fun n hmem => ?_
  exact hx.trace _ (mem_notifications.1 hmem)

theorem restrictCharge_footprint {in_limit : Bool} : (restrictCharge in_limit).Performs
    (Op.In { writes := fun path => path = RESTRICT_CUR ∨ path = RESTRICT_CHG }) := by
  refine Performs.ite (fun _ => ?_) fun _ => ?_
  · refine Performs.bind (performs_writeFile.2 (Or.inl rfl)) fun _ => ?_
    exact Performs.bind (performs_writeFile.2 (Or.inr rfl)) fun _ => trivial
  · exact Performs.bind (performs_writeFile.2 (Or.inr rfl)) fun _ => trivial

/-- Both functions end with these two notifications. -/
def report (n : Notification) (contaminantStatusPath : Text) : Hal Unit := do
  notify n
  let (status, currentPortStatus) ← getPortStatusHelper contaminantStatusPath
  notify (.portStatusChange currentPortStatus status)

theorem report_quiet {path : Text} : (report n path).Performs Op.Quiet := by
  refine Performs.bind (performs_notify.2 trivial) fun _ => ?_
  exact Performs.bind getPortStatusHelper_quiet fun _ => performs_notify.2 trivial

/-- The first of the two is the only one on the call itself. -/
theorem notifications_report {path : Text} (hrun : (report n path).run w.step s = (.ok (), s')) :
    ∃ statuses status,
      notifications ((report n path).trace w.step s) = [n, .portStatusChange statuses status] := by
  have hfirst : (report n path).run w.step s =
      (getPortStatusHelper path >>= fun r => notify (.portStatusChange r.2 r.1)).run w.step s := rfl
  rw [hfirst] at hrun
  rcases run_bind_ok_inv hrun with ⟨⟨status, statuses⟩, t, hhelper, _⟩
  have htrace : (report n path).trace w.step s = ⟨.notify n, ()⟩ ::
      (getPortStatusHelper path >>= fun r => notify (.portStatusChange r.2 r.1)).trace w.step s := rfl
  refine ⟨statuses, status, ?_⟩
  rw [htrace, trace_bind_ok hhelper]
  have hsilent : (getPortStatusHelper path).Performs Op.Mute :=
    getPortStatusHelper_footprint.mono fun _ => Op.In.mute
  have hmute := notifications_of_mute (w := w) (s := s) hsilent
  calc
    notifications (⟨.notify n, ()⟩ :: ((getPortStatusHelper path).trace w.step s ++
          (notify (.portStatusChange statuses status)).trace w.step t))
        = n :: notifications ((getPortStatusHelper path).trace w.step s ++
            (notify (.portStatusChange statuses status)).trace w.step t) := rfl
    _ = [n, .portStatusChange statuses status] := by
          rw [notifications_append, hmute]
          rfl

end Notifications

/-! ## One call -/

section Call

variable {σ : Type u} {w : World σ} {s s' : State σ} {x : PortCall} {n m : Notification}

/-- The object after a program is the object before it with the assignments made. -/
theorem usb_run {α : Type} (w : World σ) (p : Hal α) (s : State σ) :
    (p.run w.step s).2.usb = (assigns (p.trace w.step s)).foldl Assignment.apply s.usb := by
  induction p generalizing s with
  | pure a => rfl
  | throw e => rfl
  | perform o next ih =>
      have hrest := ih (w.step o s).1 (w.step o s).2
      cases o <;> exact hrest

/-- No operation sets or clears the callback. -/
theorem mCallback_run {α : Type} (w : World σ) (p : Hal α) (s : State σ) :
    (p.run w.step s).2.usb.mCallback = s.usb.mCallback := by
  have hkeep : ∀ (o : Op) (t : State σ), True → t.usb.mCallback = s.usb.mCallback →
      (w.step o t).2.usb.mCallback = s.usb.mCallback := by
    intro o t _ ht
    cases o with
    | assign a => cases a <;> exact ht
    | _ => exact ht
  exact Performs.any.invariant (fun t : State σ => t.usb.mCallback = s.usb.mCallback) hkeep rfl

/-- The end of both functions. -/
def reportIf (c : Usb → Prop) [DecidablePred c] (n : Notification) : Hal Unit := do
  let usb ← fields
  if c usb then report n usb.mContaminantStatusPath else return ()

theorem reportIf_quiet {c : Usb → Prop} [DecidablePred c] : (reportIf c n).Performs Op.Quiet := by
  refine Performs.bind (performs_fields.2 trivial) fun usb => ?_
  exact Performs.ite (fun _ => report_quiet) fun _ => trivial

theorem mem_notifications_reportIf {c : Usb → Prop} [DecidablePred c]
    (hm : ∀ statuses status, m ≠ .portStatusChange statuses status)
    (hrun : (reportIf c n).run w.step s = (.ok (), s')) :
    m ∈ notifications ((reportIf c n).trace w.step s) ↔ m = n ∧ c s.usb := by
  have hfirst : (reportIf c n).run w.step s =
      (if c s.usb then report n s.usb.mContaminantStatusPath else Pure.pure ()).run w.step s := rfl
  have htrace : notifications ((reportIf c n).trace w.step s) = notifications
      ((if c s.usb then report n s.usb.mContaminantStatusPath else Pure.pure ()).trace w.step s) :=
    rfl
  rw [hfirst] at hrun
  rw [htrace]
  by_cases hc : c s.usb
  · rw [if_pos hc] at hrun ⊢
    rcases notifications_report hrun with ⟨statuses, status, heq⟩
    simp [heq, hm statuses status, hc]
  · rw [if_neg hc]
    simp [notifications, hc]

/-- The status of `limitPowerTransfer` says whether every write was accepted. -/
theorem restrictCharge_run (w : World σ) (s : State σ) (in_limit : Bool) :
    ∃ status t, (restrictCharge in_limit).run w.step s = (.ok status, t) ∧
      (status = .SUCCESS ↔
        ∀ y ∈ writes ((restrictCharge in_limit).trace w.step s), y.2.2 = true) := by
  cases in_limit with
  | true =>
      rw [restrictCharge, if_pos rfl, run_writeFile, trace_writeFile, run_writeFile, trace_writeFile]
      generalize (w.writeFile "0" RESTRICT_CUR s.world).1 = cur
      generalize (w.writeFile "1" RESTRICT_CHG _).1 = chg
      refine ⟨_, _, rfl, ?_⟩
      cases cur <;> cases chg <;> simp [writes]
  | false =>
      rw [restrictCharge, if_neg Bool.false_ne_true, run_writeFile, trace_writeFile]
      generalize (w.writeFile "0" RESTRICT_CHG s.world).1 = chg
      refine ⟨_, _, rfl, ?_⟩
      cases chg <;> simp [writes]

theorem Flag.read_foldl (usb : Usb) (f g : Flag) (value : Bool) :
    f.read ([g.assignment value].foldl Assignment.apply usb) = if g = f then value else f.read usb := by
  cases f <;> cases g <;> rfl

/-- What a call did: at most its assignment, and the notification with its status. -/
structure PortCall.Did (x : PortCall) (s s' : State σ) (status : Status) : Prop where
  usb : s'.usb = (assigns x.ops).foldl Assignment.apply s.usb
  assigns : assigns x.ops = [] ∨
    UsbHal.assigns x.ops = [x.request.flag.assignment x.request.value]
  reported : ∀ st, x.Reported st ↔
    st = status ∧ x.mCallback = true ∧ x.request.Notifies x.in_transactionId
  succeeds : status = .SUCCESS ↔
    x.Assigns ∧ (x.request.flag = .limitedPower → ∀ y ∈ writes x.ops, y.2.2 = true)

theorem enableUsbData_did {in_portName : Text} {in_enable : Bool} {in_transactionId : Int}
    (hrun : (enableUsbData in_portName in_enable in_transactionId).run w.step s = (.ok (), s')) :
    ∃ status, PortCall.Did ⟨.enableUsbData in_enable, in_portName, in_transactionId,
      s.usb.mCallback, (enableUsbData in_portName in_enable in_transactionId).trace w.step s⟩
      s s' status := by
  rcases run_bind_ok_inv hrun with ⟨status, t, hswitch, hreport⟩
  have htrace : (enableUsbData in_portName in_enable in_transactionId).trace w.step s =
      (switchUsbData in_enable).trace w.step s ++
        (reportUsbData in_portName in_enable in_transactionId status).trace w.step t :=
    trace_bind_ok hswitch
  have hassigns : assigns ((enableUsbData in_portName in_enable in_transactionId).trace w.step s) =
      assigns ((switchUsbData in_enable).trace w.step s) := by
    rw [htrace, assigns_append, assigns_of_quiet reportUsbData_quiet, List.append_nil]
  have hcases := switchUsbData_run hswitch
  have hcallback : t.usb.mCallback = s.usb.mCallback := by
    simpa [hswitch] using mCallback_run w (switchUsbData in_enable) s
  refine ⟨status, ?_, ?_, ?_, ?_⟩
  · have husb := usb_run w (enableUsbData in_portName in_enable in_transactionId) s
    rw [hrun] at husb
    exact husb
  · rw [hassigns]
    rcases hcases with ⟨_, hnone⟩ | ⟨_, hone, _⟩
    · exact Or.inl hnone
    · exact Or.inr hone
  · intro st
    have hmem := mem_notifications_reportIf (c := fun usb => usb.mCallback = true)
      (m := .enableUsbDataStatus in_portName in_enable st in_transactionId)
      (n := .enableUsbDataStatus in_portName in_enable status in_transactionId)
      (fun _ _ h => Notification.noConfusion h) hreport
    rw [PortCall.Reported, htrace, notifications_append,
      notifications_of_mute (switchUsbData_footprint.mono fun _ => Op.In.mute)]
    rw [hcallback] at hmem
    refine hmem.trans ?_
    simp [Request.Notifies]
  · rw [PortCall.Assigns, hassigns]
    rcases hcases with ⟨hstatus, hnone⟩ | ⟨hstatus, hone, _⟩
    · simp [hnone, hstatus]
    · simp [hone, hstatus, Request.flag, Request.value, Flag.assignment]

theorem limitPowerTransfer_did {in_portName : Text} {in_limit : Bool} {in_transactionId : Int}
    (hrun : (limitPowerTransfer in_portName in_limit in_transactionId).run w.step s = (.ok (), s')) :
    ∃ status, PortCall.Did ⟨.limitPowerTransfer in_limit, in_portName, in_transactionId,
      s.usb.mCallback, (limitPowerTransfer in_portName in_limit in_transactionId).trace w.step s⟩
      s s' status := by
  rcases restrictCharge_run w s in_limit with ⟨status, t, hrestrict, hstatus⟩
  have hrest : (limitPowerTransfer in_portName in_limit in_transactionId).run w.step s =
      (reportPowerTransfer in_portName in_limit in_transactionId status).run w.step
        (w.step (.assign (.limitedPower in_limit)) t).2 := by
    rw [limitPowerTransfer, run_bind_ok hrestrict]
    rfl
  have htrace : (limitPowerTransfer in_portName in_limit in_transactionId).trace w.step s =
      (restrictCharge in_limit).trace w.step s ++ ⟨.assign (.limitedPower in_limit), ()⟩ ::
        (reportPowerTransfer in_portName in_limit in_transactionId status).trace w.step
          (w.step (.assign (.limitedPower in_limit)) t).2 := by
    rw [limitPowerTransfer, trace_bind_ok hrestrict]
    rfl
  have hquiet : (reportPowerTransfer in_portName in_limit in_transactionId status).Performs
      Op.Quiet := reportIf_quiet
  have hassigns : assigns ((limitPowerTransfer in_portName in_limit in_transactionId).trace w.step s) =
      [.limitedPower in_limit] := by
    rw [htrace, assigns_append,
      assigns_of_within (restrictCharge_footprint.mono fun _ => Op.In.within), List.nil_append]
    exact congrArg (_ :: ·) (assigns_of_quiet hquiet)
  have hwrites : writes ((limitPowerTransfer in_portName in_limit in_transactionId).trace w.step s) =
      writes ((restrictCharge in_limit).trace w.step s) := by
    have hreport := writes_of_quiet (w := w) (s := (w.step (.assign (.limitedPower in_limit)) t).2)
      hquiet
    rw [htrace, writes_append]
    exact (congrArg (_ ++ ·) hreport).trans (List.append_nil _)
  have hcallback : t.usb.mCallback = s.usb.mCallback := by
    simpa [hrestrict] using mCallback_run w (restrictCharge in_limit) s
  -- the flag is assigned whatever the writes return, so that only they decide about the status
  refine ⟨status, ?_, Or.inr hassigns, ?_, ?_⟩
  · have husb := usb_run w (limitPowerTransfer in_portName in_limit in_transactionId) s
    rw [hrun] at husb
    exact husb
  · intro st
    rw [hrest] at hrun
    have hmem := mem_notifications_reportIf
      (c := fun usb => usb.mCallback = true ∧ in_transactionId ≥ 0)
      (m := .limitPowerTransferStatus in_portName in_limit st in_transactionId)
      (n := .limitPowerTransferStatus in_portName in_limit status in_transactionId)
      (fun _ _ h => Notification.noConfusion h) hrun
    rw [PortCall.Reported, htrace, notifications_append,
      notifications_of_mute (restrictCharge_footprint.mono fun _ => Op.In.mute)]
    have hheard : (w.step (.assign (.limitedPower in_limit)) t).2.usb.mCallback = s.usb.mCallback :=
      hcallback
    rw [hheard] at hmem
    refine hmem.trans ?_
    simp [Request.Notifies]
  · rw [PortCall.Assigns, hassigns, hwrites, hstatus]
    simp [Request.flag, Request.value, Flag.assignment]

/-- The flags after a call, and when it is reported as a success. -/
theorem RequestStep.call_inv (h : RequestStep w s (.call x) s') :
    (∀ f : Flag, f.read s'.usb =
      if x.request.flag = f ∧ x.Assigns then x.request.value else f.read s.usb) ∧
    (x.Reported .SUCCESS ↔ x.Assigns ∧ x.Confirmed) ∧
    (x.Reported .ERROR → ¬ x.Reported .SUCCESS) := by
  have hdid : ∃ status, x.Did s s' status := by
    cases h with
    | @call _ request in_portName in_transactionId hrun =>
        cases request with
        | enableUsbData in_enable => exact enableUsbData_did hrun
        | limitPowerTransfer in_limit => exact limitPowerTransfer_did hrun
  rcases hdid with ⟨status, hdid⟩
  refine ⟨fun f => ?_, ?_, ?_⟩
  · rw [hdid.usb]
    rcases hdid.assigns with hnone | hone
    · have hnot : ¬ x.Assigns := by simp [PortCall.Assigns, hnone]
      simp [hnone, hnot]
    · have hassigns : x.Assigns := by simp [PortCall.Assigns, hone]
      rw [hone, Flag.read_foldl]
      simp [hassigns]
  · rw [hdid.reported]
    constructor
    · rintro ⟨hstatus, hcallback, hnotifies⟩
      rcases hdid.succeeds.1 hstatus.symm with ⟨hassigns, haccepted⟩
      exact ⟨hassigns, hcallback, hnotifies, haccepted⟩
    · rintro ⟨hassigns, hcallback, hnotifies, haccepted⟩
      exact ⟨(hdid.succeeds.2 ⟨hassigns, haccepted⟩).symm, hcallback, hnotifies⟩
  · intro herror hsuccess
    have hone := ((hdid.reported _).1 herror).1
    rw [← ((hdid.reported _).1 hsuccess).1] at hone
    cases hone

end Call

/-! ## Runs of calls -/

section Runs

variable {σ : Type u} {w : World σ} {s₀ s : State σ} {h : List RequestEvent} {e : RequestEvent}
  {x : PortCall}

theorem lastReported_snoc {f : Flag} : lastReported f (h ++ [.call x]) =
    if x.request.flag = f ∧ x.Reported .SUCCESS then some x.request.value else lastReported f h := by
  by_cases hlast : x.request.flag = f ∧ x.Reported .SUCCESS
  · simp [lastReported, List.filterMap_append, hlast]
  · simp [lastReported, List.filterMap_append, hlast]

theorem lastReported_other {f : Flag} : lastReported f (h ++ [.other]) = lastReported f h := by
  simp [lastReported, List.filterMap_append]

theorem expected_snoc {f : Flag} : expected s₀ (h ++ [.call x]) f =
    if x.request.flag = f ∧ x.Reported .SUCCESS then x.request.value else expected s₀ h f := by
  rw [expected, lastReported_snoc]
  by_cases hlast : x.request.flag = f ∧ x.Reported .SUCCESS
  · simp only [if_pos hlast, Option.getD_some]
  · simp only [if_neg hlast, expected]

/-- A call takes the flags along with its notification exactly if it is confirmed or changes
nothing. -/
theorem RequestStep.expected_iff {s s' : State σ} (hstep : RequestStep w s (.call x) s')
    (hbefore : ∀ f : Flag, f.read s.usb = expected s₀ h f) :
    (∀ f : Flag, f.read s'.usb = expected s₀ (h ++ [.call x]) f) ↔
      (x.Assigns → x.Confirmed ∨ x.request.flag.read s.usb = x.request.value) := by
  rcases hstep.call_inv with ⟨hflags, hreported, _⟩
  constructor
  · intro hafter hassigns
    by_cases hconfirmed : x.Confirmed
    · exact Or.inl hconfirmed
    have hsilent : ¬ x.Reported .SUCCESS := fun hsuccess => hconfirmed (hreported.1 hsuccess).2
    have hvalue := hafter x.request.flag
    rw [hflags, expected_snoc, if_pos ⟨rfl, hassigns⟩, if_neg (fun hboth => hsilent hboth.2),
      ← hbefore] at hvalue
    exact Or.inr hvalue.symm
  · intro hmeets f
    rw [hflags, expected_snoc, hbefore f]
    by_cases hflag : x.request.flag = f
    · by_cases hassigns : x.Assigns
      · rw [if_pos ⟨hflag, hassigns⟩]
        by_cases hconfirmed : x.Confirmed
        · rw [if_pos ⟨hflag, hreported.2 ⟨hassigns, hconfirmed⟩⟩]
        · have hsame := (hmeets hassigns).resolve_left hconfirmed
          rw [hflag, hbefore f] at hsame
          rw [if_neg (fun hboth => hconfirmed (hreported.1 hboth.2).2), hsame]
      · rw [if_neg (fun hboth => hassigns hboth.2),
          if_neg (fun hboth => hassigns (hreported.1 hboth.2).1)]
    · rw [if_neg (fun hboth => hflag hboth.1), if_neg (fun hboth => hflag hboth.1)]

/-- If every change of a flag is confirmed, the flags are what was reported. -/
theorem flags_of_confirms (hconfirms : ConfirmsChanges w s₀ h) (k : Nat) {t : State σ}
    (hrun : Run (RequestStep w) s₀ (h.take k) t) (f : Flag) :
    f.read t.usb = expected s₀ (h.take k) f := by
  -- one more event at a time; past the end of the history there is none
  induction k generalizing t f with
  | zero =>
      have ht : t = s₀ := hrun.nil_inv
      rw [ht]
      rfl
  | succ k ih =>
      cases hk : h[k]? with
      | none =>
          have hlen : h.length ≤ k := List.getElem?_eq_none_iff.1 hk
          rw [List.take_of_length_le (by omega)] at hrun ⊢
          have hsame : h.take k = h := List.take_of_length_le hlen
          have hpre := ih (t := t) (by rwa [hsame]) f
          rwa [hsame] at hpre
      | some e =>
          rw [take_succ_eq hk] at hrun ⊢
          rcases hrun.snoc_inv with ⟨t', hpre, hstep⟩
          have hbefore : ∀ f : Flag, f.read t'.usb = expected s₀ (h.take k) f := fun f => ih hpre f
          cases e with
          | call x => exact (hstep.expected_iff hbefore).2 (hconfirms.confirmed k x t' hk hpre) f
          | other =>
              cases hstep with
              | other hkeep => rw [hkeep, hbefore, expected, expected, lastReported_other]

/-- If the flags are what was reported, the ports are shown with it exactly if no role is illegible. -/
theorem legible_iff_follows {t : State σ} {path : Text} (hpath : ¬ IsRoleSource path)
    (hflags : ∀ f : Flag, f.read t.usb = expected s₀ h f) :
    (∀ o ∈ (getPortStatusHelper path).trace w.step t, ¬ Illegible o.1 o.2) ↔
      ∀ status statuses t', (getPortStatusHelper path).run w.step t = (.ok (status, statuses), t') →
        Shows (expected s₀ h) (w.ports t) statuses := by
  have hsame : (fun f : Flag => f.read t.usb) = expected s₀ h := funext hflags
  rw [← hsame]
  exact legible_iff_shows hpath

/-- Along every sequence of calls, the flags and the reports of the ports follow the notifications
exactly if every call that changes a flag is confirmed and the roles of the ports can be read. -/
theorem followsReports_iff (hrun : Run (RequestStep w) s₀ h s) :
    FollowsReports w s₀ h ↔ ConfirmsChanges w s₀ h := by
  constructor
  · intro hfollows
    constructor
    · intro k x t hk hpre hassigns
      rcases hrun.atIndex hk with ⟨t₁, t₂, hpre₁, hstep, _⟩
      have hpost : Run (RequestStep w) s₀ (h.take (k + 1)) t₂ := by
        rw [take_succ_eq hk]
        exact Run.snoc _ hpre₁ hstep
      have hafter := fun f => hfollows.flags (k + 1) t₂ f hpost
      rw [take_succ_eq hk] at hafter
      have hmeets := (hstep.expected_iff fun f => hfollows.flags k t₁ f hpre₁).1 hafter hassigns
      -- the flags after the same calls are the same, whatever the others did
      rwa [hfollows.flags k t₁ _ hpre₁, ← hfollows.flags k t _ hpre] at hmeets
    · intro k t path hpre hpath
      exact (legible_iff_follows hpath fun f => hfollows.flags k t f hpre).2
        fun status statuses t' hhelper => hfollows.shown k t path status statuses t' hpre hpath hhelper
  · intro hconfirms
    refine ⟨fun k t f hpre => flags_of_confirms hconfirms k hpre f, ?_, ?_⟩
    · intro k t path status statuses t' hpre hpath hhelper
      exact (legible_iff_follows hpath fun f => flags_of_confirms hconfirms k hpre f).1
        (hconfirms.legible k t path hpre hpath) status statuses t' hhelper
    · intro k x t t' f hk hpre hstep herror
      have hpost : Run (RequestStep w) s₀ (h.take (k + 1)) t' := by
        rw [take_succ_eq hk]
        exact Run.snoc _ hpre hstep
      have hafter := flags_of_confirms hconfirms (k + 1) hpost f
      rw [take_succ_eq hk, expected_snoc,
        if_neg (fun hboth => hstep.call_inv.2.2 herror hboth.2)] at hafter
      rw [hafter, flags_of_confirms hconfirms k hpre f]

end Runs

/-! ## A limit that is refused -/

/-- The scripted system with a port, at which nothing is connected. -/
def World.onePort : World (List Bool) :=
  { World.scripted with
    listDirectory := fun path x => (some [⟨.DT_LNK,
      if path = "/sys/class/typec/" then "port0" else "a600000.ssusb"⟩], x) }

/-- The object with a callback, under a system that answers the writes in this way. -/
def requestInitial (accepted : List Bool) : State (List Bool) :=
  ⟨{ (dataInitial accepted).usb with mCallback := true }, accepted⟩

def requestOf (s : State (List Bool)) (request : Request) : PortCall :=
  ⟨request, "port0", 1, s.usb.mCallback, (request.program "port0" 1).trace World.onePort.step s⟩

def afterRequest (s : State (List Bool)) (request : Request) : State (List Bool) :=
  ((request.program "port0" 1).run World.onePort.step s).2

theorem request_run {s : State (List Bool)} {request : Request}
    (hok : ((request.program "port0" 1).run World.onePort.step s).1 = .ok ()) :
    Run (RequestStep World.onePort) s [.call (requestOf s request)] (afterRequest s request) :=
  Run.single (.call (Prod.ext hok rfl))

/-- Of a port without a partner no role is read. -/
theorem onePort_legible {t : State (List Bool)} {path : Text} (hpath : ¬ IsRoleSource path) :
    ∀ o ∈ (getPortStatusHelper path).trace World.onePort.step t, ¬ Illegible o.1 o.2 := by
  intro o ho hbad
  rcases (getPortStatusHelper_stops hpath).trace_iff.1 ⟨o, ho, hbad⟩ with ⟨r, t', hrun, hfailed⟩
  refine hfailed ?_
  cases path <;> cases hrun <;> rfl

/-- Data is switched off and then the power limited, and every write is accepted. -/
def offThenLimit : List RequestEvent :=
  [.call (requestOf (requestInitial []) (.enableUsbData false)),
    .call (requestOf (afterRequest (requestInitial []) (.enableUsbData false))
      (.limitPowerTransfer true))]

theorem followsReports_accepted :
    FollowsReports World.onePort (requestInitial []) offThenLimit ∧
      World.onePort.ports (requestInitial []) = ["port0".toList] ∧
      lastReported .usbDataDisabled offThenLimit = some true ∧
      lastReported .limitedPower offThenLimit = some true := by
  have hrun : Run (RequestStep World.onePort) (requestInitial []) offThenLimit
      (afterRequest (afterRequest (requestInitial []) (.enableUsbData false))
        (.limitPowerTransfer true)) :=
    (request_run (by decide +kernel)).trans (request_run (by decide +kernel))
  refine ⟨(followsReports_iff hrun).2 ⟨?_, fun k t path _ hpath => onePort_legible hpath⟩,
    by decide +kernel, by decide +kernel, by decide +kernel⟩
  intro k x t hk _ _
  rcases k with _ | _ | k
  · cases hk
    exact Or.inl ⟨rfl, trivial, fun h => nomatch h⟩
  · cases hk
    exact Or.inl ⟨by decide +kernel, (by decide : (0 : Int) ≤ 1), fun _ => by decide +kernel⟩
  · cases hk

/-- The first write of a limit is refused: the call is reported as an error, and still sets the
flag. -/
theorem limit_kept_after_error :
    (requestOf (requestInitial [false]) (.limitPowerTransfer true)).Reported .ERROR ∧
      ¬ FollowsReports World.onePort (requestInitial [false])
        [.call (requestOf (requestInitial [false]) (.limitPowerTransfer true))] := by
  refine ⟨by decide +kernel, fun hfollows => ?_⟩
  have hrun : Run (RequestStep World.onePort) (requestInitial [false])
      [.call (requestOf (requestInitial [false]) (.limitPowerTransfer true))]
      (afterRequest (requestInitial [false]) (.limitPowerTransfer true)) :=
    request_run (by decide +kernel)
  have hflag := hfollows.flags 1 _ .limitedPower hrun
  exact absurd hflag (by decide +kernel)

end UsbHal
end M2391Device
