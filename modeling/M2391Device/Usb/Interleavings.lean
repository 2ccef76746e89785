import M2391Device.Usb.LockDiscipline

/-!
# Interleavings — any number of threads on the object of the HAL

Binder threads make any calls and workers handle any datagrams, interleaved at every operation, while
the system changes as it likes.  No thread is ever stuck behind another one that is stuck
(`calls_progress`), save that `setCallback` waits for the end of a worker, with no lock held; the
callback is called only while it is set (`notified_agrees`), and a role node is written by nobody but
the thread that has the role switch to itself (`role_nodes_exclusive`).
-/

namespace M2391Device
namespace UsbHal

open Program Locks Transition

universe u v

/-! ## Programs under their locks -/

section Obedience

variable {σ : Type u} {w : ServiceWorld σ} {H : Set Mutex} {s t : State σ} {α β : Type}

/-- Obeying the discipline of the HAL. -/
abbrev Keeps (w : ServiceWorld σ) (Q : α → Set Mutex → State σ → Prop) (p : Threaded.Thread α)
    (H : Set Mutex) (s : State σ) : Prop := Obeys w.machine discipline Q p H s

/-- The state has not changed as far as the locks go. -/
abbrev Agrees (H : Set Mutex) (s t : State σ) : Prop := (discipline (σ := σ)).Agree H s t

theorem agrees_of_usb (h : t.usb = s.usb) : Agrees H s t := fun l _ => l.same_of_usb h

theorem underLock_of_agrees (hlock : .mLock ∈ H) (h : Agrees H s t) :
    t.usb.underLock = s.usb.underLock := Eq.symm (h .mLock hlock)

theorem mCallback_of_agrees (hlock : .mLock ∈ H) (h : Agrees H s t) :
    t.usb.mCallback = s.usb.mCallback := by
  have hsame := congrArg Shared.mCallback (underLock_of_agrees hlock h)
  exact hsame

theorem flag_of_agrees (hlock : .mLock ∈ H) (h : Agrees H s t) (f : Flag) :
    f.read t.usb = f.read s.usb := by
  have hdata := congrArg Shared.usbDataDisabled (underLock_of_agrees hlock h)
  have hpower := congrArg Shared.limitedPower (underLock_of_agrees hlock h)
  cases f with
  | usbDataDisabled => exact hdata
  | limitedPower => exact hpower

/-- How the operations of the HAL are answered among other threads. -/
def Among (w : ServiceWorld σ) (H : Set Mutex) (o : Op) (s : State σ) (r : Res o) (s' : State σ) : Prop :=
  ∃ t, Agrees H s t ∧ r = (w.toWorld.step o t).1 ∧ s' = (w.toWorld.step o t).2

theorem steady_among (hlock : .mLock ∈ H) (s : State σ) :
    Steady (Among w H) (Agrees H s) fun f => f.read s.usb where
  kept := by
    rintro o s₁ _ _ ho hs₁ ⟨t, ht, rfl, rfl⟩
    refine hs₁.trans (ht.trans (agrees_of_usb ?_))
    cases o <;> first | rfl | exact ho.elim
  shown := by
    rintro s₁ _ _ hs₁ ⟨t, ht, rfl, rfl⟩ f
    exact flag_of_agrees hlock (hs₁.trans ht) f

theorem meets_ofHal {x : Hal α} {I : State σ → Prop} {G : α → State σ → Prop}
    {E : Terminated → State σ → Prop} (h : x.Meets (Among w H) I G E s) :
    (ofHal x).Meets (Obeys.answers w.machine discipline H) I G E s := by
  induction x generalizing s with
  | pure a => exact h
  | throw e => exact h
  | perform o next ih =>
      refine ⟨h.1, ?_⟩
      rintro _ _ ⟨t, ht, rfl, rfl⟩
      exact ih _ (h.2 _ _ ⟨t, ht, rfl, rfl⟩)

theorem under_allows (o : ServiceOp) (t : State σ) (ho : o.Under H) :
    o.Allowed H t ∧ ∀ l, l ∉ H → l.Same t (w.step o t).2 :=
  ⟨ho.allowed, fun _ hl => ho.allowed.same hl⟩

theorem keeps_service {x : Service α} (hx : x.Performs (ServiceOp.Under H)) :
    Keeps w (fun _ H' _ => H' = H) (Threaded.service x) H s := Obeys.lift_any hx under_allows

theorem keeps_hal {x : Hal α} (hx : x.Performs (Op.Under H)) :
    Keeps w (fun _ H' _ => H' = H) (Threaded.hal x) H s := keeps_service (performs_ofHal hx)

/-- With a contract on the result. -/
theorem keeps_meets {x : Hal α} {I : State σ → Prop} {G : α → State σ → Prop}
    {E : Terminated → State σ → Prop} (hx : x.Performs (Op.Under H))
    (hmeets : x.Meets (Among w H) I G E s) :
    Keeps w (fun a H' t => H' = H ∧ G a t) (Threaded.hal x) H s :=
  Obeys.lift (performs_ofHal hx) under_allows (meets_ofHal hmeets)

theorem hal_bind (x : Hal α) (f : α → Hal β) :
    Threaded.hal (x >>= f) = Threaded.hal x >>= fun a => Threaded.hal (f a) := by
  rw [Threaded.hal, ofHal_bind, lift_bind]
  rfl

theorem service_bind (x : Service α) (f : α → Service β) :
    Threaded.service (x >>= f) = Threaded.service x >>= fun a => Threaded.service (f a) :=
  lift_bind x f

theorem hal_ite {c : Prop} [Decidable c] (x y : Hal α) :
    Threaded.hal (if c then x else y) = if c then Threaded.hal x else Threaded.hal y :=
  apply_ite Threaded.hal c x y

theorem service_ite {c : Prop} [Decidable c] (x y : Service α) :
    Threaded.service (if c then x else y) = if c then Threaded.service x else Threaded.service y :=
  apply_ite Threaded.service c x y

theorem keeps_fields :
    Keeps w (fun usb H' t => H' = H ∧ usb = t.usb ∧ Agrees H s t) (Threaded.hal fields) H s :=
  fun t ht => ⟨trivial, fun l _ => l.Same.refl t, rfl, rfl, ht⟩

theorem keeps_assign {a : Assignment} (ha : ∀ l, a.guard = some l → l ∈ H) :
    Keeps w (fun _ H' t => H' = H ∧ ∃ usb, t.usb = a.apply usb) (Threaded.hal (assign a)) H s := by
  intro t _
  have hallowed : (ServiceOp.hal (.assign a)).Allowed H t := ha
  exact ⟨hallowed, fun l hl => hallowed.same (w := w) hl, rfl, t.usb, rfl⟩

theorem keeps_notify {n : Notification} (hlock : .mLock ∈ H)
    (h : ∀ t, Agrees H s t → t.usb.mCallback = true ∧ n.Agrees t.usb) :
    Keeps w (fun _ H' t => H' = H ∧ Agrees H s t) (Threaded.hal (notify n)) H s :=
  fun t ht => ⟨⟨hlock, h t ht⟩, fun l _ => l.Same.refl t, rfl, ht⟩

theorem keeps_reply {r : Reply} (hlock : .mLock ∈ H) (hcallback : s.usb.mCallback = true) :
    Keeps w (fun _ H' _ => H' = H) (Threaded.service (reply r)) H s :=
  fun t ht => ⟨⟨hlock, by rw [mCallback_of_agrees hlock ht, hcallback]⟩, fun l _ => l.Same.refl t, rfl⟩

/-! ### Reports -/

/-- The status of the ports, reported to a callback that is set, and what comes after. -/
theorem keeps_portStatusChange {path : Text} {Q : α → Set Mutex → State σ → Prop}
    {k : Status × List PortStatus → Threaded.Thread α} (hlock : .mLock ∈ H)
    (hcallback : s.usb.mCallback = true) (hk : ∀ r t, Agrees H s t → Keeps w Q (k r) H t) :
    Keeps w Q (Threaded.hal (getPortStatusHelper path) >>= fun r =>
      Threaded.hal (notify (.portStatusChange r.2 r.1)) >>= fun _ => k r) H s := by
  have hsteady := steady_among (w := w) hlock s
  have hmeets : (getPortStatusHelper path).Meets _ _ _ _ s :=
    getPortStatusHelper_meets hsteady (Discipline.Agree.refl _ _ _)
  refine Obeys.bind ((keeps_meets (under_of_reads getPortStatusHelper_footprint)
    hmeets.and_invariant).mono ?_)
  rintro ⟨status, statuses⟩ _ t ⟨rfl, ht, hrepeats⟩
  refine Obeys.bind ((keeps_notify hlock fun t' ht' => ⟨?_, ?_⟩).mono ?_)
  · rw [mCallback_of_agrees hlock (ht.trans ht'), hcallback]
  · have hflags : (fun f : Flag => f.read t'.usb) = fun f => f.read s.usb :=
      funext (flag_of_agrees hlock (ht.trans ht'))
    change ∀ p ∈ statuses, p.usbDataStatus ≠ [] → Repeats (fun f => f.read t'.usb) p
    rw [hflags]
    exact hrepeats
  · rintro _ _ t' ⟨rfl, ht'⟩
    exact hk _ t' (ht.trans ht')

/-- The end of the two functions that set a flag. -/
theorem keeps_reportIf {c : Usb → Prop} [DecidablePred c] {n : Notification} (hlock : .mLock ∈ H)
    (hc : ∀ usb, c usb → usb.mCallback = true) (hn : ∀ t, Agrees H s t → n.Agrees t.usb) :
    Keeps w (fun _ H' _ => H' = H) (Threaded.hal (reportIf c n)) H s := by
  rw [reportIf, hal_bind]
  refine Obeys.bind (keeps_fields.mono ?_)
  rintro _ _ t ⟨rfl, rfl, ht⟩
  rw [hal_ite]
  refine Obeys.ite (fun hset => ?_) fun _ => rfl
  have hcallback : t.usb.mCallback = true := hc _ hset
  rw [report, hal_bind]
  refine Obeys.bind ((keeps_notify hlock fun t' ht' => ⟨?_, hn t' (ht.trans ht')⟩).mono ?_)
  · rw [mCallback_of_agrees hlock ht', hcallback]
  rintro _ _ t' ⟨rfl, ht'⟩
  have hset' : t'.usb.mCallback = true := by rw [mCallback_of_agrees hlock ht', hcallback]
  rw [hal_bind]
  exact keeps_portStatusChange (k := fun _ => Pure.pure ()) hlock hset' fun _ _ _ => rfl

/-- The end of the functions that only answer. -/
theorem keeps_notifyIf {n : Notification} (hlock : .mLock ∈ H) (hn : ∀ usb, n.Agrees usb) :
    Keeps w (fun _ H' _ => H' = H)
      (Threaded.hal (fields >>= fun usb => if usb.mCallback then notify n else Pure.pure ())) H s := by
  rw [hal_bind]
  refine Obeys.bind (keeps_fields.mono ?_)
  rintro _ _ t ⟨rfl, rfl, _⟩
  rw [hal_ite]
  refine Obeys.ite (fun hset => ?_) fun _ => rfl
  refine (keeps_notify hlock fun t' ht' => ⟨?_, hn _⟩).mono fun _ _ _ h => h.1
  rw [mCallback_of_agrees hlock ht', hset]

theorem keeps_replyIf {c : Usb → Prop} [DecidablePred c] {r : Reply} (hlock : .mLock ∈ H)
    (hc : ∀ usb, c usb → usb.mCallback = true) :
    Keeps w (fun _ H' _ => H' = H)
      (Threaded.service (ofHal fields >>= fun usb => if c usb then reply r else Pure.pure ())) H s := by
  rw [service_bind]
  refine Obeys.bind (keeps_fields.mono ?_)
  rintro _ _ t ⟨rfl, rfl, _⟩
  rw [service_ite]
  exact Obeys.ite (fun hset => keeps_reply hlock (hc _ hset)) fun _ => rfl

theorem keeps_reportPortStatus (hlock : .mLock ∈ H) :
    Keeps w (fun _ H' _ => H' = H) (Threaded.hal reportPortStatus) H s := by
  rw [reportPortStatus, hal_bind]
  refine Obeys.bind (keeps_fields.mono ?_)
  rintro _ _ t ⟨rfl, rfl, _⟩
  rw [hal_ite]
  refine Obeys.ite (fun hset => ?_) fun _ => rfl
  rw [hal_bind]
  exact keeps_portStatusChange (k := fun r => Pure.pure r.2) hlock hset fun _ _ _ => rfl

/-! ### The calls -/

/-- A program that ends with the locks it began with. -/
abbrev Balanced (w : ServiceWorld σ) (p : Threaded.Thread α) (H : Set Mutex) (s : State σ) : Prop :=
  Keeps w (fun _ H' _ => H' = H) p H s

theorem balanced_withLock {l : Mutex} {p : Threaded.Thread α}
    (hbelow : ∀ h ∈ H, l.level < Mutex.level h) (hp : ∀ t, Balanced w p (insert l H) t) :
    Balanced w (withLock l p) H s :=
  Obeys.withLock hbelow fun t _ => (hp t).mono fun _ _ _ h => ⟨h, rfl⟩

/-- The functions that hold `mLock` from the beginning to the end. -/
theorem balanced_mLock {p : Threaded.Thread α} (hp : ∀ t, Balanced w p (insert .mLock ∅) t) :
    Balanced w (withLock .mLock p) ∅ s := balanced_withLock (fun _ h => h.elim) hp

theorem balanced_bind {p : Threaded.Thread α} {f : α → Threaded.Thread β} (hp : Balanced w p H s)
    (hf : ∀ a t, Balanced w (f a) H t) : Balanced w (p >>= f) H s := by
  refine Obeys.bind (hp.mono ?_)
  rintro a _ t rfl
  exact hf a t

theorem switchUsbData_meets {in_enable : Bool} :
    (switchUsbData in_enable).Meets (Among w H) (fun _ => True)
      (fun status t => status = .SUCCESS → t.usb.usbDataDisabled = !in_enable) (fun _ _ => True) s := by
  have hany : ∀ {γ : Type} (x : Hal γ) (t : State σ),
      x.Meets (Among w H) (fun _ => True) (fun _ _ => True) (fun _ _ => True) t :=
    fun x t => Performs.any.meets (fun _ _ _ _ _ _ _ => trivial) trivial
  refine Meets.seq (hany getUsbControllerPath s) fun dwcDriver t _ _ => ?_
  refine Meets.ite (fun _ => ⟨trivial, nofun⟩) fun _ => ?_
  refine Meets.seq (hany (switchController _ _) t) fun status t' _ _ => ?_
  refine Meets.ite (fun _ => ⟨trivial, ?_⟩) fun hfailed => ⟨trivial, fun h => absurd h hfailed⟩
  rintro _ _ ⟨t'', _, rfl, rfl⟩
  exact ⟨trivial, fun _ => rfl⟩

theorem enableUsbData_balanced (in_portName : Text) (in_enable : Bool) (in_transactionId : Int) :
    Balanced w (Threaded.enableUsbData in_portName in_enable in_transactionId) ∅ s := by
  refine balanced_mLock fun t => ?_
  have hlock : Mutex.mLock ∈ (insert .mLock ∅ : Set Mutex) := Set.mem_insert _ _
  rw [UsbHal.enableUsbData, hal_bind]
  refine Obeys.bind ((keeps_meets (switchUsbData_under hlock) switchUsbData_meets).mono ?_)
  rintro status _ t' ⟨rfl, hstatus⟩
  exact keeps_reportIf (c := fun usb => usb.mCallback = true) hlock (fun _ h => h)
    fun t'' ht'' hsuccess => Eq.trans (flag_of_agrees hlock ht'' .usbDataDisabled) (hstatus hsuccess)

theorem limitPowerTransfer_balanced (in_portName : Text) (in_limit : Bool) (in_transactionId : Int) :
    Balanced w (Threaded.limitPowerTransfer in_portName in_limit in_transactionId) ∅ s := by
  refine balanced_mLock fun t => ?_
  have hlock : Mutex.mLock ∈ (insert .mLock ∅ : Set Mutex) := Set.mem_insert _ _
  rw [UsbHal.limitPowerTransfer, hal_bind]
  refine balanced_bind (keeps_hal restrictCharge_under) fun status t' => ?_
  rw [hal_bind]
  have hguard : ∀ l, (Assignment.limitedPower in_limit).guard = some l →
      l ∈ (insert .mLock ∅ : Set Mutex) := by
    rintro _ ⟨⟩
    exact hlock
  refine Obeys.bind ((keeps_assign hguard).mono ?_)
  rintro _ _ t'' ⟨rfl, usb, husb⟩
  refine keeps_reportIf (c := fun usb => usb.mCallback = true ∧ in_transactionId ≥ 0) hlock
    (fun _ h => h.1) fun x hx => Eq.trans (flag_of_agrees hlock hx .limitedPower) ?_
  exact congrArg (fun usb : Usb => usb.limitedPower) husb

theorem resetUsbPort_balanced (in_portName : Text) (in_transactionId : Int) :
    Balanced w (Threaded.resetUsbPort in_portName in_transactionId) ∅ s := by
  refine balanced_mLock fun t => ?_
  rw [UsbHal.resetUsbPort, hal_bind]
  refine balanced_bind (keeps_hal resetController_under) fun status t' => ?_
  exact keeps_notifyIf (Set.mem_insert _ _) fun _ => trivial

theorem enableUsbDataWhileDocked_balanced (in_portName : Text) (in_transactionId : Int) :
    Balanced w (Threaded.enableUsbDataWhileDocked in_portName in_transactionId) ∅ s :=
  balanced_mLock fun _ => keeps_replyIf (c := fun usb => usb.mCallback = true) (Set.mem_insert _ _)
    fun _ h => h

theorem enableContaminantPresenceDetection_balanced (portName : Text) (in_transactionId : Int) :
    Balanced w (Threaded.enableContaminantPresenceDetection portName in_transactionId) ∅ s :=
  balanced_mLock fun _ => keeps_replyIf
    (c := fun usb => usb.mCallback = true ∧ in_transactionId ≥ 0) (Set.mem_insert _ _) fun _ h => h.1

theorem queryPortStatus_balanced (in_transactionId : Int) :
    Balanced w (Threaded.queryPortStatus in_transactionId) ∅ s := by
  refine balanced_mLock fun t => ?_
  have hlock : Mutex.mLock ∈ (insert .mLock ∅ : Set Mutex) := Set.mem_insert _ _
  rw [reportQuery, service_bind]
  refine Obeys.bind (keeps_fields.mono ?_)
  rintro _ _ t' ⟨rfl, rfl, _⟩
  rw [service_ite]
  refine Obeys.ite (fun hset => ?_) fun _ => rfl
  rw [service_bind]
  refine keeps_portStatusChange (k := fun _ =>
    Threaded.service (reply (.queryPortStatus "all" .SUCCESS in_transactionId))) hlock hset
    fun _ t'' ht'' => keeps_reply hlock ?_
  rw [mCallback_of_agrees hlock ht'', hset]

theorem setCallback_balanced (callback : Bool) : Balanced w (Threaded.setCallback callback) ∅ s := by
  refine balanced_bind (balanced_mLock fun _ => keeps_service
    (registerCallback_under (Set.mem_insert _ _))) fun removed t => ?_
  exact Obeys.ite (fun _ => keeps_service (stopWorker_under rfl)) fun _ => rfl

/-! ### A role switch -/

theorem switchMode_balanced (portName : Text) (newRole : PortRole) :
    Balanced w (Threaded.switchMode portName newRole) (insert .mRoleSwitchLock ∅) s := by
  have hrole : Mutex.mRoleSwitchLock ∈ (insert .mRoleSwitchLock ∅ : Set Mutex) := Set.mem_insert _ _
  have hbelow : ∀ h ∈ (insert .mRoleSwitchLock ∅ : Set Mutex), Mutex.mPartnerLock.level < h.level := by
    rintro h (rfl | h)
    · decide
    · exact h.elim
  refine Obeys.ite (fun _ => rfl) fun _ => ?_
  refine balanced_bind (balanced_withLock hbelow fun t => ?_) fun roleSwitch t => ?_
  · have hpartner : ∀ l, (Assignment.mPartnerUp false).guard = some l →
        l ∈ (insert .mPartnerLock (insert .mRoleSwitchLock ∅) : Set Mutex) := by
      rintro _ ⟨⟩
      exact Set.mem_insert _ _
    refine balanced_bind (keeps_hal (performs_assign.2 hpartner)) fun _ t' => ?_
    refine balanced_bind (keeps_hal (performs_writeFile.2 fun _ => Set.mem_insert_of_mem _ hrole))
      fun ok t'' => Obeys.ite (fun _ => ?_) fun _ => rfl
    -- the wait gives up `mPartnerLock` and keeps the role switch to itself
    refine ⟨Set.mem_insert _ _, fun h hh => hbelow h ?_, fun _ _ _ _ => rfl⟩
    exact Set.mem_of_mem_insert_of_ne hh.1 hh.2
  · refine Obeys.ite (fun _ => rfl) fun _ => ?_
    exact balanced_bind (keeps_hal (switchToDrp_under hrole)) fun _ _ => rfl

theorem switchRole_balanced (portName : Text) (newRole : PortRole) (in_transactionId : Int) :
    Balanced w (Threaded.switchRole portName newRole in_transactionId) ∅ s := by
  refine Obeys.ite (fun _ => rfl) fun _ => balanced_withLock (fun _ h => h.elim) fun t => ?_
  have hbelow : ∀ h ∈ (insert .mRoleSwitchLock ∅ : Set Mutex), Mutex.mLock.level < h.level := by
    rintro h (rfl | h)
    · decide
    · exact h.elim
  refine balanced_bind (Obeys.ite (fun _ => switchMode_balanced portName newRole) fun _ =>
    keeps_hal (writeRole_under (Set.mem_insert _ _))) fun roleSwitch t' => ?_
  exact balanced_withLock hbelow fun _ => keeps_notifyIf (Set.mem_insert _ _) fun _ => trivial

/-! ### The handler of uevents -/

theorem switchAllDisconnected_balanced (currentPortStatus : List PortStatus) :
    Balanced w (Threaded.switchAllDisconnected currentPortStatus) ∅ s := by
  refine ⟨id, rfl, fun t _ => ?_⟩
  have hrole : Mutex.mRoleSwitchLock ∈ (insert .mRoleSwitchLock ∅ : Set Mutex) := Set.mem_insert _ _
  have hports : (Program.each switchDisconnected currentPortStatus).Performs
      (Op.Under (insert .mRoleSwitchLock ∅)) := Performs.each fun _ _ => switchDisconnected_under hrole
  refine Obeys.bind ((keeps_hal hports).mono ?_)
  rintro _ _ t' rfl
  exact ⟨hrole, Set.insert_sdiff_self_of_notMem id⟩

theorem handle_typec_uevent_balanced (msg : Text) :
    Balanced w (Threaded.handle_typec_uevent msg) ∅ s := by
  have hnote : ∀ t, Balanced w (Threaded.notePartner msg) ∅ t := by
    refine fun t => Obeys.ite (fun _ => ?_) fun _ => rfl
    refine balanced_withLock (fun _ h => h.elim) fun t' => keeps_hal (performs_assign.2 ?_)
    rintro _ ⟨⟩
    exact Set.mem_insert _ _
  refine balanced_bind (hnote s) fun _ t => ?_
  refine balanced_bind (keeps_hal handlePowerMode_under) fun _ t' => ?_
  refine balanced_bind (balanced_mLock fun _ => keeps_reportPortStatus (Set.mem_insert _ _))
    fun currentPortStatus t'' => ?_
  exact switchAllDisconnected_balanced currentPortStatus

theorem handle_psy_uevent_balanced (rest : Text) :
    Balanced w (Threaded.handle_psy_uevent rest) ∅ s := by
  refine Obeys.ite (fun _ => rfl) fun _ => ?_
  refine balanced_bind (keeps_hal (performs_fields.2 trivial)) fun usb t₁ => ?_
  refine balanced_bind (keeps_hal (under_of_reads readContaminantPresence_footprint)) fun presence t₂ => ?_
  refine balanced_bind (keeps_hal (under_of_reads isConnectedToUsbPowerBrick_footprint)) fun brick t₃ => ?_
  refine balanced_bind (keeps_hal (performs_fields.2 trivial)) fun usb' t₄ => ?_
  refine Obeys.ite (fun _ => ?_) fun _ => rfl
  refine balanced_bind (keeps_hal (performs_assign.2 (unguarded rfl))) fun _ t₅ => ?_
  refine balanced_bind (keeps_hal (performs_assign.2 (unguarded rfl))) fun _ t₆ => ?_
  exact balanced_bind (balanced_mLock fun _ => keeps_reportPortStatus (Set.mem_insert _ _))
    fun _ _ => rfl

theorem uevent_event_balanced (buf : Text) : Balanced w (Threaded.uevent_event buf) ∅ s := by
  refine balanced_bind (keeps_hal (performs_getProperty.2 trivial)) fun gadgetName t₁ => ?_
  refine balanced_bind (keeps_hal (performs_fields.2 trivial)) fun usb t₂ => ?_
  have hcaptured : (classify usb gadgetName buf).Captured := captured_classify _ _ _
  cases hb : classify usb gadgetName buf with
  | typec => exact handle_typec_uevent_balanced _
  | powerSupply => exact handle_psy_uevent_balanced _
  | _ =>
      rw [hb] at hcaptured
      exact keeps_hal (handle_under hcaptured nofun nofun)

/-- Every call and every datagram, whatever the state and the system. -/
theorem program_balanced (e : Entry) : Balanced w e.program ∅ s := by
  cases e with
  | enableUsbData => exact enableUsbData_balanced _ _ _
  | enableUsbDataWhileDocked => exact enableUsbDataWhileDocked_balanced _ _
  | switchRole => exact switchRole_balanced _ _ _
  | limitPowerTransfer => exact limitPowerTransfer_balanced _ _ _
  | resetUsbPort => exact resetUsbPort_balanced _ _
  | queryPortStatus => exact queryPortStatus_balanced _
  | enableContaminantPresenceDetection => exact enableContaminantPresenceDetection_balanced _ _
  | setCallback => exact setCallback_balanced _
  | uevent => exact uevent_event_balanced _

end Obedience

/-! ## Every interleaving -/

section Runs

variable {σ : Type u} {ι : Type v} [DecidableEq ι]

/-- A thread may start any call, and handle any datagram. -/
def Starts (_ : ι) (p : Threaded.Thread Unit) : Prop := ∃ e : Entry, p = e.program

/-- The system may change as it likes; the object is the threads'. -/
def Outside (s t : State σ) : Prop := t.usb = s.usb

abbrev HalThreads (σ : Type u) (ι : Type v) :=
  Locks.State ServiceRes Mutex Condition Terminated (State σ) ι

abbrev HalEvent (ι : Type v) := Locks.Event ServiceRes Mutex Condition Terminated ι

abbrev Interleaves (w : ServiceWorld σ) : HalThreads σ ι → HalEvent ι → HalThreads σ ι → Prop :=
  Locks.Step w.machine Starts Outside

/-- A thread gets on: its next instruction can be taken. -/
abbrev GoesOn (w : ServiceWorld σ) (s : HalThreads σ ι) (i : ι) : Prop :=
  Moves w.machine Starts Outside s i

variable {w : ServiceWorld σ} {s₀ : State σ} {s s' : HalThreads σ ι} {h h' : List (HalEvent ι)} {i j : ι}

omit [DecidableEq ι] in
theorem starts_obeys (i : ι) (p : Threaded.Thread Unit) (x : State σ) (hp : Starts i p) :
    Obeys w.machine discipline (fun _ H _ => H = ∅) p ∅ x := by
  rcases hp with ⟨e, rfl⟩
  exact program_balanced e

theorem outside_same (l : Mutex) (x x' : State σ) (hx : Outside x x') :
    (discipline (σ := σ).Same l) x x' := l.same_of_usb hx

theorem sound_run (hrun : Run (Interleaves w) (.idle s₀) h s) : Sound w.machine discipline s :=
  Sound.run (fun i p x => starts_obeys i p x) outside_same hrun

/-- The thread waits for a worker to end. -/
def Joins (s : HalThreads σ ι) (i : ι) : Prop := ∃ next, s.code i = .perform (.op (.mPoll .join)) next

/-- A worker is waited for without a lock. -/
theorem Joins.held (hrun : Run (Interleaves w) (.idle s₀) h s) (hjoins : Joins s i) : s.held i = ∅ := by
  rcases hjoins with ⟨next, hcode⟩
  exact (sound_run hrun).allowed hcode

theorem not_joins_of_owner (hrun : Run (Interleaves w) (.idle s₀) h s) {l : Mutex}
    (hown : s.owner l = some i) : ¬ Joins s i := by
  intro hjoins
  have hl : l ∈ s.held i := hown
  rw [hjoins.held hrun] at hl
  exact hl

/-- Of the threads in the middle of a call, those that wait for the end of a worker hold no lock.
Every other one can go on, or waits for one of the others that can; and whoever has `mLock` can go on
itself, so that nobody waits there for the end of a role switch. -/
theorem calls_progress (hrun : Run (Interleaves w) (.idle s₀) h s)
    (halive : ∀ i e, s.code i ≠ .throw e) :
    (∀ i, s.code i ≠ .pure () → ¬ Joins s i →
      ∃ j, Relation.ReflTransGen (WaitsFor s) i j ∧ GoesOn w s j ∧ ¬ Joins s j) ∧
    (∀ j, s.owner .mLock = some j → GoesOn w s j ∧ ¬ Joins s j) ∧
    ∀ i, Joins s i → s.held i = ∅ := by
  have hsound := sound_run hrun
  refine ⟨fun i hbusy hnot => ?_, fun j hown => ⟨?_, not_joins_of_owner hrun hown⟩,
    fun i => Joins.held hrun⟩
  · rcases hsound.progress halive hbusy with ⟨j, hchain, hmoves⟩
    refine ⟨j, hchain, hmoves, ?_⟩
    -- at the end of a chain there is an owner
    cases hchain with
    | refl => exact hnot
    | tail _ hwaits =>
        rcases hwaits with ⟨l, _, hown⟩
        exact not_joins_of_owner hrun hown
  · refine hsound.moves_of_not_wants (hsound.busy_of_owner hown) (halive j) fun l hwants => ?_
    -- nothing is below `mLock`
    exact Nat.not_lt_zero _ (hsound.below_of_wants hwants .mLock hown)

/-- A thread that is about to call the callback has `mLock`, the callback is set, and what it is told
of the flags is so. -/
theorem notified_agrees (hrun : Run (Interleaves w) (.idle s₀) h s) {o : ServiceOp}
    {next : ServiceRes o → Threaded.Thread Unit} (hcode : s.code i = .perform (.op o) next)
    (ho : (∃ n, o = .hal (.notify n)) ∨ ∃ r, o = .reply r) :
    s.owner .mLock = some i ∧ s.shared.usb.mCallback = true ∧
      ∀ n, o = .hal (.notify n) → n.Agrees s.shared.usb := by
  have hallowed : o.Allowed (s.held i) s.shared := (sound_run hrun).allowed hcode
  rcases ho with ⟨n, rfl⟩ | ⟨r, rfl⟩
  · refine ⟨hallowed.1, hallowed.2.1, ?_⟩
    rintro _ ⟨⟩
    exact hallowed.2.2
  · exact ⟨hallowed.1, hallowed.2, nofun⟩

/-- As long as a thread has the role switch to itself, every write to a role node is its own. -/
theorem role_nodes_exclusive (hbefore : Run (Interleaves w) (.idle s₀) h s)
    (hown : s.owner .mRoleSwitchLock = some i) (hrun : Run (Interleaves w) s h' s')
    (hkeeps : ∀ e ∈ h', ¬ e.GivesUp i .mRoleSwitchLock) {content path : Text} {ok : Bool}
    (hwrite : .act j ⟨.op (.hal (.writeFile content path)), ok⟩ ∈ h') (hpath : IsRoleNode path) :
    j = i := by
  rcases List.append_of_mem hwrite with ⟨g, g', rfl⟩
  rcases hrun.atEvent with ⟨t, t', hpre, hstep, _⟩
  have hown' : t.owner .mRoleSwitchLock = some i :=
    owner_run hpre hown fun e he => hkeeps e (List.mem_append_left _ he)
  have hsound : Sound w.machine discipline t := sound_run (hbefore.trans hpre)
  rcases hstep.act_op with ⟨next, hcode⟩
  have hallowed := hsound.allowed hcode
  exact Option.some.inj (Eq.trans (Eq.symm (hallowed hpath)) hown')

/-- Whatever the others do, for however long: the callback, where contaminants are read and the two
flags stay as they are for a thread that holds `mLock`, and `mPartnerUp` for one that holds
`mPartnerLock`. -/
theorem held_fields_stable (hbefore : Run (Interleaves w) (.idle s₀) h s) {l : Mutex}
    (hown : s.owner l = some i) (hrun : Run (Interleaves w) s h' s') (hothers : ∀ e ∈ h', ¬ e.By i) :
    s'.owner l = some i ∧ l.Same s.shared s'.shared := by
  have hgives : ∀ e : HalEvent ι, ¬ e.By i → ¬ e.GivesUp i l := by
    rintro _ he (rfl | ⟨c, rfl⟩) <;> exact he rfl
  refine (hrun.invariantOn (fun e => ¬ e.By i)
    (fun t => Sound w.machine discipline t ∧ t.owner l = some i ∧ l.Same s.shared t.shared)
    ⟨sound_run hbefore, hown, l.Same.refl _⟩ ?_ hothers).2
  rintro t e u ⟨hsound, ht, hsame⟩ he hstep
  exact ⟨hsound.step (fun i p x => starts_obeys i p x) outside_same hstep,
    hstep.owner ht (hgives e he),
    l.Same.trans hsame (hsound.same_of_held outside_same hstep ht he)⟩

end Runs

/-! ### Two threads -/

def ServiceWorld.idle : ServiceWorld Unit where
  toWorld := World.idle
  realpath _ x := (none, x)
  readable _ x := (false, x)
  eventfd_write x := (true, x)
  joinable x := (true, x)
  mPoll _ x := (true, x)

/-- An object with a callback. -/
def registered : State Unit := { State.initial () with usb.mCallback := true }

/-- The callback is removed, and while the worker is waited for there are two queries, of which the
first has the lock. -/
theorem queries_run : ∃ h, ∃ s : HalThreads Unit (Option Bool),
    Run (Interleaves ServiceWorld.idle) (.idle registered) h s ∧ Joins s none ∧
      WaitsFor s (some true) (some false) ∧
      ∀ i e, s.code i ≠ .throw e := by
  refine ⟨_, _, Run.snoc _ (Run.snoc _ (Run.snoc _ (Run.snoc _ (Run.snoc _ (Run.snoc _ (Run.snoc _
    (Run.snoc _ (Run.snoc _ Run.nil
    (.start (i := none) rfl ⟨.setCallback false, rfl⟩)) (.lock (i := none) rfl rfl))
    (.op (i := none) rfl)) (.op (i := none) rfl)) (.unlock (i := none) rfl rfl))
    (.op (i := none) rfl)) (.start (i := some false) rfl ⟨.queryPortStatus 1, rfl⟩))
    (.start (i := some true) rfl ⟨.queryPortStatus 2, rfl⟩))
    (.lock (i := some false) rfl rfl), ⟨_, rfl⟩, ⟨.mLock, Or.inl ⟨_, rfl⟩, rfl⟩, ?_⟩
  rintro (_ | _ | _) e hcode <;> cases hcode

theorem calls_progress_queries : ∃ h, ∃ s : HalThreads Unit (Option Bool),
    Run (Interleaves ServiceWorld.idle) (.idle registered) h s ∧ Joins s none ∧
      WaitsFor s (some true) (some false) ∧
      ∃ j, Relation.ReflTransGen (WaitsFor s) (some true) j ∧ GoesOn ServiceWorld.idle s j ∧
        ¬ Joins s j := by
  rcases queries_run with ⟨h, s, hrun, hjoins, hwaits, halive⟩
  refine ⟨h, s, hrun, hjoins, hwaits, (calls_progress hrun halive).1 (some true) ?_ ?_⟩
  · rcases hwaits with ⟨l, ⟨next, hcode⟩ | ⟨c, next, hcode⟩, _⟩ <;> rw [hcode] <;> exact nofun
  · rintro ⟨_, hjoin⟩
    rcases hwaits with ⟨l, ⟨next, hcode⟩ | ⟨c, next, hcode⟩, _⟩ <;> rw [hcode] at hjoin <;> cases hjoin

/-- A switch of the power role writes its node. -/
theorem role_nodes_exclusive_sink : ∃ h h', ∃ s s' : HalThreads Unit Bool,
    Run (Interleaves ServiceWorld.idle) (.idle registered) h s ∧
      Run (Interleaves ServiceWorld.idle) s h' s' ∧
      (∃ ok, .act false ⟨.op (.hal (.writeFile "sink" "/sys/class/typec/port0/power_role")), ok⟩ ∈ h') ∧
      ∀ j content path ok, .act j ⟨.op (.hal (.writeFile content path)), ok⟩ ∈ h' →
        IsRoleNode path → j = false := by
  have hrun : ∃ h h', ∃ s s' : HalThreads Unit Bool,
      Run (Interleaves ServiceWorld.idle) (.idle registered) h s ∧ s.owner .mRoleSwitchLock = some false ∧
        Run (Interleaves ServiceWorld.idle) s h' s' ∧
        h' = [.act false ⟨.op (.hal (.writeFile "sink" "/sys/class/typec/port0/power_role")), true⟩] := by
    refine ⟨_, _, _, _, Run.snoc _ (Run.snoc _ Run.nil
      (.start (i := false) rfl ⟨.switchRole "port0" (.powerRole .SINK) 7, rfl⟩))
      (.lock (i := false) rfl rfl), rfl, Run.single (.op (i := false) rfl), rfl⟩
  rcases hrun with ⟨h, h', s, s', hbefore, hown, hrun, rfl⟩
  refine ⟨h, _, s, s', hbefore, hrun, ⟨true, List.mem_singleton_self _⟩, ?_⟩
  intro j content path ok hwrite hpath
  refine role_nodes_exclusive hbefore hown hrun ?_ hwrite hpath
  intro e he
  rw [List.mem_singleton.1 he]
  rintro (hunlock | ⟨c, hawait⟩)
  · cases hunlock
  · cases hawait

/-- A datagram that comes in while a query has the lock. -/
theorem held_fields_stable_query : ∃ h h', ∃ s s' : HalThreads Unit Bool,
    Run (Interleaves ServiceWorld.idle) (.idle registered) h s ∧ h' ≠ [] ∧
      Run (Interleaves ServiceWorld.idle) s h' s' ∧ s'.owner .mLock = some false ∧
      Mutex.mLock.Same s.shared s'.shared := by
  have hrun : ∃ h, ∃ s s' : HalThreads Unit Bool,
      Run (Interleaves ServiceWorld.idle) (.idle registered) h s ∧ s.owner .mLock = some false ∧
        Run (Interleaves ServiceWorld.idle) s [.start true (Entry.uevent []).program] s' :=
    ⟨_, _, _, Run.snoc _ (Run.snoc _ Run.nil (.start (i := false) rfl ⟨.queryPortStatus 1, rfl⟩))
      (.lock (i := false) rfl rfl), rfl, Run.single (.start (i := true) rfl ⟨.uevent [], rfl⟩)⟩
  rcases hrun with ⟨h, s, s', hbefore, hown, hrun⟩
  refine ⟨h, _, s, s', hbefore, List.cons_ne_nil _ _, hrun, held_fields_stable hbefore hown hrun ?_⟩
  intro e he
  rw [List.mem_singleton.1 he]
  exact nofun

end UsbHal
end M2391Device
