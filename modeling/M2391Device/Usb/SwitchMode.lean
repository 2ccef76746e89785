import M2391Device.Usb.UeventRuns
import Mathlib.Data.List.TakeWhile

/-!
# SwitchMode — a mode switch and the partner signal it waits for

`switchMode` clears `mPartnerUp`, writes the role and waits for the worker thread to set the flag
again, all under `mPartnerLock`, which only the wait gives up.  Here the caller and the worker run
side by side: the worker takes its handler of type-C events one operation at a time, and the caller
is cut wherever it takes or gives up the lock.

The status of a wait is known when it has the lock back.  The clock may have run out by then whether
or not there was a notification.
-/

namespace M2391Device
namespace UsbHal

open Program Transition

universe u

/-! ## Roles -/

/-- `convertRoletoString(role)` -/
def convertRoletoString : PortRole → Text
  | .powerRole .SOURCE => "source"
  | .powerRole .SINK => "sink"
  | .dataRole .HOST => "host"
  | .dataRole .DEVICE => "device"
  | .mode .UFP => "sink"
  | .mode .DFP => "source"
  | _ => "none"

/-! ## The caller and the worker -/

structure SwitchCall where
  portName : Text
  newRole : PortRole

def SwitchCall.filename (c : SwitchCall) : Text := appendRoleNodeHelper c.portName c.newRole.tag

/-- Where the caller is in `switchMode`. -/
inductive SwitchPhase
  /-- There is no call. -/
  | idle
  /-- About to take `mPartnerLock`. -/
  | locking
  /-- With the lock and the flag cleared, before the role is written. -/
  | writing
  /-- In `wait_for`, without the lock. -/
  | waiting
  /-- The wait is over, but the lock is not yet taken again. -/
  | woken
  /-- With the lock, and `roleSwitch` as it stays. -/
  | unlocking (roleSwitch : Bool)
  /-- In `switchToDrp`, of which `rest` is left. -/
  | recovering (rest : Hal Unit)
  | returning (roleSwitch : Bool)

/-- The caller has `mPartnerLock`. -/
def SwitchPhase.Locked : SwitchPhase → Prop
  | .writing => True
  | .unlocking _ => True
  | _ => False

structure ModeSwitch (σ : Type u) where
  hal : State σ
  /-- What is left of the type-C event that the worker handles. -/
  worker : Hal Unit
  call : SwitchCall
  phase : SwitchPhase

inductive SwitchEvent
  /-- The worker begins to handle a type-C event. -/
  | uevent (msg : Text)
  /-- The worker performs an operation of its handler. -/
  | worker (o : Answered Op Res)
  | call (c : SwitchCall)
  /-- The lock is taken, and `mPartnerUp` cleared. -/
  | lock
  /-- The role is written; if that works, the lock goes to the wait. -/
  | write (ok : Bool)
  /-- A notification, the timeout, or no reason at all. -/
  | wake
  /-- The wait has the lock again, with its status, and finds the flag like this. -/
  | reacquire (timedOut mPartnerUp : Bool)
  /-- The lock is released for the last time. -/
  | unlock (roleSwitch : Bool)
  /-- An operation of `switchToDrp`. -/
  | drp (o : Answered Op Res)
  | returned (roleSwitch : Bool)
  /-- Another thread, or the system. -/
  | other

/-- The operations that are performed under `mPartnerLock`. -/
def UnderLock (o : Op) : Prop := ∃ up, o = .assign (.mPartnerUp up)

namespace ModeSwitch

variable {σ : Type u}

inductive Step (w : World σ) : ModeSwitch σ → SwitchEvent → ModeSwitch σ → Prop where
  | uevent {s : ModeSwitch σ} {msg : Text} :
      s.worker = Pure.pure () →
      Step w s (.uevent msg) { s with worker := handle_typec_uevent msg }
  -- the worker waits for the lock where it needs it
  | worker {s : ModeSwitch σ} {o : Op} {next : Res o → Hal Unit} :
      s.worker = .perform o next → (UnderLock o → ¬ s.phase.Locked) →
      Step w s (.worker ⟨o, (w.step o s.hal).1⟩)
        { s with hal := (w.step o s.hal).2, worker := next (w.step o s.hal).1 }
  | call {s : ModeSwitch σ} {c : SwitchCall} :
      s.phase = .idle →
      Step w s (.call c)
        { s with call := c, phase := if c.filename = [] then .returning false else .locking }
  | lock {s : ModeSwitch σ} :
      s.phase = .locking →
      Step w s .lock { s with hal.usb.mPartnerUp := false, phase := .writing }
  | write {s : ModeSwitch σ} {ok : Bool} {x : σ} :
      s.phase = .writing →
      w.writeFile (convertRoletoString s.call.newRole) s.call.filename s.hal.world = (ok, x) →
      Step w s (.write ok)
        { s with hal.world := x, phase := if ok then .waiting else .unlocking false }
  | wake {s : ModeSwitch σ} : s.phase = .waiting → Step w s .wake { s with phase := .woken }
  | timeout {s : ModeSwitch σ} :
      s.phase = .woken →
      Step w s (.reacquire true s.hal.usb.mPartnerUp) { s with phase := .unlocking false }
  -- `goto wait_again`
  | again {s : ModeSwitch σ} :
      s.phase = .woken → s.hal.usb.mPartnerUp = false →
      Step w s (.reacquire false false) { s with phase := .waiting }
  | signalled {s : ModeSwitch σ} :
      s.phase = .woken → s.hal.usb.mPartnerUp = true →
      Step w s (.reacquire false true) { s with phase := .unlocking true }
  | unlock {s : ModeSwitch σ} {roleSwitch : Bool} :
      s.phase = .unlocking roleSwitch →
      Step w s (.unlock roleSwitch)
        { s with phase :=
            if roleSwitch then .returning true else .recovering (switchToDrp s.call.portName) }
  | drp {s : ModeSwitch σ} {o : Op} {next : Res o → Hal Unit} :
      s.phase = .recovering (.perform o next) →
      Step w s (.drp ⟨o, (w.step o s.hal).1⟩)
        { s with hal := (w.step o s.hal).2, phase := .recovering (next (w.step o s.hal).1) }
  | recovered {s : ModeSwitch σ} :
      s.phase = .recovering (Pure.pure ()) → Step w s (.returned false) { s with phase := .idle }
  | returned {s : ModeSwitch σ} {roleSwitch : Bool} :
      s.phase = .returning roleSwitch → Step w s (.returned roleSwitch) { s with phase := .idle }
  | other {s : ModeSwitch σ} {t : State σ} :
      t.usb.mPartnerUp = s.hal.usb.mPartnerUp → Step w s .other { s with hal := t }

end ModeSwitch

/-! ## A call -/

namespace SwitchEvent

def isLock : SwitchEvent → Bool
  | .lock => true
  | _ => false

def isUnlock : SwitchEvent → Bool
  | .unlock _ => true
  | _ => false

/-- The role was written. -/
def isWritten : SwitchEvent → Bool
  | .write ok => ok
  | _ => false

/-- A partner-added event set the flag, under the lock. -/
def isPartnerSet : SwitchEvent → Bool
  | .worker ⟨.assign (.mPartnerUp up), _⟩ => up
  | _ => false

/-- The wait timed out, and the flag was set when it had the lock again. -/
def isLate : SwitchEvent → Bool
  | .reacquire timedOut mPartnerUp => timedOut && mPartnerUp
  | _ => false

/-- Part of the attempt to switch the port back. -/
def isDrp : SwitchEvent → Bool
  | .drp _ => true
  | _ => false

end SwitchEvent

/-- What happens between the clearing of the flag and the last release of the lock. -/
def during (h : List SwitchEvent) : List SwitchEvent :=
  ((h.dropWhile fun e => !e.isLock).drop 1).takeWhile fun e => !e.isUnlock

/-- A call of `switchMode` from its beginning, with everything that happens up to its return. -/
structure Completes {σ : Type u} (w : World σ) (s : ModeSwitch σ) (h : List SwitchEvent)
    (roleSwitch : Bool) : Prop where
  idle : s.phase = .idle
  run : ∃ s', Run (ModeSwitch.Step w) s (h ++ [.returned roleSwitch]) s'
  first : ∀ r, .returned r ∉ h

/-- The result is whether the role was written and the partner came, and only a call that returns
false touches the port again. -/
structure KeepsSignal (h : List SwitchEvent) (roleSwitch : Bool) : Prop where
  result : roleSwitch = ((during h).any SwitchEvent.isWritten &&
    (during h).any SwitchEvent.isPartnerSet)
  recovery : h.any SwitchEvent.isDrp = true → roleSwitch = false

/-! ## The stretch between the two moments -/

/-- In `g`, the flag was cleared before `d`, and the lock is released for the last time before
`rest`. -/
def Window (g d rest : List SwitchEvent) : Prop :=
  ∃ before, g = before ++ .lock :: (d ++ rest) ∧ (∀ e ∈ before, e.isLock = false) ∧
    ∀ e ∈ d, e.isUnlock = false

namespace Window

variable {g d rest : List SwitchEvent} {e : SwitchEvent}

theorem lock (hg : ∀ e ∈ g, e.isLock = false) : Window (g ++ [.lock]) [] [] :=
  ⟨g, rfl, hg, List.forall_mem_nil _⟩

/-- Before the release, everything that happens belongs to the stretch. -/
theorem snoc (hwindow : Window g d []) (he : e.isUnlock = false) :
    Window (g ++ [e]) (d ++ [e]) [] := by
  rcases hwindow with ⟨before, rfl, hbefore, hd⟩
  refine ⟨before, by simp, hbefore, ?_⟩
  intro x hx
  rcases List.mem_append.1 hx with hx | hx
  · exact hd x hx
  · rw [List.mem_singleton.1 hx]
    exact he

/-- After it, nothing does. -/
theorem append (hwindow : Window g d rest) (e : SwitchEvent) : Window (g ++ [e]) d (rest ++ [e]) := by
  rcases hwindow with ⟨before, rfl, hbefore, hd⟩
  exact ⟨before, by simp, hbefore, hd⟩

theorem during_eq {r : Bool} (hwindow : Window g d (.unlock r :: rest)) : during g = d := by
  rcases hwindow with ⟨before, rfl, hbefore, hd⟩
  have hskip : ∀ x ∈ before, (!x.isLock) = true := fun x hx => by rw [hbefore x hx]; rfl
  have htake : ∀ x ∈ d, (!x.isUnlock) = true := fun x hx => by rw [hd x hx]; rfl
  rw [during, List.dropWhile_append_of_pos hskip, List.dropWhile_cons_of_neg (by decide)]
  rw [List.drop_one, List.tail_cons, List.takeWhile_append_of_pos htake]
  rw [List.takeWhile_cons_of_neg (by simp [SwitchEvent.isUnlock]), List.append_nil]

end Window

theorem during_of_no_lock {g : List SwitchEvent} (hg : ∀ e ∈ g, e.isLock = false) : during g = [] := by
  have hskip : ∀ x ∈ g, (!x.isLock) = true := fun x hx => by rw [hg x hx]; rfl
  rw [during, List.dropWhile_eq_nil_iff.2 hskip]
  rfl

/-! ## The worker -/

section Worker

variable {σ : Type u} {w : World σ} {s s' : ModeSwitch σ} {e : SwitchEvent}

/-- The handler of type-C events never clears the flag. -/
def Op.Signals (o : Op) : Prop := o ≠ .assign (.mPartnerUp false)

theorem Op.Within.signals {paths : Text → Prop} {assigned : Assignment → Prop} {o : Op}
    (h : o.Within paths assigned) (hnever : ¬ assigned (.mPartnerUp false)) : o.Signals := by
  rintro rfl
  exact hnever h

theorem handle_typec_uevent_signals (msg : Text) :
    (handle_typec_uevent msg).Performs Op.Signals := by
  refine Performs.bind ((notePartner_footprint msg).mono fun _ ho => ho.within.signals nofun)
    fun _ => ?_
  refine Performs.bind (handlePowerMode_footprint.mono fun _ ho => ho.within.signals id) fun _ => ?_
  exact reportAndSwitch_within.mono fun _ ho => ho.signals id

theorem ModeSwitch.Step.signals (hstep : ModeSwitch.Step w s e s')
    (hworker : s.worker.Performs Op.Signals) : s'.worker.Performs Op.Signals := by
  cases hstep with
  | uevent => exact handle_typec_uevent_signals _
  | worker hnext =>
      rw [hnext] at hworker
      exact hworker.2 _
  | _ => exact hworker

/-- An operation of the handler sets the flag, or has nothing to do with it. -/
theorem Op.Signals.cases {o : Op} (ho : o.Signals) (t : State σ) :
    (w.step o t).2.usb.mPartnerUp = true ∧ UnderLock o ∧
        (SwitchEvent.worker ⟨o, (w.step o t).1⟩).isPartnerSet = true ∨
      (w.step o t).2.usb.mPartnerUp = t.usb.mPartnerUp ∧
        (SwitchEvent.worker ⟨o, (w.step o t).1⟩).isPartnerSet = false := by
  cases o with
  | assign a =>
      cases a with
      | mPartnerUp up =>
          cases up with
          | true => exact Or.inl ⟨rfl, ⟨true, rfl⟩, rfl⟩
          | false => exact absurd rfl ho
      | _ => exact Or.inr ⟨rfl, rfl⟩
  | _ => exact Or.inr ⟨rfl, rfl⟩

end Worker

/-! ## The invariant of a call -/

section Progress

variable {σ : Type u} {w : World σ} {s s' : ModeSwitch σ} {e : SwitchEvent}
  {g d rest : List SwitchEvent} {p : SwitchPhase}

/-- The result says what happened, unless a wait was late. -/
def Decided (roleSwitch : Bool) (d : List SwitchEvent) : Prop :=
  roleSwitch = (d.any SwitchEvent.isWritten && d.any SwitchEvent.isPartnerSet) ↔
    d.any SwitchEvent.isLate = false

/-- What has happened since the flag was cleared. -/
structure Tally (d : List SwitchEvent) (written partnerUp : Bool) : Prop where
  written : d.any SwitchEvent.isWritten = written
  partnerSet : d.any SwitchEvent.isPartnerSet = partnerUp
  late : d.any SwitchEvent.isLate = false

/-- Where the caller is after the events `g` of its call. -/
def Progress (g : List SwitchEvent) (mPartnerUp : Bool) : SwitchPhase → Prop
  | .idle => ∀ e ∈ g, e.isLock = false
  | .locking => ∀ e ∈ g, e.isLock = false
  | .writing => mPartnerUp = false ∧ ∃ d, Window g d [] ∧ Tally d false false
  | .waiting => ∃ d, Window g d [] ∧ Tally d true mPartnerUp
  | .woken => ∃ d, Window g d [] ∧ Tally d true mPartnerUp
  | .unlocking roleSwitch => ∃ d, Window g d [] ∧ Decided roleSwitch d
  | .recovering _ => ∃ d r rest, Window g d (.unlock r :: rest) ∧ Decided false d
  | .returning roleSwitch =>
      (∃ d r rest, Window g d (.unlock r :: rest) ∧ Decided roleSwitch d) ∨
        roleSwitch = false ∧ ∀ e ∈ g, e.isLock = false

theorem any_snoc (f : SwitchEvent → Bool) : (d ++ [e]).any f = (d.any f || f e) := by
  rw [List.any_append, List.any_cons, List.any_nil, Bool.or_false]

theorem no_lock_snoc (hg : ∀ e ∈ g, e.isLock = false) (he : e.isLock = false) :
    ∀ x ∈ g ++ [e], x.isLock = false := by
  intro x hx
  rcases List.mem_append.1 hx with hx | hx
  · exact hg x hx
  · rw [List.mem_singleton.1 hx]
    exact he

/-- An event that the call does not depend on. -/
structure SwitchEvent.Neutral (e : SwitchEvent) : Prop where
  isLock : e.isLock = false
  isUnlock : e.isUnlock = false
  isWritten : e.isWritten = false
  isPartnerSet : e.isPartnerSet = false
  isLate : e.isLate = false

theorem Tally.neutral {written partnerUp : Bool} (h : Tally d written partnerUp) (he : e.Neutral) :
    Tally (d ++ [e]) written partnerUp := by
  constructor
  · rw [any_snoc, he.isWritten, Bool.or_false, h.written]
  · rw [any_snoc, he.isPartnerSet, Bool.or_false, h.partnerSet]
  · rw [any_snoc, he.isLate, Bool.or_false, h.late]

theorem Tally.write {ok : Bool} (h : Tally d false false) :
    Tally (d ++ [SwitchEvent.write ok]) ok false := by
  constructor
  · rw [any_snoc, h.written]
    rfl
  · rw [any_snoc, h.partnerSet]
    rfl
  · rw [any_snoc, h.late]
    rfl

/-- Without a late wait, the right result is the one that fits. -/
theorem Tally.decided {written partnerUp : Bool} (h : Tally d written partnerUp) :
    Decided (written && partnerUp) d := by
  refine iff_of_true ?_ h.late
  rw [h.written, h.partnerSet]

/-- After a late wait, false does not fit. -/
theorem Tally.late_decided (h : Tally d true true) :
    Decided false (d ++ [SwitchEvent.reacquire true true]) := by
  refine iff_of_false ?_ ?_
  · rw [any_snoc, any_snoc, h.written, h.partnerSet]
    decide
  · rw [any_snoc, h.late]
    decide

theorem Decided.neutral {roleSwitch : Bool} (h : Decided roleSwitch d) (he : e.Neutral) :
    Decided roleSwitch (d ++ [e]) := by
  rw [Decided, any_snoc, any_snoc, any_snoc, he.isWritten, he.isPartnerSet, he.isLate]
  simp only [Bool.or_false]
  exact h

theorem Progress.neutral {mPartnerUp : Bool} (h : Progress g mPartnerUp p) (he : e.Neutral) :
    Progress (g ++ [e]) mPartnerUp p := by
  cases p with
  | idle => exact no_lock_snoc h he.isLock
  | locking => exact no_lock_snoc h he.isLock
  | writing =>
      rcases h with ⟨hflag, d, hwindow, htally⟩
      exact ⟨hflag, _, hwindow.snoc he.isUnlock, htally.neutral he⟩
  | waiting =>
      rcases h with ⟨d, hwindow, htally⟩
      exact ⟨_, hwindow.snoc he.isUnlock, htally.neutral he⟩
  | woken =>
      rcases h with ⟨d, hwindow, htally⟩
      exact ⟨_, hwindow.snoc he.isUnlock, htally.neutral he⟩
  | unlocking roleSwitch =>
      rcases h with ⟨d, hwindow, hdecided⟩
      exact ⟨_, hwindow.snoc he.isUnlock, hdecided.neutral he⟩
  | recovering todo =>
      rcases h with ⟨d, r, rest, hwindow, hdecided⟩
      exact ⟨d, r, _, hwindow.append e, hdecided⟩
  | returning roleSwitch =>
      rcases h with ⟨d, r, rest, hwindow, hdecided⟩ | ⟨hfalse, hg⟩
      · exact Or.inl ⟨d, r, _, hwindow.append e, hdecided⟩
      · exact Or.inr ⟨hfalse, no_lock_snoc hg he.isLock⟩

/-- The flag is set while the caller does not have the lock. -/
theorem Progress.partnerSet {mPartnerUp : Bool} {o : Answered Op Res} (h : Progress g mPartnerUp p)
    (hlock : ¬ p.Locked) (hset : (SwitchEvent.worker o).isPartnerSet = true) :
    Progress (g ++ [.worker o]) true p := by
  have htally : ∀ {d : List SwitchEvent} {up : Bool}, Tally d true up →
      Tally (d ++ [.worker o]) true true := by
    intro d up htally
    constructor
    · rw [any_snoc, htally.written]
      rfl
    · rw [any_snoc, hset, Bool.or_true]
    · rw [any_snoc, htally.late]
      rfl
  cases p with
  | idle => exact no_lock_snoc h rfl
  | locking => exact no_lock_snoc h rfl
  | writing => exact absurd trivial hlock
  | waiting =>
      rcases h with ⟨d, hwindow, hd⟩
      exact ⟨_, hwindow.snoc rfl, htally hd⟩
  | woken =>
      rcases h with ⟨d, hwindow, hd⟩
      exact ⟨_, hwindow.snoc rfl, htally hd⟩
  | unlocking roleSwitch => exact absurd trivial hlock
  | recovering todo =>
      rcases h with ⟨d, r, rest, hwindow, hdecided⟩
      exact ⟨d, r, _, hwindow.append _, hdecided⟩
  | returning roleSwitch =>
      rcases h with ⟨d, r, rest, hwindow, hdecided⟩ | ⟨hfalse, hg⟩
      · exact Or.inl ⟨d, r, _, hwindow.append _, hdecided⟩
      · exact Or.inr ⟨hfalse, no_lock_snoc hg rfl⟩

/-- Every step but the return. -/
theorem Progress.step (hworker : s.worker.Performs Op.Signals)
    (h : Progress g s.hal.usb.mPartnerUp s.phase) (hstep : ModeSwitch.Step w s e s')
    (hreturn : ∀ r, e ≠ .returned r) :
    Progress (g ++ [e]) s'.hal.usb.mPartnerUp s'.phase := by
  cases hstep with
  | uevent => exact h.neutral ⟨rfl, rfl, rfl, rfl, rfl⟩
  | @worker o next hnext hlock =>
      rw [hnext] at hworker
      rcases Op.Signals.cases (w := w) hworker.1 s.hal with ⟨hup, hunder, hset⟩ | ⟨hsame, hset⟩
      · show Progress _ (w.step o s.hal).2.usb.mPartnerUp s.phase
        rw [hup]
        exact h.partnerSet (hlock hunder) hset
      · show Progress _ (w.step o s.hal).2.usb.mPartnerUp s.phase
        rw [hsame]
        exact h.neutral ⟨rfl, rfl, rfl, hset, rfl⟩
  | @call c hidle =>
      rw [hidle] at h
      have hg := no_lock_snoc (e := .call c) h rfl
      by_cases hinvalid : c.filename = []
      · rw [if_pos hinvalid]
        exact Or.inr ⟨rfl, hg⟩
      · rw [if_neg hinvalid]
        exact hg
  | lock hlocking =>
      rw [hlocking] at h
      exact ⟨rfl, [], Window.lock h, ⟨rfl, rfl, rfl⟩⟩
  | @write ok x hwriting =>
      rw [hwriting] at h
      rcases h with ⟨hflag, d, hwindow, htally⟩
      have htally' : Tally (d ++ [.write ok]) ok false := htally.write
      cases ok with
      | true =>
          refine ⟨_, hwindow.snoc rfl, ?_⟩
          rw [show s.hal.usb.mPartnerUp = false from hflag]
          exact htally'
      | false => exact ⟨_, hwindow.snoc rfl, htally'.decided⟩
  | wake hwaiting =>
      rw [hwaiting] at h
      exact Progress.neutral (p := .woken) h ⟨rfl, rfl, rfl, rfl, rfl⟩
  | timeout hwoken =>
      rw [hwoken] at h
      rcases h with ⟨d, hwindow, htally⟩
      refine ⟨_, hwindow.snoc rfl, ?_⟩
      -- the flag alone decides whether the wait is late
      cases hflag : s.hal.usb.mPartnerUp with
      | false =>
          rw [hflag] at htally
          exact (htally.neutral ⟨rfl, rfl, rfl, rfl, rfl⟩).decided
      | true =>
          rw [hflag] at htally
          exact htally.late_decided
  | again hwoken hflag =>
      rw [hwoken] at h
      exact Progress.neutral (p := .waiting) h ⟨rfl, rfl, rfl, rfl, rfl⟩
  | signalled hwoken hflag =>
      rw [hwoken, hflag] at h
      rcases h with ⟨d, hwindow, htally⟩
      exact ⟨_, hwindow.snoc rfl, (htally.neutral ⟨rfl, rfl, rfl, rfl, rfl⟩).decided⟩
  | @unlock roleSwitch hunlocking =>
      rw [hunlocking] at h
      rcases h with ⟨d, hwindow, hdecided⟩
      have hafter := hwindow.append (.unlock roleSwitch)
      cases roleSwitch with
      | true => exact Or.inl ⟨d, true, [], hafter, hdecided⟩
      | false => exact ⟨d, false, [], hafter, hdecided⟩
  | drp hrecovering =>
      rw [hrecovering] at h
      rcases h with ⟨d, r, rest, hwindow, hdecided⟩
      exact ⟨d, r, _, hwindow.append _, hdecided⟩
  | recovered => exact absurd rfl (hreturn _)
  | returned => exact absurd rfl (hreturn _)
  | other hsame =>
      show Progress _ _ s.phase
      rw [hsame]
      exact h.neutral ⟨rfl, rfl, rfl, rfl, rfl⟩

/-- From the first operation of `switchToDrp` on. -/
def SwitchesBack (g : List SwitchEvent) (p : SwitchPhase) : Prop :=
  g.any SwitchEvent.isDrp = true → ∃ rest, p = .recovering rest

theorem SwitchesBack.stay (h : SwitchesBack g p) (he : e.isDrp = false) : SwitchesBack (g ++ [e]) p := by
  intro hdrp
  rw [any_snoc, he, Bool.or_false] at hdrp
  exact h hdrp

/-- Before it, any other phase may follow. -/
theorem SwitchesBack.leave (h : SwitchesBack g p) (hp : ∀ rest, p ≠ .recovering rest)
    (he : e.isDrp = false) (p' : SwitchPhase) : SwitchesBack (g ++ [e]) p' := by
  intro hdrp
  rw [any_snoc, he, Bool.or_false] at hdrp
  rcases h hdrp with ⟨rest, hrest⟩
  exact absurd hrest (hp rest)

theorem SwitchesBack.step (h : SwitchesBack g s.phase) (hstep : ModeSwitch.Step w s e s')
    (hreturn : ∀ r, e ≠ .returned r) : SwitchesBack (g ++ [e]) s'.phase := by
  cases hstep with
  | uevent => exact h.stay rfl
  | worker => exact h.stay rfl
  | call hphase => exact h.leave (by rw [hphase]; nofun) rfl _
  | lock hphase => exact h.leave (by rw [hphase]; nofun) rfl _
  | write hphase => exact h.leave (by rw [hphase]; nofun) rfl _
  | wake hphase => exact h.leave (by rw [hphase]; nofun) rfl _
  | timeout hphase => exact h.leave (by rw [hphase]; nofun) rfl _
  | again hphase => exact h.leave (by rw [hphase]; nofun) rfl _
  | signalled hphase => exact h.leave (by rw [hphase]; nofun) rfl _
  | unlock hphase => exact h.leave (by rw [hphase]; nofun) rfl _
  | drp => exact fun _ => ⟨_, rfl⟩
  | recovered => exact absurd rfl (hreturn _)
  | returned => exact absurd rfl (hreturn _)
  | other => exact h.stay rfl

theorem progress_run (hworker : s.worker.Performs Op.Signals) (hidle : s.phase = .idle)
    (hrun : Run (ModeSwitch.Step w) s g s') (hreturn : ∀ r, .returned r ∉ g) :
    Progress g s'.hal.usb.mPartnerUp s'.phase ∧ SwitchesBack g s'.phase := by
  have hall : (∀ r, .returned r ∉ g) → s'.worker.Performs Op.Signals ∧
      Progress g s'.hal.usb.mPartnerUp s'.phase ∧ SwitchesBack g s'.phase := by
    refine hrun.historyInvariant (fun g t => (∀ r, .returned r ∉ g) →
      t.worker.Performs Op.Signals ∧ Progress g t.hal.usb.mPartnerUp t.phase ∧
        SwitchesBack g t.phase) ?_ ?_
    · intro _
      rw [hidle]
      exact ⟨hworker, List.forall_mem_nil _, fun hdrp => absurd hdrp Bool.false_ne_true⟩
    · intro g t e u _ ih hstep hreturn
      have hbefore : ∀ r, .returned r ∉ g := fun r hr => hreturn r (List.mem_append_left _ hr)
      have hlast : ∀ r, e ≠ .returned r := by
        rintro r rfl
        exact hreturn r (by simp)
      rcases ih hbefore with ⟨hworker, hprogress, hback⟩
      exact ⟨hstep.signals hworker, hprogress.step hworker hstep hlast,
        hback.step hstep hlast⟩
  exact (hall hreturn).2

end Progress

/-! ## The result -/

section Result

variable {σ : Type u} {w : World σ} {s₀ s : ModeSwitch σ} {h₀ h : List SwitchEvent}
  {roleSwitch : Bool}

/-- A call keeps the partner signal exactly if no wait of it times out and then finds the flag
set. -/
theorem keepsSignal_iff (hstart : s₀.worker = Pure.pure ()) (hbefore : Run (ModeSwitch.Step w) s₀ h₀ s)
    (hcall : Completes w s h roleSwitch) :
    KeepsSignal h roleSwitch ↔ (during h).any SwitchEvent.isLate = false := by
  have hworker : s.worker.Performs Op.Signals := by
    -- before the call the worker has at most signals to give
    refine hbefore.invariant (fun t => t.worker.Performs Op.Signals) ?_
      (fun _ _ _ ht hstep => hstep.signals ht)
    rw [hstart]
    exact trivial
  rcases hcall.run with ⟨s', hrun⟩
  rcases hrun.snoc_inv with ⟨t, hrun, hstep⟩
  rcases progress_run hworker hcall.idle hrun hcall.first with ⟨hprogress, hback⟩
  cases hstep with
  | recovered hphase =>
      rw [hphase] at hprogress
      rcases hprogress with ⟨d, r, rest, hwindow, hdecided⟩
      rw [← hwindow.during_eq] at hdecided
      constructor
      · exact fun hkeeps => hdecided.1 hkeeps.result
      · exact fun hlate => ⟨hdecided.2 hlate, fun _ => rfl⟩
  | returned hphase =>
      rw [hphase] at hprogress hback
      have huntried : h.any SwitchEvent.isDrp ≠ true := by
        intro hdrp
        rcases hback hdrp with ⟨rest, hrest⟩
        cases hrest
      rcases hprogress with ⟨d, r, rest, hwindow, hdecided⟩ | ⟨rfl, hlock⟩
      · rw [← hwindow.during_eq] at hdecided
        constructor
        · exact fun hkeeps => hdecided.1 hkeeps.result
        · exact fun hlate => ⟨hdecided.2 hlate, fun hdrp => absurd hdrp huntried⟩
      -- the call returned without taking the lock: it waited for nothing
      · have hnothing := during_of_no_lock hlock
        constructor
        · intro _
          rw [hnothing]
          rfl
        · intro _
          exact ⟨by rw [hnothing]; rfl, fun _ => rfl⟩

end Result

/-! ## A partner that comes -/

section Partner

def toSource : SwitchCall := ⟨"port0", .mode .DFP⟩

/-- A state of the call, in a system in which every write succeeds. -/
def switching (mPartnerUp : Bool) (worker : Hal Unit) (phase : SwitchPhase) : ModeSwitch Unit where
  hal := { State.initial () with usb.mPartnerUp := mPartnerUp }
  worker := worker
  call := toSource
  phase := phase

def partnerAdded : Text := "add@/devices/typec/port0/port0-partner"

/-- The rest of the handler after the flag was set. -/
def afterPartner : Hal Unit := handlePowerMode >>= fun _ => reportAndSwitch

theorem handle_partnerAdded :
    handle_typec_uevent partnerAdded = .perform (.assign (.mPartnerUp true)) fun _ => afterPartner := by
  have hadded : isPartnerAdded partnerAdded = true := by decide
  rw [handle_typec_uevent_eq, notePartner, if_pos hadded]
  rfl

/-- The call is in its wait. -/
theorem waiting_run :
    Run (ModeSwitch.Step World.idle) (switching false (Pure.pure ()) .idle)
      [.call toSource, .lock, .write true] (switching false (Pure.pure ()) .waiting) := by
  have hvalid : toSource.filename ≠ [] := by decide
  have hcall := ModeSwitch.Step.call (w := World.idle) (c := toSource)
    (s := switching false (Pure.pure ()) .idle) rfl
  rw [if_neg hvalid] at hcall
  exact Run.cons hcall (Run.cons (.lock rfl) (Run.single (.write rfl rfl)))

/-- The worker handles the message while the caller does not have the lock. -/
theorem partner_run {phase : SwitchPhase} (hphase : ¬ phase.Locked) :
    Run (ModeSwitch.Step World.idle) (switching false (Pure.pure ()) phase)
      [.uevent partnerAdded, .worker ⟨.assign (.mPartnerUp true), ()⟩]
      (switching true afterPartner phase) := by
  have hset := ModeSwitch.Step.worker (w := World.idle)
    (s := switching false (handle_typec_uevent partnerAdded) phase) handle_partnerAdded
    fun _ => hphase
  exact Run.cons (.uevent rfl) (Run.single hset)

/-- The partner comes during the wait. -/
def timely : List SwitchEvent :=
  [.call toSource, .lock, .write true] ++
    ([.uevent partnerAdded, .worker ⟨.assign (.mPartnerUp true), ()⟩] ++
      [.wake, .reacquire false true, .unlock true])

/-- The partner comes between the timeout and the return of the wait. -/
def tardy : List SwitchEvent :=
  [.call toSource, .lock, .write true] ++ ([.wake] ++
    ([.uevent partnerAdded, .worker ⟨.assign (.mPartnerUp true), ()⟩] ++
      [.reacquire true true, .unlock false,
        .drp ⟨.access "/sys/class/typec/port0/port_type" false, .ENOENT⟩]))

theorem timely_completes :
    Completes World.idle (switching false (Pure.pure ()) .idle) timely true where
  idle := rfl
  run := ⟨_, (waiting_run.trans ((partner_run id).trans
    (Run.cons (.wake rfl) (Run.cons (.signalled rfl rfl) (Run.single (.unlock rfl)))))).trans
      (Run.single (.returned rfl))⟩
  first r hr := by simp [timely] at hr

theorem tardy_completes :
    Completes World.idle (switching false (Pure.pure ()) .idle) tardy false where
  idle := rfl
  run := ⟨_, (waiting_run.trans ((Run.single (.wake rfl)).trans ((partner_run id).trans
    (Run.cons (.timeout rfl) (Run.cons (.unlock rfl) (Run.single (.drp rfl))))))).trans
      (Run.single (.recovered rfl))⟩
  first r hr := by simp [tardy] at hr

/-- The call returns true, as it should. -/
theorem keepsSignal_timely : KeepsSignal timely true :=
  (keepsSignal_iff rfl Run.nil timely_completes).2 (by decide)

/-- The call returns false although the partner came, and switches the port back. -/
theorem signal_lost :
    Completes World.idle (switching false (Pure.pure ()) .idle) tardy false ∧
      ¬ KeepsSignal tardy false := by
  refine ⟨tardy_completes, fun hkeeps => ?_⟩
  cases hkeeps.result

end Partner

end UsbHal
end M2391Device
