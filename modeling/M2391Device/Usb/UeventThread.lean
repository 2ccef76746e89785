import M2391Device.Lib.Pool

/-!
# UeventThread — the worker threads behind `setCallback`

`setCallback` starts a thread that runs `uevent_work` when a callback is registered, and stops it
through `mEventFd` when the callback goes.  The thread itself creates that descriptor, after its
socket and its epoll set, and resets it when it leaves its loop.

A state holds every thread that was ever started.  A step is a call of `setCallback` up to the next
place where a thread can come in between, or one system call of a thread.
-/

namespace M2391Device
namespace UsbHal

open Transition

universe u

variable {κ : Type u}

/-! ## Threads -/

/-- What `epoll_wait` reports as readable. -/
inductive Source
  | uevent
  | event
  deriving DecidableEq

/-- Where a thread is in `uevent_work`, named by what it does next. -/
inductive Phase
  | openSocket
  | createEpoll
  | addSocket
  | createEvent
  | addEvent
  /-- In the loop, with the event descriptor in its epoll set and the events that are left of the
  last `epoll_wait`.  Without any it waits. -/
  | loop (watched : Nat) (ready : List Source)
  /-- `mEventFd.reset()` after the loop. -/
  | reset
  /-- Nothing but the return. -/
  | exiting
  | finished
  deriving DecidableEq

/-- The object behind `mEventFd`, with the thread that created it.  No other descriptor refers to it,
so it goes when `mEventFd` is assigned or reset. -/
structure EventFd where
  creator : Nat
  counter : Nat
  deriving DecidableEq

/-- A system call of a thread, with its outcome. -/
inductive Action
  | uevent_open_socket (ok : Bool)
  | epoll_create (ok : Bool)
  | add_uevent_fd (ok : Bool)
  | eventfd (ok : Bool)
  | add_event_fd (ok : Bool)
  | epoll_wait (ready : List Source)
  /-- `epoll_wait` failed, with `EINTR` or otherwise. -/
  | epoll_wait_failed (interrupted : Bool)
  | uevent_event
  | eventfd_read
  | reset
  | exit
  deriving DecidableEq

/-- The descriptor can be read without blocking. -/
def Readable (mEventFd : Option EventFd) (watched : Nat) : Prop :=
  ∃ n, mEventFd = some ⟨watched, n + 1⟩

/-- A step of `uevent_work` in the thread `i`: its place and `mEventFd`, before and after. -/
inductive Work (i : Nat) : Phase → Option EventFd → Action → Phase → Option EventFd → Prop where
  | uevent_open_socket {fd : Option EventFd} {ok : Bool} :
      Work i .openSocket fd (.uevent_open_socket ok) (if ok then .createEpoll else .exiting) fd
  | epoll_create {fd : Option EventFd} {ok : Bool} :
      Work i .createEpoll fd (.epoll_create ok) (if ok then .addSocket else .exiting) fd
  | add_uevent_fd {fd : Option EventFd} {ok : Bool} :
      Work i .addSocket fd (.add_uevent_fd ok) (if ok then .createEvent else .exiting) fd
  | eventfd {fd : Option EventFd} :
      Work i .createEvent fd (.eventfd true) .addEvent (some ⟨i, 0⟩)
  | eventfd_failed {fd : Option EventFd} : Work i .createEvent fd (.eventfd false) .exiting none
  | add_event_fd {e : EventFd} :
      Work i .addEvent (some e) (.add_event_fd true) (.loop e.creator []) (some e)
  -- also if what was created is no longer there
  | add_event_fd_failed {fd : Option EventFd} :
      Work i .addEvent fd (.add_event_fd false) .exiting none
  | epoll_wait {watched : Nat} {fd : Option EventFd} {ready : List Source} :
      ready ≠ [] → (.event ∈ ready → Readable fd watched) →
      Work i (.loop watched []) fd (.epoll_wait ready) (.loop watched ready) fd
  | epoll_wait_failed {watched : Nat} {fd : Option EventFd} {interrupted : Bool} :
      Work i (.loop watched []) fd (.epoll_wait_failed interrupted)
        (if interrupted then .loop watched [] else .reset) fd
  | uevent_event {watched : Nat} {rest : List Source} {fd : Option EventFd} :
      Work i (.loop watched (.uevent :: rest)) fd .uevent_event (.loop watched rest) fd
  -- `running = false`, and the rest of the events is dropped
  | eventfd_read {watched creator n : Nat} {rest : List Source} :
      Work i (.loop watched (.event :: rest)) (some ⟨creator, n + 1⟩) .eventfd_read
        .reset (some ⟨creator, 0⟩)
  | eventfd_read_invalid {watched : Nat} {rest : List Source} :
      Work i (.loop watched (.event :: rest)) none .eventfd_read (.loop watched []) none
  | reset {fd : Option EventFd} : Work i .reset fd .reset .exiting none
  | exit {fd : Option EventFd} : Work i .exiting fd .exit .finished fd

/-! ## Calls -/

/-- Where the caller of `setCallback` is. -/
inductive Caller
  /-- There is no call. -/
  | idle
  /-- The callback is gone and `mLock` is released; `eventfd_write` comes next. -/
  | notifying
  /-- In `mPoll.join()`. -/
  | joining
  /-- After the start of the thread. -/
  | registering
  deriving DecidableEq

structure Threads (κ : Type u) where
  mCallback : Option κ
  /-- The thread that `mPoll` stands for, while it is joinable. -/
  mPoll : Option Nat
  mEventFd : Option EventFd
  threads : List Phase
  caller : Caller

inductive ThreadEvent (κ : Type u)
  | setCallback (callback : Option κ)
  | eventfd_write (ok : Bool)
  | join
  /-- `setCallback` returns at its end. -/
  | registered
  | work (i : Nat) (a : Action)

namespace Threads

/-- The object after its construction. -/
def initial : Threads κ where
  mCallback := none
  mPoll := none
  mEventFd := none
  threads := []
  caller := .idle

/-- `mPoll = std::thread(&Usb::uevent_work, this)`, after `mPoll` was detached if it was joinable. -/
def spawn (s : Threads κ) : Threads κ :=
  { s with mPoll := some s.threads.length, threads := s.threads ++ [.openSocket] }

inductive Step : Threads κ → ThreadEvent κ → Threads κ → Prop where
  -- both are null, or neither is
  | update {s : Threads κ} {callback : Option κ} :
      s.caller = .idle → s.mCallback.isSome = callback.isSome →
      Step s (.setCallback callback) { s with mCallback := callback }
  | unregister {s : Threads κ} :
      s.caller = .idle → s.mCallback.isSome = true →
      Step s (.setCallback none) { s with mCallback := none, caller := .notifying }
  | register {s : Threads κ} {callback : κ} :
      s.caller = .idle → s.mCallback = none →
      Step s (.setCallback (some callback))
        { s.spawn with mCallback := some callback, caller := .registering }
  | registered {s : Threads κ} :
      s.caller = .registering → Step s .registered { s with caller := .idle }
  | eventfd_write {s : Threads κ} {e : EventFd} :
      s.caller = .notifying → s.mEventFd = some e →
      Step s (.eventfd_write true)
        { s with mEventFd := some { e with counter := e.counter + 1 }, caller := .joining }
  -- without a descriptor the call returns
  | eventfd_write_failed {s : Threads κ} :
      s.caller = .notifying → s.mEventFd = none →
      Step s (.eventfd_write false) { s with caller := .idle }
  | join {s : Threads κ} {i : Nat} :
      s.caller = .joining → s.mPoll = some i → s.threads[i]? = some .finished →
      Step s .join { s with mPoll := none, caller := .idle }
  | work {s : Threads κ} {i : Nat} {a : Action} {p p' : Phase} {fd : Option EventFd} :
      s.threads[i]? = some p → Work i p s.mEventFd a p' fd →
      Step s (.work i a) { s with threads := s.threads.set i p', mEventFd := fd }

end Threads

/-! ## What should hold, and when it does -/

/-- Before the event descriptor of the thread exists. -/
def Phase.StartingUp : Phase → Prop
  | .openSocket => True
  | .createEpoll => True
  | .addSocket => True
  | .createEvent => True
  | _ => False

def Phase.InLoop : Phase → Prop
  | .loop _ _ => True
  | _ => False

/-- In the loop, on the way there, or not yet done with the event descriptor. -/
def Phase.Running : Phase → Prop
  | .exiting => False
  | .finished => False
  | _ => True

namespace Threads

/-- Two threads are never in the loop, and when the callback was unregistered no thread runs. -/
structure OneWorker (s : Threads κ) : Prop where
  loop : ∀ (i j : Nat) (p q : Phase), s.threads[i]? = some p → s.threads[j]? = some q →
    p.InLoop → q.InLoop → i = j
  unregistered : s.caller = .idle → s.mCallback = none →
    ∀ (i : Nat) (p : Phase), s.threads[i]? = some p → ¬ p.Running

/-- No thread is before its event descriptor. -/
def Started (s : Threads κ) : Prop :=
  ∀ (i : Nat) (p : Phase), s.threads[i]? = some p → ¬ p.StartingUp

/-- A step that does not signal a thread that is still starting up. -/
def SafeStep (s : Threads κ) (e : ThreadEvent κ) (s' : Threads κ) : Prop :=
  Step s e s' ∧ ∀ ok, e = .eventfd_write ok → s.Started

end Threads

/-! ## One thread -/

theorem Phase.InLoop.running {p : Phase} (h : p.InLoop) : p.Running := by
  cases p with
  | loop => exact trivial
  | _ => exact h.elim

theorem Phase.StartingUp.running {p : Phase} (h : p.StartingUp) : p.Running := by
  cases p with
  | openSocket => exact trivial
  | createEpoll => exact trivial
  | addSocket => exact trivial
  | createEvent => exact trivial
  | _ => exact h.elim

/-- A thread that runs has its descriptor in `mEventFd`, except while it starts up. -/
def Phase.Holds (p : Phase) (mEventFd : Option EventFd) : Prop :=
  p.Running → (p.StartingUp ↔ mEventFd = none)

/-- A thread goes on, or leaves no descriptor behind, or had left before. -/
theorem Work.leaves {i : Nat} {p p' : Phase} {fd fd' : Option EventFd} {a : Action}
    (h : Work i p fd a p' fd') (hholds : p.Holds fd) :
    p.Running ∧ p'.Running ∧ p'.Holds fd' ∨ p.Running ∧ ¬ p'.Running ∧ fd' = none ∨
      ¬ p.Running ∧ ¬ p'.Running ∧ fd' = fd := by
  cases h with
  | @uevent_open_socket _ ok =>
      cases ok
      · exact Or.inr (Or.inl ⟨trivial, id, (hholds trivial).1 trivial⟩)
      · exact Or.inl ⟨trivial, trivial, fun _ => hholds trivial⟩
  | @epoll_create _ ok =>
      cases ok
      · exact Or.inr (Or.inl ⟨trivial, id, (hholds trivial).1 trivial⟩)
      · exact Or.inl ⟨trivial, trivial, fun _ => hholds trivial⟩
  | @add_uevent_fd _ ok =>
      cases ok
      · exact Or.inr (Or.inl ⟨trivial, id, (hholds trivial).1 trivial⟩)
      · exact Or.inl ⟨trivial, trivial, fun _ => hholds trivial⟩
  | eventfd => exact Or.inl ⟨trivial, trivial, fun _ => iff_of_false id (Option.some_ne_none _)⟩
  | eventfd_failed => exact Or.inr (Or.inl ⟨trivial, id, rfl⟩)
  | add_event_fd => exact Or.inl ⟨trivial, trivial, fun _ => hholds trivial⟩
  | add_event_fd_failed => exact Or.inr (Or.inl ⟨trivial, id, rfl⟩)
  | epoll_wait => exact Or.inl ⟨trivial, trivial, fun _ => hholds trivial⟩
  | @epoll_wait_failed _ _ interrupted =>
      cases interrupted
      · exact Or.inl ⟨trivial, trivial, fun _ => hholds trivial⟩
      · exact Or.inl ⟨trivial, trivial, fun _ => hholds trivial⟩
  | uevent_event => exact Or.inl ⟨trivial, trivial, fun _ => hholds trivial⟩
  | eventfd_read =>
      exact Or.inl ⟨trivial, trivial, fun _ => iff_of_false id (Option.some_ne_none _)⟩
  | eventfd_read_invalid => exact Or.inl ⟨trivial, trivial, fun _ => hholds trivial⟩
  | reset => exact Or.inr (Or.inl ⟨trivial, id, rfl⟩)
  | exit => exact Or.inr (Or.inr ⟨id, id, rfl⟩)

namespace Threads

variable {s s₀ s' : Threads κ} {h : List (ThreadEvent κ)} {e : ThreadEvent κ}

/-- No thread runs. -/
def Quiet (s : Threads κ) : Prop := ∀ (i : Nat) (p : Phase), s.threads[i]? = some p → ¬ p.Running

/-! ## The invariant -/

/-- What a call relies on. -/
def Relies (s : Threads κ) : Caller → Prop
  | .idle => s.mCallback = none → s.Quiet
  | .notifying => s.mCallback = none
  | .joining => True
  | .registering => s.mCallback.isSome = true

/-- The thread that runs is the one of `mPoll`, and `mEventFd` is its descriptor. -/
structure Exclusive (s : Threads κ) : Prop where
  single : ∀ (i : Nat) (p : Phase), s.threads[i]? = some p → p.Running → s.mPoll = some i
  holds : ∀ (i : Nat) (p : Phase), s.threads[i]? = some p → p.Holds s.mEventFd
  quiet : s.Quiet → s.mEventFd = none
  caller : s.Relies s.caller

theorem Exclusive.relies {c : Caller} (hexclusive : s.Exclusive) (hcaller : s.caller = c) :
    s.Relies c := hcaller ▸ hexclusive.caller

theorem exclusive_initial : Exclusive (initial : Threads κ) where
  single i p hp := by cases hp
  holds i p hp := by cases hp
  quiet _ := rfl
  caller _ i p hp := by cases hp

theorem Exclusive.spawn (hexclusive : s.Exclusive) (hquiet : s.Quiet) (callback : κ) :
    Exclusive { s.spawn with mCallback := some callback, caller := .registering } := by
  have hnone := hexclusive.quiet hquiet
  constructor
  · intro i p hp hrunning
    rcases getElem?_snoc_cases hp with hold | ⟨rfl, _⟩
    · exact absurd hrunning (hquiet i p hold)
    · rfl
  · intro i p hp hrunning
    rcases getElem?_snoc_cases hp with hold | ⟨_, rfl⟩
    · exact absurd hrunning (hquiet i p hold)
    · exact iff_of_true trivial hnone
  · exact fun _ => hnone
  · exact rfl

theorem Exclusive.work {i : Nat} {a : Action} {p p' : Phase} {fd : Option EventFd}
    (hexclusive : s.Exclusive) (hp : s.threads[i]? = some p) (hwork : Work i p s.mEventFd a p' fd) :
    Exclusive { s with threads := s.threads.set i p', mEventFd := fd } := by
  have hleaves := hwork.leaves (hexclusive.holds i p hp)
  -- while a thread runs, no other one does
  have hother : ∀ (j : Nat) (q : Phase), j ≠ i → s.threads[j]? = some q → p.Running → ¬ q.Running := by
    intro j q hji hq hrunning hrunning'
    have hpoll := hexclusive.single i p hp hrunning
    have hpoll' := hexclusive.single j q hq hrunning'
    exact hji (Option.some.inj (hpoll'.symm.trans hpoll))
  have hback : p'.Running → p.Running := by
    intro hrunning
    rcases hleaves with ⟨hp, _⟩ | ⟨hp, _⟩ | ⟨_, hleft, _⟩
    · exact hp
    · exact hp
    · exact absurd hrunning hleft
  constructor
  · intro j q hq hrunning
    rcases Pool.set_cases hq with ⟨rfl, rfl⟩ | ⟨_, hold⟩
    · exact hexclusive.single _ p hp (hback hrunning)
    · exact hexclusive.single j q hold hrunning
  · intro j q hq hrunning
    rcases Pool.set_cases hq with ⟨rfl, rfl⟩ | ⟨hji, hold⟩
    · rcases hleaves with ⟨_, _, hholds⟩ | ⟨_, hleft, _⟩ | ⟨_, hleft, _⟩
      · exact hholds hrunning
      · exact absurd hrunning hleft
      · exact absurd hrunning hleft
    · rcases hleaves with ⟨hp, _⟩ | ⟨hp, _⟩ | ⟨_, _, rfl⟩
      · exact absurd hrunning (hother j q hji hold hp)
      · exact absurd hrunning (hother j q hji hold hp)
      · exact hexclusive.holds j q hold hrunning
  · intro hquiet
    have hlt : i < s.threads.length := (List.getElem?_eq_some_iff.1 hp).1
    have hleft : ¬ p'.Running := hquiet i p' (List.getElem?_set_self hlt)
    rcases hleaves with ⟨_, hgoes, _⟩ | ⟨_, _, hnone⟩ | ⟨hidle, _, rfl⟩
    · exact absurd hgoes hleft
    · exact hnone
    · refine hexclusive.quiet fun j q hq => ?_
      by_cases hji : j = i
      · subst hji
        cases hq.symm.trans ‹s.threads[j]? = some p›
        exact hidle
      · refine hquiet j q ?_
        rw [List.getElem?_set_ne (Ne.symm hji)]
        exact hq
  · have hrelies := hexclusive.caller
    cases hcaller : s.caller with
    | idle =>
        rw [hcaller] at hrelies
        intro hnone j q hq
        rcases Pool.set_cases hq with ⟨rfl, rfl⟩ | ⟨_, hold⟩
        · exact fun hrunning => hrelies hnone _ p hp (hback hrunning)
        · exact hrelies hnone j q hold
    | notifying => exact hexclusive.relies hcaller
    | joining => exact trivial
    | registering => exact hexclusive.relies hcaller

/-- A safe step keeps the invariant. -/
theorem Exclusive.step (hexclusive : s.Exclusive) (hstep : SafeStep s e s') : s'.Exclusive := by
  rcases hstep with ⟨hstep, hsafe⟩
  cases hstep with
  | @update callback hidle hsame =>
      refine ⟨hexclusive.single, hexclusive.holds, hexclusive.quiet, ?_⟩
      have hquiet : callback = none → s.Quiet := by
        rintro rfl
        have hnone : s.mCallback = none := by simpa using hsame
        exact hexclusive.relies hidle hnone
      rw [hidle]
      exact hquiet
  | unregister => exact ⟨hexclusive.single, hexclusive.holds, hexclusive.quiet, rfl⟩
  | register hidle hnone => exact hexclusive.spawn (hexclusive.relies hidle hnone) _
  | registered hregistering =>
      have hsome : s.mCallback.isSome = true := hexclusive.relies hregistering
      refine ⟨hexclusive.single, hexclusive.holds, hexclusive.quiet, fun hnone => ?_⟩
      rw [show s.mCallback = none from hnone] at hsome
      cases hsome
  | @eventfd_write e hnotifying hsome =>
      have hchanged : ∀ fd : EventFd, s.mEventFd = none ↔ some fd = none := by
        intro fd
        rw [hsome]
        exact iff_of_false (Option.some_ne_none _) (Option.some_ne_none _)
      refine ⟨hexclusive.single, ?_, ?_, trivial⟩
      · intro i p hp hrunning
        exact (hexclusive.holds i p hp hrunning).trans (hchanged _)
      · exact fun hquiet => (hchanged _).1 (hexclusive.quiet hquiet)
  | eventfd_write_failed hnotifying hnone =>
      refine ⟨hexclusive.single, hexclusive.holds, hexclusive.quiet, fun _ i p hp hrunning => ?_⟩
      -- a thread that runs without a descriptor is starting up
      have hstarted : ¬ p.StartingUp := hsafe _ rfl i p hp
      exact hstarted ((hexclusive.holds i p hp hrunning).2 hnone)
  | @join i hjoining hpoll hfinished =>
      -- the thread of `mPoll` is the only one that could run
      have hquiet : s.Quiet := by
        intro j q hq hrunning
        cases hpoll.symm.trans (hexclusive.single j q hq hrunning)
        cases hfinished.symm.trans hq
        exact hrunning
      refine ⟨?_, hexclusive.holds, hexclusive.quiet, fun _ => hquiet⟩
      intro j q hq hrunning
      exact absurd hrunning (hquiet j q hq)
  | work hp hwork => exact hexclusive.work hp hwork

/-! ## Runs -/

theorem Exclusive.one (hexclusive : s.Exclusive) : s.OneWorker where
  loop i j p q hp hq hloop hloop' := by
    have hpoll := hexclusive.single i p hp hloop.running
    have hpoll' := hexclusive.single j q hq hloop'.running
    exact Option.some.inj (hpoll.symm.trans hpoll')
  unregistered hidle hnone := hexclusive.relies hidle hnone

theorem exclusive_run (hrun : Run SafeStep (initial : Threads κ) h s) : s.Exclusive :=
  hrun.invariant Exclusive exclusive_initial fun _ _ _ ht hstep => ht.step hstep

/-- Over steps that never signal a thread that is still starting up, at most one thread is in its
loop, and none runs when the callback was unregistered. -/
theorem oneWorker (hrun : Run SafeStep (initial : Threads κ) h s) : s.OneWorker :=
  (exclusive_run hrun).one

/-- A thread that is signalled while it starts up is left behind by the call. -/
theorem left_behind (hrun : Run SafeStep (initial : Threads κ) h s) {ok : Bool}
    (hstep : Step s (.eventfd_write ok) s') (hstarted : ¬ s.Started) : ¬ s'.OneWorker := by
  have hexclusive := exclusive_run hrun
  unfold Started at hstarted
  push Not at hstarted
  rcases hstarted with ⟨i, p, hp, hstarting⟩
  have hnone := (hexclusive.holds i p hp hstarting.running).1 hstarting
  intro hone
  cases hstep with
  | eventfd_write _ hsome => cases hnone.symm.trans hsome
  | eventfd_write_failed hnotifying _ =>
      have hcallback : s.mCallback = none := hexclusive.relies hnotifying
      exact hone.unregistered rfl hcallback i p hp hstarting.running

/-! ## Two registrations -/

/-- A thread reaches its loop. -/
def startUp (i : Nat) : List (ThreadEvent κ) :=
  [.work i (.uevent_open_socket true), .work i (.epoll_create true), .work i (.add_uevent_fd true),
    .work i (.eventfd true), .work i (.add_event_fd true)]

/-- A system call is no signal. -/
theorem safe_work {i : Nat} {a : Action} {p p' : Phase} {fd : Option EventFd}
    (hp : s.threads[i]? = some p) (hwork : Work i p s.mEventFd a p' fd) :
    SafeStep s (.work i a) { s with threads := s.threads.set i p', mEventFd := fd } := by
  refine ⟨.work hp hwork, ?_⟩
  intro ok hok
  cases hok

theorem startUp_run {i : Nat} (hi : s.threads[i]? = some .openSocket) :
    Run SafeStep s (startUp i)
      { s with threads := s.threads.set i (.loop i []), mEventFd := some ⟨i, 0⟩ } := by
  have hlt : i < s.threads.length := (List.getElem?_eq_some_iff.1 hi).1
  have hset : ∀ p : Phase, (s.threads.set i p)[i]? = some p := fun p => List.getElem?_set_self hlt
  have hwork : ∀ {p p' : Phase} {fd fd' : Option EventFd} {a : Action}, Work i p fd a p' fd' →
      SafeStep { s with threads := s.threads.set i p, mEventFd := fd } (.work i a)
        { s with threads := s.threads.set i p', mEventFd := fd' } := by
    intro p p' fd fd' a h
    have hstep := safe_work (s := { s with threads := s.threads.set i p, mEventFd := fd }) (hset p) h
    rwa [List.set_set] at hstep
  have hopen : Work i .openSocket s.mEventFd (.uevent_open_socket true) .createEpoll s.mEventFd :=
    .uevent_open_socket
  have hepoll : Work i .createEpoll s.mEventFd (.epoll_create true) .addSocket s.mEventFd :=
    .epoll_create
  have hsocket : Work i .addSocket s.mEventFd (.add_uevent_fd true) .createEvent s.mEventFd :=
    .add_uevent_fd
  exact Run.cons (safe_work hi hopen) (Run.cons (hwork hepoll) (Run.cons (hwork hsocket)
    (Run.cons (hwork .eventfd) (Run.single (hwork .add_event_fd)))))

/-- The events of a registration, of which the thread has run none yet. -/
def registration : List (ThreadEvent Unit) := [.setCallback (some ()), .registered]

theorem registration_run {s : Threads Unit} (hidle : s.caller = .idle) (hnone : s.mCallback = none) :
    Run SafeStep s registration { s.spawn with mCallback := some (), caller := .idle } := by
  refine Run.cons ⟨.register hidle hnone, ?_⟩ (Run.single ⟨.registered rfl, ?_⟩)
  · intro ok hok
    cases hok
  · intro ok hok
    cases hok

/-- A thread in its loop is signalled, and reads the signal. -/
def shutDown : List (ThreadEvent Unit) :=
  [.setCallback none, .eventfd_write true, .work 0 (.epoll_wait [.event]), .work 0 .eventfd_read,
    .work 0 .reset, .work 0 .exit, .join]

/-- The object with its only thread in the loop. -/
def watching : Threads Unit where
  mCallback := some ()
  mPoll := some 0
  mEventFd := some ⟨0, 0⟩
  threads := [.loop 0 []]
  caller := .idle

/-- The same in a call that takes the callback away. -/
def signalling : Threads Unit := { watching with mCallback := none, caller := .notifying }

/-- The thread was joined. -/
def stopped : Threads Unit := { (initial : Threads Unit) with threads := [.finished] }

theorem shutDown_run : Run SafeStep watching shutDown stopped := by
  have hstarted : signalling.Started := by
    intro i p hp hstarting
    have hp' : p ∈ watching.threads := List.mem_of_getElem? hp
    cases List.mem_singleton.1 hp'
    exact hstarting
  have hsignal : SafeStep signalling (.eventfd_write true)
      { signalling with mEventFd := some ⟨0, 1⟩, caller := .joining } :=
    ⟨.eventfd_write (s := signalling) (e := ⟨0, 0⟩) rfl rfl, fun _ _ => hstarted⟩
  refine Run.cons ⟨.unregister rfl rfl, nofun⟩ (Run.cons hsignal ?_)
  refine Run.cons (safe_work rfl (.epoll_wait nofun fun _ => ⟨0, rfl⟩)) ?_
  refine Run.cons (safe_work rfl .eventfd_read) (Run.cons (safe_work rfl .reset) ?_)
  exact Run.cons (safe_work rfl .exit) (Run.single ⟨.join rfl rfl rfl, nofun⟩)

/-- The thread reaches its loop before it is signalled. -/
theorem oneWorker_stopped :
    Run SafeStep initial (registration ++ startUp 0 ++ shutDown) stopped ∧ stopped.OneWorker := by
  have hrun : Run SafeStep initial (registration ++ startUp 0 ++ shutDown) stopped :=
    ((registration_run rfl rfl).trans (startUp_run rfl)).trans shutDown_run
  exact ⟨hrun, oneWorker hrun⟩

/-- The callback goes before the thread has made its first system call. -/
def unregistered : Threads Unit :=
  { (initial : Threads Unit) with mPoll := some 0, threads := [.openSocket] }

/-- The thread that missed its signal is in the loop, and so is the one of a second
registration. -/
def doubled : Threads Unit where
  mCallback := some ()
  mPoll := some 1
  mEventFd := some ⟨1, 0⟩
  threads := [.loop 0 [], .loop 1 []]
  caller := .idle

theorem unregistered_run :
    Run Step initial (registration ++ [.setCallback none, .eventfd_write false]) unregistered :=
  ((registration_run rfl rfl).mono fun _ _ _ h => h.1).trans
    (Run.cons (.unregister rfl rfl) (Run.single (.eventfd_write_failed rfl rfl)))

theorem doubled_run : Run SafeStep unregistered (startUp 0 ++ (registration ++ startUp 1)) doubled :=
  (startUp_run rfl).trans ((registration_run rfl rfl).trans (startUp_run rfl))

/-- After the first call that unregisters, a thread is about to enter its loop; after the next
registration, two are in it. -/
theorem two_workers :
    (Run Step initial (registration ++ [.setCallback none, .eventfd_write false]) unregistered ∧
        ¬ unregistered.OneWorker) ∧
      Run Step unregistered (startUp 0 ++ (registration ++ startUp 1)) doubled ∧
        ¬ doubled.OneWorker := by
  refine ⟨⟨unregistered_run, fun hone => ?_⟩, doubled_run.mono fun _ _ _ h => h.1, fun hone => ?_⟩
  · exact hone.unregistered rfl rfl 0 _ rfl trivial
  · cases hone.loop 0 1 _ _ rfl rfl trivial trivial

end Threads

end UsbHal
end M2391Device
