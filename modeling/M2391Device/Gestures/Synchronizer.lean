import M2391Device.Lib.Run

/-!
# Synchronizer — the gesture application and the queue of its handler

A shallow embedding of the part of `GestureApplication.java` that runs on `mHandler`.  The handler
thread takes one message at a time; what the messages do between two such moments is a step, and
any other thread may post in between, also while a message is running.

A message put in the queue by `post` runs in posting order.  The delayed `mApply` message may be
taken at any later moment, which covers every relation between its delay and the other messages.
-/

namespace M2391Device
namespace Gestures

def MAX_RETRIES : Nat := 30

/-- What `mHandler.post` appends to the queue. -/
inductive Posted
  /-- The runnable of `synchronizeSetting`. -/
  | synchronize
  /-- The runnable of `onStateChanged`, with `newState == STATE_KEYGUARD_AUTH`. -/
  | stateChanged (keyguardAuth : Bool)
  deriving DecidableEq

/-- How the `try` block of `applySetting` ended. -/
inductive Outcome
  | succeeded
  | threw
  deriving DecidableEq

/-- Where the handler thread is. -/
inductive Phase
  /-- Between two messages. -/
  | idle
  /-- In the runnable of `synchronizeSetting`, before it has removed anything. -/
  | synchronizing
  /-- In the `try` block of `applySetting`. -/
  | applying
  deriving DecidableEq

structure Synchronizer where
  posted : List Posted
  /-- The number of `mApply` messages in the queue. -/
  delayed : Nat
  mRetries : Nat
  mKeyguardAuthenticationRunning : Bool
  phase : Phase
  deriving DecidableEq

namespace Synchronizer

/-- `synchronizeSetting()`: it only posts. -/
def synchronizeSetting (s : Synchronizer) : Synchronizer :=
  { s with posted := s.posted ++ [.synchronize] }

/-- `mFingerprintListener.onStateChanged`: it only posts, too. -/
def onStateChanged (keyguardAuth : Bool) (s : Synchronizer) : Synchronizer :=
  { s with posted := s.posted ++ [.stateChanged keyguardAuth] }

/-- `mHandler.removeCallbacks(mApply); mRetries = 0;` up to the `try` block of `applySetting`. -/
def beginSynchronized (s : Synchronizer) : Synchronizer :=
  { s with delayed := 0, mRetries := 0, phase := .applying }

/-- The end of `applySetting`, with its `catch` block. -/
def endApply (o : Outcome) (s : Synchronizer) : Synchronizer :=
  match o with
  | .succeeded => { s with phase := .idle }
  | .threw =>
      -- `mRetries++` counts the failure on both branches
      { s with
        delayed := if s.mRetries < MAX_RETRIES then s.delayed + 1 else s.delayed
        mRetries := s.mRetries + 1
        phase := .idle }

/-- The application after `onCreate`, which posts once. -/
def created : Synchronizer :=
  { posted := [.synchronize]
    delayed := 0
    mRetries := 0
    mKeyguardAuthenticationRunning := false
    phase := .idle }

/-- The handler has nothing left to do for a notification. -/
def Settled (s : Synchronizer) : Prop :=
  s.phase = .idle ∧ .synchronize ∉ s.posted ∧ s.delayed = 0

end Synchronizer

inductive Event
  /-- `synchronizeSetting()` is called on some thread. -/
  | notify
  /-- The fingerprint listener is called on some thread. -/
  | stateChange (keyguardAuth : Bool)
  /-- The handler runs the runnable of `onStateChanged`, which calls `synchronizeSetting()`. -/
  | runStateChanged (keyguardAuth : Bool)
  /-- The handler starts the runnable of `synchronizeSetting`. -/
  | startRunnable
  /-- An attempt of `applySetting` begins: in that runnable, or as an `mApply` message. -/
  | attempt (delayed : Bool)
  | finish (o : Outcome)
  deriving DecidableEq

/-- The events that are change notifications. -/
def Event.isNotification : Event → Bool
  | .notify => true
  | .runStateChanged _ => true
  | _ => false

def Event.isStart (e : Event) : Bool := e == .startRunnable

def Event.outcome? : Event → Option Outcome
  | .finish o => some o
  | _ => none

inductive Step : Synchronizer → Event → Synchronizer → Prop where
  -- other threads may post at any moment
  | notify {s : Synchronizer} :
      Step s .notify s.synchronizeSetting
  | stateChange {s : Synchronizer} {b : Bool} :
      Step s (.stateChange b) (s.onStateChanged b)
  | runStateChanged {s : Synchronizer} {b : Bool} {rest : List Posted} :
      s.phase = .idle → s.posted = .stateChanged b :: rest →
      Step s (.runStateChanged b)
        ({ s with posted := rest, mKeyguardAuthenticationRunning := b }.synchronizeSetting)
  | startRunnable {s : Synchronizer} {rest : List Posted} :
      s.phase = .idle → s.posted = .synchronize :: rest →
      Step s .startRunnable { s with posted := rest, phase := .synchronizing }
  | beginSynchronized {s : Synchronizer} :
      s.phase = .synchronizing →
      Step s (.attempt false) s.beginSynchronized
  | beginDelayed {s : Synchronizer} {n : Nat} :
      s.phase = .idle → s.delayed = n + 1 →
      Step s (.attempt true) { s with delayed := n, phase := .applying }
  | finish {s : Synchronizer} {o : Outcome} :
      s.phase = .applying →
      Step s (.finish o) (s.endApply o)

/-- The attempts that begin in a stretch of history, each with how it ended, if it did. -/
def outcomes : List Event → List (Option Outcome)
  | [] => []
  | .attempt _ :: rest => rest.findSome? Event.outcome? :: outcomes rest
  | _ :: rest => outcomes rest

end Gestures
end M2391Device
