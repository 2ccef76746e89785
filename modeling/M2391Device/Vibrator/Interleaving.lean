import M2391Device.Lib.Run
import M2391Device.Vibrator.TimedMotor

/-!
# Interleaving — client calls and the worker thread as one transition system

Every public member function of `TimedMotor` holds `mutex_` for its whole body, and the worker gives
the mutex up at three places only: in `wait`, in `wait_until`, and around the callback.  A state of
the system is therefore a state in which the mutex is free, and a step is one call, or one stretch
of the worker between two of these places.  Whoever takes the mutex next is arbitrary, which
includes requests that arrive while the worker is trying to take it back after a timeout.

`wait_until` takes `deadline_` by reference: when it has the mutex back it compares the clock with
the value that `deadline_` has then, and evaluates the predicate before it reports a timeout.
Wake-ups may be spurious, so a waiting worker may always take a step.

Clock readings are part of the events, and never go back.
-/

namespace M2391Device
namespace Vibrator

universe u v

variable {κ : Type u} {σ : Type v}

/-- Where the worker is while it does not hold the mutex. -/
inductive Worker (κ : Type u)
  /-- About to take the mutex at the head of the loop. -/
  | ready
  /-- Blocked in `changed_.wait`. -/
  | idle
  /-- Blocked in `changed_.wait_until`, with the local `generation` and the time it was armed for. -/
  | timed (generation : UInt64) (armed : Int)
  /-- Between `lock.unlock()` and `lock.lock()`, with the locals `stopped` and `callback`. -/
  | calling (stopped : Bool) (callback : Option κ)
  | exited
  deriving DecidableEq, Repr

structure Config (κ : Type u) (σ : Type v) where
  motor : Motor κ σ
  worker : Worker κ
  clock : Int

/-- What happened in a step: the call with its result, or what the worker did, and the writes. -/
inductive Event (κ : Type u)
  | play (now : Int) (milliseconds level gain : Int) (complete : Option κ) (returned : Bool)
      (writes : List Write)
  | setAmplitude (amplitude : ℚ) (returned : Bool) (writes : List Write)
  | compose (now : Int) (taps : List Tap) (complete : Option κ) (returned : Bool)
      (writes : List Write)
  | stop (returned : Bool) (writes : List Write)
  | destroy (writes : List Write)
  /-- The worker runs the head of its loop. -/
  | resume
  /-- The timed wait ends because what it was armed for is gone. -/
  | wake (t : Int)
  /-- The timed wait is interrupted before the deadline, and goes on. -/
  | early (t : Int)
  /-- The timed wait times out at `t` on the request it was armed for. -/
  | expire (t now : Int) (outcome : Motor.Expiry κ) (writes : List Write)
  /-- The worker reaches `if (stopped && callback) callback();` with the mutex released. -/
  | invoke (callback : Option κ)
  deriving DecidableEq

/-- The writes that a step attempted, oldest first. -/
def Event.writes : Event κ → List Write
  | .play _ _ _ _ _ _ ws => ws
  | .setAmplitude _ _ ws => ws
  | .compose _ _ _ _ ws => ws
  | .stop _ ws => ws
  | .destroy ws => ws
  | .expire _ _ _ ws => ws
  | _ => []

/-- The head of the worker's loop, up to the place where it blocks: `while (!quit_)`, the wait for
a request, and the start of the timed wait.  Notifications given while nobody waits are lost. -/
def loopHead (m : Motor κ σ) : Worker κ :=
  if m.quit then .exited
  else if m.pending then .timed m.generation m.deadline
  else .idle

/-- The worker blocks, or exits, at the head of its loop. -/
def Config.enterLoop (m : Motor κ σ) (clock : Int) : Config κ σ :=
  { motor := { m with changed := false }
    worker := loopHead m
    clock := clock }

/-- The predicate of the timed wait. -/
def Superseded (m : Motor κ σ) (generation : UInt64) : Prop :=
  m.quit = true ∨ m.pending = false ∨ m.generation ≠ generation

instance (m : Motor κ σ) (generation : UInt64) : Decidable (Superseded m generation) :=
  inferInstanceAs (Decidable (_ ∨ _))

/-- Where the worker goes after an expiry: on with its loop, or out of the mutex. -/
def Config.afterExpiry (outcome : Motor.Expiry κ) (m : Motor κ σ) (clock : Int) : Config κ σ :=
  match outcome with
  | .finished stopped _ callback =>
      { motor := m, worker := .calling stopped callback, clock := clock }
  | _ => Config.enterLoop m clock

inductive Step (w : Writer σ) : Config κ σ → Event κ → Config κ σ → Prop where
  -- A call is possible while the object lives, and holds the mutex from its checks to its return.
  | play {c : Config κ σ} {now : Int} {milliseconds level gain : Int} {complete : Option κ}
      {returned : Bool} {m : Motor κ σ} {writes : List Write} :
      c.motor.quit = false → c.clock ≤ now →
      c.motor.play w now milliseconds level gain complete = (returned, m) →
      m.log = c.motor.log ++ writes →
      Step w c (.play now milliseconds level gain complete returned writes)
        { c with motor := m, clock := now }
  | setAmplitude {c : Config κ σ} {amplitude : ℚ} {returned : Bool} {m : Motor κ σ}
      {writes : List Write} :
      c.motor.quit = false →
      c.motor.setAmplitude w amplitude = (returned, m) →
      m.log = c.motor.log ++ writes →
      Step w c (.setAmplitude amplitude returned writes) { c with motor := m }
  | compose {c : Config κ σ} {now : Int} {taps : List Tap} {complete : Option κ}
      {returned : Bool} {m : Motor κ σ} {writes : List Write} :
      c.motor.quit = false → c.clock ≤ now →
      c.motor.compose w now taps complete = (returned, m) →
      m.log = c.motor.log ++ writes →
      Step w c (.compose now taps complete returned writes) { c with motor := m, clock := now }
  | stop {c : Config κ σ} {returned : Bool} {m : Motor κ σ} {writes : List Write} :
      c.motor.quit = false →
      c.motor.stop w = (returned, m) →
      m.log = c.motor.log ++ writes →
      Step w c (.stop returned writes) { c with motor := m }
  | destroy {c : Config κ σ} {m : Motor κ σ} {writes : List Write} :
      c.motor.quit = false →
      c.motor.destroy w = m →
      m.log = c.motor.log ++ writes →
      Step w c (.destroy writes) { c with motor := m }
  -- From here on the worker: an idle one may also wake up without a notification.
  | resume {c : Config κ σ} :
      c.worker = .ready ∨ c.worker = .idle →
      Step w c .resume (Config.enterLoop c.motor c.clock)
  | superseded {c : Config κ σ} {generation : UInt64} {armed t : Int} :
      c.worker = .timed generation armed → c.clock ≤ t →
      Superseded c.motor generation →
      Step w c (.wake t) (Config.enterLoop c.motor t)
  -- A spurious wake-up: the wait goes on, with whatever `deadline_` is by then.
  | early {c : Config κ σ} {generation : UInt64} {armed t : Int} :
      c.worker = .timed generation armed → c.clock ≤ t →
      ¬ Superseded c.motor generation → t < c.motor.deadline →
      Step w c (.early t)
        { motor := { c.motor with changed := false }
          worker := .timed generation c.motor.deadline
          clock := t }
  -- The clock is read at `t` for the timeout and once more at `now` for the next deadline.
  | expire {c : Config κ σ} {generation : UInt64} {armed t now : Int}
      {outcome : Motor.Expiry κ} {m : Motor κ σ} {writes : List Write} :
      c.worker = .timed generation armed → c.clock ≤ t → t ≤ now →
      ¬ Superseded c.motor generation → c.motor.deadline ≤ t →
      c.motor.expire w now = (outcome, m) →
      m.log = c.motor.log ++ writes →
      Step w c (.expire t now outcome writes) (Config.afterExpiry outcome m now)
  | invoke {c : Config κ σ} {stopped : Bool} {callback : Option κ} :
      c.worker = .calling stopped callback →
      Step w c (.invoke (if stopped then callback else none)) { c with worker := .ready }

/-- The object as its constructor leaves it, with the worker not yet in its loop. -/
def Config.constructed (clock : Int) (d : σ) : Config κ σ :=
  { motor := Motor.constructed d, worker := .ready, clock := clock }

/-- The object after `initialize()`, which the service calls before it registers itself. -/
def Config.initialized (w : Writer σ) (clock : Int) (d : σ) : Config κ σ :=
  { motor := ((Motor.constructed d).initializeMotor w).2, worker := .ready, clock := clock }

/-- The states that runs start from. -/
def Origin (w : Writer σ) (c : Config κ σ) : Prop :=
  ∃ clock d, c = Config.constructed clock d ∨ c = Config.initialized w clock d

/-- The states that any interleaving of calls and worker steps can reach. -/
def Reachable (w : Writer σ) (c : Config κ σ) : Prop :=
  ∃ c₀ h, Origin w c₀ ∧ Transition.Run (Step w) c₀ h c

end Vibrator
end M2391Device
