import Mathlib.Algebra.Ring.Nat
import Mathlib.Data.Rat.Defs
import Mathlib.Data.List.Basic

/-!
# TimedMotor — the haptic scheduler of the vibrator service

A shallow embedding of `vibrator/TimedMotor.h`: the fields of the class, and every member function
that runs under `mutex_` as a function on them.  Two parts are kept apart because the proofs treat
them differently:

* `Schedule` holds what only the scheduler reads (the request, its deadline, the composition);
* `Hardware` holds `active_`, the device behind `writer_`, and the history of attempted writes.

`log` is not a field of the class.  It records each write with its outcome, so that statements can
speak about the writes that were issued.  The device is arbitrary: a `Writer` may answer any write
in any way, and may do so differently each time.
-/

namespace M2391Device
namespace Vibrator

universe u v

/-! ## Writes -/

/-- The control nodes below `/sys/class/meizu/motor/`. -/
inductive Node
  | enable
  | cont
  | ramLoop
  | setMback
  | gain
  | seq
  | waveform
  deriving DecidableEq, Repr

/-- The file name the source uses for a node. -/
def Node.name : Node → String
  | .enable => "enable"
  | .cont => "cont"
  | .ramLoop => "ram_loop"
  | .setMback => "set_mback"
  | .gain => "gain"
  | .seq => "seq"
  | .waveform => "waveform"

/-- One attempted write and whether it succeeded. -/
structure Write where
  node : Node
  value : String
  ok : Bool
  deriving DecidableEq, Repr

/-- Whether a write is the stop command `enable` `"0"`. -/
def Write.isStop (x : Write) : Bool := x.node == .enable && x.value == "0"

abbrev Writer (σ : Type v) := σ → Node → String → Bool × σ

/-! ## The state of the class -/

/-- `std::chrono::milliseconds(n)` as a duration of `steady_clock`, whose readings are integers
in nanoseconds here. -/
def millis (n : Int) : Int := n * 1000000

structure Tap where
  delayMs : Int
  durationMs : Int
  level : Int
  gain : Int
  deriving DecidableEq, Repr

structure Schedule (κ : Type u) where
  quit : Bool
  pending : Bool
  continuous : Bool
  generation : UInt64
  deadline : Int
  callback : Option κ
  taps : List Tap
  tapIndex : Nat
  waitingForTap : Bool
  /-- A notification of `changed_` that the blocked worker has not consumed yet. -/
  changed : Bool

structure Hardware (σ : Type v) where
  active : Bool
  device : σ
  log : List Write

structure Motor (κ : Type u) (σ : Type v) extends Schedule κ, Hardware σ

variable {κ : Type u} {σ : Type v}

/-- The state that the constructor leaves: every field at its initialiser. -/
def Motor.constructed (d : σ) : Motor κ σ :=
  { quit := false
    pending := false
    continuous := false
    generation := 0
    deadline := 0
    callback := none
    taps := []
    tapIndex := 0
    waitingForTap := false
    changed := false
    active := false
    device := d
    log := [] }

/-! ## Hardware access -/

namespace Hardware

/-- `writer_(node, value)`. -/
def write (w : Writer σ) (node : Node) (value : String) (hw : Hardware σ) : Bool × Hardware σ :=
  let answer := w hw.device node value
  (answer.1, { hw with device := answer.2, log := hw.log ++ [⟨node, value, answer.1⟩] })

/-- `stopHardware()`: drain queued RAM starts before stopping, including a failed start. -/
def stopHardware (w : Writer σ) (hw : Hardware σ) : Bool × Hardware σ :=
  if !hw.active then (true, hw)
  else
    let (stopped, hw) := hw.write w .enable "0"
    -- A failed stop leaves `active_` set, so that the next call tries again.
    (stopped, if stopped then { hw with active := false } else hw)

/-- The two writes of a start, `!writer_(node, value) || !writer_("gain", gain)` negated: the path
can reset the gain, so it is applied after the start. -/
def startThenGain (w : Writer σ) (node : Node) (value : String) (gain : Int) (hw : Hardware σ) :
    Bool × Hardware σ :=
  let (started, hw) := hw.write w node value
  if started then hw.write w .gain (toString gain) else (false, hw)

/-- The writes of `startTap()`, before it sets the deadline. -/
def fireTap (w : Writer σ) (tap : Tap) (hw : Hardware σ) : Bool × Hardware σ :=
  -- A silent tap is no playback: what plays is stopped and nothing is started.
  if tap.gain = 0 then hw.stopHardware w
  else
    startThenGain w .setMback (toString tap.level ++ " 1") tap.gain { hw with active := true }

/-- `stopped = stopped && (!continuous_ || stopHardware()); if (stopped) active_ = false;`.  Finite
RAM waves stop themselves, and keep their complete tail. -/
def closeWave (w : Writer σ) (continuous stopped : Bool) (hw : Hardware σ) : Bool × Hardware σ :=
  let (stopped, hw) :=
    if stopped then (if !continuous then (true, hw) else hw.stopHardware w) else (false, hw)
  (stopped, if stopped then { hw with active := false } else hw)

end Hardware

namespace Motor

/-- A member function that touches the hardware only. -/
def onHardware (m : Motor κ σ) (f : Hardware σ → Bool × Hardware σ) : Bool × Motor κ σ :=
  ((f m.toHardware).1, { m with toHardware := (f m.toHardware).2 })

/-- `changed_.notify_all()`. -/
def notifyAll (m : Motor κ σ) : Motor κ σ := { m with changed := true }

/-- `stopHardware()` on the whole object. -/
def stopHardware (w : Writer σ) (m : Motor κ σ) : Bool × Motor κ σ :=
  m.onHardware (Hardware.stopHardware w)

/-- `taps_[tapIndex_]`.  The subscript is unchecked in the source; outside the vector the result
is an arbitrary tap here. -/
def currentTap (m : Motor κ σ) : Tap := m.taps.getD m.tapIndex ⟨0, 0, 0, 0⟩

/-- `startTap()`; `now` is the reading of the clock it takes after its writes. -/
def startTap (w : Writer σ) (now : Int) (m : Motor κ σ) : Bool × Motor κ σ :=
  match m.onHardware (Hardware.fireTap w m.currentTap) with
  | (true, m') => (true, { m' with deadline := now + millis m.currentTap.durationMs })
  | (false, m') => (false, m')

/-! ## The public member functions -/

/-- `initialize()`: cancel legacy queued playback once when taking ownership. -/
def initializeMotor (w : Writer σ) (m : Motor κ σ) : Bool × Motor κ σ :=
  let (legacyStopped, m) := m.onHardware (Hardware.write w .enable "0")
  let (stopped, m) := m.onHardware (Hardware.write w .cont "0")
  let m := { m with active := !(legacyStopped && stopped) }
  (!m.active, m)

/-- The argument check of `play`, negated. -/
def PlayAccepts (milliseconds level gain : Int) : Prop :=
  ¬ (milliseconds ≤ 0 ∨ level < -1 ∨ level > 2 ∨ gain < 1 ∨ gain > 128)

instance (milliseconds level gain : Int) : Decidable (PlayAccepts milliseconds level gain) :=
  inferInstanceAs (Decidable (¬ _))

/-- What `play` sets under the lock before its first write. -/
def beginPlay (level : Int) (m : Motor κ σ) : Motor κ σ :=
  { m with
    pending := false
    callback := none
    taps := []
    waitingForTap := false
    generation := m.generation + 1
    active := true
    continuous := decide (level < 0) }

/-- The start control of `play`: a negative level selects a RAM carrier loop. -/
def startWave (w : Writer σ) (level gain : Int) (m : Motor κ σ) : Bool × Motor κ σ :=
  m.onHardware
    (Hardware.startThenGain w (if m.continuous then .ramLoop else .setMback)
      (if m.continuous then toString gain else toString level ++ " 1") gain)

/-- `play(milliseconds, level, gain, complete)`; `now` is the reading that sets the deadline. -/
def play (w : Writer σ) (now : Int) (milliseconds level gain : Int) (complete : Option κ)
    (m : Motor κ σ) : Bool × Motor κ σ :=
  if PlayAccepts milliseconds level gain then
    match (m.beginPlay level).startWave w level gain with
    -- The clean-up may fail too; its result is not looked at.
    | (false, m) => (false, (m.stopHardware w).2.notifyAll)
    -- The deadline counts from the end of the writes, not from the call.
    | (true, m) =>
        (true,
          { m with
            deadline := now + millis milliseconds
            callback := complete
            pending := true }.notifyAll)
  else (false, m)

/-- `static_cast<int>` of a value that fits: truncation toward zero. -/
def truncate (q : ℚ) : Int := q.num.tdiv q.den

/-- `setAmplitude(amplitude)`, with the float expression read over the rationals. -/
def setAmplitude (w : Writer σ) (amplitude : ℚ) (m : Motor κ σ) : Bool × Motor κ σ :=
  let gain := max 1 (truncate (amplitude * 128 + 1 / 2))
  m.onHardware (Hardware.write w .gain (toString gain))

/-- The per-tap check of `compose`, negated. -/
def TapAccepted (tap : Tap) : Prop :=
  ¬ (tap.delayMs < 0 ∨ tap.delayMs > 1000 ∨ tap.durationMs < 0 ∨
      tap.level < 0 ∨ tap.level > 2 ∨ tap.gain < 0 ∨ tap.gain > 128)

instance (tap : Tap) : Decidable (TapAccepted tap) := inferInstanceAs (Decidable (¬ _))

/-- The argument checks of `compose`, negated. -/
def ComposeAccepts (taps : List Tap) : Prop :=
  ¬ (taps = [] ∨ taps.length > 64) ∧ ∀ tap ∈ taps, TapAccepted tap

instance (taps : List Tap) : Decidable (ComposeAccepts taps) := inferInstanceAs (Decidable (_ ∧ _))

/-- What `compose` sets under the lock before its first write. -/
def beginCompose (taps : List Tap) (m : Motor κ σ) : Motor κ σ :=
  let m := { m with
    generation := m.generation + 1
    pending := false
    callback := none
    taps := taps
    tapIndex := 0
    continuous := false }
  { m with waitingForTap := decide (m.currentTap.delayMs > 0) }

/-- The first phase of a composition: wait out the first delay, or start the first tap at once. -/
def startComposition (w : Writer σ) (now : Int) (m : Motor κ σ) : Bool × Motor κ σ :=
  -- A delayed first tap must not overlap what plays; one that starts at once replaces it.
  if m.waitingForTap then
    match m.stopHardware w with
    | (false, m) => (false, m)
    | (true, m) => (true, { m with deadline := now + millis m.currentTap.delayMs })
  else
    match m.startTap w now with
    | (false, m) => (false, (m.stopHardware w).2)
    | (true, m) => (true, m)

/-- `compose(taps, complete)`. -/
def compose (w : Writer σ) (now : Int) (taps : List Tap) (complete : Option κ)
    (m : Motor κ σ) : Bool × Motor κ σ :=
  if ComposeAccepts taps then
    match (m.beginCompose taps).startComposition w now with
    -- `waitingForTap_`, `tapIndex_` and `continuous_` stay as they are.
    | (false, m) => (false, { m with taps := [] }.notifyAll)
    | (true, m) => (true, { m with callback := complete, pending := true }.notifyAll)
  else (false, m)

/-- What `stop` clears before it stops the hardware. -/
def beginStop (m : Motor κ σ) : Motor κ σ :=
  { m with
    generation := m.generation + 1
    pending := false
    callback := none
    taps := [] }

/-- `stop()`. -/
def stop (w : Writer σ) (m : Motor κ σ) : Bool × Motor κ σ :=
  m.beginStop.notifyAll.stopHardware w

/-- The destructor up to `worker_.join()`. -/
def destroy (w : Writer σ) (m : Motor κ σ) : Motor κ σ :=
  ({ m with quit := true, pending := false }.stopHardware w).2.notifyAll

/-! ## The body of the worker loop after its timed wait has expired -/

/-- How one expiry ends: with `continue` after a delayed tap was started or the next delay was
entered, or by giving up the lock to report completion. -/
inductive Expiry (κ : Type u)
  | tapStarted (index : Nat)
  | nextTap (index : Nat)
  | finished (stopped : Bool) (tapFailed : Bool) (callback : Option κ)
  deriving DecidableEq, Repr

/-- `!taps_.empty() && ++tapIndex_ < taps_.size()` and its two branches.  The callback is moved
out, which leaves the field empty. -/
def nextPhase (now : Int) (stopped tapFailed : Bool) (m : Motor κ σ) : Expiry κ × Motor κ σ :=
  -- `++tapIndex_` is not evaluated when there are no taps.
  let m := if m.taps = [] then m else { m with tapIndex := m.tapIndex + 1 }
  if m.taps ≠ [] ∧ m.tapIndex < m.taps.length then
    (.nextTap m.tapIndex,
      { m with waitingForTap := true, deadline := now + millis m.currentTap.delayMs })
  else
    (.finished stopped tapFailed m.callback,
      { m with taps := [], pending := false, callback := none })

/-- One pass of `loop()` from the expiry of the timed wait to `continue` or `lock.unlock()`; `now`
is the reading of the clock that sets the next deadline, if there is one. -/
def expire (w : Writer σ) (now : Int) (m : Motor κ σ) : Expiry κ × Motor κ σ :=
  if m.waitingForTap then
    match { m with waitingForTap := false }.startTap w now with
    | (true, m) => (.tapStarted m.tapIndex, m)
    | (false, m) =>
        -- A delayed hardware failure ends the composition.
        let (stopped, m) := m.stopHardware w
        let m := { m with taps := [] }
        -- `taps_` is empty, so the request ends here whatever the index is.
        let (stopped, m) := m.onHardware (Hardware.closeWave w m.continuous stopped)
        m.nextPhase now stopped true
  else
    let (stopped, m) := m.onHardware (Hardware.closeWave w m.continuous true)
    m.nextPhase now stopped false

end Motor

end Vibrator
end M2391Device
