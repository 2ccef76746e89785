import Mathlib.Algebra.Ring.Nat
import Mathlib.Algebra.Order.Ring.Rat
import Mathlib.Data.List.Basic

/-!
# LiftToWake — the raise sensor and its filter

A shallow embedding of `RaiseGestureFilter.java` and `LiftToWakeController.java`.  Every call runs on
the handler thread, so a run is a sequence of calls.  What a call asks the system for (whether the
device is interactive, the setting, the result of the registration, the clock) is part of the event.

Clock readings and timestamps are nanoseconds in a Java `long`; they are integers here, since
`elapsedRealtimeNanos()` plus the delay reaches the bound of that type only after 292 years.
-/

namespace M2391Device
namespace Gestures

/-! ## Java floats -/

/-- A Java `float`: every finite one is a rational number. -/
inductive JFloat
  | nan
  | infinite (negative : Bool)
  | finite (q : ℚ)
  deriving DecidableEq

namespace JFloat

def isFinite : JFloat → Bool
  | .finite _ => true
  | _ => false

/-- `(int) value`: truncation toward zero, which saturates. -/
def toInt : JFloat → Int
  | .nan => 0
  | .infinite negative => if negative then -2147483648 else 2147483647
  | .finite q => max (-2147483648) (min (q.num.tdiv q.den) 2147483647)

/-- A natural number rounded to 24 significant bits, ties to even. -/
def roundNat (n : Nat) : Nat :=
  let step := 2 ^ (n.log2 - 23)
  let low := n / step
  if n % step * 2 < step ∨ (n % step * 2 = step ∧ low % 2 = 0) then low * step
  else (low + 1) * step

/-- The `float` that an `int` is promoted to. -/
def ofInt (n : Int) : JFloat :=
  .finite (if n < 0 then -(roundNat n.natAbs : ℚ) else (roundNat n.natAbs : ℚ))

end JFloat

/-! ## The filter -/

def RAISE : Int := 6
def LOWER : Int := 7
def UPRIGHT : Int := 2

structure RaiseGestureFilter where
  mPreviousAction : Int
  deriving DecidableEq

namespace RaiseGestureFilter

/-- `reset()`, which leaves the filter as the constructor does. -/
def reset : RaiseGestureFilter := ⟨0⟩

/-- The action code of a value; `none` when `shouldWake` turns the value away. -/
def action? (value : JFloat) : Option Int :=
  if value.isFinite = false ∨ value ≠ .ofInt value.toInt then none else some value.toInt

/-- `shouldWake(value)` -/
def shouldWake (value : JFloat) (f : RaiseGestureFilter) : Bool × RaiseGestureFilter :=
  match action? value with
  | none => (false, f)
  | some action =>
      (action == RAISE ||
        (action == UPRIGHT && f.mPreviousAction != RAISE && f.mPreviousAction != LOWER),
        ⟨action⟩)

end RaiseGestureFilter

/-! ## The controller -/

def SENSOR_TYPE : String := "com.meizu.sensor.raise"
def ARM_DELAY_NS : Int := 500000000

structure Sensor where
  stringType : String
  wakeUpSensor : Bool
  deriving DecidableEq

structure SensorEvent where
  timestamp : Int
  values : List JFloat
  deriving DecidableEq

structure LiftToWakeController where
  mRaise : Option Sensor
  mFilter : RaiseGestureFilter
  mListening : Bool
  mArmedAt : Int
  deriving DecidableEq

namespace LiftToWakeController

/-- The constructor; `none` is a device without a sensor service. -/
def create (sensors : Option (List Sensor)) : LiftToWakeController :=
  { mRaise := (sensors.getD []).find? fun s => s.stringType == SENSOR_TYPE && s.wakeUpSensor
    mFilter := .reset
    mListening := false
    mArmedAt := 0 }

/-- `update()`; `setting` is the value of the secure setting, `now` the reading of the clock, and
`registers` what `registerListener` returns, if they are asked for. -/
def update (interactive : Bool) (setting : Int) (now : Int) (registers : Bool)
    (c : LiftToWakeController) : LiftToWakeController :=
  let requested := c.mRaise.isSome && !interactive && setting != 0
  if requested = c.mListening then c
  else if requested then
    -- a registration that fails has reset the filter and moved the arming time as well
    { c with mFilter := .reset, mArmedAt := now + ARM_DELAY_NS, mListening := registers }
  else { c with mListening := false }

/-- `onSensorChanged(event)`, with whether it calls `wakeUpWithProximityCheck`. -/
def onSensorChanged (event : SensorEvent) (interactive : Bool) (now : Int)
    (c : LiftToWakeController) : Bool × LiftToWakeController :=
  match event.values with
  | [] => (false, c)
  | value :: _ =>
      if c.mListening = false ∨ event.timestamp < c.mArmedAt - ARM_DELAY_NS then (false, c)
      else
        let (wake, filter) := c.mFilter.shouldWake value
        let c := { c with mFilter := filter }
        if wake = false ∨ event.timestamp < c.mArmedAt ∨ interactive = true then (false, c)
        else (true, { c with mArmedAt := now + ARM_DELAY_NS })

end LiftToWakeController

/-! ## Runs -/

/-- A call of the controller, at the time `now` of the elapsed-realtime clock. -/
inductive LiftEvent
  | update (interactive : Bool) (setting : Int) (registers : Bool) (now : Int)
  | sensor (event : SensorEvent) (interactive : Bool) (now : Int)
  deriving DecidableEq

def LiftEvent.now : LiftEvent → Int
  | .update _ _ _ now => now
  | .sensor _ _ now => now

namespace LiftToWakeController

def step (c : LiftToWakeController) : LiftEvent → LiftToWakeController
  | .update interactive setting registers now => c.update interactive setting now registers
  | .sensor event interactive now => (c.onSensorChanged event interactive now).2

def run (c : LiftToWakeController) (h : List LiftEvent) : LiftToWakeController := h.foldl step c

/-- Whether a call wakes the device. -/
def wakes (c : LiftToWakeController) : LiftEvent → Bool
  | .update _ _ _ _ => false
  | .sensor event interactive now => (c.onSensorChanged event interactive now).1

/-- Whether a call registers the listener. -/
def registers (c : LiftToWakeController) (e : LiftEvent) : Bool :=
  !c.mListening && (c.step e).mListening

end LiftToWakeController

/-- The elapsed-realtime clock never goes back. -/
def Chronological (h : List LiftEvent) : Prop := (h.map LiftEvent.now).Pairwise (· ≤ ·)

instance (h : List LiftEvent) : Decidable (Chronological h) :=
  inferInstanceAs (Decidable (List.Pairwise _ _))

theorem Chronological.append_singleton {h : List LiftEvent} {e : LiftEvent}
    (hclock : Chronological (h ++ [e])) : Chronological h ∧ ∀ x ∈ h, x.now ≤ e.now := by
  simpa [Chronological, List.pairwise_append] using hclock

theorem Chronological.append_left {h g : List LiftEvent} (hclock : Chronological (h ++ g)) :
    Chronological h := by
  rw [Chronological, List.map_append, List.pairwise_append] at hclock
  exact hclock.1

end Gestures
end M2391Device
