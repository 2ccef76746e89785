import M2391Device.Lib.Sections
import M2391Device.Vibrator.Interleaving
import M2391Device.Vibrator.Service

/-!
# Threads — the haptic scheduler, instruction by instruction

The member functions of `TimedMotor` and the loop of its worker as programs: they take `mutex_`, and
then write, read the clock or get at the fields of the object, one operation at a time.  Threads may be
switched at every operation.

The fields and the device are touched under the mutex only, and a callback is called, and a call
answered, without it (`worker_sectioned`, `call_sectioned`).
-/

namespace M2391Device
namespace Vibrator

universe v

variable {κ : Type} {σ : Type v}

/-! ## Operations -/

/-- The fields of the class. -/
structure Fields (κ : Type) extends Schedule κ where
  active : Bool

namespace Fields

def currentTap (m : Fields κ) : Tap := m.taps.getD m.tapIndex ⟨0, 0, 0, 0⟩

/-- The predicate of the timed wait. -/
def superseded (generation : UInt64) (m : Fields κ) : Bool :=
  m.quit || !m.pending || m.generation != generation

end Fields

namespace Motor

def fields (m : Motor κ σ) : Fields κ := { m.toSchedule with active := m.active }

def update (f : Fields κ → Fields κ) (m : Motor κ σ) : Motor κ σ :=
  { m with
    toSchedule := (f m.fields).toSchedule
    active := (f m.fields).active }

end Motor

inductive MotorOp (κ : Type)
  /-- `writer_(node, value)` -/
  | write (node : Node) (value : String)
  /-- `std::chrono::steady_clock::now()` -/
  | now
  | fields
  | update (f : Fields κ → Fields κ)
  /-- `changed_.notify_all()` -/
  | notifyAll
  /-- A wait begins: earlier notifications are lost on it. -/
  | block
  | invoke (callback : κ)
  /-- A call returns. -/
  | reply (x : MotorCall κ) (returned : Bool)

abbrev MotorRes : MotorOp κ → Type
  | .write _ _ => Bool
  | .now => Int
  | .fields => Fields κ
  | .update _ => Unit
  | .notifyAll => Unit
  | .block => Unit
  | .invoke _ => Unit
  | .reply _ _ => Unit

/-- The operations that need no lock. -/
def MotorOp.isFree : MotorOp κ → Bool
  | .invoke _ => true
  | .reply _ _ => true
  | _ => false

instance (x : MotorCall κ) : Decidable x.Accepted :=
  match x with
  | .play milliseconds level gain _ => inferInstanceAs (Decidable (Motor.PlayAccepts milliseconds level gain))
  | .setAmplitude _ => instDecidableTrue
  | .compose taps _ => inferInstanceAs (Decidable (Motor.ComposeAccepts taps))
  | .stop => instDecidableTrue

namespace Threaded

/-- A thread that fails is one that is not looked at any further. -/
abbrev Thread (κ α : Type) := Locks.Thread (MotorRes (κ := κ)) Unit Unit Unit α

def write (node : Node) (value : String) : Thread κ Bool := .perform (.op (.write node value)) .pure

def now : Thread κ Int := .perform (.op .now) .pure

def fields : Thread κ (Fields κ) := .perform (.op .fields) .pure

def update (f : Fields κ → Fields κ) : Thread κ Unit := .perform (.op (.update f)) .pure

def notifyAll : Thread κ Unit := .perform (.op .notifyAll) .pure

def block : Thread κ Unit := .perform (.op .block) .pure

/-! ## The member functions -/

def stopHardware : Thread κ Bool := do
  let m ← fields
  if !m.active then return true
  else
    let stopped ← write .enable "0"
    if stopped then
      update fun m => { m with active := false }
      return true
    else return false

/-- The two writes of a start. -/
def startThenGain (node : Node) (value : String) (gain : Int) : Thread κ Bool := do
  let started ← write node value
  if started then write .gain (toString gain) else return false

/-- The writes of `startTap()`. -/
def fireTap (tap : Tap) : Thread κ Bool :=
  if tap.gain = 0 then stopHardware
  else do
    update fun m => { m with active := true }
    startThenGain .setMback (toString tap.level ++ " 1") tap.gain

def startTap : Thread κ Bool := do
  let m ← fields
  let fired ← fireTap m.currentTap
  if fired then
    let t ← now
    update fun m' => { m' with deadline := t + millis m.currentTap.durationMs }
    return true
  else return false

def play (milliseconds level gain : Int) (complete : Option κ) : Thread κ Bool := do
  update fun m => { m with
    pending := false
    callback := none
    taps := []
    waitingForTap := false
    generation := m.generation + 1
    active := true
    continuous := decide (level < 0) }
  let m ← fields
  let started ← startThenGain (if m.continuous then .ramLoop else .setMback)
    (if m.continuous then toString gain else toString level ++ " 1") gain
  if started then
    let t ← now
    update fun m => { m with deadline := t + millis milliseconds }
    update fun m => { m with callback := complete, pending := true }
    notifyAll
    return true
  else
    let _ ← stopHardware
    notifyAll
    return false

def setAmplitude (amplitude : ℚ) : Thread κ Bool :=
  write .gain (toString (max 1 (Motor.truncate (amplitude * 128 + 1 / 2))))

/-- The first phase of a composition. -/
def startComposition : Thread κ Bool := do
  let m ← fields
  if m.waitingForTap then
    let stopped ← stopHardware
    if stopped then
      let t ← now
      update fun m => { m with deadline := t + millis m.currentTap.delayMs }
      return true
    else return false
  else
    let started ← startTap
    if started then return true
    else
      let _ ← stopHardware
      return false

def compose (taps : List Tap) (complete : Option κ) : Thread κ Bool := do
  update fun m => { m with
    generation := m.generation + 1
    pending := false
    callback := none
    taps := taps
    tapIndex := 0
    continuous := false }
  update fun m => { m with waitingForTap := decide (m.currentTap.delayMs > 0) }
  let started ← startComposition
  if started then
    update fun m => { m with callback := complete, pending := true }
    notifyAll
    return true
  else
    update fun m => { m with taps := [] }
    notifyAll
    return false

def stop : Thread κ Bool := do
  update fun m => { m with
    generation := m.generation + 1
    pending := false
    callback := none
    taps := [] }
  notifyAll
  stopHardware

/-- What runs under the mutex. -/
def locked : MotorCall κ → Thread κ Bool
  | .play milliseconds level gain complete => play milliseconds level gain complete
  | .setAmplitude amplitude => setAmplitude amplitude
  | .compose taps complete => compose taps complete
  | .stop => stop

/-- A call: the arguments are checked before the mutex is taken. -/
def body (x : MotorCall κ) : Thread κ Bool :=
  if x.Accepted then Locks.withLock () (locked x) else return false

def reply (x : MotorCall κ) (returned : Bool) : Thread κ Unit :=
  .perform (.op (.reply x returned)) .pure

def call (x : MotorCall κ) : Thread κ Unit := body x >>= reply x

/-! ## The worker -/

/-- `stopped && (!continuous_ || stopHardware())` -/
def stopContinuous : Bool → Thread κ Bool
  | false => .pure false
  | true => do
      let m ← fields
      if m.continuous then stopHardware else return true

/-- `if (stopped) active_ = false;`, of that. -/
def closeWave (stopped : Bool) : Thread κ Bool := do
  let stopped ← stopContinuous stopped
  if stopped then
    update fun m => { m with active := false }
    return true
  else return false

/-- `!taps_.empty() && ++tapIndex_ < taps_.size()` -/
def nextIndex : Thread κ Bool := do
  let m ← fields
  if m.taps = [] then return false
  else
    update fun m => { m with tapIndex := m.tapIndex + 1 }
    let m ← fields
    return decide (m.tapIndex < m.taps.length)

/-- The rest of a pass, from the end of a tap: `none` is `continue`, otherwise what is known when the
mutex is given up for the callback. -/
def nextPhase (stopped : Bool) : Thread κ (Option (Bool × Option κ)) := do
  let more ← nextIndex
  if more then
    update fun m => { m with waitingForTap := true }
    let t ← now
    update fun m => { m with deadline := t + millis m.currentTap.delayMs }
    return none
  else
    update fun m => { m with taps := [], pending := false }
    let m ← fields
    update fun m => { m with callback := none }
    return some (stopped, m.callback)

/-- A pass of the loop from where the timed wait has expired. -/
def expiry : Thread κ (Option (Bool × Option κ)) := do
  let m ← fields
  if m.waitingForTap then
    update fun m => { m with waitingForTap := false }
    let started ← startTap
    if started then return none
    else
      let stopped ← stopHardware
      update fun m => { m with taps := [] }
      let stopped ← closeWave stopped
      nextPhase stopped
  else
    let stopped ← closeWave true
    nextPhase stopped

/-- The worker blocks on `changed_`; it goes on with the mutex taken back. -/
def wait {α : Type} (p : Thread κ α) : Thread κ α := do
  block
  .perform (.await () ()) fun _ => p

/-- `changed_.wait(lock, [this] { return quit_ || pending_; })`, as far as the wait is looked at. -/
def awaitRequest : Nat → Thread κ Unit
  | 0 => .throw ()
  | n + 1 => do
      let m ← fields
      if m.quit || m.pending then return () else wait (awaitRequest n)

/-- A timed wait is interrupted, or has timed out: the clock is compared with what `deadline_` is by then,
and after a timeout the predicate has the last word. -/
def wokenUp (generation : UInt64) (again : Thread κ Bool) : Thread κ Bool := do
  let m ← fields
  let t ← now
  if m.deadline ≤ t then
    let m ← fields
    return m.superseded generation
  else again

/-- `changed_.wait_until(lock, deadline_, ..)`: the predicate is looked at before each wait. -/
def awaitDeadline (generation : UInt64) : Nat → Thread κ Bool
  | 0 => .throw ()
  | n + 1 => do
      let m ← fields
      if m.superseded generation then return true
      else wait (wokenUp generation (awaitDeadline generation n))

/-- `if (stopped && callback) callback();` -/
def report : Bool → Option κ → Thread κ Unit
  | true, some callback => .perform (.op (.invoke callback)) .pure
  | _, _ => .pure ()

/-- From `lock.unlock()` to the end of a pass; the loop goes on with `again`. -/
def complete (again : Thread κ Unit) (stopped : Bool) (callback : Option κ) : Thread κ Unit :=
  .perform (.unlock ()) fun _ => do
    report stopped callback
    .perform (.lock ()) fun _ => again

/-- The rest of a pass, from what the timed wait returned. -/
def afterDeadline (again : Thread κ Unit) (superseded : Bool) : Thread κ Unit :=
  if superseded then again
  else do
    match ← expiry with
    | none => again
    | some (stopped, callback) => complete again stopped callback

/-- The rest of a pass, once there is a request. -/
def afterRequest (again : Thread κ Unit) (n : Nat) : Thread κ Unit := do
  let m ← fields
  if m.quit then .perform (.unlock ()) .pure
  else
    let superseded ← awaitDeadline m.generation n
    afterDeadline again superseded

/-- `loop()` from the head of its loop, as far as it is looked at. -/
def loop : Nat → Thread κ Unit
  | 0 => .throw ()
  | n + 1 => do
      let m ← fields
      if m.quit then .perform (.unlock ()) .pure
      else
        awaitRequest n
        afterRequest (loop n) n

def worker (n : Nat) : Thread κ Unit := .perform (.lock ()) fun _ => loop n

end Threaded

/-! ## Threads -/

/-- The object, and the time. -/
structure Clocked (κ : Type) (σ : Type v) where
  motor : Motor κ σ
  clock : Int

def MotorOp.step (w : Writer σ) : (o : MotorOp κ) → Clocked κ σ → MotorRes o × Clocked κ σ
  | .write node value, s => ((s.motor.onHardware (Hardware.write w node value)).1,
      { s with motor := (s.motor.onHardware (Hardware.write w node value)).2 })
  | .now, s => (s.clock, s)
  | .fields, s => (s.motor.fields, s)
  | .update f, s => ((), { s with motor := s.motor.update f })
  | .notifyAll, s => ((), { s with motor := s.motor.notifyAll })
  | .block, s => ((), { s with motor := { s.motor with changed := false } })
  | .invoke _, s => ((), s)
  | .reply _ _, s => ((), s)

def machine (w : Writer σ) : Locks.Machine (MotorOp κ) MotorRes Unit (Clocked κ σ) where
  step := MotorOp.step w
  holds := fun _ _ => true

/-- Time goes on. -/
def Later (s t : Clocked κ σ) : Prop := t.motor = s.motor ∧ s.clock ≤ t.clock

/-! ## Sections -/

namespace Threaded

/-- All of it under the mutex. -/
abbrev Inside (p : Thread κ α) : Prop := Locks.Sectioned MotorOp.isFree () true p true

variable {α : Type}

theorem inside_op {o : MotorOp κ} (ho : o.isFree = false) :
    Inside (.perform (.op o) .pure : Thread κ (MotorRes o)) := ⟨ho, fun _ => rfl⟩

theorem inside_stopHardware : Inside (stopHardware : Thread κ Bool) := by
  refine Locks.Sectioned.bind (inside_op rfl) fun m => .ite rfl ?_
  exact Locks.Sectioned.bind (inside_op rfl) fun stopped => .ite (.bind (inside_op rfl) fun _ => rfl) rfl

theorem inside_startThenGain {node : Node} {value : String} {gain : Int} :
    Inside (startThenGain node value gain : Thread κ Bool) :=
  Locks.Sectioned.bind (inside_op rfl) fun _ => .ite (inside_op rfl) rfl

theorem inside_fireTap (tap : Tap) : Inside (fireTap tap : Thread κ Bool) :=
  Locks.Sectioned.ite inside_stopHardware (.bind (inside_op rfl) fun _ => inside_startThenGain)

theorem inside_startTap : Inside (startTap : Thread κ Bool) := by
  refine Locks.Sectioned.bind (inside_op rfl) fun m => .bind (inside_fireTap _) fun fired => .ite ?_ rfl
  exact .bind (inside_op rfl) fun t => .bind (inside_op rfl) fun _ => rfl

theorem inside_play {milliseconds level gain : Int} {complete : Option κ} :
    Inside (play milliseconds level gain complete) := by
  refine Locks.Sectioned.bind (inside_op rfl) fun _ => .bind (inside_op rfl) fun m => ?_
  refine .bind inside_startThenGain fun started => .ite ?_ ?_
  · refine .bind (inside_op rfl) fun t => .bind (inside_op rfl) fun _ => ?_
    exact .bind (inside_op rfl) fun _ => .bind (inside_op rfl) fun _ => rfl
  · exact .bind inside_stopHardware fun _ => .bind (inside_op rfl) fun _ => rfl

theorem inside_startComposition : Inside (startComposition : Thread κ Bool) := by
  refine Locks.Sectioned.bind (inside_op rfl) fun m => .ite ?_ ?_
  · refine .bind inside_stopHardware fun stopped => .ite ?_ rfl
    exact .bind (inside_op rfl) fun t => .bind (inside_op rfl) fun _ => rfl
  · exact .bind inside_startTap fun started => .ite rfl (.bind inside_stopHardware fun _ => rfl)

theorem inside_compose {taps : List Tap} {complete : Option κ} : Inside (compose taps complete) := by
  refine Locks.Sectioned.bind (inside_op rfl) fun _ => .bind (inside_op rfl) fun _ => ?_
  refine .bind inside_startComposition fun started => .ite ?_ ?_
  · exact .bind (inside_op rfl) fun _ => .bind (inside_op rfl) fun _ => rfl
  · exact .bind (inside_op rfl) fun _ => .bind (inside_op rfl) fun _ => rfl

theorem inside_locked (x : MotorCall κ) : Inside (locked x) := by
  cases x with
  | play milliseconds level gain complete => exact inside_play
  | setAmplitude amplitude => exact inside_op rfl
  | compose taps complete => exact inside_compose
  | stop =>
      exact Locks.Sectioned.bind (inside_op rfl) fun _ => .bind (inside_op rfl) fun _ => inside_stopHardware

/-- A call is answered outside the mutex. -/
theorem call_sectioned (x : MotorCall κ) : Locks.Sectioned MotorOp.isFree () false (call x) false := by
  refine Locks.Sectioned.bind (.ite (.withLock (inside_locked x)) rfl) fun returned => ?_
  exact ⟨rfl, fun _ => rfl⟩

theorem inside_closeWave (stopped : Bool) : Inside (closeWave stopped : Thread κ Bool) := by
  have hstop : Inside (stopContinuous stopped : Thread κ Bool) := by
    cases stopped with
    | false => exact rfl
    | true => exact Locks.Sectioned.bind (inside_op rfl) fun m => .ite inside_stopHardware rfl
  exact Locks.Sectioned.bind hstop fun stopped => .ite (.bind (inside_op rfl) fun _ => rfl) rfl

theorem inside_nextPhase (stopped : Bool) :
    Inside (nextPhase stopped : Thread κ (Option (Bool × Option κ))) := by
  have hindex : Inside (nextIndex : Thread κ Bool) := by
    refine Locks.Sectioned.bind (inside_op rfl) fun m => .ite rfl ?_
    exact .bind (inside_op rfl) fun _ => .bind (inside_op rfl) fun _ => rfl
  refine Locks.Sectioned.bind hindex fun more => .ite ?_ ?_
  · exact .bind (inside_op rfl) fun _ => .bind (inside_op rfl) fun t => .bind (inside_op rfl) fun _ => rfl
  · exact .bind (inside_op rfl) fun _ => .bind (inside_op rfl) fun m => .bind (inside_op rfl) fun _ => rfl

theorem inside_expiry : Inside (expiry : Thread κ (Option (Bool × Option κ))) := by
  refine Locks.Sectioned.bind (inside_op rfl) fun m => .ite ?_ ?_
  · refine .bind (inside_op rfl) fun _ => .bind inside_startTap fun started => .ite rfl ?_
    refine .bind inside_stopHardware fun stopped => .bind (inside_op rfl) fun _ => ?_
    exact .bind (inside_closeWave _) fun _ => inside_nextPhase _
  · exact .bind (inside_closeWave true) fun _ => inside_nextPhase _

theorem inside_wait {p : Thread κ α} (hp : Inside p) : Inside (wait p) :=
  Locks.Sectioned.bind (inside_op rfl) fun _ => ⟨rfl, rfl, fun _ => hp⟩

theorem inside_awaitRequest (n : Nat) : Inside (awaitRequest n : Thread κ Unit) := by
  induction n with
  | zero => exact trivial
  | succ n ih => exact Locks.Sectioned.bind (inside_op rfl) fun m => .ite rfl (inside_wait ih)

theorem inside_awaitDeadline (generation : UInt64) (n : Nat) :
    Inside (awaitDeadline generation n : Thread κ Bool) := by
  induction n with
  | zero => exact trivial
  | succ n ih =>
      refine Locks.Sectioned.bind (inside_op rfl) fun m => .ite rfl (inside_wait ?_)
      refine .bind (inside_op rfl) fun m => .bind (inside_op rfl) fun t => .ite ?_ ih
      exact .bind (inside_op rfl) fun m => rfl

/-- The worker gives the mutex up where it waits, and around the callback. -/
theorem loop_sectioned (n : Nat) : Locks.Sectioned MotorOp.isFree () false (loop n : Thread κ Unit) true := by
  have hexit : Locks.Sectioned MotorOp.isFree () false
      (.perform (.unlock ()) .pure : Thread κ Unit) true := ⟨rfl, rfl, rfl⟩
  induction n with
  | zero => exact trivial
  | succ n ih =>
      refine Locks.Sectioned.bind (inside_op rfl) fun m => .ite hexit ?_
      refine .bind (inside_awaitRequest n) fun _ => .bind (inside_op rfl) fun m => .ite hexit ?_
      refine .bind (inside_awaitDeadline _ n) fun superseded => .ite ih ?_
      refine .bind inside_expiry fun outcome => ?_
      rcases outcome with _ | ⟨stopped, callback⟩
      · exact ih
      · have hreport : Locks.Sectioned MotorOp.isFree () false (report stopped callback) false := by
          cases stopped with
          | false => exact rfl
          | true =>
              cases callback with
              | none => exact rfl
              | some callback => exact ⟨rfl, fun _ => rfl⟩
        exact ⟨rfl, rfl, hreport.bind fun _ => ⟨rfl, rfl, ih⟩⟩

theorem worker_sectioned (n : Nat) :
    Locks.Sectioned MotorOp.isFree () false (worker n : Thread κ Unit) false :=
  ⟨rfl, rfl, loop_sectioned n⟩

end Threaded

end Vibrator
end M2391Device
