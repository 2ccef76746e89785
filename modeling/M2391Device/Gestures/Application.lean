import M2391Device.Gestures.GestureControl
import M2391Device.Gestures.LiftToWake
import M2391Device.Gestures.Synchronizer
import M2391Device.Lib.Contracts

/-!
# Application — what an attempt asks the system for

`applySetting` of `GestureApplication.java`, with `LiftToWakeController.update` and
`GestureControl.setGesturesEnabled`, as one program over the calls that it makes.  Any of them may
throw, and the fields keep what was assigned before.  The program runs call by call between the steps of
`Synchronizer`, and the system may change at any moment, also between two calls.
-/

namespace M2391Device
namespace Gestures

/-! ## Calls -/

/-- The secure settings that are read. -/
inductive Setting
  /-- `wake_gesture_enabled` -/
  | wakeGesture
  /-- `DOUBLE_TAP_TO_WAKE` -/
  | doubleTapToWake
  /-- `doze_pulse_on_auth` -/
  | dozePulseOnAuth
  deriving DecidableEq

inductive SysOp
  | isInteractive
  | getCurrentUser
  /-- `Settings.Secure.getIntForUser(resolver, setting, default, user)` -/
  | getIntForUser (setting : Setting) (fallback : Int) (user : Int)
  | elapsedRealtimeNanos
  /-- `mSensors.registerListener(this, mRaise, ..)` -/
  | registerListener
  | unregisterListener
  /-- `getSystemService(FingerprintManager.class) != null` -/
  | getFingerprintManager
  | registerBiometricStateListener
  | isKeyguardLocked
  | hasEnrolledFingerprints (user : Int)
  | node (o : NodeOp)
  deriving DecidableEq

/-- An answer, or the `RuntimeException` that is thrown instead. -/
def SysOp.Res : SysOp → Type
  | .isInteractive | .registerListener | .getFingerprintManager | .isKeyguardLocked
  | .hasEnrolledFingerprints _ => Except String Bool
  | .getCurrentUser | .getIntForUser _ _ _ | .elapsedRealtimeNanos => Except String Int
  | .unregisterListener | .registerBiometricStateListener => Except String Unit
  | .node o => o.Res

/-- What the `catch` block of `applySetting` catches. -/
inductive Failure
  | io (e : Thrown)
  | runtime (message : String)
  deriving DecidableEq

/-! ## Fields -/

/-- The fields that only `applySetting` assigns. -/
structure Fields where
  mLiftToWake : LiftToWakeController
  /-- Whether `mFingerprintManager` is not `null`. -/
  mFingerprintManager : Bool
  mFingerprintListenerRegistered : Bool
  deriving DecidableEq

/-- A part of an attempt; an exception takes the fields with it as they are. -/
abbrev Attempt (α : Type) := Program SysOp SysOp.Res (Failure × Fields) α

/-- The answer of a call that is made when the fields are `f`. -/
def orThrow {α : Type} (f : Fields) : Except String α → Attempt α
  | .ok a => .pure a
  | .error message => .throw (.runtime message, f)

/-- A program of `GestureControl`. -/
def onNode {α : Type} (f : Fields) : Control α → Attempt α
  | .pure a => .pure a
  | .throw e => .throw (.io e, f)
  | .perform o next => .perform (.node o) fun r => onNode f (next r)

/-! ## The attempt -/

section Attempts

variable (f : Fields)

def isInteractive : Attempt Bool := .perform .isInteractive (orThrow f)

def getCurrentUser : Attempt Int := .perform .getCurrentUser (orThrow f)

def getIntForUser (setting : Setting) (fallback user : Int) : Attempt Int :=
  .perform (.getIntForUser setting fallback user) (orThrow f)

/-- The condition of `update()`, with its `&&` from left to right. -/
def liftRequested : Attempt Bool :=
  if f.mLiftToWake.mRaise.isSome then do
    let interactive ← isInteractive f
    if interactive then pure false
    else do
      let user ← getCurrentUser f
      let value ← getIntForUser f .wakeGesture 0 user
      pure (value != 0)
  else pure false

/-- `mLiftToWake.update()` -/
def updateLift : Attempt Fields := do
  let requested ← liftRequested f
  if requested = f.mLiftToWake.mListening then pure f
  else if requested then do
    -- an exception of the registration leaves the filter reset and the arming time moved
    let reset : Fields := { f with mLiftToWake := { f.mLiftToWake with mFilter := .reset } }
    let now ← (.perform .elapsedRealtimeNanos (orThrow reset) : Attempt Int)
    let armed : Fields :=
      { reset with mLiftToWake := { reset.mLiftToWake with mArmedAt := now + ARM_DELAY_NS } }
    let registered ← (.perform .registerListener (orThrow armed) : Attempt Bool)
    pure { armed with mLiftToWake := { armed.mLiftToWake with mListening := registered } }
  else do
    (.perform .unregisterListener (orThrow f) : Attempt Unit)
    pure { f with mLiftToWake := { f.mLiftToWake with mListening := false } }

/-- The service is looked for until it is found. -/
def findFingerprintManager : Attempt Fields :=
  if f.mFingerprintManager then pure f
  else do
    let found ← (.perform .getFingerprintManager (orThrow f) : Attempt Bool)
    pure { f with mFingerprintManager := found }

def registerFingerprintListener : Attempt Fields :=
  if f.mFingerprintManager && !f.mFingerprintListenerRegistered then do
    (.perform .registerBiometricStateListener (orThrow f) : Attempt Unit)
    pure { f with mFingerprintListenerRegistered := true }
  else pure f

/-- `fingerprintRequested` -/
def fingerprintRequested (keyguardAuth : Bool) : Attempt Bool :=
  if keyguardAuth then pure true
  else do
    let interactive ← isInteractive f
    if interactive then .perform .isKeyguardLocked (orThrow f) else pure true

/-- `fingerprintEnabled` -/
def fingerprintEnabled (requested : Bool) (userId : Int) : Attempt Bool :=
  if f.mFingerprintManager && requested then do
    let enrolled ← (.perform (.hasEnrolledFingerprints userId) (orThrow f) : Attempt Bool)
    if enrolled then do
      let value ← getIntForUser f .dozePulseOnAuth 1 userId
      pure (value != 0)
    else pure false
  else pure false

/-- The `try` block of `applySetting`, with `mKeyguardAuthenticationRunning`. -/
def applySetting (keyguardAuth : Bool) : Attempt Fields := do
  let f ← updateLift f
  let f ← findFingerprintManager f
  let f ← registerFingerprintListener f
  let userId ← getCurrentUser f
  let doubleTap ← getIntForUser f .doubleTapToWake 0 userId
  let requested ← fingerprintRequested f keyguardAuth
  let fingerprint ← fingerprintEnabled f requested userId
  onNode f (setGesturesEnabled (doubleTap != 0) fingerprint)
  pure f

end Attempts

/-! ## The system -/

/-- What the calls are answered from. -/
structure World where
  interactive : Bool
  currentUser : Int
  /-- A setting of a user, if it was ever put. -/
  secure : Setting → Int → Option Int
  /-- Whether the sensor service takes a listener. -/
  registers : Bool
  fingerprintService : Bool
  keyguardLocked : Bool
  enrolled : Int → Bool

namespace World

variable (w : World)

def getInt (setting : Setting) (fallback user : Int) : Int := (w.secure setting user).getD fallback

/-- A call that does not throw is answered from the system; the clock reads anything. -/
def Answers : (o : SysOp) → o.Res → Prop
  | .isInteractive, r => ∀ b : Bool, r = .ok b → b = w.interactive
  | .getCurrentUser, r => ∀ n : Int, r = .ok n → n = w.currentUser
  | .getIntForUser setting fallback user, r =>
      ∀ n : Int, r = .ok n → n = w.getInt setting fallback user
  | .registerListener, r => ∀ b : Bool, r = .ok b → b = w.registers
  | .getFingerprintManager, r => ∀ b : Bool, r = .ok b → b = w.fingerprintService
  | .isKeyguardLocked, r => ∀ b : Bool, r = .ok b → b = w.keyguardLocked
  | .hasEnrolledFingerprints user, r => ∀ b : Bool, r = .ok b → b = w.enrolled user
  | .elapsedRealtimeNanos, _ | .unregisterListener, _ | .registerBiometricStateListener, _ => True
  | .node _, _ => True

/-- Whether the raise sensor should be listened to. -/
def wantsLift : Bool := !w.interactive && w.getInt .wakeGesture 0 w.currentUser != 0

def wantsDoubleTap : Bool := w.getInt .doubleTapToWake 0 w.currentUser != 0

/-- Whether the fingerprint interrupt should stay armed, with a service that was found. -/
def wantsFingerprint (keyguardAuth : Bool) : Bool :=
  (keyguardAuth || !w.interactive || w.keyguardLocked) && w.enrolled w.currentUser &&
    w.getInt .dozePulseOnAuth 1 w.currentUser != 0

end World

/-- The node answers for itself, everything else is answered in an allowed way. -/
def Answered (node : Node) (allowed : (o : SysOp) → o.Res → Prop) :
    (o : SysOp) → node.State → o.Res → node.State → Prop
  | .node o, t, r, t' => (r, t') = node.step o t
  | o, t, r, t' => allowed o r ∧ t' = t

/-! ## The application -/

structure Application (node : Node) where
  sync : Synchronizer
  /-- The fields after the last attempt. -/
  fields : Fields
  /-- What is left of the attempt that is running. -/
  attempt : Option (Attempt Fields)
  world : World
  panel : node.State

inductive AppEvent
  /-- What `Synchronizer` is about. -/
  | handler (e : Event)
  /-- A call of `applySetting` is made and answered. -/
  | call (o : SysOp)
  /-- A reading of the raise sensor is delivered. -/
  | sensor (event : SensorEvent) (interactive : Bool) (now : Int)
  /-- Something changes that the calls are answered from. -/
  | change

namespace Application

variable {node : Node}

def created (sensors : Option (List Sensor)) (world : World) (panel : node.State) : Application node where
  sync := .created
  fields := ⟨.create sensors, false, false⟩
  attempt := none
  world := world
  panel := panel

end Application

inductive AppStep (node : Node) : Application node → AppEvent → Application node → Prop where
  | post {a : Application node} {e : Event} {s : Synchronizer} :
      (∀ b, e ≠ .attempt b) → e.outcome? = none → Step a.sync e s →
      AppStep node a (.handler e) { a with sync := s }
  | attempt {a : Application node} {b : Bool} {s : Synchronizer} :
      Step a.sync (.attempt b) s →
      AppStep node a (.handler (.attempt b))
        { a with
          sync := s
          attempt := some (applySetting a.fields a.sync.mKeyguardAuthenticationRunning) }
  | call {a : Application node} {o : SysOp} {next : o.Res → Attempt Fields} {r : o.Res}
      {panel : node.State} :
      a.attempt = some (.perform o next) → Answered node a.world.Answers o a.panel r panel →
      AppStep node a (.call o) { a with attempt := some (next r), panel := panel }
  | returned {a : Application node} {f : Fields} {s : Synchronizer} :
      a.attempt = some (.pure f) → Step a.sync (.finish .succeeded) s →
      AppStep node a (.handler (.finish .succeeded))
        { a with sync := s, fields := f, attempt := none }
  | threw {a : Application node} {e : Failure} {f : Fields} {s : Synchronizer} :
      a.attempt = some (.throw (e, f)) → Step a.sync (.finish .threw) s →
      AppStep node a (.handler (.finish .threw)) { a with sync := s, fields := f, attempt := none }
  -- the listener is called on the handler thread, between two messages
  | sensor {a : Application node} {event : SensorEvent} {interactive : Bool} {now : Int} :
      a.sync.phase = .idle →
      AppStep node a (.sensor event interactive now)
        { a with
          fields := { a.fields with
            mLiftToWake := a.fields.mLiftToWake.step (.sensor event interactive now) } }
  -- nobody but the application writes to the node
  | change {a : Application node} {world : World} :
      AppStep node a .change { a with world := world }

end Gestures
end M2391Device
