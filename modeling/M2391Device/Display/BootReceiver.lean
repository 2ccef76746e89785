import M2391Device.Lib.Program
import M2391Device.Lib.Run

/-!
# BootReceiver — display recovery after boot

`BootReceiver` starts a thread for each of the two boot broadcasts.  A thread asks twice, a second
apart, whether the framework and SurfaceFlinger have different modes, and then has SurfaceFlinger
reconnect the primary display.  Nothing keeps the threads apart.

A step is one call of a thread into the system, with what the thread computes from the answer.  The
system may be another one for each of them.
-/

namespace M2391Device
namespace Display

/-! ## A sample -/

/-- A `Display.Mode` of the framework. -/
structure Mode where
  physicalWidth : Int
  physicalHeight : Int
  deriving DecidableEq

/-- A `SurfaceControl.DisplayMode`. -/
structure DisplayMode where
  id : Int
  width : Int
  height : Int
  deriving DecidableEq

structure DynamicDisplayInfo where
  supportedDisplayModes : Option (List DisplayMode)
  activeDisplayModeId : Int
  deriving DecidableEq

/-- The calls of `hasResolutionMismatch`. -/
inductive Query
  | getSystemService
  | getDisplay (displayId : Int)
  | getAddress
  | getDynamicDisplayInfo (physicalDisplayId : Int)
  | getMode
  deriving DecidableEq

/-- What a call returns, with `none` or `false` for `null`: of the display manager and the display
nothing is used but that they are there. -/
abbrev Query.Answer : Query → Type
  | .getSystemService => Bool
  | .getDisplay _ => Bool
  | .getAddress => Option Int
  | .getDynamicDisplayInfo _ => Option DynamicDisplayInfo
  | .getMode => Mode

inductive JavaException
  | nullPointer
  deriving DecidableEq

abbrev Sample := Program Query Query.Answer JavaException Bool

def DEFAULT_DISPLAY : Int := 0

/-- The loop over `supportedDisplayModes`. -/
def mismatch (frameworkMode : Mode) (activeDisplayModeId : Int) : List DisplayMode → Bool
  | [] => false
  | mode :: rest =>
      if mode.id = activeDisplayModeId then
        decide (mode.width ≠ frameworkMode.physicalWidth ∨
          mode.height ≠ frameworkMode.physicalHeight)
      else mismatch frameworkMode activeDisplayModeId rest

def hasResolutionMismatch : Sample :=
  .perform .getSystemService fun manager =>
    -- used without a check, unlike the display and its address
    if !manager then .throw .nullPointer
    else
      .perform (.getDisplay DEFAULT_DISPLAY) fun display =>
        if !display then pure false
        else
          .perform .getAddress fun
            | none => pure false
            | some address =>
                .perform (.getDynamicDisplayInfo address) fun
                  | none => pure false
                  | some ⟨none, _⟩ => pure false
                  | some ⟨some supportedDisplayModes, activeDisplayModeId⟩ =>
                      .perform .getMode fun frameworkMode =>
                        pure (mismatch frameworkMode activeDisplayModeId supportedDisplayModes)

/-- What the calls return at a moment. -/
structure System where
  getSystemService : Bool
  getDisplay : Int → Bool
  getAddress : Option Int
  getDynamicDisplayInfo : Int → Option DynamicDisplayInfo
  getMode : Mode
  /-- `ServiceManager.checkService("SurfaceFlinger")` is not `null`. -/
  checkService : Bool

namespace System

def answer (sys : System) : (q : Query) → q.Answer
  | .getSystemService => sys.getSystemService
  | .getDisplay displayId => sys.getDisplay displayId
  | .getAddress => sys.getAddress
  | .getDynamicDisplayInfo physicalDisplayId => sys.getDynamicDisplayInfo physicalDisplayId
  | .getMode => sys.getMode

/-- The default display is active in a mode of another size than the framework's. -/
def Mismatched (sys : System) : Prop :=
  sys.getDisplay DEFAULT_DISPLAY = true ∧
    ∃ address modes activeId mode, sys.getAddress = some address ∧
      sys.getDynamicDisplayInfo address = some ⟨some modes, activeId⟩ ∧
      modes.find? (fun mode => mode.id = activeId) = some mode ∧
      (mode.width ≠ sys.getMode.physicalWidth ∨ mode.height ≠ sys.getMode.physicalHeight)

end System

/-! ## Threads -/

/-- The first two samples decide on the reconnect; one afterwards is only logged. -/
inductive Round
  | first
  | second
  | afterwards
  deriving DecidableEq

/-- Where a thread is, named by what it does next. -/
inductive Phase
  /-- `SystemClock.sleep(1000)` before a sample. -/
  | sleeping (round : Round)
  /-- In `hasResolutionMismatch`, with the rest of it after the call. -/
  | sampling (round : Round) (q : Query) (next : q.Answer → Sample)
  | checkService
  | transact
  | finished

/-- What a thread does with a sample. -/
def Phase.sampled : Round → Bool → Phase
  | .first, true => .sleeping .second
  | .second, true => .checkService
  | _, _ => .finished

inductive Action
  | sleep
  /-- A call of `hasResolutionMismatch` that another one follows. -/
  | read (q : Query)
  /-- The last call of `hasResolutionMismatch`, with its result. -/
  | sample (round : Round) (mismatch : Bool)
  /-- A call throws, or its answer is dereferenced although it is `null`. -/
  | throw
  | checkService (found : Bool)
  /-- `transact(RECONNECT_PRIMARY_DISPLAY, …)` and what it returned, `none` if it threw. -/
  | transact (answer : Option Bool)
  deriving DecidableEq

/-- A step of a thread in the system `sys`.  Every exception is caught around the whole body, and
after it there is only `result.finish()`. -/
inductive Work (sys : System) : Phase → Action → Phase → Prop where
  | sleep {round : Round} {q : Query} {next : q.Answer → Sample} :
      hasResolutionMismatch = .perform q next →
      Work sys (.sleeping round) .sleep (.sampling round q next)
  | read {round : Round} {q q' : Query} {next : q.Answer → Sample} {next' : q'.Answer → Sample} :
      next (sys.answer q) = .perform q' next' →
      Work sys (.sampling round q next) (.read q) (.sampling round q' next')
  | sample {round : Round} {q : Query} {next : q.Answer → Sample} {b : Bool} :
      next (sys.answer q) = .pure b →
      Work sys (.sampling round q next) (.sample round b) (.sampled round b)
  | null_pointer {round : Round} {q : Query} {next : q.Answer → Sample} {e : JavaException} :
      next (sys.answer q) = .throw e → Work sys (.sampling round q next) .throw .finished
  | sampling_throws {round : Round} {q : Query} {next : q.Answer → Sample} :
      Work sys (.sampling round q next) .throw .finished
  | checkService :
      Work sys .checkService (.checkService sys.checkService)
        (if sys.checkService then .transact else .finished)
  | checkService_throws : Work sys .checkService .throw .finished
  -- `writeInterfaceToken`
  | parcel_throws : Work sys .transact .throw .finished
  -- an answer of `false` ends the thread as an exception does
  | transact {answer : Option Bool} :
      Work sys .transact (.transact answer)
        (if answer = some true then .sleeping .afterwards else .finished)

/-! ## The receiver -/

structure Recovery where
  system : System
  threads : List Phase

inductive Event
  | onReceive (action : Option String)
  /-- The framework or SurfaceFlinger changes. -/
  | change
  | work (i : Nat) (a : Action)
  deriving DecidableEq

def ACTION_BOOT_COMPLETED : String := "android.intent.action.BOOT_COMPLETED"

def ACTION_LOCKED_BOOT_COMPLETED : String := "android.intent.action.LOCKED_BOOT_COMPLETED"

namespace Recovery

/-- Before the first broadcast. -/
def initial (system : System) : Recovery := ⟨system, []⟩

def onReceive (s : Recovery) (action : Option String) : Recovery :=
  if action ≠ some ACTION_BOOT_COMPLETED ∧ action ≠ some ACTION_LOCKED_BOOT_COMPLETED then s
  else { s with threads := s.threads ++ [.sleeping .first] }

inductive Step : Recovery → Event → Recovery → Prop where
  | onReceive {s : Recovery} {action : Option String} :
      Step s (.onReceive action) (s.onReceive action)
  | change {s : Recovery} {system : System} : Step s .change { s with system := system }
  | work {s : Recovery} {i : Nat} {a : Action} {p p' : Phase} :
      s.threads[i]? = some p → Work s.system p a p' →
      Step s (.work i a) { s with threads := s.threads.set i p' }

end Recovery

/-! ## What a sample tells -/

theorem mismatch_iff {frameworkMode : Mode} {activeId : Int} {modes : List DisplayMode} :
    mismatch frameworkMode activeId modes = true ↔
      ∃ mode, modes.find? (fun mode => mode.id = activeId) = some mode ∧
        (mode.width ≠ frameworkMode.physicalWidth ∨
          mode.height ≠ frameworkMode.physicalHeight) := by
  induction modes with
  | nil => simp [mismatch]
  | cons mode rest ih =>
      by_cases hactive : mode.id = activeId
      · simp [mismatch, hactive]
      · simp [mismatch, hactive, ih]

/-- In a system that does not change meanwhile, a sample tells whether the modes differ. -/
theorem hasResolutionMismatch_run {sys : System} (hmanager : sys.getSystemService = true) :
    ∃ b, hasResolutionMismatch.run (fun q sys => (sys.answer q, sys)) sys = (.ok b, sys) ∧
      (b = true ↔ sys.Mismatched) := by
  rcases sys with ⟨manager, getDisplay, getAddress, getInfo, frameworkMode, compositor⟩
  cases hmanager
  cases hdisplay : getDisplay DEFAULT_DISPLAY with
  | false =>
      refine ⟨false, ?_, ?_⟩
      · simp [hasResolutionMismatch, Program.run, System.answer, hdisplay]
      · simp [System.Mismatched, hdisplay]
  | true =>
      cases getAddress with
      | none =>
          refine ⟨false, ?_, ?_⟩
          · simp [hasResolutionMismatch, Program.run, System.answer, hdisplay]
          · simp [System.Mismatched]
      | some address =>
          cases hinfo : getInfo address with
          | none =>
              refine ⟨false, ?_, ?_⟩
              · simp [hasResolutionMismatch, Program.run, System.answer, hdisplay, hinfo]
              · simp [System.Mismatched, hinfo]
          | some info =>
              rcases info with ⟨modes, activeId⟩
              cases modes with
              | none =>
                  refine ⟨false, ?_, ?_⟩
                  · simp [hasResolutionMismatch, Program.run, System.answer, hdisplay, hinfo]
                  · simp [System.Mismatched, hinfo]
              | some modes =>
                  refine ⟨mismatch frameworkMode activeId modes, ?_, ?_⟩
                  · simp [hasResolutionMismatch, Program.run, System.answer, hdisplay, hinfo]
                  · rw [mismatch_iff]
                    simp [System.Mismatched, hdisplay, hinfo]

end Display
end M2391Device
