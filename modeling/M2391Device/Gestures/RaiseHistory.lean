import M2391Device.Gestures.Debounce

/-!
# RaiseHistory — the action history of the filter against everything that was delivered

The reference is a fresh filter that is fed, in delivery order, every sample since the last
registration whose timestamp is not before the clock reading of that registration.  The controller
drops some of these: after a wake, its cut-off is the reading of the clock at the wake, and a sample
from before it that is delivered later is left out.  All that a filter remembers for an answer is
whether the recorded action blocks an upright one, so the histories agree as long as no dropped
sample changes that.
-/

namespace M2391Device
namespace Gestures

open LiftToWakeController

/-! ## The reference -/

namespace RaiseGestureFilter

/-- The filter after a sample. -/
def record (f : RaiseGestureFilter) (event : SensorEvent) : RaiseGestureFilter :=
  match event.values with
  | [] => f
  | value :: _ => (f.shouldWake value).2

/-- What the filter answers on a sample. -/
def answers (f : RaiseGestureFilter) (event : SensorEvent) : Bool :=
  match event.values with
  | [] => false
  | value :: _ => (f.shouldWake value).1

end RaiseGestureFilter

/-- A run, with the clock reading of the last registration and the samples delivered since. -/
structure Observed where
  controller : LiftToWakeController
  registeredAt : Int
  delivered : List SensorEvent
  deriving DecidableEq

namespace Observed

def step (o : Observed) (e : LiftEvent) : Observed :=
  if o.controller.registers e then ⟨o.controller.step e, e.now, []⟩
  else
    match e with
    | .update _ _ _ _ => { o with controller := o.controller.step e }
    | .sensor event _ _ =>
        { o with controller := o.controller.step e, delivered := o.delivered ++ [event] }

/-- A sample as the reference filter takes it. -/
def feed (registeredAt : Int) (f : RaiseGestureFilter) (event : SensorEvent) : RaiseGestureFilter :=
  if event.timestamp < registeredAt then f else f.record event

def reference (o : Observed) : RaiseGestureFilter := o.delivered.foldl (feed o.registeredAt) .reset

/-- A sample past the arming time, delivered next to a listening controller of a device that is not
interactive, wakes exactly if the reference filter answers true on it. -/
def Complete (o : Observed) : Prop :=
  ∀ event now, o.controller.mListening = true → o.controller.mArmedAt ≤ event.timestamp →
    o.controller.wakes (.sensor event false now) = o.reference.answers event

end Observed

def observe (sensors : Option (List Sensor)) (h : List LiftEvent) : Observed :=
  h.foldl Observed.step ⟨create sensors, 0, []⟩

/-- An upright action does not wake after this one. -/
def Blocks (action : Int) : Prop := action = RAISE ∨ action = LOWER

instance (action : Int) : Decidable (Blocks action) := inferInstanceAs (Decidable (_ ∨ _))

/-- The sample is kept by the controller, or is older than the registration, or its loss changes
nothing: it is dropped by the cut-off of a wake, but it has no action, or one that blocks an upright
action just as the recorded one does. -/
def Observed.Keeps (o : Observed) (event : SensorEvent) : Prop :=
  o.controller.mListening = true → o.registeredAt ≤ event.timestamp →
    event.timestamp < o.controller.mArmedAt - ARM_DELAY_NS →
    ∀ value rest action, event.values = value :: rest →
      RaiseGestureFilter.action? value = some action →
      (Blocks action ↔ Blocks o.controller.mFilter.mPreviousAction)

/-! ## What the filter remembers -/

namespace RaiseGestureFilter

variable {f f' : RaiseGestureFilter}

theorem answers_congr (hblocks : Blocks f.mPreviousAction ↔ Blocks f'.mPreviousAction)
    (event : SensorEvent) : f.answers event = f'.answers event := by
  cases hvalues : event.values with
  | nil => simp [answers, hvalues]
  | cons value rest =>
      rw [Bool.eq_iff_iff]
      simp only [answers, hvalues, shouldWake_iff]
      have hnot : (f.mPreviousAction ≠ RAISE ∧ f.mPreviousAction ≠ LOWER) ↔
          (f'.mPreviousAction ≠ RAISE ∧ f'.mPreviousAction ≠ LOWER) := by
        simpa [Blocks, not_or] using not_congr hblocks
      rw [hnot]

/-- An upright sample shows what the filter remembers. -/
theorem answers_upright (f : RaiseGestureFilter) (timestamp : Int) :
    f.answers ⟨timestamp, [.finite 2]⟩ = true ↔ ¬ Blocks f.mPreviousAction := by
  have haction : action? (.finite 2) = some UPRIGHT := by decide
  have hupright : UPRIGHT ≠ RAISE := by decide
  simp [answers, shouldWake_iff, haction, hupright, Blocks, not_or]

/-- A sample with an action is all that is remembered after it; any other is ignored. -/
theorem record_cases (event : SensorEvent) :
    (∃ value rest action, event.values = value :: rest ∧ action? value = some action ∧
        ∀ f : RaiseGestureFilter, f.record event = ⟨action⟩) ∨
      ((∀ value rest, event.values = value :: rest → action? value = none) ∧
        ∀ f : RaiseGestureFilter, f.record event = f) := by
  cases hvalues : event.values with
  | nil =>
      refine Or.inr ⟨?_, fun f => by simp [record, hvalues]⟩
      intro value rest hcons
      cases hcons
  | cons value rest =>
      cases haction : action? value with
      | none =>
          refine Or.inr ⟨?_, fun f => by simp [record, hvalues, shouldWake, haction]⟩
          intro value' rest' hcons
          cases hcons
          exact haction
      | some action =>
          exact Or.inl ⟨value, rest, action, rfl, haction, fun f => by
            simp [record, hvalues, shouldWake, haction]⟩

/-- After the same sample two filters that agree still agree. -/
theorem record_congr (hblocks : Blocks f.mPreviousAction ↔ Blocks f'.mPreviousAction)
    (event : SensorEvent) :
    Blocks (f.record event).mPreviousAction ↔ Blocks (f'.record event).mPreviousAction := by
  rcases record_cases event with ⟨value, rest, action, _, _, hrecord⟩ | ⟨_, hrecord⟩
  · rw [hrecord f, hrecord f']
  · rw [hrecord f, hrecord f']
    exact hblocks

end RaiseGestureFilter

/-! ## The simulation -/

namespace Observed

variable {o : Observed} {e : LiftEvent} {event : SensorEvent} {interactive : Bool} {now : Int}

/-- The filter of a listening controller remembers what the reference does. -/
def Simulates (o : Observed) : Prop :=
  o.controller.mListening = true →
    (Blocks o.controller.mFilter.mPreviousAction ↔ Blocks o.reference.mPreviousAction)

/-- Past the arming time the controller asks its filter. -/
theorem wakes_eq_answers (hlistening : o.controller.mListening = true)
    (harmed : o.controller.mArmedAt ≤ event.timestamp) :
    o.controller.wakes (.sensor event false now) = o.controller.mFilter.answers event := by
  rcases o.controller.onSensorChanged_cases event false now with
    ⟨heq, hnil | hnot | hlate⟩ | ⟨value, rest, hvalues, _, _, ⟨heq, hno⟩ | ⟨heq, hshould, _⟩⟩
  · simp [wakes, heq, RaiseGestureFilter.answers, hnil]
  · rw [hlistening] at hnot
    cases hnot
  · have hdelay : ARM_DELAY_NS = 500000000 := rfl
    omega
  · rcases hno with hshould | hearly | hinteractive
    · simp [wakes, heq, RaiseGestureFilter.answers, hvalues, hshould]
    · omega
    · cases hinteractive
  · simp [wakes, heq, RaiseGestureFilter.answers, hvalues, hshould]

theorem complete_iff : o.Complete ↔ o.Simulates := by
  constructor
  · intro hcomplete hlistening
    have hprobe := hcomplete ⟨o.controller.mArmedAt, [.finite 2]⟩ 0 hlistening le_rfl
    rw [wakes_eq_answers hlistening le_rfl, Bool.eq_iff_iff,
      RaiseGestureFilter.answers_upright, RaiseGestureFilter.answers_upright] at hprobe
    exact not_iff_not.1 hprobe
  · intro hsim event now hlistening harmed
    rw [wakes_eq_answers hlistening harmed]
    exact RaiseGestureFilter.answers_congr (hsim hlistening) event

/-- A delivered sample registers nothing. -/
theorem registers_sensor (c : LiftToWakeController) :
    c.registers (.sensor event interactive now) = false := by
  rcases c.onSensorChanged_cases event interactive now with
    ⟨heq, _⟩ | ⟨_, _, _, _, _, ⟨heq, _⟩ | ⟨heq, _⟩⟩ <;>
    simp [registers, LiftToWakeController.step, heq]

theorem step_sensor (o : Observed) (event : SensorEvent) (interactive : Bool) (now : Int) :
    o.step (.sensor event interactive now) =
      { controller := (o.controller.onSensorChanged event interactive now).2
        registeredAt := o.registeredAt
        delivered := o.delivered ++ [event] } := by
  simp [step, registers_sensor, LiftToWakeController.step]

theorem reference_step_sensor (o : Observed) (event : SensorEvent) (interactive : Bool)
    (now : Int) :
    (o.step (.sensor event interactive now)).reference =
      feed o.registeredAt o.reference event := by
  simp [step_sensor, reference]

/-- A call of `update()` never breaks the simulation: it starts both filters afresh, or the
controller does not listen afterwards, or it does nothing. -/
theorem Simulates.update (hsim : o.Simulates) (setting : Int) (registers : Bool) :
    (o.step (.update interactive setting registers now)).Simulates := by
  rcases o.controller.update_cases interactive setting now registers with
    heq | ⟨hbefore, heq⟩ | ⟨hbefore, heq⟩
  · simpa [step, LiftToWakeController.registers, LiftToWakeController.step, heq, Simulates,
      reference] using hsim
  · intro hlistening
    cases registers with
    | false => simp [step, LiftToWakeController.registers, LiftToWakeController.step, heq] at hlistening
    | true =>
        simp [step, LiftToWakeController.registers, LiftToWakeController.step, heq, hbefore,
          reference]
  · intro hlistening
    simp [step, LiftToWakeController.registers, LiftToWakeController.step, heq] at hlistening

/-- A sample keeps the simulation exactly if it is kept, or its loss changes nothing. -/
theorem simulates_sensor_iff (hsim : o.Simulates)
    (hordered : o.controller.mListening = true →
      o.registeredAt + ARM_DELAY_NS ≤ o.controller.mArmedAt) :
    (o.step (.sensor event interactive now)).Simulates ↔ o.Keeps event := by
  have hcases := o.controller.onSensorChanged_cases event interactive now
  rw [Simulates, reference_step_sensor, step_sensor]
  rcases hcases with ⟨heq, hout⟩ | ⟨value, rest, hvalues, hlistening, hnotlate, hkept⟩
  · rw [heq]
    -- left out: only the reference may take it
    by_cases hlistening : o.controller.mListening = true
    · by_cases hold : event.timestamp < o.registeredAt
      · simp only [feed, if_pos hold]
        constructor
        · intro _ _ hfresh
          omega
        · intro _ _
          exact hsim hlistening
      · simp only [feed, if_neg hold]
        rcases RaiseGestureFilter.record_cases event with
          ⟨value, rest, action, hvalues, haction, hrecord⟩ | ⟨hnone, hrecord⟩
        · have hlate : event.timestamp < o.controller.mArmedAt - ARM_DELAY_NS := by
            simpa [hvalues, hlistening] using hout
          rw [hrecord]
          constructor
          · intro hafter _ _ _ value' rest' action' hcons hsome
            rw [hvalues] at hcons
            cases hcons
            rw [haction] at hsome
            cases hsome
            exact (hafter hlistening).symm
          · intro hkeeps _
            exact (hkeeps hlistening (by omega) hlate value rest action hvalues haction).symm
        · rw [hrecord]
          constructor
          · intro _ _ _ _ value rest action hcons hsome
            rw [hnone value rest hcons] at hsome
            cases hsome
          · intro _ _
            exact hsim hlistening
    · constructor
      · intro _ hl
        exact absurd hl hlistening
      · intro _ hl
        exact absurd hl hlistening
  · -- recorded by both
    have hfed : ¬ event.timestamp < o.registeredAt := by
      have hbehind := hordered hlistening
      omega
    have hrecord : (o.controller.mFilter.shouldWake value).2 = o.controller.mFilter.record event := by
      simp [RaiseGestureFilter.record, hvalues]
    constructor
    · intro _ _ _ hlate
      omega
    · intro _ _
      have hafter := RaiseGestureFilter.record_congr (hsim hlistening) event
      simp only [feed, if_neg hfed]
      rcases hkept with ⟨heq, _⟩ | ⟨heq, _⟩ <;> simpa [heq, hrecord] using hafter

end Observed

/-! ## Whole runs -/

variable {sensors : Option (List Sensor)} {g h rest : List LiftEvent} {e : LiftEvent}

theorem observe_append_singleton (sensors : Option (List Sensor)) (h : List LiftEvent)
    (e : LiftEvent) : observe sensors (h ++ [e]) = (observe sensors h).step e := by
  simp [observe]

theorem Observed.step_controller (o : Observed) (e : LiftEvent) :
    (o.step e).controller = o.controller.step e := by
  cases e <;> simp only [Observed.step] <;> split <;> rfl

theorem observe_controller (sensors : Option (List Sensor)) (h : List LiftEvent) :
    (observe sensors h).controller = (create sensors).run h := by
  induction h using List.reverseRecOn with
  | nil => rfl
  | append_singleton h e ih =>
      rw [observe_append_singleton, Observed.step_controller, ih, run_append_singleton]

/-- The registration time of a listening controller is a reading of the run. -/
theorem observe_registeredAt (hlistening : (observe sensors h).controller.mListening = true) :
    ∃ g e rest, h = g ++ e :: rest ∧ ((create sensors).run g).registers e = true ∧
      (observe sensors h).registeredAt = e.now := by
  induction h using List.reverseRecOn with
  | nil => cases hlistening
  | append_singleton h e ih =>
      rw [observe_append_singleton] at hlistening ⊢
      cases hregisters : (observe sensors h).controller.registers e with
      | true =>
          refine ⟨h, e, [], rfl, ?_, ?_⟩
          · rw [← observe_controller]
            exact hregisters
          · simp [Observed.step, hregisters]
      | false =>
          -- the controller listened before, and the reading is still the same
          have hbefore : (observe sensors h).controller.mListening = true := by
            rw [Observed.step_controller] at hlistening
            simpa [registers, hlistening] using hregisters
          rcases ih hbefore with ⟨g, x, rest, rfl, hx, hat⟩
          refine ⟨g, x, rest ++ [e], by simp, hx, ?_⟩
          rw [← hat]
          cases e <;> simp [Observed.step, hregisters]

theorem observe_ordered (hclock : Chronological h)
    (hlistening : (observe sensors h).controller.mListening = true) :
    (observe sensors h).registeredAt + ARM_DELAY_NS ≤ (observe sensors h).controller.mArmedAt := by
  rcases observe_registeredAt hlistening with ⟨g, e, rest, hh, hregisters, hat⟩
  rw [hat, observe_controller]
  exact armed_after_readings hclock hh (Or.inl hregisters)

theorem observe_simulates (hclock : Chronological h)
    (hkeeps : ∀ g event interactive now rest, h = g ++ .sensor event interactive now :: rest →
      (observe sensors g).Keeps event) : (observe sensors h).Simulates := by
  induction h using List.reverseRecOn with
  | nil =>
      intro hlistening
      cases hlistening
  | append_singleton h e ih =>
      have hpre : Chronological h := hclock.append_left
      have hsim : (observe sensors h).Simulates := by
        refine ih hpre ?_
        intro g event interactive now rest hh
        exact hkeeps g event interactive now (rest ++ [e]) (by simp [hh])
      rw [observe_append_singleton]
      cases e with
      | update interactive setting registers now => exact hsim.update setting registers
      | sensor event interactive now =>
          rw [Observed.simulates_sensor_iff hsim (observe_ordered hpre)]
          exact hkeeps h event interactive now [] rfl

/-- **Raise history.**  In every run, the controller wakes on a sample past the arming time exactly
if the reference filter answers true on it, after every stretch of the run and for every sample that
may come next, if and only if no sample was dropped whose loss makes a difference: one that is not
older than the registration, arrives after a wake with a timestamp before the clock reading of that
wake, and has an action that blocks an upright one while the recorded action does not, or the other
way round. -/
theorem raise_history_complete_iff (hclock : Chronological h) :
    (∀ g rest, h = g ++ rest → (observe sensors g).Complete) ↔
      ∀ g event interactive now rest, h = g ++ .sensor event interactive now :: rest →
        (observe sensors g).Keeps event := by
  constructor
  · intro hcomplete g event interactive now rest hh
    have hh' : h = (g ++ [.sensor event interactive now]) ++ rest := by simp [hh]
    have hpre : Chronological g := by
      rw [hh] at hclock
      exact hclock.append_left
    have hbefore := Observed.complete_iff.1 (hcomplete g _ hh)
    have hafter := Observed.complete_iff.1 (hcomplete _ rest hh')
    rw [observe_append_singleton] at hafter
    exact (Observed.simulates_sensor_iff hbefore (observe_ordered hpre)).1 hafter
  · intro hkeeps g rest hh
    have hpre : Chronological g := by
      rw [hh] at hclock
      exact hclock.append_left
    refine Observed.complete_iff.2 (observe_simulates hpre ?_)
    intro g' event interactive now rest' hg
    exact hkeeps g' event interactive now (rest' ++ rest) (by simp [hh, hg])

/-- The device wakes on an upright sample of 1.0 s that is handled at 1.2 s.  A raise of 1.1 s
arrives after it and is dropped, so the upright sample of 2.0 s wakes again. -/
def lateRaiseHistory : List LiftEvent :=
  [.update false 1 true 0,
    .sensor ⟨1000000000, [.finite 2]⟩ false 1200000000,
    .sensor ⟨1100000000, [.finite 6]⟩ false 1210000000,
    .sensor ⟨2000000000, [.finite 2]⟩ false 2010000000]

theorem raise_history_complete_iff_late :
    ¬ ∀ g rest, lateRaiseHistory = g ++ rest →
      (observe (some [raiseSensor]) g).Complete := by
  intro hcomplete
  have hkeeps := (raise_history_complete_iff (by decide)).1 hcomplete
    (lateRaiseHistory.take 2) ⟨1100000000, [.finite 6]⟩ false 1210000000 _ rfl
  have hblocks := hkeeps (by decide) (by decide) (by decide) _ _ 6 rfl (by decide)
  exact absurd hblocks (by decide)

/-- A sample past the arming time of a listening controller wakes although the reference filter
answers false. -/
theorem raise_history_incomplete :
    ¬ ∀ (sensors : Option (List Sensor)) (h g rest : List LiftEvent) (event : SensorEvent)
        (now : Int),
      Chronological h → h = g ++ .sensor event false now :: rest →
      (observe sensors g).controller.mListening = true →
      (observe sensors g).controller.mArmedAt ≤ event.timestamp →
      (observe sensors g).controller.wakes (.sensor event false now) =
        (observe sensors g).reference.answers event := by
  intro hclaim
  have hsample := hclaim (some [raiseSensor]) lateRaiseHistory (lateRaiseHistory.take 3) []
    ⟨2000000000, [.finite 2]⟩ 2010000000 (by decide) rfl (by decide) (by decide)
  exact absurd hsample (by decide)

end Gestures
end M2391Device
