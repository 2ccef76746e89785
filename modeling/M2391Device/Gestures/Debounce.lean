import M2391Device.Gestures.LiftToWake
import Mathlib.Data.List.Induction

/-!
# Debounce — what a wake takes, over every run

`mArmedAt` is moved by registrations and by wakes, and always to a reading of the clock plus the
delay.  Since the clock never goes back, it stays ahead of every earlier reading by that delay.
-/

namespace M2391Device
namespace Gestures

/-- What the filter answers, in terms of the action code and the recorded one. -/
theorem RaiseGestureFilter.shouldWake_iff (f : RaiseGestureFilter) (value : JFloat) :
    (f.shouldWake value).1 = true ↔
      ∃ action, action? value = some action ∧
        (action = RAISE ∨
          action = UPRIGHT ∧ f.mPreviousAction ≠ RAISE ∧ f.mPreviousAction ≠ LOWER) := by
  cases haction : action? value <;> simp [shouldWake, haction, and_assoc]

namespace LiftToWakeController

variable {c c₀ : LiftToWakeController} {e : LiftEvent} {event : SensorEvent} {interactive : Bool}
  {now : Int} {g h rest : List LiftEvent}

/-! ## What one call does -/

/-- The four ends of `update()`. -/
theorem update_cases (c : LiftToWakeController) (interactive : Bool) (setting now : Int)
    (registers : Bool) :
    c.update interactive setting now registers = c ∨
    (c.mListening = false ∧ c.update interactive setting now registers =
      { c with mFilter := .reset, mArmedAt := now + ARM_DELAY_NS, mListening := registers }) ∨
    (c.mListening = true ∧ c.update interactive setting now registers =
      { c with mListening := false }) := by
  cases hlistening : c.mListening <;>
    cases hrequested : c.mRaise.isSome && !interactive && setting != 0 <;>
    simp [update, hlistening, hrequested]

/-- A delivered sample is left out, or recorded without a wake, or wakes. -/
theorem onSensorChanged_cases (c : LiftToWakeController) (event : SensorEvent) (interactive : Bool)
    (now : Int) :
    (c.onSensorChanged event interactive now = (false, c) ∧
      (event.values = [] ∨ c.mListening = false ∨
        event.timestamp < c.mArmedAt - ARM_DELAY_NS)) ∨
    (∃ value rest, event.values = value :: rest ∧ c.mListening = true ∧
      c.mArmedAt - ARM_DELAY_NS ≤ event.timestamp ∧
      ((c.onSensorChanged event interactive now =
          (false, { c with mFilter := (c.mFilter.shouldWake value).2 }) ∧
        ((c.mFilter.shouldWake value).1 = false ∨ event.timestamp < c.mArmedAt ∨
          interactive = true)) ∨
      (c.onSensorChanged event interactive now =
          (true, { c with
            mFilter := (c.mFilter.shouldWake value).2
            mArmedAt := now + ARM_DELAY_NS }) ∧
        (c.mFilter.shouldWake value).1 = true ∧ c.mArmedAt ≤ event.timestamp ∧
          interactive = false))) := by
  cases hvalues : event.values with
  | nil => simp [onSensorChanged, hvalues]
  | cons value rest =>
      by_cases hout : c.mListening = false ∨ event.timestamp < c.mArmedAt - ARM_DELAY_NS
      · left
        refine ⟨?_, Or.inr hout⟩
        simp only [onSensorChanged, hvalues, if_pos hout]
      · right
        refine ⟨value, rest, rfl, ?_, ?_, ?_⟩
        · simpa using fun hl => hout (Or.inl hl)
        · by_contra hlate
          exact hout (Or.inr (by omega))
        -- the filter has seen the sample by now, also if the sample does not wake
        · by_cases hno : (c.mFilter.shouldWake value).1 = false ∨ event.timestamp < c.mArmedAt ∨
              interactive = true
          · left
            refine ⟨?_, hno⟩
            simp only [onSensorChanged, hvalues, if_neg hout, if_pos hno]
          · right
            refine ⟨?_, ?_, ?_, ?_⟩
            · simp only [onSensorChanged, hvalues, if_neg hout, if_neg hno]
            · simpa using fun hw => hno (Or.inl hw)
            · by_contra hearly
              exact hno (Or.inr (Or.inl (by omega)))
            · simpa using fun hi => hno (Or.inr (Or.inr hi))

@[simp] theorem run_nil (c : LiftToWakeController) : c.run [] = c := rfl

@[simp] theorem run_append_singleton (c : LiftToWakeController) (h : List LiftEvent)
    (e : LiftEvent) : c.run (h ++ [e]) = (c.run h).step e := by
  simp [run]

/-- The arming time is moved to the present plus the delay, or not at all. -/
theorem step_mArmedAt (c : LiftToWakeController) (e : LiftEvent) :
    (c.step e).mArmedAt = c.mArmedAt ∨ (c.step e).mArmedAt = e.now + ARM_DELAY_NS := by
  cases e with
  | update interactive setting registers now =>
      rcases c.update_cases interactive setting now registers with heq | ⟨_, heq⟩ | ⟨_, heq⟩ <;>
        simp [step, heq, LiftEvent.now]
  | sensor event interactive now =>
      rcases c.onSensorChanged_cases event interactive now with
        ⟨heq, _⟩ | ⟨_, _, _, _, _, ⟨heq, _⟩ | ⟨heq, _⟩⟩ <;>
        simp [step, heq, LiftEvent.now]

/-- A registration and a wake both read the clock, and arm from that reading. -/
theorem step_arms (hreads : c.registers e = true ∨ c.wakes e = true) :
    (c.step e).mArmedAt = e.now + ARM_DELAY_NS := by
  cases e with
  | update interactive setting registers now =>
      rcases c.update_cases interactive setting now registers with heq | ⟨_, heq⟩ | ⟨_, heq⟩
      · -- nothing was registered
        simp [LiftToWakeController.registers, wakes, step, heq] at hreads
      · simp [step, heq, LiftEvent.now]
      · simp [LiftToWakeController.registers, wakes, step, heq] at hreads
  | sensor event interactive now =>
      rcases c.onSensorChanged_cases event interactive now with
        ⟨heq, _⟩ | ⟨_, _, _, _, _, ⟨heq, _⟩ | ⟨heq, _⟩⟩
      · simp [LiftToWakeController.registers, wakes, step, heq] at hreads
      · simp [LiftToWakeController.registers, wakes, step, heq] at hreads
      · simp [step, heq, LiftEvent.now]

/-! ## The arming time over a run -/

/-- The arming time is at least the delay after every reading for a registration or a wake. -/
theorem armed_after_readings (hclock : Chronological h) (hh : h = g ++ e :: rest)
    (hreads : (c₀.run g).registers e = true ∨ (c₀.run g).wakes e = true) :
    e.now + ARM_DELAY_NS ≤ (c₀.run h).mArmedAt := by
  induction h using List.reverseRecOn generalizing g rest with
  | nil => simp at hh
  | append_singleton h x ih =>
      rcases hclock.append_singleton with ⟨hpre, hlast⟩
      rw [run_append_singleton]
      -- the reading is that of the last call, or an earlier one
      rcases List.eq_nil_or_concat rest with rfl | ⟨rest, y, rfl⟩
      · rcases List.append_inj' hh rfl with ⟨rfl, htail⟩
        have hxe : x = e := by simpa using htail
        rw [hxe, step_arms hreads]
      · have hh' : h ++ [x] = (g ++ e :: rest) ++ [y] := by simpa using hh
        rcases List.append_inj' hh' rfl with ⟨hearlier, _⟩
        rcases (c₀.run h).step_mArmedAt x with hkeep | hmove
        · rw [hkeep]
          exact ih hpre hearlier hreads
        · have hmem : e ∈ h := by simp [hearlier]
          have hle := hlast e hmem
          omega

/-- A controller that listens has registered. -/
theorem registered_of_listening (hstart : c₀.mListening = false)
    (hlistening : (c₀.run h).mListening = true) :
    ∃ g e rest, h = g ++ e :: rest ∧ (c₀.run g).registers e = true := by
  induction h using List.reverseRecOn with
  | nil =>
      rw [run_nil, hstart] at hlistening
      cases hlistening
  | append_singleton h e ih =>
      rw [run_append_singleton] at hlistening
      cases hbefore : (c₀.run h).mListening with
      | false => exact ⟨h, e, [], rfl, by simp [registers, hbefore, hlistening]⟩
      | true =>
          rcases ih hbefore with ⟨g, x, rest, rfl, hregisters⟩
          exact ⟨g, x, rest ++ [e], by simp, hregisters⟩

/-! ## Wakes -/

/-- What a call that wakes has found. -/
theorem wakes_cases (hwake : c.wakes e = true) :
    ∃ event value rest, e = .sensor event false e.now ∧ event.values = value :: rest ∧
      c.mListening = true ∧ c.mArmedAt ≤ event.timestamp ∧
      (c.mFilter.shouldWake value).1 = true := by
  cases e with
  | update interactive setting registers now => cases hwake
  | sensor event interactive now =>
      rcases c.onSensorChanged_cases event interactive now with
        ⟨heq, _⟩ | ⟨value, rest, hvalues, hlistening, _, ⟨heq, _⟩ | ⟨_, hshould, harmed, rfl⟩⟩
      · simp [wakes, heq] at hwake
      · simp [wakes, heq] at hwake
      · exact ⟨event, value, rest, rfl, hvalues, hlistening, harmed, hshould⟩

/-- **Debouncing.**  In every run, a wake is caused by a sample that arrives while the listener is
registered and the device is not interactive; its timestamp is 500 ms or more after the clock
reading of every registration and of every wake before it; and its action is 6, or is 2 when the
recorded one is neither 6 nor 7. -/
theorem wakes_debounced (sensors : Option (List Sensor)) (hclock : Chronological h)
    (hh : h = g ++ e :: rest) (hwake : ((create sensors).run g).wakes e = true) :
    ∃ event value vs action, e = .sensor event false e.now ∧ event.values = value :: vs ∧
      ((create sensors).run g).mListening = true ∧
      (∃ g₁ x g₂, g = g₁ ++ x :: g₂ ∧ ((create sensors).run g₁).registers x = true) ∧
      (∀ g₁ x g₂, g = g₁ ++ x :: g₂ → ((create sensors).run g₁).registers x = true →
        x.now + 500000000 ≤ event.timestamp) ∧
      (∀ g₁ x g₂, g = g₁ ++ x :: g₂ → ((create sensors).run g₁).wakes x = true →
        x.now + 500000000 ≤ event.timestamp) ∧
      RaiseGestureFilter.action? value = some action ∧
      (action = 6 ∨ action = 2 ∧
        ((create sensors).run g).mFilter.mPreviousAction ≠ 6 ∧
        ((create sensors).run g).mFilter.mPreviousAction ≠ 7) := by
  rcases wakes_cases hwake with ⟨event, value, vs, he, hvalues, hlistening, harmed, hshould⟩
  rcases (RaiseGestureFilter.shouldWake_iff _ value).1 hshould with ⟨action, haction, hwhich⟩
  have hbefore : Chronological g := by
    rw [hh] at hclock
    exact hclock.append_left
  have hspaced : ∀ g₁ x g₂, g = g₁ ++ x :: g₂ →
      ((create sensors).run g₁).registers x = true ∨ ((create sensors).run g₁).wakes x = true →
      x.now + 500000000 ≤ event.timestamp := by
    intro g₁ x g₂ hg hreads
    have hreading := armed_after_readings hbefore hg hreads
    exact le_trans hreading harmed
  refine ⟨event, value, vs, action, he, hvalues, hlistening, ?_, ?_, ?_, haction, hwhich⟩
  · exact registered_of_listening rfl hlistening
  · intro g₁ x g₂ hg hregisters
    exact hspaced g₁ x g₂ hg (Or.inl hregisters)
  · intro g₁ x g₂ hg hwakes
    exact hspaced g₁ x g₂ hg (Or.inr hwakes)

/-- The sensor of the device. -/
def raiseSensor : Sensor := ⟨"com.meizu.sensor.raise", true⟩

/-- A wake, then the listener is taken off and on again within the delay, and a second wake. -/
def rewokenHistory : List LiftEvent :=
  [.update false 1 true 0,
    .sensor ⟨600000000, [.finite 6]⟩ false 600000000,
    .update true 1 true 700000000,
    .update false 1 true 800000000,
    .sensor ⟨1200000000, [.finite 7]⟩ false 1200000000,
    .sensor ⟨1300000000, [.finite 6]⟩ false 1300000000]

theorem wakes_debounced_rewoken :
    ∃ event value vs action,
      LiftEvent.sensor ⟨1300000000, [.finite 6]⟩ false 1300000000 =
        .sensor event false 1300000000 ∧
      event.values = value :: vs ∧ RaiseGestureFilter.action? value = some action ∧
      600000000 + 500000000 ≤ event.timestamp ∧ 800000000 + 500000000 ≤ event.timestamp := by
  rcases wakes_debounced (some [raiseSensor]) (h := rewokenHistory)
    (g := rewokenHistory.take 5) (by decide) rfl (by decide) with
    ⟨event, value, vs, action, he, hvalues, _, _, hregistrations, hwakes, haction, _⟩
  exact ⟨event, value, vs, action, he, hvalues, haction,
    hwakes (rewokenHistory.take 1) _ _ rfl (by decide),
    hregistrations (rewokenHistory.take 3) _ _ rfl (by decide)⟩

end LiftToWakeController
end Gestures
end M2391Device
