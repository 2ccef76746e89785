import M2391Device.Vibrator.ScheduleInvariant

/-!
# Writes — what each hardware routine writes, and what `active_` is afterwards

For a routine that succeeds the writes are known exactly.  For one that fails, one of its writes
failed, and the last thing it attempted was the stop command.  It follows that a pending loop always
has `active_` set (`Armed`), so that its deadline does write the stop command.
-/

namespace M2391Device
namespace Vibrator

open Transition

universe u v

variable {κ : Type u} {σ : Type v} (w : Writer σ)

/-- The writes that start a tap; a silent tap is not written at all. -/
def tapWrites (tap : Tap) : List Write :=
  if tap.gain = 0 then []
  else [⟨.setMback, toString tap.level ++ " 1", true⟩, ⟨.gain, toString tap.gain, true⟩]

namespace Hardware

variable (hw : Hardware σ)

theorem startThenGain_writes (node : Node) (value : String) (gain : Int) :
    ∃ ws, (startThenGain w node value gain hw).2.log = hw.log ++ ws ∧
      ((startThenGain w node value gain hw).1 = true →
        ws = [⟨node, value, true⟩, ⟨.gain, toString gain, true⟩]) ∧
      ((startThenGain w node value gain hw).1 = false → ∃ x ∈ ws, x.ok = false) := by
  -- a start that succeeds made both writes; one that fails stopped at the first failure
  rcases startThenGain_log w hw node value gain with ⟨started, hstarted, hlog⟩
  refine ⟨_, hlog, ?_, ?_⟩
  · intro hok
    simp [startWrites, hstarted hok, hok]
  · intro hfail
    cases started with
    | true => exact ⟨⟨.gain, toString gain, false⟩, by simp [startWrites, hfail], rfl⟩
    | false => exact ⟨⟨node, value, false⟩, by simp [startWrites], rfl⟩

/-- Starting a tap writes its two start writes, or stops the hardware when the tap is silent and
`active_` is set. -/
theorem fireTap_writes (tap : Tap) :
    ∃ ws, (hw.fireTap w tap).2.log = hw.log ++ ws ∧
      ((hw.fireTap w tap).1 = true →
        ws = (if hw.active = true ∧ tap.gain = 0 then [stopWrite true] else []) ++
          tapWrites tap) ∧
      ((hw.fireTap w tap).1 = false → ∃ x ∈ ws, x.ok = false) := by
  -- a silent tap is a stop, an audible one is a start
  by_cases hgain : tap.gain = 0
  · rw [fireTap_silent w hw hgain]
    refine ⟨_, stopHardware_log w hw, ?_, ?_⟩
    · intro hok
      simp [hok, hgain, tapWrites]
    · intro hfail
      have hactive := active_of_stopHardware_failed w hw hfail
      exact ⟨stopWrite false, by simp [hactive, hfail], rfl⟩
  · rw [fireTap_audible w hw hgain]
    rcases startThenGain_writes w { hw with active := true } .setMback
      (toString tap.level ++ " 1") tap.gain with ⟨ws, hlog, hok, hfail⟩
    refine ⟨ws, hlog, ?_, hfail⟩
    intro h
    simp [hok h, hgain, tapWrites]

/-- After a tap was started, `active_` says whether it is audible. -/
theorem fireTap_active {tap : Tap} (hok : (hw.fireTap w tap).1 = true) :
    (hw.fireTap w tap).2.active = decide (tap.gain ≠ 0) := by
  by_cases hgain : tap.gain = 0
  · rw [fireTap_silent w hw hgain] at hok ⊢
    simp [stopHardware_active_eq, hok, hgain]
  · rw [fireTap_audible w hw hgain, startThenGain_active]
    simp [hgain]

/-- The clean-up after a failed start ends with the stop command. -/
theorem orStop_failed_log {r : Bool × Hardware σ} (hfail : r.1 = false)
    (hactive : r.2.active = true) :
    ∃ ok, (orStop w r).2.log = r.2.log ++ [stopWrite ok] := by
  refine ⟨(r.2.stopHardware w).1, ?_⟩
  have hlog := stopHardware_log w r.2
  simpa [orStop, hfail, hactive] using hlog

end Hardware

namespace Motor

variable (hw : Hardware σ)

/-- The writes of `play`, and `active_` after them. -/
theorem playHardware_writes (level gain : Int) :
    ∃ ws, (playHardware w level gain hw).2.log = hw.log ++ ws ∧
      ((playHardware w level gain hw).1 = true →
        ws = [⟨waveNode level, waveValue level gain, true⟩, ⟨.gain, toString gain, true⟩] ∧
          (playHardware w level gain hw).2.active = true) ∧
      ((playHardware w level gain hw).1 = false →
        (∃ x ∈ ws, x.ok = false) ∧ ∃ ws' ok, ws = ws' ++ [Hardware.stopWrite ok]) := by
  have hactive := Hardware.startThenGain_active w { hw with active := true } (waveNode level)
    (waveValue level gain) gain
  rcases Hardware.startThenGain_writes w { hw with active := true } (waveNode level)
    (waveValue level gain) gain with ⟨ws, hlog, hok, hfail⟩
  -- the clean-up runs only on the failing path, where `active_` is set
  cases hr : (Hardware.startThenGain w (waveNode level) (waveValue level gain) gain
      { hw with active := true }).1 with
  | true =>
      refine ⟨ws, ?_, ?_, ?_⟩
      · simpa [playHardware, Hardware.orStop, hr] using hlog
      · intro _
        exact ⟨hok hr, by simp [playHardware, Hardware.orStop, hr]⟩
      · intro hfalse
        simp [playHardware, hr] at hfalse
  | false =>
      rcases hfail hr with ⟨x, hx, hxok⟩
      rcases Hardware.orStop_failed_log w hr hactive with ⟨ok, hstop⟩
      refine ⟨ws ++ [Hardware.stopWrite ok], ?_, ?_, ?_⟩
      · rw [playHardware, hstop, hlog, List.append_assoc]
      · intro htrue
        simp [playHardware, hr] at htrue
      · intro _
        exact ⟨⟨x, by simp [hx], hxok⟩, ws, ok, rfl⟩

/-- The writes of `compose`, and `active_` after them. -/
theorem composeHardware_writes (tap : Tap) :
    ∃ ws, (composeHardware w tap hw).2.log = hw.log ++ ws ∧
      ((composeHardware w tap hw).1 = true →
        ws = (if hw.active = true ∧ (tap.delayMs > 0 ∨ tap.gain = 0) then
            [Hardware.stopWrite true] else []) ++
          (if tap.delayMs > 0 then [] else tapWrites tap) ∧
        (composeHardware w tap hw).2.active =
          (if tap.delayMs > 0 then false else decide (tap.gain ≠ 0))) ∧
      ((composeHardware w tap hw).1 = false →
        (∃ x ∈ ws, x.ok = false) ∧ ∃ ws' ok, ws = ws' ++ [Hardware.stopWrite ok]) := by
  -- a delayed composition only stops; one that starts at once is a `fireTap` with clean-up
  by_cases hdelay : tap.delayMs > 0
  · simp only [composeHardware, hdelay, if_true, true_or, and_true]
    refine ⟨_, Hardware.stopHardware_log w hw, ?_, ?_⟩
    · intro hok
      simp [hok, Hardware.stopHardware_active_eq]
    · intro hfail
      have hactive := Hardware.active_of_stopHardware_failed w hw hfail
      rw [hactive, hfail]
      exact ⟨⟨Hardware.stopWrite false, by simp, rfl⟩, [], false, rfl⟩
  · simp only [composeHardware, hdelay, if_false, false_or, Hardware.orStop_fst]
    rcases Hardware.fireTap_writes w hw tap with ⟨ws, hlog, hok, hfail⟩
    cases hr : (hw.fireTap w tap).1 with
    | true =>
        refine ⟨ws, ?_, ?_, ?_⟩
        · simpa [Hardware.orStop, hr] using hlog
        · intro _
          refine ⟨hok hr, ?_⟩
          simp [Hardware.orStop, hr, Hardware.fireTap_active w hw hr]
        · intro hfalse
          cases hfalse
    | false =>
        rcases hfail hr with ⟨x, hx, hxok⟩
        have hactive := Hardware.fireTap_failed_active w hw hr
        rcases Hardware.orStop_failed_log w hr hactive with ⟨ok, hstop⟩
        refine ⟨ws ++ [Hardware.stopWrite ok], ?_, ?_, ?_⟩
        · rw [hstop, hlog, List.append_assoc]
        · intro htrue
          cases htrue
        · intro _
          exact ⟨⟨x, by simp [hx], hxok⟩, ws, ok, rfl⟩

/-- A delayed tap that fails to start: a write failed, and the stop command came last. -/
theorem failedTap_writes {tap : Tap} (hfail : (hw.fireTap w tap).1 = false) :
    ∃ ws, ((hw.fireTap w tap).2.stopHardware w).2.log =
        hw.log ++ (ws ++ [Hardware.stopWrite ((hw.fireTap w tap).2.stopHardware w).1]) ∧
      ∃ x ∈ ws, x.ok = false := by
  rcases Hardware.fireTap_writes w hw tap with ⟨ws, hlog, _, hwrites⟩
  have hactive := Hardware.fireTap_failed_active w hw hfail
  refine ⟨ws, ?_, hwrites hfail⟩
  rw [Hardware.stopHardware_log, hlog, hactive, List.append_assoc]
  rfl

/-- An expiry only adds to the log. -/
theorem expire_log (m : Motor κ σ) (now : Int) :
    ∃ writes, (m.expire w now).2.log = m.log ++ writes := by
  -- both ways to close a wave add at most the stop command
  have hclosed : ∃ writes, (m.toHardware.closeWave w m.continuous true).2.log =
      m.log ++ writes := by
    cases hloop : m.continuous with
    | true =>
        rw [Hardware.closeWave_loop]
        exact ⟨_, Hardware.stopHardware_log w m.toHardware⟩
    | false =>
        refine ⟨[], ?_⟩
        simp [Hardware.closeWave_finite]
  rcases hexpire : m.expire w now with ⟨outcome, m'⟩
  rcases Motor.expire_cases w m now hexpire with
    ⟨_, _, _, rfl⟩ | ⟨_, hfail, _, rfl⟩ | ⟨_, _, _, rfl⟩ | ⟨_, _, _, _, rfl⟩
  · rcases Hardware.fireTap_writes w m.toHardware m.currentTap with ⟨ws, hws, _⟩
    exact ⟨ws, hws⟩
  · rcases failedTap_writes w m.toHardware hfail with ⟨ws, hws, _⟩
    exact ⟨_, hws⟩
  · exact hclosed
  · exact hclosed

end Motor

/-! ## A pending loop is armed -/

variable {w}

def Armed (m : Motor κ σ) : Prop :=
  m.pending = true → m.continuous = true → m.active = true

theorem Armed.of_not_pending {m : Motor κ σ} (h : m.pending = false) : Armed m := by
  intro hpending
  rw [h] at hpending
  cases hpending

theorem Armed.of_finite {m : Motor κ σ} (h : m.continuous = false) : Armed m := by
  intro _ hloop
  rw [h] at hloop
  cases hloop

theorem Armed.step {c c' : Config κ σ} {e : Event κ} (h : Armed c.motor)
    (hscheduled : WellScheduled c.motor.toSchedule) (hstep : Step w c e c') :
    Armed c'.motor := by
  cases hstep with
  | @play _ _ level gain _ _ _ _ _ _ hplay _ =>
      rcases Motor.play_cases w _ hplay with ⟨_, _, rfl⟩ | ⟨_, _, _, rfl⟩ | ⟨_, _, hok, rfl⟩
      · exact h
      · exact Armed.of_not_pending rfl
      · intro _ _
        rcases Motor.playHardware_writes w c.motor.toHardware level gain with ⟨_, _, hstarted, _⟩
        exact (hstarted hok).2
  | setAmplitude _ hset _ =>
      cases hset
      exact h
  | compose _ _ hcompose _ =>
      rcases Motor.compose_cases w _ hcompose with ⟨_, _, rfl⟩ | ⟨_, _, _, rfl⟩ | ⟨_, _, _, rfl⟩
      · exact h
      · exact Armed.of_not_pending rfl
      · exact Armed.of_finite rfl
  | stop _ hstop _ =>
      cases hstop
      exact Armed.of_not_pending rfl
  | destroy _ hdestroy _ =>
      cases hdestroy
      exact Armed.of_not_pending rfl
  | resume _ => exact h
  | superseded _ _ _ => exact h
  | early _ _ _ _ => exact h
  | @expire _ _ _ now outcome m _ _ _ _ hlive _ hexpire _ =>
      have hpending := (not_superseded hlive).2.1
      rcases afterExpiry_motor outcome m now with ⟨b, hmotor⟩
      rw [hmotor]
      -- whatever stays pending is a composition, and no loop
      rcases Motor.expire_cases w _ now hexpire with
        ⟨hwait, _, _, rfl⟩ | ⟨_, _, _, rfl⟩ | ⟨_, hnext, _, rfl⟩ | ⟨_, _, _, _, rfl⟩
      · exact Armed.of_finite (hscheduled.waiting hpending hwait).2
      · exact Armed.of_not_pending rfl
      · exact Armed.of_finite (hscheduled.next hpending hnext)
      · exact Armed.of_not_pending rfl
  | invoke _ => exact h

theorem armed_of_run {c₀ c : Config κ σ} {h : List (Event κ)} (horigin : Origin w c₀)
    (hrun : Run (Step w) c₀ h c) : Armed c.motor := by
  refine horigin.wellScheduled.invariant (fun c => Armed c.motor)
    (Armed.of_not_pending horigin.not_pending) ?_ hrun
  intro t e u harmed hscheduled hstep
  exact harmed.step hscheduled hstep

end Vibrator
end M2391Device
