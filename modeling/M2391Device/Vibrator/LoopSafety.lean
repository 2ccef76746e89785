import M2391Device.Vibrator.ScheduleInvariant

/-!
# LoopSafety — no vibration loop is left without somebody to end it

The device behind the writer is modelled by what the comments of the source rely on: a `ram_loop`
start makes it loop, and each start control or stop command that succeeds ends a loop.  Everything
else about the device is arbitrary, and so is the outcome of every write.

The invariant `Guarded` says that a looping device is always marked by `active_`, and that either
the worker will end the loop at its deadline, or the last stop command failed and the caller was
told so.
-/

namespace M2391Device
namespace Vibrator

open Transition

universe u v

variable {κ : Type u} {σ : Type v}

/-- A device that may loop.  A failed `ram_loop` start may leave it looping or as it was, so
nothing is said about it. -/
structure HapticDevice (σ : Type v) where
  write : Writer σ
  looping : σ → Prop
  ramLoop_starts : ∀ d value, (write d .ramLoop value).1 = true →
    looping (write d .ramLoop value).2
  setMback_ends : ∀ d value, (write d .setMback value).1 = true →
    ¬ looping (write d .setMback value).2
  setMback_failed : ∀ d value, (write d .setMback value).1 = false →
    (looping (write d .setMback value).2 ↔ looping d)
  stop_ends : ∀ d, (write d .enable "0").1 = true → ¬ looping (write d .enable "0").2
  others : ∀ d node value, node ≠ .ramLoop → node ≠ .setMback →
    ¬ (node = .enable ∧ value = "0" ∧ (write d node value).1 = true) →
    (looping (write d node value).2 ↔ looping d)

/-- The most recent stop command of a log. -/
def lastStop (log : List Write) : Option Write := (log.filter Write.isStop).getLast?

def LastStopFailed (log : List Write) : Prop := ∃ x, lastStop log = some x ∧ x.ok = false

theorem lastStopFailed_append_stop {log : List Write} :
    LastStopFailed (log ++ [Hardware.stopWrite false]) :=
  ⟨Hardware.stopWrite false, by simp [lastStop], rfl⟩

theorem lastStopFailed_append_other {log : List Write} {x : Write} (hx : x.isStop = false) :
    LastStopFailed (log ++ [x]) ↔ LastStopFailed log := by
  simp [LastStopFailed, lastStop, List.filter_append, hx]

/-! ## What the hardware routines do to a loop -/

namespace HapticDevice

variable (dev : HapticDevice σ) {hw : Hardware σ}

/-- No write but a `ram_loop` start can make the device loop. -/
theorem write_quiet {node : Node} (value : String) (hnode : node ≠ .ramLoop)
    (hquiet : ¬ dev.looping hw.device) :
    ¬ dev.looping (hw.write dev.write node value).2.device := by
  intro hloop
  have hloop' : dev.looping (dev.write hw.device node value).2 := hloop
  -- the fields of the device cover the writes case by case
  by_cases hmback : node = .setMback
  · subst hmback
    cases hok : (dev.write hw.device .setMback value).1 with
    | true => exact dev.setMback_ends _ _ hok hloop'
    | false => exact hquiet ((dev.setMback_failed _ _ hok).1 hloop')
  · by_cases hstop : node = .enable ∧ value = "0" ∧ (dev.write hw.device node value).1 = true
    · rcases hstop with ⟨rfl, rfl, hok⟩
      exact dev.stop_ends _ hok hloop'
    · exact hquiet ((dev.others _ _ _ hnode hmback hstop).1 hloop')

theorem stopHardware_quiet (hquiet : ¬ dev.looping hw.device) :
    ¬ dev.looping (hw.stopHardware dev.write).2.device := by
  cases hactive : hw.active with
  | true =>
      rw [Hardware.stopHardware_active dev.write hw hactive]
      exact dev.write_quiet "0" (by decide) hquiet
  | false =>
      rw [Hardware.stopHardware_inactive dev.write hw hactive]
      exact hquiet

/-- A loop that survives `stopHardware` survives because the stop command failed. -/
theorem stopHardware_loop (hactive : dev.looping hw.device → hw.active = true)
    (hloop : dev.looping (hw.stopHardware dev.write).2.device) :
    (hw.stopHardware dev.write).1 = false ∧
      LastStopFailed (hw.stopHardware dev.write).2.log := by
  -- `stopHardware` starts nothing, so the loop was there before it
  have hwas : dev.looping hw.device := by
    by_contra hquiet
    exact dev.stopHardware_quiet hquiet hloop
  have heq := Hardware.stopHardware_active dev.write hw (hactive hwas)
  have hlog := Hardware.stopHardware_log dev.write hw
  have hfail : (hw.stopHardware dev.write).1 = false := by
    cases hok : (hw.stopHardware dev.write).1 with
    | false => rfl
    | true =>
        -- a successful stop command ends the loop, against `hloop`
        have hwrite : (dev.write hw.device .enable "0").1 = true := by
          simpa [heq, Hardware.write] using hok
        have hloop' : dev.looping (dev.write hw.device .enable "0").2 := by
          simpa [heq] using hloop
        exact absurd hloop' (dev.stop_ends _ hwrite)
  refine ⟨hfail, ?_⟩
  rw [hlog, hactive hwas, hfail]
  exact lastStopFailed_append_stop

theorem startThenGain_quiet {node : Node} (value : String) (gain : Int)
    (hnode : node ≠ .ramLoop) (hquiet : ¬ dev.looping hw.device) :
    ¬ dev.looping (Hardware.startThenGain dev.write node value gain hw).2.device := by
  have hfirst := dev.write_quiet value hnode hquiet
  rcases Hardware.startThenGain_cases dev.write hw node value gain with ⟨_, heq⟩ | ⟨_, heq⟩
  · rw [heq]
    exact dev.write_quiet (toString gain) (by decide) hfirst
  · rw [heq]
    exact hfirst

/-- A finite wave that starts ends whatever was looping before it. -/
theorem startThenGain_ends (value : String) (gain : Int)
    (hok : (Hardware.startThenGain dev.write .setMback value gain hw).1 = true) :
    ¬ dev.looping (Hardware.startThenGain dev.write .setMback value gain hw).2.device := by
  rcases Hardware.startThenGain_cases dev.write hw .setMback value gain with
    ⟨hstarted, heq⟩ | ⟨_, heq⟩
  · have hfirst : ¬ dev.looping (hw.write dev.write .setMback value).2.device :=
      dev.setMback_ends _ _ hstarted
    rw [heq]
    exact dev.write_quiet (toString gain) (by decide) hfirst
  · rw [heq] at hok
    cases hok

theorem fireTap_quiet (tap : Tap) (hquiet : ¬ dev.looping hw.device) :
    ¬ dev.looping (hw.fireTap dev.write tap).2.device := by
  by_cases hgain : tap.gain = 0
  · rw [Hardware.fireTap_silent dev.write hw hgain]
    exact dev.stopHardware_quiet hquiet
  · rw [Hardware.fireTap_audible dev.write hw hgain]
    have hquiet' : ¬ dev.looping ({ hw with active := true } : Hardware σ).device := hquiet
    exact dev.startThenGain_quiet _ _ (by decide) hquiet'

theorem closeWave_quiet (continuous stopped : Bool) (hquiet : ¬ dev.looping hw.device) :
    ¬ dev.looping (hw.closeWave dev.write continuous stopped).2.device := by
  cases stopped with
  | false =>
      rw [Hardware.closeWave_failed]
      exact hquiet
  | true =>
      cases continuous with
      | true =>
          rw [Hardware.closeWave_loop]
          exact dev.stopHardware_quiet hquiet
      | false =>
          rw [Hardware.closeWave_finite]
          exact hquiet

/-- The start of a tap, silent or not, ends whatever was looping before it. -/
theorem fireTap_ends (tap : Tap) (hactive : dev.looping hw.device → hw.active = true)
    (hok : (hw.fireTap dev.write tap).1 = true) :
    ¬ dev.looping (hw.fireTap dev.write tap).2.device := by
  by_cases hgain : tap.gain = 0
  · rw [Hardware.fireTap_silent dev.write hw hgain] at hok ⊢
    intro hloop
    have hfail := (dev.stopHardware_loop hactive hloop).1
    rw [hok] at hfail
    cases hfail
  · rw [Hardware.fireTap_audible dev.write hw hgain] at hok ⊢
    exact dev.startThenGain_ends _ _ hok

/-- A clean-up after a failed start leaves a loop only when its own stop command failed. -/
theorem cleanUp_loop {r : Bool × Hardware σ} (hfail : r.1 = false) (hactive : r.2.active = true)
    (hloop : dev.looping (Hardware.orStop dev.write r).2.device) :
    (Hardware.orStop dev.write r).2.active = true ∧
      LastStopFailed (Hardware.orStop dev.write r).2.log := by
  have heq : (Hardware.orStop dev.write r).2 = (r.2.stopHardware dev.write).2 := by
    simp [Hardware.orStop, hfail]
  rw [heq] at hloop ⊢
  rcases dev.stopHardware_loop (fun _ => hactive) hloop with ⟨hstop, hlast⟩
  refine ⟨?_, hlast⟩
  rw [Hardware.stopHardware_active_eq, hstop]
  rfl

end HapticDevice

/-! ## The invariant -/

/-- Whoever may have to end the loop knows about it. -/
structure Guarded (dev : HapticDevice σ) (m : Motor κ σ) : Prop where
  active : dev.looping m.device → m.active = true
  continuous : dev.looping m.device → m.pending = true → m.continuous = true
  stopFailed : dev.looping m.device → m.pending = false → LastStopFailed m.log

namespace Guarded

variable {dev : HapticDevice σ} {m : Motor κ σ}

theorem of_quiet (hquiet : ¬ dev.looping m.device) : Guarded dev m :=
  ⟨fun hloop => absurd hloop hquiet, fun hloop => absurd hloop hquiet,
    fun hloop => absurd hloop hquiet⟩

/-- Only the device, `active_`, `pending_`, `continuous_` and the log matter. -/
theorem of_eq {m' : Motor κ σ} (h : Guarded dev m) (hhw : m'.toHardware = m.toHardware)
    (hpending : m'.pending = m.pending) (hcontinuous : m'.continuous = m.continuous) :
    Guarded dev m' := by
  refine ⟨?_, ?_, ?_⟩
  · rw [hhw]
    exact h.active
  · rw [hhw, hpending, hcontinuous]
    exact h.continuous
  · rw [hhw, hpending]
    exact h.stopFailed

/-- What a call leaves when it ends with `stopHardware` and nothing pending. -/
theorem of_stopped {s : Schedule κ} {hw : Hardware σ}
    (hactive : dev.looping hw.device → hw.active = true) (hpending : s.pending = false) :
    Guarded dev ⟨s, (hw.stopHardware dev.write).2⟩ := by
  refine ⟨?_, ?_, ?_⟩
  · intro hloop
    have hfail := (dev.stopHardware_loop hactive hloop).1
    simp [Hardware.stopHardware_active_eq, hfail]
  · intro _ htrue
    have htrue' : s.pending = true := htrue
    rw [hpending] at htrue'
    cases htrue'
  · intro hloop _
    exact (dev.stopHardware_loop hactive hloop).2

/-- As `of_stopped`, for the clean-up after a failed start. -/
theorem of_cleanUp {s : Schedule κ} {r : Bool × Hardware σ} (hfail : r.1 = false)
    (hactive : r.2.active = true) (hpending : s.pending = false) :
    Guarded dev ⟨s, (Hardware.orStop dev.write r).2⟩ := by
  refine ⟨?_, ?_, ?_⟩
  · intro hloop
    exact (dev.cleanUp_loop hfail hactive hloop).1
  · intro _ htrue
    have htrue' : s.pending = true := htrue
    rw [hpending] at htrue'
    cases htrue'
  · intro hloop _
    exact (dev.cleanUp_loop hfail hactive hloop).2

theorem play {now : Int} {milliseconds level gain : Int} {complete : Option κ} {returned : Bool}
    {m' : Motor κ σ} (h : Guarded dev m)
    (hplay : m.play dev.write now milliseconds level gain complete = (returned, m')) :
    Guarded dev m' := by
  -- a rejected call changes nothing, and a failed one ends in its own clean-up
  rcases Motor.play_cases dev.write m hplay with ⟨_, _, rfl⟩ | ⟨_, _, hfail, rfl⟩ | ⟨_, _, hok, rfl⟩
  · exact h
  · refine of_cleanUp ?_ ?_ rfl
    · simpa [Motor.playHardware] using hfail
    · simp
  · -- a loop starts with `continuous_` set; a finite wave leaves nothing looping
    by_cases hlevel : level < 0
    · refine ⟨?_, ?_, ?_⟩
      · intro _
        have hstarted : (Hardware.startThenGain dev.write (Motor.waveNode level)
            (Motor.waveValue level gain) gain { m.toHardware with active := true }).1 = true := by
          simpa [Motor.playHardware] using hok
        simp [Motor.playHardware, Hardware.orStop, hstarted]
      · intro _ _
        simpa [Motor.beginPlay, Schedule.accept] using hlevel
      · intro _ hfalse
        cases hfalse
    · apply of_quiet
      have hnode : Motor.waveNode level = .setMback := by simp [Motor.waveNode, hlevel]
      have hstarted : (Hardware.startThenGain dev.write .setMback
          (Motor.waveValue level gain) gain { m.toHardware with active := true }).1 = true := by
        simpa [Motor.playHardware, hnode] using hok
      have hends := dev.startThenGain_ends _ _ hstarted
      simpa [Motor.playHardware, Hardware.orStop, hnode, hstarted] using hends

theorem compose {now : Int} {taps : List Tap} {complete : Option κ} {returned : Bool}
    {m' : Motor κ σ} (h : Guarded dev m)
    (hcompose : m.compose dev.write now taps complete = (returned, m')) :
    Guarded dev m' := by
  rcases Motor.compose_cases dev.write m hcompose with
    ⟨_, _, rfl⟩ | ⟨_, _, hfail, rfl⟩ | ⟨_, _, hok, rfl⟩
  · exact h
  -- a failed leading stop leaves what played; a failed first tap was cleaned up
  · by_cases hdelay : (Motor.firstTap taps).delayMs > 0
    · simp only [Motor.composeHardware, hdelay, if_true]
      exact of_stopped h.active rfl
    · simp only [Motor.composeHardware, hdelay, if_false] at hfail ⊢
      have hfired : (m.toHardware.fireTap dev.write (Motor.firstTap taps)).1 = false := by
        simpa using hfail
      exact of_cleanUp hfired (Hardware.fireTap_failed_active dev.write _ hfired) rfl
  -- a composition that starts has ended every loop
  · apply of_quiet
    by_cases hdelay : (Motor.firstTap taps).delayMs > 0
    · simp only [Motor.composeHardware, hdelay, if_true] at hok ⊢
      intro hloop
      have hfail := (dev.stopHardware_loop h.active hloop).1
      rw [hok] at hfail
      cases hfail
    · simp only [Motor.composeHardware, hdelay, if_false, Hardware.orStop_fst] at hok ⊢
      have hends := dev.fireTap_ends (Motor.firstTap taps) h.active hok
      simpa [Hardware.orStop, hok] using hends

/-- While anything but a loop is pending, nothing loops. -/
theorem quiet_of_finite (h : Guarded dev m) (hpending : m.pending = true)
    (hfinite : m.continuous = false) : ¬ dev.looping m.device := by
  intro hloop
  have hloopFlag := h.continuous hloop hpending
  rw [hfinite] at hloopFlag
  cases hloopFlag

theorem expire {now : Int} {outcome : Motor.Expiry κ} {m' : Motor κ σ} (h : Guarded dev m)
    (hpending : m.pending = true) (hscheduled : WellScheduled m.toSchedule)
    (hexpire : m.expire dev.write now = (outcome, m')) : Guarded dev m' := by
  rcases Motor.expire_cases dev.write m now hexpire with
    ⟨hwait, _, _, rfl⟩ | ⟨hwait, _, _, rfl⟩ | ⟨_, hnext, _, rfl⟩ | ⟨_, _, _, _, rfl⟩
  · -- a composition is pending, so nothing loops, and starting a tap keeps it so
    have hfinite := (hscheduled.waiting hpending hwait).2
    have hfired := dev.fireTap_quiet m.currentTap (h.quiet_of_finite hpending hfinite)
    exact of_quiet hfired
  · have hfinite := (hscheduled.waiting hpending hwait).2
    have hfired := dev.fireTap_quiet m.currentTap (h.quiet_of_finite hpending hfinite)
    have hstopped := dev.stopHardware_quiet hfired
    exact of_quiet hstopped
  · have hfinite := hscheduled.next hpending hnext
    have hclosed := dev.closeWave_quiet m.continuous true (h.quiet_of_finite hpending hfinite)
    exact of_quiet hclosed
  -- the request ends: a loop is closed with a stop command, a wave ends by itself
  · cases hloopFlag : m.continuous with
    | true =>
        rw [Hardware.closeWave_loop]
        exact of_stopped h.active rfl
    | false =>
        have hclosed := dev.closeWave_quiet false true (h.quiet_of_finite hpending hloopFlag)
        exact of_quiet hclosed

theorem step {c c' : Config κ σ} {e : Event κ} (h : Guarded dev c.motor)
    (hscheduled : WellScheduled c.motor.toSchedule) (hstep : Step dev.write c e c') :
    Guarded dev c'.motor := by
  cases hstep with
  | play _ _ hplay _ => exact h.play hplay
  | @setAmplitude amplitude _ _ _ _ hset _ =>
      cases hset
      -- the gain is another node: it starts no loop and ends none
      have hgain := dev.others c.motor.device .gain
        (toString (max 1 (Motor.truncate (amplitude * 128 + 1 / 2)))) (by decide) (by decide)
        (fun hstop => by cases hstop.1)
      refine ⟨?_, ?_, ?_⟩
      · intro hloop
        exact h.active (hgain.1 hloop)
      · intro hloop hpending
        exact h.continuous (hgain.1 hloop) hpending
      · intro hloop hpending
        exact (lastStopFailed_append_other rfl).2 (h.stopFailed (hgain.1 hloop) hpending)
  | compose _ _ hcompose _ => exact h.compose hcompose
  | stop _ hstop _ =>
      cases hstop
      exact of_stopped h.active rfl
  | destroy _ hdestroy _ =>
      cases hdestroy
      exact of_stopped h.active rfl
  | resume _ => exact h.of_eq rfl rfl rfl
  | superseded _ _ _ => exact h.of_eq rfl rfl rfl
  | early _ _ _ _ => exact h.of_eq rfl rfl rfl
  | @expire _ _ _ now outcome m _ _ _ _ hlive _ hexpire _ =>
      have hafter := h.expire (not_superseded hlive).2.1 hscheduled hexpire
      rcases afterExpiry_motor outcome m now with ⟨b, hmotor⟩
      rw [hmotor]
      exact hafter.of_eq rfl rfl rfl
  | invoke _ => exact h

/-- `initialize()` takes over whatever played before: unless both its writes succeeded,
`active_` is set, and a loop that goes on goes on because the stop command failed. -/
theorem initialized (clock : Int) (d : σ) :
    Guarded dev (Config.initialized (κ := κ) dev.write clock d).motor := by
  -- the second write, to `cont`, neither starts nor ends a loop
  have hcont := dev.others (dev.write d .enable "0").2 .cont "0" (by decide) (by decide)
    (fun hstop => by cases hstop.1)
  cases hok : (dev.write d .enable "0").1 with
  | true =>
      have hstopped := dev.stop_ends d hok
      exact of_quiet (fun hloop => hstopped (hcont.1 hloop))
  | false =>
      refine ⟨?_, ?_, ?_⟩
      · intro _
        simp [Config.initialized, Motor.initializeMotor, Motor.onHardware, Motor.constructed,
          Hardware.write, hok]
      · intro _ hpending
        cases hpending
      · intro _ _
        have hlog : (Config.initialized (κ := κ) dev.write clock d).motor.log =
            [] ++ [Hardware.stopWrite false] ++
              [⟨.cont, "0", (dev.write (dev.write d .enable "0").2 .cont "0").1⟩] := by
          simp [Config.initialized, Motor.initializeMotor, Motor.onHardware, Motor.constructed,
            Hardware.write, Hardware.stopWrite, hok]
        rw [hlog]
        exact (lastStopFailed_append_other rfl).2 lastStopFailed_append_stop

end Guarded

/-! ## Runs -/

section Runs

variable (dev : HapticDevice σ) {clock : Int} {d : σ} {h : List (Event κ)} {c : Config κ σ}

theorem guarded_of_run (hrun : Run (Step dev.write) (Config.initialized dev.write clock d) h c) :
    Guarded dev c.motor ∧ WellScheduled c.motor.toSchedule := by
  have hstart : WellScheduled (Config.initialized (κ := κ) dev.write clock d).motor.toSchedule :=
    WellScheduled.of_not_pending rfl
  refine ⟨?_, hstart.run hrun⟩
  refine hstart.invariant (fun c => Guarded dev c.motor) (Guarded.initialized clock d) ?_ hrun
  intro t e u hguarded hscheduled hstep
  exact hguarded.step hscheduled hstep

/-- The deadline of a pending loop attempts the stop command. -/
theorem expire_stops_loop {w : Writer σ} {c c' : Config κ σ} {t now : Int}
    {outcome : Motor.Expiry κ} {writes : List Write}
    (hscheduled : WellScheduled c.motor.toSchedule) (hactive : c.motor.active = true)
    (hloopFlag : c.motor.continuous = true)
    (hstep : Step w c (.expire t now outcome writes) c') :
    ∃ ok, writes = [Hardware.stopWrite ok] := by
  cases hstep with
  | expire _ _ _ hlive _ hexpire hlog =>
      -- a pending loop waits for no tap, so its expiry goes through `closeWave`
      have hwait := hscheduled.not_waiting (not_superseded hlive).2.1 hloopFlag
      have hclosed : ∃ ok, (c.motor.toHardware.closeWave w c.motor.continuous true).2.log =
          c.motor.log ++ [Hardware.stopWrite ok] := by
        rw [hloopFlag, Hardware.closeWave_loop, Hardware.stopHardware_log, hactive]
        exact ⟨_, rfl⟩
      rcases hclosed with ⟨ok, hclosed⟩
      refine ⟨ok, ?_⟩
      rcases Motor.expire_cases w c.motor now hexpire with
        ⟨hwait', _⟩ | ⟨hwait', _⟩ | ⟨_, _, _, rfl⟩ | ⟨_, _, _, _, rfl⟩
      · rw [hwait] at hwait'
        cases hwait'
      · rw [hwait] at hwait'
        cases hwait'
      · exact List.append_cancel_left (hlog.symm.trans hclosed)
      · exact List.append_cancel_left (hlog.symm.trans hclosed)

/-- **No orphaned loop.** In every state that a run from `initialize()` reaches, a looping device
is marked active, and either the pending request is the loop, whose deadline attempts the stop
command, or the last stop command failed.  A `stop()` that reports success leaves no loop. -/
theorem no_orphaned_loop
    (hrun : Run (Step dev.write) (Config.initialized dev.write clock d) h c) :
    (dev.looping c.motor.device →
      c.motor.active = true ∧
        ((c.motor.pending = true ∧ c.motor.continuous = true ∧
            ∀ t now outcome writes c', Step dev.write c (.expire t now outcome writes) c' →
              ∃ ok, writes = [Hardware.stopWrite ok]) ∨
          LastStopFailed c.motor.log)) ∧
      ∀ writes c', Step dev.write c (.stop true writes) c' → ¬ dev.looping c'.motor.device := by
  rcases guarded_of_run dev hrun with ⟨hguarded, hscheduled⟩
  refine ⟨?_, ?_⟩
  · intro hloop
    have hactive := hguarded.active hloop
    refine ⟨hactive, ?_⟩
    cases hpending : c.motor.pending with
    | true =>
        have hloopFlag := hguarded.continuous hloop hpending
        -- a loop that nobody waits for can only be one that was not stopped
        refine Or.inl ⟨rfl, hloopFlag, ?_⟩
        intro t now outcome writes c' hstep
        exact expire_stops_loop hscheduled hactive hloopFlag hstep
    | false => exact Or.inr (hguarded.stopFailed hloop hpending)
  · intro writes c' hstep hloop
    cases hstep with
    | stop _ hstop _ =>
        rw [Motor.stop_eq] at hstop
        rcases Prod.mk.inj hstop with ⟨hok, hmotor⟩
        subst hmotor
        have hfail := (dev.stopHardware_loop hguarded.active hloop).1
        rw [hok] at hfail
        cases hfail

end Runs

/-- A device on which every write succeeds; its state says whether it loops. -/
def obedientDevice : HapticDevice Bool where
  write d node value :=
    (true,
      match node with
      | .ramLoop => true
      | .setMback => false
      | .enable => if value = "0" then false else d
      | _ => d)
  looping d := d = true
  ramLoop_starts _ _ _ := rfl
  setMback_ends _ _ _ := by simp
  setMback_failed _ _ hfail := by cases hfail
  stop_ends _ _ := by simp
  others d node value hloop hmback hstop := by
    cases node with
    | ramLoop => exact absurd rfl hloop
    | setMback => exact absurd rfl hmback
    | enable =>
        have hvalue : value ≠ "0" := fun hvalue => hstop ⟨rfl, hvalue, rfl⟩
        simp [hvalue]
    | _ => simp

/-- A loop of 100 ms on the obedient device, just accepted. -/
def loopPlaying : Config Unit Bool :=
  { Config.initialized obedientDevice.write 0 false with
    motor := ((Config.initialized (κ := Unit) obedientDevice.write 0 false).motor.play
      obedientDevice.write 5 100 (-1) 128 (some ())).2
    clock := 5 }

theorem no_orphaned_loop_playing :
    obedientDevice.looping loopPlaying.motor.device ∧
      loopPlaying.motor.active = true ∧ loopPlaying.motor.continuous = true := by
  have hrun : Run (Step obedientDevice.write)
      (Config.initialized obedientDevice.write 0 false)
      [.play 5 100 (-1) 128 (some ()) true (loopPlaying.motor.log.drop 2)] loopPlaying :=
    Run.single (Step.play rfl (by decide) rfl rfl)
  have hloop : obedientDevice.looping loopPlaying.motor.device := rfl
  have hguard := (no_orphaned_loop obedientDevice hrun).1 hloop
  exact ⟨hloop, hguard.1, rfl⟩

end Vibrator
end M2391Device
