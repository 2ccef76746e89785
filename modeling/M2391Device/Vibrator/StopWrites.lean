import M2391Device.Vibrator.Completion

/-!
# StopWrites — when the scheduler writes the stop command

A stop command cuts the tail of a wave off, so the scheduler must not write one where it is not
needed.  With a device that takes every write, this module says for each step which writes it makes
(`Step.playWrites`, `Step.composeWrites`, `Step.expireWrites`), and from that exactly which steps of
a run write a stop.

The one fact that has to be carried along is `Rested`: while the worker waits to start a tap,
`active_` is off.  A silent tap therefore never stops the wave before it.
-/

namespace M2391Device
namespace Vibrator

open Transition

universe u v

variable {κ : Type u} {σ : Type v} {w : Writer σ} {c c' : Config κ σ} {e : Event κ}

/-! ## The wait before a tap -/

def Rested (m : Motor κ σ) : Prop :=
  m.pending = true → m.waitingForTap = true → m.active = false

namespace Rested

theorem of_not_pending {m : Motor κ σ} (h : m.pending = false) : Rested m := by
  intro hpending
  rw [h] at hpending
  cases hpending

theorem of_not_waiting {m : Motor κ σ} (h : m.waitingForTap = false) : Rested m := by
  intro _ hwait
  rw [h] at hwait
  cases hwait

theorem compose {m m' : Motor κ σ} {now : Int} {taps : List Tap} {complete : Option κ}
    {returned : Bool} (h : Rested m)
    (hcompose : m.compose w now taps complete = (returned, m')) : Rested m' := by
  rcases Motor.compose_cases w m hcompose with ⟨_, _, rfl⟩ | ⟨_, _, _, rfl⟩ | ⟨_, _, hok, rfl⟩
  · exact h
  · exact of_not_pending rfl
  · intro _ hwait
    -- a composition that waits for its first tap has stopped the hardware before
    have hdelay : (Motor.firstTap taps).delayMs > 0 := of_decide_eq_true hwait
    rcases Motor.composeHardware_writes w m.toHardware (Motor.firstTap taps) with
      ⟨_, _, hstarted, _⟩
    have hactive := (hstarted hok).2
    simpa [hdelay] using hactive

theorem expire {m m' : Motor κ σ} {now : Int} {outcome : Motor.Expiry κ}
    (hscheduled : WellScheduled m.toSchedule) (hpending : m.pending = true)
    (hexpire : m.expire w now = (outcome, m')) : Rested m' := by
  rcases Motor.expire_cases w m now hexpire with
    ⟨_, _, _, rfl⟩ | ⟨_, _, _, rfl⟩ | ⟨_, hnext, _, rfl⟩ | ⟨_, _, _, _, rfl⟩
  · exact of_not_waiting rfl
  · exact of_not_waiting rfl
  · -- the tap before was finite, and its expiry clears `active_`
    have hfinite := hscheduled.next hpending hnext
    intro _ _
    simp [hfinite, Hardware.closeWave_finite]
  · exact of_not_waiting rfl

theorem step (h : Rested c.motor) (hscheduled : WellScheduled c.motor.toSchedule)
    (hstep : Step w c e c') : Rested c'.motor := by
  cases hstep with
  | play _ _ hplay _ =>
      rcases Motor.play_cases w _ hplay with ⟨_, _, rfl⟩ | ⟨_, _, _, rfl⟩ | ⟨_, _, _, rfl⟩
      · exact h
      · exact of_not_pending rfl
      · exact of_not_waiting rfl
  | setAmplitude _ hset _ =>
      cases hset
      exact h
  | compose _ _ hcompose _ => exact h.compose hcompose
  | stop _ hstop _ =>
      cases hstop
      exact of_not_pending rfl
  | destroy _ hdestroy _ =>
      cases hdestroy
      exact of_not_pending rfl
  | resume _ => exact h
  | superseded _ _ _ => exact h
  | early _ _ _ _ => exact h
  | @expire _ _ _ now outcome m _ _ _ _ hlive _ hexpire _ =>
      have hrested := Rested.expire hscheduled (not_superseded hlive).2.1 hexpire
      rcases afterExpiry_motor outcome m now with ⟨b, hmotor⟩
      rw [hmotor]
      exact hrested
  | invoke _ => exact h

end Rested

theorem rested_of_run {c₀ : Config κ σ} {h : List (Event κ)} (horigin : Origin w c₀)
    (hrun : Run (Step w) c₀ h c) : Rested c.motor := by
  refine horigin.wellScheduled.invariant (fun c => Rested c.motor)
    (Rested.of_not_pending horigin.not_pending) ?_ hrun
  intro t e u hrested hscheduled hstep
  exact hrested.step hscheduled hstep

/-! ## The writes of a step that succeeds -/

/-- Every write of the step succeeded. -/
def Event.Succeeds (e : Event κ) : Prop := ∀ x ∈ e.writes, x.ok = true

theorem Event.Succeeds.not_failed (h : e.Succeeds) : ¬ ∃ x ∈ e.writes, x.ok = false := by
  rintro ⟨x, hx, hfail⟩
  have hok := h x hx
  rw [hfail] at hok
  cases hok

/-- A `play` that its checks accept writes its start control and the gain, and any other nothing. -/
theorem Step.playWrites {now milliseconds level gain : Int} {complete : Option κ}
    {returned : Bool} {writes : List Write}
    (hstep : Step w c (.play now milliseconds level gain complete returned writes) c')
    (hok : (Event.play now milliseconds level gain complete returned writes).Succeeds) :
    returned = decide (Motor.PlayAccepts milliseconds level gain) ∧
      writes = if Motor.PlayAccepts milliseconds level gain then
        [⟨Motor.waveNode level, Motor.waveValue level gain, true⟩, ⟨.gain, toString gain, true⟩]
        else [] := by
  cases hstep with
  | play _ _ hplay hlog =>
      -- every write succeeded, which excludes the failing case
      rcases Motor.play_cases w _ hplay with
        ⟨hrejected, rfl, rfl⟩ | ⟨_, _, hfail, rfl⟩ | ⟨hacc, rfl, hstarted, rfl⟩
      · refine ⟨by simp [hrejected], ?_⟩
        rw [if_neg hrejected]
        exact List.append_right_eq_self.1 hlog.symm
      · rcases Motor.playHardware_writes w c.motor.toHardware level gain with ⟨ws, hws, _, hfailed⟩
        have hwrites := List.append_cancel_left (hlog.symm.trans hws)
        subst hwrites
        exact absurd (hfailed hfail).1 hok.not_failed
      · rcases Motor.playHardware_writes w c.motor.toHardware level gain with ⟨ws, hws, hplayed, _⟩
        have hwrites := List.append_cancel_left (hlog.symm.trans hws)
        refine ⟨by simp [hacc], ?_⟩
        rw [if_pos hacc, hwrites]
        exact (hplayed hstarted).1

/-- The stop command that `compose` writes before a first tap that does not itself replace what
plays. -/
def leadingStop (active : Bool) (tap : Tap) : List Write :=
  if active = true ∧ (tap.delayMs > 0 ∨ tap.gain = 0) then [Hardware.stopWrite true] else []

theorem Step.composeWrites {now : Int} {taps : List Tap} {complete : Option κ}
    {returned : Bool} {writes : List Write}
    (hstep : Step w c (.compose now taps complete returned writes) c')
    (hok : (Event.compose now taps complete returned writes).Succeeds) :
    returned = decide (Motor.ComposeAccepts taps) ∧
      writes = if Motor.ComposeAccepts taps then
        leadingStop c.motor.active (Motor.firstTap taps) ++
          (if (Motor.firstTap taps).delayMs > 0 then [] else tapWrites (Motor.firstTap taps))
        else [] := by
  cases hstep with
  | compose _ _ hcompose hlog =>
      -- every write succeeded, which excludes the failing case
      rcases Motor.compose_cases w _ hcompose with
        ⟨hrejected, rfl, rfl⟩ | ⟨_, _, hfail, rfl⟩ | ⟨hacc, rfl, hstarted, rfl⟩
      · refine ⟨by simp [hrejected], ?_⟩
        rw [if_neg hrejected]
        exact List.append_right_eq_self.1 hlog.symm
      · rcases Motor.composeHardware_writes w c.motor.toHardware (Motor.firstTap taps) with
          ⟨ws, hws, _, hfailed⟩
        have hwrites := List.append_cancel_left (hlog.symm.trans hws)
        subst hwrites
        exact absurd (hfailed hfail).1 hok.not_failed
      · rcases Motor.composeHardware_writes w c.motor.toHardware (Motor.firstTap taps) with
          ⟨ws, hws, hcomposed, _⟩
        have hwrites := List.append_cancel_left (hlog.symm.trans hws)
        refine ⟨by simp [hacc], ?_⟩
        rw [if_pos hacc, hwrites]
        exact (hcomposed hstarted).1

theorem Hardware.stopHardware_writes (hw : Hardware σ) {writes : List Write}
    (hlog : (hw.stopHardware w).2.log = hw.log ++ writes) (hok : ∀ x ∈ writes, x.ok = true) :
    writes = (if hw.active then [stopWrite true] else []) ∧ (hw.stopHardware w).1 = true := by
  have hwrites := List.append_cancel_left (hlog.symm.trans (stopHardware_log w hw))
  cases hactive : hw.active with
  | true =>
      rw [hactive, if_pos rfl] at hwrites
      have hstopped : (hw.stopHardware w).1 = true := by
        have hlast := hok (stopWrite (hw.stopHardware w).1) (by simp [hwrites])
        exact hlast
      rw [hwrites, hstopped]
      exact ⟨rfl, rfl⟩
  | false =>
      rw [hactive] at hwrites
      rw [stopHardware_inactive w hw hactive]
      exact ⟨hwrites, rfl⟩

/-- What an expiry does when its writes succeed: it starts the tap it waited for, goes on to the
next delay without a write, or is done, which takes the stop command only for a loop. -/
theorem Step.expireWrites {t now : Int} {outcome : Motor.Expiry κ} {writes : List Write}
    (hstep : Step w c (.expire t now outcome writes) c')
    (hok : (Event.expire t now outcome writes).Succeeds)
    (hscheduled : WellScheduled c.motor.toSchedule) (harmed : Armed c.motor)
    (hrested : Rested c.motor) :
    (c.motor.waitingForTap = true ∧ outcome = .tapStarted c.motor.tapIndex ∧
        writes = tapWrites c.motor.currentTap) ∨
      (c.motor.waitingForTap = false ∧ c.motor.tapIndex + 1 < c.motor.taps.length ∧
        outcome = .nextTap (c.motor.tapIndex + 1) ∧ writes = []) ∨
      (c.motor.waitingForTap = false ∧ ¬ c.motor.tapIndex + 1 < c.motor.taps.length ∧
        outcome = .finished true false c.motor.callback ∧
        writes = if c.motor.continuous then [Hardware.stopWrite true] else []) := by
  cases hstep with
  | expire _ _ _ hlive _ hexpire hlog =>
      have hpending := (not_superseded hlive).2.1
      rcases Motor.expire_cases w _ now hexpire with
        ⟨hwait, hfired, rfl, rfl⟩ | ⟨hwait, hfail, rfl, rfl⟩ | ⟨hwait, hnext, rfl, rfl⟩ |
          ⟨hwait, hlast, _, rfl, rfl⟩
      · refine Or.inl ⟨hwait, rfl, ?_⟩
        rcases Hardware.fireTap_writes w c.motor.toHardware c.motor.currentTap with
          ⟨ws, hws, hstarted, _⟩
        have hwrites := List.append_cancel_left (hlog.symm.trans hws)
        -- `active_` is off while a tap is waited for, so a silent tap writes nothing
        have hinactive : c.motor.active = false := hrested hpending hwait
        rw [hwrites]
        simpa [hinactive] using hstarted hfired
      · rcases Motor.failedTap_writes w c.motor.toHardware hfail with ⟨ws, hws, x, hx, hxok⟩
        have hwrites := List.append_cancel_left (hlog.symm.trans hws)
        subst hwrites
        exact absurd ⟨x, List.mem_append_left _ hx, hxok⟩ hok.not_failed
      · have hfinite := hscheduled.next hpending hnext
        refine Or.inr (Or.inl ⟨hwait, hnext, rfl, ?_⟩)
        have hclosed : (c.motor.toHardware.closeWave w c.motor.continuous true).2.log =
            c.motor.log := by
          simp [hfinite, Hardware.closeWave_finite]
        exact List.append_right_eq_self.1 (hlog.symm.trans hclosed)
      · cases hloop : c.motor.continuous with
        | false =>
            have hclosed : c.motor.toHardware.closeWave w false true =
                (true, { c.motor.toHardware with active := false }) := by
              rw [Hardware.closeWave_finite, if_pos rfl]
            rw [hloop, hclosed] at hlog
            refine Or.inr (Or.inr ⟨hwait, hlast, ?_, ?_⟩)
            · rw [hclosed]
            · exact List.append_right_eq_self.1 hlog.symm
        | true =>
            rw [hloop, Hardware.closeWave_loop] at hlog
            rcases Hardware.stopHardware_writes c.motor.toHardware hlog hok with
              ⟨hwrites, hstopped⟩
            -- a pending loop has `active_` set, so its closing stop is written
            have hactive : c.motor.active = true := harmed hpending hloop
            rw [hactive] at hwrites
            refine Or.inr (Or.inr ⟨hwait, hlast, ?_, hwrites⟩)
            rw [Hardware.closeWave_loop, hstopped]

/-! ## Stop commands over a run -/

/-- Whether the request is a `ram_loop`. -/
def Request.isLoop (r : Request κ) : Bool :=
  match r.work with
  | .wave _ level => decide (level < 0)
  | .composition _ => false

theorem Carries.isLoop {r : Request κ} {s : Schedule κ} (h : Carries r s) :
    s.continuous = r.isLoop := by
  rcases r with ⟨accepted, work, complete⟩
  cases work with
  | wave milliseconds level => exact h.2.2.2.1
  | composition taps => exact h.2.2.2.1

def Event.stops (e : Event κ) : Nat := e.writes.countP Write.isStop

/-- How many stop commands a step writes, given what happened before it and whether `active_` is
set. -/
def StopsExactly (past : List (Event κ)) (active : Bool) (e : Event κ) : Prop :=
  match e with
  | .stop _ _ => e.stops = if active then 1 else 0
  | .destroy _ => e.stops = if active then 1 else 0
  | .compose _ taps _ _ _ =>
      e.stops =
        if Motor.ComposeAccepts taps ∧ active = true ∧
            ((Motor.firstTap taps).delayMs > 0 ∨ (Motor.firstTap taps).gain = 0) then 1
        else 0
  | .expire _ _ _ _ =>
      ∃ i r, InForce past i r ∧ (r.isLoop = true → e.finishes = true) ∧
        e.stops = if r.isLoop = true then 1 else 0
  | _ => e.stops = 0

@[simp] theorem countP_tapWrites (tap : Tap) : (tapWrites tap).countP Write.isStop = 0 := by
  by_cases hgain : tap.gain = 0
  · simp [tapWrites, hgain]
  · simp [tapWrites, hgain, Write.isStop]

@[simp] theorem countP_leadingStop (active : Bool) (tap : Tap) :
    (leadingStop active tap).countP Write.isStop =
      if active = true ∧ (tap.delayMs > 0 ∨ tap.gain = 0) then 1 else 0 := by
  by_cases hstop : active = true ∧ (tap.delayMs > 0 ∨ tap.gain = 0)
  · simp [leadingStop, hstop]
  · simp [leadingStop, hstop]

theorem Motor.waveNode_ne_enable (level : Int) : waveNode level ≠ .enable := by
  by_cases hlevel : level < 0
  · simp [waveNode, hlevel]
  · simp [waveNode, hlevel]

theorem Step.stopsExactly {c₀ : Config κ σ} {h : List (Event κ)} (horigin : Origin w c₀)
    (hrun : Run (Step w) c₀ h c) (hstep : Step w c e c') (hok : e.Succeeds) :
    StopsExactly h c.motor.active e := by
  have hscheduled := horigin.wellScheduled.run hrun
  cases e with
  | play now milliseconds level gain complete returned writes =>
      have hwrites := (hstep.playWrites hok).2
      have hnode := Motor.waveNode_ne_enable level
      by_cases hacc : Motor.PlayAccepts milliseconds level gain
      · simp [StopsExactly, Event.stops, Event.writes, hwrites, hacc, Write.isStop, hnode]
      · simp [StopsExactly, Event.stops, Event.writes, hwrites, hacc]
  | setAmplitude amplitude returned writes =>
      cases hstep with
      | setAmplitude _ hset hlog =>
          cases hset
          have hwrites := List.append_cancel_left hlog
          simp [StopsExactly, Event.stops, Event.writes, ← hwrites, Write.isStop]
  | compose now taps complete returned writes =>
      have hwrites := (hstep.composeWrites hok).2
      by_cases hacc : Motor.ComposeAccepts taps
      · by_cases hdelay : (Motor.firstTap taps).delayMs > 0
        · simp [StopsExactly, Event.stops, Event.writes, hwrites, hacc, hdelay]
        · simp [StopsExactly, Event.stops, Event.writes, hwrites, hacc, hdelay]
      · simp [StopsExactly, Event.stops, Event.writes, hwrites, hacc]
  | stop returned writes =>
      cases hstep with
      | stop _ hstop hlog =>
          cases hstop
          have hwrites := (Hardware.stopHardware_writes c.motor.toHardware hlog hok).1
          cases hactive : c.motor.active with
          | true => simp [StopsExactly, Event.stops, Event.writes, hwrites, hactive]
          | false => simp [StopsExactly, Event.stops, Event.writes, hwrites, hactive]
  | destroy writes =>
      cases hstep with
      | destroy _ hdestroy hlog =>
          cases hdestroy
          have hwrites := (Hardware.stopHardware_writes c.motor.toHardware hlog hok).1
          cases hactive : c.motor.active with
          | true => simp [StopsExactly, Event.stops, Event.writes, hwrites, hactive]
          | false => simp [StopsExactly, Event.stops, Event.writes, hwrites, hactive]
  | expire t now outcome writes =>
      have hpending : c.motor.pending = true := by
        cases hstep with
        | expire _ _ _ hlive _ _ _ => exact (not_superseded hlive).2.1
      -- the request in force tells whether the expiry closes a loop
      rcases inForce_of_pending horigin hrun hpending with ⟨i, r, hforce, hcarries⟩
      have hloop := hcarries.isLoop
      refine ⟨i, r, hforce, ?_⟩
      rcases hstep.expireWrites hok hscheduled (armed_of_run horigin hrun)
        (rested_of_run horigin hrun) with
        ⟨hwait, rfl, rfl⟩ | ⟨_, hnext, rfl, rfl⟩ | ⟨_, _, rfl, rfl⟩
      · have hfinite := (hscheduled.waiting hpending hwait).2
        rw [hfinite] at hloop
        simp [← hloop, Event.stops, Event.writes]
      · have hfinite := hscheduled.next hpending hnext
        rw [hfinite] at hloop
        simp [← hloop, Event.stops, Event.writes]
      · refine ⟨fun _ => rfl, ?_⟩
        rw [← hloop]
        by_cases hcontinuous : c.motor.continuous = true
        · simp [Event.stops, Event.writes, hcontinuous]
        · simp [Event.stops, Event.writes, hcontinuous]
  | _ => rfl

/-- A call that asks for nothing but finite waves, or a step of the worker. -/
def Event.OnlyFinite (e : Event κ) : Prop :=
  e.isWorker = true ∨ (∃ amplitude returned writes, e = .setAmplitude amplitude returned writes) ∨
    ∃ now milliseconds level gain complete returned writes,
      0 ≤ level ∧ e = .play now milliseconds level gain complete returned writes

/-- The worker writes a stop command only at the deadline of a loop. -/
theorem StopsExactly.worker {past : List (Event κ)} {active : Bool}
    (h : StopsExactly past active e) (hworker : e.isWorker = true)
    (hfinite : ∀ i r, InForce past i r → r.isLoop = false) : e.stops = 0 := by
  cases e with
  | expire t now outcome writes =>
      rcases h with ⟨i, r, hforce, _, hstops⟩
      simpa [hfinite i r hforce] using hstops
  | resume => rfl
  | wake t => rfl
  | early t => rfl
  | invoke callback => rfl
  | _ => cases hworker

theorem Event.request?_of_isWorker (h : e.isWorker = true) : e.request? = none := by
  cases e with
  | play _ _ _ _ _ _ _ => cases h
  | compose _ _ _ _ _ => cases h
  | _ => rfl

theorem Event.OnlyFinite.isLoop (h : e.OnlyFinite) {r : Request κ} (hr : e.request? = some r) :
    r.isLoop = false := by
  rcases h with hworker | ⟨_, _, _, rfl⟩ | ⟨now, milliseconds, level, gain, complete, returned, _,
    hlevel, rfl⟩
  · rw [Event.request?_of_isWorker hworker] at hr
    cases hr
  · cases hr
  · cases returned with
    | true =>
        cases hr
        simpa [Request.isLoop] using hlevel
    | false => cases hr

/-- **Finite waves are never cut short.**  On a device that takes every write, the stop commands of
a run are exactly one at the deadline of each loop in force, one at each `stop()` and destruction
that finds `active_` set, and one at each accepted `compose()` that finds it set and whose first
tap is delayed or silent.  The worker writes none unless a loop is in force, and a run of finite
waves has none at all. -/
theorem stop_writes_exact {c₀ : Config κ σ} {h : List (Event κ)} (horigin : Origin w c₀)
    (hrun : Run (Step w) c₀ h c) (hok : ∀ x ∈ h, x.Succeeds) :
    (∀ k x, h[k]? = some x →
      ∃ c₁, Run (Step w) c₀ (h.take k) c₁ ∧ StopsExactly (h.take k) c₁.motor.active x) ∧
    (∀ k x, h[k]? = some x → x.isWorker = true →
      (∀ i r, InForce (h.take k) i r → r.isLoop = false) → x.stops = 0) ∧
    ((∀ x ∈ h, x.OnlyFinite) → ∀ x ∈ h, x.stops = 0) := by
  have hexact : ∀ k x, h[k]? = some x →
      ∃ c₁, Run (Step w) c₀ (h.take k) c₁ ∧ StopsExactly (h.take k) c₁.motor.active x := by
    intro k x hk
    rcases hrun.atIndex hk with ⟨c₁, c₂, hpre, hstep, _⟩
    exact ⟨c₁, hpre, hstep.stopsExactly horigin hpre (hok x (List.mem_of_getElem? hk))⟩
  refine ⟨hexact, ?_, ?_⟩
  · intro k x hk hworker hfinite
    rcases hexact k x hk with ⟨c₁, _, hstops⟩
    exact hstops.worker hworker hfinite
  · intro honly x hx
    rcases List.getElem?_of_mem hx with ⟨k, hk⟩
    rcases hexact k x hk with ⟨c₁, _, hstops⟩
    rcases honly x hx with hworker | ⟨_, _, _, rfl⟩ | ⟨_, _, _, _, _, _, _, _, rfl⟩
    · refine hstops.worker hworker ?_
      -- whatever is in force was asked for by one of the calls of the run
      rintro i r ⟨y, hlatest, hr⟩
      have hy := List.mem_of_getElem? (getElem?_of_take hlatest.1).2
      exact (honly y hy).isLoop hr
    · exact hstops
    · exact hstops

/-- A loop of 5 ms, up to its deadline. -/
def loopHistory : List (Event Unit) :=
  [.play 0 5 (-1) 64 (some ()) true [⟨.ramLoop, "64", true⟩, ⟨.gain, "64", true⟩],
    .resume,
    .expire 5000000 5000000 (.finished true false (some ())) [⟨.enable, "0", true⟩]]

theorem stop_writes_exact_loop :
    ∃ c, Run (Step willingWriter) (Config.initialized willingWriter 0 ()) (loopHistory.take 2) c ∧
      StopsExactly (loopHistory.take 2) c.motor.active
        (.expire 5000000 5000000 (.finished true false (some ())) [⟨.enable, "0", true⟩]) := by
  have hrun : ∃ c,
      Run (Step willingWriter) (Config.initialized willingWriter 0 ()) loopHistory c :=
    ⟨_, Run.cons (Step.play rfl (by decide) rfl (by decide))
      (Run.cons (Step.resume (Or.inl rfl))
        (Run.cons (Step.expire rfl (by decide) (by decide) (by decide) (by decide) rfl rfl)
          Run.nil))⟩
  have hok : ∀ x ∈ loopHistory, x.Succeeds := by
    simp [loopHistory, Event.Succeeds, Event.writes]
  rcases hrun with ⟨c, hrun⟩
  exact (stop_writes_exact ⟨0, (), Or.inr rfl⟩ hrun hok).1 2 _ rfl

end Vibrator
end M2391Device
