import M2391Device.Vibrator.Interleaving

/-!
# MotorLemmas — what each member function does, stated once

Each call is described by the ways it can end, with the schedule it leaves and the hardware routine
it runs (`play_cases`, `compose_cases`, `stop_eq`, `expire_cases`).  The hardware routines have their own
lemmas, with the writes they attempt.  Later proofs use these and never unfold a member function.
-/

namespace M2391Device
namespace Vibrator

universe u v

variable {κ : Type u} {σ : Type v} (w : Writer σ)

/-! ## Hardware routines -/

namespace Hardware

variable (hw : Hardware σ)

/-- The stop command, with its outcome. -/
def stopWrite (ok : Bool) : Write := ⟨.enable, "0", ok⟩

@[simp] theorem isStop_stopWrite (ok : Bool) : (stopWrite ok).isStop = true := rfl

@[simp] theorem write_active (node : Node) (value : String) :
    (hw.write w node value).2.active = hw.active := rfl

@[simp] theorem write_device (node : Node) (value : String) :
    (hw.write w node value).2.device = (w hw.device node value).2 := rfl

@[simp] theorem write_log (node : Node) (value : String) :
    (hw.write w node value).2.log = hw.log ++ [⟨node, value, (hw.write w node value).1⟩] := rfl

theorem stopHardware_inactive (h : hw.active = false) : hw.stopHardware w = (true, hw) := by
  simp [stopHardware, h]

theorem stopHardware_active (h : hw.active = true) :
    hw.stopHardware w =
      ((hw.write w .enable "0").1,
        { (hw.write w .enable "0").2 with active := !(hw.write w .enable "0").1 }) := by
  rcases hw with ⟨active, device, log⟩
  have hactive : active = true := h
  subst hactive
  cases hok : (w device .enable "0").1 with
  | true =>
      simp [stopHardware, write, hok]
  | false =>
      simp [stopHardware, write, hok]

/-- `stopHardware` attempts the stop command exactly when `active_` holds. -/
theorem stopHardware_log :
    (hw.stopHardware w).2.log =
      hw.log ++ if hw.active then [stopWrite (hw.stopHardware w).1] else [] := by
  cases h : hw.active with
  | true =>
      simp [stopHardware_active w hw h, stopWrite]
  | false =>
      simp [stopHardware_inactive w hw h]

/-- After `stopHardware`, `active_` says whether it failed. -/
theorem stopHardware_active_eq : (hw.stopHardware w).2.active = !(hw.stopHardware w).1 := by
  cases h : hw.active with
  | true =>
      simp [stopHardware_active w hw h]
  | false =>
      simp [stopHardware_inactive w hw h, h]

/-- `stopHardware` can fail only where it writes. -/
theorem active_of_stopHardware_failed (h : (hw.stopHardware w).1 = false) : hw.active = true := by
  cases hactive : hw.active with
  | true => rfl
  | false =>
      rw [stopHardware_inactive w hw hactive] at h
      cases h

/-- The writes that a start attempts: the gain follows only a successful start. -/
def startWrites (node : Node) (value : String) (gain : Int) (started ok : Bool) : List Write :=
  if started then [⟨node, value, true⟩, ⟨.gain, toString gain, ok⟩] else [⟨node, value, false⟩]

theorem startThenGain_cases (node : Node) (value : String) (gain : Int) :
    ((hw.write w node value).1 = true ∧
        startThenGain w node value gain hw =
          (hw.write w node value).2.write w .gain (toString gain)) ∨
      ((hw.write w node value).1 = false ∧
        startThenGain w node value gain hw = (false, (hw.write w node value).2)) := by
  cases hok : (hw.write w node value).1 with
  | true => exact Or.inl ⟨rfl, by simp [startThenGain, hok]⟩
  | false => exact Or.inr ⟨rfl, by simp [startThenGain, hok]⟩

@[simp] theorem startThenGain_active (node : Node) (value : String) (gain : Int) :
    (startThenGain w node value gain hw).2.active = hw.active := by
  rcases startThenGain_cases w hw node value gain with ⟨_, h⟩ | ⟨_, h⟩ <;> simp [h]

theorem startThenGain_log (node : Node) (value : String) (gain : Int) :
    ∃ started, ((startThenGain w node value gain hw).1 = true → started = true) ∧
      (startThenGain w node value gain hw).2.log =
        hw.log ++
          startWrites node value gain started (startThenGain w node value gain hw).1 := by
  rcases startThenGain_cases w hw node value gain with ⟨hok, h⟩ | ⟨hok, h⟩
  · refine ⟨true, fun _ => rfl, ?_⟩
    simp [h, hok, startWrites]
  · refine ⟨false, ?_, ?_⟩
    · simp [h]
    · simp [h, hok, startWrites]

theorem fireTap_silent {tap : Tap} (h : tap.gain = 0) :
    fireTap w tap hw = hw.stopHardware w := by
  simp [fireTap, h]

theorem fireTap_audible {tap : Tap} (h : tap.gain ≠ 0) :
    fireTap w tap hw =
      startThenGain w .setMback (toString tap.level ++ " 1") tap.gain
        { hw with active := true } := by
  simp [fireTap, h]

/-- A tap that fails to start leaves `active_` set, so that its clean-up writes the stop command. -/
theorem fireTap_failed_active {tap : Tap} (h : (fireTap w tap hw).1 = false) :
    (fireTap w tap hw).2.active = true := by
  by_cases hgain : tap.gain = 0
  · rw [fireTap_silent w hw hgain] at h ⊢
    rw [stopHardware_active_eq, h]
    rfl
  · rw [fireTap_audible w hw hgain, startThenGain_active]

theorem closeWave_finite (stopped : Bool) :
    closeWave w false stopped hw =
      (stopped, if stopped then { hw with active := false } else hw) := by
  cases stopped <;> simp [closeWave]

theorem closeWave_failed (continuous : Bool) : closeWave w continuous false hw = (false, hw) := by
  simp [closeWave]

/-- A loop is closed by `stopHardware`, after which clearing `active_` once more changes nothing. -/
theorem closeWave_loop : closeWave w true true hw = hw.stopHardware w := by
  have hactive := stopHardware_active_eq w hw
  cases hok : (hw.stopHardware w).1 with
  | true =>
      -- the stop has cleared `active_` already
      have hcleared : (hw.stopHardware w).2.active = false := by simp [hactive, hok]
      simp only [closeWave, hok, if_true, Bool.not_true, Bool.false_eq_true, if_false]
      rw [← hcleared, ← hok]
  | false =>
      simp only [closeWave, hok, if_true, Bool.not_true, Bool.false_eq_true, if_false]
      rw [← hok]

/-- After the stop that follows a failed delayed tap, `closeWave` has nothing left to do. -/
theorem closeWave_stopHardware (continuous : Bool) :
    (hw.stopHardware w).2.closeWave w continuous (hw.stopHardware w).1 = hw.stopHardware w := by
  have hactive := stopHardware_active_eq w hw
  cases hok : (hw.stopHardware w).1 with
  | false =>
      rw [closeWave_failed, ← hok]
  | true =>
      -- a loop is stopped a second time, but by then `active_` is off and nothing is written
      have hcleared : (hw.stopHardware w).2.active = false := by simp [hactive, hok]
      cases continuous with
      | false =>
          rw [closeWave_finite, if_pos rfl, ← hcleared, ← hok]
      | true =>
          rw [closeWave_loop, stopHardware_inactive w _ hcleared, ← hok]

/-- A start followed by the clean-up of a failure: `if (!start) stopHardware();`. -/
def orStop (r : Bool × Hardware σ) : Bool × Hardware σ :=
  if r.1 then r else (false, (r.2.stopHardware w).2)

@[simp] theorem orStop_fst (r : Bool × Hardware σ) : (orStop w r).1 = r.1 := by
  cases h : r.1 <;> simp [orStop, h]

end Hardware

/-! ## What a call leaves in the schedule -/

namespace Schedule

variable (s : Schedule κ)

/-- A request has been accepted: it is pending until its deadline, and the worker is notified. -/
def accept (deadline : Int) (complete : Option κ) : Schedule κ :=
  { s with deadline := deadline, callback := complete, pending := true, changed := true }

/-- A request failed to start. -/
def abandon : Schedule κ := { s with taps := [], changed := true }

/-- The worker has started the current tap and waits for its duration. -/
def tapStarted (deadline : Int) : Schedule κ :=
  { s with waitingForTap := false, deadline := deadline }

/-- The worker has finished a tap and waits for the delay of the next one. -/
def nextTap (deadline : Int) : Schedule κ :=
  { s with tapIndex := s.tapIndex + 1, waitingForTap := true, deadline := deadline }

/-- The worker has finished the request; `tapIndex_` is stale from here on. -/
def finish (index : Nat) : Schedule κ :=
  { s with
    waitingForTap := false
    tapIndex := index
    taps := []
    pending := false
    callback := none }

end Schedule

namespace Motor

variable (m : Motor κ σ)

/-- The start control that `play` writes. -/
def waveNode (level : Int) : Node := if level < 0 then .ramLoop else .setMback

def waveValue (level gain : Int) : String :=
  if level < 0 then toString gain else toString level ++ " 1"

/-- The hardware routine of `play`: the two start writes, and the clean-up when one fails. -/
def playHardware (level gain : Int) (hw : Hardware σ) : Bool × Hardware σ :=
  Hardware.orStop w
    (Hardware.startThenGain w (waveNode level) (waveValue level gain) gain
      { hw with active := true })

theorem play_rejected {milliseconds level gain : Int} (now : Int) (complete : Option κ)
    (h : ¬ PlayAccepts milliseconds level gain) :
    m.play w now milliseconds level gain complete = (false, m) := by
  simp [play, h]

theorem play_eq {milliseconds level gain : Int} (now : Int) (complete : Option κ)
    (h : PlayAccepts milliseconds level gain) :
    m.play w now milliseconds level gain complete =
      let r := playHardware w level gain m.toHardware
      (r.1,
        ⟨if r.1 then (m.beginPlay level).toSchedule.accept (now + millis milliseconds) complete
          else (m.beginPlay level).toSchedule.abandon, r.2⟩) := by
  -- both start writes are chosen by `continuous_`, which `beginPlay` has just set
  have hnode : (if (m.beginPlay level).continuous then Node.ramLoop else .setMback) =
      waveNode level := by
    simp [beginPlay, waveNode]
  have hvalue : (if (m.beginPlay level).continuous then toString gain
      else toString level ++ " 1") = waveValue level gain := by
    simp [beginPlay, waveValue]
  have hstart : (m.beginPlay level).startWave w level gain =
      (m.beginPlay level).onHardware
        (Hardware.startThenGain w (waveNode level) (waveValue level gain) gain) := by
    rw [startWave, hnode, hvalue]
  have hbegun : (m.beginPlay level).toHardware = { m.toHardware with active := true } := rfl
  rw [play, if_pos h, hstart, onHardware, hbegun, playHardware]
  rcases Hardware.startThenGain w (waveNode level) (waveValue level gain) gain
      { m.toHardware with active := true } with ⟨ok, hw⟩
  cases ok with
  | true => rfl
  | false => rfl

/-- A call that got past its argument checks ends with its hardware routine `r`. -/
theorem request_cases {r : Bool × Hardware σ} {accepted abandoned : Schedule κ} {returned : Bool}
    {m' : Motor κ σ}
    (h : (r.1, (⟨if r.1 then accepted else abandoned, r.2⟩ : Motor κ σ)) = (returned, m')) :
    (returned = false ∧ r.1 = false ∧ m' = ⟨abandoned, r.2⟩) ∨
      (returned = true ∧ r.1 = true ∧ m' = ⟨accepted, r.2⟩) := by
  cases hok : r.1 with
  | true =>
      simp only [hok, if_true] at h
      cases h
      exact Or.inr ⟨rfl, rfl, rfl⟩
  | false =>
      simp only [hok, Bool.false_eq_true, if_false] at h
      cases h
      exact Or.inl ⟨rfl, rfl, rfl⟩

/-- The three ways a call of `play` can end. -/
theorem play_cases {now : Int} {milliseconds level gain : Int} {complete : Option κ}
    {returned : Bool} {m' : Motor κ σ}
    (h : m.play w now milliseconds level gain complete = (returned, m')) :
    (¬ PlayAccepts milliseconds level gain ∧ returned = false ∧ m' = m) ∨
      (PlayAccepts milliseconds level gain ∧ returned = false ∧
        (playHardware w level gain m.toHardware).1 = false ∧
        m' = ⟨(m.beginPlay level).toSchedule.abandon,
          (playHardware w level gain m.toHardware).2⟩) ∨
      (PlayAccepts milliseconds level gain ∧ returned = true ∧
        (playHardware w level gain m.toHardware).1 = true ∧
        m' = ⟨(m.beginPlay level).toSchedule.accept (now + millis milliseconds) complete,
          (playHardware w level gain m.toHardware).2⟩) := by
  by_cases hacc : PlayAccepts milliseconds level gain
  · rw [play_eq w m now complete hacc] at h
    rcases request_cases h with hfailed | hstarted
    · exact Or.inr (Or.inl ⟨hacc, hfailed⟩)
    · exact Or.inr (Or.inr ⟨hacc, hstarted⟩)
  · rw [play_rejected w m now complete hacc] at h
    cases h
    exact Or.inl ⟨hacc, rfl, rfl⟩

/-- The first tap of an accepted composition. -/
def firstTap (taps : List Tap) : Tap := taps.getD 0 ⟨0, 0, 0, 0⟩

/-- How long the first phase of a composition lasts. -/
def firstWait (tap : Tap) : Int := if tap.delayMs > 0 then tap.delayMs else tap.durationMs

/-- The hardware routine of `compose`: stop for a delayed first tap, else start that tap. -/
def composeHardware (tap : Tap) (hw : Hardware σ) : Bool × Hardware σ :=
  if tap.delayMs > 0 then hw.stopHardware w else Hardware.orStop w (hw.fireTap w tap)

theorem compose_rejected {taps : List Tap} (now : Int) (complete : Option κ)
    (h : ¬ ComposeAccepts taps) : m.compose w now taps complete = (false, m) := by
  simp [compose, h]

theorem compose_eq {taps : List Tap} (now : Int) (complete : Option κ)
    (h : ComposeAccepts taps) :
    m.compose w now taps complete =
      let r := composeHardware w (firstTap taps) m.toHardware
      (r.1,
        ⟨if r.1 then
            (m.beginCompose taps).toSchedule.accept
              (now + millis (firstWait (firstTap taps))) complete
          else (m.beginCompose taps).toSchedule.abandon, r.2⟩) := by
  have htap : (m.beginCompose taps).currentTap = firstTap taps := rfl
  have hbegun : (m.beginCompose taps).toHardware = m.toHardware := rfl
  have hwait : (m.beginCompose taps).waitingForTap = decide ((firstTap taps).delayMs > 0) := rfl
  simp only [compose, h, if_true, startComposition, hwait, composeHardware, firstWait]
  -- the two ways to begin a composition run different hardware routines
  by_cases hdelay : (firstTap taps).delayMs > 0
  · simp only [hdelay, decide_true, if_true, stopHardware, onHardware, hbegun]
    rcases m.toHardware.stopHardware w with ⟨ok, hw⟩
    cases ok with
    | true => rfl
    | false => rfl
  · simp only [hdelay, decide_false, Bool.false_eq_true, if_false, startTap, onHardware, htap,
      hbegun, Hardware.orStop]
    rcases Hardware.fireTap w (firstTap taps) m.toHardware with ⟨ok, hw⟩
    cases ok with
    | true => rfl
    | false => rfl

/-- The three ways a call of `compose` can end. -/
theorem compose_cases {now : Int} {taps : List Tap} {complete : Option κ}
    {returned : Bool} {m' : Motor κ σ}
    (h : m.compose w now taps complete = (returned, m')) :
    (¬ ComposeAccepts taps ∧ returned = false ∧ m' = m) ∨
      (ComposeAccepts taps ∧ returned = false ∧
        (composeHardware w (firstTap taps) m.toHardware).1 = false ∧
        m' = ⟨(m.beginCompose taps).toSchedule.abandon,
          (composeHardware w (firstTap taps) m.toHardware).2⟩) ∨
      (ComposeAccepts taps ∧ returned = true ∧
        (composeHardware w (firstTap taps) m.toHardware).1 = true ∧
        m' = ⟨(m.beginCompose taps).toSchedule.accept
            (now + millis (firstWait (firstTap taps))) complete,
          (composeHardware w (firstTap taps) m.toHardware).2⟩) := by
  by_cases hacc : ComposeAccepts taps
  · rw [compose_eq w m now complete hacc] at h
    rcases request_cases h with hfailed | hstarted
    · exact Or.inr (Or.inl ⟨hacc, hfailed⟩)
    · exact Or.inr (Or.inr ⟨hacc, hstarted⟩)
  · rw [compose_rejected w m now complete hacc] at h
    cases h
    exact Or.inl ⟨hacc, rfl, rfl⟩

theorem stop_eq :
    m.stop w =
      let r := m.toHardware.stopHardware w
      (r.1, ⟨{ m.beginStop.toSchedule with changed := true }, r.2⟩) := rfl

/-! ## What an expiry leaves -/

theorem expire_started (now : Int) (hwait : m.waitingForTap = true)
    (hok : (m.toHardware.fireTap w m.currentTap).1 = true) :
    m.expire w now =
      (.tapStarted m.tapIndex,
        ⟨m.toSchedule.tapStarted (now + millis m.currentTap.durationMs),
          (m.toHardware.fireTap w m.currentTap).2⟩) := by
  have htap : ({ m with waitingForTap := false } : Motor κ σ).currentTap = m.currentTap := rfl
  simp only [expire, hwait, if_true, startTap, htap, onHardware, hok]
  rfl

theorem expire_failed (now : Int) (hwait : m.waitingForTap = true)
    (hok : (m.toHardware.fireTap w m.currentTap).1 = false) :
    m.expire w now =
      let q := (m.toHardware.fireTap w m.currentTap).2.stopHardware w
      (.finished q.1 true m.callback, ⟨m.toSchedule.finish m.tapIndex, q.2⟩) := by
  have htap : ({ m with waitingForTap := false } : Motor κ σ).currentTap = m.currentTap := rfl
  have hclose := Hardware.closeWave_stopHardware w (m.toHardware.fireTap w m.currentTap).2
    m.continuous
  -- the taps are gone before the test for a next one
  simp only [expire, hwait, if_true, startTap, htap, onHardware, hok, stopHardware, nextPhase,
    ne_eq, not_true_eq_false, false_and, if_false, hclose]
  rfl

theorem expire_next (now : Int) (hwait : m.waitingForTap = false)
    (hnext : m.tapIndex + 1 < m.taps.length) :
    m.expire w now =
      let q := m.toHardware.closeWave w m.continuous true
      (.nextTap (m.tapIndex + 1),
        ⟨m.toSchedule.nextTap
          (now + millis (m.taps.getD (m.tapIndex + 1) ⟨0, 0, 0, 0⟩).delayMs), q.2⟩) := by
  have htaps : m.taps ≠ [] := by
    intro hnil
    simp [hnil] at hnext
  simp [expire, hwait, nextPhase, htaps, hnext, onHardware, Schedule.nextTap, currentTap]

theorem expire_last (now : Int) (hwait : m.waitingForTap = false)
    (hlast : ¬ m.tapIndex + 1 < m.taps.length) :
    ∃ index,
      m.expire w now =
        let q := m.toHardware.closeWave w m.continuous true
        (.finished q.1 false m.callback, ⟨m.toSchedule.finish index, q.2⟩) := by
  -- the two cases leave different indices, which nothing reads again
  by_cases htaps : m.taps = []
  · refine ⟨m.tapIndex, ?_⟩
    simp [expire, hwait, nextPhase, htaps, onHardware, Schedule.finish]
  · refine ⟨m.tapIndex + 1, ?_⟩
    simp [expire, hwait, nextPhase, htaps, hlast, onHardware, Schedule.finish]

/-- The four ways an expiry can end. -/
theorem expire_cases (now : Int) {outcome : Expiry κ} {m' : Motor κ σ}
    (h : m.expire w now = (outcome, m')) :
    (m.waitingForTap = true ∧ (m.toHardware.fireTap w m.currentTap).1 = true ∧
        outcome = .tapStarted m.tapIndex ∧
        m' = ⟨m.toSchedule.tapStarted (now + millis m.currentTap.durationMs),
          (m.toHardware.fireTap w m.currentTap).2⟩) ∨
      (m.waitingForTap = true ∧ (m.toHardware.fireTap w m.currentTap).1 = false ∧
        outcome = .finished ((m.toHardware.fireTap w m.currentTap).2.stopHardware w).1 true
          m.callback ∧
        m' = ⟨m.toSchedule.finish m.tapIndex,
          ((m.toHardware.fireTap w m.currentTap).2.stopHardware w).2⟩) ∨
      (m.waitingForTap = false ∧ m.tapIndex + 1 < m.taps.length ∧
        outcome = .nextTap (m.tapIndex + 1) ∧
        m' = ⟨m.toSchedule.nextTap
          (now + millis (m.taps.getD (m.tapIndex + 1) ⟨0, 0, 0, 0⟩).delayMs),
            (m.toHardware.closeWave w m.continuous true).2⟩) ∨
      (m.waitingForTap = false ∧ ¬ m.tapIndex + 1 < m.taps.length ∧ ∃ index,
        outcome = .finished (m.toHardware.closeWave w m.continuous true).1 false m.callback ∧
        m' = ⟨m.toSchedule.finish index, (m.toHardware.closeWave w m.continuous true).2⟩) := by
  cases hwait : m.waitingForTap with
  | true =>
      cases hok : (m.toHardware.fireTap w m.currentTap).1 with
      | true =>
          rw [expire_started w m now hwait hok] at h
          cases h
          exact Or.inl ⟨rfl, rfl, rfl, rfl⟩
      | false =>
          rw [expire_failed w m now hwait hok] at h
          cases h
          exact Or.inr (Or.inl ⟨rfl, rfl, rfl, rfl⟩)
  | false =>
      by_cases hnext : m.tapIndex + 1 < m.taps.length
      · rw [expire_next w m now hwait hnext] at h
        cases h
        exact Or.inr (Or.inr (Or.inl ⟨rfl, hnext, rfl, rfl⟩))
      · rcases expire_last w m now hwait hnext with ⟨index, heq⟩
        rw [heq] at h
        cases h
        exact Or.inr (Or.inr (Or.inr ⟨rfl, hnext, index, rfl, rfl⟩))

end Motor

end Vibrator
end M2391Device
