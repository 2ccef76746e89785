import M2391Device.Vibrator.Completion

/-!
# Subscripts — `taps_` is never indexed outside its bounds

The subscripts of `taps_` are unchecked in the source.  Here the member functions that use one are
written once more with a subscript that traps; in every reachable state none of them does
(`startTap_in_range`), although `stop()` and failed compositions leave `waitingForTap_` and
`tapIndex_` stale.
-/

namespace M2391Device
namespace Vibrator

open Transition

universe u v

variable {κ : Type u} {σ : Type v} {w : Writer σ}

/-! ## Member functions that trap -/

namespace Motor

variable (w : Writer σ) (now : Int)

/-- `startTap()` -/
def startTap? (m : Motor κ σ) : Option (Bool × Motor κ σ) :=
  m.taps[m.tapIndex]?.map fun tap =>
    match m.onHardware (Hardware.fireTap w tap) with
    | (true, m') => (true, { m' with deadline := now + millis tap.durationMs })
    | (false, m') => (false, m')

/-- What `compose` sets under the lock; it reads `taps_[0]`. -/
def beginCompose? (taps : List Tap) (m : Motor κ σ) : Option (Motor κ σ) :=
  let m := { m with
    generation := m.generation + 1
    pending := false
    callback := none
    taps := taps
    tapIndex := 0
    continuous := false }
  m.taps[0]?.map fun (tap : Tap) => { m with waitingForTap := decide (tap.delayMs > 0) }

/-- The first phase of a composition, which reads `taps_[0]` or calls `startTap()`. -/
def startComposition? (m : Motor κ σ) : Option (Bool × Motor κ σ) :=
  if m.waitingForTap then
    match m.stopHardware w with
    | (false, m) => some (false, m)
    | (true, m) =>
        m.taps[0]?.map fun tap => (true, { m with deadline := now + millis tap.delayMs })
  else
    (m.startTap? w now).map fun (started, m) =>
      if started then (true, m) else (false, (m.stopHardware w).2)

/-- `compose(taps, complete)` -/
def compose? (taps : List Tap) (complete : Option κ) (m : Motor κ σ) :
    Option (Bool × Motor κ σ) :=
  if ComposeAccepts taps then
    (m.beginCompose? taps).bind fun m =>
      (m.startComposition? w now).map fun (started, m) =>
        if started then (true, { m with callback := complete, pending := true }.notifyAll)
        else (false, { m with taps := [] }.notifyAll)
  else some (false, m)

/-- The end of an expiry, which reads `taps_[tapIndex_]` for the next delay. -/
def nextPhase? (stopped tapFailed : Bool) (m : Motor κ σ) : Option (Expiry κ × Motor κ σ) :=
  let m := if m.taps = [] then m else { m with tapIndex := m.tapIndex + 1 }
  if m.taps ≠ [] ∧ m.tapIndex < m.taps.length then
    m.taps[m.tapIndex]?.map fun tap =>
      (.nextTap m.tapIndex,
        { m with waitingForTap := true, deadline := now + millis tap.delayMs })
  else
    some (.finished stopped tapFailed m.callback,
      { m with taps := [], pending := false, callback := none })

/-- One pass of `loop()` from the expiry of the timed wait on. -/
def expire? (m : Motor κ σ) : Option (Expiry κ × Motor κ σ) :=
  if m.waitingForTap then
    ({ m with waitingForTap := false }.startTap? w now).bind fun (started, m) =>
      if started then some (.tapStarted m.tapIndex, m)
      else
        let (stopped, m) := m.stopHardware w
        let m := { m with taps := [] }
        let (stopped, m) := m.onHardware (Hardware.closeWave w m.continuous stopped)
        m.nextPhase? now stopped true
  else
    let (stopped, m) := m.onHardware (Hardware.closeWave w m.continuous true)
    m.nextPhase? now stopped false

/-! ## No trap -/

variable {w now} {m : Motor κ σ}

theorem getElem?_currentTap (h : m.tapIndex < m.taps.length) :
    m.taps[m.tapIndex]? = some m.currentTap := by
  rw [currentTap, List.getD_eq_getElem?_getD, List.getElem?_eq_getElem h]
  rfl

theorem startTap?_eq (h : m.tapIndex < m.taps.length) :
    m.startTap? w now = some (m.startTap w now) := by
  rw [startTap?, getElem?_currentTap h]
  rfl

/-- The subscript behind the check of the index is in bounds anyway. -/
theorem nextPhase?_eq (stopped tapFailed : Bool) :
    m.nextPhase? now stopped tapFailed = some (m.nextPhase now stopped tapFailed) := by
  rw [nextPhase?, nextPhase]
  generalize (if m.taps = [] then m else { m with tapIndex := m.tapIndex + 1 }) = m'
  by_cases hnext : m'.taps ≠ [] ∧ m'.tapIndex < m'.taps.length
  · rw [if_pos hnext, if_pos hnext, getElem?_currentTap hnext.2]
    rfl
  · rw [if_neg hnext, if_neg hnext]

theorem beginCompose?_eq {taps : List Tap} (h : taps ≠ []) :
    m.beginCompose? taps = some (m.beginCompose taps) := by
  have hfirst : taps[0]? = some (taps.getD 0 ⟨0, 0, 0, 0⟩) := by
    rw [List.getD_eq_getElem?_getD, List.getElem?_eq_getElem (List.length_pos_of_ne_nil h)]
    rfl
  rw [beginCompose?, hfirst]
  rfl

theorem startComposition?_eq (hindex : m.tapIndex = 0) (h : m.taps ≠ []) :
    m.startComposition? w now = some (m.startComposition w now) := by
  have hbound : m.tapIndex < m.taps.length := by
    rw [hindex]
    exact List.length_pos_of_ne_nil h
  rw [startComposition?, startComposition, startTap?_eq hbound]
  cases hwait : m.waitingForTap with
  | true =>
      have hfirst : m.taps[0]? = some m.currentTap := by
        rw [← getElem?_currentTap hbound, hindex]
      simp only [if_true, stopHardware, onHardware]
      rcases m.toHardware.stopHardware w with ⟨stopped, hw⟩
      cases stopped with
      | true =>
          simp only [hfirst]
          rfl
      | false => rfl
  | false =>
      cases m.startTap w now with
      | mk started m' =>
          cases started <;> rfl

/-- A composition that passes the checks has a first tap. -/
theorem compose?_eq (taps : List Tap) (complete : Option κ) :
    m.compose? w now taps complete = some (m.compose w now taps complete) := by
  rw [compose?, compose]
  by_cases hacc : ComposeAccepts taps
  · have hnonempty : taps ≠ [] := fun hnil => hacc.1 (Or.inl hnil)
    have hstart : (m.beginCompose taps).startComposition? w now =
        some ((m.beginCompose taps).startComposition w now) :=
      startComposition?_eq rfl hnonempty
    rw [if_pos hacc, if_pos hacc, beginCompose?_eq hnonempty, Option.bind_some, hstart]
    rcases (m.beginCompose taps).startComposition w now with ⟨started, m'⟩
    cases started <;> rfl
  · rw [if_neg hacc, if_neg hacc]

/-- A pass that starts a tap needs its index in bounds. -/
theorem expire?_eq (h : m.waitingForTap = true → m.tapIndex < m.taps.length) :
    m.expire? w now = some (m.expire w now) := by
  rw [expire?, expire]
  cases hwait : m.waitingForTap with
  | true =>
      have hbound : ({ m with waitingForTap := false } : Motor κ σ).tapIndex <
          ({ m with waitingForTap := false } : Motor κ σ).taps.length := h hwait
      rw [if_pos rfl, if_pos rfl, startTap?_eq hbound, Option.bind_some]
      rcases ({ m with waitingForTap := false } : Motor κ σ).startTap w now with ⟨started, m'⟩
      cases started with
      | true => rfl
      | false =>
          simp only [Bool.false_eq_true, if_false]
          exact nextPhase?_eq _ _
  | false => exact nextPhase?_eq _ _

end Motor

/-! ## Every reachable state -/

/-- A pending request is a wave without taps, or a composition with its index in bounds; so nothing
that starts a tap indexes `taps_` out of bounds, in a call or in the worker. -/
theorem startTap_in_range {c : Config κ σ} (h : Reachable w c) :
    (c.motor.pending = true →
      (c.motor.taps = [] ∧ c.motor.waitingForTap = false) ∨
        (c.motor.tapIndex < c.motor.taps.length ∧ c.motor.continuous = false)) ∧
    (∀ now taps complete,
      c.motor.compose? w now taps complete = some (c.motor.compose w now taps complete)) ∧
    (∀ generation armed now, c.worker = .timed generation armed →
      ¬ Superseded c.motor generation →
      c.motor.expire? w now = some (c.motor.expire w now)) := by
  have hscheduled := h.wellScheduled
  refine ⟨hscheduled, fun _ _ _ => Motor.compose?_eq _ _, fun generation armed now _ hlive => ?_⟩
  have hpending := (not_superseded hlive).2.1
  exact Motor.expire?_eq fun hwait => (hscheduled.waiting hpending hwait).1

/-- A composition whose first tap is delayed. -/
def delayedTap : List Tap := [⟨5, 15, 1, 128⟩]

/-- The object with that composition, and the worker waiting for its delay. -/
def awaitingTap : Config Unit Unit :=
  Config.enterLoop ((Motor.constructed ()).compose willingWriter 0 delayedTap (some ())).2 0

/-- After `stop()` the flag and the index are stale: starting the tap that is waited for would trap. -/
example : (awaitingTap.motor.stop willingWriter).2.waitingForTap = true ∧
    ((awaitingTap.motor.stop willingWriter).2.expire? willingWriter 5000000).isNone = true := by
  decide

theorem startTap_in_range_awaiting :
    awaitingTap.motor.waitingForTap = true ∧
      (awaitingTap.motor.expire? willingWriter 5000000).isSome = true := by
  have hrun : Run (Step willingWriter) (Config.constructed 0 ())
      [.compose 0 delayedTap (some ()) true [], .resume] awaitingTap :=
    Run.cons (Step.compose rfl (by decide) rfl rfl) (Run.single (Step.resume (Or.inl rfl)))
  have hrange := startTap_in_range ⟨Config.constructed 0 (), _, ⟨0, (), Or.inl rfl⟩, hrun⟩
  have hexpire := hrange.2.2 awaitingTap.motor.generation awaitingTap.motor.deadline 5000000 rfl
    (by decide)
  rw [hexpire]
  exact ⟨rfl, rfl⟩

end Vibrator
end M2391Device
