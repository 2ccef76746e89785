import M2391Device.Lib.History
import M2391Device.Vibrator.ScheduleInvariant
import Mathlib.Algebra.Ring.Int.Defs

/-!
# Requests — which accepted call the worker is working for

The class keeps no record of the call that a pending request came from; it has only a deadline, a
callback and a list of taps.  This module says what a request is in terms of the *history* of calls
(`InForce`), and that the fields of a pending schedule are those of the request in force
(`Carries`), with a deadline that is never too early for it.
-/

namespace M2391Device
namespace Vibrator

open Transition

universe u v

variable {κ : Type u} {σ : Type v} {w : Writer σ}

/-! ## Requests in a history -/

/-- What an accepted call asked for. -/
inductive Work
  | wave (milliseconds level : Int)
  | composition (taps : List Tap)
  deriving DecidableEq, Repr

structure Request (κ : Type u) where
  accepted : Int
  work : Work
  complete : Option κ

namespace Event

/-- The request that an accepted call made, with the clock reading of its acceptance. -/
def request? : Event κ → Option (Request κ)
  | .play now milliseconds level _ complete true _ =>
      some ⟨now, .wave milliseconds level, complete⟩
  | .compose now taps complete true _ => some ⟨now, .composition taps, complete⟩
  | _ => none

/-- A call that replaces or cancels the request in force, whether or not it succeeds. -/
def supersedes : Event κ → Bool
  | .play _ milliseconds level gain _ _ _ => decide (Motor.PlayAccepts milliseconds level gain)
  | .compose _ taps _ _ _ => decide (Motor.ComposeAccepts taps)
  | .stop _ _ => true
  | .destroy _ => true
  | _ => false

/-- The worker is done with the request: it clears `pending_` and moves the callback out. -/
def finishes : Event κ → Bool
  | .expire _ _ (.finished _ _ _) _ => true
  | _ => false

/-- A step of the worker thread. -/
def isWorker : Event κ → Bool
  | .resume => true
  | .wake _ => true
  | .early _ => true
  | .expire _ _ _ _ => true
  | .invoke _ => true
  | _ => false

/-- After this event, no earlier request is in force. -/
def Ends (x : Event κ) : Prop := x.supersedes = true ∨ x.finishes = true

end Event

/-- The call at position `i` made the request `r`, and nothing has ended it since. -/
def InForce (h : List (Event κ)) (i : Nat) (r : Request κ) : Prop :=
  ∃ e, Latest h Event.Ends i e ∧ e.request? = some r

/-! ## Durations -/

/-- Milliseconds from acceptance to the start of tap `i`: the delays of taps `0..i` and the
durations of taps `0..i-1`. -/
def tapStart (taps : List Tap) (i : Nat) : Int :=
  ((taps.take i).map (fun tap => tap.delayMs + tap.durationMs)).sum +
    (taps.getD i ⟨0, 0, 0, 0⟩).delayMs

/-- Milliseconds from acceptance to the end of tap `i`. -/
def tapEnd (taps : List Tap) (i : Nat) : Int :=
  tapStart taps i + (taps.getD i ⟨0, 0, 0, 0⟩).durationMs

/-- The sum of all delays and durations. -/
def totalMs (taps : List Tap) : Int :=
  (taps.map (fun tap => tap.delayMs + tap.durationMs)).sum

theorem tapStart_zero (taps : List Tap) : tapStart taps 0 = (Motor.firstTap taps).delayMs := by
  simp [tapStart, Motor.firstTap]

theorem tapEnd_eq_sum_take {taps : List Tap} {i : Nat} (hi : i < taps.length) :
    tapEnd taps i = totalMs (taps.take (i + 1)) := by
  -- the sum up to tap `i` is the sum before it and tap `i` itself
  have hget : taps.getD i ⟨0, 0, 0, 0⟩ = taps[i] := by simp [hi]
  have htake : taps.take (i + 1) = taps.take i ++ [taps[i]] := by
    rw [List.take_add_one, List.getElem?_eq_getElem hi]
    rfl
  rw [totalMs, htake, tapEnd, tapStart, hget, List.map_append, List.sum_append]
  simp only [List.map_cons, List.map_nil, List.sum_cons, List.sum_nil]
  omega

theorem tapStart_succ {taps : List Tap} {i : Nat} (hi : i + 1 < taps.length) :
    tapStart taps (i + 1) =
      tapEnd taps i + (taps.getD (i + 1) ⟨0, 0, 0, 0⟩).delayMs := by
  rw [tapEnd_eq_sum_take (Nat.lt_of_succ_lt hi)]
  rfl

theorem tapEnd_last {taps : List Tap} {i : Nat} (hi : i < taps.length)
    (hlast : ¬ i + 1 < taps.length) : tapEnd taps i = totalMs taps := by
  rw [tapEnd_eq_sum_take hi, List.take_of_length_le (by omega)]

/-! ## The schedule of a request -/

/-- The time, since acceptance, that the deadline of a composition stands for. -/
def phaseMs (taps : List Tap) (i : Nat) (waiting : Bool) : Int :=
  if waiting then tapStart taps i else tapEnd taps i

/-- The schedule is that of the request `r`. -/
def Carries (r : Request κ) (s : Schedule κ) : Prop :=
  s.callback = r.complete ∧
    match r.work with
    | .wave milliseconds level =>
        s.taps = [] ∧ s.waitingForTap = false ∧ s.continuous = decide (level < 0) ∧
          s.deadline = r.accepted + millis milliseconds
    | .composition taps =>
        s.taps = taps ∧ s.tapIndex < taps.length ∧ s.continuous = false ∧
          r.accepted + millis (phaseMs taps s.tapIndex s.waitingForTap) ≤ s.deadline

/-- When the worker may be done with a request: never before its time, unless a delayed tap of a
composition failed to start. -/
def Due (r : Request κ) (tapFailed : Bool) (t : Int) : Prop :=
  match r.work with
  | .wave milliseconds _ => r.accepted + millis milliseconds ≤ t
  | .composition taps => tapFailed = true ∨ r.accepted + millis (totalMs taps) ≤ t

theorem Carries.of_changed {r : Request κ} {m : Motor κ σ} {b : Bool}
    (h : Carries r m.toSchedule) : Carries r { m with changed := b }.toSchedule := h

/-- An accepted wave. -/
theorem carries_play (m : Motor κ σ) (now : Int) (milliseconds level : Int)
    (complete : Option κ) :
    Carries ⟨now, .wave milliseconds level, complete⟩
      ((m.beginPlay level).toSchedule.accept (now + millis milliseconds) complete) :=
  ⟨rfl, rfl, rfl, rfl, rfl⟩

theorem firstTap_mem {taps : List Tap} (hnonempty : taps ≠ []) : Motor.firstTap taps ∈ taps := by
  cases taps with
  | nil => exact absurd rfl hnonempty
  | cons tap rest => simp [Motor.firstTap]

/-- The first phase of an accepted composition ends with its delay, or else with its first tap. -/
theorem phaseMs_first {taps : List Tap} (hacc : Motor.ComposeAccepts taps) :
    phaseMs taps 0 (decide ((Motor.firstTap taps).delayMs > 0)) =
      Motor.firstWait (Motor.firstTap taps) := by
  have hnonempty : taps ≠ [] := fun hnil => hacc.1 (Or.inl hnil)
  have htap := hacc.2 _ (firstTap_mem hnonempty)
  have hnonneg : 0 ≤ (Motor.firstTap taps).delayMs := by
    unfold Motor.TapAccepted at htap
    omega
  by_cases hdelay : (Motor.firstTap taps).delayMs > 0
  · simp [phaseMs, Motor.firstWait, hdelay, tapStart_zero]
  -- without a delay the first tap is started in the call, and its duration is waited for
  · have hzero : (Motor.firstTap taps).delayMs = 0 := by omega
    have hduration : (taps.getD 0 ⟨0, 0, 0, 0⟩).durationMs = (Motor.firstTap taps).durationMs := rfl
    simpa [phaseMs, Motor.firstWait, tapEnd, tapStart_zero, hzero] using hduration

/-- An accepted composition waits for its first delay, or its first tap has been started. -/
theorem carries_compose (m : Motor κ σ) (now : Int) {taps : List Tap} (complete : Option κ)
    (hacc : Motor.ComposeAccepts taps) :
    Carries ⟨now, .composition taps, complete⟩
      ((m.beginCompose taps).toSchedule.accept
        (now + millis (Motor.firstWait (Motor.firstTap taps))) complete) := by
  have hnonempty : taps ≠ [] := fun hnil => hacc.1 (Or.inl hnil)
  refine ⟨rfl, rfl, List.length_pos_of_ne_nil hnonempty, rfl, ?_⟩
  have hphase := phaseMs_first hacc
  have hdeadline : now + millis (phaseMs taps 0 (decide ((Motor.firstTap taps).delayMs > 0))) =
      now + millis (Motor.firstWait (Motor.firstTap taps)) := by
    rw [hphase]
  exact Int.le_of_eq hdeadline

/-! ## One step -/

theorem millis_add (a b : Int) : millis (a + b) = millis a + millis b := by
  exact Int.add_mul a b 1000000

/-- An expiry that goes on keeps the schedule of the request it works for. -/
theorem Carries.expire {r : Request κ} {m m' : Motor κ σ} {t now : Int}
    {outcome : Motor.Expiry κ} (h : Carries r m.toSchedule)
    (hdeadline : m.deadline ≤ t) (hclock : t ≤ now)
    (hexpire : m.expire w now = (outcome, m')) (hpending : m'.pending = true) :
    Carries r m'.toSchedule := by
  rcases r with ⟨accepted, work, complete⟩
  -- only the two expiries that stay in a composition leave a request pending
  rcases Motor.expire_cases w m now hexpire with
    ⟨hwait, _, _, rfl⟩ | ⟨_, _, _, rfl⟩ | ⟨hwait, hnext, _, rfl⟩ | ⟨_, _, _, _, rfl⟩
  · cases work with
    | wave milliseconds level =>
        have hnot : m.waitingForTap = false := h.2.2.1
        rw [hwait] at hnot
        cases hnot
    | composition taps =>
        rcases h with ⟨hcallback, htaps, hindex, hfinite, hdue⟩
        refine ⟨hcallback, htaps, hindex, hfinite, ?_⟩
        have hduration : m.currentTap.durationMs =
            (taps.getD m.tapIndex ⟨0, 0, 0, 0⟩).durationMs := by
          rw [Motor.currentTap, htaps]
        -- the deadline that has passed was the start of the tap
        have hstart : accepted + millis (tapStart taps m.tapIndex) ≤ m.deadline := by
          simpa [phaseMs, hwait] using hdue
        have hend : accepted + millis (tapEnd taps m.tapIndex) ≤
            now + millis m.currentTap.durationMs := by
          rw [tapEnd, millis_add, hduration]
          omega
        simpa [phaseMs, Schedule.tapStarted] using hend
  · cases hpending
  · cases work with
    | wave milliseconds level =>
        have hnil : m.taps = [] := h.2.1
        simp [hnil] at hnext
    | composition taps =>
        rcases h with ⟨hcallback, htaps, hindex, hfinite, hdue⟩
        rw [htaps] at hnext
        refine ⟨hcallback, htaps, hnext, hfinite, ?_⟩
        -- the deadline that has passed was the end of the tap
        have hended : accepted + millis (tapEnd taps m.tapIndex) ≤ m.deadline := by
          simpa [phaseMs, hwait] using hdue
        have hstart : accepted + millis (tapStart taps (m.tapIndex + 1)) ≤
            now + millis (m.taps.getD (m.tapIndex + 1) ⟨0, 0, 0, 0⟩).delayMs := by
          rw [tapStart_succ hnext, millis_add, htaps]
          omega
        simpa [phaseMs, Schedule.nextTap] using hstart
  · cases hpending

/-- An expiry that is done with a request takes its callback, and not before it is due. -/
theorem Carries.finished {r : Request κ} {m m' : Motor κ σ} {t now : Int}
    {stopped tapFailed : Bool} {callback : Option κ} (h : Carries r m.toSchedule)
    (hdeadline : m.deadline ≤ t)
    (hexpire : m.expire w now = (.finished stopped tapFailed callback, m')) :
    callback = r.complete ∧ Due r tapFailed t := by
  -- a failed tap may end a composition early; otherwise the deadline that passed was the last
  rcases r with ⟨accepted, work, complete⟩
  have hcallback : m.callback = complete := h.1
  rcases Motor.expire_cases w m now hexpire with
    ⟨_, _, houtcome, _⟩ | ⟨hwait, _, houtcome, _⟩ | ⟨_, _, houtcome, _⟩ |
      ⟨hwait, hlast, _, houtcome, _⟩
  · cases houtcome
  · cases houtcome
    refine ⟨hcallback, ?_⟩
    cases work with
    | wave milliseconds level =>
        have hnot : m.waitingForTap = false := h.2.2.1
        rw [hwait] at hnot
        cases hnot
    | composition taps => exact Or.inl rfl
  · cases houtcome
  · cases houtcome
    refine ⟨hcallback, ?_⟩
    cases work with
    | wave milliseconds level =>
        have hdue : m.deadline = accepted + millis milliseconds := h.2.2.2.2
        have hlate : accepted + millis milliseconds ≤ t := by omega
        exact hlate
    | composition taps =>
        rcases h with ⟨_, htaps, hindex, _, hdue⟩
        rw [htaps] at hlast
        have hended : accepted + millis (totalMs taps) ≤ m.deadline := by
          rw [← tapEnd_last hindex hlast]
          simpa [phaseMs, hwait] using hdue
        exact Or.inr (Int.le_trans hended hdeadline)

/-- What a step does to the pending request: a new one is made by an accepted call, and the old
one survives only steps that neither supersede nor finish it. -/
theorem Step.carries {c c' : Config κ σ} {e : Event κ} (hstep : Step w c e c')
    (hpending : c'.motor.pending = true) :
    (∃ r, e.request? = some r ∧ e.Ends ∧ Carries r c'.motor.toSchedule) ∨
      (c.motor.pending = true ∧ ¬ e.Ends ∧
        ∀ r, Carries r c.motor.toSchedule → Carries r c'.motor.toSchedule) := by
  -- accepted calls make a request, superseding ones leave none, all others keep what is there
  cases hstep with
  | play _ _ hplay _ =>
      rcases Motor.play_cases w _ hplay with
        ⟨hrejected, rfl, rfl⟩ | ⟨_, _, _, rfl⟩ | ⟨hacc, rfl, _, rfl⟩
      · refine Or.inr ⟨hpending, ?_, fun r hr => hr⟩
        simp [Event.Ends, Event.supersedes, Event.finishes, hrejected]
      · cases hpending
      · refine Or.inl ⟨_, rfl, ?_, carries_play _ _ _ _ _⟩
        simp [Event.Ends, Event.supersedes, hacc]
  | setAmplitude _ hset _ =>
      cases hset
      refine Or.inr ⟨hpending, ?_, fun r hr => hr⟩
      simp [Event.Ends, Event.supersedes, Event.finishes]
  | compose _ _ hcompose _ =>
      rcases Motor.compose_cases w _ hcompose with
        ⟨hrejected, rfl, rfl⟩ | ⟨_, _, _, rfl⟩ | ⟨hacc, rfl, _, rfl⟩
      · refine Or.inr ⟨hpending, ?_, fun r hr => hr⟩
        simp [Event.Ends, Event.supersedes, Event.finishes, hrejected]
      · cases hpending
      · refine Or.inl ⟨_, rfl, ?_, carries_compose _ _ _ hacc⟩
        simp [Event.Ends, Event.supersedes, hacc]
  | stop _ hstop _ =>
      cases hstop
      cases hpending
  | destroy _ hdestroy _ =>
      cases hdestroy
      cases hpending
  | resume _ =>
      refine Or.inr ⟨hpending, ?_, fun r hr => hr⟩
      simp [Event.Ends, Event.supersedes, Event.finishes]
  | superseded _ _ _ =>
      refine Or.inr ⟨hpending, ?_, fun r hr => hr⟩
      simp [Event.Ends, Event.supersedes, Event.finishes]
  | early _ _ _ _ =>
      refine Or.inr ⟨hpending, ?_, fun r hr => hr⟩
      simp [Event.Ends, Event.supersedes, Event.finishes]
  | @expire _ _ t now outcome m _ _ _ hclock hlive hdeadline hexpire _ =>
      rcases afterExpiry_motor outcome m now with ⟨b, hmotor⟩
      rw [hmotor] at hpending ⊢
      have hpending' : m.pending = true := hpending
      refine Or.inr ⟨(not_superseded hlive).2.1, ?_, ?_⟩
      · -- a finishing expiry would have cleared `pending_`
        rcases Motor.expire_cases w _ now hexpire with
          ⟨_, _, rfl, _⟩ | ⟨_, _, _, rfl⟩ | ⟨_, _, rfl, _⟩ | ⟨_, _, _, _, rfl⟩
        · simp [Event.Ends, Event.supersedes, Event.finishes]
        · cases hpending'
        · simp [Event.Ends, Event.supersedes, Event.finishes]
        · cases hpending'
      · intro r hr
        have hkept := hr.expire hdeadline hclock hexpire hpending'
        exact hkept.of_changed
  | invoke _ =>
      refine Or.inr ⟨hpending, ?_, fun r hr => hr⟩
      simp [Event.Ends, Event.supersedes, Event.finishes]

/-! ## Runs -/

/-- A pending request is that of the accepted call in force, with that call's callback and a
deadline that is not too early for it. -/
theorem inForce_of_pending {c₀ c : Config κ σ} {h : List (Event κ)} (horigin : Origin w c₀)
    (hrun : Run (Step w) c₀ h c) (hpending : c.motor.pending = true) :
    ∃ i r, InForce h i r ∧ Carries r c.motor.toSchedule := by
  -- induction on the run: the request in force moves only with `Step.carries`
  have htracks := hrun.historyInvariant
    (fun h c => c.motor.pending = true → ∃ i r, InForce h i r ∧ Carries r c.motor.toSchedule)
    ?_ ?_
  · exact htracks hpending
  · intro hstart
    rw [horigin.not_pending] at hstart
    cases hstart
  · intro g t e u _ ih hstep hu
    rcases hstep.carries hu with ⟨r, hr, _, hcarries⟩ | ⟨ht, hlive, hkeep⟩
    · exact ⟨g.length, r, ⟨e, Latest.snoc_new, hr⟩, hcarries⟩
    · rcases ih ht with ⟨i, r, ⟨f, hlatest, hr⟩, hcarries⟩
      exact ⟨i, r, ⟨f, hlatest.snoc_keep hlive, hr⟩, hkeep r hcarries⟩

end Vibrator
end M2391Device
