import M2391Device.Vibrator.Completion

/-!
# FailedStart — what a request that cannot be played leaves behind

A call that its argument checks reject does nothing at all.  A call that fails later, and a delayed
tap that fails to start in the worker, leave no request, attempt the stop command last, and give the
worker nothing to do until the next client call.
-/

namespace M2391Device
namespace Vibrator

open Transition

universe u v

variable {κ : Type u} {σ : Type v} {w : Writer σ} {c c' : Config κ σ} {e : Event κ}

namespace Event

/-- A call that was rejected by its argument checks. -/
def Rejected : Event κ → Prop
  | .play _ milliseconds level gain _ _ _ => ¬ Motor.PlayAccepts milliseconds level gain
  | .compose _ taps _ _ _ => ¬ Motor.ComposeAccepts taps
  | _ => False

/-- The result that a call returned. -/
def returned? : Event κ → Option Bool
  | .play _ _ _ _ _ returned _ => some returned
  | .setAmplitude _ returned _ => some returned
  | .compose _ _ _ returned _ => some returned
  | .stop returned _ => some returned
  | _ => none

end Event

/-! ## The failing step -/

theorem Step.rejected (hstep : Step w c e c') (hrejected : e.Rejected) :
    e.returned? = some false ∧ e.writes = [] ∧ c'.motor = c.motor ∧ c'.worker = c.worker := by
  cases hstep with
  | play _ _ hplay hlog =>
      rw [Motor.play_rejected w _ _ _ hrejected] at hplay
      cases hplay
      have hnone := List.append_right_eq_self.1 hlog.symm
      exact ⟨rfl, hnone, rfl, rfl⟩
  | compose _ _ hcompose hlog =>
      rw [Motor.compose_rejected w _ _ _ hrejected] at hcompose
      cases hcompose
      have hnone := List.append_right_eq_self.1 hlog.symm
      exact ⟨rfl, hnone, rfl, rfl⟩
  | _ => cases hrejected

/-- What a step of the worker can be while no request is pending. -/
def Idling (c : Config κ σ) (e : Event κ) : Prop :=
  e = .resume ∨ (∃ t, e = .wake t) ∨
    ∃ stopped callback, c.worker = .calling stopped callback ∧
      e = .invoke (if stopped then callback else none)

/-- Nothing is pending, and the worker holds no callback. -/
structure Resting (c : Config κ σ) : Prop where
  pending : c.motor.pending = false
  worker : ∀ stopped callback, c.worker ≠ .calling stopped callback

/-- Without a request the worker takes no timeout and writes nothing, and after one step it holds
no callback any more. -/
theorem Step.idling (hstep : Step w c e c') (hworker : e.isWorker = true)
    (hpending : c.motor.pending = false) :
    Idling c e ∧ e.writes = [] ∧ e.finishes = false ∧ Resting c' := by
  -- without a request there is nothing to time out on
  cases hstep with
  | resume _ => exact ⟨Or.inl rfl, rfl, rfl, hpending, loopHead_ne_calling _⟩
  | @superseded _ _ t _ _ _ =>
      exact ⟨Or.inr (Or.inl ⟨t, rfl⟩), rfl, rfl, hpending, loopHead_ne_calling _⟩
  | early _ _ hlive _ =>
      have hcontra := (not_superseded hlive).2.1
      rw [hpending] at hcontra
      cases hcontra
  | expire _ _ _ hlive _ _ _ =>
      have hcontra := (not_superseded hlive).2.1
      rw [hpending] at hcontra
      cases hcontra
  | @invoke stopped callback hcalling =>
      refine ⟨Or.inr (Or.inr ⟨stopped, callback, hcalling, rfl⟩), rfl, rfl, hpending, ?_⟩
      intro stopped' callback' hready
      cases hready
  | _ => cases hworker

end Vibrator
end M2391Device
