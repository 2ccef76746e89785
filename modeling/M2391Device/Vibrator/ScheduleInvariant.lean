import M2391Device.Vibrator.MotorLemmas

/-!
# ScheduleInvariant — a pending request is a wave or a composition, never a mixture

`waitingForTap_`, `tapIndex_` and `continuous_` are left stale by several paths.  While a request is
pending they are not: it is either a wave without taps, or a composition whose index is in range
and for which `continuous_` is off.
-/

namespace M2391Device
namespace Vibrator

open Transition

universe u v

variable {κ : Type u} {σ : Type v} {w : Writer σ}

/-- What a pending request looks like in the fields of the schedule. -/
def WellScheduled (s : Schedule κ) : Prop :=
  s.pending = true →
    (s.taps = [] ∧ s.waitingForTap = false) ∨
      (s.tapIndex < s.taps.length ∧ s.continuous = false)

theorem WellScheduled.of_not_pending {s : Schedule κ} (h : s.pending = false) :
    WellScheduled s := by
  intro hpending
  rw [h] at hpending
  cases hpending

/-- A pending loop has no taps, so no tap is waited for. -/
theorem WellScheduled.not_waiting {s : Schedule κ} (h : WellScheduled s)
    (hpending : s.pending = true) (hloop : s.continuous = true) : s.waitingForTap = false := by
  rcases h hpending with ⟨_, hwait⟩ | ⟨_, hfinite⟩
  · exact hwait
  · rw [hloop] at hfinite
    cases hfinite

/-- While the worker waits to start a tap, that tap exists and no loop is on. -/
theorem WellScheduled.waiting {s : Schedule κ} (h : WellScheduled s)
    (hpending : s.pending = true) (hwait : s.waitingForTap = true) :
    s.tapIndex < s.taps.length ∧ s.continuous = false := by
  rcases h hpending with ⟨_, hnot⟩ | hcomposition
  · rw [hwait] at hnot
    cases hnot
  · exact hcomposition

/-- A composition that has another tap to come is not a loop. -/
theorem WellScheduled.next {s : Schedule κ} (h : WellScheduled s) (hpending : s.pending = true)
    (hnext : s.tapIndex + 1 < s.taps.length) : s.continuous = false := by
  rcases h hpending with ⟨hnil, _⟩ | ⟨_, hfinite⟩
  · simp [hnil] at hnext
  · exact hfinite

/-! ## The worker's own bookkeeping -/

/-- After an expiry the motor is as the expiry left it, up to a consumed notification. -/
theorem afterExpiry_motor (outcome : Motor.Expiry κ) (m : Motor κ σ) (clock : Int) :
    ∃ b, (Config.afterExpiry outcome m clock).motor = { m with changed := b } := by
  cases outcome with
  | tapStarted index => exact ⟨false, rfl⟩
  | nextTap index => exact ⟨false, rfl⟩
  | finished stopped tapFailed callback => exact ⟨m.changed, rfl⟩

theorem not_superseded {m : Motor κ σ} {generation : UInt64}
    (h : ¬ Superseded m generation) :
    m.quit = false ∧ m.pending = true ∧ m.generation = generation := by
  simpa [Superseded] using h

/-! ## The step lemma -/

theorem WellScheduled.step {c c' : Config κ σ} {e : Event κ}
    (h : WellScheduled c.motor.toSchedule) (hstep : Step w c e c') :
    WellScheduled c'.motor.toSchedule := by
  cases hstep with
  | play _ _ hplay _ =>
      -- rejected, failed, accepted; only the last leaves a request, and it has no taps
      rcases Motor.play_cases w _ hplay with ⟨_, _, rfl⟩ | ⟨_, _, _, rfl⟩ | ⟨_, _, _, rfl⟩
      · exact h
      · exact WellScheduled.of_not_pending rfl
      · intro _
        exact Or.inl ⟨rfl, rfl⟩
  | setAmplitude _ hset _ =>
      cases hset
      exact h
  | compose _ _ hcompose _ =>
      -- as for `play`, but an accepted composition has at least one tap
      rcases Motor.compose_cases w _ hcompose with ⟨_, _, rfl⟩ | ⟨_, _, _, rfl⟩ | ⟨hacc, _, _, rfl⟩
      · exact h
      · exact WellScheduled.of_not_pending rfl
      · intro _
        have hnonempty : _ ≠ [] := fun hnil => hacc.1 (Or.inl hnil)
        exact Or.inr ⟨List.length_pos_of_ne_nil hnonempty, rfl⟩
  | stop _ hstop _ =>
      cases hstop
      exact WellScheduled.of_not_pending rfl
  | destroy _ hdestroy _ =>
      cases hdestroy
      exact WellScheduled.of_not_pending rfl
  | resume _ => exact h
  | superseded _ _ _ => exact h
  | early _ _ _ _ => exact h
  | @expire generation armed t now outcome m writes hworker _ _ hlive _ hexpire _ =>
      have hpending := (not_superseded hlive).2.1
      rcases afterExpiry_motor outcome m now with ⟨b, hmotor⟩
      rw [hmotor]
      -- tap started, tap failed, next delay, finished: the first and third stay in the composition
      rcases Motor.expire_cases w _ now hexpire with
        ⟨hwait, _, _, rfl⟩ | ⟨_, _, _, rfl⟩ | ⟨_, hnext, _, rfl⟩ | ⟨_, _, _, _, rfl⟩
      · intro _
        exact Or.inr (h.waiting hpending hwait)
      · exact WellScheduled.of_not_pending rfl
      · intro _
        exact Or.inr ⟨hnext, h.next hpending hnext⟩
      · exact WellScheduled.of_not_pending rfl
  | invoke _ => exact h

theorem Origin.not_pending {c : Config κ σ} (h : Origin w c) : c.motor.pending = false := by
  rcases h with ⟨clock, d, rfl | rfl⟩ <;> rfl

theorem Origin.wellScheduled {c : Config κ σ} (h : Origin w c) :
    WellScheduled c.motor.toSchedule :=
  WellScheduled.of_not_pending h.not_pending

theorem WellScheduled.run {c c' : Config κ σ} {h : List (Event κ)}
    (hc : WellScheduled c.motor.toSchedule) (hrun : Run (Step w) c h c') :
    WellScheduled c'.motor.toSchedule :=
  hrun.invariant (fun c => WellScheduled c.motor.toSchedule) hc
    (fun _ _ _ ht hstep => ht.step hstep)

/-- An invariant may use, in its step, that the schedule is well formed. -/
theorem WellScheduled.invariant {c c' : Config κ σ} {h : List (Event κ)} (I : Config κ σ → Prop)
    (hc : WellScheduled c.motor.toSchedule) (hstart : I c)
    (hkeep : ∀ t e u, I t → WellScheduled t.motor.toSchedule → Step w t e u → I u)
    (hrun : Run (Step w) c h c') : I c' := by
  have hboth := hrun.invariant (fun c => I c ∧ WellScheduled c.motor.toSchedule) ⟨hstart, hc⟩ ?_
  · exact hboth.1
  · rintro t e u ⟨ht, hscheduled⟩ hstep
    exact ⟨hkeep t e u ht hscheduled hstep, hscheduled.step hstep⟩

theorem Reachable.wellScheduled {c : Config κ σ} (h : Reachable w c) :
    WellScheduled c.motor.toSchedule := by
  rcases h with ⟨c₀, g, horigin, hrun⟩
  exact horigin.wellScheduled.run hrun

end Vibrator
end M2391Device
