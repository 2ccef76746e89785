import M2391Device.Gestures.Synchronizer
import Mathlib.Data.List.DropRight

/-!
# Retries — no change is lost, and the retries never multiply

The history of the handler is cut at the last start of a `synchronizeSetting` runnable.  What the
attempts of the last round have come to determines the counter and the delayed message exactly
(`Progress`), and a notification that came after the cut has its runnable still in the queue.
-/

namespace M2391Device
namespace Gestures

open Transition

variable {s s' : Synchronizer} {e : Event} {h r : List Event}

/-! ## Outcomes of a growing history -/

theorem outcomes_append_attempt (r : List Event) (b : Bool) :
    outcomes (r ++ [.attempt b]) = outcomes r ++ [none] := by
  induction r with
  | nil => rfl
  | cons e r ih => cases e <;> simp [outcomes, ih, Event.outcome?]

/-- The end of an attempt is the outcome of every attempt that had none. -/
theorem outcomes_append_finish (r : List Event) (o : Outcome) :
    outcomes (r ++ [.finish o]) = (outcomes r).map fun x => x.or (some o) := by
  induction r with
  | nil => rfl
  | cons e r ih => cases e <;> simp [outcomes, ih, Event.outcome?]

theorem outcomes_append_other (r : List Event) (hattempt : ∀ b, e ≠ .attempt b)
    (houtcome : e.outcome? = none) : outcomes (r ++ [e]) = outcomes r := by
  induction r with
  | nil =>
      cases e with
      | attempt b => exact absurd rfl (hattempt b)
      | _ => rfl
  | cons f r ih => cases f <;> simp [outcomes, ih, houtcome]

/-! ## The last round -/

/-- What happened since the last runnable of `synchronizeSetting` started. -/
def lastRound (h : List Event) : List Event := h.rtakeWhile fun e => !e.isStart

theorem lastRound_suffix (h : List Event) : lastRound h <:+ h :=
  List.rtakeWhile_suffix _ _

@[simp] theorem lastRound_append_start (h : List Event) : lastRound (h ++ [.startRunnable]) = [] :=
  List.rtakeWhile_concat_neg _ _ _ (by simp [Event.isStart])

theorem lastRound_append (he : e ≠ .startRunnable) : lastRound (h ++ [e]) = lastRound h ++ [e] :=
  List.rtakeWhile_concat_pos _ _ _ (by simp [Event.isStart, he])

/-- A stretch that begins at a start and has no other one is the last round. -/
theorem lastRound_eq (g : List Event) (hr : ∀ e ∈ r, e ≠ .startRunnable) :
    lastRound (g ++ .startRunnable :: r) = r := by
  induction r using List.reverseRecOn with
  | nil => exact lastRound_append_start g
  | append_singleton r e ih =>
      have he : e ≠ .startRunnable := hr e (by simp)
      have hr' : ∀ x ∈ r, x ≠ .startRunnable := fun x hx => hr x (by simp [hx])
      calc lastRound (g ++ .startRunnable :: (r ++ [e]))
          = lastRound ((g ++ .startRunnable :: r) ++ [e]) := by simp
        _ = lastRound (g ++ .startRunnable :: r) ++ [e] := lastRound_append he
        _ = r ++ [e] := by rw [ih hr']

/-! ## The invariant -/

/-- The state of the handler, given what the attempts of the last round have come to. -/
inductive Progress (s : Synchronizer) : List (Option Outcome) → Prop where
  /-- The runnable that `onCreate` posted has not started. -/
  | created : s.phase = .idle → s.delayed = 0 → .synchronize ∈ s.posted → Progress s []
  | starting : s.phase = .synchronizing → s.delayed ≤ 1 → Progress s []
  | applying {n : Nat} : s.phase = .applying → s.delayed = 0 → s.mRetries = n → n ≤ MAX_RETRIES →
      Progress s (List.replicate n (some .threw) ++ [none])
  | retrying {n : Nat} : s.phase = .idle → s.delayed = 1 → s.mRetries = n → n ≤ MAX_RETRIES →
      Progress s (List.replicate n (some .threw))
  | applied {n : Nat} : s.phase = .idle → s.delayed = 0 → n ≤ MAX_RETRIES →
      Progress s (List.replicate n (some .threw) ++ [some .succeeded])
  | exhausted : s.phase = .idle → s.delayed = 0 →
      Progress s (List.replicate (MAX_RETRIES + 1) (some .threw))

namespace Progress

variable {os : List (Option Outcome)}

theorem delayed_le (hp : Progress s os) : s.delayed ≤ 1 := by
  cases hp <;> omega

theorem length_le (hp : Progress s os) : os.length ≤ MAX_RETRIES + 1 := by
  cases hp <;> simp <;> omega

/-- Posting changes nothing that the progress depends on. -/
theorem posted (hp : Progress s os) (p : Posted) :
    Progress { s with posted := s.posted ++ [p] } os := by
  cases hp with
  | created hphase hdelayed hmem =>
      exact .created hphase hdelayed (List.mem_append_left _ hmem)
  | starting hphase hdelayed => exact .starting hphase hdelayed
  | applying hphase hdelayed hretries hn => exact .applying hphase hdelayed hretries hn
  | retrying hphase hdelayed hretries hn => exact .retrying hphase hdelayed hretries hn
  | applied hphase hdelayed hn => exact .applied hphase hdelayed hn
  | exhausted hphase hdelayed => exact .exhausted hphase hdelayed

/-- A runnable of `onStateChanged` is taken, and posts. -/
theorem stateChanged (hp : Progress s os) {rest : List Posted} (b : Bool) :
    Progress ({ s with posted := rest, mKeyguardAuthenticationRunning := b }.synchronizeSetting)
      os := by
  have hmem : Posted.synchronize ∈ rest ++ [.synchronize] := by simp
  cases hp with
  | created hphase hdelayed _ => exact .created hphase hdelayed hmem
  | starting hphase hdelayed => exact .starting hphase hdelayed
  | applying hphase hdelayed hretries hn => exact .applying hphase hdelayed hretries hn
  | retrying hphase hdelayed hretries hn => exact .retrying hphase hdelayed hretries hn
  | applied hphase hdelayed hn => exact .applied hphase hdelayed hn
  | exhausted hphase hdelayed => exact .exhausted hphase hdelayed

/-- Only while an attempt is pending may a delayed message start another one. -/
theorem beginDelayed (hp : Progress s os) (hidle : s.phase = .idle) {n : Nat}
    (hdelayed : s.delayed = n + 1) :
    Progress { s with delayed := n, phase := .applying } (os ++ [none]) := by
  cases hp with
  | created _ hzero _ => omega
  | starting hphase _ => simp [hphase] at hidle
  | applying hphase _ _ _ => simp [hphase] at hidle
  | retrying _ hone hretries hn =>
      exact .applying rfl (show n = 0 by omega) hretries hn
  | applied _ hzero _ => omega
  | exhausted _ hzero => omega

theorem finish (hp : Progress s os) (happlying : s.phase = .applying) (o : Outcome) :
    Progress (s.endApply o) (os.map fun x => x.or (some o)) := by
  cases hp with
  | created hphase _ _ => simp [hphase] at happlying
  | starting hphase _ => simp [hphase] at happlying
  | retrying hphase _ _ _ => simp [hphase] at happlying
  | applied hphase _ _ => simp [hphase] at happlying
  | exhausted hphase _ => simp [hphase] at happlying
  | @applying n _ hdelayed hretries hn =>
      have hmap : (List.replicate n (some Outcome.threw) ++ [none]).map
          (fun x : Option Outcome => x.or (some o)) = List.replicate n (some .threw) ++ [some o] := by
        simp
      rw [hmap]
      cases o with
      | succeeded => exact .applied rfl hdelayed hn
      | threw =>
          rw [← List.replicate_succ']
          -- another try is posted unless this was the last one
          by_cases hlast : n < MAX_RETRIES
          · refine .retrying rfl ?_ ?_ hlast
            · simp [Synchronizer.endApply, hdelayed, hretries, hlast]
            · simp [Synchronizer.endApply, hretries]
          · have hn' : n = MAX_RETRIES := by omega
            subst hn'
            refine .exhausted rfl ?_
            simp [Synchronizer.endApply, hdelayed, hretries]

end Progress

structure Synchronized (h : List Event) (s : Synchronizer) : Prop where
  progress : Progress s (outcomes (lastRound h))
  /-- A notification that the last round did not see is still in the queue. -/
  fresh : ∀ e ∈ lastRound h, e.isNotification = true → .synchronize ∈ s.posted

namespace Synchronized

theorem created : Synchronized [] Synchronizer.created := by
  refine ⟨.created rfl rfl (by simp [Synchronizer.created]), ?_⟩
  intro e he
  simp [lastRound] at he

/-- What an event that starts no round and is no notification leaves of `fresh`. -/
theorem fresh_append (hs : Synchronized h s) (hstart : e ≠ .startRunnable)
    (hquiet : e.isNotification = false) (hposted : s'.posted = s.posted) :
    ∀ x ∈ lastRound (h ++ [e]), x.isNotification = true → .synchronize ∈ s'.posted := by
  intro x hx hnotification
  rw [lastRound_append hstart, List.mem_append, List.mem_singleton] at hx
  rw [hposted]
  rcases hx with hold | rfl
  · exact hs.fresh x hold hnotification
  · rw [hquiet] at hnotification
    cases hnotification

theorem step (hs : Synchronized h s) (hstep : Step s e s') : Synchronized (h ++ [e]) s' := by
  cases hstep with
  | notify =>
      refine ⟨?_, ?_⟩
      · rw [lastRound_append (by simp), outcomes_append_other _ (by simp) rfl]
        exact hs.progress.posted _
      · intro _ _ _
        simp [Synchronizer.synchronizeSetting]
  | stateChange =>
      refine ⟨?_, ?_⟩
      · rw [lastRound_append (by simp), outcomes_append_other _ (by simp) rfl]
        exact hs.progress.posted _
      · intro x hx hnotification
        rw [lastRound_append (by simp), List.mem_append, List.mem_singleton] at hx
        rcases hx with hold | rfl
        · exact List.mem_append_left _ (hs.fresh x hold hnotification)
        · cases hnotification
  | runStateChanged _ _ =>
      refine ⟨?_, ?_⟩
      · rw [lastRound_append (by simp), outcomes_append_other _ (by simp) rfl]
        exact hs.progress.stateChanged _
      · intro _ _ _
        simp [Synchronizer.synchronizeSetting]
  | startRunnable _ _ =>
      -- a new round: nothing has happened in it
      refine ⟨?_, ?_⟩
      · rw [lastRound_append_start]
        exact .starting rfl hs.progress.delayed_le
      · intro x hx
        simp at hx
  | beginSynchronized hphase =>
      refine ⟨?_, hs.fresh_append (by simp) rfl rfl⟩
      rw [lastRound_append (by simp), outcomes_append_attempt]
      generalize hos : outcomes (lastRound h) = os
      have hprogress := hs.progress
      rw [hos] at hprogress
      cases hprogress with
      | starting _ _ => exact .applying (n := 0) rfl rfl rfl (Nat.zero_le _)
      | _ hother => simp [hphase] at hother
  | beginDelayed hidle hdelayed =>
      refine ⟨?_, hs.fresh_append (by simp) rfl rfl⟩
      rw [lastRound_append (by simp), outcomes_append_attempt]
      exact hs.progress.beginDelayed hidle hdelayed
  | @finish o happlying =>
      refine ⟨?_, hs.fresh_append (by simp) rfl ?_⟩
      · rw [lastRound_append (by simp), outcomes_append_finish]
        exact hs.progress.finish happlying o
      · cases o <;> rfl

theorem run (hrun : Run Step Synchronizer.created h s) : Synchronized h s :=
  hrun.historyInvariant Synchronized created (fun _ _ _ _ _ hs hstep => hs.step hstep)

/-- A round has at most one attempt for the runnable and one for each retry. -/
theorem round_length_le (hrun : Run Step Synchronizer.created h s) {g rest : List Event}
    (hh : h = g ++ .startRunnable :: r ++ rest) (hr : ∀ e ∈ r, e ≠ .startRunnable) :
    (outcomes r).length ≤ MAX_RETRIES + 1 := by
  rw [hh] at hrun
  rcases hrun.split with ⟨t, hround, _⟩
  have hprogress := (run hround).progress
  rw [lastRound_eq g hr] at hprogress
  exact hprogress.length_le

/-- What the last round has come to when nothing is left to do. -/
theorem settled (hs : Synchronized h s) (hsettled : s.Settled) :
    (∀ e ∈ lastRound h, e.isNotification = false) ∧
      ((outcomes (lastRound h)).getLast? = some (some .succeeded) ∨
        outcomes (lastRound h) = List.replicate (MAX_RETRIES + 1) (some .threw)) := by
  rcases hsettled with ⟨hidle, hposted, hdelayed⟩
  refine ⟨?_, ?_⟩
  · intro e he
    by_contra hnotification
    exact hposted (hs.fresh e he (by simpa using hnotification))
  · generalize hos : outcomes (lastRound h) = os
    have hprogress := hs.progress
    rw [hos] at hprogress
    cases hprogress with
    | created _ _ hmem => exact absurd hmem hposted
    | starting hphase _ => simp [hphase] at hidle
    | applying hphase _ _ _ => simp [hphase] at hidle
    | retrying _ hone _ _ => omega
    | applied _ _ _ =>
        left
        simp
    | exhausted _ _ =>
        right
        rfl

end Synchronized

/-! ## The synchronizer over whole runs -/

/-- **Gesture synchronization.**  In every run, at most one retry is queued; a round of attempts,
from the start of one runnable to the start of the next, has at most 31; and when the handler has
nothing left to do, some stretch of the history that ends it and holds no notification either ends
with an attempt that succeeded, or consists of 31 attempts that all threw. -/
theorem changes_applied_or_exhausted (hrun : Run Step Synchronizer.created h s) :
    s.delayed ≤ 1 ∧
    (∀ g r rest, h = g ++ .startRunnable :: r ++ rest → (∀ e ∈ r, e ≠ .startRunnable) →
      (outcomes r).length ≤ 31) ∧
    (s.Settled →
      ∃ g r, h = g ++ r ∧ (∀ e ∈ r, e.isNotification = false) ∧
        ((outcomes r).getLast? = some (some .succeeded) ∨
          outcomes r = List.replicate 31 (some .threw))) := by
  have hs := Synchronized.run hrun
  refine ⟨hs.progress.delayed_le, ?_, ?_⟩
  · intro g r rest hh hr
    exact Synchronized.round_length_le hrun hh hr
  · intro hsettled
    rcases lastRound_suffix h with ⟨g, hg⟩
    exact ⟨g, lastRound h, hg.symm, hs.settled hsettled⟩

/-- The first attempt throws; a change is posted while its retry is running, and the round that the
change starts succeeds. -/
def retriedHistory : List Event :=
  [.startRunnable, .attempt false, .finish .threw, .attempt true, .notify, .finish .threw,
    .startRunnable, .attempt false, .finish .succeeded]

theorem retriedRun :
    ∃ s, Run Step Synchronizer.created retriedHistory s ∧ s.Settled :=
  ⟨_, Run.cons (Step.startRunnable rfl rfl)
    (Run.cons (Step.beginSynchronized rfl)
      (Run.cons (Step.finish rfl)
        (Run.cons (Step.beginDelayed rfl rfl)
          (Run.cons Step.notify
            (Run.cons (Step.finish rfl)
              (Run.cons (Step.startRunnable rfl rfl)
                (Run.cons (Step.beginSynchronized rfl)
                  (Run.cons (Step.finish rfl) Run.nil)))))))),
    rfl, by simp [Synchronizer.endApply, Synchronizer.beginSynchronized,
      Synchronizer.synchronizeSetting, Synchronizer.created], rfl⟩

theorem changes_applied_or_exhausted_retried :
    ∃ g r, retriedHistory = g ++ r ∧ (∀ e ∈ r, e.isNotification = false) ∧
      ((outcomes r).getLast? = some (some .succeeded) ∨
        outcomes r = List.replicate 31 (some .threw)) := by
  rcases retriedRun with ⟨s, hrun, hsettled⟩
  exact (changes_applied_or_exhausted hrun).2.2 hsettled

end Gestures
end M2391Device
