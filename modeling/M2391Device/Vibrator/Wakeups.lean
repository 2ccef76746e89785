import M2391Device.Vibrator.FailedStart

/-!
# Wakeups — the worker is never left asleep on a request

Two facts that make a request complete.  A blocked worker that has something to do has been
notified, or has its timeout armed for the deadline (`Notified`): no notification is lost in the
windows where the worker does not hold the mutex.  And each step of the worker brings the pending
request closer to its end (`Config.stepsLeft`), except a wake-up before the deadline.
-/

namespace M2391Device
namespace Vibrator

open Transition

universe u v

variable {κ : Type u} {σ : Type v} {w : Writer σ} {c c' : Config κ σ} {e : Event κ}

/-! ## The head of the loop -/

section Head

variable {m : Motor κ σ}

theorem loopHead_exited_iff : loopHead m = .exited ↔ m.quit = true := by
  cases hquit : m.quit <;> cases hpending : m.pending <;> simp [loopHead, hquit, hpending]

theorem loopHead_idle_iff : loopHead m = .idle ↔ m.quit = false ∧ m.pending = false := by
  cases hquit : m.quit <;> cases hpending : m.pending <;> simp [loopHead, hquit, hpending]

theorem loopHead_timed_iff {generation : UInt64} {armed : Int} :
    loopHead m = .timed generation armed ↔
      m.quit = false ∧ m.pending = true ∧ m.generation = generation ∧ m.deadline = armed := by
  cases hquit : m.quit <;> cases hpending : m.pending <;> simp [loopHead, hquit, hpending]

end Head

/-! ## Notifications -/

structure Notified (c : Config κ σ) : Prop where
  exited : c.worker = .exited → c.motor.quit = true
  idle : c.worker = .idle → c.motor.quit = true ∨ c.motor.pending = true →
    c.motor.changed = true
  timed : ∀ generation armed, c.worker = .timed generation armed →
    c.motor.changed = true ∨
      (¬ Superseded c.motor generation ∧ armed = c.motor.deadline)

namespace Notified

/-- A worker that runs, or that has a notification to consume. -/
theorem of_changed (h : Notified c) (hworker : c'.worker = c.worker)
    (hquit : c.motor.quit = true → c'.motor.quit = true) (hchanged : c'.motor.changed = true) :
    Notified c' := by
  refine ⟨?_, fun _ _ => hchanged, fun _ _ _ => Or.inl hchanged⟩
  intro hexited
  rw [hworker] at hexited
  exact hquit (h.exited hexited)

/-- What the head of the loop blocks on is what the schedule asks for. -/
theorem enterLoop (m : Motor κ σ) (clock : Int) : Notified (Config.enterLoop m clock) := by
  refine ⟨?_, ?_, ?_⟩
  · intro hexited
    exact loopHead_exited_iff.1 hexited
  · intro hidle hwanted
    -- an idle worker has neither of the two reasons to go on
    rcases loopHead_idle_iff.1 hidle with ⟨hquit, hpending⟩
    have hwanted' : m.quit = true ∨ m.pending = true := hwanted
    simp [hquit, hpending] at hwanted'
  · intro generation armed htimed
    rcases loopHead_timed_iff.1 htimed with ⟨hquit, hpending, rfl, rfl⟩
    refine Or.inr ⟨?_, rfl⟩
    simp [Superseded, Config.enterLoop, hquit, hpending]

theorem of_running (hexited : c.worker ≠ .exited) (hidle : c.worker ≠ .idle)
    (htimed : ∀ generation armed, c.worker ≠ .timed generation armed) : Notified c :=
  ⟨fun h => absurd h hexited, fun h => absurd h hidle, fun g a h => absurd h (htimed g a)⟩

theorem step (h : Notified c) (hstep : Step w c e c') : Notified c' := by
  cases hstep with
  | play _ _ hplay _ =>
      -- a rejected call changes nothing; every other one notifies
      rcases Motor.play_cases w _ hplay with ⟨_, _, rfl⟩ | ⟨_, _, _, rfl⟩ | ⟨_, _, _, rfl⟩
      · exact ⟨h.exited, h.idle, h.timed⟩
      · exact h.of_changed rfl id rfl
      · exact h.of_changed rfl id rfl
  | setAmplitude _ hset _ =>
      cases hset
      exact ⟨h.exited, h.idle, h.timed⟩
  | compose _ _ hcompose _ =>
      rcases Motor.compose_cases w _ hcompose with ⟨_, _, rfl⟩ | ⟨_, _, _, rfl⟩ | ⟨_, _, _, rfl⟩
      · exact ⟨h.exited, h.idle, h.timed⟩
      · exact h.of_changed rfl id rfl
      · exact h.of_changed rfl id rfl
  | stop _ hstop _ =>
      cases hstop
      exact h.of_changed rfl id rfl
  | destroy _ hdestroy _ =>
      cases hdestroy
      exact h.of_changed rfl (fun _ => rfl) rfl
  | resume _ => exact enterLoop _ _
  | superseded _ _ _ => exact enterLoop _ _
  | early _ _ hlive _ =>
      refine ⟨?_, ?_, ?_⟩
      · intro hexited
        cases hexited
      · intro hidle
        cases hidle
      · intro generation armed htimed
        cases htimed
        exact Or.inr ⟨hlive, rfl⟩
  | @expire _ _ _ now outcome m _ _ _ _ _ _ _ _ =>
      cases outcome with
      | tapStarted index => exact enterLoop _ _
      | nextTap index => exact enterLoop _ _
      | finished stopped tapFailed callback =>
          refine of_running ?_ ?_ ?_ <;> simp [Config.afterExpiry]
  | invoke _ => refine of_running ?_ ?_ ?_ <;> simp

end Notified

theorem notified_of_run {c₀ : Config κ σ} {h : List (Event κ)} (horigin : Origin w c₀)
    (hrun : Run (Step w) c₀ h c) : Notified c := by
  refine hrun.invariant Notified ?_ (fun _ _ _ ht hstep => ht.step hstep)
  have hready := horigin.ready
  refine Notified.of_running ?_ ?_ ?_ <;> simp [hready]

/-! ## How far the worker is from calling back -/

/-- The expiries that the pending request still takes: two for each tap to come, one for a tap that
has started, and one for a wave. -/
def Schedule.phasesLeft (s : Schedule κ) : Nat :=
  if s.taps = [] then 1
  else if s.waitingForTap then 2 * (s.taps.length - s.tapIndex)
  else 2 * (s.taps.length - s.tapIndex) - 1

/-- The steps that the worker takes before it waits for the deadline of the pending request. -/
def Config.lag (c : Config κ σ) : Nat :=
  match c.worker with
  | .calling _ _ => 2
  | .timed generation _ => if generation = c.motor.generation then 0 else 1
  | _ => 1

/-- The steps of the worker up to and including the next invocation. -/
def Config.stepsLeft (c : Config κ σ) : Nat :=
  if c.motor.pending then c.motor.toSchedule.phasesLeft + 1 + c.lag
  else
    match c.worker with
    | .calling _ _ => 1
    | _ => 0

theorem Schedule.phasesLeft_le {s : Schedule κ} (h : s.taps ≠ []) :
    s.phasesLeft ≤ 2 * s.taps.length := by
  unfold Schedule.phasesLeft
  rw [if_neg h]
  split <;> omega

theorem Config.lag_le (c : Config κ σ) : c.lag ≤ 2 := by
  unfold Config.lag
  split
  · omega
  · split <;> omega
  · omega

/-- A step of the worker other than a wake-up before the deadline. -/
def Event.progresses : Event κ → Bool
  | .resume => true
  | .wake _ => true
  | .expire _ _ _ _ => true
  | .invoke _ => true
  | _ => false

def progress (h : List (Event κ)) : Nat := h.countP Event.progresses

/-- A call that supersedes nothing changes neither the schedule nor the worker: it was rejected, or
it sets the amplitude. -/
theorem Step.unsuperseded (hstep : Step w c e c') (hlive : e.supersedes = false)
    (hclient : e.isWorker = false) :
    c'.motor.toSchedule = c.motor.toSchedule ∧ c'.motor.active = c.motor.active ∧
      c'.worker = c.worker ∧
      ((e.returned? = some false ∧ e.writes = []) ∨
        ∃ amplitude returned writes, e = .setAmplitude amplitude returned writes) := by
  have hrejected : e.Rejected → c'.motor.toSchedule = c.motor.toSchedule ∧
      c'.motor.active = c.motor.active ∧ c'.worker = c.worker ∧
      ((e.returned? = some false ∧ e.writes = []) ∨
        ∃ amplitude returned writes, e = .setAmplitude amplitude returned writes) := by
    intro h
    rcases hstep.rejected h with ⟨hreturned, hwrites, hmotor, hworker⟩
    exact ⟨by rw [hmotor], by rw [hmotor], hworker, Or.inl ⟨hreturned, hwrites⟩⟩
  cases hstep with
  | play _ _ _ _ => exact hrejected (of_decide_eq_false hlive)
  | setAmplitude _ hset _ =>
      cases hset
      exact ⟨rfl, rfl, rfl, Or.inr ⟨_, _, _, rfl⟩⟩
  | compose _ _ _ _ => exact hrejected (of_decide_eq_false hlive)
  | stop _ _ _ => cases hlive
  | destroy _ _ _ => cases hlive
  | _ => cases hclient

theorem Config.enterLoop_lag {m : Motor κ σ} (clock : Int) (hquit : m.quit = false)
    (hpending : m.pending = true) : (Config.enterLoop m clock).lag = 0 := by
  simp [Config.lag, Config.enterLoop, loopHead, hquit, hpending]

theorem Config.enterLoop_stepsLeft {m : Motor κ σ} (clock : Int) (hquit : m.quit = false)
    (hpending : m.pending = true) :
    (Config.enterLoop m clock).stepsLeft = m.toSchedule.phasesLeft + 1 := by
  have hlag := Config.enterLoop_lag clock hquit hpending
  have hpending' : (Config.enterLoop m clock).motor.pending = true := hpending
  have hphases : (Config.enterLoop m clock).motor.toSchedule.phasesLeft =
      m.toSchedule.phasesLeft := rfl
  simp [Config.stepsLeft, hpending', hlag, hphases]

theorem Config.stepsLeft_pending (hpending : c.motor.pending = true) :
    c.stepsLeft = c.motor.toSchedule.phasesLeft + 1 + c.lag := by
  simp [Config.stepsLeft, hpending]

theorem Resting.stepsLeft (h : Resting c) : c.stepsLeft = 0 := by
  cases hw : c.worker with
  | calling stopped callback => exact absurd hw (h.worker stopped callback)
  | _ => simp [Config.stepsLeft, h.pending, hw]

theorem Resting.of_stepsLeft (h : c.stepsLeft = 0) : Resting c := by
  cases hpending : c.motor.pending with
  | true =>
      rw [Config.stepsLeft_pending hpending] at h
      omega
  | false =>
      refine ⟨hpending, ?_⟩
      intro stopped callback hcalling
      simp [Config.stepsLeft, hpending, hcalling] at h

/-- An expiry uses up one phase, or ends the request. -/
theorem Config.afterExpiry_stepsLeft {m m' : Motor κ σ} {now : Int} {outcome : Motor.Expiry κ}
    (hscheduled : WellScheduled m.toSchedule) (hpending : m.pending = true) (hquit : m.quit = false)
    (hexpire : m.expire w now = (outcome, m')) :
    (Config.afterExpiry outcome m' now).stepsLeft < m.toSchedule.phasesLeft + 1 := by
  -- a pending request has at least one expiry to come
  have hpositive : 0 < m.toSchedule.phasesLeft := by
    rcases hscheduled hpending with ⟨hnil, _⟩ | ⟨hindex, _⟩
    · simp [Schedule.phasesLeft, hnil]
    · have hne : m.taps ≠ [] := List.ne_nil_of_length_pos (Nat.zero_lt_of_lt hindex)
      cases hwait : m.waitingForTap <;> simp [Schedule.phasesLeft, hne, hwait] <;> omega
  -- each tap takes two expiries: one starts it, one ends it
  rcases Motor.expire_cases w m now hexpire with
    ⟨hwait, _, rfl, rfl⟩ | ⟨_, _, rfl, rfl⟩ | ⟨hwait, hnext, rfl, rfl⟩ | ⟨_, _, _, rfl, rfl⟩
  · have hindex := (hscheduled.waiting hpending hwait).1
    have hne : m.taps ≠ [] := List.ne_nil_of_length_pos (Nat.zero_lt_of_lt hindex)
    have hafter := Config.enterLoop_stepsLeft (κ := κ) (σ := σ)
      (m := ⟨m.toSchedule.tapStarted (now + millis m.currentTap.durationMs),
          (m.toHardware.fireTap w m.currentTap).2⟩) now hquit hpending
    simp only [Config.afterExpiry, hafter]
    simp [Schedule.phasesLeft, Schedule.tapStarted, hne, hwait]
    omega
  · simpa [Config.afterExpiry, Config.stepsLeft, Schedule.finish] using hpositive
  · have hne : m.taps ≠ [] := List.ne_nil_of_length_pos (Nat.zero_lt_of_lt hnext)
    have hafter := Config.enterLoop_stepsLeft (κ := κ) (σ := σ)
      (m := ⟨m.toSchedule.nextTap
          (now + millis (m.taps.getD (m.tapIndex + 1) ⟨0, 0, 0, 0⟩).delayMs),
            (m.toHardware.closeWave w m.continuous true).2⟩) now hquit hpending
    simp only [Config.afterExpiry, hafter]
    simp [Schedule.phasesLeft, Schedule.nextTap, hne, hwait]
    omega
  · simpa [Config.afterExpiry, Config.stepsLeft, Schedule.finish] using hpositive

/-- Unless the next invocation is over, each step that makes progress brings it closer, and no
other step but a superseding call sets it back. -/
theorem Step.stepsLeft (hstep : Step w c e c') (hlive : e.supersedes = false)
    (hquit : c.motor.quit = false) (hscheduled : WellScheduled c.motor.toSchedule) :
    c.stepsLeft = 0 ∨ c'.stepsLeft + (if e.progresses then 1 else 0) ≤ c.stepsLeft := by
  by_cases hworker : e.isWorker = true
  · cases hstep with
    | resume hready =>
        -- coming back to the head of the loop is the one step it lags behind
        have hlag : c.lag = 1 := by
          rcases hready with hready | hready <;> simp [Config.lag, hready]
        cases hpending : c.motor.pending with
        | true =>
            have hafter := Config.enterLoop_stepsLeft c.clock hquit hpending
            have hbefore := Config.stepsLeft_pending hpending
            refine Or.inr ?_
            simp [hafter, hbefore, hlag, Event.progresses]
        | false =>
            refine Or.inl (Resting.stepsLeft ⟨hpending, ?_⟩)
            intro stopped callback hcalling
            rw [hcalling] at hready
            rcases hready with hready | hready <;> cases hready
    | @superseded generation armed t htimed _ hgone =>
        cases hpending : c.motor.pending with
        | true =>
            have hlag : c.lag = 1 := by
              -- something is pending, so it was superseded by a newer generation
              have hne : generation ≠ c.motor.generation := by
                intro heq
                simp [Superseded, hquit, hpending, heq] at hgone
              simp [Config.lag, htimed, hne]
            have hafter := Config.enterLoop_stepsLeft t hquit hpending
            have hbefore := Config.stepsLeft_pending hpending
            refine Or.inr ?_
            simp [hafter, hbefore, hlag, Event.progresses]
        | false =>
            refine Or.inl (Resting.stepsLeft ⟨hpending, ?_⟩)
            intro stopped callback hcalling
            rw [hcalling] at htimed
            cases htimed
    | early htimed _ _ _ =>
        refine Or.inr ?_
        simp [Config.stepsLeft, Config.lag, htimed, Event.progresses, Schedule.phasesLeft]
    | @expire generation _ _ now outcome m _ _ _ _ hlive' _ hexpire _ =>
        have hpending := (not_superseded hlive').2.1
        have hafter := Config.afterExpiry_stepsLeft hscheduled hpending hquit hexpire
        have hbefore := Config.stepsLeft_pending hpending
        refine Or.inr ?_
        simp only [Event.progresses, if_true]
        omega
    | @invoke stopped callback hcalling =>
        refine Or.inr ?_
        cases hpending : c.motor.pending with
        | true => simp [Config.stepsLeft, Config.lag, hpending, hcalling, Event.progresses,
            Schedule.phasesLeft]
        | false => simp [Config.stepsLeft, hpending, hcalling, Event.progresses]
    | _ => cases hworker
  · have hclient : e.isWorker = false := by simpa using hworker
    rcases hstep.unsuperseded hlive hclient with ⟨hschedule, _, hsame, _⟩
    -- a call that supersedes nothing leaves the measure as it is
    have hquiet : e.progresses = false := by
      cases e <;> first | rfl | cases hclient
    refine Or.inr ?_
    simp [Config.stepsLeft, Config.lag, hschedule, hsame, hquiet]

theorem Step.quit (hstep : Step w c e c') (hlive : e.supersedes = false) :
    c'.motor.quit = c.motor.quit := by
  by_cases hworker : e.isWorker = true
  · cases hstep with
    | resume _ => rfl
    | superseded _ _ _ => rfl
    | early _ _ _ _ => rfl
    | @expire _ _ _ now outcome m _ _ _ _ _ _ hexpire _ =>
        rcases afterExpiry_motor outcome m now with ⟨b, hmotor⟩
        rw [hmotor]
        rcases Motor.expire_cases w _ now hexpire with
          ⟨_, _, _, rfl⟩ | ⟨_, _, _, rfl⟩ | ⟨_, _, _, rfl⟩ | ⟨_, _, _, _, rfl⟩
        all_goals rfl
    | invoke _ => rfl
    | _ => cases hworker
  · have hclient : e.isWorker = false := by simpa using hworker
    rw [(hstep.unsuperseded hlive hclient).1]

/-- Once the invocation is over, only a new request gives the worker anything to do. -/
theorem Resting.step (h : Resting c) (hstep : Step w c e c') (hlive : e.supersedes = false) :
    Resting c' := by
  by_cases hworker : e.isWorker = true
  · exact (hstep.idling hworker h.pending).2.2.2
  · have hclient : e.isWorker = false := by simpa using hworker
    rcases hstep.unsuperseded hlive hclient with ⟨hschedule, _, hsame, _⟩
    refine ⟨?_, ?_⟩
    · rw [hschedule]
      exact h.pending
    · rw [hsame]
      exact h.worker

/-- Over a run that supersedes nothing, the steps that make progress are bounded until the next
invocation is over. -/
theorem progress_bound {h : List (Event κ)} (hrun : Run (Step w) c h c')
    (hlive : ∀ x ∈ h, x.supersedes = false) (hquit : c.motor.quit = false)
    (hscheduled : WellScheduled c.motor.toSchedule) :
    c'.stepsLeft = 0 ∨ c'.stepsLeft + progress h ≤ c.stepsLeft := by
  -- induction on the run; once the measure is zero it stays zero
  have hbound := hrun.historyInvariant
    (fun g d => (∀ x ∈ g, x.supersedes = false) →
      d.motor.quit = false ∧ WellScheduled d.motor.toSchedule ∧
        (d.stepsLeft = 0 ∨ d.stepsLeft + progress g ≤ c.stepsLeft)) ?_ ?_
  · exact (hbound hlive).2.2
  · intro _
    exact ⟨hquit, hscheduled, Or.inr (by simp [progress])⟩
  · intro g t x u _ ih hstep hlive'
    rcases ih (fun y hy => hlive' y (List.mem_append_left _ hy)) with
      ⟨hquit', hscheduled', hleft⟩
    have hx : x.supersedes = false := hlive' x (by simp)
    refine ⟨by rw [hstep.quit hx, hquit'], hscheduled'.step hstep, ?_⟩
    have hcount : progress (g ++ [x]) = progress g + if x.progresses then 1 else 0 := by
      simp [progress, List.countP_append, List.countP_singleton]
    rcases hstep.stepsLeft hx hquit' hscheduled' with hzero | hless
    · exact Or.inl ((Resting.of_stepsLeft hzero).step hstep hx).stepsLeft
    · rcases hleft with hzero | hleft
      · exact Or.inl ((Resting.of_stepsLeft hzero).step hstep hx).stepsLeft
      · refine Or.inr ?_
        rw [hcount]
        omega

/-- From the deadline on the worker can make progress at once, unless the object is destroyed. -/
theorem Notified.next_step (hnotified : Notified c) (hquit : c.motor.quit = false)
    {t : Int} (hclock : c.clock ≤ t) (hdeadline : c.motor.deadline ≤ t) :
    ∃ x d, Step w c x d ∧ x.progresses = true := by
  cases hworker : c.worker with
  | ready => exact ⟨_, _, Step.resume (Or.inl hworker), rfl⟩
  | idle => exact ⟨_, _, Step.resume (Or.inr hworker), rfl⟩
  | timed generation armed =>
      by_cases hgone : Superseded c.motor generation
      · exact ⟨_, _, Step.superseded hworker hclock hgone, rfl⟩
      · rcases Motor.expire_log w c.motor t with ⟨writes, hlog⟩
        exact ⟨_, _, Step.expire hworker hclock (Int.le_refl t) hgone hdeadline rfl hlog, rfl⟩
  | calling stopped callback => exact ⟨_, _, Step.invoke hworker, rfl⟩
  | exited =>
      have hcontra := hnotified.exited hworker
      rw [hquit] at hcontra
      cases hcontra

end Vibrator
end M2391Device
