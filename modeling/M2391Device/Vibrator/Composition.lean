import M2391Device.Vibrator.StopWrites
import M2391Device.Vibrator.Wakeups

/-!
# Composition — a composition is played tap by tap, exactly as it was asked for

An accepted `compose` and what follows it are one history `g` that begins with the call.  Its
`played` writes and its tap `starts` grow with the index of the composition: while it is under way
(`Underway`) they are those of the taps started so far, and once it is over (`Over`) they are those
of all taps.  The two phases of each tap, the delay before it and its duration, are the two values
of `waitingForTap_`.
-/

namespace M2391Device
namespace Vibrator

open Transition

universe u v

variable {κ : Type u} {σ : Type v} {w : Writer σ} {c c' : Config κ σ} {e : Event κ}

/-! ## What a history played -/

namespace Event

/-- The writes of a step, without those of `setAmplitude`. -/
def played : Event κ → List Write
  | .setAmplitude _ _ _ => []
  | e => e.writes

/-- The tap that a step started, with the clock reading of the start. -/
def tapStart? : Event κ → Option (Nat × Int)
  | .compose now taps _ true _ => if (Motor.firstTap taps).delayMs > 0 then none else some (0, now)
  | .expire t _ (.tapStarted index) _ => some (index, t)
  | _ => none

theorem tapStart?_of_failed (hclient : e.isWorker = false) (hreturned : e.returned? = some false) :
    e.tapStart? = none := by
  cases e with
  | compose now taps complete returned writes =>
      have hfalse : returned = false := Option.some.inj hreturned
      rw [hfalse]
      rfl
  | expire _ _ _ _ => cases hclient
  | _ => rfl

theorem played_of_writes (h : e.writes = []) : e.played = [] := by
  cases e with
  | setAmplitude _ _ _ => rfl
  | _ => exact h

end Event

def played (g : List (Event κ)) : List Write := g.flatMap Event.played

def starts (g : List (Event κ)) : List (Nat × Int) := g.filterMap Event.tapStart?

theorem played_snoc (g : List (Event κ)) : played (g ++ [e]) = played g ++ e.played := by
  simp [played]

theorem starts_snoc (g : List (Event κ)) : starts (g ++ [e]) = starts g ++ e.tapStart?.toList := by
  cases hstart : e.tapStart? <;> simp [starts, hstart]

/-- Everything that a composition writes, given `active_` when it took the mutex. -/
def compositionWrites (active : Bool) (taps : List Tap) : List Write :=
  leadingStop active (Motor.firstTap taps) ++ taps.flatMap tapWrites

/-- How many taps of a pending composition have been started. -/
def Schedule.started (s : Schedule κ) : Nat :=
  if s.waitingForTap then s.tapIndex else s.tapIndex + 1

/-- The taps that a history started: the first `n` ones, in order, each not before its time. -/
structure StartedFirst (now : Int) (taps : List Tap) (n : Nat) (g : List (Event κ)) : Prop where
  order : (starts g).map Prod.fst = List.range n
  time : ∀ x ∈ starts g, now + millis (tapStart taps x.1) ≤ x.2

theorem StartedFirst.snoc_none {now : Int} {taps : List Tap} {n : Nat} {g : List (Event κ)}
    (h : StartedFirst now taps n g) (hnone : e.tapStart? = none) :
    StartedFirst now taps n (g ++ [e]) := by
  have hsame : starts (g ++ [e]) = starts g := by simp [starts_snoc, hnone]
  exact ⟨by rw [hsame]; exact h.order, by rw [hsame]; exact h.time⟩

theorem StartedFirst.snoc_some {now t : Int} {taps : List Tap} {n : Nat} {g : List (Event κ)}
    (h : StartedFirst now taps n g) (hsome : e.tapStart? = some (n, t))
    (htime : now + millis (tapStart taps n) ≤ t) :
    StartedFirst now taps (n + 1) (g ++ [e]) := by
  have hmore : starts (g ++ [e]) = starts g ++ [(n, t)] := by simp [starts_snoc, hsome]
  refine ⟨?_, ?_⟩
  · rw [hmore, List.map_append, h.order, List.range_succ]
    rfl
  · rw [hmore]
    intro x hx
    rcases List.mem_append.1 hx with hx | hx
    · exact h.time x hx
    · have hxe : x = (n, t) := by simpa using hx
      rw [hxe]
      exact htime

/-! ## Under way, and over -/

section Invariant

variable {active : Bool} {now : Int} {taps : List Tap} {complete : Option κ}
  {past g : List (Event κ)}

/-- The composition of the call at the head of `g` is the one in force, and `g` has played the
taps that its index says. -/
structure Underway (active : Bool) (now : Int) (taps : List Tap) (complete : Option κ)
    (past g : List (Event κ)) (c : Config κ σ) : Prop where
  quit : c.motor.quit = false
  pending : c.motor.pending = true
  carries : Carries ⟨now, .composition taps, complete⟩ c.motor.toSchedule
  inForce : InForce (past ++ g) past.length ⟨now, .composition taps, complete⟩
  played : played g = leadingStop active (Motor.firstTap taps) ++
    (taps.take c.motor.started).flatMap tapWrites
  starts : StartedFirst now taps c.motor.started g

/-- The worker is done with the composition, and `g` has played all of it. -/
structure Over (active : Bool) (now : Int) (taps : List Tap) (complete : Option κ)
    (past g : List (Event κ)) (c : Config κ σ) : Prop where
  quit : c.motor.quit = false
  pending : c.motor.pending = false
  finished : ∃ j t, FinishedAt (past ++ g) past.length j ⟨now, .composition taps, complete⟩ t true
    false ∧ now + millis (totalMs taps) ≤ t
  played : played g = compositionWrites active taps
  starts : StartedFirst now taps taps.length g

theorem FinishedAt.append {h h' : List (Event κ)} {i j : Nat} {r : Request κ} {t : Int}
    {stopped tapFailed : Bool} (hf : FinishedAt h i j r t stopped tapFailed) :
    FinishedAt (h ++ h') i j r t stopped tapFailed := by
  rcases hf with ⟨hforce, now, writes, hj⟩
  have hlt : j < h.length := (List.getElem?_eq_some_iff.1 hj).1
  refine ⟨?_, now, writes, ?_⟩
  · rw [List.take_append_of_le_length (Nat.le_of_lt hlt)]
    exact hforce
  · rw [List.getElem?_append_left hlt]
    exact hj

theorem InForce.snoc {h : List (Event κ)} {i : Nat} {r : Request κ} (hf : InForce h i r)
    (hlive : ¬ e.Ends) : InForce (h ++ [e]) i r := by
  rcases hf with ⟨f, hlatest, hr⟩
  exact ⟨f, hlatest.snoc_keep hlive, hr⟩

/-- A step that neither supersedes nor is an expiry. -/
structure Unchanged (c : Config κ σ) (e : Event κ) (c' : Config κ σ) : Prop where
  schedule : ∃ b, c'.motor.toSchedule = { c.motor.toSchedule with changed := b }
  played : e.played = []
  tapStart : e.tapStart? = none
  live : ¬ e.Ends

theorem Step.unchanged (hstep : Step w c e c') (hlive : e.supersedes = false)
    (hexpire : ∀ t now outcome writes, e ≠ .expire t now outcome writes) : Unchanged c e c' := by
  -- worker steps other than expiries touch the notification only; clients touch less
  by_cases hworker : e.isWorker = true
  · cases hstep with
    | resume _ =>
        exact ⟨⟨false, rfl⟩, rfl, rfl, by simp [Event.Ends, Event.supersedes, Event.finishes]⟩
    | superseded _ _ _ =>
        exact ⟨⟨false, rfl⟩, rfl, rfl, by simp [Event.Ends, Event.supersedes, Event.finishes]⟩
    | early _ _ _ _ =>
        exact ⟨⟨false, rfl⟩, rfl, rfl, by simp [Event.Ends, Event.supersedes, Event.finishes]⟩
    | expire _ _ _ _ _ _ _ => exact absurd rfl (hexpire _ _ _ _)
    | invoke _ =>
        exact ⟨⟨_, rfl⟩, rfl, rfl, by simp [Event.Ends, Event.supersedes, Event.finishes]⟩
    | _ => cases hworker
  · have hclient : e.isWorker = false := by simpa using hworker
    rcases hstep.unsuperseded hlive hclient with ⟨hschedule, _, _, hwrites⟩
    refine ⟨⟨c.motor.changed, hschedule⟩, ?_, ?_, ?_⟩
    · rcases hwrites with ⟨_, hnone⟩ | ⟨amplitude, returned, writes, rfl⟩
      · exact Event.played_of_writes hnone
      · rfl
    · rcases hwrites with ⟨hreturned, _⟩ | ⟨amplitude, returned, writes, rfl⟩
      · exact Event.tapStart?_of_failed hclient hreturned
      · rfl
    · have hfinishes : e.finishes = false := by
        cases e with
        | expire t now outcome writes => exact absurd rfl (hexpire t now outcome writes)
        | _ => rfl
      simp [Event.Ends, hlive, hfinishes]

theorem Unchanged.underway (h : Unchanged c e c') (hu : Underway active now taps complete past g c) :
    Underway active now taps complete past (g ++ [e]) c' := by
  rcases h.schedule with ⟨b, hschedule⟩
  have hstarted : c'.motor.started = c.motor.started := by rw [hschedule]; rfl
  refine ⟨?_, ?_, ?_, ?_, ?_, ?_⟩
  · rw [hschedule]
    exact hu.quit
  · rw [hschedule]
    exact hu.pending
  · rw [hschedule]
    exact hu.carries
  · rw [← List.append_assoc]
    exact hu.inForce.snoc h.live
  · rw [played_snoc, h.played, List.append_nil, hstarted]
    exact hu.played
  · rw [hstarted]
    exact hu.starts.snoc_none h.tapStart

theorem Unchanged.over (h : Unchanged c e c') (ho : Over active now taps complete past g c) :
    Over active now taps complete past (g ++ [e]) c' := by
  rcases h.schedule with ⟨b, hschedule⟩
  rcases ho.finished with ⟨j, t, hfinished, htime⟩
  refine ⟨?_, ?_, ⟨j, t, ?_, htime⟩, ?_, ?_⟩
  · rw [hschedule]
    exact ho.quit
  · rw [hschedule]
    exact ho.pending
  · rw [← List.append_assoc]
    exact hfinished.append
  · rw [played_snoc, h.played, List.append_nil]
    exact ho.played
  · exact ho.starts.snoc_none h.tapStart

/-- The fields of the schedule that the two phases of a tap move. -/
theorem Step.expireSchedule {t now : Int} {outcome : Motor.Expiry κ} {writes : List Write}
    (hstep : Step w c (.expire t now outcome writes) c') :
    c.motor.deadline ≤ t ∧ c.motor.pending = true ∧ c'.motor.quit = c.motor.quit ∧
    match outcome with
    | .tapStarted _ =>
        c'.motor.pending = true ∧ c'.motor.waitingForTap = false ∧
          c'.motor.tapIndex = c.motor.tapIndex
    | .nextTap index =>
        c'.motor.pending = true ∧ c'.motor.waitingForTap = true ∧ c'.motor.tapIndex = index
    | .finished _ _ _ => c'.motor.pending = false := by
  cases hstep with
  | @expire _ _ t now outcome m writes _ _ _ hlive hdeadline hexpire _ =>
      have hpending := (not_superseded hlive).2.1
      rcases afterExpiry_motor outcome m now with ⟨b, hmotor⟩
      rw [hmotor]
      refine ⟨hdeadline, hpending, ?_⟩
      rcases Motor.expire_cases w _ now hexpire with
        ⟨_, _, rfl, rfl⟩ | ⟨_, _, rfl, rfl⟩ | ⟨_, _, rfl, rfl⟩ | ⟨_, _, _, rfl, rfl⟩
      · exact ⟨rfl, hpending, rfl, rfl⟩
      · exact ⟨rfl, rfl⟩
      · exact ⟨rfl, hpending, rfl, rfl⟩
      · exact ⟨rfl, rfl⟩

/-- An expiry starts the next tap of the composition, enters the next delay, or is done with it. -/
theorem Underway.expire {t now' : Int} {outcome : Motor.Expiry κ} {writes : List Write}
    (hu : Underway active now taps complete past g c)
    (hstep : Step w c (.expire t now' outcome writes) c')
    (hok : (Event.expire t now' outcome writes).Succeeds) (harmed : Armed c.motor)
    (hrested : Rested c.motor) :
    Underway active now taps complete past (g ++ [.expire t now' outcome writes]) c' ∨
      Over active now taps complete past (g ++ [.expire t now' outcome writes]) c' := by
  rcases hu.carries with ⟨hcallback, htaps, hindex, hfinite, hdue⟩
  rcases hstep.expireSchedule with ⟨hdeadline, _, hquit, hmoved⟩
  -- a composition under way is a well-formed schedule
  have hscheduled : WellScheduled c.motor.toSchedule := by
    intro _
    refine Or.inr ⟨?_, hfinite⟩
    rw [htaps]
    exact hindex
  have hkept : c'.motor.pending = true →
      Carries ⟨now, .composition taps, complete⟩ c'.motor.toSchedule := by
    intro hpending
    rcases hstep.carries hpending with ⟨r, hr, _⟩ | ⟨_, _, hkeep⟩
    · cases hr
    · exact hkeep _ hu.carries
  rcases hstep.expireWrites hok hscheduled harmed hrested with
    ⟨hwait, rfl, rfl⟩ | ⟨hwait, hnext, rfl, rfl⟩ | ⟨hwait, hlast, rfl, hwrites⟩
  · -- the delay before the tap is over
    rcases hmoved with ⟨hpending', hwait', hindex'⟩
    have hstarted : c.motor.started = c.motor.tapIndex := by simp [Schedule.started, hwait]
    have hstarted' : c'.motor.started = c.motor.tapIndex + 1 := by
      simp [Schedule.started, hwait', hindex']
    -- the tap that was waited for is the next one of the list
    have htap : taps[c.motor.tapIndex]? = some c.motor.currentTap := by
      simp [Motor.currentTap, htaps, hindex]
    refine Or.inl ⟨by rw [hquit, hu.quit], hpending', hkept hpending', ?_, ?_, ?_⟩
    · rw [← List.append_assoc]
      exact hu.inForce.snoc (by simp [Event.Ends, Event.supersedes, Event.finishes])
    · have hsofar := hu.played
      rw [hstarted] at hsofar
      rw [played_snoc, hsofar, hstarted', List.take_add_one, htap]
      simp [Event.played, Event.writes]
    · have hsofar := hu.starts
      rw [hstarted] at hsofar
      rw [hstarted']
      refine hsofar.snoc_some rfl ?_
      have hstart : now + millis (tapStart taps c.motor.tapIndex) ≤ c.motor.deadline := by
        simpa [phaseMs, hwait] using hdue
      omega
  · -- the duration of the tap is over, and there is another one
    rcases hmoved with ⟨hpending', hwait', hindex'⟩
    have hstarted : c'.motor.started = c.motor.started := by
      simp [Schedule.started, hwait, hwait', hindex']
    refine Or.inl ⟨by rw [hquit, hu.quit], hpending', hkept hpending', ?_, ?_, ?_⟩
    · rw [← List.append_assoc]
      exact hu.inForce.snoc (by simp [Event.Ends, Event.supersedes, Event.finishes])
    · rw [played_snoc, hu.played, hstarted]
      simp [Event.played, Event.writes]
    · rw [hstarted]
      exact hu.starts.snoc_none rfl
  · -- the duration of the last tap is over
    have hall : c.motor.started = taps.length := by
      rw [htaps] at hlast
      simp only [Schedule.started, hwait]
      simp
      omega
    have hnone : writes = [] := by simpa [hfinite] using hwrites
    subst hnone
    have hended : now + millis (totalMs taps) ≤ t := by
      rw [htaps] at hlast
      have hphase : phaseMs taps c.motor.tapIndex c.motor.waitingForTap = totalMs taps := by
        simp [phaseMs, hwait, tapEnd_last hindex hlast]
      have hdue' : now + millis (totalMs taps) ≤ c.motor.deadline := by
        rw [← hphase]
        exact hdue
      omega
    refine Or.inr ⟨by rw [hquit, hu.quit], hmoved, ⟨(past ++ g).length, t, ?_, hended⟩, ?_, ?_⟩
    · rw [← List.append_assoc]
      refine ⟨?_, now', [], ?_⟩
      · rw [List.take_left]
        exact hu.inForce
      · simp [hcallback]
    · rw [played_snoc, hu.played, hall, List.take_length]
      simp [Event.played, Event.writes, compositionWrites]
    · have hsofar := hu.starts
      rw [hall] at hsofar
      exact hsofar.snoc_none rfl

theorem Underway.step (hu : Underway active now taps complete past g c) (hstep : Step w c e c')
    (hlive : e.supersedes = false) (hok : e.Succeeds) (harmed : Armed c.motor)
    (hrested : Rested c.motor) :
    Underway active now taps complete past (g ++ [e]) c' ∨
      Over active now taps complete past (g ++ [e]) c' := by
  by_cases hexpire : ∃ t now outcome writes, e = .expire t now outcome writes
  · rcases hexpire with ⟨t, now', outcome, writes, rfl⟩
    exact hu.expire hstep hok harmed hrested
  · have hunchanged := hstep.unchanged hlive (by simpa using hexpire)
    exact Or.inl (hunchanged.underway hu)

theorem Over.step (ho : Over active now taps complete past g c) (hstep : Step w c e c')
    (hlive : e.supersedes = false) : Over active now taps complete past (g ++ [e]) c' := by
  have hexpire : ∀ t now outcome writes, e ≠ .expire t now outcome writes := by
    rintro t now' outcome writes rfl
    have hcontra := hstep.expireSchedule.2.1
    rw [ho.pending] at hcontra
    cases hcontra
  exact (hstep.unchanged hlive hexpire).over ho

theorem Motor.started_accept (m : Motor κ σ) (taps : List Tap) (deadline : Int)
    (complete : Option κ) :
    ((m.beginCompose taps).toSchedule.accept deadline complete).started =
      if (Motor.firstTap taps).delayMs > 0 then 0 else 1 := by
  have hwait : ((m.beginCompose taps).toSchedule.accept deadline complete).waitingForTap =
      decide ((Motor.firstTap taps).delayMs > 0) := rfl
  have hindex : ((m.beginCompose taps).toSchedule.accept deadline complete).tapIndex = 0 := rfl
  rw [Schedule.started, hwait, hindex]
  by_cases hdelay : (Motor.firstTap taps).delayMs > 0
  · simp [hdelay]
  · simp [hdelay]

/-- The accepted call starts its first tap at once, or waits for that tap's delay. -/
theorem Step.underway {writes : List Write}
    (hstep : Step w c (.compose now taps complete true writes) c')
    (hok : (Event.compose now taps complete true writes).Succeeds) :
    Underway c.motor.active now taps complete past
      [.compose now taps complete true writes] c' := by
  have hwrites := (hstep.composeWrites hok).2
  have hplayed : played [.compose now taps complete true writes] = writes := by
    simp [played, Event.played, Event.writes]
  cases hstep with
  | compose hquit _ hcompose _ =>
      rcases Motor.compose_cases w _ hcompose with ⟨_, hfalse, _⟩ | ⟨_, hfalse, _⟩ | ⟨hacc, _, _, rfl⟩
      · cases hfalse
      · cases hfalse
      · have hstarted := c.motor.started_accept taps
          (now + millis (Motor.firstWait (Motor.firstTap taps))) complete
        have hnonempty : taps ≠ [] := fun hnil => hacc.1 (Or.inl hnil)
        -- a composition that starts at once has played its first tap with the call
        have hfirst : taps.take 1 = [Motor.firstTap taps] := by
          cases taps with
          | nil => exact absurd rfl hnonempty
          | cons tap rest => simp [Motor.firstTap]
        rw [if_pos hacc] at hwrites
        refine ⟨hquit, rfl, carries_compose _ _ _ hacc, ⟨_, Latest.snoc_new, rfl⟩, ?_, ?_⟩
        · rw [hplayed, hwrites]
          by_cases hdelay : (Motor.firstTap taps).delayMs > 0
          · simp [hstarted, hdelay]
          · simp [hstarted, hdelay, hfirst]
        · by_cases hdelay : (Motor.firstTap taps).delayMs > 0
          · rw [hstarted, if_pos hdelay]
            exact ⟨by simp [starts, Event.tapStart?, hdelay], by simp [starts, Event.tapStart?, hdelay]⟩
          · have hzero : (Motor.firstTap taps).delayMs = 0 := by
              have htap := hacc.2 _ (firstTap_mem hnonempty)
              unfold Motor.TapAccepted at htap
              omega
            rw [hstarted, if_neg hdelay]
            refine ⟨by simp [starts, Event.tapStart?, hdelay], ?_⟩
            simp [starts, Event.tapStart?, tapStart_zero, hzero, millis]

end Invariant

/-! ## Runs -/

section Runs

variable {c₀ c₁ : Config κ σ} {past h : List (Event κ)} {now : Int} {taps : List Tap}
  {complete : Option κ} {writes : List Write}

/-- However the run goes on without a superseding call, the composition is under way or over. -/
theorem composition_run (horigin : Origin w c₀) (hpast : Run (Step w) c₀ past c)
    (hcall : Step w c (.compose now taps complete true writes) c₁)
    (hrun : Run (Step w) c₁ h c') (hlive : ∀ x ∈ h, x.supersedes = false)
    (hok : ∀ x ∈ Event.compose now taps complete true writes :: h, x.Succeeds) :
    Underway c.motor.active now taps complete past
        (.compose now taps complete true writes :: h) c' ∨
      Over c.motor.active now taps complete past
        (.compose now taps complete true writes :: h) c' := by
  have hwhole := hpast.trans (Run.single hcall)
  -- induction on the run behind the call
  have htracks := hrun.historyInvariant
    (fun g d => (∀ x ∈ g, x.supersedes = false ∧ x.Succeeds) →
      Underway c.motor.active now taps complete past
          ([.compose now taps complete true writes] ++ g) d ∨
        Over c.motor.active now taps complete past
          ([.compose now taps complete true writes] ++ g) d) ?_ ?_
  · exact htracks (fun x hx => ⟨hlive x hx, hok x (List.mem_cons_of_mem _ hx)⟩)
  · intro _
    exact Or.inl (hcall.underway (hok _ (by simp)))
  · intro g t x u hpre ih hstep hgood
    have hreached := hwhole.trans hpre
    rcases hgood x (by simp) with ⟨hx, hxok⟩
    rw [← List.append_assoc]
    rcases ih (fun y hy => hgood y (List.mem_append_left _ hy)) with hunder | hover
    · exact hunder.step hstep hx hxok (armed_of_run horigin hreached)
        (rested_of_run horigin hreached)
    · exact Or.inr (hover.step hstep hx)

/-- A composition that was called back is over. -/
theorem Underway.not_completed {active : Bool} {g : List (Event κ)}
    (hu : Underway active now taps complete past g c) {k : Nat} :
    ¬ Completes (past ++ g) past.length k ⟨now, .composition taps, complete⟩ := by
  -- the expiry that took the callback would have ended the request
  rintro ⟨j, t, tapFailed, e, ⟨⟨f, hbefore, _⟩, _, _, hj⟩, _⟩
  rcases hu.inForce with ⟨f', hlatest, _⟩
  have hlt : past.length < j := (getElem?_of_take hbefore.1).1
  have hstale := hlatest.le_of_stale hj (Or.inr rfl)
  omega

/-- A composition that is over, and whose worker rests, was called back. -/
theorem Over.completed {active : Bool} {g : List (Event κ)} (hrun : Run (Step w) c₀ (past ++ g) c)
    (ho : Over active now taps complete past g c) (hresting : Resting c)
    (hsome : complete.isSome = true) :
    ∃ k, Completes (past ++ g) past.length k ⟨now, .composition taps, complete⟩ := by
  rcases ho.finished with ⟨j, t, hfinished, _⟩
  have hj := hfinished
  rcases hj with ⟨_, now', ws, hj⟩
  have hlt : j < (past ++ g).length := (List.getElem?_eq_some_iff.1 hj).1
  -- the first worker step behind the finishing expiry is the invocation
  by_cases hsteps : ∃ m x, j < m ∧ (past ++ g)[m]? = some x ∧ x.isWorker = true
  · rcases hsteps with ⟨m, x, hjm, hm, hx⟩
    rcases exists_first_after (P := fun y => y.isWorker = true) hjm hm hx with
      ⟨k, f, hjk, hk, hf, hfirst⟩
    have hclients : ∀ m y, j < m → m < k → (past ++ g)[m]? = some y → y.isWorker = false := by
      intro m y hm hmk hy
      simpa using hfirst m y hm hmk hy
    exact ⟨k, (hfinished.called_back hrun hjk hk hf hclients).2 hsome⟩
  · -- otherwise the worker is still about to call back
    have hclients : ∀ m y, j < m → m < (past ++ g).length → (past ++ g)[m]? = some y →
        y.isWorker = false := by
      intro m y hm _ hy
      by_contra hworker
      exact hsteps ⟨m, y, hm, hy, by simpa using hworker⟩
    rcases calling_until_worker hrun hj hclients hlt with ⟨c₂, hrest, hcalling⟩
    have hc₂ : c = c₂ := Run.nil_inv (by simpa using hrest)
    subst hc₂
    exact absurd hcalling (hresting.worker true complete)

/-- The number of worker steps that an accepted composition takes at most. -/
theorem stepsLeft_compose (hstep : Step w c (.compose now taps complete true writes) c') :
    c'.stepsLeft ≤ 2 * taps.length + 3 := by
  have hlag := c'.lag_le
  cases hstep with
  | compose _ _ hcompose _ =>
      rcases Motor.compose_cases w _ hcompose with
        ⟨_, hfalse, _⟩ | ⟨_, hfalse, _⟩ | ⟨hacc, _, _, rfl⟩
      · cases hfalse
      · cases hfalse
      · have hnonempty : taps ≠ [] := fun hnil => hacc.1 (Or.inl hnil)
        have hphases := Schedule.phasesLeft_le (s := (c.motor.beginCompose taps).toSchedule.accept
          (now + millis (Motor.firstWait (Motor.firstTap taps))) complete) hnonempty
        rw [Config.stepsLeft_pending rfl]
        have hsum := Nat.add_le_add (Nat.add_le_add_right hphases 1) hlag
        exact hsum

/-- **A composition is played exactly.**  On a device that takes every write, let `compose` accept
a composition in any reachable state, and let nothing supersede it.  What has been written for it
is the leading stop, if `active_` was set and the first tap is delayed or silent, and the two writes
of each audible tap started so far; the taps are started in order, each once and not before its
time.  Its callback is called after the whole of it has been played and its last duration is over,
and at most once.  It is called: the worker is never left asleep, from the deadline on it can always
take a step, and it cannot take more than `2 n + 3` steps that make progress without calling back. -/
theorem composition_played_exactly (horigin : Origin w c₀) (hpast : Run (Step w) c₀ past c)
    (hcall : Step w c (.compose now taps complete true writes) c₁)
    (hrun : Run (Step w) c₁ h c') (hlive : ∀ x ∈ h, x.supersedes = false)
    (hok : ∀ x ∈ Event.compose now taps complete true writes :: h, x.Succeeds) :
    (∃ n, n ≤ taps.length ∧
      played (.compose now taps complete true writes :: h) =
        leadingStop c.motor.active (Motor.firstTap taps) ++ (taps.take n).flatMap tapWrites ∧
      StartedFirst now taps n (.compose now taps complete true writes :: h) ∧
      ∀ k, Completes (past ++ .compose now taps complete true writes :: h) past.length k
        ⟨now, .composition taps, complete⟩ → n = taps.length) ∧
    (∀ k, Completes (past ++ .compose now taps complete true writes :: h) past.length k
        ⟨now, .composition taps, complete⟩ →
      played (.compose now taps complete true writes :: h) =
        compositionWrites c.motor.active taps ∧
      (∃ j t, j < k ∧
        FinishedAt (past ++ .compose now taps complete true writes :: h) past.length j
          ⟨now, .composition taps, complete⟩ t true false ∧
        now + millis (totalMs taps) ≤ t) ∧
      ∀ k', Completes (past ++ .compose now taps complete true writes :: h) past.length k'
        ⟨now, .composition taps, complete⟩ → k' = k) ∧
    (complete.isSome = true →
      (∃ k, Completes (past ++ .compose now taps complete true writes :: h) past.length k
        ⟨now, .composition taps, complete⟩) ∨
      (progress h < 2 * taps.length + 3 ∧ Notified c' ∧
        ∀ t, c'.clock ≤ t → c'.motor.deadline ≤ t →
          ∃ x d, Step w c' x d ∧ x.progresses = true)) := by
  have hstate := composition_run horigin hpast hcall hrun hlive hok
  have hwhole : Run (Step w) c₀ (past ++ .compose now taps complete true writes :: h) c' :=
    hpast.trans (Run.cons hcall hrun)
  have hquit : c'.motor.quit = false := by
    rcases hstate with hunder | hover
    · exact hunder.quit
    · exact hover.quit
  refine ⟨?_, ?_, ?_⟩
  · rcases hstate with hunder | hover
    · refine ⟨c'.motor.started, ?_, hunder.played, hunder.starts, ?_⟩
      · have hindex := hunder.carries.2.2.1
        unfold Schedule.started
        split <;> omega
      · intro k hk
        exact absurd hk hunder.not_completed
    · refine ⟨taps.length, Nat.le_refl _, ?_, hover.starts, fun _ _ => rfl⟩
      rw [List.take_length]
      exact hover.played
  · intro k hk
    rcases hstate with hunder | hover
    · exact absurd hk hunder.not_completed
    · refine ⟨hover.played, ?_, fun k' hk' => hk'.invocation_unique hk⟩
      rcases hover.finished with ⟨j, t, hfinished, htime⟩
      rcases hk with ⟨j', t', tapFailed, e, hfinished', hlatest, _, _⟩
      have hjj : j' = j := hfinished'.position_unique hfinished
      subst hjj
      exact ⟨j', t, (getElem?_of_take hlatest.1).1, hfinished, htime⟩
  · intro hsome
    -- either the worker has nothing left to do, or it is still on its way
    by_cases hresting : Resting c'
    · rcases hstate with hunder | hover
      · have hcontra := hresting.pending
        rw [hunder.pending] at hcontra
        cases hcontra
      · exact Or.inl (hover.completed hwhole hresting hsome)
    · refine Or.inr ⟨?_, notified_of_run horigin hwhole, ?_⟩
      · have hscheduled : WellScheduled c₁.motor.toSchedule :=
          (horigin.wellScheduled.run hpast).step hcall
        have hquit₁ : c₁.motor.quit = false :=
          (hcall.underway (hok _ (by simp)) : Underway _ now taps complete past _ c₁).quit
        have hsteps := stepsLeft_compose hcall
        rcases progress_bound hrun hlive hquit₁ hscheduled with hzero | hbound
        · exact absurd (Resting.of_stepsLeft hzero) hresting
        · have hpositive : c'.stepsLeft ≠ 0 := fun hzero => hresting (Resting.of_stepsLeft hzero)
          omega
      · intro t hclock hdeadline
        exact (notified_of_run horigin hwhole).next_step hquit hclock hdeadline

end Runs

/-- An audible tap, and after 3 ms a silent one. -/
def twoTaps : List Tap := [⟨0, 10, 0, 64⟩, ⟨3, 2, 1, 0⟩]

def twoTapsCall : Event Unit :=
  .compose 0 twoTaps (some ()) true [⟨.setMback, "0 1", true⟩, ⟨.gain, "64", true⟩]

def twoTapsHistory : List (Event Unit) :=
  [.resume,
    .expire 10000000 10000000 (.nextTap 1) [],
    .expire 13000000 13000000 (.tapStarted 1) [],
    .expire 15000000 15000000 (.finished true false (some ())) [],
    .invoke (some ())]

theorem composition_played_exactly_twoTaps :
    ∃ n, n ≤ twoTaps.length ∧
      played (twoTapsCall :: twoTapsHistory) =
        leadingStop false (Motor.firstTap twoTaps) ++ (twoTaps.take n).flatMap tapWrites := by
  have hwhole : ∃ c, Run (Step willingWriter) (Config.initialized willingWriter 0 ())
      (twoTapsCall :: twoTapsHistory) c :=
    ⟨_, Run.cons (Step.compose rfl (by decide) rfl (by decide))
      (Run.cons (Step.resume (Or.inl rfl))
        (Run.cons (Step.expire rfl (by decide) (by decide) (by decide) (by decide) rfl rfl)
          (Run.cons (Step.expire rfl (by decide) (by decide) (by decide) (by decide) rfl rfl)
            (Run.cons (Step.expire rfl (by decide) (by decide) (by decide) (by decide) rfl rfl)
              (Run.cons (@Step.invoke _ _ _ _ true (some ()) rfl) Run.nil)))))⟩
  rcases hwhole with ⟨c, hwhole⟩
  rcases hwhole.cons_inv with ⟨c₁, hcall, hrun⟩
  have hlive : ∀ x ∈ twoTapsHistory, x.supersedes = false := by
    simp [twoTapsHistory, Event.supersedes]
  have hok : ∀ x ∈ twoTapsCall :: twoTapsHistory, x.Succeeds := by
    simp [twoTapsCall, twoTapsHistory, Event.Succeeds, Event.writes]
  have hexact := composition_played_exactly ⟨0, (), Or.inr rfl⟩ Run.nil hcall hrun hlive hok
  rcases hexact.1 with ⟨n, hn, hplayed, _⟩
  exact ⟨n, hn, hplayed⟩

end Vibrator
end M2391Device
