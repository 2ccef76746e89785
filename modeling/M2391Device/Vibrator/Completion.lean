import M2391Device.Vibrator.Requests
import M2391Device.Vibrator.Writes

/-!
# Completion — who is called back, how often, and when

The worker moves the callback out under the mutex and calls it after it has given the mutex up.
`FinishedAt h i j` says that the expiry at position `j` moved out the callback of the call at
position `i`; `Completes h i k` says that the invocation at position `k` calls it.  Everything here
is about whole histories: each invocation belongs to exactly one accepted call, each accepted call
to at most one invocation, and the expiry between them is never early and never follows a call that
superseded the request.
-/

namespace M2391Device
namespace Vibrator

open Transition

universe u v

variable {κ : Type u} {σ : Type v} {w : Writer σ}

/-- The expiry at position `j`, whose wait timed out at `t`, is done with the request that the call
at position `i` made: nothing superseded or finished it in between. -/
def FinishedAt (h : List (Event κ)) (i j : Nat) (r : Request κ) (t : Int)
    (stopped tapFailed : Bool) : Prop :=
  InForce (h.take j) i r ∧
    ∃ now writes, h[j]? = some (.expire t now (.finished stopped tapFailed r.complete) writes)

/-- The invocation at position `k` calls back the call at position `i`. -/
def Completes (h : List (Event κ)) (i k : Nat) (r : Request κ) : Prop :=
  ∃ j t tapFailed e, FinishedAt h i j r t true tapFailed ∧
    Latest (h.take k) (fun x => x.isWorker = true) j e ∧
    h[k]? = some (.invoke r.complete) ∧ r.complete.isSome = true

/-! ## The worker between expiry and invocation -/

theorem loopHead_ne_calling (m : Motor κ σ) (stopped : Bool) (callback : Option κ) :
    loopHead m ≠ .calling stopped callback := by
  unfold loopHead
  split
  · simp
  · split <;> simp

/-- The worker gets to the invocation only through an expiry that finished a request, and nobody
else moves it from there. -/
theorem Step.calling {c c' : Config κ σ} {e : Event κ} {stopped : Bool} {callback : Option κ}
    (hstep : Step w c e c') (hcalling : c'.worker = .calling stopped callback) :
    (c.worker = .calling stopped callback ∧ e.isWorker = false) ∨
      ∃ t now tapFailed writes, e = .expire t now (.finished stopped tapFailed callback) writes := by
  -- clients leave the worker alone, and the head of the loop never calls back
  cases hstep with
  | play _ _ _ _ => exact Or.inl ⟨hcalling, rfl⟩
  | setAmplitude _ _ _ => exact Or.inl ⟨hcalling, rfl⟩
  | compose _ _ _ _ => exact Or.inl ⟨hcalling, rfl⟩
  | stop _ _ _ => exact Or.inl ⟨hcalling, rfl⟩
  | destroy _ _ _ => exact Or.inl ⟨hcalling, rfl⟩
  | resume _ => exact absurd hcalling (loopHead_ne_calling _ _ _)
  | superseded _ _ _ => exact absurd hcalling (loopHead_ne_calling _ _ _)
  | early _ _ _ _ => cases hcalling
  | @expire _ _ t now outcome m writes _ _ _ _ _ _ _ =>
      cases outcome with
      | finished stopped' tapFailed callback' =>
          cases hcalling
          exact Or.inr ⟨t, now, tapFailed, writes, rfl⟩
      | tapStarted index => exact absurd hcalling (loopHead_ne_calling _ _ _)
      | nextTap index => exact absurd hcalling (loopHead_ne_calling _ _ _)
  | invoke _ => cases hcalling

theorem Origin.ready {c : Config κ σ} (h : Origin w c) : c.worker = .ready := by
  rcases h with ⟨clock, d, rfl | rfl⟩ <;> rfl

section Runs

variable {c₀ c : Config κ σ} {h : List (Event κ)}

/-- While the worker is about to call back, its last step was the expiry that moved the callback
out. -/
theorem expired_of_calling (horigin : Origin w c₀) (hrun : Run (Step w) c₀ h c)
    {stopped : Bool} {callback : Option κ} (hcalling : c.worker = .calling stopped callback) :
    ∃ j t now tapFailed writes,
      Latest h (fun x => x.isWorker = true) j
        (.expire t now (.finished stopped tapFailed callback) writes) := by
  -- induction on the run: the expiry stays the last worker step until the invocation
  have htracks := hrun.historyInvariant
    (fun h c => c.worker = .calling stopped callback →
      ∃ j t now tapFailed writes, Latest h (fun x => x.isWorker = true) j
        (.expire t now (.finished stopped tapFailed callback) writes)) ?_ ?_
  · exact htracks hcalling
  · intro hstart
    rw [horigin.ready] at hstart
    cases hstart
  · intro g t e u _ ih hstep hu
    rcases hstep.calling hu with ⟨ht, hclient⟩ | ⟨t, now, tapFailed, writes, rfl⟩
    · rcases ih ht with ⟨j, t, now, tapFailed, writes, hlatest⟩
      refine ⟨j, t, now, tapFailed, writes, hlatest.snoc_keep ?_⟩
      simp [hclient]
    · exact ⟨g.length, t, now, tapFailed, writes, Latest.snoc_new⟩

/-- A delayed tap that failed to start was cleaned up with the stop command, whose outcome decides
whether the request counts as stopped. -/
theorem Step.tapFailed_writes {c c' : Config κ σ} {t now : Int} {stopped : Bool}
    {callback : Option κ} {writes : List Write}
    (hstep : Step w c (.expire t now (.finished stopped true callback) writes) c') :
    ∃ ws, writes = ws ++ [Hardware.stopWrite stopped] ∧ ∃ x ∈ ws, x.ok = false := by
  cases hstep with
  | expire _ _ _ _ _ hexpire hlog =>
      rcases Motor.expire_cases w _ now hexpire with
        ⟨_, _, houtcome, _⟩ | ⟨_, hfail, houtcome, rfl⟩ | ⟨_, _, houtcome, _⟩ |
          ⟨_, _, _, houtcome, _⟩
      · cases houtcome
      · cases houtcome
        rcases Motor.failedTap_writes w c.motor.toHardware hfail with ⟨ws, hws, hx⟩
        exact ⟨ws, List.append_cancel_left (hlog.symm.trans hws), hx⟩
      · cases houtcome
      · cases houtcome

/-- Every expiry that finishes a request finishes the one in force, takes that request's callback,
and is not early for it. -/
theorem finishedAt_of_expire (horigin : Origin w c₀) (hrun : Run (Step w) c₀ h c)
    {j : Nat} {t now : Int} {stopped tapFailed : Bool} {callback : Option κ}
    {writes : List Write}
    (hj : h[j]? = some (.expire t now (.finished stopped tapFailed callback) writes)) :
    ∃ i r, FinishedAt h i j r t stopped tapFailed ∧ callback = r.complete ∧ Due r tapFailed t := by
  -- the request in force just before the expiry is the one it finishes
  rcases hrun.atIndex hj with ⟨c₁, c₂, hpre, hstep, _⟩
  cases hstep with
  | expire _ _ _ hlive hdeadline hexpire _ =>
      rcases inForce_of_pending horigin hpre (not_superseded hlive).2.1 with
        ⟨i, r, hforce, hcarries⟩
      rcases hcarries.finished hdeadline hexpire with ⟨rfl, hdue⟩
      exact ⟨i, r, ⟨hforce, now, writes, hj⟩, rfl, hdue⟩

/-- At most one request is in force. -/
theorem InForce.unique {i i' : Nat} {r r' : Request κ}
    (hends : ∀ (m : Nat) (e : Event κ), h[m]? = some e → e.request?.isSome = true → e.Ends)
    (hf : InForce h i r) (hf' : InForce h i' r') : i = i' ∧ r = r' := by
  rcases hf with ⟨e, hlatest, hr⟩
  rcases hf' with ⟨e', hlatest', hr'⟩
  have he : e.Ends := hends i e hlatest.1 (by simp [hr])
  have he' : e'.Ends := hends i' e' hlatest'.1 (by simp [hr'])
  have hi : i = i' := hlatest.unique hlatest' he he'
  subst hi
  have hee : e = e' := Option.some.inj (hlatest.1.symm.trans hlatest'.1)
  subst hee
  exact ⟨rfl, Option.some.inj (hr.symm.trans hr')⟩

/-- The request that an expiry finishes is determined by the position of the expiry. -/
theorem FinishedAt.request_unique {i i' j : Nat} {r r' : Request κ} {t t' : Int}
    {stopped stopped' tapFailed tapFailed' : Bool}
    (hends : ∀ (m : Nat) (e : Event κ), h[m]? = some e → e.request?.isSome = true → e.Ends)
    (hf : FinishedAt h i j r t stopped tapFailed)
    (hf' : FinishedAt h i' j r' t' stopped' tapFailed') : i = i' ∧ r = r' := by
  refine InForce.unique ?_ hf.1 hf'.1
  intro m e hm
  exact hends m e (getElem?_of_take hm).2

/-- A call is finished at most once. -/
theorem FinishedAt.position_unique {i j j' : Nat} {r r' : Request κ} {t t' : Int}
    {stopped stopped' tapFailed tapFailed' : Bool}
    (hf : FinishedAt h i j r t stopped tapFailed)
    (hf' : FinishedAt h i j' r' t' stopped' tapFailed') : j = j' := by
  refine eq_of_never_before
    (P := fun j => ∃ r t stopped tapFailed, FinishedAt h i j r t stopped tapFailed) ?_
    ⟨r, t, stopped, tapFailed, hf⟩ ⟨r', t', stopped', tapFailed', hf'⟩
  rintro j j' ⟨r, t, stopped, tapFailed, ⟨e, hlatest, _⟩, now, writes, hj⟩
    ⟨r', t', stopped', tapFailed', ⟨e', hlatest', _⟩, _⟩ hlt
  -- the first expiry ends the request, so it cannot lie between the call and the second
  have hbefore : i < j := (getElem?_of_take hlatest.1).1
  have hstale := hlatest'.le_of_stale (getElem?_take_of_lt hlt hj) (Or.inr rfl)
  omega

/-- An accepted call passed its argument checks, so it superseded what was there. -/
theorem Step.ends_of_request {c c' : Config κ σ} {e : Event κ} (hstep : Step w c e c')
    (hr : e.request?.isSome = true) : e.Ends := by
  cases hstep with
  | play _ _ hplay _ =>
      rcases Motor.play_cases w _ hplay with ⟨_, rfl, _⟩ | ⟨_, rfl, _⟩ | ⟨hacc, _⟩
      · simp [Event.request?] at hr
      · simp [Event.request?] at hr
      · simp [Event.Ends, Event.supersedes, hacc]
  | compose _ _ hcompose _ =>
      rcases Motor.compose_cases w _ hcompose with ⟨_, rfl, _⟩ | ⟨_, rfl, _⟩ | ⟨hacc, _⟩
      · simp [Event.request?] at hr
      · simp [Event.request?] at hr
      · simp [Event.Ends, Event.supersedes, hacc]
  | stop _ _ _ => exact Or.inl rfl
  | destroy _ _ _ => exact Or.inl rfl
  | _ => simp [Event.request?] at hr

theorem ends_of_request (hrun : Run (Step w) c₀ h c) (m : Nat) (e : Event κ)
    (hm : h[m]? = some e) (hr : e.request?.isSome = true) : e.Ends := by
  rcases hrun.atIndex hm with ⟨c₁, c₂, _, hstep, _⟩
  exact hstep.ends_of_request hr

theorem completes_of_invoke (horigin : Origin w c₀) (hrun : Run (Step w) c₀ h c)
    {k : Nat} {callback : κ} (hk : h[k]? = some (.invoke (some callback))) :
    ∃ i r, Completes h i k r ∧ r.complete = some callback := by
  rcases hrun.atIndex hk with ⟨c₁, c₂, hpre, hstep, _⟩
  generalize hinvoked : (Event.invoke (some callback) : Event κ) = e at hstep
  cases hstep with
  | @invoke stopped moved hcalling =>
      -- the invocation is real only when the hardware was stopped and a callback was given
      have hcond : (if stopped then moved else none) = some callback :=
        (Event.invoke.inj hinvoked).symm
      cases stopped with
      | false => cases hcond
      | true =>
          have hmoved : moved = some callback := hcond
          rcases expired_of_calling horigin hpre hcalling with
            ⟨j, t, now, tapFailed, writes, hlatest⟩
          have hj := (getElem?_of_take hlatest.1).2
          rcases finishedAt_of_expire horigin hrun hj with ⟨i, r, hfinished, hr, _⟩
          have hcomplete : r.complete = some callback := hr.symm.trans hmoved
          refine ⟨i, r, ⟨j, t, tapFailed, _, hfinished, hlatest, ?_, ?_⟩, hcomplete⟩
          · rw [hcomplete]
            exact hk
          · simp [hcomplete]
  | _ => cases hinvoked

theorem Completes.call_unique (hrun : Run (Step w) c₀ h c) {i i' k : Nat} {r r' : Request κ}
    (hc : Completes h i k r) (hc' : Completes h i' k r') : i = i' ∧ r = r' := by
  rcases hc with ⟨j, t, tapFailed, e, hf, hlatest, _, _⟩
  rcases hc' with ⟨j', t', tapFailed', e', hf', hlatest', _, _⟩
  have hworker : ∀ {j : Nat} {e : Event κ} {i : Nat} {r : Request κ} {t : Int} {tapFailed : Bool},
      FinishedAt h i j r t true tapFailed →
      Latest (h.take k) (fun x => x.isWorker = true) j e → e.isWorker = true := by
    intro j e i r t tapFailed hf hlatest
    rcases hf with ⟨_, now, writes, hj⟩
    have he : e = _ := Option.some.inj ((getElem?_of_take hlatest.1).2.symm.trans hj)
    rw [he]
    rfl
  -- both are the last worker step before the invocation
  have hjj : j = j' := hlatest.unique hlatest' (hworker hf hlatest) (hworker hf' hlatest')
  subst hjj
  exact hf.request_unique (ends_of_request hrun) hf'

/-- A call is called back at most once. -/
theorem Completes.invocation_unique {i k k' : Nat} {r r' : Request κ}
    (hc : Completes h i k r) (hc' : Completes h i k' r') : k = k' := by
  refine eq_of_never_before (P := fun k => ∃ r, Completes h i k r) ?_ ⟨r, hc⟩ ⟨r', hc'⟩
  rintro k k' ⟨r, j, t, tapFailed, e, hf, hlatest, hk, _⟩
    ⟨r', j', t', tapFailed', e', hf', hlatest', _, _⟩ hlt
  -- both invocations follow the same expiry, but the first is itself a step of the worker
  have hjj : j = j' := hf.position_unique hf'
  subst hjj
  have hbefore : j < k := (getElem?_of_take hlatest.1).1
  have hstale := hlatest'.le_of_stale (getElem?_take_of_lt hlt hk) rfl
  omega

/-- **Completion callbacks.**  In every run, each invocation calls back exactly one call, which was
accepted; each call is called back at most once, and its callback is moved out at most once; a call
that was not accepted is never called back; and the expiry that moves the callback of a request out
comes with nothing that superseded the request in between, and not before the request is due, unless
a write of a delayed tap failed in it. -/
theorem callbacks_once_own_never_early (horigin : Origin w c₀) (hrun : Run (Step w) c₀ h c) :
    (∀ k callback, h[k]? = some (.invoke (some callback)) →
      ∃ i r, Completes h i k r ∧ r.complete = some callback) ∧
    (∀ i i' k r r', Completes h i k r → Completes h i' k r' → i = i' ∧ r = r') ∧
    (∀ i k k' r r', Completes h i k r → Completes h i k' r' → k = k') ∧
    (∀ i j j' r r' t t' stopped stopped' tapFailed tapFailed',
      FinishedAt h i j r t stopped tapFailed →
      FinishedAt h i j' r' t' stopped' tapFailed' → j = j') ∧
    (∀ i e, h[i]? = some e → e.request? = none → ∀ k r, ¬ Completes h i k r) ∧
    (∀ j t now stopped tapFailed callback writes,
      h[j]? = some (.expire t now (.finished stopped tapFailed callback) writes) →
      (∃ i r, FinishedAt h i j r t stopped tapFailed ∧ callback = r.complete ∧
        Due r tapFailed t) ∧
      (tapFailed = true → ∃ x ∈ writes, x.ok = false)) := by
  refine ⟨?_, ?_, ?_, ?_, ?_, ?_⟩
  · intro k callback hk
    exact completes_of_invoke horigin hrun hk
  · intro i i' k r r' hc hc'
    exact hc.call_unique hrun hc'
  · intro i k k' r r' hc hc'
    exact hc.invocation_unique hc'
  · intro i j j' r r' t t' stopped stopped' tapFailed tapFailed' hf hf'
    exact hf.position_unique hf'
  · rintro i e hi hnone k r ⟨j, t, tapFailed, _, ⟨⟨f, hlatest, hr⟩, _⟩, _⟩
    have hef : e = f := Option.some.inj (hi.symm.trans (getElem?_of_take hlatest.1).2)
    rw [← hef, hnone] at hr
    cases hr
  · intro j t now stopped tapFailed callback writes hj
    refine ⟨finishedAt_of_expire horigin hrun hj, ?_⟩
    intro hfailed
    subst hfailed
    rcases hrun.atIndex hj with ⟨c₁, c₂, _, hstep, _⟩
    rcases hstep.tapFailed_writes with ⟨ws, rfl, x, hx, hxok⟩
    exact ⟨x, List.mem_append_left _ hx, hxok⟩

end Runs

/-- A device that takes every write. -/
def willingWriter : Writer Unit := fun _ _ _ => (true, ())

def lateRequest : Request Unit := ⟨0, .wave 5 0, some ()⟩

/-- A wave of 5 ms whose callback the worker has moved out when `stop()` takes the mutex. -/
def lateHistory : List (Event Unit) :=
  [.play 0 5 0 64 (some ()) true [⟨.setMback, "0 1", true⟩, ⟨.gain, "64", true⟩],
    .resume,
    .expire 5000000 5000000 (.finished true false (some ())) [],
    .stop true [],
    .invoke (some ())]

theorem lateRun :
    ∃ c, Run (Step willingWriter) (Config.initialized willingWriter 0 ()) lateHistory c :=
  ⟨_, Run.cons (Step.play rfl (by decide) rfl (by decide))
    (Run.cons (Step.resume (Or.inl rfl))
      (Run.cons (Step.expire rfl (by decide) (by decide) (by decide) (by decide) rfl rfl)
        (Run.cons (Step.stop rfl rfl rfl)
          (Run.cons (@Step.invoke _ _ _ _ true (some ()) rfl) Run.nil))))⟩

theorem callbacks_once_own_never_early_late :
    ∃ i r, Completes lateHistory i 4 r ∧ r.complete = some () := by
  rcases lateRun with ⟨c, hrun⟩
  have hcallbacks := callbacks_once_own_never_early ⟨0, (), Or.inr rfl⟩ hrun
  exact hcallbacks.1 4 () rfl

/-! ## Cancellation -/

section Runs

variable {c₀ c : Config κ σ} {h : List (Event κ)}

/-- A call after whose return no earlier request should complete: `stop()`, or an accepted
`play()` or `compose()`. -/
def Cancels (x : Event κ) : Prop := (∃ returned writes, x = .stop returned writes) ∨ x.request?.isSome = true

theorem Cancels.ends {h : List (Event κ)} {p : Nat} {x : Event κ} (hrun : Run (Step w) c₀ h c)
    (hp : h[p]? = some x) (hx : Cancels x) : x.Ends := by
  rcases hx with ⟨returned, writes, rfl⟩ | hr
  · exact Or.inl rfl
  · exact ends_of_request hrun p x hp hr

/-- Nothing moves out the callback of a request that was cancelled while it was pending. -/
theorem FinishedAt.before_cancel (hrun : Run (Step w) c₀ h c) {p i j : Nat} {x : Event κ}
    {r : Request κ} {t : Int} {stopped tapFailed : Bool} (hp : h[p]? = some x)
    (hx : Cancels x) (hip : i < p) (hf : FinishedAt h i j r t stopped tapFailed) : j < p := by
  rcases hf with ⟨⟨e, hlatest, _⟩, now, writes, hj⟩
  -- a finished request was in force up to its expiry, so no cancelling call lies in between
  by_contra hle
  have hpj : p ≠ j := by
    rintro rfl
    have hxe : x = _ := Option.some.inj (hp.symm.trans hj)
    subst hxe
    rcases hx with ⟨_, _, hstop⟩ | hr
    · cases hstop
    · simp [Event.request?] at hr
  have hcut : p < j := by omega
  have hstale := hlatest.le_of_stale (getElem?_take_of_lt hcut hp) (hx.ends hrun hp)
  omega

/-- **Cancellation.**  After a cancelling call, no expiry takes the callback of an earlier request.
An earlier request is still called back only if the worker had moved its callback out and given the
mutex up before the cancelling call took it; there is at most one such late invocation, and it is
the first thing the worker does. -/
theorem no_take_after_cancel (hrun : Run (Step w) c₀ h c) {p : Nat} {x : Event κ}
    (hp : h[p]? = some x) (hx : Cancels x) :
    (∀ i j r t stopped tapFailed, i < p → FinishedAt h i j r t stopped tapFailed → j < p) ∧
    (∀ i k r, i < p → p < k → Completes h i k r →
      (∃ j t tapFailed, j < p ∧ FinishedAt h i j r t true tapFailed) ∧
        ∀ m y, p < m → m < k → h[m]? = some y → y.isWorker = false) ∧
    (∀ i i' k k' r r', i < p → i' < p → p < k → p < k' →
      Completes h i k r → Completes h i' k' r' → k = k') := by
  have hlate : ∀ i k r, i < p → p < k → Completes h i k r →
      (∃ j t tapFailed, j < p ∧ FinishedAt h i j r t true tapFailed) ∧
        ∀ m y, p < m → m < k → h[m]? = some y → y.isWorker = false := by
    rintro i k r hip hpk ⟨j, t, tapFailed, e, hf, hlatest, _, _⟩
    have hjp := hf.before_cancel hrun hp hx hip
    refine ⟨⟨j, t, tapFailed, hjp, hf⟩, ?_⟩
    intro m y hm hmk hy
    have hfree := hlatest.2 m y (by omega) (getElem?_take_of_lt hmk hy)
    simpa using hfree
  refine ⟨?_, hlate, ?_⟩
  · intro i j r t stopped tapFailed hip hf
    exact hf.before_cancel hrun hp hx hip
  · -- of two late invocations the earlier one would be a worker step before the later one
    intro i i' k k' r r' hip hip' hpk hpk' hc hc'
    refine eq_of_never_before (P := fun k => ∃ i r, i < p ∧ p < k ∧ Completes h i k r) ?_
      ⟨i, r, hip, hpk, hc⟩ ⟨i', r', hip', hpk', hc'⟩
    rintro k k' ⟨i, r, _, hpk, _, _, _, _, _, _, hk, _⟩ ⟨i', r', hip', hpk', hc'⟩ hlt
    have hfree := (hlate i' k' r' hip' hpk' hc').2 k _ hpk hlt hk
    cases hfree

end Runs

theorem lateHistory_finished : FinishedAt lateHistory 0 2 lateRequest 5000000 true false := by
  refine ⟨⟨_, ⟨rfl, ?_⟩, rfl⟩, _, _, rfl⟩
  intro m x hm hx
  rcases m with _ | _ | m
  · cases hm
  · have hxe : .resume = x := Option.some.inj hx
    simp [← hxe, Event.Ends, Event.supersedes, Event.finishes]
  · cases hx

theorem lateHistory_completes : Completes lateHistory 0 4 lateRequest := by
  refine ⟨2, 5000000, false, _, lateHistory_finished, ⟨rfl, ?_⟩, rfl, rfl⟩
  intro m x hm hx
  rcases m with _ | _ | _ | _ | m
  · cases hm
  · omega
  · omega
  · have hxe : .stop true [] = x := Option.some.inj hx
    simp [← hxe, Event.isWorker]
  · cases hx

/-- The window between `lock.unlock()` and the call: `stop()` has returned, and the wave it should
have cancelled still reports completion. -/
theorem late_completion_after_stop :
    (∃ c, Run (Step willingWriter) (Config.initialized willingWriter 0 ()) lateHistory c) ∧
      lateHistory[3]? = some (.stop true []) ∧ Cancels (.stop true [] : Event Unit) ∧
      Completes lateHistory 0 4 lateRequest :=
  ⟨lateRun, rfl, Or.inl ⟨true, [], rfl⟩, lateHistory_completes⟩

theorem no_take_after_cancel_late :
    ∃ j t tapFailed, j < 3 ∧ FinishedAt lateHistory 0 j lateRequest t true tapFailed := by
  rcases lateRun with ⟨c, hrun⟩
  have hcancel : Cancels (.stop true [] : Event Unit) := Or.inl ⟨true, [], rfl⟩
  have hlate := (no_take_after_cancel hrun (p := 3) rfl hcancel).2.1
  exact (hlate 0 4 lateRequest (by decide) (by decide) lateHistory_completes).1

/-! ## Failures -/

section Runs

variable {c₀ c : Config κ σ} {h : List (Event κ)}

/-- The stop that ends the request, where it needs one, succeeded: the closing stop of a loop, or
the clean-up after a delayed tap that failed. -/
def StoppedCleanly (r : Request κ) (tapFailed : Bool) (writes : List Write) : Prop :=
  match r.work with
  | .wave _ level => level < 0 → writes.getLast? = some (Hardware.stopWrite true)
  | .composition _ => tapFailed = true → writes.getLast? = some (Hardware.stopWrite true)

/-- Only a tap that was waited for can have failed. -/
theorem Step.tapFailed_waiting {c c' : Config κ σ} {t now : Int} {stopped : Bool}
    {callback : Option κ} {writes : List Write}
    (hstep : Step w c (.expire t now (.finished stopped true callback) writes) c') :
    c.motor.waitingForTap = true := by
  cases hstep with
  | expire _ _ _ _ _ hexpire _ =>
      rcases Motor.expire_cases w _ now hexpire with
        ⟨_, _, houtcome, _⟩ | ⟨hwait, _⟩ | ⟨_, _, houtcome, _⟩ | ⟨_, _, _, houtcome, _⟩
      · cases houtcome
      · exact hwait
      · cases houtcome
      · cases houtcome

/-- A request whose taps all started is closed without a write, and so stopped, unless it is a
loop; a loop is stopped when its closing stop command succeeds. -/
theorem Step.closed_of_finished {c c' : Config κ σ} {t now : Int} {stopped : Bool}
    {callback : Option κ} {writes : List Write}
    (hstep : Step w c (.expire t now (.finished stopped false callback) writes) c')
    (harmed : Armed c.motor) :
    (c.motor.continuous = false → stopped = true) ∧
      (c.motor.continuous = true → writes = [Hardware.stopWrite stopped]) := by
  cases hstep with
  | expire _ _ _ hlive _ hexpire hlog =>
      have hpending := (not_superseded hlive).2.1
      -- of the four ways an expiry can end, only the last finishes without a failed tap
      rcases Motor.expire_cases w _ now hexpire with
        ⟨_, _, houtcome, _⟩ | ⟨_, _, houtcome, _⟩ | ⟨_, _, houtcome, _⟩ | ⟨_, _, _, houtcome, rfl⟩
      · cases houtcome
      · cases houtcome
      · cases houtcome
      · cases houtcome
        refine ⟨?_, ?_⟩
        · intro hfinite
          rw [hfinite, Hardware.closeWave_finite]
        · intro hloop
          have hactive := harmed hpending hloop
          have hstop := Hardware.stopHardware_log w c.motor.toHardware
          rw [hactive, if_pos rfl] at hstop
          rw [hloop, Hardware.closeWave_loop] at hlog ⊢
          exact List.append_cancel_left (hlog.symm.trans hstop)

/-- Whether a finished wave counts as stopped is decided by its closing stop command alone. -/
theorem stopped_of_wave {m : Motor κ σ} {accepted milliseconds level : Int}
    {complete : Option κ} {stopped : Bool} {writes : List Write}
    (hcarries : Carries ⟨accepted, .wave milliseconds level, complete⟩ m.toSchedule)
    (hfinite : m.continuous = false → stopped = true)
    (hloop : m.continuous = true → writes = [Hardware.stopWrite stopped]) :
    stopped = true ↔
      StoppedCleanly ⟨accepted, .wave milliseconds level, complete⟩ false writes := by
  have hlevel : m.continuous = decide (level < 0) := hcarries.2.2.2.1
  by_cases hneg : level < 0
  -- a loop: its one write is the stop command, and `stopped` is its outcome
  · have hcontinuous : m.continuous = true := by simp [hlevel, hneg]
    have hwrites := hloop hcontinuous
    refine ⟨?_, ?_⟩
    · intro hstopped _
      rw [hwrites, hstopped]
      rfl
    · intro hclean
      have hlast := hclean hneg
      simpa [hwrites, Hardware.stopWrite] using hlast
  · have hcontinuous : m.continuous = false := by simp [hlevel, hneg]
    -- a finite wave needs no stop, and is always stopped
    exact ⟨fun _ hcontra => absurd hcontra hneg, fun _ => hfinite hcontinuous⟩

/-- Whether a finished request counts as stopped is decided by its last stop command alone. -/
theorem Step.stopped_of_finished {c c' : Config κ σ} {t now : Int} {stopped tapFailed : Bool}
    {callback : Option κ} {writes : List Write} {r : Request κ}
    (hstep : Step w c (.expire t now (.finished stopped tapFailed callback) writes) c')
    (harmed : Armed c.motor) (hcarries : Carries r c.motor.toSchedule) :
    (StoppedCleanly r tapFailed writes → stopped = true) ∧
      (∀ milliseconds level, r.work = .wave milliseconds level → ¬ StoppedCleanly r tapFailed writes →
        stopped = false) := by
  rcases r with ⟨accepted, work, complete⟩
  cases tapFailed with
  | true =>
      rcases hstep.tapFailed_writes with ⟨ws, rfl, _⟩
      cases work with
      | wave milliseconds level =>
          -- a wave waits for no tap, so none can fail
          have hnot : c.motor.waitingForTap = false := hcarries.2.2.1
          rw [hstep.tapFailed_waiting] at hnot
          cases hnot
      | composition taps =>
          refine ⟨?_, fun _ _ hwork => by cases hwork⟩
          intro hclean
          have hlast := hclean rfl
          simpa [Hardware.stopWrite] using hlast
  | false =>
      rcases hstep.closed_of_finished harmed with ⟨hfinite, hloop⟩
      cases work with
      | wave milliseconds level =>
          have hiff := stopped_of_wave hcarries hfinite hloop
          refine ⟨hiff.2, ?_⟩
          intro _ _ _ hclean
          exact Bool.eq_false_iff.2 fun hstopped => hclean (hiff.1 hstopped)
      | composition taps =>
          have hcontinuous : c.motor.continuous = false := hcarries.2.2.2.1
          exact ⟨fun _ => hfinite hcontinuous, fun _ _ hwork => by cases hwork⟩

theorem Step.worker_of_client {c c' : Config κ σ} {e : Event κ} (hstep : Step w c e c')
    (hclient : e.isWorker = false) : c'.worker = c.worker := by
  cases hstep with
  | play _ _ _ _ => rfl
  | setAmplitude _ _ _ => rfl
  | compose _ _ _ _ => rfl
  | stop _ _ _ => rfl
  | destroy _ _ _ => rfl
  | _ => cases hclient

theorem Step.of_calling {c c' : Config κ σ} {e : Event κ} {stopped : Bool} {callback : Option κ}
    (hstep : Step w c e c') (hcalling : c.worker = .calling stopped callback)
    (hworker : e.isWorker = true) : e = .invoke (if stopped then callback else none) := by
  cases hstep with
  | play _ _ _ _ => cases hworker
  | setAmplitude _ _ _ => cases hworker
  | compose _ _ _ _ => cases hworker
  | stop _ _ _ => cases hworker
  | destroy _ _ _ => cases hworker
  | resume hidle =>
      rw [hcalling] at hidle
      rcases hidle with hidle | hidle <;> cases hidle
  | superseded htimed _ _ =>
      rw [hcalling] at htimed
      cases htimed
  | early htimed _ _ _ =>
      rw [hcalling] at htimed
      cases htimed
  | expire htimed _ _ _ _ _ _ =>
      rw [hcalling] at htimed
      cases htimed
  | invoke hcalling' =>
      rw [hcalling] at hcalling'
      cases hcalling'
      rfl

/-- After an expiry that finished a request the worker is about to call back until it does. -/
theorem calling_until_worker {j k : Nat} {t now : Int} {stopped tapFailed : Bool}
    {callback : Option κ} {writes : List Write} (hrun : Run (Step w) c₀ h c)
    (hj : h[j]? = some (.expire t now (.finished stopped tapFailed callback) writes))
    (hclients : ∀ m y, j < m → m < k → h[m]? = some y → y.isWorker = false)
    (hjk : j < k) :
    ∃ c₁, Run (Step w) c₁ (h.drop k) c ∧ c₁.worker = .calling stopped callback := by
  rcases hrun.atIndex hj with ⟨c₁, c₂, _, hstep, hpost⟩
  have hcalling : c₂.worker = .calling stopped callback := by
    cases hstep with
    | expire _ _ _ _ _ _ _ => rfl
  -- the clients' calls between `j` and `k`, and the rest of the run
  have hsplit : h.drop (j + 1) = (h.drop (j + 1)).take (k - (j + 1)) ++ h.drop k := by
    have hdrop : h.drop k = (h.drop (j + 1)).drop (k - (j + 1)) := by
      rw [List.drop_drop]
      congr 1
      omega
    rw [hdrop, List.take_append_drop]
  rw [hsplit] at hpost
  rcases hpost.split with ⟨c₃, hbetween, hrest⟩
  refine ⟨c₃, hrest, ?_⟩
  -- clients cannot move a worker that is about to call back
  refine hbetween.invariantOn (fun y => y.isWorker = false)
    (fun c => c.worker = .calling stopped callback) hcalling ?_ ?_
  · intro u e v hu hclient huv
    rw [huv.worker_of_client hclient]
    exact hu
  · intro y hy
    rcases List.getElem?_of_mem hy with ⟨m, hm⟩
    rcases getElem?_of_take hm with ⟨hmk, hm'⟩
    rw [List.getElem?_drop] at hm'
    exact hclients (j + 1 + m) y (by omega) (by omega) hm'

/-- The first thing the worker does after it was done with a request is to call it back. -/
theorem FinishedAt.called_back (hrun : Run (Step w) c₀ h c) {i j k : Nat} {r : Request κ}
    {t : Int} {tapFailed : Bool} {e : Event κ} (hf : FinishedAt h i j r t true tapFailed)
    (hjk : j < k) (hk : h[k]? = some e) (hworker : e.isWorker = true)
    (hclients : ∀ m y, j < m → m < k → h[m]? = some y → y.isWorker = false) :
    e = .invoke r.complete ∧ (r.complete.isSome = true → Completes h i k r) := by
  have hfinished := hf
  rcases hf with ⟨_, now, writes, hj⟩
  rcases calling_until_worker hrun hj hclients hjk with ⟨c₁, hrest, hcalling⟩
  have hdrop : (h.drop k)[0]? = some e := by simpa using hk
  rcases hrest.atIndex hdrop with ⟨c₂, c₃, hnone, hstep, _⟩
  have hc₂ : c₂ = c₁ := Run.nil_inv (by simpa using hnone)
  subst hc₂
  have he : e = .invoke r.complete := hstep.of_calling hcalling hworker
  refine ⟨he, ?_⟩
  intro hsome
  refine ⟨j, t, tapFailed, _, hfinished, ⟨getElem?_take_of_lt hjk hj, ?_⟩, ?_, hsome⟩
  · intro m y hjm hm
    rcases getElem?_of_take hm with ⟨hmk, hm'⟩
    simp [hclients m y hjm hmk hm']
  · rw [← he]
    exact hk

/-- **Completion after failures.**  Whatever writes fail, when the worker is done with a request
whose closing stop (if it needs one) succeeded, the next thing it does is to call that request's
callback, it can always do so, and it does so once.  A loop whose closing stop failed is not
reported as complete. -/
theorem finished_called_back (horigin : Origin w c₀) (hrun : Run (Step w) c₀ h c)
    {i j : Nat} {r : Request κ} {t now : Int} {stopped tapFailed : Bool} {writes : List Write}
    (hf : FinishedAt h i j r t stopped tapFailed)
    (hj : h[j]? = some (.expire t now (.finished stopped tapFailed r.complete) writes)) :
    (StoppedCleanly r tapFailed writes →
      (∀ k e, j < k → h[k]? = some e → e.isWorker = true →
        (∀ m y, j < m → m < k → h[m]? = some y → y.isWorker = false) →
        e = .invoke r.complete ∧ (r.complete.isSome = true → Completes h i k r)) ∧
      ((∀ m y, j < m → h[m]? = some y → y.isWorker = false) →
        ∃ c', Step w c (.invoke r.complete) c') ∧
      ∀ k k', Completes h i k r → Completes h i k' r → k = k') ∧
    (∀ milliseconds level, r.work = .wave milliseconds level →
      ¬ StoppedCleanly r tapFailed writes → ∀ k, ¬ Completes h i k r) := by
  have hjlt : j < h.length := (List.getElem?_eq_some_iff.1 hj).1
  -- `stopped` at the expiry is what the writes of that expiry say
  have houtcome : (StoppedCleanly r tapFailed writes → stopped = true) ∧
      (∀ milliseconds level, r.work = .wave milliseconds level →
        ¬ StoppedCleanly r tapFailed writes → stopped = false) := by
    rcases hrun.atIndex hj with ⟨c₁, c₂, hpre, hstep, _⟩
    have hpending : c₁.motor.pending = true := by
      cases hstep with
      | expire _ _ _ hlive _ _ _ => exact (not_superseded hlive).2.1
    rcases inForce_of_pending horigin hpre hpending with ⟨i', r', hforce, hcarries⟩
    have hf' : FinishedAt h i' j r' t stopped tapFailed := by
      refine ⟨hforce, now, writes, ?_⟩
      cases hstep with
      | expire _ _ _ _ hdeadline hexpire _ =>
          rw [← (hcarries.finished hdeadline hexpire).1]
          exact hj
    have hrr := (hf.request_unique (ends_of_request hrun) hf').2
    subst hrr
    exact hstep.stopped_of_finished (armed_of_run horigin hpre) hcarries
  refine ⟨?_, ?_⟩
  · intro hclean
    have hstopped := houtcome.1 hclean
    subst hstopped
    refine ⟨?_, ?_, ?_⟩
    · intro k e hjk hk hworker hclients
      exact hf.called_back hrun hjk hk hworker hclients
    · intro hclients
      have hclients' : ∀ m y, j < m → m < h.length → h[m]? = some y → y.isWorker = false :=
        fun m y hjm _ hm => hclients m y hjm hm
      -- at the end of the run the worker still stands before the call
      rcases calling_until_worker hrun hj hclients' hjlt with ⟨c₁, hrest, hcalling⟩
      have hc₁ : c = c₁ := Run.nil_inv (by simpa using hrest)
      subst hc₁
      exact ⟨_, Step.invoke hcalling⟩
    · intro k k' hc hc'
      exact hc.invocation_unique hc'
  · intro milliseconds level hwork hclean k hc
    have hstopped := houtcome.2 milliseconds level hwork hclean
    rcases hc with ⟨j', t', tapFailed', e, hf', _, _, _⟩
    have hjj := hf.position_unique hf'
    subst hjj
    rcases hf' with ⟨_, now', writes', hj'⟩
    -- the one expiry of this request would have to be both stopped and not stopped
    have heq := Option.some.inj (hj.symm.trans hj')
    rw [hstopped] at heq
    cases heq

end Runs

/-- A device that takes every write but those that start a tap. -/
def tapRefusingWriter : Writer Unit := fun _ node _ => (node != .setMback, ())

def tapRequest : Request Unit := ⟨0, .composition [⟨5, 10, 0, 64⟩], some ()⟩

/-- A composition of one delayed tap, which fails to start; the stop after it succeeds. -/
def tapHistory : List (Event Unit) :=
  [.compose 0 [⟨5, 10, 0, 64⟩] (some ()) true [],
    .resume,
    .expire 5000000 5000000 (.finished true true (some ()))
      [⟨.setMback, "0 1", false⟩, ⟨.enable, "0", true⟩],
    .invoke (some ())]

theorem tapRun :
    ∃ c, Run (Step tapRefusingWriter) (Config.constructed 0 ()) tapHistory c :=
  ⟨_, Run.cons (Step.compose rfl (by decide) rfl (by decide))
    (Run.cons (Step.resume (Or.inl rfl))
      (Run.cons (Step.expire rfl (by decide) (by decide) (by decide) (by decide) rfl rfl)
        (Run.cons (@Step.invoke _ _ _ _ true (some ()) rfl) Run.nil)))⟩

theorem tapHistory_finished : FinishedAt tapHistory 0 2 tapRequest 5000000 true true := by
  refine ⟨⟨_, ⟨rfl, ?_⟩, rfl⟩, _, _, rfl⟩
  intro m x hm hx
  rcases m with _ | _ | m
  · cases hm
  · have hxe : .resume = x := Option.some.inj hx
    simp [← hxe, Event.Ends, Event.supersedes, Event.finishes]
  · cases hx

/-- The tap failed, and its request is reported as complete. -/
theorem finished_called_back_tap : Completes tapHistory 0 3 tapRequest := by
  rcases tapRun with ⟨c, hrun⟩
  have hclean : StoppedCleanly tapRequest true [⟨.setMback, "0 1", false⟩, ⟨.enable, "0", true⟩] :=
    fun _ => rfl
  have hback := (finished_called_back ⟨0, (), Or.inl rfl⟩ hrun tapHistory_finished rfl).1 hclean
  refine (hback.1 3 _ (by decide) rfl rfl ?_).2 rfl
  intro m y hm hm3
  omega

/-- A device that takes every write but those to `enable`. -/
def refusingWriter : Writer Unit := fun _ node _ => (node != .enable, ())

def loopRequest : Request Unit := ⟨0, .wave 5 (-1), some ()⟩

/-- A loop of 5 ms whose closing stop fails. -/
def unstoppedHistory : List (Event Unit) :=
  [.play 0 5 (-1) 64 (some ()) true [⟨.ramLoop, "64", true⟩, ⟨.gain, "64", true⟩],
    .resume,
    .expire 5000000 5000000 (.finished false false (some ())) [⟨.enable, "0", false⟩],
    .invoke none]

theorem unstoppedRun :
    ∃ c, Run (Step refusingWriter) (Config.constructed 0 ()) unstoppedHistory c :=
  ⟨_, Run.cons (Step.play rfl (by decide) rfl (by decide))
    (Run.cons (Step.resume (Or.inl rfl))
      (Run.cons (Step.expire rfl (by decide) (by decide) (by decide) (by decide) rfl rfl)
        (Run.cons (@Step.invoke _ _ _ _ false (some ()) rfl) Run.nil)))⟩

/-- The worker is done with the loop and has passed the place where it would call back; however
the run goes on, the loop is never reported as complete. -/
theorem loop_never_called_back :
    (∃ c, Run (Step refusingWriter) (Config.constructed 0 ()) unstoppedHistory c) ∧
      FinishedAt unstoppedHistory 0 2 loopRequest 5000000 false false ∧
      unstoppedHistory[3]? = some (.invoke none) ∧
      ∀ rest k, ¬ Completes (unstoppedHistory ++ rest) 0 k loopRequest := by
  have hfinished : ∀ rest,
      FinishedAt (unstoppedHistory ++ rest) 0 2 loopRequest 5000000 false false := by
    intro rest
    refine ⟨⟨_, ⟨rfl, ?_⟩, rfl⟩, _, _, rfl⟩
    intro m x hm hx
    rcases m with _ | _ | m
    · cases hm
    · have hxe : .resume = x := Option.some.inj hx
      simp [← hxe, Event.Ends, Event.supersedes, Event.finishes]
    · cases hx
  refine ⟨unstoppedRun, by simpa using hfinished [], rfl, ?_⟩
  rintro rest k ⟨j, t, tapFailed, e, hf, _, _, _⟩
  have hj : 2 = j := (hfinished rest).position_unique hf
  subst hj
  rcases hf with ⟨_, now, writes, htwo⟩
  cases htwo

end Vibrator
end M2391Device
