import M2391Device.Lib.Calls
import M2391Device.Vibrator.Executions
import M2391Device.Vibrator.LoopSafety

/-!
# Refinement — threads that are switched anywhere, and the system of whole steps

The steps of `Interleaving` are whole calls and whole stretches of the worker.  The threads of the
service are switched at every operation, any number of clients among them.  Whatever they do is a run
of the system of whole steps (`interleavings_atomic`): with the same motor whenever the mutex is free,
the same callbacks in the same order, and for each client the same answers to the same calls.

The destructor is left out: the object lives as long as the service.
-/

namespace M2391Device
namespace Vibrator

open Threaded

universe u v

variable {κ : Type} {σ : Type v}

/-! ## Events and threads -/

/-- The call of a client as an event. -/
def MotorCall.event (now : Int) (returned : Bool) (writes : List Write) : MotorCall κ → Event κ
  | .play milliseconds level gain complete =>
      .play now milliseconds level gain complete returned writes
  | .setAmplitude amplitude => .setAmplitude amplitude returned writes
  | .compose taps complete => .compose now taps complete returned writes
  | .stop => .stop returned writes

/-- The call of an event, and what it returned. -/
def Event.answer : Event κ → Option (MotorCall κ × Bool)
  | .play _ milliseconds level gain complete returned _ =>
      some (.play milliseconds level gain complete, returned)
  | .setAmplitude amplitude returned _ => some (.setAmplitude amplitude, returned)
  | .compose _ taps complete returned _ => some (.compose taps complete, returned)
  | .stop returned _ => some (.stop, returned)
  | _ => none

/-- The callback that is called in an event. -/
def Event.invoked : Event κ → Option κ
  | .invoke callback => callback
  | _ => none

/-- Events of the worker. -/
def Event.isWork : Event κ → Bool
  | .resume => true
  | .wake _ => true
  | .early _ => true
  | .expire _ _ _ _ => true
  | .invoke _ => true
  | _ => false

theorem MotorCall.answer_event (x : MotorCall κ) (now : Int) (returned : Bool) (writes : List Write) :
    (x.event now returned writes).answer = some (x, returned) := by
  cases x <;> rfl

theorem MotorCall.invoked_event (x : MotorCall κ) (now : Int) (returned : Bool) (writes : List Write) :
    (x.event now returned writes).invoked = none := by
  cases x <;> rfl

section Steps

variable {ι : Type u}

/-- A step of the system of whole steps, with the thread that takes it: a client or the worker. -/
inductive StepBy (w : Writer σ) : Config κ σ → Option ι × Event κ → Config κ σ → Prop where
  | call {c c' : Config κ σ} {x : MotorCall κ} {now : Int} {returned : Bool} {writes : List Write} (i : ι) :
      Step w c (x.event now returned writes) c' → StepBy w c (some i, x.event now returned writes) c'
  | work {c c' : Config κ σ} {e : Event κ} :
      e.isWork = true → Step w c e c' → StepBy w c (none, e) c'

/-- What a client was answered. -/
def answers [DecidableEq ι] (i : ι) (g : List (Option ι × Event κ)) : List (MotorCall κ × Bool) :=
  g.filterMap fun x => if x.1 = some i then x.2.answer else none

end Steps

/-- A call is possible whenever the mutex is free. -/
theorem MotorCall.enabled {w : Writer σ} {c : Config κ σ} (x : MotorCall κ) {now : Int}
    (hquit : c.motor.quit = false) (hnow : c.clock ≤ now) : ∃ writes clock, clock ≤ now ∧
      Step w c (x.event now (x.step w now c.motor).1 writes) ⟨(x.step w now c.motor).2, c.worker, clock⟩ := by
  rcases x.step_log (w := w) (m := c.motor) now with ⟨writes, hlog⟩
  refine ⟨writes, ?_⟩
  cases x with
  | play milliseconds level gain complete => exact ⟨now, le_rfl, .play hquit hnow rfl hlog⟩
  | setAmplitude amplitude => exact ⟨c.clock, hnow, .setAmplitude hquit rfl hlog⟩
  | compose taps complete => exact ⟨now, le_rfl, .compose hquit hnow rfl hlog⟩
  | stop => exact ⟨c.clock, hnow, .stop hquit rfl hlog⟩

/-! ## The worker -/

/-- The program of the worker where it is in the system of whole steps. -/
inductive WorkerAt : Thread κ Unit → Worker κ → Prop where
  | unborn : WorkerAt (.pure ()) .ready
  | ready (n : Nat) : WorkerAt (worker n) .ready
  | idle (n n' : Nat) :
      WorkerAt (.perform (.retake () ()) fun _ => awaitRequest n' >>= fun _ => afterRequest (loop n) n)
        .idle
  | timed (generation : UInt64) (armed : Int) (n n' : Nat) :
      WorkerAt (.perform (.retake () ()) fun _ =>
        wokenUp generation (awaitDeadline generation n') >>= afterDeadline (loop n))
        (.timed generation armed)
  | calling (stopped : Bool) (callback : Option κ) (n : Nat) :
      WorkerAt (report stopped callback >>= fun _ => .perform (.lock ()) fun _ => loop n)
        (.calling stopped callback)

/-- The system of whole steps is where the threads are, while nobody has the mutex. -/
structure Follows (c : Config κ σ) (s : Clocked κ σ) (p : Thread κ Unit) : Prop where
  motor : c.motor = s.motor
  clock : c.clock ≤ s.clock
  alive : c.motor.quit = false
  worker : WorkerAt p c.worker

/-- One event of the worker, in which no callback is called. -/
def Works (w : Writer σ) (c : Config κ σ) (q : Thread κ Unit) (t : Clocked κ σ) : Prop :=
  ∃ e c', Step w c e c' ∧ e.isWork = true ∧ e.invoked = none ∧ Follows c' t q

section Worker

variable {w : Writer σ} {α : Type} {K : Thread κ Unit → Clocked κ σ → Prop}
  {Q : Unit → Clocked κ σ → Prop} {m : Motor κ σ} {τ : Int} {generation : UInt64} {n n' : Nat}

/-- The mutex is given up where the worker blocks. -/
theorem does_wait {p : Thread κ α} {k : α → Thread κ Unit} (h : ∀ τ', τ ≤ τ' →
    K (.perform (.retake () ()) fun _ => p >>= k) ⟨{ m with changed := false }, τ'⟩) :
    Does w K Q (wait p >>= k) m τ := by
  refine does_op fun τ₁ hτ₁ => ?_
  rintro ⟨m', τ'⟩ ht
  rcases later_of_steps ht with ⟨rfl, hτ⟩
  exact h τ' (hτ₁.trans hτ)

theorem superseded_iff : m.fields.superseded generation = true ↔ Superseded m generation := by
  have hfields : m.fields.superseded generation =
      (m.quit || !m.pending || m.generation != generation) := rfl
  rw [hfields, Superseded]
  simp [or_assoc]

theorem fields_running (hquit : m.quit = false) : ¬ m.fields.quit = true := by
  change ¬ m.quit = true
  rw [hquit]
  exact Bool.false_ne_true

theorem does_awaitDeadline (hnot : ¬ Superseded m generation) (h : ∀ q τ', τ ≤ τ' →
    (∀ armed, WorkerAt q (.timed generation armed)) → K q ⟨{ m with changed := false }, τ'⟩) :
    Does w K Q (awaitDeadline generation n' >>= afterDeadline (loop n)) m τ := by
  cases n' with
  | zero => exact trivial
  | succ n' =>
      rw [awaitDeadline, Program.bind_bind]
      refine does_fields fun τ₁ hτ₁ => ?_
      rw [if_neg (superseded_iff.not.2 hnot)]
      exact does_wait fun τ' hτ' => h _ τ' (hτ₁.trans hτ') fun armed => .timed generation armed n n'

/-- The worker goes on to the place where it blocks. -/
theorem does_awaitRequest (hquit : m.quit = false) (h : ∀ q τ', τ ≤ τ' → WorkerAt q (loopHead m) →
    K q ⟨{ m with changed := false }, τ'⟩) :
    Does w K Q (awaitRequest n' >>= fun _ => afterRequest (loop n) n) m τ := by
  cases n' with
  | zero => exact trivial
  | succ n' =>
      rw [awaitRequest, Program.bind_bind]
      refine does_fields fun τ₁ hτ₁ => ?_
      have hfields : (m.fields.quit || m.fields.pending) = m.pending := by
        change (m.quit || m.pending) = m.pending
        rw [hquit, Bool.false_or]
      rw [hfields]
      cases hpending : m.pending with
      | false =>
          have hhead : loopHead m = .idle := by simp [loopHead, hquit, hpending]
          rw [hhead] at h
          exact does_wait fun τ' hτ' => h _ τ' (hτ₁.trans hτ') (.idle n n')
      | true =>
          -- the worker goes on to the second wait of the same round
          have hhead : loopHead m = .timed m.generation m.deadline := by
            simp [loopHead, hquit, hpending]
          have hnot : ¬ Superseded m m.generation := by simp [Superseded, hquit, hpending]
          rw [hhead] at h
          change Does w K Q (afterRequest (loop n) n) m τ₁
          rw [afterRequest]
          refine does_fields fun τ₂ hτ₂ => ?_
          rw [if_neg (fields_running hquit)]
          exact does_awaitDeadline hnot fun q τ' hτ' hq => h q τ' ((hτ₁.trans hτ₂).trans hτ') (hq _)

theorem does_loop (hquit : m.quit = false) (h : ∀ q τ', τ ≤ τ' → WorkerAt q (loopHead m) →
    K q ⟨{ m with changed := false }, τ'⟩) : Does w K Q (loop n) m τ := by
  cases n with
  | zero => exact trivial
  | succ n =>
      rw [loop]
      refine does_fields fun τ₁ hτ₁ => ?_
      rw [if_neg (fields_running hquit)]
      exact does_awaitRequest hquit fun q τ' hτ' hq => h q τ' (hτ₁.trans hτ') hq

/-- What follows a timeout belongs to it. -/
theorem does_expired {c : Config κ σ} {armed t now : Int} (hworker : c.worker = .timed generation armed)
    (hquit : c.motor.quit = false) (ht : c.clock ≤ t) (hnow : t ≤ now)
    (hnot : ¬ Superseded c.motor generation) (hover : c.motor.deadline ≤ t) (hτ : now ≤ τ) :
    Does w (Works w c) Q
      (match (c.motor.expire w now).1.result with
        | none => loop n
        | some (stopped, callback) => complete (loop n) stopped callback)
      (c.motor.expire w now).2 τ := by
  have hquit' : (c.motor.expire w now).2.quit = false := (expire_quit now).trans hquit
  rcases Motor.expire_log w c.motor now with ⟨writes, hlog⟩
  rcases hexpire : c.motor.expire w now with ⟨outcome, m'⟩
  rw [hexpire] at hquit' hlog
  have hstep := Step.expire hworker ht hnow hnot hover hexpire hlog
  -- on with the loop, or out of the mutex
  have hagain : Config.afterExpiry outcome m' now = Config.enterLoop m' now →
      Does w (Works w c) Q (loop n) m' τ := by
    intro henter
    rw [henter] at hstep
    refine does_loop hquit' fun q τ' hτ' hq => ?_
    exact ⟨_, _, hstep, rfl, rfl, rfl, hτ.trans hτ', hquit', hq⟩
  cases outcome with
  | tapStarted index => exact hagain rfl
  | nextTap index => exact hagain rfl
  | finished stopped tapFailed callback =>
      rintro ⟨m'', τ'⟩ hsteps
      rcases later_of_steps hsteps with ⟨rfl, hτ'⟩
      exact ⟨_, _, hstep, rfl, rfl, rfl, hτ.trans hτ', hquit', .calling stopped callback n⟩

/-- A timed wait ends, or goes on, in one event. -/
theorem does_wokenUp {c : Config κ σ} {armed : Int} (hworker : c.worker = .timed generation armed)
    (hquit : c.motor.quit = false) (hclock : c.clock ≤ τ) : Does w (Works w c) Q
      (wokenUp generation (awaitDeadline generation n') >>= afterDeadline (loop n)) c.motor τ := by
  rw [wokenUp, Program.bind_bind]
  refine does_fields fun τ₁ hτ₁ => ?_
  rw [Program.bind_bind]
  refine does_now fun t ht => ?_
  have hlater : c.clock ≤ t := (hclock.trans hτ₁).trans ht
  have hwake : Superseded c.motor generation → ∀ {τ'}, t ≤ τ' → Does w (Works w c) Q (loop n) c.motor τ' := by
    intro hsuperseded τ' hτ'
    refine does_loop hquit fun q τ'' hτ'' hq => ?_
    exact ⟨_, _, .superseded hworker hlater hsuperseded, rfl, rfl, rfl, hτ'.trans hτ'', hquit, hq⟩
  have hafter : Superseded c.motor generation → ∀ {τ'}, t ≤ τ' →
      Does w (Works w c) Q (afterDeadline (loop n) true) c.motor τ' := by
    intro hsuperseded τ' hτ'
    rw [afterDeadline, if_pos rfl]
    exact hwake hsuperseded hτ'
  have hdeadline : c.motor.fields.deadline = c.motor.deadline := rfl
  rw [hdeadline]
  by_cases hsuperseded : Superseded c.motor generation
  · -- the predicate is read once more, after the timeout or before the next wait
    have hfields := superseded_iff.2 hsuperseded
    by_cases hover : c.motor.deadline ≤ t
    · rw [if_pos hover, Program.bind_bind]
      refine does_fields fun τ₂ hτ₂ => ?_
      rw [hfields]
      exact hafter hsuperseded hτ₂
    · rw [if_neg hover]
      cases n' with
      | zero => exact trivial
      | succ n' =>
          rw [awaitDeadline, Program.bind_bind]
          refine does_fields fun τ₂ hτ₂ => ?_
          rw [if_pos hfields]
          exact hafter hsuperseded hτ₂
  · have hfields : c.motor.fields.superseded generation = false :=
      Bool.eq_false_iff.2 (superseded_iff.not.2 hsuperseded)
    by_cases hover : c.motor.deadline ≤ t
    · rw [if_pos hover, Program.bind_bind]
      refine does_fields fun τ₂ hτ₂ => ?_
      rw [hfields]
      change Does w (Works w c) Q (afterDeadline (loop n) false) c.motor τ₂
      rw [afterDeadline, if_neg Bool.false_ne_true]
      refine does_expiry fun now τ₃ hnow hτ₃ => ?_
      exact does_expired hworker hquit hlater (hτ₂.trans hnow) hsuperseded hover hτ₃
    · rw [if_neg hover]
      refine does_awaitDeadline hsuperseded fun q τ' hτ' hq => ?_
      exact ⟨_, _, .early hworker hlater hsuperseded (not_le.1 hover), rfl, rfl, rfl, hτ', hquit, hq _⟩

/-- A stretch of the worker, and no callback in it. -/
theorem Follows.stretch {c : Config κ σ} {s t : Clocked κ σ} {p p' q q' : Thread κ Unit}
    {ops : List (Program.Answered (MotorOp κ) MotorRes)} (h : Follows c s p)
    (henters : Locks.Enters (machine w) () s p p') (hwithin : Locks.Within (machine w) Later p' s ops q t)
    (hleaves : Locks.Leaves () q q') :
    ∃ g c', Transition.Run (Step w) c g c' ∧ (∀ e ∈ g, e.isWork = true ∧ e.invoked = none) ∧
      Follows c' t q' := by
  rcases s with ⟨m, τ⟩
  rcases h with ⟨rfl, hclock, hquit, hat⟩
  have hone : Does w (Works w c) (fun _ _ => True) p' c.motor τ → ∃ g c', Transition.Run (Step w) c g c' ∧
      (∀ e ∈ g, e.isWork = true ∧ e.invoked = none) ∧ Follows c' t q' := by
    intro hdoes
    rcases hdoes.leaves hwithin hleaves with ⟨e, c', hstep, hwork, hinvoked, hfollows⟩
    exact ⟨[e], c', Transition.Run.single hstep,
      List.forall_mem_singleton.2 ⟨hwork, hinvoked⟩, hfollows⟩
  have hresume : ∀ {c'' : Config κ σ}, c''.motor = c.motor → c''.clock = c.clock →
      (c''.worker = .ready ∨ c''.worker = .idle) → ∀ q τ', τ ≤ τ' → WorkerAt q (loopHead c.motor) →
      Works w c'' q ⟨{ c.motor with changed := false }, τ'⟩ := by
    intro c'' hmotor hsame hready q τ' hτ' hq
    refine ⟨_, _, .resume hready, rfl, rfl, ?_⟩
    rw [hmotor, hsame]
    exact ⟨rfl, hclock.trans hτ', hquit, hq⟩
  generalize hworker : c.worker = wk at hat
  cases hat with
  | unborn => cases henters
  | ready n =>
      cases henters
      exact hone (does_loop hquit (hresume rfl rfl (Or.inl hworker)))
  | idle n n' =>
      cases henters
      exact hone (does_awaitRequest hquit (hresume rfl rfl (Or.inr hworker)))
  | timed generation armed n n' =>
      cases henters
      exact hone (does_wokenUp hworker hquit hclock)
  | calling stopped callback n =>
      -- without a callback to call, the worker takes the mutex back at once
      have hsilent : (if stopped then callback else none) = none ∧
          report stopped callback = (.pure () : Thread κ Unit) := by
        cases stopped with
        | false => exact ⟨rfl, rfl⟩
        | true =>
            cases callback with
            | none => exact ⟨rfl, rfl⟩
            | some callback => cases henters
      have hinvoke := Step.invoke (w := w) hworker
      rw [hsilent.1] at hinvoke
      rw [hsilent.2] at henters
      cases henters
      have hdoes : Does w (Works w { c with worker := .ready }) (fun _ _ => True) (loop n) c.motor τ :=
        does_loop hquit (hresume rfl rfl (Or.inl rfl))
      rcases hdoes.leaves hwithin hleaves with ⟨e, c', hstep, hwork, hinvoked, hfollows⟩
      refine ⟨[.invoke none, e], c', Transition.Run.cons hinvoke (Transition.Run.single hstep), ?_, hfollows⟩
      exact List.forall_mem_cons.2 ⟨⟨rfl, rfl⟩, List.forall_mem_singleton.2 ⟨hwork, hinvoked⟩⟩

end Worker

/-! ## The clients -/

section Clients

variable {w : Writer σ} {x : MotorCall κ}

theorem call_accepted (haccepted : x.Accepted) : call x = .perform (.lock ()) fun _ =>
    locked x >>= fun returned => .perform (.unlock ()) fun _ => reply x returned := by
  calc
    call x = .perform (.lock ()) fun _ =>
        (locked x >>= fun returned => .perform (.unlock ()) fun _ => .pure returned) >>= reply x := by
          rw [call, body, if_pos haccepted]
          rfl
    _ = .perform (.lock ()) fun _ =>
        locked x >>= fun returned => .perform (.unlock ()) fun _ => reply x returned := by
          rw [Program.bind_bind]
          rfl

/-- A call that is refused takes no mutex. -/
theorem call_refused (hrefused : ¬ x.Accepted) : call x = reply x false := by
  rw [call, body, if_neg hrefused]
  rfl

/-- A stretch of a client is its call. -/
theorem call_stretch {c : Config κ σ} {s t : Clocked κ σ} {p q q' : Thread κ Unit}
    {ops : List (Program.Answered (MotorOp κ) MotorRes)} (hmotor : c.motor = s.motor)
    (hclock : c.clock ≤ s.clock) (hquit : c.motor.quit = false)
    (henters : Locks.Enters (machine w) () s (call x) p)
    (hwithin : Locks.Within (machine w) Later p s ops q t) (hleaves : Locks.Leaves () q q') :
    ∃ now returned writes c', Step w c (x.event now returned writes) c' ∧ q' = reply x returned ∧
      c'.worker = c.worker ∧ c'.motor = t.motor ∧ c'.clock ≤ t.clock ∧ c'.motor.quit = false := by
  rcases s with ⟨m, τ⟩
  cases hmotor
  by_cases haccepted : x.Accepted
  · rw [call_accepted haccepted] at henters
    cases henters
    have hdoes : Does w (fun q t => ∃ now returned writes c', Step w c (x.event now returned writes) c' ∧
        q = reply x returned ∧ c'.worker = c.worker ∧ c'.motor = t.motor ∧ c'.clock ≤ t.clock ∧
          c'.motor.quit = false) (fun _ _ => True)
        (locked x >>= fun returned => .perform (.unlock ()) fun _ => reply x returned) c.motor τ := by
      refine does_locked haccepted fun now τ₁ hnow hτ₁ => ?_
      rintro ⟨m', τ'⟩ hsteps
      rcases later_of_steps hsteps with ⟨rfl, hτ'⟩
      rcases x.enabled (w := w) hquit (hclock.trans hnow) with ⟨writes, clock, hle, hstep⟩
      exact ⟨now, _, writes, _, hstep, rfl, rfl, rfl, (hle.trans hτ₁).trans hτ',
        (x.step_quit now).trans hquit⟩
    exact hdoes.leaves hwithin hleaves
  · rw [call_refused haccepted] at henters
    cases henters

end Clients

/-! ## The threads -/

section Threads

variable {ι : Type u} [DecidableEq ι]

/-- Clients start any calls; the worker starts once, and is looked at as long as one likes. -/
def Begins : Option ι → Thread κ Unit → Prop
  | none, p => ∃ n, p = worker n
  | some _, p => ∃ x, p = call x

abbrev MotorThreads (κ : Type) (σ : Type v) (ι : Type u) :=
  Locks.State (MotorRes (κ := κ)) Unit Unit Unit (Clocked κ σ) (Option ι)

abbrev ThreadEvent (κ : Type) (ι : Type u) := Locks.Event (MotorRes (κ := κ)) Unit Unit Unit (Option ι)

abbrev MotorDeed (κ : Type) (ι : Type u) := Option ι × Locks.Deed (MotorRes (κ := κ)) Unit Unit Unit

/-- Threads are switched at every operation. -/
abbrev Interleaved (w : Writer σ) : MotorThreads κ σ ι → ThreadEvent κ ι → MotorThreads κ σ ι → Prop :=
  Locks.Step (machine w) Begins Later

/-- The same, one stretch at a time. -/
abbrev InStretches (w : Writer σ) :=
  Locks.Serially (ι := Option ι) (machine w) Begins Later (MotorOp.isFree (κ := κ)) ()

/-- How the calls show in a thread. -/
def calls : Locks.Calls (MotorRes (κ := κ)) Unit Unit Unit (MotorCall κ) (MotorCall κ × Bool) where
  program := call
  tell := fun a => .reply a.1 a.2
  told := fun
    | .reply x returned => some (x, returned)
    | _ => none
  told_tell := fun _ => rfl
  busy := by
    intro x
    by_cases haccepted : x.Accepted
    · rw [call_accepted haccepted]
      exact nofun
    · rw [call_refused haccepted]
      exact nofun

theorem calls_told (o : MotorOp κ) (ho : o.isFree = false) : calls.told o = none := by
  cases o with
  | reply x returned => cases ho
  | _ => rfl

/-- The callbacks that were called. -/
def invocations (l : List (MotorDeed κ ι)) : List κ :=
  l.filterMap fun
    | (_, .op ⟨.invoke callback, _⟩) => some callback
    | _ => none

/-- The interleaving `h` is the run `g` of the system of whole steps. -/
structure Atomic (w : Writer σ) (c₀ : Config κ σ) (h : List (ThreadEvent κ ι)) (s : MotorThreads κ σ ι)
    (g : List (Option ι × Event κ)) (c : Config κ σ) : Prop where
  run : Transition.Run (StepBy w) c₀ g c
  free : s.owner () = none → c.motor = s.shared.motor
  /-- The thread with the mutex is in its next step. -/
  busy : c.motor.log <+: s.shared.motor.log
  callbacks : invocations (Locks.deeds h) = g.filterMap fun x => x.2.invoked
  /-- Every client makes its calls in its own order, and waits for one at most. -/
  inOrder : ∀ i, ∃ waiting, Locks.begun (some i) (Locks.deeds h) =
    (answers i g).map (fun a => call a.1) ++ waiting ∧ waiting.length ≤ 1
  /-- It is told of each what it returned. -/
  answered : ∀ i, ∃ pending, answers i g = calls.heard (some i) (Locks.deeds h) ++ pending ∧
    pending.length ≤ 1

/-! ### One stretch at a time -/

/-- The run `g` of whole steps accounts for a run of stretches. -/
def Account (w : Writer σ) (c₀ : Config κ σ) (past : List (MotorDeed κ ι))
    (g : List (Option ι × Event κ))
    (C : Locks.Serial (MotorRes (κ := κ)) Unit Unit Unit (Clocked κ σ) (Option ι)) : Prop :=
  ∃ c, Transition.Run (StepBy w) c₀ g c ∧ Follows c C.shared (C.code none) ∧
    (∀ i, calls.Stage (some i) ((answers i g).map Prod.fst) (answers i g) past (C.code (some i))) ∧
    invocations past = g.filterMap fun x => x.2.invoked

section Lists

variable {i j : ι} {g g' : List (Option ι × Event κ)} {past new : List (MotorDeed κ ι)}

theorem answers_append : answers i (g ++ g') = answers i g ++ answers i g' := List.filterMap_append

theorem answers_work {es : List (Event κ)} : answers i (es.map fun e => (none, e)) = [] := by
  refine List.filterMap_eq_nil_iff.2 fun x hx => ?_
  rcases List.mem_map.1 hx with ⟨e, _, rfl⟩
  rfl

theorem answers_event (x : MotorCall κ) {now : Int} {returned : Bool} {writes : List Write} :
    answers i [(some j, x.event now returned writes)] = if j = i then [(x, returned)] else [] := by
  by_cases hj : j = i <;> simp [answers, hj, x.answer_event]

omit [DecidableEq ι] in
theorem invocations_append : invocations (past ++ new) = invocations past ++ invocations new :=
  List.filterMap_append

omit [DecidableEq ι] in
theorem invocations_operations {k : Option ι} {ops : List (Program.Answered (MotorOp κ) MotorRes)}
    (hops : ∀ a ∈ ops, a.1.isFree = false) : invocations (Locks.operations k ops) = [] := by
  refine List.filterMap_eq_nil_iff.2 fun d hd => ?_
  rcases List.mem_map.1 hd with ⟨⟨o, r⟩, ha, rfl⟩
  cases o with
  | invoke callback => cases hops _ ha
  | _ => rfl

end Lists

/-! ### What a thread can be at -/

theorem WorkerAt.of_pure {p : Thread κ Unit} {wk : Worker κ} (h : WorkerAt p wk) (hp : p = .pure ()) :
    wk = .ready := by
  cases h with
  | unborn => rfl
  | ready n => rfl
  | idle n n' => cases hp
  | timed generation armed n n' => cases hp
  | calling stopped callback n =>
      cases stopped with
      | false => cases hp
      | true => cases callback <;> cases hp

/-- All that the worker does without the mutex is to call a callback. -/
theorem WorkerAt.of_op {p : Thread κ Unit} {wk : Worker κ} {o : MotorOp κ}
    {next : MotorRes o → Thread κ Unit} (h : WorkerAt p wk) (hp : p = .perform (.op o) next) :
    ∃ callback n, wk = .calling true (some callback) ∧ o = .invoke callback ∧ ∀ r, next r = worker n := by
  cases h with
  | unborn => cases hp
  | ready n => cases hp
  | idle n n' => cases hp
  | timed generation armed n n' => cases hp
  | calling stopped callback n =>
      cases stopped with
      | false => cases hp
      | true =>
          cases callback with
          | none => cases hp
          | some callback =>
              cases hp
              exact ⟨callback, n, rfl, rfl, fun _ => rfl⟩

/-! ### What a step adds -/

section Steps

variable {w : Writer σ} {c₀ c c' : Config κ σ} {g g' : List (Option ι × Event κ)}
  {past new : List (MotorDeed κ ι)} {mv : Locks.Move (MotorRes (κ := κ)) Unit Unit Unit (Option ι)}
  {C C' : Locks.Serial (MotorRes (κ := κ)) Unit Unit Unit (Clocked κ σ) (Option ι)}

omit [DecidableEq ι] in
theorem runs_work {es : List (Event κ)} (hsteps : Transition.Run (Step w) c es c')
    (hwork : ∀ e ∈ es, e.isWork = true) :
    Transition.Run (StepBy (ι := ι) w) c (es.map fun e => (none, e)) c' := by
  induction hsteps with
  | nil => exact Transition.Run.nil
  | @snoc es t u e _ hstep ih =>
      rw [List.map_append]
      exact Transition.Run.snoc _ (ih fun e he => hwork e (List.mem_append_left _ he))
        (.work (hwork e (by simp)) hstep)

/-- The worker goes on. -/
theorem Account.work {es : List (Event κ)} (hrun : Transition.Run (StepBy w) c₀ g c)
    (hstage : ∀ i, calls.Stage (some i) ((answers i g).map Prod.fst) (answers i g) past (C.code (some i)))
    (hcallbacks : invocations past = g.filterMap fun x => x.2.invoked)
    (hsteps : Transition.Run (Step w) c es c') (hwork : ∀ e ∈ es, e.isWork = true)
    (hfollows : Follows c' C'.shared (C'.code none)) (hcode : ∀ i, C'.code (some i) = C.code (some i))
    (hnew : ∀ i, Locks.begun (some i) new = [] ∧ calls.heard (some i) new = [])
    (hinvoked : invocations new = es.filterMap Event.invoked) :
    ∃ g', Account w c₀ (past ++ new) (g ++ g') C' := by
  refine ⟨_, c', hrun.trans (runs_work hsteps hwork), hfollows, fun i => ?_, ?_⟩
  · rw [answers_append, answers_work, List.append_nil, hcode i]
    exact (hstage i).other (hnew i).1 (hnew i).2
  · rw [invocations_append, hcallbacks, hinvoked, List.filterMap_append, List.filterMap_map]
    rfl

/-- A client goes on, and with it at most one call of the system of whole steps. -/
theorem Account.client {j : ι} {q : Thread κ Unit} (hrun : Transition.Run (StepBy w) c₀ g c)
    (hstage : ∀ i, calls.Stage (some i) ((answers i g).map Prod.fst) (answers i g) past (C.code (some i)))
    (hcallbacks : invocations past = g.filterMap fun x => x.2.invoked)
    (hsteps : Transition.Run (StepBy w) c g' c') (hfollows : Follows c' C'.shared (C.code none))
    (hcode : C'.code = Function.update C.code (some j) q)
    (hnew : ∀ i, i ≠ j →
      Locks.begun (some i) new = [] ∧ calls.heard (some i) new = [] ∧ answers i g' = [])
    (hdone : calls.Stage (some j) ((answers j g ++ answers j g').map Prod.fst)
      (answers j g ++ answers j g') (past ++ new) q)
    (hinvoked : invocations new = g'.filterMap fun x => x.2.invoked) :
    ∃ g', Account w c₀ (past ++ new) (g ++ g') C' := by
  refine ⟨g', c', hrun.trans hsteps, ?_, fun i => ?_, ?_⟩
  · rw [hcode, Function.update_of_ne (Option.some_ne_none j).symm]
    exact hfollows
  · rw [answers_append, hcode]
    by_cases hi : i = j
    · subst hi
      rw [Function.update_self]
      exact hdone
    · rcases hnew i hi with ⟨hbegun, hheard, hnone⟩
      rw [Function.update_of_ne (fun h => hi (Option.some.inj h)), hnone, List.append_nil]
      exact (hstage i).other hbegun hheard
  · rw [invocations_append, hcallbacks, hinvoked, List.filterMap_append]

/-- Every step of the run of stretches is accounted for. -/
theorem Account.step (h : Account w c₀ past g C) (hstep : InStretches w C mv C') :
    ∃ g', Account w c₀ (past ++ mv.deeds) (g ++ g') C' := by
  rcases h with ⟨c, hrun, hfollows, hstage, hcallbacks⟩
  cases hstep with
  | @start i p hcode hp =>
      cases i with
      | none =>
          -- the worker is born
          rcases hp with ⟨n, rfl⟩
          have hready : c.worker = .ready := hfollows.worker.of_pure hcode
          refine Account.work hrun hstage hcallbacks Transition.Run.nil nofun ?_
            (fun i => Function.update_of_ne (Option.some_ne_none i) (worker n) _) (fun i => ⟨rfl, rfl⟩) rfl
          change Follows c C.shared (Function.update C.code none (worker n) none)
          rw [Function.update_self]
          exact ⟨hfollows.motor, hfollows.clock, hfollows.alive, hready ▸ .ready n⟩
      | some j =>
          rcases hp with ⟨x, rfl⟩
          refine Account.client (j := j) hrun hstage hcallbacks Transition.Run.nil hfollows rfl ?_ ?_ rfl
          · intro i hi
            refine ⟨?_, rfl, rfl⟩
            simp [Locks.Move.deeds, Ne.symm hi]
          · change calls.Stage (some j) ((answers j g ++ []).map Prod.fst) (answers j g ++ []) _ _
            rw [List.append_nil]
            exact (hstage j).start hcode x
  | @stretch i p q q' ops t henters hwithin hleaves hops =>
      have hheard : ∀ j, calls.heard (some j) (Locks.operations i ops : List (MotorDeed κ ι)) = [] :=
        fun j => calls.heard_operations calls_told hops
      cases i with
      | none =>
          rcases hfollows.stretch henters hwithin hleaves with ⟨es, c', hsteps, hes, hfollows'⟩
          refine Account.work hrun hstage hcallbacks hsteps (fun e he => (hes e he).1) ?_
            (fun i => Function.update_of_ne (Option.some_ne_none i) q' _)
            (fun i => ⟨Locks.begun_operations, hheard i⟩) ?_
          · change Follows c' t (Function.update C.code none q' none)
            rw [Function.update_self]
            exact hfollows'
          · rw [Locks.Move.deeds, invocations_operations hops]
            exact (List.filterMap_eq_nil_iff.2 fun e he => (hes e he).2).symm
      | some j =>
          rcases (hstage j).of_enters henters with ⟨x, hcode, hrequests, hanswers⟩
          rw [hcode] at henters
          rcases call_stretch hfollows.motor hfollows.clock hfollows.alive henters hwithin hleaves with
            ⟨now, returned, writes, c', hstep, rfl, hworker, hmotor, hclock, hquit⟩
          refine Account.client (j := j) hrun hstage hcallbacks
            (Transition.Run.single (.call j hstep)) ?_ rfl ?_ ?_ ?_
          · exact ⟨hmotor, hclock, hquit, hworker ▸ hfollows.worker⟩
          · intro i hi
            exact ⟨Locks.begun_operations, hheard i, by rw [answers_event, if_neg (Ne.symm hi)]⟩
          · rw [answers_event, if_pos rfl, List.map_append, List.map_singleton]
            exact .serve hrequests hanswers Locks.begun_operations (hheard j) (x, returned)
          · rw [Locks.Move.deeds, invocations_operations hops]
            simp [x.invoked_event]
  | @apart i o next hcode hfree =>
      cases i with
      | none =>
          rcases hfollows.worker.of_op hcode with ⟨callback, n, hworker, rfl, hnext⟩
          refine Account.work hrun hstage hcallbacks
            (Transition.Run.single (.invoke hworker)) (List.forall_mem_singleton.2 rfl) ?_
            (fun i => Function.update_of_ne (Option.some_ne_none i) (next ()) _) (fun i => ⟨rfl, rfl⟩) rfl
          change Follows _ C.shared (Function.update C.code none (next ()) none)
          rw [Function.update_self, hnext]
          exact ⟨hfollows.motor, hfollows.clock, hfollows.alive, .ready n⟩
      | some j =>
          have hothers : ∀ {g' : List (Option ι × Event κ)} {a : Program.Answered (MotorOp κ) MotorRes},
              (∀ i, i ≠ j → answers i g' = []) → ∀ i, i ≠ j →
                Locks.begun (some i) [(some j, .op a)] = ([] : List (Thread κ Unit)) ∧
                  calls.heard (some i) [(some j, .op a)] = [] ∧ answers i g' = [] := by
            intro g' a hg' i hi
            exact ⟨rfl, by simp [Ne.symm hi], hg' i hi⟩
          cases hstage j with
          | idle hp => cases hp.symm.trans hcode
          | @waiting x hp hrequests hanswers =>
              -- only a call that is refused is answered without the mutex
              change C.code (some j) = call x at hp
              by_cases haccepted : x.Accepted
              · rw [call_accepted haccepted] at hp
                cases hp.symm.trans hcode
              · rw [call_refused haccepted] at hp
                cases hp.symm.trans hcode
                rcases x.enabled (w := w) hfollows.alive le_rfl with ⟨writes, clock, hle, hstep⟩
                rw [MotorCall.step_refused haccepted] at hstep
                refine Account.client (j := j) hrun hstage hcallbacks
                  (Transition.Run.single (.call j hstep)) ?_ rfl (hothers fun i hi => ?_) ?_ ?_
                · exact ⟨hfollows.motor, hle.trans hfollows.clock, hfollows.alive, hfollows.worker⟩
                · rw [answers_event, if_neg (Ne.symm hi)]
                · rw [answers_event, if_pos rfl, List.map_append, List.map_singleton]
                  refine .tell ?_ (congrArg (· ++ [(x, false)]) hanswers)
                  rw [hrequests, List.map_append, List.map_singleton]
                · simp [x.invoked_event, invocations, Locks.Move.deeds]
          | telling hp hrequests hanswers =>
              cases hp.symm.trans hcode
              refine Account.client (j := j) hrun hstage hcallbacks Transition.Run.nil hfollows rfl
                (hothers fun _ _ => rfl) ?_ rfl
              change calls.Stage (some j) ((answers j g ++ []).map Prod.fst) (answers j g ++ []) _ _
              rw [List.append_nil]
              exact .tell hrequests hanswers
  | environment hx =>
      refine Account.work hrun hstage hcallbacks Transition.Run.nil nofun ?_ (fun i => rfl)
        (fun i => ⟨rfl, rfl⟩) rfl
      exact ⟨hfollows.motor.trans hx.1.symm, hfollows.clock.trans hx.2, hfollows.alive, hfollows.worker⟩

/-! ### Every interleaving -/

variable {s : MotorThreads κ σ ι} {h : List (ThreadEvent κ ι)}

theorem origin_initial (horigin : Origin w c) : c.worker = .ready ∧ c.motor.quit = false := by
  rcases horigin with ⟨clock, d, rfl | rfl⟩
  · exact ⟨rfl, rfl⟩
  · exact ⟨rfl, rfl⟩

theorem log_within {p q : Thread κ Unit} {ops : List (Program.Answered (MotorOp κ) MotorRes)}
    {t t' : Clocked κ σ} (hwithin : Locks.Within (machine w) Later p t ops q t') :
    t.motor.log <+: t'.motor.log := by
  induction hwithin with
  | here => exact List.prefix_rfl
  | @op ops o next t' _ ih =>
      refine ih.trans ?_
      cases o with
      | write node value => exact List.prefix_append _ _
      | _ => exact List.prefix_rfl
  | environment _ hx ih => exact ih.trans (hx.1 ▸ List.prefix_rfl)

theorem Account.atomic (haccount : Account w c₀ past g C)
    (hb : Locks.Behind (machine w) Later MotorOp.isFree () C past s (Locks.deeds h)) :
    ∃ c, Atomic w c₀ h s g c := by
  rcases haccount with ⟨c, hrun, hfollows, hstage, hcallbacks⟩
  refine ⟨c, hrun, ?_, ?_, ?_, ?_, ?_⟩
  · intro hfree
    cases hb with
    | level _ hshared => exact hfollows.motor.trans (congrArg Clocked.motor hshared)
    | within hown => cases hfree.symm.trans hown
  · rw [hfollows.motor]
    cases hb with
    | level _ hshared => exact hshared ▸ List.prefix_rfl
    | within _ _ _ hwithin => exact log_within hwithin
  · refine Eq.trans (hb.filterMap fun d hd => ?_) hcallbacks
    rcases d with ⟨i, p | ⟨o, r⟩⟩
    · rfl
    · cases o with
      | invoke callback => cases hd
      | _ => rfl
  · intro i
    rw [hb.begun_eq]
    have horder := (hstage i).inOrder
    rw [List.map_map] at horder
    exact horder
  · intro i
    rw [hb.heard_eq calls_told]
    exact (hstage i).answered

/-- An account of the interleaving `h`, up to where the thread with the mutex is in its stretch. -/
def Explained (w : Writer σ) (c₀ : Config κ σ) (h : List (ThreadEvent κ ι)) (s : MotorThreads κ σ ι)
    (g : List (Option ι × Event κ)) : Prop :=
  ∃ past C, Account w c₀ past g C ∧
    Locks.Behind (machine w) Later MotorOp.isFree () C past s (Locks.deeds h)

theorem Explained.atomic (hexplained : Explained w c₀ h s g) : ∃ c, Atomic w c₀ h s g c := by
  rcases hexplained with ⟨past, C, haccount, hb⟩
  exact haccount.atomic hb

theorem explained (horigin : Origin w c₀)
    (hrun : Transition.Run (Interleaved w) (.idle ⟨c₀.motor, c₀.clock⟩) h s) :
    ∃ g, Explained w c₀ h s g ∧ ∀ h₁ h₂, h = h₁ ++ h₂ → ∃ g₁ s₁, g₁ <+: g ∧
      Transition.Run (Interleaved w) (.idle ⟨c₀.motor, c₀.clock⟩) h₁ s₁ ∧
        Transition.Run (Interleaved w) s₁ h₂ s ∧ Explained w c₀ h₁ s₁ g₁ := by
  rcases origin_initial horigin with ⟨hready, hquit⟩
  have hstart : Account w c₀ [] ([] : List (Option ι × Event κ)) (.idle ⟨c₀.motor, c₀.clock⟩) :=
    ⟨c₀, Transition.Run.nil, ⟨rfl, le_rfl, hquit, hready ▸ .unborn⟩, fun _ => .idle rfl rfl rfl, rfl⟩
  have hsections : ∀ (i : Option ι) (p : Thread κ Unit), Begins i p →
      Locks.Sectioned MotorOp.isFree () false p false := by
    rintro (_ | j) p hp
    · rcases hp with ⟨n, rfl⟩
      exact worker_sectioned n
    · rcases hp with ⟨x, rfl⟩
      exact call_sectioned x
  have hapart : (machine w).Apart (MotorOp.isFree (κ := κ)) := by
    intro o ho t t'
    cases o with
    | invoke callback => exact ⟨rfl, rfl⟩
    | reply x returned => exact ⟨rfl, rfl⟩
    | _ => cases ho
  exact Locks.serial (Account w c₀) hapart hsections hstart (fun _ _ _ _ _ h hstep => h.step hstep) hrun

/-- However the threads are switched, what they do is a run of whole calls and whole stretches of the
worker, each call at some time while it is under way: what has happened in it at one time comes first
in what has happened later. -/
theorem interleavings_atomic (horigin : Origin w c₀)
    (hrun : Transition.Run (Interleaved w) (.idle ⟨c₀.motor, c₀.clock⟩) h s) :
    ∃ g, (∃ c, Atomic w c₀ h s g c) ∧ ∀ h₁ h₂, h = h₁ ++ h₂ → ∃ g₁ s₁, g₁ <+: g ∧
      Transition.Run (Interleaved w) (.idle ⟨c₀.motor, c₀.clock⟩) h₁ s₁ ∧
        Transition.Run (Interleaved w) s₁ h₂ s ∧ ∃ c₁, Atomic w c₀ h₁ s₁ g₁ c₁ := by
  rcases explained horigin hrun with ⟨g, hexplained, hcuts⟩
  refine ⟨g, hexplained.atomic, fun h₁ h₂ hcut => ?_⟩
  rcases hcuts h₁ h₂ hcut with ⟨g₁, s₁, hbefore, hrun₁, hrun₂, hexplained₁⟩
  exact ⟨g₁, s₁, hbefore, hrun₁, hrun₂, hexplained₁.atomic⟩

end Steps

end Threads

/-- A client starts the loop of 100 ms; the worker has not started yet. -/
theorem loopStarted : ∃ h, ∃ s : MotorThreads Unit Bool Unit,
    Transition.Run (Interleaved obedientDevice.write)
      (.idle ⟨((Motor.constructed false).initializeMotor obedientDevice.write).2, 5⟩) h s ∧
      s.owner () = none ∧ obedientDevice.looping s.shared.motor.device := by
  have hbegins : Begins (some ()) (call (.play 100 (-1) 128 (some ())) : Thread Unit Unit) := ⟨_, rfl⟩
  refine ⟨_, _, Transition.Run.snoc _ (Transition.Run.snoc _ (Transition.Run.snoc _
    (Transition.Run.snoc _ (Transition.Run.snoc _ (Transition.Run.snoc _ (Transition.Run.snoc _
      (Transition.Run.snoc _ (Transition.Run.snoc _ (Transition.Run.snoc _ (Transition.Run.snoc _
        Transition.Run.nil (.start (i := some ()) rfl hbegins)) (.lock (i := some ()) rfl rfl))
        (.op (i := some ()) rfl)) (.op (i := some ()) rfl)) (.op (i := some ()) rfl))
        (.op (i := some ()) rfl)) (.op (i := some ()) rfl)) (.op (i := some ()) rfl))
        (.op (i := some ()) rfl)) (.op (i := some ()) rfl)) (.unlock (i := some ()) rfl rfl), rfl, rfl⟩

theorem interleavings_atomic_started : ∃ h, ∃ s : MotorThreads Unit Bool Unit, ∃ g c,
    obedientDevice.looping s.shared.motor.device ∧
      Atomic obedientDevice.write (Config.initialized obedientDevice.write 5 false) h s g c := by
  rcases loopStarted with ⟨h, s, hrun, _, hloop⟩
  have horigin : Origin obedientDevice.write
      (Config.initialized (κ := Unit) obedientDevice.write 5 false) := ⟨5, false, Or.inr rfl⟩
  rcases interleavings_atomic horigin hrun with ⟨g, ⟨c, hatomic⟩, _⟩
  exact ⟨h, s, g, c, hloop, hatomic⟩

/-! ## What the system of whole steps says of the threads -/

section Transfer

variable {ι : Type u} [DecidableEq ι] {w : Writer σ} {c₀ c : Config κ σ}
  {g : List (Option ι × Event κ)} {s : MotorThreads κ σ ι} {h : List (ThreadEvent κ ι)}

omit [DecidableEq ι] in
theorem runs_step (hrun : Transition.Run (StepBy w) c₀ g c) :
    Transition.Run (Step w) c₀ (g.map Prod.snd) c := by
  induction hrun with
  | nil => exact Transition.Run.nil
  | @snoc g t u x _ hstep ih =>
      rw [List.map_append]
      refine Transition.Run.snoc x.2 ih ?_
      cases hstep with
      | call i hstep => exact hstep
      | work hwork hstep => exact hstep

/-- Between any two operations, as long as the mutex is free: a looping device is marked active, and
either the pending request is the loop, or the last stop command failed. -/
theorem loop_guarded_unlocked (dev : HapticDevice σ) {clock : Int} {d : σ} {s : MotorThreads κ σ ι}
    (hrun : Transition.Run (Interleaved dev.write)
      (.idle ⟨((Motor.constructed d).initializeMotor dev.write).2, clock⟩) h s)
    (hfree : s.owner () = none) (hloop : dev.looping s.shared.motor.device) :
    s.shared.motor.active = true ∧
      (s.shared.motor.pending = true ∧ s.shared.motor.continuous = true ∨
        LastStopFailed s.shared.motor.log) := by
  have horigin : Origin dev.write (Config.initialized (κ := κ) dev.write clock d) :=
    ⟨clock, d, Or.inr rfl⟩
  rcases explained horigin hrun with ⟨g, hexplained, _⟩
  rcases hexplained.atomic with ⟨c, hatomic⟩
  rcases guarded_of_run dev (runs_step hatomic.run) with ⟨hguarded, _⟩
  have hmotor := hatomic.free hfree
  rw [← hmotor] at hloop ⊢
  have hactive := hguarded.active hloop
  refine ⟨hactive, ?_⟩
  cases hpending : c.motor.pending with
  | true => exact Or.inl ⟨rfl, hguarded.continuous hloop hpending⟩
  | false => exact Or.inr (hguarded.stopFailed hloop hpending)

end Transfer

theorem loop_guarded_unlocked_started : ∃ s : MotorThreads Unit Bool Unit,
    obedientDevice.looping s.shared.motor.device ∧ s.shared.motor.active = true ∧
      (s.shared.motor.pending = true ∧ s.shared.motor.continuous = true ∨
        LastStopFailed s.shared.motor.log) := by
  rcases loopStarted with ⟨h, s, hrun, hfree, hloop⟩
  exact ⟨s, hloop, loop_guarded_unlocked obedientDevice hrun hfree hloop⟩

end Vibrator
end M2391Device
