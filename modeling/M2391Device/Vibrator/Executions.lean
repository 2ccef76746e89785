import M2391Device.Vibrator.Threads

/-!
# Executions — what the scheduler's programs compute

Under the mutex, the programs of the threads compute what the functions of the sequential model say: a
call (`does_locked`), and a pass of the worker from where its timed wait has expired (`does_expiry`).
The clock may go on between any two operations; a function that reads it gets some reading that is not
from before.
-/

namespace M2391Device
namespace Vibrator

universe v

variable {κ : Type} {σ : Type v}

/-- After `!taps_.empty() && ++tapIndex_ ..` -/
def Motor.advanced (m : Motor κ σ) : Motor κ σ :=
  if m.taps = [] then m else { m with tapIndex := m.tapIndex + 1 }

/-- What a pass comes to: `none` is `continue`. -/
def Motor.Expiry.result : Motor.Expiry κ → Option (Bool × Option κ)
  | .finished stopped _ callback => some (stopped, callback)
  | _ => none

theorem later_of_steps {s t : Clocked κ σ} (h : Relation.ReflTransGen Later s t) : Later s t := by
  induction h with
  | refl => exact ⟨rfl, le_rfl⟩
  | tail _ hx ih => exact ⟨hx.1.trans ih.1, ih.2.trans hx.2⟩

/-! ## Rules -/

section Rules

variable {w : Writer σ} {α β : Type} {K : Threaded.Thread κ β → Clocked κ σ → Prop}
  {Q : β → Clocked κ σ → Prop} {m : Motor κ σ} {τ : Int}

/-- The program does what it has to from an object and a time. -/
abbrev Does (w : Writer σ) (K : Threaded.Thread κ β → Clocked κ σ → Prop) (Q : β → Clocked κ σ → Prop)
    (p : Threaded.Thread κ β) (m : Motor κ σ) (τ : Int) : Prop :=
  Locks.Until (machine w) Later K Q p ⟨m, τ⟩

open Threaded

theorem does_op {o : MotorOp κ} {k : MotorRes o → Thread κ β}
    (h : ∀ τ', τ ≤ τ' → Locks.Until (machine w) Later K Q (k (o.step w ⟨m, τ'⟩).1) (o.step w ⟨m, τ'⟩).2) :
    Does w K Q (.perform (.op o) k) m τ := by
  rintro ⟨m', τ'⟩ ht
  rcases later_of_steps ht with ⟨rfl, hτ⟩
  exact h τ' hτ

theorem does_fields {k : Fields κ → Thread κ β} (h : ∀ τ', τ ≤ τ' → Does w K Q (k m.fields) m τ') :
    Does w K Q (fields >>= k) m τ := does_op h

theorem does_now {k : Int → Thread κ β} (h : ∀ τ', τ ≤ τ' → Does w K Q (k τ') m τ') :
    Does w K Q (now >>= k) m τ := does_op h

theorem does_update {f : Fields κ → Fields κ} {k : Unit → Thread κ β}
    (h : ∀ τ', τ ≤ τ' → Does w K Q (k ()) (m.update f) τ') : Does w K Q (update f >>= k) m τ := does_op h

theorem does_notifyAll {k : Unit → Thread κ β} (h : ∀ τ', τ ≤ τ' → Does w K Q (k ()) m.notifyAll τ') :
    Does w K Q (notifyAll >>= k) m τ := does_op h

theorem does_write {node : Node} {value : String} {k : Bool → Thread κ β}
    (h : ∀ τ', τ ≤ τ' → Does w K Q (k (m.onHardware (Hardware.write w node value)).1)
      (m.onHardware (Hardware.write w node value)).2 τ') :
    Does w K Q (write node value >>= k) m τ := does_op h

theorem does_stopHardware {k : Bool → Thread κ β} (h : ∀ τ', τ ≤ τ' →
    Does w K Q (k (m.stopHardware w).1) (m.stopHardware w).2 τ') :
    Does w K Q (stopHardware >>= k) m τ := by
  rw [stopHardware, Program.bind_bind]
  refine does_fields fun τ₁ hτ₁ => ?_
  have hfields : m.fields.active = m.active := rfl
  cases hactive : m.active with
  | false =>
      have hstop : m.stopHardware w = (true, m) := by
        simp [Motor.stopHardware, Motor.onHardware, Hardware.stopHardware, hactive]
      rw [hstop] at h
      rw [if_pos (by rw [hfields, hactive]; rfl)]
      exact h τ₁ hτ₁
  | true =>
      rw [if_neg (by rw [hfields, hactive]; simp), Program.bind_bind]
      refine does_write fun τ₂ hτ₂ => ?_
      rcases hwrite : m.toHardware.write w .enable "0" with ⟨stopped, hw⟩
      have hanswer : m.onHardware (Hardware.write w .enable "0") =
          (stopped, { m with toHardware := hw }) := by rw [Motor.onHardware, hwrite]
      rw [hanswer]
      cases stopped with
      | false =>
          have hstop : m.stopHardware w = (false, { m with toHardware := hw }) := by
            simp [Motor.stopHardware, Motor.onHardware, Hardware.stopHardware, hactive, hwrite]
          rw [hstop] at h
          exact h τ₂ (hτ₁.trans hτ₂)
      | true =>
          have hstop : m.stopHardware w = (true, { m with toHardware := { hw with active := false } }) := by
            simp [Motor.stopHardware, Motor.onHardware, Hardware.stopHardware, hactive, hwrite]
          rw [hstop] at h
          exact does_update fun τ₃ hτ₃ => h τ₃ ((hτ₁.trans hτ₂).trans hτ₃)

theorem does_startThenGain {node : Node} {value : String} {gain : Int} {k : Bool → Thread κ β}
    (h : ∀ τ', τ ≤ τ' → Does w K Q (k (m.onHardware (Hardware.startThenGain w node value gain)).1)
      (m.onHardware (Hardware.startThenGain w node value gain)).2 τ') :
    Does w K Q (startThenGain node value gain >>= k) m τ := by
  rw [startThenGain, Program.bind_bind]
  refine does_write fun τ₁ hτ₁ => ?_
  rcases hwrite : m.toHardware.write w node value with ⟨started, hw⟩
  have hanswer : m.onHardware (Hardware.write w node value) = (started, { m with toHardware := hw }) := by
    rw [Motor.onHardware, hwrite]
  rw [hanswer]
  have hstart : m.onHardware (Hardware.startThenGain w node value gain) =
      if started then ({ m with toHardware := hw } : Motor κ σ).onHardware
        (Hardware.write w .gain (toString gain)) else (false, { m with toHardware := hw }) := by
    cases started <;> simp [Motor.onHardware, Hardware.startThenGain, hwrite]
  rw [hstart] at h
  cases started with
  | false => exact h τ₁ hτ₁
  | true => exact does_write fun τ₂ hτ₂ => h τ₂ (hτ₁.trans hτ₂)

theorem does_fireTap {tap : Tap} {k : Bool → Thread κ β}
    (h : ∀ τ', τ ≤ τ' → Does w K Q (k (m.onHardware (Hardware.fireTap w tap)).1)
      (m.onHardware (Hardware.fireTap w tap)).2 τ') : Does w K Q (fireTap tap >>= k) m τ := by
  rw [fireTap]
  by_cases hsilent : tap.gain = 0
  · have hfire : m.onHardware (Hardware.fireTap w tap) = m.stopHardware w := by
      simp [Motor.onHardware, Motor.stopHardware, Hardware.fireTap, hsilent]
    rw [hfire] at h
    rw [if_pos hsilent]
    exact does_stopHardware h
  · have hfire : m.onHardware (Hardware.fireTap w tap) =
        (m.update fun m => { m with active := true }).onHardware
          (Hardware.startThenGain w .setMback (toString tap.level ++ " 1") tap.gain) := by
      simp [Motor.onHardware, Hardware.fireTap, hsilent, Motor.update, Motor.fields]
    rw [hfire] at h
    rw [if_neg hsilent, Program.bind_bind]
    exact does_update fun τ₁ hτ₁ => does_startThenGain fun τ₂ hτ₂ => h τ₂ (hτ₁.trans hτ₂)

/-- With a reading of the clock that is not from before. -/
theorem does_startTap {k : Bool → Thread κ β} (h : ∀ t τ', τ ≤ t → t ≤ τ' →
    Does w K Q (k (m.startTap w t).1) (m.startTap w t).2 τ') : Does w K Q (startTap >>= k) m τ := by
  rw [startTap, Program.bind_bind]
  refine does_fields fun τ₁ hτ₁ => ?_
  rw [Program.bind_bind]
  refine does_fireTap fun τ₂ hτ₂ => ?_
  have htap : m.fields.currentTap = m.currentTap := rfl
  rw [htap]
  rcases hfire : m.onHardware (Hardware.fireTap w m.currentTap) with ⟨fired, m'⟩
  cases fired with
  | false =>
      have hstart : m.startTap w τ₂ = (false, m') := by rw [Motor.startTap, hfire]
      have h₂ := h τ₂ τ₂ (hτ₁.trans hτ₂) le_rfl
      rw [hstart] at h₂
      exact h₂
  | true =>
      refine does_now fun t ht => does_update fun τ₃ hτ₃ => ?_
      have hstart : m.startTap w t =
          (true, { m' with deadline := t + millis m.currentTap.durationMs }) := by
        rw [Motor.startTap, hfire]
      have h₃ := h t τ₃ ((hτ₁.trans hτ₂).trans ht) hτ₃
      rw [hstart] at h₃
      exact h₃

/-! ### The calls -/

theorem does_play {milliseconds level gain : Int} {complete : Option κ} {k : Bool → Thread κ β}
    (haccepts : Motor.PlayAccepts milliseconds level gain) (h : ∀ t τ', τ ≤ t → t ≤ τ' →
      Does w K Q (k (m.play w t milliseconds level gain complete).1)
        (m.play w t milliseconds level gain complete).2 τ') :
    Does w K Q (play milliseconds level gain complete >>= k) m τ := by
  rw [play, Program.bind_bind]
  refine does_update fun τ₁ hτ₁ => ?_
  rw [Program.bind_bind]
  refine does_fields fun τ₂ hτ₂ => ?_
  rw [Program.bind_bind]
  change Does w K Q (startThenGain (if (m.beginPlay level).continuous then .ramLoop else .setMback)
    (if (m.beginPlay level).continuous then toString gain else toString level ++ " 1") gain >>= _)
    (m.beginPlay level) τ₂
  refine does_startThenGain fun τ₃ hτ₃ => ?_
  change Does w K Q _ ((m.beginPlay level).startWave w level gain).2 τ₃
  have hlater : τ ≤ τ₃ := (hτ₁.trans hτ₂).trans hτ₃
  rcases hstart : (m.beginPlay level).startWave w level gain with ⟨started, m'⟩
  have hanswer : (m.beginPlay level).onHardware (Hardware.startThenGain w
      (if (m.beginPlay level).continuous then .ramLoop else .setMback)
      (if (m.beginPlay level).continuous then toString gain else toString level ++ " 1") gain) =
        (started, m') := hstart
  rw [hanswer]
  cases started with
  | false =>
      -- the clean-up after a failed write
      have hplay : m.play w τ₃ milliseconds level gain complete =
          (false, (m'.stopHardware w).2.notifyAll) := by
        rw [Motor.play, if_pos haccepts, hstart]
      have h₃ : ∀ τ', τ₃ ≤ τ' → Does w K Q (k false) (m'.stopHardware w).2.notifyAll τ' := by
        intro τ' hτ'
        have h' := h τ₃ τ' hlater hτ'
        rw [hplay] at h'
        exact h'
      rw [if_neg Bool.false_ne_true, Program.bind_bind]
      refine does_stopHardware fun τ₄ hτ₄ => ?_
      rw [Program.bind_bind]
      exact does_notifyAll fun τ₅ hτ₅ => h₃ τ₅ (hτ₄.trans hτ₅)
  | true =>
      refine does_now fun t ht => does_update fun τ₄ hτ₄ => does_update fun τ₅ hτ₅ =>
        does_notifyAll fun τ₆ hτ₆ => ?_
      have hplay : m.play w t milliseconds level gain complete = (true,
          { m' with deadline := t + millis milliseconds, callback := complete, pending := true }.notifyAll) := by
        rw [Motor.play, if_pos haccepts, hstart]
      have h₆ := h t τ₆ (hlater.trans ht) ((hτ₄.trans hτ₅).trans hτ₆)
      rw [hplay] at h₆
      exact h₆

theorem does_setAmplitude {amplitude : ℚ} {k : Bool → Thread κ β} (h : ∀ τ', τ ≤ τ' →
    Does w K Q (k (m.setAmplitude w amplitude).1) (m.setAmplitude w amplitude).2 τ') :
    Does w K Q (setAmplitude amplitude >>= k) m τ := does_write h

theorem does_startComposition {k : Bool → Thread κ β} (h : ∀ t τ', τ ≤ t → t ≤ τ' →
    Does w K Q (k (m.startComposition w t).1) (m.startComposition w t).2 τ') :
    Does w K Q (startComposition >>= k) m τ := by
  rw [startComposition, Program.bind_bind]
  refine does_fields fun τ₁ hτ₁ => ?_
  have hfields : m.fields.waitingForTap = m.waitingForTap := rfl
  cases hwaiting : m.waitingForTap with
  | true =>
      rw [if_pos (hfields.trans hwaiting), Program.bind_bind]
      refine does_stopHardware fun τ₂ hτ₂ => ?_
      rcases hstop : m.stopHardware w with ⟨stopped, m'⟩
      cases stopped with
      | false =>
          have hstart : m.startComposition w τ₂ = (false, m') := by
            rw [Motor.startComposition, if_pos hwaiting, hstop]
          have h₂ := h τ₂ τ₂ (hτ₁.trans hτ₂) le_rfl
          rw [hstart] at h₂
          exact h₂
      | true =>
          refine does_now fun t ht => does_update fun τ₃ hτ₃ => ?_
          have hstart : m.startComposition w t =
              (true, { m' with deadline := t + millis m'.currentTap.delayMs }) := by
            rw [Motor.startComposition, if_pos hwaiting, hstop]
          have h₃ := h t τ₃ ((hτ₁.trans hτ₂).trans ht) hτ₃
          rw [hstart] at h₃
          exact h₃
  | false =>
      rw [if_neg (by rw [hfields, hwaiting]; exact Bool.false_ne_true), Program.bind_bind]
      refine does_startTap fun t τ₂ ht hτ₂ => ?_
      rcases htap : m.startTap w t with ⟨started, m'⟩
      cases started with
      | false =>
          have hstart : m.startComposition w t = (false, (m'.stopHardware w).2) := by
            rw [Motor.startComposition, if_neg (by rw [hwaiting]; exact Bool.false_ne_true), htap]
          have h₂ : ∀ τ', t ≤ τ' → Does w K Q (k false) (m'.stopHardware w).2 τ' := by
            intro τ' hτ'
            have h' := h t τ' (hτ₁.trans ht) hτ'
            rw [hstart] at h'
            exact h'
          rw [if_neg Bool.false_ne_true, Program.bind_bind]
          exact does_stopHardware fun τ₃ hτ₃ => h₂ τ₃ (hτ₂.trans hτ₃)
      | true =>
          have hstart : m.startComposition w t = (true, m') := by
            rw [Motor.startComposition, if_neg (by rw [hwaiting]; exact Bool.false_ne_true), htap]
          have h₂ := h t τ₂ (hτ₁.trans ht) hτ₂
          rw [hstart] at h₂
          exact h₂

theorem does_compose {taps : List Tap} {complete : Option κ} {k : Bool → Thread κ β}
    (haccepts : Motor.ComposeAccepts taps) (h : ∀ t τ', τ ≤ t → t ≤ τ' →
      Does w K Q (k (m.compose w t taps complete).1) (m.compose w t taps complete).2 τ') :
    Does w K Q (compose taps complete >>= k) m τ := by
  rw [compose, Program.bind_bind]
  refine does_update fun τ₁ hτ₁ => ?_
  rw [Program.bind_bind]
  refine does_update fun τ₂ hτ₂ => ?_
  rw [Program.bind_bind]
  change Does w K Q (startComposition >>= _) (m.beginCompose taps) τ₂
  refine does_startComposition fun t τ₃ ht hτ₃ => ?_
  have hlater : τ ≤ t := (hτ₁.trans hτ₂).trans ht
  rcases hstart : (m.beginCompose taps).startComposition w t with ⟨started, m'⟩
  cases started with
  | false =>
      refine does_update fun τ₄ hτ₄ => does_notifyAll fun τ₅ hτ₅ => ?_
      have hcompose : m.compose w t taps complete = (false, { m' with taps := [] }.notifyAll) := by
        rw [Motor.compose, if_pos haccepts, hstart]
      have h₅ := h t τ₅ hlater ((hτ₃.trans hτ₄).trans hτ₅)
      rw [hcompose] at h₅
      exact h₅
  | true =>
      refine does_update fun τ₄ hτ₄ => does_notifyAll fun τ₅ hτ₅ => ?_
      have hcompose : m.compose w t taps complete =
          (true, { m' with callback := complete, pending := true }.notifyAll) := by
        rw [Motor.compose, if_pos haccepts, hstart]
      have h₅ := h t τ₅ hlater ((hτ₃.trans hτ₄).trans hτ₅)
      rw [hcompose] at h₅
      exact h₅

theorem does_stop {k : Bool → Thread κ β} (h : ∀ τ', τ ≤ τ' →
    Does w K Q (k (m.stop w).1) (m.stop w).2 τ') : Does w K Q (stop >>= k) m τ := by
  rw [stop, Program.bind_bind]
  refine does_update fun τ₁ hτ₁ => ?_
  rw [Program.bind_bind]
  exact does_notifyAll fun τ₂ hτ₂ => does_stopHardware fun τ₃ hτ₃ => h τ₃ ((hτ₁.trans hτ₂).trans hτ₃)

/-- Under the mutex, with a reading of the clock that is not from before. -/
theorem does_locked {x : MotorCall κ} {k : Bool → Thread κ β} (haccepted : x.Accepted)
    (h : ∀ t τ', τ ≤ t → t ≤ τ' → Does w K Q (k (x.step w t m).1) (x.step w t m).2 τ') :
    Does w K Q (locked x >>= k) m τ := by
  cases x with
  | play milliseconds level gain complete => exact does_play haccepted h
  | setAmplitude amplitude => exact does_setAmplitude fun τ' hτ' => h τ' τ' hτ' le_rfl
  | compose taps complete => exact does_compose haccepted h
  | stop => exact does_stop fun τ' hτ' => h τ' τ' hτ' le_rfl

/-! ### The worker -/

theorem startTap_failed {t : Int} {m' : Motor κ σ} (h : m.startTap w t = (false, m')) (t' : Int) :
    m.startTap w t' = (false, m') := by
  rw [Motor.startTap] at h ⊢
  rcases hfire : m.onHardware (Hardware.fireTap w m.currentTap) with ⟨fired, m''⟩
  rw [hfire] at h
  cases fired with
  | false => exact h
  | true => cases h

theorem does_closeWave {stopped : Bool} {k : Bool → Thread κ β} (h : ∀ τ', τ ≤ τ' →
    Does w K Q (k (m.onHardware (Hardware.closeWave w m.continuous stopped)).1)
      (m.onHardware (Hardware.closeWave w m.continuous stopped)).2 τ') :
    Does w K Q (closeWave stopped >>= k) m τ := by
  rw [closeWave, Program.bind_bind]
  cases stopped with
  | false =>
      have hclose : m.onHardware (Hardware.closeWave w m.continuous false) = (false, m) := rfl
      rw [hclose] at h
      exact h τ le_rfl
  | true =>
      rw [stopContinuous, Program.bind_bind]
      refine does_fields fun τ₁ hτ₁ => ?_
      have hfields : m.fields.continuous = m.continuous := rfl
      rw [hfields]
      cases hcontinuous : m.continuous with
      | false =>
          -- a finite wave stops itself
          rw [hcontinuous] at h
          exact does_update fun τ₂ hτ₂ => h τ₂ (hτ₁.trans hτ₂)
      | true =>
          rw [hcontinuous] at h
          refine does_stopHardware fun τ₂ hτ₂ => ?_
          rcases hstop : m.toHardware.stopHardware w with ⟨stopped, hw⟩
          have hanswer : m.stopHardware w = (stopped, { m with toHardware := hw }) := by
            rw [Motor.stopHardware, Motor.onHardware, hstop]
          have hclose : m.onHardware (Hardware.closeWave w true true) =
              (stopped, { m with toHardware := if stopped then { hw with active := false } else hw }) := by
            simp [Motor.onHardware, Hardware.closeWave, hstop]
          rw [hclose] at h
          rw [hanswer]
          cases stopped with
          | false => exact h τ₂ (hτ₁.trans hτ₂)
          | true => exact does_update fun τ₃ hτ₃ => h τ₃ ((hτ₁.trans hτ₂).trans hτ₃)

theorem does_nextIndex {k : Bool → Thread κ β} (h : ∀ τ', τ ≤ τ' →
    Does w K Q (k (decide (m.advanced.taps ≠ [] ∧ m.advanced.tapIndex < m.advanced.taps.length)))
      m.advanced τ') : Does w K Q (nextIndex >>= k) m τ := by
  rw [nextIndex, Program.bind_bind]
  refine does_fields fun τ₁ hτ₁ => ?_
  have hfields : m.fields.taps = m.taps := rfl
  by_cases hnone : m.taps = []
  · have hadvanced : m.advanced = m := if_pos hnone
    have hmore : decide (m.taps ≠ [] ∧ m.tapIndex < m.taps.length) = false := by simp [hnone]
    rw [hadvanced, hmore] at h
    rw [if_pos (hfields.trans hnone)]
    exact h τ₁ hτ₁
  · have hadvanced : m.advanced = { m with tapIndex := m.tapIndex + 1 } := if_neg hnone
    have hmore : decide (m.taps ≠ [] ∧ m.tapIndex + 1 < m.taps.length) =
        decide (m.tapIndex + 1 < m.taps.length) := by simp [hnone]
    rw [hadvanced, hmore] at h
    rw [if_neg (by rw [hfields]; exact hnone), Program.bind_bind]
    exact does_update fun τ₂ hτ₂ => does_fields fun τ₃ hτ₃ => h τ₃ ((hτ₁.trans hτ₂).trans hτ₃)

theorem does_nextPhase {stopped : Bool} (tapFailed : Bool) {k : Option (Bool × Option κ) → Thread κ β}
    (h : ∀ t τ', τ ≤ t → t ≤ τ' → Does w K Q (k (m.nextPhase t stopped tapFailed).1.result)
      (m.nextPhase t stopped tapFailed).2 τ') : Does w K Q (nextPhase stopped >>= k) m τ := by
  rw [nextPhase, Program.bind_bind]
  refine does_nextIndex fun τ₁ hτ₁ => ?_
  by_cases hmore : m.advanced.taps ≠ [] ∧ m.advanced.tapIndex < m.advanced.taps.length
  · have hnext : ∀ t, m.nextPhase t stopped tapFailed = (.nextTap m.advanced.tapIndex,
        { m.advanced with waitingForTap := true, deadline := t + millis m.advanced.currentTap.delayMs }) :=
      fun t => if_pos hmore
    rw [if_pos (decide_eq_true hmore), Program.bind_bind]
    refine does_update fun τ₂ hτ₂ => ?_
    refine does_now fun t ht => does_update fun τ₃ hτ₃ => ?_
    have h₃ := h t τ₃ ((hτ₁.trans hτ₂).trans ht) hτ₃
    rw [hnext] at h₃
    exact h₃
  · have hnext : m.nextPhase τ₁ stopped tapFailed = (.finished stopped tapFailed m.advanced.callback,
        { m.advanced with taps := [], pending := false, callback := none }) := if_neg hmore
    rw [if_neg (by rw [decide_eq_true_iff]; exact hmore), Program.bind_bind]
    refine does_update fun τ₂ hτ₂ => ?_
    refine does_fields fun τ₃ hτ₃ => does_update fun τ₄ hτ₄ => ?_
    have h₄ := h τ₁ τ₄ hτ₁ ((hτ₂.trans hτ₃).trans hτ₄)
    rw [hnext] at h₄
    exact h₄

/-- A pass from where the timed wait has expired, with a reading of the clock that is not from
before. -/
theorem does_expiry {k : Option (Bool × Option κ) → Thread κ β} (h : ∀ t τ', τ ≤ t → t ≤ τ' →
    Does w K Q (k (m.expire w t).1.result) (m.expire w t).2 τ') :
    Does w K Q (expiry >>= k) m τ := by
  rw [expiry, Program.bind_bind]
  refine does_fields fun τ₁ hτ₁ => ?_
  have hfields : m.fields.waitingForTap = m.waitingForTap := rfl
  cases hwaiting : m.waitingForTap with
  | true =>
      rw [if_pos (hfields.trans hwaiting), Program.bind_bind]
      refine does_update fun τ₂ hτ₂ => ?_
      rw [Program.bind_bind]
      change Does w K Q (startTap >>= _) { m with waitingForTap := false } τ₂
      refine does_startTap fun t τ₃ ht hτ₃ => ?_
      have hlater : τ ≤ t := (hτ₁.trans hτ₂).trans ht
      rcases htap : ({ m with waitingForTap := false } : Motor κ σ).startTap w t with ⟨started, m'⟩
      cases started with
      | true =>
          have hexpire : m.expire w t = (.tapStarted m'.tapIndex, m') := by
            rw [Motor.expire, if_pos hwaiting, htap]
          have h₃ := h t τ₃ hlater hτ₃
          rw [hexpire] at h₃
          exact h₃
      | false =>
          rw [if_neg Bool.false_ne_true, Program.bind_bind]
          refine does_stopHardware fun τ₄ hτ₄ => ?_
          rw [Program.bind_bind]
          refine does_update fun τ₅ hτ₅ => ?_
          rw [Program.bind_bind]
          refine does_closeWave fun τ₆ hτ₆ => does_nextPhase true fun t' τ₇ ht' hτ₇ => ?_
          -- a tap that fails reads no clock
          have h₇ := h t' τ₇ (hlater.trans (((hτ₃.trans hτ₄).trans (hτ₅.trans hτ₆)).trans ht')) hτ₇
          rw [Motor.expire, if_pos hwaiting, startTap_failed htap t'] at h₇
          exact h₇
  | false =>
      rw [if_neg (by rw [hfields, hwaiting]; exact Bool.false_ne_true), Program.bind_bind]
      refine does_closeWave fun τ₂ hτ₂ => does_nextPhase false fun t τ₃ ht hτ₃ => ?_
      have h₃ := h t τ₃ ((hτ₁.trans hτ₂).trans ht) hτ₃
      rw [Motor.expire, if_neg (by rw [hwaiting]; exact Bool.false_ne_true)] at h₃
      exact h₃

end Rules

/-! ## What is left alone -/

section Frame

variable {w : Writer σ} {m : Motor κ σ}

theorem MotorCall.step_quit (x : MotorCall κ) (now : Int) : (x.step w now m).2.quit = m.quit := by
  cases x with
  | play milliseconds level gain complete =>
      rcases hstep : m.play w now milliseconds level gain complete with ⟨returned, m'⟩
      rw [MotorCall.step, hstep]
      rcases Motor.play_cases w m hstep with ⟨_, _, rfl⟩ | ⟨_, _, _, rfl⟩ | ⟨_, _, _, rfl⟩
      · rfl
      · rfl
      · rfl
  | setAmplitude amplitude => rfl
  | compose taps complete =>
      rcases hstep : m.compose w now taps complete with ⟨returned, m'⟩
      rw [MotorCall.step, hstep]
      rcases Motor.compose_cases w m hstep with ⟨_, _, rfl⟩ | ⟨_, _, _, rfl⟩ | ⟨_, _, _, rfl⟩
      · rfl
      · rfl
      · rfl
  | stop => rfl

theorem expire_quit (now : Int) : (m.expire w now).2.quit = m.quit := by
  rcases hexpire : m.expire w now with ⟨outcome, m'⟩
  rcases Motor.expire_cases w m now hexpire with
    ⟨_, _, _, rfl⟩ | ⟨_, _, _, rfl⟩ | ⟨_, _, _, rfl⟩ | ⟨_, _, _, _, rfl⟩
  · rfl
  · rfl
  · rfl
  · rfl

/-- A call only adds to the log. -/
theorem MotorCall.step_log (x : MotorCall κ) (now : Int) :
    ∃ writes, (x.step w now m).2.log = m.log ++ writes := by
  cases x with
  | play milliseconds level gain complete =>
      rcases hstep : m.play w now milliseconds level gain complete with ⟨returned, m'⟩
      rw [MotorCall.step, hstep]
      rcases Motor.playHardware_writes w m.toHardware level gain with ⟨writes, hlog, _⟩
      rcases Motor.play_cases w m hstep with ⟨_, _, rfl⟩ | ⟨_, _, _, rfl⟩ | ⟨_, _, _, rfl⟩
      · exact ⟨[], (List.append_nil _).symm⟩
      · exact ⟨writes, hlog⟩
      · exact ⟨writes, hlog⟩
  | setAmplitude amplitude => exact ⟨_, Hardware.write_log w m.toHardware .gain _⟩
  | compose taps complete =>
      rcases hstep : m.compose w now taps complete with ⟨returned, m'⟩
      rw [MotorCall.step, hstep]
      rcases Motor.composeHardware_writes w m.toHardware (Motor.firstTap taps) with ⟨writes, hlog, _⟩
      rcases Motor.compose_cases w m hstep with ⟨_, _, rfl⟩ | ⟨_, _, _, rfl⟩ | ⟨_, _, _, rfl⟩
      · exact ⟨[], (List.append_nil _).symm⟩
      · exact ⟨writes, hlog⟩
      · exact ⟨writes, hlog⟩
  | stop => exact ⟨_, Hardware.stopHardware_log w m.toHardware⟩

/-- A call that is refused does nothing. -/
theorem MotorCall.step_refused {x : MotorCall κ} (hrefused : ¬ x.Accepted) (now : Int) :
    x.step w now m = (false, m) := by
  cases x with
  | play milliseconds level gain complete => exact Motor.play_rejected w m now complete hrefused
  | setAmplitude amplitude => exact absurd trivial hrefused
  | compose taps complete => exact Motor.compose_rejected w m now complete hrefused
  | stop => exact absurd trivial hrefused

end Frame

end Vibrator
end M2391Device
