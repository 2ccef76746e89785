import Mathlib.Data.Rat.Floor
import Mathlib.Tactic.Linarith
import M2391Device.Lib.Program
import M2391Device.Vibrator.Writes

/-!
# Service — the vibrator service in front of the motor

The methods of `Vibrator` in `vibrator/service.cpp` as programs over calls into `TimedMotor`.  The
service and the motor check their arguments independently of each other; whatever the service lets
through is accepted by the motor, so that a failure it reports is always that of a write
(`compose_agrees`).

The float expressions are read over the rationals.
-/

namespace M2391Device
namespace Vibrator

universe u v

/-! ## What the framework passes -/

/-- A C++ `float`: every finite one is a rational number. -/
inductive CFloat
  | nan
  | infinite (negative : Bool)
  | finite (value : ℚ)
  deriving DecidableEq

/-- A primitive of the interface; those without a case of their own are `other`. -/
inductive CompositePrimitive
  | NOOP
  | CLICK
  | LIGHT_TICK
  | LOW_TICK
  | other (value : Int)
  deriving DecidableEq

structure CompositeEffect where
  delayMs : Int
  primitive : CompositePrimitive
  scale : CFloat
  deriving DecidableEq

inductive Effect
  | CLICK
  | TICK
  | TEXTURE_TICK
  | HEAVY_CLICK
  | other (value : Int)
  deriving DecidableEq

inductive EffectStrength
  | LIGHT
  | MEDIUM
  | STRONG
  | other (value : Int)
  deriving DecidableEq

/-- The result of a method: `EX_ILLEGAL_ARGUMENT`, `EX_UNSUPPORTED_OPERATION`, or `failure()`, the
service-specific error `EIO`. -/
inductive Status
  | ok
  | illegalArgument
  | unsupported
  | failure
  deriving DecidableEq

/-! ## Calls into the motor -/

inductive MotorCall (κ : Type u)
  | play (milliseconds level gain : Int) (complete : Option κ)
  | setAmplitude (amplitude : ℚ)
  | compose (taps : List Tap) (complete : Option κ)
  | stop
  deriving DecidableEq

namespace MotorCall

variable {κ : Type u} {σ : Type v}

/-- A call on the motor, which reads the clock at `now`. -/
def step (w : Writer σ) (now : Int) : MotorCall κ → Motor κ σ → Bool × Motor κ σ
  | .play milliseconds level gain complete, m => m.play w now milliseconds level gain complete
  | .setAmplitude amplitude, m => m.setAmplitude w amplitude
  | .compose taps complete, m => m.compose w now taps complete
  | .stop, m => m.stop w

/-- The motor's own checks of the arguments, passed. -/
def Accepted : MotorCall κ → Prop
  | .play milliseconds level gain _ => Motor.PlayAccepts milliseconds level gain
  | .compose taps _ => Motor.ComposeAccepts taps
  | .setAmplitude _ | .stop => True

end MotorCall

/-! ## The methods -/

namespace Service

variable {ι : Type u}

/-- A method that ends with `α`; the motor's completion functions capture a callback or none. -/
abbrev Method (ι : Type u) (α : Type) :=
  Program (MotorCall (Option ι)) (fun _ => Bool) Empty α

def kTapDurationMs : Int := 15

/-- `completion(callback)` is never an empty function: it looks at the callback when it runs. -/
def completion (callback : Option ι) : Option (Option ι) := some callback

/-- `motor_.call(…) ? Status::ok() : failure()` -/
def report (o : MotorCall (Option ι)) : Method ι Status :=
  .perform o fun ok => pure (if ok then .ok else .failure)

def off : Method ι Status := report .stop

def on (duration : Int) (callback : Option ι) : Method ι Status :=
  if duration ≤ 0 then pure .illegalArgument
  else report (.play duration (-1) 128 (completion callback))

/-- `level` and `baseGain` of an effect. -/
def effectLevel (strength : EffectStrength) : Effect → Option (Int × Int)
  | .CLICK =>
      some (if strength = .LIGHT then 0 else if strength = .STRONG then 2 else 1, 128)
  | .HEAVY_CLICK => some (2, 128)
  | .TICK => some (0, 128)
  | .TEXTURE_TICK => some (0, 64)
  | .other _ => none

/-- `perform(effect, strength, callback, duration)`, with the value left in `*duration`. -/
def perform (effect : Effect) (strength : EffectStrength) (callback : Option ι) :
    Method ι (Status × Int) :=
  if strength ≠ .LIGHT ∧ strength ≠ .MEDIUM ∧ strength ≠ .STRONG then pure (.illegalArgument, 0)
  else
    match effectLevel strength effect with
    | none => pure (.unsupported, 0)
    | some (level, baseGain) =>
        let scale : ℚ := if strength = .LIGHT then 1 / 2 else 1
        let gain := Motor.truncate (baseGain * scale)
        .perform (.play kTapDurationMs level gain (completion callback)) fun ok =>
          pure (if ok then (.ok, kTapDurationMs) else (.failure, 0))

def setAmplitude : CFloat → Method ι Status
  | .finite amplitude =>
      if amplitude ≤ 0 ∨ amplitude > 1 then pure .illegalArgument
      else report (.setAmplitude amplitude)
  | _ => pure .illegalArgument

/-- `level` and `baseGain` of a primitive. -/
def primitiveLevel : CompositePrimitive → Option (Int × Int)
  | .NOOP => some (0, 0)
  | .CLICK => some (1, 128)
  | .LIGHT_TICK => some (0, 96)
  | .LOW_TICK => some (0, 64)
  | .other _ => none

def gainOf (baseGain : Int) (scale : ℚ) : Int :=
  if scale = 0 ∨ baseGain = 0 then 0 else max 1 (Motor.truncate (baseGain * scale + 1 / 2))

/-- The tap of a primitive, once its delay and its scale are checked. -/
def primitiveTap (effect : CompositeEffect) (scale : ℚ) : Except Status Tap :=
  match primitiveLevel effect.primitive with
  | none => .error .unsupported
  | some (level, baseGain) =>
      .ok ⟨effect.delayMs, if baseGain = 0 then 0 else kTapDurationMs, level, gainOf baseGain scale⟩

/-- One round of the loop in `compose`. -/
def tapFor (effect : CompositeEffect) : Except Status Tap :=
  if effect.delayMs < 0 ∨ effect.delayMs > 1000 then .error .illegalArgument
  else
    match effect.scale with
    | .finite scale =>
        if scale < 0 ∨ scale > 1 then .error .illegalArgument else primitiveTap effect scale
    | _ => .error .illegalArgument

/-- The loop in `compose`: the first effect that is refused ends it. -/
def tapsFor : List CompositeEffect → Except Status (List Tap)
  | [] => .ok []
  | effect :: effects => do
      let tap ← tapFor effect
      let taps ← tapsFor effects
      return tap :: taps

def compose (effects : List CompositeEffect) (callback : Option ι) : Method ι Status :=
  if effects = [] ∨ effects.length > 64 then pure .illegalArgument
  else
    match tapsFor effects with
    | .error status => pure status
    | .ok taps => report (.compose taps (completion callback))

/-! ## What is let through -/

/-- What `compose` checks of an effect. -/
structure Playable (effect : CompositeEffect) : Prop where
  delay : 0 ≤ effect.delayMs ∧ effect.delayMs ≤ 1000
  scale : ∃ scale, effect.scale = .finite scale ∧ 0 ≤ scale ∧ scale ≤ 1
  primitive : ∀ value, effect.primitive ≠ .other value

/-- What `compose` checks of its effects. -/
structure Composable (effects : List CompositeEffect) : Prop where
  nonempty : effects ≠ []
  size : effects.length ≤ 64
  playable : ∀ effect ∈ effects, Playable effect

/-- The tap that is built for an effect. -/
structure Plays (effect : CompositeEffect) (tap : Tap) : Prop where
  built : tapFor effect = .ok tap
  delay : tap.delayMs = effect.delayMs
  gain : ∃ level baseGain, primitiveLevel effect.primitive = some (level, baseGain) ∧
    0 ≤ tap.gain ∧ tap.gain ≤ baseGain
  silent : tap.gain = 0 ↔ effect.primitive = .NOOP ∨ effect.scale = .finite 0

/-! ### Gains -/

section Gains

variable {baseGain : Int} {scale scale' : ℚ}

/-- Truncation is the floor where nothing is negative. -/
theorem truncate_eq_floor {q : ℚ} (h : 0 ≤ q) : Motor.truncate q = ⌊q⌋ := by
  rw [Motor.truncate, Rat.floor_def', Int.tdiv_eq_ediv_of_nonneg (Rat.num_nonneg.2 h)]

theorem scaled_nonneg (hbase : 0 ≤ baseGain) (hscale : 0 ≤ scale) :
    0 ≤ (baseGain : ℚ) * scale + 1 / 2 := by
  have hbase' : (0 : ℚ) ≤ baseGain := Int.cast_nonneg hbase
  positivity

theorem gainOf_eq_zero : gainOf baseGain scale = 0 ↔ scale = 0 ∨ baseGain = 0 := by
  rw [gainOf]
  by_cases hsilent : scale = 0 ∨ baseGain = 0
  · rw [if_pos hsilent]
    exact ⟨fun _ => hsilent, fun _ => rfl⟩
  · rw [if_neg hsilent]
    refine ⟨fun hzero => ?_, fun h => absurd h hsilent⟩
    omega

/-- A gain is rounded to the nearest, which is no more than the base gain, and is at least one. -/
theorem gainOf_bounds (hbase : 0 ≤ baseGain) (hscale : 0 ≤ scale) (hone : scale ≤ 1) :
    0 ≤ gainOf baseGain scale ∧ gainOf baseGain scale ≤ baseGain := by
  rw [gainOf]
  by_cases hsilent : scale = 0 ∨ baseGain = 0
  · rw [if_pos hsilent]
    exact ⟨le_rfl, hbase⟩
  · have hbase' : (0 : ℚ) ≤ baseGain := Int.cast_nonneg hbase
    have hproduct : (baseGain : ℚ) * scale ≤ baseGain := mul_le_of_le_one_right hbase' hone
    have hbelow : (baseGain : ℚ) * scale + 1 / 2 < ((baseGain + 1 : Int) : ℚ) := by
      push_cast
      linarith
    have hfloor := Int.floor_lt.2 hbelow
    rw [if_neg hsilent, truncate_eq_floor (scaled_nonneg hbase hscale)]
    omega

theorem gainOf_mono (hbase : 0 ≤ baseGain) (hscale : 0 ≤ scale) (hone : scale' ≤ 1)
    (hle : scale ≤ scale') : gainOf baseGain scale ≤ gainOf baseGain scale' := by
  by_cases hsilent : scale = 0 ∨ baseGain = 0
  · rw [gainOf_eq_zero.2 hsilent]
    exact (gainOf_bounds hbase (hscale.trans hle) hone).1
  · -- a scale above one that is not zero is not zero either
    have hsilent' : ¬ (scale' = 0 ∨ baseGain = 0) := by
      rintro (hzero | hbaseZero)
      · exact hsilent (Or.inl (le_antisymm (hle.trans hzero.le) hscale))
      · exact hsilent (Or.inr hbaseZero)
    have hbase' : (0 : ℚ) ≤ baseGain := Int.cast_nonneg hbase
    have hproduct : (baseGain : ℚ) * scale + 1 / 2 ≤ baseGain * scale' + 1 / 2 := by
      have hmul := mul_le_mul_of_nonneg_left hle hbase'
      linarith
    rw [gainOf, gainOf, if_neg hsilent, if_neg hsilent',
      truncate_eq_floor (scaled_nonneg hbase hscale),
      truncate_eq_floor (scaled_nonneg hbase (hscale.trans hle))]
    exact max_le_max le_rfl (Int.floor_mono hproduct)

end Gains

/-! ### Taps -/

section Taps

variable {effect effect' : CompositeEffect} {effects : List CompositeEffect} {tap tap' : Tap}
  {taps : List Tap} {status : Status}

/-- The levels and the base gains of the primitives are those that the motor accepts. -/
theorem primitiveLevel_some {primitive : CompositePrimitive} {level baseGain : Int}
    (h : primitiveLevel primitive = some (level, baseGain)) :
    (0 ≤ level ∧ level ≤ 2) ∧ (0 ≤ baseGain ∧ baseGain ≤ 128) ∧
      (baseGain = 0 ↔ primitive = .NOOP) := by
  cases primitive with
  | other value => cases h
  | _ =>
      cases h
      decide

/-- What the check of the scale refuses. -/
theorem not_playable (h : ∀ scale, effect.scale = .finite scale → ¬ (0 ≤ scale ∧ scale ≤ 1)) :
    ¬ Playable effect := by
  intro hplayable
  rcases hplayable.scale with ⟨scale, hfinite, hrange⟩
  exact h scale hfinite hrange

/-- An effect is turned into a tap, or refused. -/
theorem tapFor_cases (effect : CompositeEffect) :
    (∃ scale level baseGain, Playable effect ∧ effect.scale = .finite scale ∧ 0 ≤ scale ∧
        scale ≤ 1 ∧ primitiveLevel effect.primitive = some (level, baseGain) ∧
        tapFor effect = .ok
          ⟨effect.delayMs, if baseGain = 0 then 0 else kTapDurationMs, level,
            gainOf baseGain scale⟩) ∨
      (¬ Playable effect ∧ ∃ status, (status = .illegalArgument ∨ status = .unsupported) ∧
        tapFor effect = .error status) := by
  rw [tapFor]
  by_cases hdelay : effect.delayMs < 0 ∨ effect.delayMs > 1000
  · rw [if_pos hdelay]
    refine Or.inr ⟨fun h => ?_, .illegalArgument, Or.inl rfl, rfl⟩
    -- the checks in their order: the delay, the scale, and then the primitive
    have hchecked := h.delay
    omega
  · rw [if_neg hdelay]
    cases hscale : effect.scale with
    | nan =>
        refine Or.inr ⟨not_playable fun scale hfinite => ?_, .illegalArgument, Or.inl rfl, rfl⟩
        cases hscale.symm.trans hfinite
    | infinite negative =>
        refine Or.inr ⟨not_playable fun scale hfinite => ?_, .illegalArgument, Or.inl rfl, rfl⟩
        cases hscale.symm.trans hfinite
    | finite scale =>
        by_cases hrange : scale < 0 ∨ scale > 1
        · simp only [if_pos hrange]
          refine Or.inr ⟨not_playable fun scale' hfinite => ?_, .illegalArgument, Or.inl rfl, rfl⟩
          cases hscale.symm.trans hfinite
          rintro ⟨hlow, hhigh⟩
          rcases hrange with hneg | hbig
          · exact absurd hlow hneg.not_ge
          · exact absurd hhigh hbig.not_ge
        · simp only [if_neg hrange, primitiveTap]
          rw [not_or, not_lt, not_lt] at hrange
          cases hlevel : primitiveLevel effect.primitive with
          | none =>
              refine Or.inr ⟨fun h => ?_, .unsupported, Or.inr rfl, rfl⟩
              cases hprimitive : effect.primitive with
              | other value => exact h.primitive value hprimitive
              | _ =>
                  rw [hprimitive] at hlevel
                  cases hlevel
          | some levelAndGain =>
              rcases levelAndGain with ⟨level, baseGain⟩
              refine Or.inl ⟨scale, level, baseGain, ⟨?_, ?_, ?_⟩, rfl, hrange.1, hrange.2, rfl, rfl⟩
              · omega
              · exact ⟨scale, hscale, hrange.1, hrange.2⟩
              · intro value hother
                rw [hother] at hlevel
                cases hlevel

theorem Playable.plays (h : Playable effect) :
    ∃ tap, Plays effect tap ∧ Motor.TapAccepted tap := by
  rcases tapFor_cases effect with
    ⟨scale, level, baseGain, _, hscale, hlow, hhigh, hlevel, htap⟩ | ⟨hnot, _⟩
  · rcases primitiveLevel_some hlevel with ⟨⟨hlevelLow, hlevelHigh⟩, ⟨hbase, hmax⟩, hnoop⟩
    rcases gainOf_bounds hbase hlow hhigh with ⟨hgain, hgainMax⟩
    refine ⟨_, ⟨htap, rfl, ⟨level, baseGain, hlevel, hgain, hgainMax⟩, ?_⟩, ?_⟩
    · rw [gainOf_eq_zero, hnoop, hscale, CFloat.finite.injEq]
      exact or_comm
    · have hdelay := h.delay
      have hduration : 0 ≤ if baseGain = 0 then 0 else kTapDurationMs := by
        split_ifs <;> decide
      simp only [Motor.TapAccepted]
      omega
  · exact absurd h hnot

/-- The gain grows with the scale. -/
theorem Plays.gain_mono (h : Plays effect tap) (h' : Plays effect' tap')
    (hprimitive : effect.primitive = effect'.primitive) {scale scale' : ℚ}
    (hscale : effect.scale = .finite scale) (hscale' : effect'.scale = .finite scale')
    (hle : scale ≤ scale') : tap.gain ≤ tap'.gain := by
  have hbuilt := h.built
  have hbuilt' := h'.built
  rcases tapFor_cases effect with
    ⟨s, level, baseGain, _, hs, hlow, _, hlevel, htap⟩ | ⟨_, status, _, herror⟩
  · rcases tapFor_cases effect' with
      ⟨s', level', baseGain', _, hs', _, hhigh', hlevel', htap'⟩ | ⟨_, status, _, herror⟩
    · rw [hbuilt] at htap
      rw [hbuilt'] at htap'
      rw [hscale] at hs
      rw [hscale'] at hs'
      rw [hprimitive, hlevel'] at hlevel
      cases htap
      cases htap'
      cases hs
      cases hs'
      cases hlevel
      exact gainOf_mono (primitiveLevel_some hlevel').2.1.1 hlow hhigh' hle
    · rw [hbuilt'] at herror
      cases herror
  · rw [hbuilt] at herror
    cases herror

theorem tapsFor_ok (h : ∀ effect ∈ effects, Playable effect) :
    ∃ taps, tapsFor effects = .ok taps ∧ List.Forall₂ Plays effects taps ∧
      ∀ tap ∈ taps, Motor.TapAccepted tap := by
  induction effects with
  | nil => exact ⟨[], rfl, .nil, List.forall_mem_nil _⟩
  | cons effect effects ih =>
      rcases List.forall_mem_cons.1 h with ⟨hfirst, hrest⟩
      rcases hfirst.plays with ⟨tap, hplays, haccepted⟩
      rcases ih hrest with ⟨taps, htaps, hall, hallAccepted⟩
      refine ⟨tap :: taps, ?_, .cons hplays hall, List.forall_mem_cons.2 ⟨haccepted, hallAccepted⟩⟩
      rw [tapsFor, hplays.built, htaps]
      rfl

/-- An effect that is refused at any position ends the loop. -/
theorem tapsFor_error (h : ¬ ∀ effect ∈ effects, Playable effect) :
    ∃ status, (status = .illegalArgument ∨ status = .unsupported) ∧
      tapsFor effects = .error status := by
  induction effects with
  | nil => exact absurd (List.forall_mem_nil _) h
  | cons effect effects ih =>
      rw [tapsFor]
      rcases tapFor_cases effect with
        ⟨_, _, _, hplayable, _, _, _, _, htap⟩ | ⟨_, status, hstatus, herror⟩
      · have hrest : ¬ ∀ effect ∈ effects, Playable effect := fun hall =>
          h (List.forall_mem_cons.2 ⟨hplayable, hall⟩)
        rcases ih hrest with ⟨status, hstatus, herror⟩
        rw [htap, herror]
        exact ⟨status, hstatus, rfl⟩
      · rw [herror]
        exact ⟨status, hstatus, rfl⟩

end Taps

/-! ## The methods and the motor -/

section Calls

variable {κ : Type u} {σ : Type v} {w : Writer σ} {now : Int}

/-- A call that passes the motor's checks fails only by a write. -/
theorem step_failed {o : MotorCall κ} {m m' : Motor κ σ} (haccepted : o.Accepted)
    (hstep : o.step w now m = (false, m')) :
    ∃ writes, m'.log = m.log ++ writes ∧ ∃ x ∈ writes, x.ok = false := by
  cases o with
  | play milliseconds level gain complete =>
      rcases Motor.play_cases w m hstep with ⟨hnot, _⟩ | ⟨_, _, hfail, rfl⟩ | ⟨_, htrue, _⟩
      · exact absurd haccepted hnot
      · rcases Motor.playHardware_writes w m.toHardware level gain with ⟨ws, hlog, _, hfailed⟩
        exact ⟨ws, hlog, (hfailed hfail).1⟩
      · cases htrue
  | setAmplitude amplitude =>
      rcases Prod.ext_iff.1 hstep with ⟨hfail, rfl⟩
      have hlog := Hardware.write_log w m.toHardware .gain
        (toString (max 1 (Motor.truncate (amplitude * 128 + 1 / 2))))
      exact ⟨_, hlog, _, List.mem_singleton_self _, hfail⟩
  | compose taps complete =>
      rcases Motor.compose_cases w m hstep with ⟨hnot, _⟩ | ⟨_, _, hfail, rfl⟩ | ⟨_, htrue, _⟩
      · exact absurd haccepted hnot
      · rcases Motor.composeHardware_writes w m.toHardware (Motor.firstTap taps) with
          ⟨ws, hlog, _, hfailed⟩
        exact ⟨ws, hlog, (hfailed hfail).1⟩
      · cases htrue
  | stop =>
      rcases Prod.ext_iff.1 hstep with ⟨hfail, rfl⟩
      have hfail : (m.toHardware.stopHardware w).1 = false := hfail
      have hactive := Hardware.active_of_stopHardware_failed w m.toHardware hfail
      have hlog := Hardware.stopHardware_log w m.toHardware
      rw [if_pos hactive] at hlog
      exact ⟨_, hlog, _, List.mem_singleton_self _, hfail⟩

/-- A method that reports its call reports the failure of a write only. -/
theorem report_failure {o : MotorCall (Option ι)} {m m' : Motor (Option ι) σ}
    (haccepted : o.Accepted)
    (hrun : (report o).run (MotorCall.step w now) m = (.ok .failure, m')) :
    ∃ writes, m'.log = m.log ++ writes ∧ ∃ x ∈ writes, x.ok = false := by
  cases hstep : o.step w now m with
  | mk ok after =>
      have hreport : (report o).run (MotorCall.step w now) m =
          (.ok (if ok then .ok else .failure), after) := by
        simp only [report, Program.run, hstep]
        rfl
      rw [hreport] at hrun
      cases ok with
      | true => cases hrun
      | false =>
          cases hrun
          exact step_failed haccepted hstep

end Calls

theorem on_accepted (duration : Int) (callback : Option ι) :
    (on duration callback).Performs MotorCall.Accepted := by
  refine Program.Performs.ite (fun _ => trivial) fun hpositive => ⟨?_, fun _ => trivial⟩
  simp only [MotorCall.Accepted, Motor.PlayAccepts]
  omega

theorem effectLevel_some {strength : EffectStrength} {effect : Effect} {level baseGain : Int}
    (h : effectLevel strength effect = some (level, baseGain)) :
    (0 ≤ level ∧ level ≤ 2) ∧ (baseGain = 64 ∨ baseGain = 128) := by
  cases effect with
  | CLICK =>
      cases h
      split_ifs <;> decide
  | other value => cases h
  | _ =>
      cases h
      decide

theorem perform_accepted (effect : Effect) (strength : EffectStrength) (callback : Option ι) :
    (perform effect strength callback).Performs MotorCall.Accepted := by
  refine Program.Performs.ite (fun _ => trivial) fun _ => ?_
  cases hlevel : effectLevel strength effect with
  | none => trivial
  | some levelAndGain =>
      rcases levelAndGain with ⟨level, baseGain⟩
      rcases effectLevel_some hlevel with ⟨hrange, hbase⟩
      refine ⟨?_, fun _ => trivial⟩
      have hgain : ∀ base ∈ [(64 : Int), 128], ∀ scale ∈ [(1 / 2 : ℚ), 1],
          1 ≤ Motor.truncate (base * scale) ∧ Motor.truncate (base * scale) ≤ 128 := by
        decide +kernel
      have hscale : (if strength = .LIGHT then 1 / 2 else 1 : ℚ) ∈ [(1 / 2 : ℚ), 1] := by
        split_ifs <;> simp
      have hbounds := hgain baseGain (by simpa using hbase) _ hscale
      have hduration : 0 < kTapDurationMs := by decide
      simp only [MotorCall.Accepted, Motor.PlayAccepts]
      omega

/-! ## Compositions -/

section Compose

variable {σ : Type v} {effects : List CompositeEffect}

theorem compose_composable (h : Composable effects) (callback : Option ι) :
    ∃ taps, compose effects callback = report (.compose taps (completion callback)) ∧
      List.Forall₂ Plays effects taps ∧ Motor.ComposeAccepts taps := by
  rcases tapsFor_ok h.playable with ⟨taps, htaps, hplays, haccepted⟩
  have hsize : ¬ (effects = [] ∨ effects.length > 64) := by
    rintro (hnil | hlong)
    · exact h.nonempty hnil
    · exact absurd h.size hlong.not_ge
  have hlength := hplays.length_eq
  refine ⟨taps, ?_, hplays, ?_, haccepted⟩
  · rw [compose, if_neg hsize, htaps]
  · rintro (hnil | hlong)
    · rw [hnil, List.length_nil] at hlength
      exact h.nonempty (List.length_eq_zero_iff.1 hlength)
    · exact hsize (Or.inr (hlength ▸ hlong))

theorem compose_refused (h : ¬ Composable effects) (callback : Option ι) :
    ∃ status, (status = .illegalArgument ∨ status = .unsupported) ∧
      compose effects callback = pure status := by
  by_cases hsize : effects = [] ∨ effects.length > 64
  · rw [compose, if_pos hsize]
    exact ⟨.illegalArgument, Or.inl rfl, rfl⟩
  · have hnot : ¬ ∀ effect ∈ effects, Playable effect := fun hall =>
      h ⟨fun hnil => hsize (Or.inl hnil), Nat.not_lt.1 fun hlong => hsize (Or.inr hlong), hall⟩
    rcases tapsFor_error hnot with ⟨status, hstatus, herror⟩
    rw [compose, if_neg hsize, herror]
    exact ⟨status, hstatus, rfl⟩

theorem compose_accepted (effects : List CompositeEffect) (callback : Option ι) :
    (compose effects callback).Performs MotorCall.Accepted := by
  by_cases h : Composable effects
  · rcases compose_composable h callback with ⟨taps, hcompose, _, haccepted⟩
    rw [hcompose]
    exact ⟨haccepted, fun _ => trivial⟩
  · rcases compose_refused h callback with ⟨status, _, hrefused⟩
    rw [hrefused]
    trivial

/-- **Agreement.**  Effects that pass the checks of `compose` are turned into taps, one for each, that
the motor accepts, so that the call fails by a write only; any others are refused without a call.
The gains of the taps follow the scales. -/
theorem compose_agrees (w : Writer σ) (effects : List CompositeEffect) (callback : Option ι) :
    (Composable effects →
      ∃ taps, compose effects callback = report (.compose taps (completion callback)) ∧
        List.Forall₂ Plays effects taps ∧ Motor.ComposeAccepts taps ∧
        ∀ (now : Int) (m m' : Motor (Option ι) σ),
          (compose effects callback).run (MotorCall.step w now) m = (.ok .failure, m') →
            ∃ writes, m'.log = m.log ++ writes ∧ ∃ x ∈ writes, x.ok = false) ∧
    (¬ Composable effects →
      ∃ status, (status = .illegalArgument ∨ status = .unsupported) ∧
        compose effects callback = pure status) ∧
    ∀ (effect effect' : CompositeEffect) (tap tap' : Tap) (scale scale' : ℚ),
      Plays effect tap → Plays effect' tap' → effect.primitive = effect'.primitive →
        effect.scale = .finite scale → effect'.scale = .finite scale' → scale ≤ scale' →
          tap.gain ≤ tap'.gain := by
  refine ⟨fun h => ?_, fun h => compose_refused h callback,
    fun _ _ _ _ _ _ h h' hprimitive hscale hscale' hle => h.gain_mono h' hprimitive hscale hscale' hle⟩
  rcases compose_composable h callback with ⟨taps, hcompose, hplays, haccepted⟩
  refine ⟨taps, hcompose, hplays, haccepted, fun now m m' hrun => ?_⟩
  rw [hcompose] at hrun
  exact report_failure (o := .compose taps (completion callback)) haccepted hrun

/-- A click that is all but inaudible, and a pause. -/
def faintClick : List CompositeEffect :=
  [⟨0, .CLICK, .finite (1 / 1000)⟩, ⟨1000, .NOOP, .finite 1⟩]

theorem compose_agrees_faintClick :
    ∃ taps, compose faintClick (none : Option Unit) = report (.compose taps (some none)) ∧
      taps.map Tap.gain = [1, 0] ∧ Motor.ComposeAccepts taps := by
  have hplayable : Composable faintClick := by
    refine ⟨by decide, by decide, ?_⟩
    intro effect heffect
    rcases List.mem_pair.1 heffect with rfl | rfl
    · exact ⟨by decide, ⟨1 / 1000, rfl, by norm_num, by norm_num⟩, by simp⟩
    · exact ⟨by decide, ⟨1, rfl, by norm_num, by norm_num⟩, by simp⟩
  have hagrees := compose_agrees (fun (_ : Unit) _ _ => (true, ())) faintClick (none : Option Unit)
  rcases hagrees.1 hplayable with ⟨taps, hcompose, hplays, haccepted, _⟩
  refine ⟨taps, hcompose, ?_, haccepted⟩
  have hbuilt : faintClick.map tapFor = [.ok ⟨0, 15, 1, 1⟩, .ok ⟨1000, 0, 0, 0⟩] := by
    decide +kernel
  rcases List.cons_eq_cons.1 hbuilt with ⟨hclick, hrest⟩
  rcases List.cons_eq_cons.1 hrest with ⟨hpause, _⟩
  rcases hplays with _ | ⟨hfirst, _ | ⟨hsecond, _ | _⟩⟩
  cases hfirst.built.symm.trans hclick
  cases hsecond.built.symm.trans hpause
  rfl

end Compose

end Service

end Vibrator
end M2391Device
