import Mathlib.Data.List.Induction

/-!
# Run — finite runs of a labelled transition relation

`Run step s h t` says that the events of the history `h`, oldest first, lead from `s` to `t`.
The relation grows at the *end* of the history, so that an invariant may speak about the whole
past (`Run.historyInvariant`), and it can be cut at any event (`Run.split`, `Run.atEvent`).
-/

namespace Transition

universe u v

variable {State : Type u} {Event : Type v} {step : State → Event → State → Prop}

inductive Run (step : State → Event → State → Prop) (s : State) : List Event → State → Prop where
  | nil : Run step s [] s
  | snoc {h : List Event} {t u : State} (e : Event) :
      Run step s h t → step t e u → Run step s (h ++ [e]) u

namespace Run

variable {s t u : State} {h h₁ h₂ : List Event} {e : Event}

theorem single (hstep : step s e t) : Run step s [e] t :=
  Run.snoc e Run.nil hstep

theorem trans (hrun : Run step s h₁ t) (hrest : Run step t h₂ u) : Run step s (h₁ ++ h₂) u := by
  induction hrest with
  | nil =>
      simpa using hrun
  | snoc e _ hstep ih =>
      rw [← List.append_assoc]
      exact Run.snoc e ih hstep

theorem cons (hstep : step s e t) (hrest : Run step t h u) : Run step s (e :: h) u := by
  simpa using (Run.single hstep).trans hrest

theorem nil_inv (hrun : Run step s [] t) : t = s := by
  generalize hnil : ([] : List Event) = h at hrun
  cases hrun with
  | nil => rfl
  | snoc e _ _ => simp at hnil

theorem snoc_inv (hrun : Run step s (h ++ [e]) u) : ∃ t, Run step s h t ∧ step t e u := by
  generalize hg : h ++ [e] = g at hrun
  cases hrun with
  | nil => simp at hg
  | snoc e' hpre hstep =>
      rcases List.append_inj' hg rfl with ⟨rfl, htail⟩
      have he : e = e' := by simpa using htail
      subst he
      exact ⟨_, hpre, hstep⟩

/-- A run over a concatenation passes through a state between the two parts. -/
theorem split (hrun : Run step s (h₁ ++ h₂) u) :
    ∃ t, Run step s h₁ t ∧ Run step t h₂ u := by
  -- the run grows at its end, so the second part is taken off from the right
  induction h₂ using List.reverseRecOn generalizing u with
  | nil =>
      exact ⟨u, by simpa using hrun, Run.nil⟩
  | append_singleton h₂ e ih =>
      rw [← List.append_assoc] at hrun
      rcases hrun.snoc_inv with ⟨v, hpre, hstep⟩
      rcases ih hpre with ⟨t, hleft, hright⟩
      exact ⟨t, hleft, Run.snoc e hright hstep⟩

theorem cons_inv (hrun : Run step s (e :: h) u) : ∃ t, step s e t ∧ Run step t h u := by
  have hrun' : Run step s ([e] ++ h) u := by simpa using hrun
  rcases hrun'.split with ⟨t, hhead, htail⟩
  have hhead' : Run step s ([] ++ [e]) t := by simpa using hhead
  rcases hhead'.snoc_inv with ⟨v, hnil, hstep⟩
  have hv : v = s := hnil.nil_inv
  subst hv
  exact ⟨t, hstep, htail⟩

/-- The step that produced a given event of the history. -/
theorem atEvent (hrun : Run step s (h₁ ++ e :: h₂) u) :
    ∃ t t', Run step s h₁ t ∧ step t e t' ∧ Run step t' h₂ u := by
  rcases hrun.split with ⟨t, hpre, hrest⟩
  rcases hrest.cons_inv with ⟨t', hstep, hpost⟩
  exact ⟨t, t', hpre, hstep, hpost⟩

theorem mono {step' : State → Event → State → Prop} (hsteps : ∀ t e u, step t e u → step' t e u)
    (hrun : Run step s h t) : Run step' s h t := by
  induction hrun with
  | nil => exact Run.nil
  | snoc e _ hstep ih => exact Run.snoc e ih (hsteps _ e _ hstep)

/-- What holds at the start and is kept by every step holds after every run. -/
theorem invariant (I : State → Prop) (hstart : I s)
    (hkeep : ∀ t e u, I t → step t e u → I u) (hrun : Run step s h u) : I u := by
  induction hrun with
  | nil => exact hstart
  | snoc e _ hstep ih => exact hkeep _ e _ ih hstep

/-- As `invariant`, for steps whose events all satisfy `P`. -/
theorem invariantOn (P : Event → Prop) (I : State → Prop) (hstart : I s)
    (hkeep : ∀ t e u, I t → P e → step t e u → I u) (hrun : Run step s h u)
    (hevents : ∀ e ∈ h, P e) : I u := by
  induction hrun with
  | nil => exact hstart
  | snoc e _ hstep ih =>
      have hpre : I _ := ih (fun x hx => hevents x (List.mem_append_left _ hx))
      exact hkeep _ e _ hpre (hevents e (by simp)) hstep

/-- An invariant that relates the state to everything that happened before it. -/
theorem historyInvariant (I : List Event → State → Prop) (hstart : I [] s)
    (hkeep : ∀ g t e u, Run step s g t → I g t → step t e u → I (g ++ [e]) u)
    (hrun : Run step s h u) : I h u := by
  induction hrun with
  | nil => exact hstart
  | snoc e hpre hstep ih => exact hkeep _ _ e _ hpre ih hstep

/-- An account of the past to which every step adds: what is accounted for at one time is the beginning of
what is accounted for later. -/
theorem account {G : Type*} (J : List Event → List G → State → Prop) (hstart : J [] [] s)
    (hkeep : ∀ h g t e u, J h g t → step t e u → ∃ g', J (h ++ [e]) (g ++ g') u)
    (hrun : Run step s h u) : ∃ g, J h g u ∧ ∀ h₁ h₂, h = h₁ ++ h₂ →
      ∃ g₁ t, g₁ <+: g ∧ Run step s h₁ t ∧ Run step t h₂ u ∧ J h₁ g₁ t := by
  induction hrun with
  | nil =>
      refine ⟨[], hstart, fun h₁ h₂ hnil => ?_⟩
      rcases List.append_eq_nil_iff.1 hnil.symm with ⟨rfl, rfl⟩
      exact ⟨[], s, List.prefix_rfl, Run.nil, Run.nil, hstart⟩
  | @snoc h t u e hpre hstep ih =>
      rcases ih with ⟨g, hg, hcuts⟩
      rcases hkeep h g t e u hg hstep with ⟨g', hg'⟩
      refine ⟨g ++ g', hg', fun h₁ h₂ hcut => ?_⟩
      -- a cut behind the step, or one of the run before it
      rcases List.eq_nil_or_concat h₂ with rfl | ⟨h₂, e', rfl⟩
      · rw [List.append_nil] at hcut
        exact ⟨g ++ g', u, List.prefix_rfl, hcut ▸ Run.snoc e hpre hstep, Run.nil, hcut ▸ hg'⟩
      · rw [List.concat_eq_append, ← List.append_assoc] at hcut
        rcases List.append_inj' hcut rfl with ⟨hearlier, hlast⟩
        cases hlast
        rcases hcuts h₁ h₂ hearlier with ⟨g₁, t₁, hbefore, hrun₁, hrun₂, hg₁⟩
        refine ⟨g₁, t₁, hbefore.trans (List.prefix_append g g'), hrun₁, ?_, hg₁⟩
        rw [List.concat_eq_append]
        exact Run.snoc e hrun₂ hstep

end Run

end Transition
