import M2391Device.Lib.Program

/-!
# Contracts — programs whose operations are answered by a relation

An environment answers an operation in any of the ways that a relation allows, and moves its own state
with the answer.  A program `Meets` a contract when, however it is answered, an invariant holds in
every state that it passes through, and where it ends one of two postconditions does: one for a value,
one for an error.
-/

universe u v w

namespace Program

variable {Op : Type u} {Res : Op → Type v} {ε α β : Type w} {S : Type*}

/-- `answers o s r s'`: in the state `s` the operation may be answered by `r`, and `s'` is next. -/
def Meets (answers : (o : Op) → S → Res o → S → Prop) (I : S → Prop) (Q : α → S → Prop)
    (E : ε → S → Prop) : Program Op Res ε α → S → Prop
  | .pure a, s => I s ∧ Q a s
  | .throw e, s => I s ∧ E e s
  | .perform o next, s => I s ∧ ∀ r s', answers o s r s' → Meets answers I Q E (next r) s'

namespace Meets

variable {answers : (o : Op) → S → Res o → S → Prop} {I : S → Prop} {Q Q' : α → S → Prop}
  {R : β → S → Prop} {E E' : ε → S → Prop} {x y : Program Op Res ε α} {f : α → Program Op Res ε β}
  {s s' : S}

/-- The invariant holds where the program stands. -/
theorem now (h : x.Meets answers I Q E s) : I s := by
  cases x with
  | pure a => exact h.1
  | throw e => exact h.1
  | perform o next => exact h.1

/-- What is left of the program after an answer meets the contract as well. -/
theorem answered {o : Op} {next : Res o → Program Op Res ε α} {r : Res o}
    (h : (Program.perform o next).Meets answers I Q E s) (hr : answers o s r s') :
    (next r).Meets answers I Q E s' := h.2 r s' hr

/-- Sequencing: what the first part ends with is what the second one starts from. -/
theorem bind (h : x.Meets answers I (fun a t => (f a).Meets answers I R E t) E s) :
    (x >>= f).Meets answers I R E s := by
  induction x generalizing s with
  | pure a => exact h.2
  | throw e => exact h
  | perform o next ih => exact ⟨h.1, fun r s' hr => ih r (h.2 r s' hr)⟩

/-- The rule of consequence. -/
theorem mono (h : x.Meets answers I Q E s) (hQ : ∀ a t, I t → Q a t → Q' a t)
    (hE : ∀ e t, I t → E e t → E' e t) : x.Meets answers I Q' E' s := by
  induction x generalizing s with
  | pure a => exact ⟨h.1, hQ a s h.1 h.2⟩
  | throw e => exact ⟨h.1, hE e s h.1 h.2⟩
  | perform o next ih => exact ⟨h.1, fun r s' hr => ih r (h.2 r s' hr)⟩

/-- Sequencing by consequence: the second part starts from anything that the first one may end with. -/
theorem seq (h : x.Meets answers I Q E s)
    (hf : ∀ a t, I t → Q a t → (f a).Meets answers I R E t) : (x >>= f).Meets answers I R E s :=
  bind (h.mono hf fun _ _ _ he => he)

/-- The invariant is a postcondition as well. -/
theorem and_invariant (h : x.Meets answers I Q E s) : x.Meets answers I (fun a t => I t ∧ Q a t) E s :=
  h.mono (fun _ _ ht hQ => ⟨ht, hQ⟩) fun _ _ _ hE => hE

/-- A run whose steps answer as the relation allows ends as the contract says. -/
theorem run {step : (o : Op) → S → Res o × S} {a : α} (h : x.Meets answers I Q E s)
    (hstep : ∀ o t, answers o t (step o t).1 (step o t).2) (hrun : x.run step s = (.ok a, s')) :
    Q a s' := by
  induction x generalizing s with
  | pure b =>
      cases hrun
      exact h.2
  | throw e => cases hrun
  | perform o next ih => exact ih _ (h.answered (hstep o s)) hrun

theorem ite {c : Prop} [Decidable c] (hx : c → x.Meets answers I Q E s)
    (hy : ¬ c → y.Meets answers I Q E s) : (if c then x else y).Meets answers I Q E s := by
  by_cases hc : c
  · rw [if_pos hc]
    exact hx hc
  · rw [if_neg hc]
    exact hy hc

end Meets

/-- A program that performs only operations that keep the invariant, with what it returns whatever the
answers are. -/
theorem Performs.meets_returns {answers : (o : Op) → S → Res o → S → Prop} {I : S → Prop}
    {P : Op → Prop} {Q : α → Prop} {x : Program Op Res ε α} {s : S} (hx : x.Performs P)
    (hreturns : x.Returns Q) (hkeep : ∀ o s r s', P o → I s → answers o s r s' → I s') (hs : I s) :
    x.Meets answers I (fun a _ => Q a) (fun _ _ => True) s := by
  induction x generalizing s with
  | pure a => exact ⟨hs, hreturns⟩
  | throw e => exact ⟨hs, trivial⟩
  | perform o next ih =>
      exact ⟨hs, fun r s' hr => ih r (hx.2 r) (hreturns r) (hkeep o s r s' hx.1 hs hr)⟩

theorem Performs.meets {answers : (o : Op) → S → Res o → S → Prop} {I : S → Prop} {P : Op → Prop}
    {x : Program Op Res ε α} {s : S} (hx : x.Performs P)
    (hkeep : ∀ o s r s', P o → I s → answers o s r s' → I s') (hs : I s) :
    x.Meets answers I (fun _ _ => True) (fun _ _ => True) s :=
  hx.meets_returns Returns.any hkeep hs

end Program
