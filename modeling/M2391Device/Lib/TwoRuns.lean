import M2391Device.Lib.Program
import Mathlib.Data.List.Forall2

/-!
# TwoRuns — two programs side by side

`Related` compares two programs without any state: they perform operations that may be asked in each
other's place, and as long as their answers are the same up to `same`, they go on related, to
related values.  Run on two systems that answer alike (`Simulates`), related programs do the same
(`Related.agree`).  Where two programs go on related only for some answers, `Agree.bind` puts a run
together from its parts.
-/

universe u v w x y

namespace Program

variable {Op : Type u} {Res : Op → Type v} {ε α β α' β' : Type w} {S : Type x} {T : Type y}

/-- Two results, one of them in place of the other. -/
inductive ResultsAlike (vals : α → α' → Prop) : Except ε α → Except ε α' → Prop where
  | ok {a : α} {a' : α'} : vals a a' → ResultsAlike vals (.ok a) (.ok a')
  | error (e : ε) : ResultsAlike vals (.error e) (.error e)

/-- For the same answers up to `same`, the same operations up to `ask`. -/
def Related (ask : Op → Op → Prop) (same : Answered Op Res → Answered Op Res → Prop)
    (vals : α → α' → Prop) : Program Op Res ε α → Program Op Res ε α' → Prop
  | .pure a, p => ∃ a', p = .pure a' ∧ vals a a'
  | .throw e, p => p = .throw e
  | .perform o next, p => ∃ o' next', p = .perform o' next' ∧ ask o o' ∧
      ∀ r r', same ⟨o, r⟩ ⟨o', r'⟩ → Related ask same vals (next r) (next' r')

/-- Two systems whose states `sim` relates answer alike, and stay related. -/
def Simulates (ask : Op → Op → Prop) (same : Answered Op Res → Answered Op Res → Prop)
    (step : (o : Op) → S → Res o × S) (step' : (o : Op) → T → Res o × T) (sim : S → T → Prop) :
    Prop :=
  ∀ o o' s t, ask o o' → sim s t →
    same ⟨o, (step o s).1⟩ ⟨o', (step' o' t).1⟩ ∧ sim (step o s).2 (step' o' t).2

/-- Two runs do the same. -/
structure Agree (same : Answered Op Res → Answered Op Res → Prop)
    (step : (o : Op) → S → Res o × S) (step' : (o : Op) → T → Res o × T) (sim : S → T → Prop)
    (vals : α → α' → Prop) (p : Program Op Res ε α) (q : Program Op Res ε α') (s : S) (t : T) :
    Prop where
  results : ResultsAlike vals (p.run step s).1 (q.run step' t).1
  states : sim (p.run step s).2 (q.run step' t).2
  traces : List.Forall₂ same (p.trace step s) (q.trace step' t)

variable {ask : Op → Op → Prop} {same : Answered Op Res → Answered Op Res → Prop}
  {vals : α → α' → Prop} {vals' : β → β' → Prop}
  {p : Program Op Res ε α} {q : Program Op Res ε α'}
  {f : α → Program Op Res ε β} {g : α' → Program Op Res ε β'}

namespace Related

theorem pure {a : α} {a' : α'} (h : vals a a') :
    Related ask same vals (Pure.pure a : Program Op Res ε α) (Pure.pure a') := ⟨a', rfl, h⟩

theorem bind (hp : Related ask same vals p q)
    (hf : ∀ a a', vals a a' → Related ask same vals' (f a) (g a')) :
    Related ask same vals' (p >>= f) (q >>= g) := by
  induction p generalizing q with
  | pure a =>
      rcases hp with ⟨a', rfl, ha⟩
      exact hf a a' ha
  | throw e =>
      have hq : q = .throw e := hp
      subst hq
      rfl
  | perform o next ih =>
      rcases hp with ⟨o', next', rfl, hask, hnext⟩
      exact ⟨o', _, rfl, hask, fun r r' hr => ih r (hnext r r' hr)⟩

theorem call {Res : Op → Type w} {same : Answered Op Res → Answered Op Res → Prop} {o o' : Op}
    {vals : Res o → Res o' → Prop} (hask : ask o o')
    (h : ∀ r r', same ⟨o, r⟩ ⟨o', r'⟩ → vals r r') :
    Related ask same vals (Program.call o : Program Op Res ε (Res o)) (Program.call o') :=
  ⟨o', _, rfl, hask, fun r r' hr => ⟨r', rfl, h r r' hr⟩⟩

theorem ite {c : Prop} [Decidable c] {p' : Program Op Res ε α} {q' : Program Op Res ε α'}
    (hp : c → Related ask same vals p q) (hq : ¬ c → Related ask same vals p' q') :
    Related ask same vals (if c then p else p') (if c then q else q') := by
  by_cases hc : c
  · simpa only [if_pos hc] using hp hc
  · simpa only [if_neg hc] using hq hc

/-- A program that cannot tell the answers of its operations apart is related to itself. -/
theorem of_performs {P : Op → Prop} {p : Program Op Res ε α} (hp : p.Performs P)
    (hask : ∀ o, P o → ask o o) (hsame : ∀ o, P o → ∀ r r', same ⟨o, r⟩ ⟨o, r'⟩ → r = r') :
    Related ask same Eq p p := by
  induction p with
  | pure a => exact ⟨a, rfl, rfl⟩
  | throw e => rfl
  | perform o next ih =>
      refine ⟨o, next, rfl, hask o hp.1, fun r r' hr => ?_⟩
      rw [← hsame o hp.1 r r' hr]
      exact ih r (hp.2 r)

theorem each {ι : Type*} {h : ι → Program Op Res ε PUnit} {l : List ι}
    (hh : ∀ i ∈ l, Related ask same Eq (h i) (h i)) :
    Related ask same Eq (Program.each h l) (Program.each h l) := by
  induction l with
  | nil => exact ⟨_, rfl, rfl⟩
  | cons i rest ih =>
      rcases List.forall_mem_cons.1 hh with ⟨hi, hrest⟩
      exact bind hi fun _ _ _ => ih hrest

variable {step : (o : Op) → S → Res o × S} {step' : (o : Op) → T → Res o × T} {sim : S → T → Prop}
  {s : S} {t : T}

theorem agree (hsim : Simulates ask same step step' sim) (hp : Related ask same vals p q)
    (hst : sim s t) : Agree same step step' sim vals p q s t := by
  induction p generalizing q s t with
  | pure a =>
      rcases hp with ⟨a', rfl, ha⟩
      exact ⟨.ok ha, hst, .nil⟩
  | throw e =>
      have hq : q = .throw e := hp
      subst hq
      exact ⟨.error e, hst, .nil⟩
  | perform o next ih =>
      rcases hp with ⟨o', next', rfl, hask, hnext⟩
      rcases hsim o o' s t hask hst with ⟨hsame, hst'⟩
      have hrest := ih _ (hnext _ _ hsame) hst'
      exact ⟨hrest.results, hrest.states, .cons hsame hrest.traces⟩

end Related

section Agree

variable {step : (o : Op) → S → Res o × S} {step' : (o : Op) → T → Res o × T} {sim : S → T → Prop}
  {s : S} {t : T}

theorem Agree.bind (hp : Agree same step step' sim vals p q s t)
    (hf : ∀ a a' s' t', p.run step s = (.ok a, s') → q.run step' t = (.ok a', t') → vals a a' →
      sim s' t' → Agree same step step' sim vals' (f a) (g a') s' t') :
    Agree same step step' sim vals' (p >>= f) (q >>= g) s t := by
  rcases hp with ⟨hresults, hstates, htraces⟩
  rcases hr : p.run step s with ⟨r, s'⟩
  rcases hr' : q.run step' t with ⟨r', t'⟩
  rw [hr, hr'] at hresults hstates
  cases hresults with
  | ok ha =>
      have hrest := hf _ _ _ _ hr hr' ha hstates
      refine ⟨?_, ?_, ?_⟩
      · rw [run_bind_ok hr, run_bind_ok hr']
        exact hrest.results
      · rw [run_bind_ok hr, run_bind_ok hr']
        exact hrest.states
      · rw [trace_bind_ok hr, trace_bind_ok hr']
        exact List.rel_append htraces hrest.traces
  | error e =>
      refine ⟨?_, ?_, ?_⟩
      · rw [run_bind_error hr, run_bind_error hr']
        exact .error e
      · rw [run_bind_error hr, run_bind_error hr']
        exact hstates
      · rw [trace_bind_error hr, trace_bind_error hr']
        exact htraces

end Agree

end Program
