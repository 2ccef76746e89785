import Mathlib.Data.List.Basic

/-!
# Program — effectful programs as trees of operations

A `Program` performs operations one after the other, each chosen by the answers to those before it,
and ends with a value or an error.  What an operation does is left to a `step` function on a state,
so the same program can be run (`run`), watched (`trace`), or looked at without any state at all
(`Performs`: whatever the answers are, it performs only operations of a kind; `Returns`: it ends with
values of a kind; `StopsOn`: answers of a kind end it).
-/

universe u v w

/-- A program over operations `Op` with answers `Res`. -/
inductive Program (Op : Type u) (Res : Op → Type v) (ε α : Type w) : Type (max u v w)
  | pure (a : α)
  | throw (e : ε)
  | perform (o : Op) (next : Res o → Program Op Res ε α)

namespace Program

variable {Op : Type u} {Res : Op → Type v} {ε α β : Type w}

protected def bind (x : Program Op Res ε α) (f : α → Program Op Res ε β) : Program Op Res ε β :=
  match x with
  | .pure a => f a
  | .throw e => .throw e
  | .perform o next => .perform o fun r => (next r).bind f

instance : Monad (Program Op Res ε) where
  pure := .pure
  bind := Program.bind

/-- The program that performs one operation and ends with its answer. -/
def call {Res : Op → Type w} (o : Op) : Program Op Res ε (Res o) := .perform o .pure

theorem bind_bind {γ : Type w} (x : Program Op Res ε α) (f : α → Program Op Res ε β)
    (g : β → Program Op Res ε γ) : x >>= f >>= g = x >>= fun a => f a >>= g := by
  induction x with
  | pure a => rfl
  | throw e => rfl
  | perform o next ih => exact congrArg (Program.perform o) (funext ih)

theorem bind_pure (x : Program Op Res ε α) : (x >>= fun a => .pure a) = x := by
  induction x with
  | pure a => rfl
  | throw e => rfl
  | perform o next ih => exact congrArg (Program.perform o) (funext ih)

/-- `f` on each element, from the first to the last. -/
def each {ι : Type*} (f : ι → Program Op Res ε PUnit) : List ι → Program Op Res ε PUnit
  | [] => .pure .unit
  | i :: rest => (f i).bind fun _ => each f rest

section Interpret

variable {Op' : Type u} {Res' : Op' → Type v} {ResW : Op → Type w} {ε' : Type w}

/-- Each operation is carried out by a program over other operations. -/
def interpret (handle : (o : Op) → Program Op' Res' ε' (ResW o)) (fail : ε → ε') :
    Program Op ResW ε α → Program Op' Res' ε' α
  | .pure a => .pure a
  | .throw e => .throw (fail e)
  | .perform o next => handle o >>= fun r => interpret handle fail (next r)

variable {handle : (o : Op) → Program Op' Res' ε' (ResW o)} {fail : ε → ε'}

theorem interpret_bind (x : Program Op ResW ε α) (f : α → Program Op ResW ε β) :
    interpret handle fail (x >>= f) = interpret handle fail x >>= fun a => interpret handle fail (f a) := by
  induction x with
  | pure a => rfl
  | throw e => rfl
  | perform o next ih =>
      calc
        interpret handle fail (.perform o next >>= f) =
            handle o >>= fun r => interpret handle fail (next r >>= f) := rfl
        _ = handle o >>= fun r => interpret handle fail (next r) >>= fun a => interpret handle fail (f a) :=
            congrArg (handle o >>= ·) (funext ih)
        _ = interpret handle fail (.perform o next) >>= fun a => interpret handle fail (f a) :=
            Eq.symm (bind_bind _ _ _)

theorem interpret_call (o : Op) : interpret handle fail (call o : Program Op ResW ε (ResW o)) = handle o :=
  bind_pure _

end Interpret

/-! ## Operations without a state -/

/-- Whatever the answers are, every operation that is performed satisfies `P`. -/
def Performs (P : Op → Prop) : Program Op Res ε α → Prop
  | .pure _ => True
  | .throw _ => True
  | .perform o next => P o ∧ ∀ r, (next r).Performs P

namespace Performs

variable {P Q : Op → Prop} {x : Program Op Res ε α} {f : α → Program Op Res ε β}

@[simp] theorem pure (a : α) : Performs P (Pure.pure a : Program Op Res ε α) := trivial

@[simp] theorem throw (e : ε) : Performs P (Program.throw e : Program Op Res ε α) := trivial

@[simp] theorem call_iff {Res : Op → Type w} {o : Op} :
    Performs P (call o : Program Op Res ε (Res o)) ↔ P o := by
  constructor
  · intro h
    exact h.1
  · intro ho
    exact ⟨ho, fun _ => trivial⟩

theorem bind (hx : x.Performs P) (hf : ∀ a, (f a).Performs P) : (x >>= f).Performs P := by
  induction x with
  | pure a => exact hf a
  | throw e => exact trivial
  | perform o next ih => exact ⟨hx.1, fun r => ih r (hx.2 r)⟩

/-- The operations of an interpreted program are those of its handlers. -/
theorem interpret {Op' : Type u} {Res' : Op' → Type v} {ResW : Op → Type w} {ε' : Type w}
    {handle : (o : Op) → Program Op' Res' ε' (ResW o)} {fail : ε → ε'} {P' : Op' → Prop}
    {x : Program Op ResW ε α} (hx : x.Performs P) (hhandle : ∀ o, P o → (handle o).Performs P') :
    (x.interpret handle fail).Performs P' := by
  induction x with
  | pure a => exact trivial
  | throw e => exact trivial
  | perform o next ih => exact bind (hhandle o hx.1) fun r => ih r (hx.2 r)

theorem ite {c : Prop} [Decidable c] {y : Program Op Res ε α} (hx : c → x.Performs P)
    (hy : ¬ c → y.Performs P) : (if c then x else y).Performs P := by
  by_cases hc : c
  · rw [if_pos hc]
    exact hx hc
  · rw [if_neg hc]
    exact hy hc

theorem mono (hPQ : ∀ o, P o → Q o) (hx : x.Performs P) : x.Performs Q := by
  induction x with
  | pure a => exact trivial
  | throw e => exact trivial
  | perform o next ih => exact ⟨hPQ o hx.1, fun r => ih r (hx.2 r)⟩

theorem any : x.Performs fun _ => True := by
  induction x with
  | pure a => exact trivial
  | throw e => exact trivial
  | perform o next ih => exact ⟨trivial, ih⟩

theorem each {ι : Type*} {g : ι → Program Op Res ε PUnit} {l : List ι}
    (hg : ∀ i ∈ l, (g i).Performs P) : (Program.each g l).Performs P := by
  induction l with
  | nil => exact trivial
  | cons i rest ih =>
      rcases List.forall_mem_cons.1 hg with ⟨hi, hrest⟩
      exact bind hi fun _ => ih hrest

end Performs

/-- Whatever the answers are, a value it ends with satisfies `Q`. -/
def Returns (Q : α → Prop) : Program Op Res ε α → Prop
  | .pure a => Q a
  | .throw _ => True
  | .perform _ next => ∀ r, (next r).Returns Q

namespace Returns

variable {Q : α → Prop} {R : β → Prop} {x y : Program Op Res ε α} {f : α → Program Op Res ε β}

theorem bind (hx : x.Returns Q) (hf : ∀ a, Q a → (f a).Returns R) : (x >>= f).Returns R := by
  induction x with
  | pure a => exact hf a hx
  | throw e => exact trivial
  | perform o next ih => exact fun r => ih r (hx r)

theorem any : x.Returns fun _ => True := by
  induction x with
  | pure a => exact trivial
  | throw e => exact trivial
  | perform o next ih => exact ih

theorem ite {c : Prop} [Decidable c] (hx : c → x.Returns Q) (hy : ¬ c → y.Returns Q) :
    (if c then x else y).Returns Q := by
  by_cases hc : c
  · simpa only [if_pos hc] using hx hc
  · simpa only [if_neg hc] using hy hc

end Returns

/-- A `bad` answer ends the program there with a value of `F`, and it ends with such a value for no
other reason. -/
def StopsOn (bad : (o : Op) → Res o → Prop) (F : α → Prop) : Program Op Res ε α → Prop
  | .pure a => ¬ F a
  | .throw _ => True
  | .perform o next =>
      ∀ r, (bad o r → ∃ a, next r = .pure a ∧ F a) ∧ (¬ bad o r → (next r).StopsOn bad F)

namespace StopsOn

variable {bad : (o : Op) → Res o → Prop} {F : α → Prop} {G : β → Prop} {x y : Program Op Res ε α}
  {f : α → Program Op Res ε β}

/-- One operation whose answer decides about the value. -/
theorem perform {o : Op} {next : Res o → Program Op Res ε α}
    (h : ∀ r, ∃ a, next r = .pure a ∧ (bad o r ↔ F a)) : (Program.perform o next).StopsOn bad F := by
  intro r
  rcases h r with ⟨a, hnext, ha⟩
  rw [hnext]
  exact ⟨fun hbad => ⟨a, rfl, ha.1 hbad⟩, fun hgood hF => hgood (ha.2 hF)⟩

theorem bind (hx : x.StopsOn bad F) (hstop : ∀ a, F a → ∃ b, f a = .pure b ∧ G b)
    (hf : ∀ a, ¬ F a → (f a).StopsOn bad G) : (x >>= f).StopsOn bad G := by
  induction x with
  | pure a => exact hf a hx
  | throw e => exact trivial
  | perform o next ih =>
      refine fun r => ⟨fun hbad => ?_, fun hgood => ih r ((hx r).2 hgood)⟩
      rcases (hx r).1 hbad with ⟨a, hnext, ha⟩
      rcases hstop a ha with ⟨b, hb, hG⟩
      refine ⟨b, ?_, hG⟩
      calc
        (next r).bind f = (Program.pure a : Program Op Res ε α).bind f := by rw [hnext]
        _ = f a := rfl
        _ = .pure b := hb

/-- A first part that no answer stops. -/
theorem bind_never (hx : x.StopsOn bad fun _ => False) (hf : ∀ a, (f a).StopsOn bad G) :
    (x >>= f).StopsOn bad G :=
  hx.bind (fun _ h => h.elim) fun a _ => hf a

theorem ite {c : Prop} [Decidable c] (hx : c → x.StopsOn bad F) (hy : ¬ c → y.StopsOn bad F) :
    (if c then x else y).StopsOn bad F := by
  by_cases hc : c
  · simpa only [if_pos hc] using hx hc
  · simpa only [if_neg hc] using hy hc

end StopsOn

/-- A program whose answers are never `bad` is not stopped by one. -/
theorem Performs.stopsOn {bad : (o : Op) → Res o → Prop} {P : Op → Prop} {x : Program Op Res ε α}
    (hx : x.Performs P) (hP : ∀ o, P o → ∀ r, ¬ bad o r) : x.StopsOn bad fun _ => False := by
  induction x with
  | pure a => exact id
  | throw e => exact trivial
  | perform o next ih => exact fun r => ⟨fun hbad => absurd hbad (hP o hx.1 r), fun _ => ih r (hx.2 r)⟩

/-- For some answers it ends with `a`. -/
def CanReturn (a : α) : Program Op Res ε α → Prop
  | .pure b => b = a
  | .throw _ => False
  | .perform _ next => ∃ r, (next r).CanReturn a

/-! ## Running -/

section Run

variable {S : Type*} (step : (o : Op) → S → Res o × S)

/-- An operation with its answer. -/
abbrev Answered (Op : Type u) (Res : Op → Type v) := (o : Op) × Res o

def run : Program Op Res ε α → S → Except ε α × S
  | .pure a, s => (.ok a, s)
  | .throw e, s => (.error e, s)
  | .perform o next, s => run (next (step o s).1) (step o s).2

/-- The operations that were performed, with their answers, oldest first. -/
def trace : Program Op Res ε α → S → List (Answered Op Res)
  | .pure _, _ => []
  | .throw _, _ => []
  | .perform o next, s => ⟨o, (step o s).1⟩ :: trace (next (step o s).1) (step o s).2

variable {step} {x : Program Op Res ε α} {f : α → Program Op Res ε β} {s s' : S}

@[simp] theorem run_pure (a : α) : (Pure.pure a : Program Op Res ε α).run step s = (.ok a, s) := rfl

@[simp] theorem run_throw (e : ε) :
    (Program.throw e : Program Op Res ε α).run step s = (.error e, s) := rfl

@[simp] theorem trace_pure (a : α) : (Pure.pure a : Program Op Res ε α).trace step s = [] := rfl

@[simp] theorem trace_throw (e : ε) :
    (Program.throw e : Program Op Res ε α).trace step s = [] := rfl

@[simp] theorem run_call {Res : Op → Type w} {step : (o : Op) → S → Res o × S} (o : Op) :
    (call o : Program Op Res ε (Res o)).run step s = (.ok (step o s).1, (step o s).2) := rfl

@[simp] theorem trace_call {Res : Op → Type w} {step : (o : Op) → S → Res o × S} (o : Op) :
    (call o : Program Op Res ε (Res o)).trace step s = [⟨o, (step o s).1⟩] := rfl

theorem Returns.run {Q : α → Prop} {a : α} (hx : x.Returns Q) (hrun : x.run step s = (.ok a, s')) :
    Q a := by
  induction x generalizing s with
  | pure b =>
      cases hrun
      exact hx
  | throw e => cases hrun
  | perform o next ih => exact ih _ (hx _) hrun

theorem run_bind_ok {a : α} (hx : x.run step s = (.ok a, s')) :
    (x >>= f).run step s = (f a).run step s' := by
  induction x generalizing s with
  | pure b =>
      cases hx
      rfl
  | throw e => cases hx
  | perform o next ih => exact ih _ hx

theorem run_bind_error {e : ε} (hx : x.run step s = (.error e, s')) :
    (x >>= f).run step s = (.error e, s') := by
  induction x generalizing s with
  | pure b => cases hx
  | throw e' =>
      cases hx
      rfl
  | perform o next ih => exact ih _ hx

/-- A program that ends well passes through a state between its two parts. -/
theorem run_bind_ok_inv {b : β} (h : (x >>= f).run step s = (.ok b, s')) :
    ∃ a t, x.run step s = (.ok a, t) ∧ (f a).run step t = (.ok b, s') := by
  induction x generalizing s with
  | pure a => exact ⟨a, s, rfl, h⟩
  | throw e => cases h
  | perform o next ih => exact ih _ h

theorem trace_bind_ok {a : α} (hx : x.run step s = (.ok a, s')) :
    (x >>= f).trace step s = x.trace step s ++ (f a).trace step s' := by
  induction x generalizing s with
  | pure b =>
      cases hx
      rfl
  | throw e => cases hx
  | perform o next ih => exact congrArg (_ :: ·) (ih _ hx)

theorem trace_bind_error {e : ε} (hx : x.run step s = (.error e, s')) :
    (x >>= f).trace step s = x.trace step s := by
  induction x generalizing s with
  | pure b => cases hx
  | throw e' => rfl
  | perform o next ih => exact congrArg (_ :: ·) (ih _ hx)

theorem Performs.trace {P : Op → Prop} (hx : x.Performs P) :
    ∀ o ∈ x.trace step s, P o.1 := by
  induction x generalizing s with
  | pure a => simp [Program.trace]
  | throw e => simp [Program.trace]
  | perform o next ih => exact List.forall_mem_cons.2 ⟨hx.1, ih _ (hx.2 _)⟩

/-- There was a bad answer on the way exactly if it is what the program ended with. -/
theorem StopsOn.trace_iff {bad : (o : Op) → Res o → Prop} {F : α → Prop} (hx : x.StopsOn bad F) :
    (∃ o ∈ x.trace step s, bad o.1 o.2) ↔ ∃ a t, x.run step s = (.ok a, t) ∧ F a := by
  induction x generalizing s with
  | pure a =>
      constructor
      · rintro ⟨o, ho, _⟩
        cases ho
      · rintro ⟨_, _, heq, hF⟩
        cases heq
        exact absurd hF hx
  | throw e =>
      constructor
      · rintro ⟨o, ho, _⟩
        cases ho
      · rintro ⟨_, _, heq, _⟩
        cases heq
  | perform o next ih =>
      by_cases hbad : bad o (step o s).1
      · rcases (hx _).1 hbad with ⟨a, hnext, hF⟩
        refine ⟨fun _ => ⟨a, (step o s).2, ?_, hF⟩, fun _ => ⟨_, List.mem_cons_self, hbad⟩⟩
        rw [Program.run, hnext]
        rfl
      · refine Iff.trans ?_ (ih _ ((hx _).2 hbad))
        constructor
        · rintro ⟨o', ho', hbad'⟩
          rcases List.mem_cons.1 ho' with rfl | hrest
          · exact absurd hbad' hbad
          · exact ⟨o', hrest, hbad'⟩
        · rintro ⟨o', hrest, hbad'⟩
          exact ⟨o', List.mem_cons_of_mem _ hrest, hbad'⟩

/-- An answer in a trace is one that `step` gives. -/
theorem trace_answered {o : Answered Op Res} (ho : o ∈ x.trace step s) :
    ∃ t, o.2 = (step o.1 t).1 := by
  induction x generalizing s with
  | pure a => cases ho
  | throw e => cases ho
  | perform o' next ih =>
      rcases List.mem_cons.1 ho with rfl | hrest
      · exact ⟨s, rfl⟩
      · exact ih _ hrest

/-- What the operations of a program keep, the program keeps. -/
theorem Performs.invariant {P : Op → Prop} (I : S → Prop)
    (hkeep : ∀ o s, P o → I s → I (step o s).2) (hx : x.Performs P) (hs : I s) :
    I (x.run step s).2 := by
  induction x generalizing s with
  | pure a => exact hs
  | throw e => exact hs
  | perform o next ih => exact ih _ (hx.2 _) (hkeep o s hx.1 hs)

/-! ## The states on the way -/

/-- `I` holds in every state that a program passes through, from the first to the last. -/
def Always (step : (o : Op) → S → Res o × S) (I : S → Prop) : Program Op Res ε α → S → Prop
  | .pure _, s => I s
  | .throw _, s => I s
  | .perform o next, s => I s ∧ Always step I (next (step o s).1) (step o s).2

theorem Always.last {I : S → Prop} (hx : x.Always step I s) : I (x.run step s).2 := by
  induction x generalizing s with
  | pure a => exact hx
  | throw e => exact hx
  | perform o next ih => exact ih _ hx.2

theorem Always.mono {I J : S → Prop} (hIJ : ∀ t, I t → J t) (hx : x.Always step I s) :
    x.Always step J s := by
  induction x generalizing s with
  | pure a => exact hIJ s hx
  | throw e => exact hIJ s hx
  | perform o next ih => exact ⟨hIJ s hx.1, ih _ hx.2⟩

theorem Always.bind {I : S → Prop} (hx : x.Always step I s)
    (hf : ∀ a s', x.run step s = (.ok a, s') → (f a).Always step I s') :
    (x >>= f).Always step I s := by
  induction x generalizing s with
  | pure a => exact hf a s rfl
  | throw e => exact hx
  | perform o next ih => exact ⟨hx.1, ih _ hx.2 hf⟩

/-- What the operations of a program keep holds all the way. -/
theorem Performs.always {P : Op → Prop} (I : S → Prop)
    (hkeep : ∀ o s, P o → I s → I (step o s).2) (hx : x.Performs P) (hs : I s) :
    x.Always step I s := by
  induction x generalizing s with
  | pure a => exact hs
  | throw e => exact hs
  | perform o next ih => exact ⟨hs, ih _ (hx.2 _) (hkeep o s hx.1 hs)⟩

end Run

end Program
