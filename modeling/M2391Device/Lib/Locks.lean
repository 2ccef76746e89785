import M2391Device.Lib.Contracts
import M2391Device.Lib.Run
import Mathlib.Data.Set.Insert
import Mathlib.Logic.Relation
import Mathlib.Order.WellFounded

/-!
# Locks — threads that share a state under locks

Each thread runs a program whose operations act on a shared state, and takes and releases locks in
between.  Threads are interleaved at every instruction, and any thread that has nothing left to do may
start another program of its own.

A program `Obeys` a discipline when it takes locks only downwards in a given order, performs only the
operations that are allowed with the locks it holds, and leaves alone what the other locks protect.
While it holds a lock it may rely on what the lock protects, so the contract of a program is a
statement about the state as well.  If every program obeys the discipline then no interleaving of
them breaks it (`Sound.step`), and none gets stuck (`Sound.progress`).
-/

universe u v w x y z

namespace Locks

/-! ## Threads -/

/-- What a thread does next. -/
inductive Instr (O : Type u) (L : Type v) (C : Type w)
  | op (o : O)
  | lock (l : L)
  | tryLock (l : L)
  | unlock (l : L)
  /-- A wait for a condition that others bring about under the lock, with a limit on its time.  The
  answer is whether the condition held when the lock was taken again. -/
  | await (l : L) (c : C)
  /-- The end of such a wait, without the lock. -/
  | retake (l : L) (c : C)

section Threads

variable {O : Type u} {L : Type v} {C : Type w} {Res : O → Type} {ε α β : Type}

abbrev Answer (Res : O → Type) : Instr O L C → Type
  | .op o => Res o
  | .lock _ => Unit
  | .tryLock _ => Bool
  | .unlock _ => Unit
  | .await _ _ => Bool
  | .retake _ _ => Bool

abbrev Thread (Res : O → Type) (L : Type v) (C : Type w) (ε α : Type) :=
  Program (Instr O L C) (Answer Res) ε α

/-- A program that takes no locks. -/
def lift : Program O Res ε α → Thread Res L C ε α
  | .pure a => .pure a
  | .throw e => .throw e
  | .perform o next => .perform (.op o) fun r => lift (next r)

/-- `std::scoped_lock` around a block. -/
def withLock (l : L) (p : Thread Res L C ε α) : Thread Res L C ε α :=
  .perform (.lock l) fun _ => p >>= fun a => .perform (.unlock l) fun _ => .pure a

/-- A thread alone: the locks are free, a condition is never brought about, and the outcome of
`tryLock` is an operation of the program. -/
def erase (tried : L → Program O Res ε Bool) : Thread Res L C ε α → Program O Res ε α
  | .pure a => .pure a
  | .throw e => .throw e
  | .perform (.op o) next => .perform o fun r => erase tried (next r)
  | .perform (.lock _) next => erase tried (next ())
  | .perform (.tryLock l) next => tried l >>= fun r => erase tried (next r)
  | .perform (.unlock _) next => erase tried (next ())
  | .perform (.await _ _) next => erase tried (next false)
  | .perform (.retake _ _) next => erase tried (next false)

theorem withLock_bind (l : L) (p : Thread Res L C ε α) (f : α → Thread Res L C ε β) :
    withLock l p >>= f =
      .perform (.lock l) fun _ => p >>= fun a => .perform (.unlock l) fun _ => f a := by
  calc
    withLock l p >>= f = .perform (.lock l) fun _ =>
        (p >>= fun a => .perform (.unlock l) fun _ => .pure a) >>= f := rfl
    _ = .perform (.lock l) fun _ => p >>= fun a => .perform (.unlock l) fun _ => f a := by
        rw [Program.bind_bind]
        rfl

theorem lift_bind (x : Program O Res ε α) (f : α → Program O Res ε β) :
    (lift (x >>= f) : Thread Res L C ε β) = lift x >>= fun a => lift (f a) := by
  induction x with
  | pure a => rfl
  | throw e => rfl
  | perform o next ih => exact congrArg (Program.perform (Instr.op o)) (funext ih)

variable {tried : L → Program O Res ε Bool}

@[simp] theorem erase_lift (x : Program O Res ε α) :
    erase tried (lift x : Thread Res L C ε α) = x := by
  induction x with
  | pure a => rfl
  | throw e => rfl
  | perform o next ih => exact congrArg (Program.perform o) (funext ih)

@[simp] theorem erase_bind (p : Thread Res L C ε α) (f : α → Thread Res L C ε β) :
    erase tried (p >>= f) = erase tried p >>= fun a => erase tried (f a) := by
  induction p with
  | pure a => rfl
  | throw e => rfl
  | perform o next ih =>
      cases o with
      | op o => exact congrArg (Program.perform o) (funext ih)
      | lock l => exact ih ()
      | tryLock l =>
          exact Eq.trans (congrArg (tried l >>= ·) (funext ih)) (Eq.symm (Program.bind_bind _ _ _))
      | unlock l => exact ih ()
      | await l c => exact ih false
      | retake l c => exact ih false

@[simp] theorem erase_withLock (l : L) (p : Thread Res L C ε α) :
    erase tried (withLock l p) = erase tried p :=
  Eq.trans (erase_bind p _) (Program.bind_pure _)

end Threads

/-! ## Interleavings -/

/-- What the operations and conditions mean on the shared state. -/
structure Machine (O : Type u) (Res : O → Type) (C : Type w) (S : Type x) where
  step : (o : O) → S → Res o × S
  holds : C → S → Bool

structure State (Res : O → Type) (L : Type v) (C : Type w) (ε : Type) (S : Type x) (ι : Type y) where
  shared : S
  owner : L → Option ι
  code : ι → Thread Res L C ε Unit

inductive Event (Res : O → Type) (L : Type v) (C : Type w) (ε : Type) (ι : Type y)
  /-- A thread begins a program. -/
  | start (i : ι) (p : Thread Res L C ε Unit)
  /-- A thread is through with an instruction. -/
  | act (i : ι) (a : Program.Answered (Instr O L C) (Answer Res))
  /-- Everything outside the threads. -/
  | environment

section Interleavings

variable {O : Type u} {L : Type v} {C : Type w} {Res : O → Type} {ε : Type} {S : Type x} {ι : Type y}
  [DecidableEq L] [DecidableEq ι]

namespace State

/-- Nobody does anything. -/
def idle (s : S) : State Res L C ε S ι where
  shared := s
  owner := fun _ => none
  code := fun _ => .pure ()

/-- The thread `i` goes on with `p`. -/
def goto (s : State Res L C ε S ι) (i : ι) (p : Thread Res L C ε Unit) : State Res L C ε S ι :=
  { s with code := Function.update s.code i p }

def setOwner (s : State Res L C ε S ι) (l : L) (i : Option ι) : State Res L C ε S ι :=
  { s with owner := Function.update s.owner l i }

def held (s : State Res L C ε S ι) (i : ι) : Set L := {l | s.owner l = some i}

end State

/-- Which programs a thread may start, and what the environment may do. -/
inductive Step (m : Machine O Res C S) (starts : ι → Thread Res L C ε Unit → Prop)
    (env : S → S → Prop) :
    State Res L C ε S ι → Event Res L C ε ι → State Res L C ε S ι → Prop where
  | start {s : State Res L C ε S ι} {i : ι} {p : Thread Res L C ε Unit} :
      s.code i = .pure () → starts i p → Step m starts env s (.start i p) (s.goto i p)
  | op {s : State Res L C ε S ι} {i : ι} {o : O} {next : Res o → Thread Res L C ε Unit} :
      s.code i = .perform (.op o) next →
      Step m starts env s (.act i ⟨.op o, (m.step o s.shared).1⟩)
        ({ s with shared := (m.step o s.shared).2 }.goto i (next (m.step o s.shared).1))
  | lock {s : State Res L C ε S ι} {i : ι} {l : L} {next : Unit → Thread Res L C ε Unit} :
      s.code i = .perform (.lock l) next → s.owner l = none →
      Step m starts env s (.act i ⟨.lock l, ()⟩) ((s.setOwner l (some i)).goto i (next ()))
  | tryLock {s : State Res L C ε S ι} {i : ι} {l : L} {next : Bool → Thread Res L C ε Unit} :
      s.code i = .perform (.tryLock l) next → s.owner l = none →
      Step m starts env s (.act i ⟨.tryLock l, true⟩) ((s.setOwner l (some i)).goto i (next true))
  -- also without a reason
  | tryLock_failed {s : State Res L C ε S ι} {i : ι} {l : L} {next : Bool → Thread Res L C ε Unit} :
      s.code i = .perform (.tryLock l) next →
      Step m starts env s (.act i ⟨.tryLock l, false⟩) (s.goto i (next false))
  | unlock {s : State Res L C ε S ι} {i : ι} {l : L} {next : Unit → Thread Res L C ε Unit} :
      s.code i = .perform (.unlock l) next → s.owner l = some i →
      Step m starts env s (.act i ⟨.unlock l, ()⟩) ((s.setOwner l none).goto i (next ()))
  | await {s : State Res L C ε S ι} {i : ι} {l : L} {c : C} {next : Bool → Thread Res L C ε Unit} :
      s.code i = .perform (.await l c) next → s.owner l = some i →
      Step m starts env s (.act i ⟨.await l c, false⟩)
        ((s.setOwner l none).goto i (.perform (.retake l c) next))
  -- a thread that finds the condition false and has time left waits again, which changes nothing
  | retake {s : State Res L C ε S ι} {i : ι} {l : L} {c : C} {next : Bool → Thread Res L C ε Unit}
      {r : Bool} :
      s.code i = .perform (.retake l c) next → s.owner l = none →
      (r = true → m.holds c s.shared = true) →
      Step m starts env s (.act i ⟨.retake l c, r⟩) ((s.setOwner l (some i)).goto i (next r))
  | environment {s : State Res L C ε S ι} {t : S} :
      env s.shared t → Step m starts env s .environment { s with shared := t }

end Interleavings

/-! ## Disciplines -/

/-- What the programs agree on. -/
structure Discipline (O : Type u) (L : Type v) (S : Type x) (κ : Type z) where
  /-- A thread takes only locks of a level below those it holds. -/
  level : L → κ
  /-- What a lock protects is the same in two states. -/
  Same : L → Setoid S
  /-- The operation may be performed in this state by a thread that holds these locks. -/
  Allowed : Set L → S → O → Prop

section Disciplines

variable {O : Type u} {L : Type v} {C : Type w} {Res : O → Type} {ε α β : Type} {S : Type x}
  {κ : Type z}

/-- What the locks of `H` protect is the same. -/
def Discipline.Agree (d : Discipline O L S κ) (H : Set L) (s t : S) : Prop := ∀ l ∈ H, (d.Same l) s t

namespace Discipline

variable {d : Discipline O L S κ} {H : Set L} {s t t' : S} {l : L}

theorem Agree.refl (d : Discipline O L S κ) (H : Set L) (s : S) : d.Agree H s s :=
  fun l _ => (d.Same l).refl s

theorem Agree.trans (h : d.Agree H s t) (h' : d.Agree H t t') : d.Agree H s t' :=
  fun l hl => (d.Same l).trans (h l hl) (h' l hl)

theorem Agree.subset {H' : Set L} (h : d.Agree H s t) (hsub : H' ⊆ H) : d.Agree H' s t :=
  fun l hl => h l (hsub hl)

end Discipline

variable [LT κ]

/-- The lock is below those of `H`. -/
def Discipline.Below (d : Discipline O L S κ) (H : Set L) (l : L) : Prop :=
  ∀ h ∈ H, d.level l < d.level h

/-- From a state of which the locks of `H` protect what is in `s`, the program keeps to the
discipline, and if it ends then `Q` holds of its result, its locks and the state. -/
def Obeys (m : Machine O Res C S) (d : Discipline O L S κ) (Q : α → Set L → S → Prop) :
    Thread Res L C ε α → Set L → S → Prop
  | .pure a, H, s => Q a H s
  | .throw _, _, _ => True
  | .perform (.op o) next, H, s => ∀ t, d.Agree H s t → d.Allowed H t o ∧
      (∀ l, l ∉ H → (d.Same l) t (m.step o t).2) ∧
      Obeys m d Q (next (m.step o t).1) H (m.step o t).2
  | .perform (.lock l) next, H, s => d.Below H l ∧
      ∀ t, d.Agree H s t → Obeys m d Q (next ()) (insert l H) t
  | .perform (.tryLock l) next, H, s => l ∉ H ∧ Obeys m d Q (next false) H s ∧
      ∀ t, d.Agree H s t → Obeys m d Q (next true) (insert l H) t
  | .perform (.unlock l) next, H, s => l ∈ H ∧ Obeys m d Q (next ()) (H \ {l}) s
  | .perform (.await l c) next, H, s => l ∈ H ∧ d.Below (H \ {l}) l ∧
      ∀ t r, d.Agree (H \ {l}) s t → (r = true → m.holds c t = true) → Obeys m d Q (next r) H t
  | .perform (.retake l c) next, H, s => d.Below H l ∧
      ∀ t r, d.Agree H s t → (r = true → m.holds c t = true) →
        Obeys m d Q (next r) (insert l H) t

/-! ## Rules -/

namespace Obeys

variable {m : Machine O Res C S} {d : Discipline O L S κ} {H : Set L} {s t : S} {l : L} {c : C}
  {Q Q' : α → Set L → S → Prop} {R : β → Set L → S → Prop} {p q : Thread Res L C ε α}
  {f : α → Thread Res L C ε β}

/-- What is not protected by the locks at hand has no part in the contract. -/
theorem agree (hQ : ∀ a H s t, d.Agree H s t → Q a H s → Q a H t) (hst : d.Agree H s t)
    (h : Obeys m d Q p H s) : Obeys m d Q p H t := by
  induction p generalizing H s t with
  | pure a => exact hQ a H s t hst h
  | throw e => exact trivial
  | perform o next ih =>
      cases o with
      | op o => exact fun t' ht' => h t' (hst.trans ht')
      | lock l => exact ⟨h.1, fun t' ht' => h.2 t' (hst.trans ht')⟩
      | tryLock l => exact ⟨h.1, ih false hst h.2.1, fun t' ht' => h.2.2 t' (hst.trans ht')⟩
      | unlock l => exact ⟨h.1, ih () (hst.subset Set.sdiff_subset) h.2⟩
      | await l c =>
          exact ⟨h.1, h.2.1, fun t' r ht' => h.2.2 t' r ((hst.subset Set.sdiff_subset).trans ht')⟩
      | retake l c => exact ⟨h.1, fun t' r ht' => h.2 t' r (hst.trans ht')⟩

theorem mono (hQ : ∀ a H s, Q a H s → Q' a H s) (h : Obeys m d Q p H s) : Obeys m d Q' p H s := by
  induction p generalizing H s with
  | pure a => exact hQ a H s h
  | throw e => exact trivial
  | perform o next ih =>
      cases o with
      | op o => exact fun t ht => ⟨(h t ht).1, (h t ht).2.1, ih _ (h t ht).2.2⟩
      | lock l => exact ⟨h.1, fun t ht => ih () (h.2 t ht)⟩
      | tryLock l => exact ⟨h.1, ih false h.2.1, fun t ht => ih true (h.2.2 t ht)⟩
      | unlock l => exact ⟨h.1, ih () h.2⟩
      | await l c => exact ⟨h.1, h.2.1, fun t r ht hr => ih r (h.2.2 t r ht hr)⟩
      | retake l c => exact ⟨h.1, fun t r ht hr => ih r (h.2 t r ht hr)⟩

theorem bind (h : Obeys m d (fun a H t => Obeys m d R (f a) H t) p H s) :
    Obeys m d R (p >>= f) H s := by
  induction p generalizing H s with
  | pure a => exact h
  | throw e => exact trivial
  | perform o next ih =>
      cases o with
      | op o => exact fun t ht => ⟨(h t ht).1, (h t ht).2.1, ih _ (h t ht).2.2⟩
      | lock l => exact ⟨h.1, fun t ht => ih () (h.2 t ht)⟩
      | tryLock l => exact ⟨h.1, ih false h.2.1, fun t ht => ih true (h.2.2 t ht)⟩
      | unlock l => exact ⟨h.1, ih () h.2⟩
      | await l c => exact ⟨h.1, h.2.1, fun t r ht hr => ih r (h.2.2 t r ht hr)⟩
      | retake l c => exact ⟨h.1, fun t r ht hr => ih r (h.2 t r ht hr)⟩

theorem ite {b : Prop} [Decidable b] (hp : b → Obeys m d Q p H s) (hq : ¬ b → Obeys m d Q q H s) :
    Obeys m d Q (if b then p else q) H s := by
  by_cases hb : b
  · rw [if_pos hb]
    exact hp hb
  · rw [if_neg hb]
    exact hq hb

/-- A block under one more lock. -/
theorem withLock [Std.Irrefl (α := κ) (· < ·)] (hbelow : d.Below H l)
    (h : ∀ t, d.Agree H s t → Obeys m d (fun a H' t' => H' = insert l H ∧ Q a H t') p (insert l H) t) :
    Obeys m d Q (Locks.withLock l p) H s := by
  have hl : l ∉ H := fun hl => irrefl _ (hbelow l hl)
  refine ⟨hbelow, fun t ht => bind ((h t ht).mono fun a H' t' hQ => ?_)⟩
  rw [hQ.1]
  refine ⟨Set.mem_insert l H, ?_⟩
  rw [Set.insert_sdiff_self_of_notMem hl]
  exact hQ.2

/-- The operations of a program that takes no locks are answered in states that agree on what its
locks protect. -/
def answers (m : Machine O Res C S) (d : Discipline O L S κ) (H : Set L) (o : O) (s : S) (r : Res o)
    (s' : S) : Prop := ∃ t, d.Agree H s t ∧ r = (m.step o t).1 ∧ s' = (m.step o t).2

/-- A program without locks, by what it performs and a contract. -/
theorem lift {P : O → Prop} {x : Program O Res ε α} {I : S → Prop} {G : α → S → Prop}
    {E : ε → S → Prop} (hx : x.Performs P)
    (hP : ∀ o t, P o → d.Allowed H t o ∧ ∀ l, l ∉ H → (d.Same l) t (m.step o t).2)
    (hmeets : x.Meets (answers m d H) I G E s) :
    Obeys m d (fun a H' t => H' = H ∧ G a t) (Locks.lift x) H s := by
  induction x generalizing s with
  | pure a => exact ⟨rfl, hmeets.2⟩
  | throw e => exact trivial
  | perform o next ih =>
      intro t ht
      rcases hP o t hx.1 with ⟨hallowed, hleft⟩
      exact ⟨hallowed, hleft, ih _ (hx.2 _) (hmeets.answered ⟨t, ht, rfl, rfl⟩)⟩

/-- As `lift`, where nothing is to be said about the result. -/
theorem lift_any {P : O → Prop} {x : Program O Res ε α} (hx : x.Performs P)
    (hP : ∀ o t, P o → d.Allowed H t o ∧ ∀ l, l ∉ H → (d.Same l) t (m.step o t).2) :
    Obeys m d (fun _ H' _ => H' = H) (Locks.lift x) H s :=
  (lift hx hP (hx.meets (I := fun _ => True) (fun _ _ _ _ _ _ _ => trivial) trivial)).mono
    fun _ _ _ h => h.1

end Obeys

end Disciplines

/-! ## Every interleaving -/

section Runs

variable {O : Type u} {L : Type v} {C : Type w} {Res : O → Type} {ε : Type} {S : Type x} {ι : Type y}
  {κ : Type z} {m : Machine O Res C S} {d : Discipline O L S κ}
  {starts : ι → Thread Res L C ε Unit → Prop} {env : S → S → Prop} {s s' : State Res L C ε S ι}
  {i j : ι} {l : L} {e : Event Res L C ε ι}

namespace State

section Owners

variable [DecidableEq L]

theorem held_take : (s.setOwner l (some i)).held i = insert l (s.held i) := by
  ext k
  by_cases hk : k = l
  · subst hk
    simp [held, setOwner]
  · simp [held, setOwner, hk]

theorem held_drop : (s.setOwner l none).held i = s.held i \ {l} := by
  ext k
  by_cases hk : k = l
  · subst hk
    simp [held, setOwner]
  · simp [held, setOwner, hk]

/-- A lock that another thread takes or gives up. -/
theorem held_other {o : Option ι} (hold : s.owner l ≠ some j) (hnew : o ≠ some j) :
    (s.setOwner l o).held j = s.held j := by
  ext k
  by_cases hk : k = l
  · subst hk
    simp [held, setOwner, hold, hnew]
  · simp [held, setOwner, hk]

end Owners

variable [DecidableEq ι] {p : Thread Res L C ε Unit}

@[simp] theorem goto_self : (s.goto i p).code i = p := by
  simp [goto]

theorem goto_other (hj : j ≠ i) : (s.goto i p).code j = s.code j := by
  simp [goto, hj]

end State

section Soundness

variable [LT κ]

/-- What is left of each thread keeps to the discipline, and in the end it holds no locks. -/
def Sound (m : Machine O Res C S) (d : Discipline O L S κ) (s : State Res L C ε S ι) : Prop :=
  ∀ i, Obeys m d (fun _ H _ => H = ∅) (s.code i) (s.held i) s.shared

namespace Sound

theorem idle (x : S) : Sound m d (State.idle x : State Res L C ε S ι) := by
  intro i
  refine Set.eq_empty_of_forall_notMem fun l hl => ?_
  cases hl

/-- What a thread has in store. -/
theorem obeys {p : Thread Res L C ε Unit} (hs : Sound m d s) (hcode : s.code i = p) :
    Obeys m d (fun _ H _ => H = ∅) p (s.held i) s.shared := by
  rw [← hcode]
  exact hs i

/-- An operation that a thread is about to perform is one it may perform. -/
theorem allowed {o : O} {next : Res o → Thread Res L C ε Unit} (hs : Sound m d s)
    (hcode : s.code i = .perform (.op o) next) : d.Allowed (s.held i) s.shared o :=
  (hs.obeys hcode _ (Discipline.Agree.refl d _ _)).1

variable [DecidableEq ι]

/-- A thread that goes on with `p`, among others that keep their locks and what they rely on. -/
theorem goto {p : Thread Res L C ε Unit} {t : State Res L C ε S ι} (hs : Sound m d s)
    (hcode : t.code = s.code) (hheld : ∀ j, j ≠ i → t.held j = s.held j)
    (hshared : ∀ j, j ≠ i → d.Agree (s.held j) s.shared t.shared)
    (hi : Obeys m d (fun _ H _ => H = ∅) p (t.held i) t.shared) : Sound m d (t.goto i p) := by
  intro j
  by_cases hj : j = i
  · subst hj
    rw [State.goto_self]
    exact hi
  · rw [State.goto_other hj, hcode]
    have hrest := (hs j).agree (fun _ _ _ _ _ h => h) (hshared j hj)
    rw [← hheld j hj] at hrest
    exact hrest

variable [DecidableEq L]

theorem step (hstarts : ∀ i p x, starts i p → Obeys m d (fun _ H _ => H = ∅) p ∅ x)
    (henv : ∀ l x x', env x x' → (d.Same l) x x') (hs : Sound m d s)
    (hstep : Step m starts env s e s') : Sound m d s' := by
  -- a thread takes a lock only when it is free, and gives up only its own
  have htake : ∀ {i : ι} {l : L}, s.owner l = none → ∀ j, j ≠ i →
      (s.setOwner l (some i)).held j = s.held j := fun hfree j hj =>
    State.held_other (by simp [hfree]) (by simpa using Ne.symm hj)
  have hdrop : ∀ {i : ι} {l : L}, s.owner l = some i → ∀ j, j ≠ i →
      (s.setOwner l none).held j = s.held j := fun hown j hj =>
    State.held_other (by simpa [hown] using Ne.symm hj) (by simp)
  have hsame : ∀ {i : ι} j, j ≠ i → d.Agree (s.held j) s.shared s.shared :=
    fun j _ => Discipline.Agree.refl d _ _
  cases hstep with
  | @start i p hcode hp =>
      have hnone : s.held i = ∅ := hs.obeys hcode
      refine hs.goto rfl (fun j _ => rfl) hsame ?_
      rw [hnone]
      exact hstarts i p _ hp
  | @op i o next hcode =>
      rcases hs.obeys hcode _ (Discipline.Agree.refl d _ _) with ⟨_, hleft, hnext⟩
      -- what the others rely on is under locks that this thread does not hold
      refine hs.goto rfl (fun j _ => rfl) (fun j hj l hl => hleft l fun hown => hj ?_) hnext
      exact Option.some.inj (Eq.trans (Eq.symm hl) hown)
  | @lock i l next hcode hfree =>
      refine hs.goto rfl (htake hfree) hsame ?_
      rw [State.held_take]
      exact (hs.obeys hcode).2 _ (Discipline.Agree.refl d _ _)
  | @tryLock i l next hcode hfree =>
      refine hs.goto rfl (htake hfree) hsame ?_
      rw [State.held_take]
      exact (hs.obeys hcode).2.2 _ (Discipline.Agree.refl d _ _)
  | @tryLock_failed i l next hcode =>
      exact hs.goto rfl (fun j _ => rfl) hsame (hs.obeys hcode).2.1
  | @unlock i l next hcode hown =>
      refine hs.goto rfl (hdrop hown) hsame ?_
      rw [State.held_drop]
      exact (hs.obeys hcode).2
  | @await i l c next hcode hown =>
      rcases hs.obeys hcode with ⟨hl, hbelow, hnext⟩
      refine hs.goto rfl (hdrop hown) hsame ?_
      rw [State.held_drop]
      refine ⟨hbelow, fun t r ht hr => ?_⟩
      rw [Set.insert_sdiff_self_of_mem hl]
      exact hnext t r ht hr
  | @retake i l c next r hcode hfree hr =>
      refine hs.goto rfl (htake hfree) hsame ?_
      rw [State.held_take]
      exact (hs.obeys hcode).2 _ r (Discipline.Agree.refl d _ _) hr
  | environment hx =>
      exact fun j => (hs j).agree (fun _ _ _ _ _ h => h) fun l _ => henv l _ _ hx

/-- What holds along every run of threads that start from nothing. -/
theorem run {x : S} {h : List (Event Res L C ε ι)}
    (hstarts : ∀ i p x, starts i p → Obeys m d (fun _ H _ => H = ∅) p ∅ x)
    (henv : ∀ l x x', env x x' → (d.Same l) x x')
    (hrun : Transition.Run (Step m starts env) (State.idle x) h s) : Sound m d s :=
  hrun.invariant (Sound m d) (idle x) fun _ _ _ hs hstep => hs.step hstarts henv hstep

end Sound

end Soundness

/-! ## While a lock is held -/

section Held

/-- The thread `i` gives up the lock, for good or for a wait. -/
def Event.GivesUp (i : ι) (l : L) (e : Event Res L C ε ι) : Prop :=
  e = .act i ⟨.unlock l, ()⟩ ∨ ∃ c, e = .act i ⟨.await l c, false⟩

/-- A step of the thread `i`. -/
def Event.By (i : ι) : Event Res L C ε ι → Prop
  | .start j _ => j = i
  | .act j _ => j = i
  | .environment => False

variable [DecidableEq L] [DecidableEq ι]

/-- Where a thread is that performs an operation. -/
theorem Step.act_op {o : O} {r : Res o} (hstep : Step m starts env s (.act i ⟨.op o, r⟩) s') :
    ∃ next, s.code i = .perform (.op o) next := by
  cases hstep with
  | op hcode => exact ⟨_, hcode⟩

/-- Only its owner gives up a lock. -/
theorem Step.owner (hstep : Step m starts env s e s') (hown : s.owner l = some i)
    (hkeeps : ¬ e.GivesUp i l) : s'.owner l = some i := by
  have hother : ∀ {k : L} {o : Option ι}, k ≠ l → (s.setOwner k o).owner l = some i := by
    intro k o hk
    simp [State.setOwner, Ne.symm hk, hown]
  have htaken : ∀ {k : L}, s.owner k = none → k ≠ l := by
    rintro k hfree rfl
    rw [hfree] at hown
    cases hown
  -- a lock that a thread gives up is its own
  have hgiven : ∀ {k : L} {j : ι}, s.owner k = some j → (k = l → j ≠ i) → k ≠ l := by
    rintro k j hk hj rfl
    rw [hk] at hown
    exact hj rfl (Option.some.inj hown)
  cases hstep with
  | lock hcode hfree => exact hother (htaken hfree)
  | tryLock hcode hfree => exact hother (htaken hfree)
  | retake hcode hfree hr => exact hother (htaken hfree)
  | unlock hcode hk =>
      refine hother (hgiven hk ?_)
      rintro rfl rfl
      exact hkeeps (Or.inl rfl)
  | await hcode hk =>
      refine hother (hgiven hk ?_)
      rintro rfl rfl
      exact hkeeps (Or.inr ⟨_, rfl⟩)
  | _ => exact hown

theorem owner_run {h : List (Event Res L C ε ι)}
    (hrun : Transition.Run (Step m starts env) s h s') (hown : s.owner l = some i)
    (hkeeps : ∀ e ∈ h, ¬ e.GivesUp i l) : s'.owner l = some i :=
  hrun.invariantOn (fun e => ¬ e.GivesUp i l) (fun t => t.owner l = some i) hown
    (fun _ _ _ ht he hstep => hstep.owner ht he) hkeeps

/-- What a held lock protects is not changed by anybody else. -/
theorem Sound.same_of_held [LT κ] (henv : ∀ l x x', env x x' → (d.Same l) x x') (hs : Sound m d s)
    (hstep : Step m starts env s e s') (hown : s.owner l = some i) (hother : ¬ e.By i) :
    (d.Same l) s.shared s'.shared := by
  cases hstep with
  | @op j o next hcode =>
      rcases hs.obeys hcode _ (Discipline.Agree.refl d _ _) with ⟨_, hleft, _⟩
      refine hleft l fun hj => hother ?_
      exact Option.some.inj (Eq.trans (Eq.symm hj) hown)
  | environment hx => exact henv l _ _ hx
  | _ => exact (d.Same l).refl s.shared

end Held

/-! ## What a thread has done -/

section Notes

variable {G : Type*} [DecidableEq ι]

/-- What is noted of the program that the thread `i` began last: the program itself, and the notes
taken of its instructions since. -/
def Event.noted (note : (o : Instr O L C) → Answer Res o → G → G) (g₀ : G) (i : ι)
    (so_far : Option (Thread Res L C ε Unit × G)) :
    Event Res L C ε ι → Option (Thread Res L C ε Unit × G)
  | .start j p => if j = i then some (p, g₀) else so_far
  | .act j a => if j = i then so_far.map fun x => (x.1, note a.1 a.2 x.2) else so_far
  | .environment => so_far

def noted (note : (o : Instr O L C) → Answer Res o → G → G) (g₀ : G) (i : ι)
    (h : List (Event Res L C ε ι)) : Option (Thread Res L C ε Unit × G) :=
  h.foldl (Event.noted note g₀ i) none

/-- Notes are taken by a function. -/
abbrev Notes (note : (o : Instr O L C) → Answer Res o → G → G) (o : Instr O L C) (g : G)
    (r : Answer Res o) (g' : G) : Prop := g' = note o r g

variable [DecidableEq L] {note : (o : Instr O L C) → Answer Res o → G → G} {g₀ : G} {K : G → Prop}
  {Q : Thread Res L C ε Unit → Unit → G → Prop}

/-- What a step is for the thread `i`: none of its own, a beginning, an instruction, or the first half
of a wait. -/
theorem Step.noted_cases (hstep : Step m starts env s e s') (i : ι)
    (so_far : Option (Thread Res L C ε Unit × G)) :
    (s'.code i = s.code i ∧ e.noted note g₀ i so_far = so_far) ∨
    (∃ p, starts i p ∧ s'.code i = p ∧ e.noted note g₀ i so_far = some (p, g₀)) ∨
    (∃ o next r, s.code i = .perform o next ∧ s'.code i = next r ∧
      e.noted note g₀ i so_far = so_far.map fun x => (x.1, note o r x.2)) ∨
    ∃ l c next, s.code i = .perform (.await l c) next ∧ s'.code i = .perform (.retake l c) next ∧
      e.noted note g₀ i so_far = so_far.map fun x => (x.1, note (.await l c) false x.2) := by
  have hother : ∀ {j : ι} {o : Instr O L C} {r : Answer Res o} {q : Thread Res L C ε Unit}
      {t : State Res L C ε S ι}, t.code = s.code → j ≠ i → (t.goto j q).code i = s.code i ∧
        Event.noted note g₀ i so_far (.act j ⟨o, r⟩) = so_far := by
    intro j o r q t ht hj
    rw [State.goto_other (Ne.symm hj), ht, Event.noted, if_neg hj]
    exact ⟨rfl, rfl⟩
  have hact : ∀ {j : ι} {o : Instr O L C} {next : Answer Res o → Thread Res L C ε Unit}
      {r : Answer Res o} {t : State Res L C ε S ι}, s.code j = .perform o next → t.code = s.code →
      ((t.goto j (next r)).code i = s.code i ∧
        Event.noted note g₀ i so_far (.act j ⟨o, r⟩) = so_far) ∨
      ∃ o' next' r', s.code i = .perform o' next' ∧ (t.goto j (next r)).code i = next' r' ∧
        Event.noted note g₀ i so_far (.act j ⟨o, r⟩) = so_far.map fun x => (x.1, note o' r' x.2) := by
    intro j o next r t hcode ht
    by_cases hj : j = i
    · subst hj
      exact Or.inr ⟨o, next, r, hcode, State.goto_self, if_pos rfl⟩
    · exact Or.inl (hother ht hj)
  have hwhole : ∀ {P Q R T : Prop}, P ∨ R → P ∨ Q ∨ R ∨ T := fun h =>
    h.elim Or.inl fun hR => Or.inr (Or.inr (Or.inl hR))
  cases hstep with
  | @start j p hcode hp =>
      by_cases hj : j = i
      · subst hj
        exact Or.inr (Or.inl ⟨p, hp, State.goto_self, if_pos rfl⟩)
      · exact Or.inl ⟨State.goto_other (Ne.symm hj), if_neg hj⟩
  | op hcode => exact hwhole (hact hcode rfl)
  | lock hcode hfree => exact hwhole (hact hcode rfl)
  | tryLock hcode hfree => exact hwhole (hact hcode rfl)
  | tryLock_failed hcode => exact hwhole (hact hcode rfl)
  | unlock hcode hown => exact hwhole (hact hcode rfl)
  | retake hcode hfree hr => exact hwhole (hact hcode rfl)
  | @await j l c next hcode hown =>
      by_cases hj : j = i
      · subst hj
        exact Or.inr (Or.inr (Or.inr ⟨l, c, next, hcode, State.goto_self, if_pos rfl⟩))
      · exact Or.inl (hother rfl hj)
  | environment hx => exact Or.inl ⟨rfl, rfl⟩

/-- What is left of a program meets its contract from the notes so far: the other threads have no
part in it, and the two halves of a wait count as one. -/
theorem noted_meets
    (hstarts : ∀ i p, starts i p → p.Meets (Notes note) K (Q p) (fun _ _ => True) g₀)
    (hwait : ∀ l c r g, note (.retake l c) r (note (.await l c) false g) = note (.await l c) r g)
    {x : S} {h : List (Event Res L C ε ι)}
    (hrun : Transition.Run (Step m starts env) (State.idle x) h s) {p : Thread Res L C ε Unit} {g : G}
    (hnoted : noted note g₀ i h = some (p, g)) :
    (s.code i).Meets (Notes note) K (Q p) (fun _ _ => True) g := by
  let I := fun (h : List (Event Res L C ε ι)) (t : State Res L C ε S ι) =>
    ∀ i p g, noted note g₀ i h = some (p, g) →
      (t.code i).Meets (Notes note) K (Q p) (fun _ _ => True) g
  have hkeep : ∀ h t e u, Transition.Run (Step m starts env) (State.idle x) h t → I h t →
      Step m starts env t e u → I (h ++ [e]) u := by
    intro h t e u _ hI hstep i p g hnoted
    rw [noted, List.foldl_append] at hnoted
    change e.noted note g₀ i (noted note g₀ i h) = some (p, g) at hnoted
    rcases hstep.noted_cases i (noted note g₀ i h) with
      ⟨hcode, heq⟩ | ⟨q, hq, hcode, heq⟩ | ⟨o, next, r, hbefore, hcode, heq⟩ |
      ⟨l, c, next, hbefore, hcode, heq⟩
    · rw [hcode]
      exact hI i p g (heq ▸ hnoted)
    · rw [hcode]
      cases heq.symm.trans hnoted
      exact hstarts i p hq
    · rcases Option.map_eq_some_iff.1 (heq.symm.trans hnoted) with ⟨⟨p', g'⟩, hg', hpair⟩
      cases hpair
      have hmeets := hI i p' g' hg'
      rw [hbefore] at hmeets
      rw [hcode]
      exact hmeets.answered rfl
    · rcases Option.map_eq_some_iff.1 (heq.symm.trans hnoted) with ⟨⟨p', g'⟩, hg', hpair⟩
      cases hpair
      have hmeets := hI i p' g' hg'
      rw [hbefore] at hmeets
      rw [hcode]
      refine ⟨(hmeets.answered (r := false) rfl).now, ?_⟩
      rintro r _ rfl
      rw [hwait]
      exact hmeets.answered rfl
  refine hrun.historyInvariant I ?_ hkeep i p g hnoted
  intro i p g hnone
  cases hnone

/-- A thread in the middle of a program has begun it. -/
theorem exists_noted {x : S} {h : List (Event Res L C ε ι)}
    (hrun : Transition.Run (Step m starts env) (State.idle x) h s) (hbusy : s.code i ≠ .pure ()) :
    ∃ p g, noted note g₀ i h = some (p, g) := by
  let I := fun (h : List (Event Res L C ε ι)) (t : State Res L C ε S ι) =>
    ∀ i, noted note g₀ i h = none → t.code i = .pure ()
  have hkeep : ∀ h t e u, Transition.Run (Step m starts env) (State.idle x) h t → I h t →
      Step m starts env t e u → I (h ++ [e]) u := by
    intro h t e u _ hI hstep i hnone
    rw [noted, List.foldl_append] at hnone
    change e.noted note g₀ i (noted note g₀ i h) = none at hnone
    have hidle : ∀ {o : Instr O L C} {next : Answer Res o → Thread Res L C ε Unit},
        t.code i = .perform o next → noted note g₀ i h ≠ none := by
      intro o next hcode hbefore
      cases hcode.symm.trans (hI i hbefore)
    rcases hstep.noted_cases i (noted note g₀ i h) with
      ⟨hcode, heq⟩ | ⟨q, hq, hcode, heq⟩ | ⟨o, next, r, hbefore, hcode, heq⟩ |
      ⟨l, c, next, hbefore, hcode, heq⟩
    · rw [hcode]
      exact hI i (heq ▸ hnone)
    · cases heq.symm.trans hnone
    · exact absurd (Option.map_eq_none_iff.1 (heq.symm.trans hnone)) (hidle hbefore)
    · exact absurd (Option.map_eq_none_iff.1 (heq.symm.trans hnone)) (hidle hbefore)
  cases hnoted : noted note g₀ i h with
  | some x => exact ⟨x.1, x.2, rfl⟩
  | none => exact absurd (hrun.historyInvariant I (fun _ _ => rfl) hkeep i hnoted) hbusy

end Notes

/-! ## Progress -/

section Progress

/-- The thread cannot go on without this lock. -/
def Wants (p : Thread Res L C ε Unit) (l : L) : Prop :=
  (∃ next, p = .perform (.lock l) next) ∨ ∃ c next, p = .perform (.retake l c) next

/-- `i` wants a lock that `j` holds. -/
def WaitsFor (s : State Res L C ε S ι) (i j : ι) : Prop :=
  ∃ l, Wants (s.code i) l ∧ s.owner l = some j

section Owner

variable [LT κ]

/-- What a thread wants is below what it holds. -/
theorem Sound.below_of_wants (hs : Sound m d s) (hwants : Wants (s.code i) l) :
    d.Below (s.held i) l := by
  rcases hwants with ⟨next, hcode⟩ | ⟨c, next, hcode⟩
  · exact (hs.obeys hcode).1
  · exact (hs.obeys hcode).1

/-- Who holds a lock is not through. -/
theorem Sound.busy_of_owner (hs : Sound m d s) (hown : s.owner l = some i) : s.code i ≠ .pure () := by
  intro hcode
  have hnone : s.held i = ∅ := hs.obeys hcode
  exact Set.notMem_empty l (hnone ▸ hown)

end Owner

variable [DecidableEq L] [DecidableEq ι]

/-- The thread can take its next instruction. -/
def Moves (m : Machine O Res C S) (starts : ι → Thread Res L C ε Unit → Prop) (env : S → S → Prop)
    (s : State Res L C ε S ι) (i : ι) : Prop :=
  ∃ a s', Step m starts env s (.act i a) s'

namespace Sound

/-- A lock that is free can be taken. -/
theorem moves_of_free (hwants : Wants (s.code i) l) (hfree : s.owner l = none) :
    Moves m starts env s i := by
  rcases hwants with ⟨next, hcode⟩ | ⟨c, next, hcode⟩
  · exact ⟨_, _, .lock hcode hfree⟩
  · exact ⟨_, _, .retake (r := false) hcode hfree fun h => nomatch h⟩

/-- A thread that is neither through nor wants a lock can go on. -/
theorem moves_of_not_wants [LT κ] (hs : Sound m d s) (hbusy : s.code i ≠ .pure ())
    (halive : ∀ e, s.code i ≠ .throw e) (hwants : ∀ l, ¬ Wants (s.code i) l) :
    Moves m starts env s i := by
  cases hcode : s.code i with
  | pure a => exact absurd hcode hbusy
  | throw e => exact absurd hcode (halive e)
  | perform o next =>
      cases o with
      | op o => exact ⟨_, _, .op hcode⟩
      | lock l => exact absurd (Or.inl ⟨next, hcode⟩) (hwants l)
      | tryLock l => exact ⟨_, _, .tryLock_failed hcode⟩
      | unlock l => exact ⟨_, _, .unlock hcode (hs.obeys hcode).1⟩
      | await l c => exact ⟨_, _, .await hcode (hs.obeys hcode).1⟩
      | retake l c => exact absurd (Or.inr ⟨c, next, hcode⟩) (hwants l)

/-- Every thread that is not through can go on, or waits for one that can: down a chain of owners the
locks that are wanted have lower and lower levels. -/
theorem progress [Preorder κ] [WellFoundedLT κ] (hs : Sound m d s)
    (halive : ∀ i e, s.code i ≠ .throw e) (hbusy : s.code i ≠ .pure ()) :
    ∃ j, Relation.ReflTransGen (WaitsFor s) i j ∧ Moves m starts env s j := by
  by_cases hwants : ∃ l, Wants (s.code i) l
  · rcases hwants with ⟨l, hl⟩
    induction hlevel : d.level l using WellFoundedLT.induction generalizing i l with
    | ind k ih =>
        cases hown : s.owner l with
        | none => exact ⟨i, .refl, moves_of_free hl hown⟩
        | some j =>
            have hwait : WaitsFor s i j := ⟨l, hl, hown⟩
            by_cases hnext : ∃ l', Wants (s.code j) l'
            · rcases hnext with ⟨l', hl'⟩
              have hlower : d.level l' < k := hlevel ▸ hs.below_of_wants hl' l hown
              rcases ih _ hlower (hs.busy_of_owner hown) l' hl' rfl with ⟨j', hchain, hmoves⟩
              exact ⟨j', .head hwait hchain, hmoves⟩
            · exact ⟨j, .single hwait, hs.moves_of_not_wants (hs.busy_of_owner hown) (halive j)
                (not_exists.1 hnext)⟩
  · exact ⟨i, .refl, hs.moves_of_not_wants hbusy (halive i) (not_exists.1 hwants)⟩

end Sound

end Progress

end Runs

end Locks
