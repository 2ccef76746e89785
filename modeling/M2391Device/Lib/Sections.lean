import M2391Device.Lib.Locks

/-!
# Sections — threads that share a state under one lock

Where every thread touches the shared state only while it holds the lock, a stretch of a thread from
the taking of the lock to where the lock is given up, for good or for a wait, is as good as a single
step: any interleaving is a run of such steps (`serial`), with the same operations in the same order.
Operations that have nothing to do with the shared state may be performed outside the lock.
-/

universe u v w x y

namespace Locks

variable {O : Type u} {L : Type v} {C : Type w} {Res : O → Type} {ε α β : Type} {S : Type x} {ι : Type y}

/-! ## Programs in sections -/

/-- Operations that neither look at the shared state nor change it. -/
def Machine.Apart (m : Machine O Res C S) (free : O → Bool) : Prop :=
  ∀ o, free o = true → ∀ s t, (m.step o s).1 = (m.step o t).1 ∧ (m.step o s).2 = s

/-- From within the lock or from outside, the program takes no other lock, performs the operations on
the shared state within and the others outside, and ends as `after` says. -/
def Sectioned (free : O → Bool) (l : L) (after : Bool) : Thread Res L C ε α → Bool → Prop
  | .pure _, inside => inside = after
  | .throw _, _ => True
  | .perform (.op o) next, inside => free o = !inside ∧ ∀ r, Sectioned free l after (next r) inside
  | .perform (.lock k) next, inside =>
      inside = false ∧ k = l ∧ Sectioned free l after (next ()) true
  | .perform (.tryLock _) _, _ => False
  | .perform (.unlock k) next, inside =>
      inside = true ∧ k = l ∧ Sectioned free l after (next ()) false
  | .perform (.await k _) next, inside =>
      inside = true ∧ k = l ∧ ∀ r, Sectioned free l after (next r) true
  | .perform (.retake k _) next, inside =>
      inside = false ∧ k = l ∧ ∀ r, Sectioned free l after (next r) true

namespace Sectioned

variable {free : O → Bool} {l : L} {inside mid after : Bool} {p q : Thread Res L C ε α}
  {f : α → Thread Res L C ε β}

theorem bind (hp : Sectioned free l mid p inside) (hf : ∀ a, Sectioned free l after (f a) mid) :
    Sectioned free l after (p >>= f) inside := by
  induction p generalizing inside with
  | pure a =>
      cases hp
      exact hf a
  | throw e => exact trivial
  | perform o next ih =>
      cases o with
      | op o => exact ⟨hp.1, fun r => ih r (hp.2 r)⟩
      | lock k => exact ⟨hp.1, hp.2.1, ih () hp.2.2⟩
      | tryLock k => exact hp
      | unlock k => exact ⟨hp.1, hp.2.1, ih () hp.2.2⟩
      | await k c => exact ⟨hp.1, hp.2.1, fun r => ih r (hp.2.2 r)⟩
      | retake k c => exact ⟨hp.1, hp.2.1, fun r => ih r (hp.2.2 r)⟩

theorem ite {b : Prop} [Decidable b] (hp : Sectioned free l after p inside)
    (hq : Sectioned free l after q inside) : Sectioned free l after (if b then p else q) inside := by
  by_cases hb : b
  · rw [if_pos hb]
    exact hp
  · rw [if_neg hb]
    exact hq

/-- A program without locks stays on one side of the lock. -/
theorem lift {x : Program O Res ε α} (hx : x.Performs fun o => free o = !inside) :
    Sectioned free l inside (Locks.lift x : Thread Res L C ε α) inside := by
  induction x with
  | pure a => exact rfl
  | throw e => exact trivial
  | perform o next ih => exact ⟨hx.1, fun r => ih r (hx.2 r)⟩

theorem withLock (hp : Sectioned free l true p true) :
    Sectioned free l false (Locks.withLock l p) false :=
  ⟨rfl, rfl, bind hp fun _ => ⟨rfl, rfl, rfl⟩⟩

end Sectioned

/-! ## One stretch at a time -/

/-- From `p` in `s` to `q` in `t` by these operations, and by what else goes on. -/
inductive Within (m : Machine O Res C S) (env : S → S → Prop) (p : Thread Res L C ε α) (s : S) :
    List (Program.Answered O Res) → Thread Res L C ε α → S → Prop where
  | here : Within m env p s [] p s
  | op {ops : List (Program.Answered O Res)} {o : O} {next : Res o → Thread Res L C ε α} {t : S} :
      Within m env p s ops (.perform (.op o) next) t →
      Within m env p s (ops ++ [⟨o, (m.step o t).1⟩]) (next (m.step o t).1) (m.step o t).2
  | environment {ops : List (Program.Answered O Res)} {q : Thread Res L C ε α} {t t' : S} :
      Within m env p s ops q t → env t t' → Within m env p s ops q t'

/-- A thread takes the lock, or takes it back. -/
inductive Enters (m : Machine O Res C S) (l : L) (s : S) :
    Thread Res L C ε α → Thread Res L C ε α → Prop where
  | lock {next : Unit → Thread Res L C ε α} : Enters m l s (.perform (.lock l) next) (next ())
  | retake {c : C} {next : Bool → Thread Res L C ε α} {r : Bool} :
      (r = true → m.holds c s = true) → Enters m l s (.perform (.retake l c) next) (next r)

/-- A thread gives the lock up, for good or for a wait. -/
inductive Leaves (l : L) : Thread Res L C ε α → Thread Res L C ε α → Prop where
  | unlock {next : Unit → Thread Res L C ε α} : Leaves l (.perform (.unlock l) next) (next ())
  | await {c : C} {next : Bool → Thread Res L C ε α} :
      Leaves l (.perform (.await l c) next) (.perform (.retake l c) next)

/-! ### What a stretch computes -/

section Computed

variable {m : Machine O Res C S} {env : S → S → Prop} {s t : S} {ops : List (Program.Answered O Res)}
  {x y : Program O Res ε α} {k : α → Thread Res L C ε β} {q : Thread Res L C ε β}

/-- After a program without locks, something else than an operation. -/
theorem lift_bind_op (hk : ∀ a o next, k a ≠ .perform (.op o) next) {o : O}
    {next : Res o → Thread Res L C ε β} (h : lift y >>= k = .perform (.op o) next) :
    ∃ next', y = .perform o next' ∧ next = fun r => lift (next' r) >>= k := by
  cases y with
  | pure a => exact absurd h (hk a o next)
  | throw e => cases h
  | perform o' next' =>
      cases h
      exact ⟨next', rfl, rfl⟩

/-- Where nothing else goes on, the program runs as it does alone. -/
theorem Within.run (hk : ∀ a o next, k a ≠ .perform (.op o) next) (henv : ∀ s t, env s t → t = s)
    (h : Within m env (lift x >>= k) s ops q t) :
    ∃ y, q = lift y >>= k ∧ y.run m.step t = x.run m.step s := by
  induction h with
  | here => exact ⟨x, rfl, rfl⟩
  | op h ih =>
      rcases ih with ⟨y, hy, hrun⟩
      rcases lift_bind_op hk (Eq.symm hy) with ⟨next', rfl, rfl⟩
      exact ⟨_, rfl, hrun⟩
  | environment h hx ih =>
      rw [henv _ _ hx]
      exact ih

/-- The operations of a stretch, answered after whatever else goes on. -/
def answersAfter (m : Machine O Res C S) (env : S → S → Prop) (o : O) (s : S) (r : Res o) (s' : S) :
    Prop :=
  ∃ t, Relation.ReflTransGen env s t ∧ r = (m.step o t).1 ∧ s' = (m.step o t).2

/-- A contract of the program is kept in the stretch, and what is left of it is one for the rest. -/
theorem Within.meets {I : S → Prop} {Q : α → S → Prop} {E : ε → S → Prop}
    (hk : ∀ a o next, k a ≠ .perform (.op o) next) (hx : x.Meets (answersAfter m env) I Q E s)
    (h : Within m env (lift x >>= k) s ops q t) : ∃ y t₀, q = lift y >>= k ∧
      Relation.ReflTransGen env t₀ t ∧ y.Meets (answersAfter m env) I Q E t₀ := by
  induction h with
  | here => exact ⟨x, s, rfl, .refl, hx⟩
  | op h ih =>
      rcases ih with ⟨y, t₀, hy, hsteps, hmeets⟩
      rcases lift_bind_op hk (Eq.symm hy) with ⟨next', rfl, rfl⟩
      exact ⟨_, _, rfl, .refl, hmeets.answered ⟨_, hsteps, rfl, rfl⟩⟩
  | environment h hx ih =>
      rcases ih with ⟨y, t₀, hy, hsteps, hmeets⟩
      exact ⟨y, t₀, hy, hsteps.tail hx, hmeets⟩

/-- The weakest precondition of what is left of a stretch: the program ends in `Q`, or leaves the lock
in `K`, whatever else goes on in between. -/
def Until (m : Machine O Res C S) (env : S → S → Prop) (K : Thread Res L C ε α → S → Prop)
    (Q : α → S → Prop) : Thread Res L C ε α → S → Prop
  | .pure a, s => Q a s
  | .throw _, _ => True
  | .perform (.op o) next, s => ∀ t, Relation.ReflTransGen env s t →
      Until m env K Q (next (m.step o t).1) (m.step o t).2
  | .perform (.unlock _) next, s => ∀ t, Relation.ReflTransGen env s t → K (next ()) t
  | .perform (.await l c) next, s => ∀ t, Relation.ReflTransGen env s t →
      K (.perform (.retake l c) next) t
  | .perform _ _, _ => True

namespace Until

variable {K : Thread Res L C ε α → S → Prop} {Q : α → S → Prop} {p q q' : Thread Res L C ε α} {l : L}

theorem within (h : Until m env K Q p s) (hwithin : Within m env p s ops q t) :
    ∃ t₀, Relation.ReflTransGen env t₀ t ∧ Until m env K Q q t₀ := by
  induction hwithin with
  | here => exact ⟨s, .refl, h⟩
  | op _ ih =>
      rcases ih with ⟨t₀, hsteps, hrest⟩
      exact ⟨_, .refl, hrest _ hsteps⟩
  | environment _ hx ih =>
      rcases ih with ⟨t₀, hsteps, hrest⟩
      exact ⟨t₀, hsteps.tail hx, hrest⟩

theorem leaves (h : Until m env K Q p s) (hwithin : Within m env p s ops q t)
    (hleaves : Leaves l q q') : K q' t := by
  rcases h.within hwithin with ⟨t₀, hsteps, hrest⟩
  cases hleaves with
  | unlock => exact hrest t hsteps
  | await => exact hrest t hsteps

end Until

end Computed

/-! ### Runs of stretches -/

/-- The shared state and the threads, while nobody has the lock. -/
structure Serial (Res : O → Type) (L : Type v) (C : Type w) (ε : Type) (S : Type x) (ι : Type y) where
  shared : S
  code : ι → Thread Res L C ε Unit

def Serial.idle (s : S) : Serial Res L C ε S ι where
  shared := s
  code := fun _ => .pure ()

inductive Move (Res : O → Type) (L : Type v) (C : Type w) (ε : Type) (ι : Type y)
  | start (i : ι) (p : Thread Res L C ε Unit)
  /-- A thread takes the lock, performs these operations, and gives the lock up. -/
  | stretch (i : ι) (ops : List (Program.Answered O Res))
  /-- An operation outside the lock. -/
  | apart (i : ι) (a : Program.Answered O Res)
  | environment

section Serial

variable [DecidableEq ι]

inductive Serially (m : Machine O Res C S) (starts : ι → Thread Res L C ε Unit → Prop)
    (env : S → S → Prop) (free : O → Bool) (l : L) :
    Serial Res L C ε S ι → Move Res L C ε ι → Serial Res L C ε S ι → Prop where
  | start {c : Serial Res L C ε S ι} {i : ι} {p : Thread Res L C ε Unit} :
      c.code i = .pure () → starts i p →
      Serially m starts env free l c (.start i p) { c with code := Function.update c.code i p }
  | stretch {c : Serial Res L C ε S ι} {i : ι} {p q q' : Thread Res L C ε Unit}
      {ops : List (Program.Answered O Res)} {t : S} :
      Enters m l c.shared (c.code i) p → Within m env p c.shared ops q t → Leaves l q q' →
      (∀ a ∈ ops, free a.1 = false) →
      Serially m starts env free l c (.stretch i ops) ⟨t, Function.update c.code i q'⟩
  | apart {c : Serial Res L C ε S ι} {i : ι} {o : O} {next : Res o → Thread Res L C ε Unit} :
      c.code i = .perform (.op o) next → free o = true →
      Serially m starts env free l c (.apart i ⟨o, (m.step o c.shared).1⟩)
        { c with code := Function.update c.code i (next (m.step o c.shared).1) }
  | environment {c : Serial Res L C ε S ι} {t : S} :
      env c.shared t → Serially m starts env free l c .environment { c with shared := t }

end Serial

/-! ## Deeds -/

/-- What a thread does, the taking and giving of locks apart. -/
inductive Deed (Res : O → Type) (L : Type v) (C : Type w) (ε : Type)
  | start (p : Thread Res L C ε Unit)
  | op (a : Program.Answered O Res)

/-- The operations of a stretch. -/
def operations (i : ι) (ops : List (Program.Answered O Res)) : List (ι × Deed Res L C ε) :=
  ops.map fun a => (i, .op a)

def Event.deeds : Event Res L C ε ι → List (ι × Deed Res L C ε)
  | .start i p => [(i, .start p)]
  | .act i ⟨.op o, r⟩ => [(i, .op ⟨o, r⟩)]
  | _ => []

/-- Who did what, oldest first. -/
def deeds (h : List (Event Res L C ε ι)) : List (ι × Deed Res L C ε) := h.flatMap Event.deeds

def Move.deeds : Move Res L C ε ι → List (ι × Deed Res L C ε)
  | .start i p => [(i, .start p)]
  | .stretch i ops => operations i ops
  | .apart i a => [(i, .op a)]
  | .environment => []

def serialDeeds (g : List (Move Res L C ε ι)) : List (ι × Deed Res L C ε) := g.flatMap Move.deeds

/-- Not on the shared state. -/
def Deed.isFree (free : O → Bool) : Deed Res L C ε → Bool
  | .start _ => true
  | .op a => free a.1

/-- The deeds on the shared state, or the others. -/
def ofKind (free : O → Bool) (b : Bool) (l : List (ι × Deed Res L C ε)) : List (ι × Deed Res L C ε) :=
  l.filter fun x => x.2.isFree free == b

section Kinds

variable {free : O → Bool} {b : Bool} {l l' : List (ι × Deed Res L C ε)}

theorem ofKind_append : ofKind free b (l ++ l') = ofKind free b l ++ ofKind free b l' :=
  List.filter_append _ _

theorem ofKind_of_none (h : ∀ x ∈ l, x.2.isFree free ≠ b) : ofKind free b l = [] :=
  List.filter_eq_nil_iff.2 fun x hx hb => h x hx (beq_iff_eq.1 hb)

end Kinds

/-! ## Every interleaving is a run of stretches -/

section Interleavings

variable [DecidableEq L] [DecidableEq ι] {m : Machine O Res C S}
  {starts : ι → Thread Res L C ε Unit → Prop} {env : S → S → Prop} {free : O → Bool} {l : L}
  {s s' : State Res L C ε S ι} {e : Event Res L C ε ι} {c : Serial Res L C ε S ι} {i : ι}
  {past now : List (ι × Deed Res L C ε)}

/-- The thread has the lock. -/
def State.inside (s : State Res L C ε S ι) (l : L) (i : ι) : Bool := decide (s.owner l = some i)

/-- All threads are in sections, within the lock or outside as the lock says. -/
def State.Sectioned (s : State Res L C ε S ι) (free : O → Bool) (l : L) : Prop :=
  ∀ i, Locks.Sectioned free l false (s.code i) (s.inside l i)

omit [DecidableEq L] in
theorem State.inside_iff : s.inside l i = true ↔ s.owner l = some i := decide_eq_true_iff

omit [DecidableEq L] in
theorem State.Sectioned.goto {t : State Res L C ε S ι} {p : Thread Res L C ε Unit}
    (hs : s.Sectioned free l) (hcode : t.code = s.code)
    (hinside : ∀ j, j ≠ i → t.inside l j = s.inside l j)
    (hp : Locks.Sectioned free l false p (t.inside l i)) : (t.goto i p).Sectioned free l := by
  intro j
  by_cases hj : j = i
  · subst hj
    rw [State.goto_self]
    exact hp
  · rw [State.goto_other hj, hcode]
    change Locks.Sectioned free l false (s.code j) (t.inside l j)
    rw [hinside j hj]
    exact hs j

theorem State.Sectioned.step
    (hstarts : ∀ i p, starts i p → Locks.Sectioned free l false p false) (hs : s.Sectioned free l)
    (hstep : Step m starts env s e s') : s'.Sectioned free l := by
  have hat : ∀ {i : ι} {p : Thread Res L C ε Unit}, s.code i = p →
      Locks.Sectioned free l false p (s.inside l i) := fun hcode => hcode ▸ hs _
  -- whoever takes the lock or gives it up is the only one for whom that makes a difference
  have htake : ∀ {i : ι}, s.owner l = none → ∀ j, j ≠ i →
      (s.setOwner l (some i)).inside l j = s.inside l j := by
    intro i hfree j hj
    simp [State.inside, State.setOwner, hfree, Ne.symm hj]
  have hdrop : ∀ {i : ι}, s.owner l = some i → ∀ j, j ≠ i →
      (s.setOwner l none).inside l j = s.inside l j := by
    intro i hown j hj
    simp [State.inside, State.setOwner, hown, Ne.symm hj]
  have hin : ∀ {i : ι}, (s.setOwner l (some i)).inside l i = true := by
    intro i
    simp [State.inside, State.setOwner]
  have hout : ∀ {i : ι}, (s.setOwner l none).inside l i = false := by
    intro i
    simp [State.inside, State.setOwner]
  cases hstep with
  | @start i p hcode hp =>
      have hinside : s.inside l i = false := hat hcode
      refine hs.goto rfl (fun _ _ => rfl) ?_
      rw [hinside]
      exact hstarts i p hp
  | op hcode => exact hs.goto rfl (fun _ _ => rfl) ((hat hcode).2 _)
  | lock hcode hfree =>
      rcases hat hcode with ⟨_, rfl, hnext⟩
      refine hs.goto rfl (htake hfree) ?_
      rw [hin]
      exact hnext
  | tryLock hcode hfree => exact (hat hcode).elim
  | tryLock_failed hcode => exact (hat hcode).elim
  | unlock hcode hown =>
      rcases hat hcode with ⟨_, rfl, hnext⟩
      refine hs.goto rfl (hdrop hown) ?_
      rw [hout]
      exact hnext
  | await hcode hown =>
      rcases hat hcode with ⟨_, rfl, hnext⟩
      refine hs.goto rfl (hdrop hown) ?_
      rw [hout]
      exact ⟨rfl, rfl, hnext⟩
  | retake hcode hfree hr =>
      rcases hat hcode with ⟨_, rfl, hnext⟩
      refine hs.goto rfl (htake hfree) ?_
      rw [hin]
      exact hnext _
  | environment hx => exact hs

/-- Where the run of stretches is: where the threads are, if nobody has the lock; or else before the
stretch of the thread that has it. -/
inductive Behind (m : Machine O Res C S) (env : S → S → Prop) (free : O → Bool) (l : L)
    (c : Serial Res L C ε S ι) (past : List (ι × Deed Res L C ε)) (s : State Res L C ε S ι)
    (now : List (ι × Deed Res L C ε)) : Prop where
  | level : s.owner l = none → c.shared = s.shared → c.code = s.code →
      (∀ b, ofKind free b now = ofKind free b past) → Behind m env free l c past s now
  | within {i : ι} {p : Thread Res L C ε Unit} {ops : List (Program.Answered O Res)} :
      s.owner l = some i → (∀ j, j ≠ i → c.code j = s.code j) → Enters m l c.shared (c.code i) p →
      Within m env p c.shared ops (s.code i) s.shared → (∀ a ∈ ops, free a.1 = false) →
      (∀ b, ofKind free b now = ofKind free b (past ++ operations i ops)) →
      Behind m env free l c past s now

namespace Behind

/-- A thread takes the lock. -/
theorem enter {q q' : Thread Res L C ε Unit} (hb : Behind m env free l c past s now)
    (hcode : s.code i = q) (henters : Enters m l s.shared q q') (hfree : s.owner l = none) :
    Behind m env free l c past ((s.setOwner l (some i)).goto i q') now := by
  cases hb with
  | within hown =>
      rw [hfree] at hown
      cases hown
  | level _ hshared hcodes hnow =>
      have hhere : Within m env q' c.shared [] (((s.setOwner l (some i)).goto i q').code i) s.shared := by
        rw [hshared, State.goto_self]
        exact .here
      refine .within (i := i) ?_ ?_ ?_ hhere ?_ ?_
      · simp [State.goto, State.setOwner]
      · intro j hj
        simp [State.goto, State.setOwner, hj, hcodes]
      · rw [hshared, hcodes, hcode]
        exact henters
      · exact fun a ha => absurd ha List.not_mem_nil
      · intro b
        rw [hnow b]
        exact congrArg (ofKind free b) (Eq.symm (List.append_nil past))

omit [DecidableEq L] in
/-- A thread with the lock performs an operation. -/
theorem perform {o : O} {next : Res o → Thread Res L C ε Unit}
    (hb : Behind m env free l c past s now) (hcode : s.code i = .perform (.op o) next)
    (hown : s.owner l = some i) (hkind : free o = false) :
    Behind m env free l c past
      ({ s with shared := (m.step o s.shared).2 }.goto i (next (m.step o s.shared).1))
      (now ++ [(i, .op ⟨o, (m.step o s.shared).1⟩)]) := by
  cases hb with
  | level hfree =>
      rw [hfree] at hown
      cases hown
  | @within j p ops hown' hothers henters hwithin hops hnow =>
      cases Option.some.inj (hown'.symm.trans hown)
      rw [hcode] at hwithin
      have hdone : Within m env p c.shared (ops ++ [⟨o, (m.step o s.shared).1⟩])
          (({ s with shared := (m.step o s.shared).2 }.goto i (next (m.step o s.shared).1)).code i)
          (m.step o s.shared).2 := by
        rw [State.goto_self]
        exact hwithin.op
      refine .within hown ?_ henters hdone ?_ fun b => ?_
      · intro k hk
        rw [State.goto_other hk]
        exact hothers k hk
      · intro a ha
        rcases List.mem_append.1 ha with ha | ha
        · exact hops a ha
        · rw [List.mem_singleton.1 ha]
          exact hkind
      · rw [ofKind_append, hnow b, ← ofKind_append, List.append_assoc, operations, operations,
          List.map_append]
        rfl

/-- A thread gives the lock up, which makes its stretch a step. -/
theorem leave {q q' : Thread Res L C ε Unit} (hb : Behind m env free l c past s now)
    (hcode : s.code i = q) (hleaves : Leaves l q q') (hown : s.owner l = some i) :
    ∃ ops c', Serially m starts env free l c (.stretch i ops) c' ∧
      Behind m env free l c' (past ++ operations i ops) ((s.setOwner l none).goto i q') now := by
  cases hb with
  | level hfree =>
      rw [hfree] at hown
      cases hown
  | @within j p ops hown' hothers henters hwithin hops hnow =>
      cases Option.some.inj (hown'.symm.trans hown)
      rw [hcode] at hwithin
      refine ⟨ops, _, .stretch henters hwithin hleaves hops, .level ?_ rfl ?_ hnow⟩
      · simp [State.goto, State.setOwner]
      · funext k
        by_cases hk : k = i
        · subst hk
          simp [State.goto]
        · simp [State.goto, State.setOwner, hk, hothers k hk]

omit [DecidableEq L] in
/-- A thread without the lock is where it is in the run of stretches. -/
theorem code_eq (hb : Behind m env free l c past s now) (hinside : s.inside l i = false) :
    c.code i = s.code i := by
  cases hb with
  | level _ _ hcodes => rw [hcodes]
  | within hown hothers =>
      refine hothers i fun hij => ?_
      rw [hij, State.inside_iff.2 hown] at hinside
      cases hinside

omit [DecidableEq L] in
/-- A thread without the lock goes on, whatever a thread with the lock is at. -/
theorem beside {p : Thread Res L C ε Unit} {new : List (ι × Deed Res L C ε)}
    (hb : Behind m env free l c past s now) (hinside : s.inside l i = false)
    (hnew : ∀ x ∈ new, x.2.isFree free = true) :
    Behind m env free l { c with code := Function.update c.code i p } (past ++ new) (s.goto i p)
      (now ++ new) := by
  cases hb with
  | level hfree hshared hcodes hnow =>
      refine .level hfree hshared (by simp [State.goto, hcodes]) fun b => ?_
      rw [ofKind_append, ofKind_append, hnow b]
  | @within j q ops hown hothers henters hwithin hops hnow =>
      have hij : j ≠ i := by
        rintro rfl
        rw [State.inside_iff.2 hown] at hinside
        cases hinside
      have hbeside : Within m env q c.shared ops ((s.goto i p).code j) s.shared := by
        rw [State.goto_other hij]
        exact hwithin
      refine .within hown ?_ ?_ hbeside hops fun b => ?_
      · intro k hk
        by_cases hki : k = i
        · subst hki
          simp [State.goto]
        · simp [State.goto, hki, hothers k hk]
      · simpa [hij] using henters
      · -- the operations of the two kinds are counted apart
        have hmap : ∀ x ∈ (operations j ops : List (ι × Deed Res L C ε)), x.2.isFree free = false := by
          intro x hx
          rcases List.mem_map.1 hx with ⟨a, ha, rfl⟩
          exact hops a ha
        rw [ofKind_append, hnow b]
        simp only [ofKind_append, List.append_assoc]
        cases b with
        | true =>
            have hnone : ofKind free true (operations j ops : List (ι × Deed Res L C ε)) = [] :=
              ofKind_of_none fun x hx => by simp [hmap x hx]
            rw [hnone, List.nil_append, List.append_nil]
        | false =>
            have hnone : ofKind free false new = [] := ofKind_of_none fun x hx => by simp [hnew x hx]
            rw [hnone, List.nil_append, List.append_nil]

/-- Each step of the threads is no step, or one, of the run of stretches. -/
theorem step (happart : m.Apart free) (hs : s.Sectioned free l)
    (hb : Behind m env free l c past s now) (hstep : Step m starts env s e s') :
    ∃ g c', Transition.Run (Serially m starts env free l) c g c' ∧
      Behind m env free l c' (past ++ serialDeeds g) s' (now ++ e.deeds) := by
  have hat : ∀ {i : ι} {p : Thread Res L C ε Unit}, s.code i = p →
      Locks.Sectioned free l false p (s.inside l i) := fun hcode => hcode ▸ hs _
  -- the stretch of the thread that has the lock goes on: the run of stretches waits for its end
  have hstay : ∀ {t : State Res L C ε S ι} {now : List (ι × Deed Res L C ε)},
      Behind m env free l c past t now → ∃ g c', Transition.Run (Serially m starts env free l) c g c' ∧
        Behind m env free l c' (past ++ serialDeeds g) t now := fun h =>
    ⟨[], c, Transition.Run.nil, by simpa [serialDeeds] using h⟩
  -- what a thread does without the lock, and the end of a stretch, is a move
  have hmove : ∀ {t : State Res L C ε S ι} {now : List (ι × Deed Res L C ε)}
      {mv : Move Res L C ε ι} {c' : Serial Res L C ε S ι}, Serially m starts env free l c mv c' →
      Behind m env free l c' (past ++ mv.deeds) t now →
      ∃ g c', Transition.Run (Serially m starts env free l) c g c' ∧
        Behind m env free l c' (past ++ serialDeeds g) t now := fun hmv h =>
    ⟨[_], _, Transition.Run.single hmv, by simpa [serialDeeds] using h⟩
  cases hstep with
  | @start i p hcode hp =>
      have hinside : s.inside l i = false := hat hcode
      refine hmove (.start ((hb.code_eq hinside).trans hcode) hp) ?_
      refine hb.beside hinside fun x hx => ?_
      rw [List.mem_singleton.1 hx]
      rfl
  | @op i o next hcode =>
      have hkind : free o = !s.inside l i := (hat hcode).1
      cases hinside : s.inside l i with
      | true =>
          rw [hinside] at hkind
          exact hstay (hb.perform hcode (State.inside_iff.1 hinside) hkind)
      | false =>
          rw [hinside] at hkind
          rcases happart o hkind s.shared c.shared with ⟨hanswer, hshared⟩
          -- the shared state of the stretches is another one, but a free operation does not see it
          rw [hanswer, hshared]
          refine hmove (.apart ((hb.code_eq hinside).trans hcode) hkind) (hb.beside hinside ?_)
          intro x hx
          rw [List.mem_singleton.1 hx]
          exact hkind
  | lock hcode hfree =>
      rcases hat hcode with ⟨_, rfl, _⟩
      exact hstay (by simpa [Event.deeds] using hb.enter hcode .lock hfree)
  | tryLock hcode hfree => exact (hat hcode).elim
  | tryLock_failed hcode => exact (hat hcode).elim
  | unlock hcode hown =>
      rcases hat hcode with ⟨_, rfl, _⟩
      rcases hb.leave hcode .unlock hown with ⟨ops, c', hmv, hbehind⟩
      exact hmove hmv (by simpa [Event.deeds, Move.deeds] using hbehind)
  | await hcode hown =>
      rcases hat hcode with ⟨_, rfl, _⟩
      rcases hb.leave hcode .await hown with ⟨ops, c', hmv, hbehind⟩
      exact hmove hmv (by simpa [Event.deeds, Move.deeds] using hbehind)
  | retake hcode hfree hr =>
      rcases hat hcode with ⟨_, rfl, _⟩
      exact hstay (by simpa [Event.deeds] using hb.enter hcode (.retake hr) hfree)
  | environment hx =>
      cases hb with
      | level hfree hshared hcodes hnow =>
          -- with the lock taken, the environment belongs to the stretch
          refine hmove (.environment (hshared ▸ hx)) (.level hfree rfl hcodes fun b => ?_)
          simpa [Event.deeds, Move.deeds] using hnow b
      | within hown hothers henters hwithin hops hnow =>
          refine hstay (.within hown hothers henters (hwithin.environment hx) hops fun b => ?_)
          simpa [Event.deeds] using hnow b

end Behind

omit [DecidableEq L] [DecidableEq ι] in
/-- What is outside the lock is known to the run of stretches. -/
theorem Behind.filterMap {Z : Type*} {f : ι × Deed Res L C ε → Option Z}
    (hf : ∀ x, x.2.isFree free = false → f x = none) (hb : Behind m env free l c past s now) :
    now.filterMap f = past.filterMap f := by
  have hkind : ∀ k : List (ι × Deed Res L C ε), k.filterMap f = (ofKind free true k).filterMap f := by
    intro k
    rw [ofKind, List.filterMap_filter]
    refine List.filterMap_congr fun x _ => ?_
    cases hx : x.2.isFree free with
    | true => rfl
    | false => exact hf x hx
  cases hb with
  | level _ _ _ hnow => rw [hkind now, hnow true, ← hkind past]
  | @within i p ops _ _ _ _ hops hnow =>
      have hnone : ofKind free true (operations i ops : List (ι × Deed Res L C ε)) = [] := by
        refine ofKind_of_none fun x hx => ?_
        rcases List.mem_map.1 hx with ⟨a, ha, rfl⟩
        change free a.1 ≠ true
        rw [hops a ha]
        exact Bool.false_ne_true
      rw [hkind now, hnow true, ofKind_append, hnone, List.append_nil, ← hkind past]

/-- Any interleaving is a run of stretches, up to where the thread with the lock is in its own: an
account of the runs of stretches, to which every step adds, is one of the interleavings. -/
theorem serial {G : Type*} (J : List (ι × Deed Res L C ε) → List G → Serial Res L C ε S ι → Prop)
    (happart : m.Apart free) (hstarts : ∀ i p, starts i p → Locks.Sectioned free l false p false)
    {x : S} (hstart : J [] [] (Serial.idle x))
    (hkeep : ∀ past g c mv c', J past g c → Serially m starts env free l c mv c' →
      ∃ g', J (past ++ mv.deeds) (g ++ g') c')
    {h : List (Event Res L C ε ι)} (hrun : Transition.Run (Step m starts env) (State.idle x) h s) :
    ∃ g, (∃ past c, J past g c ∧ Behind m env free l c past s (deeds h)) ∧ ∀ h₁ h₂, h = h₁ ++ h₂ →
      ∃ g₁ t, g₁ <+: g ∧ Transition.Run (Step m starts env) (State.idle x) h₁ t ∧
        Transition.Run (Step m starts env) t h₂ s ∧
        ∃ past c, J past g₁ c ∧ Behind m env free l c past t (deeds h₁) := by
  let I := fun (h : List (Event Res L C ε ι)) (g : List G) (s : State Res L C ε S ι) =>
    s.Sectioned free l ∧ ∃ past c, J past g c ∧ Behind m env free l c past s (deeds h)
  have hmoves : ∀ {past g c ms c'}, J past g c → Transition.Run (Serially m starts env free l) c ms c' →
      ∃ g', J (past ++ serialDeeds ms) (g ++ g') c' := by
    intro past g c ms c' hJ hmoves
    induction hmoves with
    | nil => exact ⟨[], by simpa [serialDeeds] using hJ⟩
    | snoc mv _ hmv ih =>
        rcases ih with ⟨g', hJ'⟩
        rcases hkeep _ _ _ mv _ hJ' hmv with ⟨g'', hJ''⟩
        exact ⟨g' ++ g'', by simpa [serialDeeds, List.append_assoc] using hJ''⟩
  -- the account of the moves, and how far behind they are, is an account of the steps
  have hI : I [] [] (State.idle x) :=
    ⟨fun i => rfl, [], Serial.idle x, hstart, .level rfl rfl rfl fun b => rfl⟩
  have hIkeep : ∀ h g t e u, I h g t → Step m starts env t e u → ∃ g', I (h ++ [e]) (g ++ g') u := by
    rintro h g t e u ⟨hs, past, c, hJ, hb⟩ hstep
    rcases hb.step happart hs hstep with ⟨ms, c', hserial, hb'⟩
    rcases hmoves hJ hserial with ⟨g', hJ'⟩
    refine ⟨g', hs.step hstarts hstep, _, c', hJ', ?_⟩
    rw [deeds, List.flatMap_append, List.flatMap_singleton]
    exact hb'
  rcases hrun.account I hI hIkeep with ⟨g, ⟨_, hexplained⟩, hcuts⟩
  refine ⟨g, hexplained, fun h₁ h₂ hcut => ?_⟩
  rcases hcuts h₁ h₂ hcut with ⟨g₁, t, hprefix, hrun₁, hrun₂, _, hexplained₁⟩
  exact ⟨g₁, t, hprefix, hrun₁, hrun₂, hexplained₁⟩

end Interleavings

end Locks
