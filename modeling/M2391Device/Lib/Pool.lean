import M2391Device.Lib.History

/-!
# Pool — the threads of a process, in the order of their start

A pool is a list with the control point of every thread that was ever started.  A start puts one at
the end, and a step of a thread replaces its own.  `Each P pool` says `P i p` of each thread `i` and
its control point `p`.
-/

namespace Pool

universe u

variable {α : Type u} {pool : List α} {P Q : Nat → α → Prop} {i j : Nat} {p q : α}

/-- A thread of the pool after a step is the one that made it or another one. -/
theorem set_cases (hq : (pool.set i p)[j]? = some q) :
    j = i ∧ q = p ∨ j ≠ i ∧ pool[j]? = some q := by
  rw [List.getElem?_set] at hq
  split at hq
  · split at hq
    · cases hq
      exact Or.inl ⟨Eq.symm ‹_›, rfl⟩
    · cases hq
  · exact Or.inr ⟨Ne.symm ‹_›, hq⟩

def Each (P : Nat → α → Prop) (pool : List α) : Prop := ∀ i p, pool[i]? = some p → P i p

namespace Each

theorem nil : Each P [] := by
  intro i p hp
  cases hp

theorem imp (hpool : Each P pool) (hPQ : ∀ i p, pool[i]? = some p → P i p → Q i p) :
    Each Q pool :=
  fun i p hp => hPQ i p hp (hpool i p hp)

theorem spawn (hpool : Each P pool) (hp : P pool.length p) : Each P (pool ++ [p]) := by
  intro j q hq
  rcases Transition.getElem?_snoc_cases hq with hold | ⟨rfl, rfl⟩
  · exact hpool j q hold
  · exact hp

/-- What a step of the thread `i` establishes for itself and leaves to the others. -/
theorem set (hothers : ∀ j q, j ≠ i → pool[j]? = some q → Q j q) (hp : Q i p) :
    Each Q (pool.set i p) := by
  intro j q hq
  rcases set_cases hq with ⟨rfl, rfl⟩ | ⟨hji, hold⟩
  · exact hp
  · exact hothers j q hji hold

end Each

end Pool
