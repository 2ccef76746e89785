import M2391Device.Lib.Run
import Mathlib.Data.Nat.Find

/-!
# History — the latest event of a kind, and runs cut at a position

`Latest h stale i e` says that `e` stands at position `i` of the history and that nothing after it
is `stale`.  With `stale` the events that overwrite what `e` announced, this is how a theorem
names *the* event that is still in force, and two such events are always the same one.
-/

namespace Transition

universe u v

variable {State : Type u} {Event : Type v}

/-- What stands in a history after one more event stood there before, or is that event. -/
theorem getElem?_snoc_cases {h : List Event} {e x : Event} {k : Nat}
    (hx : (h ++ [e])[k]? = some x) : h[k]? = some x ∨ k = h.length ∧ x = e := by
  rcases Nat.lt_or_ge k h.length with hlt | hge
  · rw [List.getElem?_append_left hlt] at hx
    exact Or.inl hx
  · rw [List.getElem?_append_right hge] at hx
    rcases List.getElem?_eq_some_iff.1 hx with ⟨hone, hget⟩
    have hk : k - h.length = 0 := Nat.lt_one_iff.1 hone
    simp only [hk, List.getElem_cons_zero] at hget
    exact Or.inr ⟨by omega, hget.symm⟩

def Latest (h : List Event) (stale : Event → Prop) (i : Nat) (e : Event) : Prop :=
  h[i]? = some e ∧ ∀ m x, i < m → h[m]? = some x → ¬ stale x

namespace Latest

variable {h : List Event} {stale : Event → Prop} {i j : Nat} {e f x : Event}

theorem lt_length (hl : Latest h stale i e) : i < h.length :=
  (List.getElem?_eq_some_iff.1 hl.1).1

theorem snoc_new : Latest (h ++ [e]) stale h.length e := by
  refine ⟨by simp, ?_⟩
  intro m x hm hx
  rcases getElem?_snoc_cases hx with hold | ⟨rfl, _⟩
  · exact absurd (List.getElem?_eq_some_iff.1 hold).1 (Nat.not_lt_of_lt hm)
  · exact absurd hm (Nat.lt_irrefl _)

theorem snoc_keep (hl : Latest h stale i e) (hx : ¬ stale x) : Latest (h ++ [x]) stale i e := by
  refine ⟨?_, ?_⟩
  · rw [List.getElem?_append_left hl.lt_length]
    exact hl.1
  · intro m y hm hy
    rcases getElem?_snoc_cases hy with hold | ⟨_, rfl⟩
    · exact hl.2 m y hm hold
    · exact hx

/-- A stale event cannot come later than the event that is in force. -/
theorem le_of_stale (hl : Latest h stale i e) (hf : h[j]? = some f) (hstale : stale f) :
    j ≤ i := by
  by_contra hlt
  exact hl.2 j f (Nat.lt_of_not_le hlt) hf hstale

theorem unique (hl : Latest h stale i e) (hl' : Latest h stale j f)
    (he : stale e) (hf : stale f) : i = j :=
  Nat.le_antisymm (hl'.le_of_stale hl.1 he) (hl.le_of_stale hl'.1 hf)

end Latest

variable {step : State → Event → State → Prop} {s u : State} {h : List Event} {e : Event} {k : Nat}

/-- The step at position `k` of a run. -/
theorem Run.atIndex (hrun : Run step s h u) (hk : h[k]? = some e) :
    ∃ t t', Run step s (h.take k) t ∧ step t e t' ∧ Run step t' (h.drop (k + 1)) u := by
  rcases List.getElem?_eq_some_iff.1 hk with ⟨hlt, hget⟩
  have hsplit : h = h.take k ++ e :: h.drop (k + 1) := by
    rw [← hget, ← List.drop_eq_getElem_cons hlt, List.take_append_drop]
  rw [hsplit] at hrun
  exact hrun.atEvent

/-- A position before the cut is the same position of the whole history. -/
theorem getElem?_of_take {i : Nat} (hi : (h.take k)[i]? = some e) :
    i < k ∧ h[i]? = some e := by
  rw [List.getElem?_take] at hi
  by_cases hik : i < k
  · rw [if_pos hik] at hi
    exact ⟨hik, hi⟩
  · rw [if_neg hik] at hi
    cases hi

theorem getElem?_take_of_lt {i : Nat} (hik : i < k) (hi : h[i]? = some e) :
    (h.take k)[i]? = some e := by
  rw [List.getElem?_take, if_pos hik]
  exact hi

/-- The history up to and including a position. -/
theorem take_succ_eq (hk : h[k]? = some e) : h.take (k + 1) = h.take k ++ [e] := by
  rw [List.take_add_one, hk]
  rfl

/-- If of two positions of a kind none can come first, the kind has one position at most. -/
theorem eq_of_never_before {P : Nat → Prop} (hnever : ∀ i j, P i → P j → ¬ i < j) {i j : Nat}
    (hi : P i) (hj : P j) : i = j := by
  have hij := hnever i j hi hj
  have hji := hnever j i hj hi
  omega

/-- If an event of a kind follows position `j` at all, there is a first one that does. -/
theorem exists_first_after {P : Event → Prop} {j m : Nat} (hjm : j < m) (hm : h[m]? = some e)
    (hP : P e) :
    ∃ k f, j < k ∧ h[k]? = some f ∧ P f ∧ ∀ m y, j < m → m < k → h[m]? = some y → ¬ P y := by
  classical
  have hexists : ∃ k, j < k ∧ ∃ f, h[k]? = some f ∧ P f := ⟨m, hjm, e, hm, hP⟩
  rcases Nat.find_spec hexists with ⟨hjk, f, hf, hPf⟩
  refine ⟨Nat.find hexists, f, hjk, hf, hPf, ?_⟩
  intro l y hjl hlk hy hPy
  exact Nat.find_min hexists hlk ⟨hjl, y, hy, hPy⟩

end Transition
