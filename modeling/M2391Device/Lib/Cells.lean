import Mathlib.Data.List.Basic

/-!
# Cells — what a sequence of attempted writes leaves in each cell

A write names a value and a cell, and is accepted or not.  A cell holds the value of the last write
to it that was accepted (`lastAccepted`), so what a sequence leaves behind is read off its parts
(`lastAccepted_append`).
-/

universe u v

namespace Cells

variable {Value : Type u} {Cell : Type v} [DecidableEq Cell]

/-- The value of the last accepted write to a cell; the writes are listed oldest first. -/
def lastAccepted : List (Value × Cell × Bool) → Cell → Option Value
  | [], _ => none
  | (value, target, accepted) :: rest, cell =>
      (lastAccepted rest cell).or
        (if target = cell ∧ accepted = true then some value else none)

variable {ws ws' : List (Value × Cell × Bool)} {cell : Cell} {value : Value}

@[simp] theorem lastAccepted_nil : lastAccepted ([] : List (Value × Cell × Bool)) cell = none := rfl

theorem lastAccepted_append :
    lastAccepted (ws ++ ws') cell = (lastAccepted ws' cell).or (lastAccepted ws cell) := by
  induction ws with
  | nil => simp
  | cons x ws ih => simp only [List.cons_append, lastAccepted, ih, Option.or_assoc]

/-- What a cell holds was written to it. -/
theorem mem_of_lastAccepted (h : lastAccepted ws cell = some value) : (value, cell, true) ∈ ws := by
  induction ws with
  | nil => cases h
  | cons x ws ih =>
      rcases x with ⟨value', target, accepted⟩
      rw [lastAccepted, Option.or_eq_some_iff] at h
      rcases h with hrest | ⟨_, hfirst⟩
      · exact List.mem_cons_of_mem _ (ih hrest)
      · by_cases hwrite : target = cell ∧ accepted = true
        · rw [if_pos hwrite] at hfirst
          rcases hwrite with ⟨rfl, rfl⟩
          cases hfirst
          exact List.mem_cons_self
        · rw [if_neg hwrite] at hfirst
          cases hfirst

/-- A cell that was written holds something. -/
theorem lastAccepted_ne_none (h : (value, cell, true) ∈ ws) : lastAccepted ws cell ≠ none := by
  induction ws with
  | nil => cases h
  | cons x ws ih =>
      intro hnone
      rcases x with ⟨value', target, accepted⟩
      rw [lastAccepted, Option.or_eq_none_iff] at hnone
      rcases List.mem_cons.1 h with heq | hrest
      · cases heq
        simp at hnone
      · exact ih hrest hnone.1

end Cells
