import M2391Device.Lib.Sections

/-!
# Calls — what is served, and what clients hear of it

A client begins a program for each of its requests, which is served in at most one section under the
lock, and tells the answer with its last operation, outside the lock.  A `Stage` says how far a client is
against an account of what was served: it waits for one request at most, and has one answer at most
still to hear.
-/

universe u v w x y

namespace Locks

variable {O : Type u} {L : Type v} {C : Type w} {Res : O → Type} {ε : Type} {S : Type x} {ι : Type y}
  {X Y : Type}

/-- How requests and answers show in a thread. -/
structure Calls (Res : O → Type) (L : Type v) (C : Type w) (ε : Type) (X Y : Type) where
  program : X → Thread Res L C ε Unit
  tell : Y → O
  told : O → Option Y
  told_tell : ∀ y, told (tell y) = some y
  busy : ∀ x, program x ≠ .pure ()

/-- What is left of a call once the lock is given up. -/
def Calls.telling (k : Calls Res L C ε X Y) (y : Y) : Thread Res L C ε Unit :=
  .perform (.op (k.tell y)) fun _ => .pure ()

section Clients

variable [DecidableEq ι]

/-- The programs that a thread began. -/
def begun (i : ι) (l : List (ι × Deed Res L C ε)) : List (Thread Res L C ε Unit) :=
  l.filterMap fun
    | (j, .start p) => if j = i then some p else none
    | _ => none

/-- The answers that a thread was told. -/
def Calls.heard (k : Calls Res L C ε X Y) (i : ι) (l : List (ι × Deed Res L C ε)) : List Y :=
  l.filterMap fun
    | (j, .op a) => if j = i then k.told a.1 else none
    | _ => none

/-- Where a thread is, without the lock, of which the requests `xs` were served with the answers `ys`. -/
inductive Calls.Stage (k : Calls Res L C ε X Y) (i : ι) (xs : List X) (ys : List Y)
    (l : List (ι × Deed Res L C ε)) (p : Thread Res L C ε Unit) : Prop where
  | idle : p = .pure () → begun i l = xs.map k.program → ys = k.heard i l → Stage k i xs ys l p
  | waiting {x : X} : p = k.program x → begun i l = xs.map k.program ++ [k.program x] →
      ys = k.heard i l → Stage k i xs ys l p
  | telling {y : Y} : p = k.telling y → begun i l = xs.map k.program → ys = k.heard i l ++ [y] →
      Stage k i xs ys l p

variable {k : Calls Res L C ε X Y} {i j : ι} {xs : List X} {ys : List Y} {x : X} {y : Y}
  {l new : List (ι × Deed Res L C ε)} {p q : Thread Res L C ε Unit} {m : Machine O Res C S} {s : S}
  {lock : L} {free : O → Bool} {ops : List (Program.Answered O Res)}

theorem begun_append : begun i (l ++ new) = begun i l ++ begun i new := List.filterMap_append

theorem Calls.heard_append : k.heard i (l ++ new) = k.heard i l ++ k.heard i new :=
  List.filterMap_append

@[simp] theorem begun_start : begun i [(j, (.start p : Deed Res L C ε))] = if j = i then [p] else [] := by
  by_cases hj : j = i <;> simp [begun, hj]

@[simp] theorem begun_op (a : Program.Answered O Res) :
    begun i [(j, (.op a : Deed Res L C ε))] = [] := rfl

@[simp] theorem Calls.heard_start : k.heard i [(j, .start p)] = [] := rfl

@[simp] theorem Calls.heard_op (a : Program.Answered O Res) :
    k.heard i [(j, .op a)] = if j = i then (k.told a.1).toList else [] := by
  by_cases hj : j = i
  · cases htold : k.told a.1 <;> simp [heard, hj, htold]
  · simp [heard, hj]

/-- A section begins no program and tells nothing. -/
theorem begun_operations : begun i (operations j ops : List (ι × Deed Res L C ε)) = [] := by
  refine List.filterMap_eq_nil_iff.2 fun d hd => ?_
  rcases List.mem_map.1 hd with ⟨a, _, rfl⟩
  rfl

theorem Calls.heard_operations (htold : ∀ o, free o = false → k.told o = none)
    (hops : ∀ a ∈ ops, free a.1 = false) : k.heard i (operations j ops) = [] := by
  refine List.filterMap_eq_nil_iff.2 fun d hd => ?_
  rcases List.mem_map.1 hd with ⟨a, ha, rfl⟩
  simp [htold _ (hops a ha)]

namespace Calls.Stage

/-- What others do is nothing to it. -/
theorem other (h : k.Stage i xs ys l p) (hbegun : begun i new = []) (hheard : k.heard i new = []) :
    k.Stage i xs ys (l ++ new) p := by
  have hb : begun i (l ++ new) = begun i l := by rw [begun_append, hbegun, List.append_nil]
  have hh : k.heard i (l ++ new) = k.heard i l := by rw [heard_append, hheard, List.append_nil]
  cases h with
  | idle hp hxs hys => exact .idle hp (hb.trans hxs) (hys.trans hh.symm)
  | waiting hp hxs hys => exact .waiting hp (hb.trans hxs) (hys.trans hh.symm)
  | telling hp hxs hys => exact .telling hp (hb.trans hxs) (by rw [hh, hys])

theorem of_idle (h : k.Stage i xs ys l p) (hp : p = .pure ()) :
    begun i l = xs.map k.program ∧ ys = k.heard i l := by
  cases h with
  | idle _ hxs hys => exact ⟨hxs, hys⟩
  | waiting hp' => exact absurd (hp'.symm.trans hp) (k.busy _)
  | telling hp' => cases hp'.symm.trans hp

/-- Only a thread that waits takes the lock. -/
theorem of_enters (h : k.Stage i xs ys l p) (hp : Enters m lock s p q) :
    ∃ x, p = k.program x ∧ begun i l = xs.map k.program ++ [k.program x] ∧ ys = k.heard i l := by
  cases h with
  | idle hp' =>
      rw [hp'] at hp
      cases hp
  | waiting hp' hxs hys => exact ⟨_, hp', hxs, hys⟩
  | telling hp' =>
      rw [hp'] at hp
      cases hp

theorem start (h : k.Stage i xs ys l p) (hp : p = .pure ()) (x : X) :
    k.Stage i xs ys (l ++ [(i, .start (k.program x))]) (k.program x) := by
  rcases h.of_idle hp with ⟨hxs, hys⟩
  refine .waiting rfl ?_ ?_
  · rw [begun_append, hxs, begun_start, if_pos rfl]
  · rw [heard_append, heard_start, List.append_nil, hys]

/-- The request that was waited for is served. -/
theorem serve (hxs : begun i l = xs.map k.program ++ [k.program x]) (hys : ys = k.heard i l)
    (hbegun : begun i new = []) (hheard : k.heard i new = []) (y : Y) :
    k.Stage i (xs ++ [x]) (ys ++ [y]) (l ++ new) (k.telling y) := by
  refine .telling rfl ?_ ?_
  · rw [begun_append, hbegun, List.append_nil, hxs, List.map_append, List.map_singleton]
  · rw [heard_append, hheard, List.append_nil, hys]

theorem tell (hxs : begun i l = xs.map k.program) (hys : ys = k.heard i l ++ [y]) {r : Res (k.tell y)} :
    k.Stage i xs ys (l ++ [(i, .op ⟨k.tell y, r⟩)]) (.pure ()) := by
  refine .idle rfl ?_ ?_
  · rw [begun_append, begun_op, List.append_nil, hxs]
  · rw [heard_append, heard_op, if_pos rfl, k.told_tell, hys]
    rfl

theorem inOrder (h : k.Stage i xs ys l p) :
    ∃ waiting, begun i l = xs.map k.program ++ waiting ∧ waiting.length ≤ 1 := by
  cases h with
  | idle _ hxs => exact ⟨[], by rw [hxs, List.append_nil], Nat.zero_le 1⟩
  | waiting _ hxs => exact ⟨_, hxs, Nat.le_refl 1⟩
  | telling _ hxs => exact ⟨[], by rw [hxs, List.append_nil], Nat.zero_le 1⟩

theorem answered (h : k.Stage i xs ys l p) :
    ∃ pending, ys = k.heard i l ++ pending ∧ pending.length ≤ 1 := by
  cases h with
  | idle _ _ hys => exact ⟨[], by rw [hys, List.append_nil], Nat.zero_le 1⟩
  | waiting _ _ hys => exact ⟨[], by rw [hys, List.append_nil], Nat.zero_le 1⟩
  | telling _ _ hys => exact ⟨_, hys, Nat.le_refl 1⟩

end Calls.Stage

end Clients

/-! ## In any interleaving -/

section Interleavings

variable [DecidableEq ι] {m : Machine O Res C S} {env : S → S → Prop} {free : O → Bool} {lock : L}
  {c : Serial Res L C ε S ι} {past now : List (ι × Deed Res L C ε)} {s : State Res L C ε S ι}
  {k : Calls Res L C ε X Y}

/-- The run of stretches knows the calls that were begun, and the answers that were told. -/
theorem Behind.begun_eq (hb : Behind m env free lock c past s now) (i : ι) : begun i now = begun i past := by
  refine hb.filterMap fun d hd => ?_
  rcases d with ⟨j, p | a⟩
  · cases hd
  · rfl

theorem Behind.heard_eq (htold : ∀ o, free o = false → k.told o = none)
    (hb : Behind m env free lock c past s now) (i : ι) : k.heard i now = k.heard i past := by
  refine hb.filterMap fun d hd => ?_
  rcases d with ⟨j, p | a⟩
  · rfl
  · simp [htold a.1 hd]

end Interleavings

end Locks
