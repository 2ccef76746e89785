import Mathlib.Data.List.Basic

/-!
# Nesting — properly nested tokens, and cutting one kind of element out of them

A `Forest` is a sequence of leaves and of elements, each with a start token, an inside that is a
forest again, and a stop token.  A single pass over the tokens with a depth counter (`prune`)
removes every outermost target element with everything inside; this is what it does to a flattened
forest, whatever the tokens are.
-/

namespace Nesting

universe u

inductive Forest (α : Type u) where
  | nil
  | leaf (x : α) (rest : Forest α)
  | element (start : α) (inside : Forest α) (stop : α) (rest : Forest α)

inductive Tag
  | start (target : Bool)
  | stop
  | other
  deriving DecidableEq

variable {α : Type u}

namespace Forest

def flatten : Forest α → List α
  | nil => []
  | leaf x rest => x :: rest.flatten
  | element start inside stop rest => start :: (inside.flatten ++ stop :: rest.flatten)

/-- The tokens are what they stand for. -/
def Tagged (tag : α → Tag) : Forest α → Prop
  | nil => True
  | leaf x rest => tag x = .other ∧ rest.Tagged tag
  | element start inside stop rest =>
      (∃ target, tag start = .start target) ∧ inside.Tagged tag ∧ tag stop = .stop ∧
        rest.Tagged tag

/-- The number of target elements that lie in no other target element. -/
def outermost (tag : α → Tag) : Forest α → Nat
  | nil => 0
  | leaf _ rest => rest.outermost tag
  | element start inside _ rest =>
      (if tag start = .start true then 1 else inside.outermost tag) + rest.outermost tag

/-- The forest without its target elements. -/
def strip (tag : α → Tag) : Forest α → Forest α
  | nil => nil
  | leaf x rest => leaf x (rest.strip tag)
  | element start inside stop rest =>
      if tag start = .start true then rest.strip tag
      else element start (inside.strip tag) stop (rest.strip tag)

end Forest

/-- What the pass has seen: the tokens kept, the outermost targets removed, and how many elements
are open since the target it is in. -/
structure Pruned (α : Type u) where
  kept : List α
  removed : Nat
  depth : Nat

def pruneStep (tag : α → Tag) (s : Pruned α) (x : α) : Pruned α :=
  match tag x with
  | .start target =>
      if s.depth ≠ 0 ∨ target = true then
        { s with removed := if s.depth = 0 then s.removed + 1 else s.removed, depth := s.depth + 1 }
      else { s with kept := s.kept ++ [x] }
  | .stop =>
      if s.depth ≠ 0 then { s with depth := s.depth - 1 } else { s with kept := s.kept ++ [x] }
  | .other => if s.depth ≠ 0 then s else { s with kept := s.kept ++ [x] }

def prune (tag : α → Tag) (s : Pruned α) (tokens : List α) : Pruned α :=
  tokens.foldl (pruneStep tag) s

variable {tag : α → Tag}

@[simp] theorem prune_nil (s : Pruned α) : prune tag s [] = s := rfl

@[simp] theorem prune_cons (s : Pruned α) (x : α) (tokens : List α) :
    prune tag s (x :: tokens) = prune tag (pruneStep tag s x) tokens := rfl

@[simp] theorem prune_append (s : Pruned α) (front rest : List α) :
    prune tag s (front ++ rest) = prune tag (prune tag s front) rest := by
  simp [prune]

/-- Tokens that open and close nothing are kept. -/
theorem prune_others (tokens : List α) (hother : ∀ x ∈ tokens, tag x = .other) (kept : List α)
    (removed : Nat) : prune tag ⟨kept, removed, 0⟩ tokens = ⟨kept ++ tokens, removed, 0⟩ := by
  induction tokens generalizing kept with
  | nil => simp
  | cons x tokens ih =>
      have hx : tag x = .other := hother x (List.mem_cons_self ..)
      have hstep : pruneStep tag ⟨kept, removed, 0⟩ x = ⟨kept ++ [x], removed, 0⟩ := by
        simp [pruneStep, hx]
      rw [prune_cons, hstep, ih fun y hy => hother y (List.mem_cons_of_mem x hy)]
      simp

/-- Inside a target nothing is kept, and the depth comes back to what it was. -/
theorem prune_inside (f : Forest α) (htagged : f.Tagged tag) (s : Pruned α) (hdepth : s.depth ≠ 0) :
    prune tag s f.flatten = s := by
  induction f generalizing s with
  | nil => rfl
  | leaf x rest ih =>
      rcases htagged with ⟨hx, hrest⟩
      have hstep : pruneStep tag s x = s := by simp [pruneStep, hx, hdepth]
      rw [Forest.flatten, prune_cons, hstep]
      exact ih hrest s hdepth
  | element start inside stop rest ihInside ihRest =>
      rcases htagged with ⟨⟨target, hstart⟩, hinside, hstop, hrest⟩
      have hopen : pruneStep tag s start = { s with depth := s.depth + 1 } := by
        simp [pruneStep, hstart, hdepth]
      have hclose : pruneStep tag { s with depth := s.depth + 1 } stop = s := by
        simp [pruneStep, hstop]
      have hinner := ihInside hinside { s with depth := s.depth + 1 } (Nat.succ_ne_zero s.depth)
      calc
        prune tag s (Forest.element start inside stop rest).flatten
            = prune tag (prune tag { s with depth := s.depth + 1 } inside.flatten)
                (stop :: rest.flatten) := by simp only [Forest.flatten, prune_cons, prune_append, hopen]
        _ = prune tag { s with depth := s.depth + 1 } (stop :: rest.flatten) := by rw [hinner]
        _ = prune tag s rest.flatten := by rw [prune_cons, hclose]
        _ = s := ihRest hrest s hdepth

/-- Outside of targets the pass keeps the stripped forest and counts the outermost targets. -/
theorem prune_flatten (f : Forest α) (htagged : f.Tagged tag) (kept : List α) (removed : Nat) :
    prune tag ⟨kept, removed, 0⟩ f.flatten =
      ⟨kept ++ (f.strip tag).flatten, removed + f.outermost tag, 0⟩ := by
  induction f generalizing kept removed with
  | nil => simp [Forest.flatten, Forest.strip, Forest.outermost]
  | leaf x rest ih =>
      rcases htagged with ⟨hx, hrest⟩
      have hstep : pruneStep tag ⟨kept, removed, 0⟩ x = ⟨kept ++ [x], removed, 0⟩ := by
        simp [pruneStep, hx]
      rw [Forest.flatten, prune_cons, hstep, ih hrest]
      simp [Forest.strip, Forest.flatten, Forest.outermost]
  | element start inside stop rest ihInside ihRest =>
      rcases htagged with ⟨⟨target, hstart⟩, hinside, hstop, hrest⟩
      -- a target is passed over as a whole; any other element is kept and gone into
      cases target with
      | true =>
          have hopen : pruneStep tag ⟨kept, removed, 0⟩ start = ⟨kept, removed + 1, 1⟩ := by
            simp [pruneStep, hstart]
          have hclose : pruneStep tag ⟨kept, removed + 1, 1⟩ stop = ⟨kept, removed + 1, 0⟩ := by
            simp [pruneStep, hstop]
          have hinner := prune_inside inside hinside ⟨kept, removed + 1, 1⟩ Nat.one_ne_zero
          -- everything up to the stop of the target is passed over
          have hpassed : prune tag ⟨kept, removed, 0⟩ (start :: (inside.flatten ++ [stop])) =
              ⟨kept, removed + 1, 0⟩ := by
            simp only [prune_cons, prune_append, hopen, hinner, hclose, prune_nil]
          calc
            prune tag ⟨kept, removed, 0⟩ (Forest.element start inside stop rest).flatten
                = prune tag ⟨kept, removed + 1, 0⟩ rest.flatten := by
                  rw [← hpassed, ← prune_append]
                  simp [Forest.flatten]
            _ = ⟨kept ++ (rest.strip tag).flatten, removed + 1 + rest.outermost tag, 0⟩ :=
                  ihRest hrest kept (removed + 1)
            _ = _ := by simp [Forest.strip, Forest.outermost, hstart, Nat.add_assoc]
      | false =>
          have hopen : pruneStep tag ⟨kept, removed, 0⟩ start = ⟨kept ++ [start], removed, 0⟩ := by
            simp [pruneStep, hstart]
          have hclose : ∀ kept' removed', pruneStep tag ⟨kept', removed', 0⟩ stop =
              ⟨kept' ++ [stop], removed', 0⟩ := by
            intro kept' removed'
            simp [pruneStep, hstop]
          have hinner := ihInside hinside (kept ++ [start]) removed
          calc
            prune tag ⟨kept, removed, 0⟩ (Forest.element start inside stop rest).flatten
                = prune tag (prune tag ⟨kept ++ [start], removed, 0⟩ inside.flatten)
                    (stop :: rest.flatten) := by
                  simp only [Forest.flatten, prune_cons, prune_append, hopen]
            _ = prune tag ⟨kept ++ [start] ++ (inside.strip tag).flatten ++ [stop],
                  removed + inside.outermost tag, 0⟩ rest.flatten := by
                  rw [hinner, prune_cons, hclose]
            _ = _ := by
                  rw [ihRest hrest]
                  simp [Forest.strip, Forest.flatten, Forest.outermost, hstart, Nat.add_assoc]

/-! ## The stripped forest -/

namespace Forest

theorem strip_tagged (f : Forest α) (htagged : f.Tagged tag) : (f.strip tag).Tagged tag := by
  induction f with
  | nil => trivial
  | leaf x rest ih => exact ⟨htagged.1, ih htagged.2⟩
  | element start inside stop rest ihInside ihRest =>
      rcases htagged with ⟨hstart, hinside, hstop, hrest⟩
      by_cases htarget : tag start = .start true
      · simpa [strip, htarget] using ihRest hrest
      · simpa [strip, htarget] using ⟨hstart, ihInside hinside, hstop, ihRest hrest⟩

/-- No target is left, at any depth. -/
theorem strip_free (f : Forest α) (htagged : f.Tagged tag) :
    ∀ x ∈ (f.strip tag).flatten, tag x ≠ .start true := by
  induction f with
  | nil => simp [strip, flatten]
  | leaf x rest ih =>
      intro y hy
      rcases List.mem_cons.1 hy with rfl | hy
      · simp [htagged.1]
      · exact ih htagged.2 y hy
  | element start inside stop rest ihInside ihRest =>
      rcases htagged with ⟨_, hinside, hstop, hrest⟩
      intro y hy
      by_cases htarget : tag start = .start true
      · rw [strip, if_pos htarget] at hy
        exact ihRest hrest y hy
      · rw [strip, if_neg htarget, flatten] at hy
        rcases List.mem_cons.1 hy with rfl | hy
        · exact htarget
        · rcases List.mem_append.1 hy with hy | hy
          · exact ihInside hinside y hy
          · rcases List.mem_cons.1 hy with rfl | hy
            · simp [hstop]
            · exact ihRest hrest y hy

theorem strip_outermost (f : Forest α) : (f.strip tag).outermost tag = 0 := by
  induction f with
  | nil => rfl
  | leaf x rest ih => exact ih
  | element start inside stop rest ihInside ihRest =>
      by_cases htarget : tag start = .start true
      · rw [strip, if_pos htarget]
        exact ihRest
      · rw [strip, if_neg htarget, outermost, if_neg htarget, ihInside, ihRest]

theorem strip_of_none (f : Forest α) (hnone : f.outermost tag = 0) : f.strip tag = f := by
  induction f with
  | nil => rfl
  | leaf x rest ih => rw [strip, ih hnone]
  | element start inside stop rest ihInside ihRest =>
      by_cases htarget : tag start = .start true
      · simp [outermost, htarget] at hnone
      · simp only [outermost, htarget, if_false, Nat.add_eq_zero_iff] at hnone
        simp [strip, htarget, ihInside hnone.1, ihRest hnone.2]

theorem strip_sublist (f : Forest α) : (f.strip tag).flatten.Sublist f.flatten := by
  induction f with
  | nil => exact List.Sublist.refl _
  | leaf x rest ih => exact ih.cons_cons x
  | element start inside stop rest ihInside ihRest =>
      by_cases htarget : tag start = .start true
      · rw [strip, if_pos htarget, flatten]
        refine List.Sublist.cons start ?_
        exact ((ihRest.cons stop).trans (List.sublist_append_right inside.flatten _))
      · rw [strip, if_neg htarget, flatten, flatten]
        exact (ihInside.append (ihRest.cons_cons stop)).cons_cons start

/-- A forest with one outermost target is that element between two stretches of tokens, and
stripping it joins the two. -/
theorem strip_one (f : Forest α) (htagged : f.Tagged tag) (hone : f.outermost tag = 1) :
    ∃ before start inside stop after,
      tag start = .start true ∧ Tagged tag inside ∧ tag stop = .stop ∧
        f.flatten = before ++ (start :: (flatten inside ++ [stop])) ++ after ∧
        (f.strip tag).flatten = before ++ after := by
  induction f with
  | nil => simp [outermost] at hone
  | leaf x rest ih =>
      rcases ih htagged.2 hone with
        ⟨before, start, inside, stop, after, htarget, hinside, hstop, hflat, hstrip⟩
      exact ⟨x :: before, start, inside, stop, after, htarget, hinside, hstop,
        by simp [flatten, hflat], by simp [strip, flatten, hstrip]⟩
  | element s i e rest ihInside ihRest =>
      rcases htagged with ⟨_, htaggedInside, htaggedStop, htaggedRest⟩
      by_cases htarget : tag s = .start true
      -- this element is the one target, so nothing behind it is
      · simp only [outermost, htarget, if_true] at hone
        have hnone : rest.outermost tag = 0 := by omega
        refine ⟨[], s, i, e, rest.flatten, htarget, htaggedInside, htaggedStop, by simp [flatten], ?_⟩
        simp [strip, htarget, strip_of_none rest hnone]
      · simp only [outermost, htarget, if_false] at hone
        -- the one target lies inside this element or behind it
        by_cases hinsideOne : i.outermost tag = 1
        · have hnone : rest.outermost tag = 0 := by omega
          rcases ihInside htaggedInside hinsideOne with
            ⟨before, start, inside, stop, after, htarget', hinside, hstop, hflat, hstrip⟩
          refine ⟨s :: before, start, inside, stop, after ++ e :: rest.flatten, htarget', hinside,
            hstop, ?_, ?_⟩
          · simp [flatten, hflat]
          · simp [strip, htarget, flatten, hstrip, strip_of_none rest hnone]
        · have hnone : i.outermost tag = 0 := by omega
          rcases ihRest htaggedRest (by omega) with
            ⟨before, start, inside, stop, after, htarget', hinside, hstop, hflat, hstrip⟩
          refine ⟨s :: (i.flatten ++ e :: before), start, inside, stop, after, htarget', hinside,
            hstop, ?_, ?_⟩
          · simp [flatten, hflat]
          · simp [strip, htarget, flatten, hstrip, strip_of_none i hnone]

end Forest

/-! ## Tokens in any order

A start may lack its stop and a stop its start.  When the pass ends outside of targets and has
removed one, what it removed is one closed range. -/

/-- How many elements are open after a token. -/
def levelStep (tag : α → Tag) (depth : Nat) (x : α) : Nat :=
  match tag x with
  | .start _ => depth + 1
  | .stop => depth - 1
  | .other => depth

def level (tag : α → Tag) (depth : Nat) (tokens : List α) : Nat := tokens.foldl (levelStep tag) depth

@[simp] theorem level_cons (depth : Nat) (x : α) (tokens : List α) :
    level tag depth (x :: tokens) = level tag (levelStep tag depth x) tokens := rfl

/-- From the start of a target to the token that closes it. -/
structure Closed (tag : α → Tag) (range : List α) : Prop where
  opens : ∃ x rest, range = x :: rest ∧ tag x = .start true
  inside : ∀ n, 0 < n → n < range.length → 0 < level tag 0 (range.take n)
  closes : level tag 0 range = 0

/-- Inside a target a token changes the depth, and nothing else. -/
theorem pruneStep_inside (s : Pruned α) (hdepth : s.depth ≠ 0) (x : α) :
    pruneStep tag s x = { s with depth := levelStep tag s.depth x } := by
  rw [pruneStep, levelStep]
  cases tag x with
  | start target => simp [hdepth]
  | stop => simp [hdepth]
  | other => simp [hdepth]

/-- Outside of targets every other token is kept. -/
theorem pruneStep_outside (kept : List α) (removed : Nat) {x : α} (hx : tag x ≠ .start true) :
    pruneStep tag ⟨kept, removed, 0⟩ x = ⟨kept ++ [x], removed, 0⟩ := by
  rw [pruneStep]
  cases htag : tag x with
  | start target =>
      have htarget : target = false := by
        cases target with
        | false => rfl
        | true => exact absurd htag hx
      simp [htarget]
  | stop => simp
  | other => simp

theorem pruneStep_target (kept : List α) (removed : Nat) {x : α} (hx : tag x = .start true) :
    pruneStep tag ⟨kept, removed, 0⟩ x = ⟨kept, removed + 1, 1⟩ := by
  simp [pruneStep, hx]

theorem removed_le (tokens : List α) (s : Pruned α) : s.removed ≤ (prune tag s tokens).removed := by
  induction tokens generalizing s with
  | nil => exact Nat.le_refl _
  | cons x tokens ih =>
      refine Nat.le_trans ?_ (ih (pruneStep tag s x))
      by_cases hdepth : s.depth = 0
      · by_cases hx : tag x = .start true
        · simp [pruneStep, hx, hdepth]
        · rcases s with ⟨kept, removed, depth⟩
          cases hdepth
          exact Nat.le_of_eq (congrArg Pruned.removed (pruneStep_outside kept removed hx)).symm
      · exact Nat.le_of_eq (congrArg Pruned.removed (pruneStep_inside s hdepth x)).symm

/-- A pass that removes nothing keeps everything. -/
theorem prune_none {tokens : List α} {kept kept' : List α} {removed : Nat}
    (h : prune tag ⟨kept, removed, 0⟩ tokens = ⟨kept', removed, 0⟩) :
    kept' = kept ++ tokens ∧ ∀ x ∈ tokens, tag x ≠ .start true := by
  induction tokens generalizing kept with
  | nil =>
      cases h
      exact ⟨(List.append_nil _).symm, fun _ hx => by cases hx⟩
  | cons x tokens ih =>
      have hx : tag x ≠ .start true := by
        intro hx
        have hle : removed + 1 ≤ (prune tag ⟨kept, removed + 1, 1⟩ tokens).removed :=
          removed_le tokens ⟨kept, removed + 1, 1⟩
        rw [prune_cons, pruneStep_target kept removed hx] at h
        rw [h] at hle
        exact absurd hle (Nat.not_succ_le_self removed)
      rw [prune_cons, pruneStep_outside kept removed hx] at h
      rcases ih h with ⟨hkept, hothers⟩
      refine ⟨by rw [hkept, List.append_assoc]; rfl, fun y hy => ?_⟩
      rcases List.mem_cons.1 hy with rfl | hy
      · exact hx
      · exact hothers y hy

/-- A target that is left was closed. -/
theorem prune_leaves {tokens : List α} {kept kept' : List α} {removed removed' depth : Nat}
    (h : prune tag ⟨kept, removed, depth + 1⟩ tokens = ⟨kept', removed', 0⟩) :
    ∃ inside rest, tokens = inside ++ rest ∧ level tag (depth + 1) inside = 0 ∧
      (∀ n < inside.length, 0 < level tag (depth + 1) (inside.take n)) ∧
      prune tag ⟨kept, removed, 0⟩ rest = ⟨kept', removed', 0⟩ := by
  induction tokens generalizing depth with
  | nil => cases h
  | cons x tokens ih =>
      rw [prune_cons, pruneStep_inside _ (Nat.succ_ne_zero depth)] at h
      cases hlevel : levelStep tag (depth + 1) x with
      | zero =>
          rw [hlevel] at h
          refine ⟨[x], tokens, rfl, hlevel, fun n hn => ?_, h⟩
          have hzero : n = 0 := Nat.lt_one_iff.1 hn
          rw [hzero]
          exact Nat.succ_pos depth
      | succ d =>
          rw [hlevel] at h
          rcases ih h with ⟨inside, rest, rfl, hcloses, hinside, hrest⟩
          refine ⟨x :: inside, rest, rfl, by rw [level_cons, hlevel, hcloses], fun n hn => ?_, hrest⟩
          cases n with
          | zero => exact Nat.succ_pos depth
          | succ n =>
              rw [List.take_succ_cons, level_cons, hlevel]
              exact hinside n (Nat.lt_of_succ_lt_succ hn)

/-- A pass that ends outside of targets after one is the pass over one closed range. -/
theorem prune_one {tokens kept : List α} {seen : List α}
    (h : prune tag ⟨seen, 0, 0⟩ tokens = ⟨kept, 1, 0⟩) :
    ∃ front range back, tokens = front ++ range ++ back ∧ Closed tag range ∧
      kept = seen ++ (front ++ back) ∧ ∀ x ∈ front ++ back, tag x ≠ .start true := by
  induction tokens generalizing seen with
  | nil => cases h
  | cons x tokens ih =>
      by_cases hx : tag x = .start true
      · rw [prune_cons, pruneStep_target seen 0 hx] at h
        rcases prune_leaves h with ⟨inside, back, rfl, hcloses, hinside, hback⟩
        rcases prune_none hback with ⟨hkept, hothers⟩
        have hone : levelStep tag 0 x = 1 := by rw [levelStep, hx]
        refine ⟨[], x :: inside, back, rfl, ⟨⟨x, inside, rfl, hx⟩, fun n hpos hn => ?_, ?_⟩, hkept,
          hothers⟩
        · cases n with
          | zero => cases hpos
          | succ n =>
              rw [List.take_succ_cons, level_cons, hone]
              exact hinside n (Nat.lt_of_succ_lt_succ hn)
        · rw [level_cons, hone, hcloses]
      · rw [prune_cons, pruneStep_outside seen 0 hx] at h
        rcases ih h with ⟨front, range, back, rfl, hclosed, hkept, hothers⟩
        refine ⟨x :: front, range, back, rfl, hclosed, by rw [hkept, List.append_assoc]; rfl,
          fun y hy => ?_⟩
        rcases List.mem_cons.1 hy with rfl | hy
        · exact hx
        · exact hothers y hy

end Nesting
