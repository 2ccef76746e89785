import Mathlib.Data.List.Basic

/-!
# Regex — backtracking regular expressions with capture groups

`Matches r u c d` says that `r` can match exactly `u`, turning the captures `c` into `d`.  It leaves
open which of several matches is taken.  `attempts` lists them in the order in which a backtracking
matcher tries them, with greedy repetition as in ECMAScript, and `fullMatch` takes the first one
that uses up the whole text.  The two agree (`fullMatch_sound`, `fullMatch_complete`), so where the
captures of a match are unique, the order of the attempts does not matter.
-/

universe u

inductive Regex (α : Type u)
  | empty
  /-- One symbol of a class. -/
  | single (accepts : α → Bool)
  | seq (r s : Regex α)
  | alt (r s : Regex α)
  | star (r : Regex α)
  /-- A group that records what it matched. -/
  | group (index : Nat) (r : Regex α)

namespace Regex

variable {α : Type u}

/-- What the groups have matched, the latest first. -/
abbrev Captures (α : Type u) := List (Nat × List α)

/-- The text of a group, empty if it took no part in the match. -/
def Captures.str (c : Captures α) (index : Nat) : List α :=
  ((c.find? fun x => x.1 == index).map Prod.snd).getD []

/-- `r+` -/
def plus (r : Regex α) : Regex α := seq r (star r)

/-- The symbols of `l`, one after the other. -/
def lit [BEq α] : List α → Regex α
  | [] => empty
  | a :: l => seq (single fun x => x == a) (lit l)

/-- All expressions, one after the other. -/
def concat : List (Regex α) → Regex α
  | [] => empty
  | r :: rs => seq r (concat rs)

/-- The groups of an expression, from left to right. -/
def groups : Regex α → List Nat
  | .empty => []
  | .single _ => []
  | .seq r s => r.groups ++ s.groups
  | .alt r s => r.groups ++ s.groups
  | .star r => r.groups
  | .group i r => i :: r.groups

/-! ## What a match is -/

inductive Matches : Regex α → List α → Captures α → Captures α → Prop where
  | empty {c : Captures α} : Matches empty [] c c
  | single {p : α → Bool} {a : α} {c : Captures α} : p a = true → Matches (single p) [a] c c
  | seq {r s : Regex α} {u v : List α} {c d e : Captures α} :
      Matches r u c d → Matches s v d e → Matches (seq r s) (u ++ v) c e
  | altLeft {r s : Regex α} {u : List α} {c d : Captures α} :
      Matches r u c d → Matches (alt r s) u c d
  | altRight {r s : Regex α} {u : List α} {c d : Captures α} :
      Matches s u c d → Matches (alt r s) u c d
  | starNil {r : Regex α} {c : Captures α} : Matches (star r) [] c c
  -- a round of a repetition uses up something
  | starCons {r : Regex α} {u v : List α} {c d e : Captures α} :
      u ≠ [] → Matches r u c d → Matches (star r) v d e → Matches (star r) (u ++ v) c e
  | group {i : Nat} {r : Regex α} {u : List α} {c d : Captures α} :
      Matches r u c d → Matches (group i r) u c ((i, u) :: d)

/-! ## The matcher -/

/-- The rounds of a repetition of `once`, the longest sequence first; `n` bounds their number. -/
def starAttempts (once : List α → Captures α → List (List α × Captures α)) :
    Nat → List α → Captures α → List (List α × Captures α)
  | 0, t, c => [(t, c)]
  | n + 1, t, c =>
      ((once t c).filter fun x => x.1.length < t.length).flatMap
        (fun x => starAttempts once n x.1 x.2) ++ [(t, c)]

/-- The ways to match the beginning of `t`, each with what is left of `t` and the captures. -/
def attempts : Regex α → List α → Captures α → List (List α × Captures α)
  | .empty, t, c => [(t, c)]
  | .single _, [], _ => []
  | .single p, a :: t, c => if p a then [(t, c)] else []
  | .seq r s, t, c => (attempts r t c).flatMap fun x => attempts s x.1 x.2
  | .alt r s, t, c => attempts r t c ++ attempts s t c
  | .star r, t, c => starAttempts (attempts r) t.length t c
  | .group i r, t, c =>
      (attempts r t c).map fun x => (x.1, (i, t.take (t.length - x.1.length)) :: x.2)

/-- The captures of the first attempt that leaves nothing over. -/
def fullMatch (r : Regex α) (t : List α) : Option (Captures α) :=
  ((attempts r t []).find? fun x => x.1.isEmpty).map Prod.snd

/-! ## The matcher finds matches, and finds one if there is any -/

theorem mem_starAttempts {r : Regex α}
    (hr : ∀ t c rest d, (rest, d) ∈ attempts r t c → ∃ u, t = u ++ rest ∧ Matches r u c d)
    {n : Nat} {t rest : List α} {c d : Captures α}
    (h : (rest, d) ∈ starAttempts (attempts r) n t c) :
    ∃ u, t = u ++ rest ∧ Matches (star r) u c d := by
  induction n generalizing t c with
  | zero =>
      simp only [starAttempts, List.mem_singleton, Prod.mk.injEq] at h
      rcases h with ⟨rfl, rfl⟩
      exact ⟨[], rfl, .starNil⟩
  | succ n ih =>
      simp only [starAttempts, List.mem_append, List.mem_flatMap, List.mem_filter,
        List.mem_singleton, Prod.mk.injEq, decide_eq_true_eq] at h
      rcases h with ⟨⟨middle, d'⟩, ⟨honce, hshorter⟩, hrest⟩ | ⟨rfl, rfl⟩
      · rcases hr t c middle d' honce with ⟨u, rfl, hu⟩
        rcases ih hrest with ⟨v, hmiddle, hv⟩
        have hnonempty : u ≠ [] := by
          rintro rfl
          simp at hshorter
        refine ⟨u ++ v, ?_, .starCons hnonempty hu hv⟩
        have hmiddle' : middle = v ++ rest := hmiddle
        rw [hmiddle', List.append_assoc]
      · exact ⟨[], rfl, .starNil⟩

theorem mem_attempts {r : Regex α} {t rest : List α} {c d : Captures α}
    (h : (rest, d) ∈ attempts r t c) : ∃ u, t = u ++ rest ∧ Matches r u c d := by
  induction r generalizing t c rest d with
  | empty =>
      simp only [attempts, List.mem_singleton, Prod.mk.injEq] at h
      rcases h with ⟨rfl, rfl⟩
      exact ⟨[], rfl, .empty⟩
  | single p =>
      cases t with
      | nil => simp [attempts] at h
      | cons a t =>
          by_cases hp : p a = true
          · simp only [attempts, if_pos hp, List.mem_singleton, Prod.mk.injEq] at h
            rcases h with ⟨rfl, rfl⟩
            exact ⟨[a], rfl, .single hp⟩
          · simp [attempts, if_neg hp] at h
  | seq r s ihr ihs =>
      simp only [attempts, List.mem_flatMap] at h
      rcases h with ⟨⟨middle, d'⟩, hr, hs⟩
      rcases ihr hr with ⟨u, rfl, hu⟩
      rcases ihs hs with ⟨v, hmiddle, hv⟩
      have hmiddle' : middle = v ++ rest := hmiddle
      exact ⟨u ++ v, by rw [hmiddle', List.append_assoc], .seq hu hv⟩
  | alt r s ihr ihs =>
      simp only [attempts, List.mem_append] at h
      rcases h with hr | hs
      · rcases ihr hr with ⟨u, ht, hu⟩
        exact ⟨u, ht, .altLeft hu⟩
      · rcases ihs hs with ⟨u, ht, hu⟩
        exact ⟨u, ht, .altRight hu⟩
  | star r ih => exact mem_starAttempts (fun _ _ _ _ hr => ih hr) h
  | group i r ih =>
      simp only [attempts, List.mem_map, Prod.mk.injEq] at h
      rcases h with ⟨⟨rest', d'⟩, hr, rfl, rfl⟩
      rcases ih hr with ⟨u, rfl, hu⟩
      refine ⟨u, rfl, ?_⟩
      -- the group captures what was consumed
      have htake : (u ++ rest').take ((u ++ rest').length - rest'.length) = u := by
        simp
      simp only [htake]
      exact .group hu

theorem fullMatch_sound {r : Regex α} {t : List α} {m : Captures α}
    (h : fullMatch r t = some m) : Matches r t [] m := by
  simp only [fullMatch, Option.map_eq_some_iff] at h
  rcases h with ⟨⟨rest, d⟩, hfind, rfl⟩
  have hempty := List.find?_some hfind
  rcases mem_attempts (List.mem_of_find?_eq_some hfind) with ⟨u, ht, hu⟩
  have hrest : rest = [] := by simpa using hempty
  rw [ht, hrest, List.append_nil]
  exact hu

/-- The repetition reaches every match, if the bound leaves room for each round. -/
theorem starAttempts_mem {r : Regex α} {u rest : List α} {c d : Captures α}
    (hr : ∀ u rest c d, Matches r u c d → (rest, d) ∈ attempts r (u ++ rest) c)
    (h : Matches (star r) u c d) {n : Nat} (hn : u.length ≤ n) :
    (rest, d) ∈ starAttempts (attempts r) n (u ++ rest) c := by
  generalize hs : star r = s at h
  induction h generalizing n with
  | starNil => cases n <;> simp [starAttempts]
  | @starCons r' u v c d e hnonempty hu hv _ ih =>
      cases hs
      have hpos : 0 < u.length := List.length_pos_of_ne_nil hnonempty
      -- a round consumes something, so that the bound is lower for the next one
      cases n with
      | zero =>
          rw [List.length_append] at hn
          omega
      | succ n =>
          rw [List.length_append] at hn
          simp only [starAttempts, List.mem_append, List.mem_flatMap, List.mem_filter,
            decide_eq_true_eq]
          left
          refine ⟨(v ++ rest, d), ⟨?_, ?_⟩, ih (by omega) rfl⟩
          · rw [List.append_assoc]
            exact hr u (v ++ rest) c d hu
          · simp
            omega
  | empty => cases hs
  | single _ => cases hs
  | seq _ _ _ _ => cases hs
  | altLeft _ _ => cases hs
  | altRight _ _ => cases hs
  | group _ _ => cases hs

theorem attempts_mem {r : Regex α} {u rest : List α} {c d : Captures α}
    (h : Matches r u c d) : (rest, d) ∈ attempts r (u ++ rest) c := by
  induction r generalizing u rest c d with
  | empty =>
      cases h
      simp [attempts]
  | single p =>
      cases h with
      | single hp => simp [attempts, hp]
  | seq r s ihr ihs =>
      cases h with
      | @seq _ _ u v _ d' _ hu hv =>
          simp only [attempts, List.mem_flatMap]
          refine ⟨(v ++ rest, d'), ?_, ihs hv⟩
          rw [List.append_assoc]
          exact ihr hu
  | alt r s ihr ihs =>
      simp only [attempts, List.mem_append]
      cases h with
      | altLeft hu => exact Or.inl (ihr hu)
      | altRight hu => exact Or.inr (ihs hu)
  | star r ih =>
      refine starAttempts_mem (fun u rest c d hr => ih hr) h ?_
      rw [List.length_append]
      omega
  | group i r ih =>
      cases h with
      | group hu =>
          simp only [attempts, List.mem_map, Prod.mk.injEq]
          refine ⟨(rest, _), ih hu, rfl, ?_⟩
          simp

theorem fullMatch_complete {r : Regex α} {t : List α} {m : Captures α}
    (h : Matches r t [] m) : ∃ m', fullMatch r t = some m' := by
  have hmem : ([], m) ∈ attempts r (t ++ []) [] := attempts_mem h
  rw [List.append_nil] at hmem
  have hsome : ((attempts r t []).find? fun x => x.1.isEmpty).isSome = true := by
    rw [List.find?_isSome]
    exact ⟨([], m), hmem, rfl⟩
  rcases Option.isSome_iff_exists.1 hsome with ⟨x, hx⟩
  exact ⟨x.2, by simp [fullMatch, hx]⟩

/-! ## What a match looks like -/

section Inversion

variable {r s : Regex α} {p : α → Bool} {u : List α} {c d : Captures α} {i : Nat}

@[simp] theorem matches_empty_iff : Matches empty u c d ↔ u = [] ∧ d = c := by
  constructor
  · intro h
    cases h
    exact ⟨rfl, rfl⟩
  · rintro ⟨rfl, rfl⟩
    exact .empty

@[simp] theorem matches_single_iff :
    Matches (single p) u c d ↔ ∃ a, p a = true ∧ u = [a] ∧ d = c := by
  constructor
  · intro h
    cases h with
    | single hp => exact ⟨_, hp, rfl, rfl⟩
  · rintro ⟨a, hp, rfl, rfl⟩
    exact .single hp

@[simp] theorem matches_seq_iff :
    Matches (seq r s) u c d ↔
      ∃ v w e, u = v ++ w ∧ Matches r v c e ∧ Matches s w e d := by
  constructor
  · intro h
    cases h with
    | seq hr hs => exact ⟨_, _, _, rfl, hr, hs⟩
  · rintro ⟨v, w, e, rfl, hr, hs⟩
    exact .seq hr hs

@[simp] theorem matches_group_iff :
    Matches (group i r) u c d ↔ ∃ e, Matches r u c e ∧ d = (i, u) :: e := by
  constructor
  · intro h
    cases h with
    | group hr => exact ⟨_, hr, rfl⟩
  · rintro ⟨e, hr, rfl⟩
    exact .group hr

@[simp] theorem matches_lit_iff [BEq α] [LawfulBEq α] {l : List α} :
    Matches (lit l) u c d ↔ u = l ∧ d = c := by
  induction l generalizing u c with
  | nil => simp [lit]
  | cons a l ih =>
      simp only [lit, matches_seq_iff, matches_single_iff, ih, beq_iff_eq]
      constructor
      · rintro ⟨v, w, e, rfl, ⟨b, rfl, rfl, rfl⟩, rfl, rfl⟩
        exact ⟨rfl, rfl⟩
      · rintro ⟨rfl, rfl⟩
        exact ⟨[a], l, d, rfl, ⟨a, rfl, rfl, rfl⟩, rfl, rfl⟩

/-- A repetition is no round, or a first round and a shorter repetition. -/
theorem matches_star_iff :
    Matches (star r) u c d ↔
      (u = [] ∧ d = c) ∨
        ∃ v w e, u = v ++ w ∧ v ≠ [] ∧ Matches r v c e ∧ Matches (star r) w e d := by
  constructor
  · intro h
    cases h with
    | starNil => exact Or.inl ⟨rfl, rfl⟩
    | starCons hv hr hs => exact Or.inr ⟨_, _, _, rfl, hv, hr, hs⟩
  · rintro (⟨rfl, rfl⟩ | ⟨v, w, e, rfl, hv, hr, hs⟩)
    · exact .starNil
    · exact .starCons hv hr hs

/-- A repetition of a class is any text of the class. -/
@[simp] theorem matches_star_single_iff :
    Matches (star (single p)) u c d ↔ (∀ a ∈ u, p a = true) ∧ d = c := by
  induction u with
  | nil =>
      rw [matches_star_iff]
      constructor
      · rintro (⟨_, rfl⟩ | ⟨v, w, e, hvw, hv, _⟩)
        · simp
        · have hv' : v = [] := (List.append_eq_nil_iff.1 hvw.symm).1
          exact absurd hv' hv
      · rintro ⟨_, rfl⟩
        exact Or.inl ⟨rfl, rfl⟩
  | cons a u ih =>
      rw [matches_star_iff]
      constructor
      · rintro (⟨hnil, _⟩ | ⟨v, w, e, hvw, _, hr, hs⟩)
        · cases hnil
        · rcases matches_single_iff.1 hr with ⟨b, hp, rfl, rfl⟩
          cases hvw
          rcases ih.1 hs with ⟨hall, rfl⟩
          exact ⟨List.forall_mem_cons.2 ⟨hp, hall⟩, rfl⟩
      · rintro ⟨hall, rfl⟩
        rcases List.forall_mem_cons.1 hall with ⟨hp, hrest⟩
        exact Or.inr ⟨[a], u, d, rfl, by simp, .single hp, ih.2 ⟨hrest, rfl⟩⟩

@[simp] theorem matches_plus_single_iff :
    Matches (plus (single p)) u c d ↔ u ≠ [] ∧ (∀ a ∈ u, p a = true) ∧ d = c := by
  simp only [plus, matches_seq_iff, matches_single_iff, matches_star_single_iff]
  constructor
  · rintro ⟨v, w, e, rfl, ⟨a, hp, rfl, rfl⟩, hall, rfl⟩
    exact ⟨by simp, by simpa using ⟨hp, hall⟩, rfl⟩
  · rintro ⟨hu, hall, rfl⟩
    rcases List.exists_cons_of_ne_nil hu with ⟨a, w, rfl⟩
    rcases List.forall_mem_cons.1 hall with ⟨hp, hrest⟩
    exact ⟨[a], w, d, rfl, ⟨a, hp, rfl, rfl⟩, hrest, rfl⟩

@[simp] theorem matches_concat_nil_iff : Matches (concat []) u c d ↔ u = [] ∧ d = c := by
  rw [concat, matches_empty_iff]

@[simp] theorem matches_concat_cons_iff {rs : List (Regex α)} :
    Matches (concat (r :: rs)) u c d ↔
      ∃ v w e, u = v ++ w ∧ Matches r v c e ∧ Matches (concat rs) w e d := by
  rw [concat, matches_seq_iff]

theorem matches_concat_lit_iff [BEq α] [LawfulBEq α] {l : List α} {rs : List (Regex α)} :
    Matches (concat (lit l :: rs)) u c d ↔ ∃ v, u = l ++ v ∧ Matches (concat rs) v c d := by
  rw [matches_concat_cons_iff]
  constructor
  · rintro ⟨v, w, e, rfl, hl, hrs⟩
    rcases matches_lit_iff.1 hl with ⟨rfl, rfl⟩
    exact ⟨w, rfl, hrs⟩
  · rintro ⟨v, rfl, hrs⟩
    exact ⟨l, v, c, rfl, matches_lit_iff.2 ⟨rfl, rfl⟩, hrs⟩

theorem matches_concat_single_iff {rs : List (Regex α)} :
    Matches (concat (single p :: rs)) u c d ↔
      ∃ a v, p a = true ∧ u = a :: v ∧ Matches (concat rs) v c d := by
  rw [matches_concat_cons_iff]
  constructor
  · rintro ⟨v, w, e, rfl, ha, hrs⟩
    rcases matches_single_iff.1 ha with ⟨a, hp, rfl, rfl⟩
    exact ⟨a, w, hp, rfl, hrs⟩
  · rintro ⟨a, v, hp, rfl, hrs⟩
    exact ⟨[a], v, c, rfl, .single hp, hrs⟩

theorem matches_concat_append_iff {rs rs' : List (Regex α)} :
    Matches (concat (rs ++ rs')) u c d ↔
      ∃ v w e, u = v ++ w ∧ Matches (concat rs) v c e ∧ Matches (concat rs') w e d := by
  induction rs generalizing u c with
  | nil => simp
  | cons r rs ih =>
      simp only [List.cons_append, matches_concat_cons_iff, ih]
      constructor
      · rintro ⟨v, w, e, rfl, hr, v', w', e', rfl, hrs, hrs'⟩
        exact ⟨v ++ v', w', e', by simp, ⟨v, v', e, rfl, hr, hrs⟩, hrs'⟩
      · rintro ⟨v, w, e, rfl, ⟨v', w', e', rfl, hr, hrs⟩, hrs'⟩
        exact ⟨v', w' ++ w, e', by simp, hr, w', w, e, rfl, hrs, hrs'⟩

/-- A repetition that matched something has a last round. -/
theorem Matches.star_last (h : Matches (star r) u c d) (hu : u ≠ []) :
    ∃ v w e, u = v ++ w ∧ w ≠ [] ∧ Matches (star r) v c e ∧ Matches r w e d := by
  generalize hs : star r = s at h
  induction h with
  | starNil => exact absurd rfl hu
  | @starCons r' u₁ u₂ c d e hnonempty hr hrest _ ih =>
      cases hs
      by_cases hu₂ : u₂ = []
      · subst hu₂
        rcases matches_star_iff.1 hrest with ⟨_, rfl⟩ | ⟨v, w, _, hvw, hv, _⟩
        · exact ⟨[], u₁, c, by simp, hnonempty, .starNil, hr⟩
        · exact absurd (List.append_eq_nil_iff.1 hvw.symm).1 hv
      · rcases ih hu₂ rfl with ⟨v, w, e', rfl, hw, hv, hlast⟩
        exact ⟨u₁ ++ v, w, e', by simp, hw, .starCons hnonempty hr hv, hlast⟩
  | empty => cases hs
  | single _ => cases hs
  | seq _ _ _ _ => cases hs
  | altLeft _ _ => cases hs
  | altRight _ _ => cases hs
  | group _ _ => cases hs

/-- The symbols of a repetition are those of its rounds. -/
theorem Matches.star_forall (q : α → Prop)
    (hround : ∀ v c d, Matches r v c d → ∀ a ∈ v, q a) (h : Matches (star r) u c d) :
    ∀ a ∈ u, q a := by
  generalize hs : star r = s at h
  induction h with
  | starNil =>
      intro a ha
      cases ha
  | starCons _ hr _ _ ih =>
      cases hs
      intro a ha
      rcases List.mem_append.1 ha with hleft | hright
      · exact hround _ _ _ hr a hleft
      · exact ih rfl a hright
  | empty => cases hs
  | single _ => cases hs
  | seq _ _ _ _ => cases hs
  | altLeft _ _ => cases hs
  | altRight _ _ => cases hs
  | group _ _ => cases hs

/-- Without groups nothing is captured. -/
theorem Matches.captures_eq (h : Matches r u c d) (hgroups : r.groups = []) : d = c := by
  induction h with
  | empty => rfl
  | single _ => rfl
  | seq _ _ ihr ihs =>
      rcases List.append_eq_nil_iff.1 hgroups with ⟨hr, hs⟩
      rw [ihs hs, ihr hr]
  | altLeft _ ih => exact ih (List.append_eq_nil_iff.1 hgroups).1
  | altRight _ ih => exact ih (List.append_eq_nil_iff.1 hgroups).2
  | starNil => rfl
  | starCons _ _ _ ihr ihs => rw [ihs hgroups, ihr hgroups]
  | group _ _ => cases hgroups

end Inversion

end Regex
