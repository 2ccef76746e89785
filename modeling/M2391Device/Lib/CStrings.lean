import M2391Device.Lib.Program
import Mathlib.Data.List.Infix
import Mathlib.Tactic.Ring

/-!
# CStrings — functions on C strings, with the positions they read

A `Reader` is a function that reads a memory one character at a time.  `Scans mem P x Q` says that
on `mem` it comes to an end, that every position it reads satisfies `P`, and that its result
satisfies `Q`.  A loop is given a number of rounds, and one that would go on after them does not
come to an end.
-/

namespace CStrings

def NUL : Char := Char.ofNat 0

/-- A loop that has not come to its end. -/
inductive Unfinished
  | unfinished

abbrev Reader (α : Type) := Program Int (fun _ => Char) Unfinished α

/-- The character at a position. -/
def byte (p : Int) : Reader Char := Program.call p

/-- Reading a memory does not change it. -/
def look (mem : Int → Char) (p : Int) (s : Unit) : Char × Unit := (mem p, s)

variable {α β : Type} {mem : Int → Char} {P P' : Int → Prop}

def Scans (mem : Int → Char) (P : Int → Prop) : Reader α → (α → Prop) → Prop
  | .pure a, Q => Q a
  | .throw _, _ => False
  | .perform p next, Q => P p ∧ Scans mem P (next (mem p)) Q

namespace Scans

variable {x : Reader α} {f : α → Reader β} {Q Q' : α → Prop} {R : β → Prop}

theorem bind (hx : Scans mem P x Q) (hf : ∀ a, Q a → Scans mem P (f a) R) :
    Scans mem P (x >>= f) R := by
  induction x with
  | pure a => exact hf a hx
  | throw e => exact hx.elim
  | perform p next ih => exact ⟨hx.1, ih _ hx.2⟩

theorem mono (hx : Scans mem P x Q) (hP : ∀ p, P p → P' p) (hQ : ∀ a, Q a → Q' a) :
    Scans mem P' x Q' := by
  induction x with
  | pure a => exact hQ a hx
  | throw e => exact hx.elim
  | perform p next ih => exact ⟨hP p hx.1, ih _ hx.2⟩

theorem byte {p : Int} (hp : P p) : Scans mem P (byte p) fun c => c = mem p := ⟨hp, rfl⟩

theorem pure {a : α} (ha : Q a) : Scans mem P (Pure.pure a : Reader α) Q := ha

theorem ite {c : Prop} [Decidable c] {y : Reader α} (hx : c → Scans mem P x Q)
    (hy : ¬ c → Scans mem P y Q) : Scans mem P (if c then x else y) Q := by
  by_cases hc : c
  · simpa only [if_pos hc] using hx hc
  · simpa only [if_neg hc] using hy hc

/-- It comes to an end. -/
theorem result (hx : Scans mem P x Q) : ∃ a, (x.run (look mem) ()).1 = .ok a ∧ Q a := by
  induction x with
  | pure a => exact ⟨a, rfl, hx⟩
  | throw e => exact hx.elim
  | perform p next ih => exact ih _ hx.2

theorem reads (hx : Scans mem P x Q) : ∀ o ∈ x.trace (look mem) (), P o.1 := by
  induction x with
  | pure a => exact fun o ho => absurd ho List.not_mem_nil
  | throw e => exact hx.elim
  | perform p next ih => exact List.forall_mem_cons.2 ⟨hx.1, ih _ hx.2⟩

end Scans

/-! ## The functions -/

/-- `!strncmp(p, text, n)`, where `n` is the length of `text` -/
def startsWith : List Char → Int → Reader Bool
  | [], _ => return true
  | a :: rest, p => do
      let c ← byte p
      if c = a then startsWith rest (p + 1) else return false

/-- `!strcmp(p, text)` -/
def equals (text : List Char) (p : Int) : Reader Bool := startsWith (text ++ [NUL]) p

/-- `strlen(p)` -/
def strlen : Nat → Int → Reader Nat
  | 0, _ => .throw .unfinished
  | rounds + 1, p => do
      let c ← byte p
      if c = NUL then return 0
      else
        let n ← strlen rounds (p + 1)
        return n + 1

/-- `strstr(p, part)` as a condition. -/
def strstr : Nat → List Char → Int → Reader Bool
  | 0, _, _ => .throw .unfinished
  | rounds + 1, part, p => do
      let here ← startsWith part p
      if here then return true
      else
        let c ← byte p
        if c = NUL then return false else strstr rounds part (p + 1)

/-- The characters of a range of a known length. -/
def chars : Nat → Int → Reader (List Char)
  | 0, _ => return []
  | n + 1, p => do
      let c ← byte p
      let rest ← chars n (p + 1)
      return c :: rest

/-! ## What they read -/

/-- The string that begins at a position. -/
def StringAt (mem : Int → Char) : Int → List Char → Prop
  | p, [] => mem p = NUL
  | p, c :: text => mem p = c ∧ c ≠ NUL ∧ StringAt mem (p + 1) text

variable {p : Int} {text : List Char}

theorem StringAt.eq_nil (h : StringAt mem p text) (hnul : mem p = NUL) : text = [] := by
  cases text with
  | nil => rfl
  | cons c text => exact absurd (h.1.symm.trans hnul) h.2.1

/-- In a list that a NUL follows, the string goes to the first NUL. -/
theorem stringAt_takeWhile {bytes : List Char} (h : ∀ i, ∀ hi : i < bytes.length,
    mem (p + i) = bytes[i]) (hend : mem (p + bytes.length) = NUL) :
    StringAt mem p (bytes.takeWhile (· ≠ NUL)) := by
  induction bytes generalizing p with
  | nil =>
      have hnul : mem p = NUL := by simpa using hend
      exact hnul
  | cons c bytes ih =>
      have hhead : mem p = c := by
        have hfirst := h 0 (Nat.zero_lt_succ _)
        rwa [List.getElem_cons_zero, Int.natCast_zero, add_zero] at hfirst
      by_cases hc : c = NUL
      · rw [List.takeWhile_cons_of_neg (by simpa using hc)]
        exact hhead.trans hc
      · rw [List.takeWhile_cons_of_pos (by simpa using hc)]
        refine ⟨hhead, hc, ih (fun i hi => ?_) ?_⟩
        · have hnext := h (i + 1) (by simpa using hi)
          rw [List.getElem_cons_succ] at hnext
          rw [← hnext]
          congr 1
          push_cast
          ring
        · rw [← hend]
          congr 1
          push_cast [List.length_cons]
          ring

/-- The string at a position further on is what is left of it. -/
theorem StringAt.drop (h : StringAt mem p text) {n : Nat} (hn : n ≤ text.length) :
    StringAt mem (p + n) (text.drop n) := by
  induction n generalizing p text with
  | zero => simpa using h
  | succ n ih =>
      cases text with
      | nil => simp at hn
      | cons c text =>
          have hrest := ih h.2.2 (by simpa using hn)
          have hpos : p + 1 + (n : Int) = p + ((n + 1 : Nat) : Int) := by omega
          rwa [hpos] at hrest

theorem startsWith_scans {part : List Char} (h : StringAt mem p text) (hpart : NUL ∉ part)
    (hP : ∀ q, p ≤ q → q ≤ p + text.length → P q) :
    Scans mem P (startsWith part p) fun b => b = part.isPrefixOf text := by
  induction part generalizing p text with
  | nil => exact .pure (by simp)
  | cons a part ih =>
      refine .bind (.byte (hP p (by omega) (by omega))) fun c hc => ?_
      subst hc
      cases text with
      | nil =>
          have hnul : mem p = NUL := h
          refine .ite (fun heq => ?_) fun _ => .pure (by simp)
          exact absurd (heq ▸ List.mem_cons_self) (hnul ▸ hpart)
      | cons c text =>
          rcases h with ⟨hc, hne, hrest⟩
          refine .ite (fun heq => ?_) fun hneq => .pure ?_
          · have hnext := ih hrest (fun hmem => hpart (List.mem_cons_of_mem a hmem))
              fun q hq hq' => hP q (by omega) (by simp only [List.length_cons]; omega)
            refine hnext.mono (fun _ => id) fun b hb => ?_
            rw [hb, List.isPrefixOf, ← heq, hc]
            simp
          · rw [List.isPrefixOf]
            simp [← hc, Ne.symm hneq]

theorem equals_scans {word : List Char} (h : StringAt mem p text) (hword : NUL ∉ word)
    (hP : ∀ q, p ≤ q → q ≤ p + text.length → P q) :
    Scans mem P (equals word p) fun b => b = decide (word = text) := by
  rw [equals]
  induction word generalizing p text with
  | nil =>
      refine .bind (.byte (hP p (by omega) (by omega))) fun c hc => ?_
      subst hc
      cases text with
      | nil =>
          have hnul : mem p = NUL := h
          exact .ite (fun _ => .pure rfl) fun hne => absurd hnul hne
      | cons c text =>
          rcases h with ⟨hc, hne, _⟩
          exact .ite (fun heq => absurd (hc.symm.trans heq) hne) fun _ => .pure (by simp)
  | cons a word ih =>
      refine .bind (.byte (hP p (by omega) (by omega))) fun c hc => ?_
      subst hc
      cases text with
      | nil =>
          have hnul : mem p = NUL := h
          refine .ite (fun heq => ?_) fun _ => .pure (by simp)
          exact absurd (heq ▸ List.mem_cons_self) (hnul ▸ hword)
      | cons c text =>
          rcases h with ⟨hc, hne, hrest⟩
          refine .ite (fun heq => ?_) fun hneq => .pure ?_
          · have hnext := ih hrest (fun hmem => hword (List.mem_cons_of_mem a hmem))
              fun q hq hq' => hP q (by omega) (by simp only [List.length_cons]; omega)
            refine hnext.mono (fun _ => id) fun b hb => ?_
            rw [hb, ← heq, hc]
            simp
          · have hac : a ≠ c := fun hac => hneq (hc.trans hac.symm)
            simp [hac]

theorem strlen_scans {rounds : Nat} (h : StringAt mem p text) (hrounds : text.length < rounds)
    (hP : ∀ q, p ≤ q → q ≤ p + text.length → P q) :
    Scans mem P (strlen rounds p) fun n => n = text.length := by
  induction rounds generalizing p text with
  | zero => omega
  | succ rounds ih =>
      refine .bind (.byte (hP p (by omega) (by omega))) fun c hc => ?_
      subst hc
      cases text with
      | nil => exact .ite (fun _ => .pure rfl) fun hne => absurd h hne
      | cons c text =>
          rcases h with ⟨hc, hne, hrest⟩
          refine .ite (fun heq => absurd (hc.symm.trans heq) hne) fun _ => ?_
          refine .bind (ih hrest (by simpa using hrounds) fun q hq hq' => ?_) fun n hn => ?_
          · exact hP q (by omega) (by simp only [List.length_cons]; omega)
          · exact .pure (by simp [hn])

theorem strstr_scans {rounds : Nat} {part : List Char} (h : StringAt mem p text)
    (hrounds : text.length < rounds) (hpart : NUL ∉ part)
    (hP : ∀ q, p ≤ q → q ≤ p + text.length → P q) :
    Scans mem P (strstr rounds part p) fun b => b = true ↔ part <:+: text := by
  induction rounds generalizing p text with
  | zero => omega
  | succ rounds ih =>
      refine .bind (startsWith_scans h hpart hP) fun here hhere => ?_
      subst hhere
      refine .ite (fun hbegins => .pure ?_) fun hbegins => ?_
      · exact iff_of_true rfl (List.isPrefixOf_iff_prefix.1 hbegins).isInfix
      have hno : ¬ part <+: text := fun hpre => hbegins (List.isPrefixOf_iff_prefix.2 hpre)
      refine .bind (.byte (hP p (by omega) (by omega))) fun c hc => ?_
      subst hc
      cases text with
      | nil =>
          refine .ite (fun _ => .pure ?_) fun hne => absurd h hne
          refine iff_of_false Bool.false_ne_true fun hinfix => hno ?_
          rw [List.infix_nil.1 hinfix]
      | cons c text =>
          rcases h with ⟨hc, hne, hrest⟩
          refine .ite (fun heq => absurd (hc.symm.trans heq) hne) fun _ => ?_
          have hnext := ih hrest (by simpa using hrounds) fun q hq hq' =>
            hP q (by omega) (by simp only [List.length_cons]; omega)
          refine hnext.mono (fun _ => id) fun b hb => hb.trans ?_
          rw [List.infix_cons_iff]
          simp [hno]

theorem chars_scans (h : StringAt mem p text) (hP : ∀ q, p ≤ q → q ≤ p + text.length → P q) :
    Scans mem P (chars text.length p) fun cs => cs = text := by
  induction text generalizing p with
  | nil => exact .pure rfl
  | cons c text ih =>
      rcases h with ⟨hc, _, hrest⟩
      refine .bind (.byte (hP p (by omega) (by omega))) fun c' hc' => ?_
      refine .bind (ih hrest fun q hq hq' => ?_) fun cs hcs => ?_
      · exact hP q (by omega) (by simp only [List.length_cons]; omega)
      · exact .pure (by rw [hcs, hc', hc])

end CStrings
