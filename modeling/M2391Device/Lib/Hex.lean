import Mathlib.Data.List.Basic

/-!
# Hex — hexadecimal numerals

A number is printed with its digits in either case and padded with zeros to a width; a numeral is read
digit by digit.  What was printed is read back (`value?_print`).
-/

namespace Hex

def ofDigit (c : Char) : Option Nat :=
  if '0' ≤ c ∧ c ≤ '9' then some (c.toNat - 48)
  else if 'a' ≤ c ∧ c ≤ 'f' then some (c.toNat - 87)
  else if 'A' ≤ c ∧ c ≤ 'F' then some (c.toNat - 55)
  else none

def toDigit (upper : Bool) (d : Nat) : Char :=
  if d < 10 then Char.ofNat (48 + d) else Char.ofNat ((if upper then 55 else 87) + d)

/-- Read digits behind those that made up `n`. -/
def accumulate (n : Nat) : List Char → Option Nat
  | [] => some n
  | c :: cs => (ofDigit c).bind fun d => accumulate (n * 16 + d) cs

def value? (cs : List Char) : Option Nat := accumulate 0 cs

/-- The digits of a number, the highest first. -/
def digits (upper : Bool) (n : Nat) : List Char :=
  if n < 16 then [toDigit upper n] else digits upper (n / 16) ++ [toDigit upper (n % 16)]

/-- The digits behind as many zeros as the width asks for. -/
def print (upper : Bool) (width n : Nat) : List Char :=
  List.replicate (width - (digits upper n).length) '0' ++ digits upper n

/-! ## The round trip -/

theorem ofDigit_toDigit (upper : Bool) {d : Nat} (hd : d < 16) : ofDigit (toDigit upper d) = some d := by
  have hall : ∀ upper, ∀ d < 16, ofDigit (toDigit upper d) = some d := by decide
  exact hall upper d hd

theorem accumulate_append (n : Nat) (front back : List Char) :
    accumulate n (front ++ back) = (accumulate n front).bind fun m => accumulate m back := by
  induction front generalizing n with
  | nil => rfl
  | cons c front ih =>
      rw [List.cons_append, accumulate, accumulate]
      cases ofDigit c with
      | none => rfl
      | some d => exact ih (n * 16 + d)

theorem value?_digits (upper : Bool) (n : Nat) : value? (digits upper n) = some n := by
  induction n using digits.induct with
  | case1 n hn =>
      rw [digits, if_pos hn, value?, accumulate, ofDigit_toDigit upper hn, Option.bind_some, accumulate,
        Nat.zero_mul, Nat.zero_add]
  | case2 n hn ih =>
      rw [value?] at ih
      rw [digits, if_neg hn, value?, accumulate_append, ih, Option.bind_some, accumulate,
        ofDigit_toDigit upper (Nat.mod_lt n (by decide)), Option.bind_some, accumulate,
        Nat.div_add_mod']

theorem value?_zeros (k : Nat) (cs : List Char) :
    value? (List.replicate k '0' ++ cs) = value? cs := by
  induction k with
  | zero => rfl
  | succ k ih => exact ih

theorem value?_print (upper : Bool) (width n : Nat) : value? (print upper width n) = some n := by
  rw [print, value?_zeros, value?_digits]

theorem digits_ne_nil (upper : Bool) (n : Nat) : digits upper n ≠ [] := by
  rw [digits]
  by_cases hn : n < 16
  · rw [if_pos hn]
    exact List.cons_ne_nil _ _
  · rw [if_neg hn]
    exact List.append_ne_nil_of_right_ne_nil _ (List.cons_ne_nil _ _)

theorem print_ne_nil (upper : Bool) (width n : Nat) : print upper width n ≠ [] :=
  List.append_ne_nil_of_right_ne_nil _ (digits_ne_nil upper n)

/-- Every character of a numeral that is read is a digit. -/
theorem isSome_of_accumulate {n m : Nat} {cs : List Char} (h : accumulate n cs = some m) :
    ∀ c ∈ cs, (ofDigit c).isSome := by
  induction cs generalizing n with
  | nil => exact fun c hc => by cases hc
  | cons c cs ih =>
      rw [accumulate] at h
      rcases Option.bind_eq_some_iff.1 h with ⟨d, hd, hrest⟩
      intro c' hc'
      rcases List.mem_cons.1 hc' with rfl | hc'
      · rw [hd]
        rfl
      · exact ih hrest c' hc'

theorem isSome_of_mem_print {upper : Bool} {width n : Nat} {c : Char}
    (hc : c ∈ print upper width n) : (ofDigit c).isSome :=
  isSome_of_accumulate (value?_print upper width n) c hc

end Hex
