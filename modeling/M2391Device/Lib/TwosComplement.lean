import Mathlib.Data.BitVec
import Mathlib.Data.Int.Bitwise

/-!
# TwosComplement — masks and fields of integers of any size

The bit operators of the integers as arithmetic: a mask of low bits is a remainder, a mask of all but
the low bits rounds down, and the union of a multiple of a power of two with a smaller number is
their sum.  A bit vector that is made from an integer keeps what arithmetic does to the integer.
-/

namespace TwosComplement

theorem lor_natCast (a b : Nat) : Int.lor a b = ((a ||| b : Nat) : Int) := rfl

/-- `a & (2 ** k - 1)` -/
theorem land_mask (a : Int) (k : Nat) : Int.land a ((2 ^ k - 1 : Nat) : Int) = a % 2 ^ k := by
  cases a with
  | ofNat n =>
      have hmod := Nat.and_two_pow_sub_one_eq_mod n k
      change ((n &&& (2 ^ k - 1) : Nat) : Int) = (n : Int) % 2 ^ k
      rw [hmod]
      exact Int.natCast_emod n (2 ^ k)
  | negSucc n =>
      have hlt : n % 2 ^ k < 2 ^ k := Nat.mod_lt n (Nat.two_pow_pos k)
      -- bit by bit, the mask leaves the complement of the low bits of `n`
      have hbits : Nat.ldiff (2 ^ k - 1) n = 2 ^ k - (n % 2 ^ k + 1) := by
        refine Nat.eq_of_testBit_eq fun i => ?_
        rw [Nat.testBit_ldiff, Nat.testBit_two_pow_sub_one, Nat.testBit_two_pow_sub_succ hlt,
          Nat.testBit_mod_two_pow]
        by_cases hi : i < k <;> simp [hi]
      change ((Nat.ldiff (2 ^ k - 1) n : Nat) : Int) = Int.negSucc n % 2 ^ k
      have hpow : (2 : Int) ^ k = ((2 ^ k : Nat) : Int) := by push_cast; rfl
      rw [hbits, hpow, Int.negSucc_emod n (Int.natCast_pos.2 (Nat.two_pow_pos k)),
        ← Int.natCast_emod]
      omega

/-- `a & -(2 ** k)` -/
theorem land_neg (a k : Nat) :
    Int.land a (-((2 ^ k : Nat) : Int)) = ((a / 2 ^ k * 2 ^ k : Nat) : Int) := by
  have hpos := Nat.two_pow_pos k
  have hneg : -((2 ^ k : Nat) : Int) = Int.negSucc (2 ^ k - 1) := by
    rw [Int.negSucc_eq]
    omega
  have hbits : Nat.ldiff a (2 ^ k - 1) = a / 2 ^ k * 2 ^ k := by
    refine Nat.eq_of_testBit_eq fun i => ?_
    rw [Nat.testBit_ldiff, Nat.testBit_two_pow_sub_one, Nat.testBit_mul_two_pow,
      Nat.testBit_div_two_pow]
    by_cases hi : k ≤ i
    · simp [hi, Nat.not_lt.2 hi]
    · simp [hi, Nat.lt_of_not_le hi]
  rw [hneg]
  exact congrArg Nat.cast hbits

theorem or_eq_add {n b : Nat} (k : Nat) (hn : 2 ^ k ∣ n) (hb : b < 2 ^ k) : n ||| b = n + b := by
  rcases hn with ⟨a, rfl⟩
  exact (Nat.two_pow_add_eq_or_of_lt hb a).symm

/-- A number below what a power of two divides. -/
theorem lor_field {n b : Nat} (k : Nat) (hn : 2 ^ k ∣ n) (hb : b < 2 ^ k) :
    Int.lor n b = ((n + b : Nat) : Int) := by
  rw [lor_natCast, or_eq_add k hn hb]

theorem shiftLeft_natCast (b m : Nat) : (b : Int) <<< m = ((b * 2 ^ m : Nat) : Int) := by
  rw [Int.shiftLeft_eq]
  push_cast
  rfl

/-- A field that is moved to its place. -/
theorem lor_shifted {n b : Nat} (k m : Nat) (hn : 2 ^ k ∣ n) (hb : b * 2 ^ m < 2 ^ k) :
    Int.lor n ((b : Int) <<< m) = ((n + b * 2 ^ m : Nat) : Int) := by
  rw [shiftLeft_natCast, lor_field k hn hb]

/-- A field that is moved to its place between a high one and a low one. -/
theorem lor_between {high low b : Nat} (k m : Nat) (hmk : m ≤ k) (hhigh : 2 ^ k ∣ high)
    (hb : b * 2 ^ m < 2 ^ k) (hlow : low < 2 ^ m) :
    Int.lor ((high + low : Nat) : Int) ((b : Int) <<< m) =
      ((high + b * 2 ^ m + low : Nat) : Int) := by
  have hlow' : low < 2 ^ k := hlow.trans_le (Nat.pow_le_pow_right (by decide) hmk)
  have hm : 2 ^ m ∣ high + b * 2 ^ m :=
    Nat.dvd_add ((Nat.pow_dvd_pow 2 hmk).trans hhigh) (Nat.dvd_mul_left _ _)
  rw [shiftLeft_natCast, lor_natCast, ← or_eq_add k hhigh hlow', Nat.or_assoc, Nat.or_comm low,
    ← Nat.or_assoc, or_eq_add k hhigh hb, or_eq_add m hm hlow]

/-! ## Bit vectors of integers -/

/-- The number below a power of two that has the bits of an integer. -/
theorem toNat_ofInt (w : Nat) (z : Int) : ((BitVec.ofInt w z).toNat : Int) = z % 2 ^ w := by
  have hpos : 0 ≤ z % ((2 ^ w : Nat) : Int) :=
    Int.emod_nonneg z (Int.natCast_ne_zero.2 (Nat.two_pow_pos w).ne')
  rw [BitVec.toNat_ofInt, Int.toNat_of_nonneg hpos]
  push_cast
  rfl

/-- An integer in the range of the vector is kept. -/
theorem toInt_ofInt {n : Nat} {z : Int} (h : -2 ^ n ≤ z ∧ z < 2 ^ n) :
    (BitVec.ofInt (n + 1) z).toInt = z := by
  rw [BitVec.toInt_ofInt]
  refine Int.bmod_eq_of_le ?_ ?_
  · rw [Nat.pow_succ]
    push_cast
    omega
  · rw [Nat.pow_succ]
    push_cast
    omega

theorem signExtend_ofInt {n : Nat} {z : Int} (h : -2 ^ n ≤ z ∧ z < 2 ^ n) (v : Nat) :
    (BitVec.ofInt (n + 1) z).signExtend v = BitVec.ofInt v z := by
  rw [BitVec.signExtend, toInt_ofInt h]

theorem shiftLeft_ofInt {w : Nat} (z : Int) (k : Nat) :
    BitVec.ofInt w z <<< k = BitVec.ofInt w (z * 2 ^ k) := by
  have hpow : BitVec.twoPow w k = BitVec.ofInt w (2 ^ k) := by
    have hcast : (2 : Int) ^ k = ((2 ^ k : Nat) : Int) := by
      push_cast
      rfl
    rw [hcast, BitVec.ofInt_natCast]
    exact BitVec.eq_of_toNat_eq (by rw [BitVec.toNat_twoPow, BitVec.toNat_ofNat])
  rw [BitVec.shiftLeft_eq_mul_twoPow, BitVec.ofInt_mul, hpow]

end TwosComplement
