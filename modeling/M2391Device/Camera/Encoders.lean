import M2391Device.Ims.Manifest
import M2391Device.Lib.A64.Encoding
import M2391Device.Lib.TwosComplement

/-!
# Encoders — the instruction words that the camera fixup computes

`_align`, `_branch`, `_adr`, `_add` and `_memory` of `camera_multicam_fixup.py` on integers of any
size.  Each encoder either raises or computes the word of the instruction that its arguments name
(`branch_eq`, `adr_eq`, `memory_eq`).
-/

namespace M2391Device
namespace Camera

open Ims (PyError)
open Int (land lor)

/-! ## The functions -/

/-- `_align(value, alignment)` -/
def align (value alignment : Int) : Int := land (value + alignment - 1) (-alignment)

/-- `_branch(pc, target)` -/
def branch (pc target : Int) : Except PyError Int :=
  let delta := target - pc
  if delta % 4 ≠ 0 ∨ ¬ (-((1 : Int) <<< (27 : Nat)) ≤ delta ∧ delta < (1 : Int) <<< (27 : Nat)) then
    .error (.valueError "AArch64 branch outside range")
  else .ok (lor 0x14000000 (land (delta >>> (2 : Nat)) 0x3ffffff))

/-- `_adr(register, pc, target, page)` -/
def adr (register pc target : Int) (page : Bool) : Except PyError Int :=
  let delta := if page then (target >>> (12 : Nat)) - (pc >>> (12 : Nat)) else target - pc
  if ¬ (-((1 : Int) <<< (20 : Nat)) ≤ delta ∧ delta < (1 : Int) <<< (20 : Nat)) then
    .error (.valueError "AArch64 ADR outside range")
  else
    .ok (lor (lor (lor (if page then 0x90000000 else 0x10000000) (land delta 3 <<< (29 : Nat)))
      (land (delta >>> (2 : Nat)) 0x7ffff <<< (5 : Nat))) register)

/-- `_add(register, immediate)` -/
def add (register immediate : Int) : Int :=
  lor (lor (lor 0x91000000 (immediate <<< (10 : Nat))) (register <<< (5 : Nat))) register

/-- `_memory(register, base, offset, load)` -/
def memory (register base offset : Int) (load : Bool) : Except PyError Int :=
  if offset % 8 ≠ 0 ∨ ¬ (0 ≤ offset ∧ offset < 32768) then
    .error (.valueError "Unaligned AArch64 memory offset")
  else
    .ok (lor (lor (lor (if load then 0xf9400000 else 0xf9000000) ((offset / 8) <<< (10 : Nat)))
      (base <<< (5 : Nat))) register)

/-! ## Fields -/

section Fields

open TwosComplement

theorem align_natCast (value k : Nat) :
    align value ((2 ^ k : Nat) : Int) = (((value + (2 ^ k - 1)) / 2 ^ k * 2 ^ k : Nat) : Int) := by
  have hpos := Nat.two_pow_pos k
  have hvalue : (value : Int) + ((2 ^ k : Nat) : Int) - 1 = ((value + (2 ^ k - 1) : Nat) : Int) := by
    omega
  rw [align, hvalue, land_neg]

theorem branch_eq (pc target : Int) :
    branch pc target =
      if (target - pc) % 4 = 0 ∧ -2 ^ 27 ≤ target - pc ∧ target - pc < 2 ^ 27 then
        .ok (A64.encode (.b (BitVec.ofInt 26 ((target - pc) / 4))))
      else .error (.valueError "AArch64 branch outside range") := by
  have hmask : land ((target - pc) >>> (2 : Nat)) 0x3ffffff =
      ((BitVec.ofInt 26 ((target - pc) / 4)).toNat : Int) := by
    rw [toNat_ofInt, Int.shiftRight_eq_div_pow]
    exact land_mask _ 26
  have hword : lor 0x14000000 (land ((target - pc) >>> (2 : Nat)) 0x3ffffff) =
      (A64.encode (.b (BitVec.ofInt 26 ((target - pc) / 4))) : Int) := by
    rw [hmask]
    exact lor_field 26 (by decide) (BitVec.isLt _)
  have hreach : (1 : Int) <<< (27 : Nat) = 2 ^ 27 := by decide
  rw [branch, hword, hreach]
  by_cases h : (target - pc) % 4 = 0 ∧ -2 ^ 27 ≤ target - pc ∧ target - pc < 2 ^ 27
  · rw [if_pos h, if_neg (by omega)]
  · rw [if_neg h, if_pos (by omega)]

/-- The distance that `_adr` encodes. -/
def distance (pc target : Int) (page : Bool) : Int :=
  if page then target / 2 ^ 12 - pc / 2 ^ 12 else target - pc

/-- The fields of the address of a label, in the order in which `_adr` puts them together. -/
theorem lor_adr {op lo hi rd : Nat} (hlo : lo < 2 ^ 2) (hhi : hi < 2 ^ 19) (hrd : rd < 2 ^ 5) :
    lor (lor (lor ((op * 2 ^ 31 + 0b10000 * 2 ^ 24 : Nat) : Int) ((lo : Int) <<< (29 : Nat)))
      ((hi : Int) <<< (5 : Nat))) rd =
      ((op * 2 ^ 31 + lo * 2 ^ 29 + 0b10000 * 2 ^ 24 + hi * 2 ^ 5 + rd : Nat) : Int) := by
  rw [lor_between 31 29 (by decide) (by omega) (by omega) (by decide),
    lor_shifted 24 5 (by omega) (by omega), lor_field 5 (by omega) hrd]

theorem adr_eq (register : BitVec 5) (pc target : Int) (page : Bool) :
    adr register.toNat pc target page =
      if -2 ^ 20 ≤ distance pc target page ∧ distance pc target page < 2 ^ 20 then
        .ok (A64.encode
          (if page then .adrp register (BitVec.ofInt 21 (distance pc target page))
            else .adr register (BitVec.ofInt 21 (distance pc target page))))
      else .error (.valueError "AArch64 ADR outside range") := by
  have hdelta : (if page then target >>> (12 : Nat) - pc >>> (12 : Nat) else target - pc) =
      distance pc target page := by
    rw [Int.shiftRight_eq_div_pow, Int.shiftRight_eq_div_pow]
    rfl
  have hreach : (1 : Int) <<< (20 : Nat) = 2 ^ 20 := by decide
  rw [adr, hdelta, hreach]
  generalize distance pc target page = delta
  have hword : lor (lor (lor (if page then 0x90000000 else 0x10000000) (land delta 3 <<< (29 : Nat)))
      (land (delta >>> (2 : Nat)) 0x7ffff <<< (5 : Nat))) register.toNat =
      (A64.adrWord (if page then 1 else 0) register (BitVec.ofInt 21 delta) : Int) := by
    have himm := toNat_ofInt 21 delta
    have hlo : land delta 3 = (((BitVec.ofInt 21 delta).toNat % 4 : Nat) : Int) := by
      have hmask : land delta 3 = delta % 2 ^ 2 := land_mask delta 2
      rw [hmask]
      omega
    have hhi : land (delta >>> (2 : Nat)) 0x7ffff = (((BitVec.ofInt 21 delta).toNat / 4 : Nat) : Int) := by
      have hmask : land (delta >>> (2 : Nat)) 0x7ffff = delta >>> (2 : Nat) % 2 ^ 19 :=
        land_mask _ 19
      rw [hmask, Int.shiftRight_eq_div_pow]
      omega
    have hop : (if page then 0x90000000 else 0x10000000 : Int) =
        (((if page then 1 else 0) * 2 ^ 31 + 0b10000 * 2 ^ 24 : Nat) : Int) := by
      cases page <;> rfl
    have himm' := (BitVec.ofInt 21 delta).isLt
    rw [hlo, hhi, hop, lor_adr (by omega) (by omega) register.isLt]
    rfl
  rw [hword]
  by_cases h : -2 ^ 20 ≤ delta ∧ delta < 2 ^ 20
  · rw [if_pos h, if_neg (by omega)]
    cases page <;> rfl
  · rw [if_neg h, if_pos (by omega)]

/-- The fields of an operation with two registers and an immediate. -/
theorem lor_imm12 (op : Nat) (rd rn : BitVec 5) (imm12 : BitVec 12) :
    lor (lor (lor ((op * 2 ^ 22 : Nat) : Int) ((imm12.toNat : Int) <<< (10 : Nat)))
      ((rn.toNat : Int) <<< (5 : Nat))) rd.toNat = (A64.imm12Word op rd rn imm12 : Int) := by
  have himm := imm12.isLt
  have hrn := rn.isLt
  rw [lor_shifted 22 10 (by omega) (by omega), lor_shifted 10 5 (by omega) (by omega),
    lor_field 5 (by omega) rd.isLt]
  rfl

theorem add_eq (register : BitVec 5) (immediate : BitVec 12) :
    add register.toNat immediate.toNat = A64.encode (.add register register immediate) :=
  lor_imm12 0b1001000100 register register immediate

/-- The load or store that `_memory` encodes. -/
def memoryInstr (register base : BitVec 5) (offset : Int) (load : Bool) : A64.Instr :=
  if load then .ldr register base (BitVec.ofInt 12 (offset / 8))
  else .str register base (BitVec.ofInt 12 (offset / 8))

theorem memory_eq (register base : BitVec 5) (offset : Int) (load : Bool) :
    memory register.toNat base.toNat offset load =
      if offset % 8 = 0 ∧ 0 ≤ offset ∧ offset < 32768 then
        .ok (A64.encode (memoryInstr register base offset load))
      else .error (.valueError "Unaligned AArch64 memory offset") := by
  rw [memory]
  by_cases h : offset % 8 = 0 ∧ 0 ≤ offset ∧ offset < 32768
  · have himm : offset / 8 = ((BitVec.ofInt 12 (offset / 8)).toNat : Int) := by
      rw [toNat_ofInt]
      omega
    have hop : (if load then 0xf9400000 else 0xf9000000 : Int) =
        (((if load then 0b1111100101 else 0b1111100100) * 2 ^ 22 : Nat) : Int) := by
      cases load <;> rfl
    rw [if_pos h, if_neg (by omega), hop, himm, lor_imm12]
    cases load <;> rfl
  · rw [if_neg h, if_pos (by omega)]

end Fields

end Camera
end M2391Device
