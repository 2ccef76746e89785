import M2391Device.Camera.Encoders
import M2391Device.Lib.A64.Machine

/-!
# EncoderWords — what the words of the encoders are to the processor

Each encoder of `camera_multicam_fixup.py` raises exactly where its distance or offset does not fit, and
otherwise computes the word of an instruction that reaches what its arguments name
(`encoders_exact`).
-/

namespace M2391Device
namespace Camera

open Ims (PyError)
open A64 (Instr State exec)
open Int (land)

/-- A word that is read as an instruction, and consists of the fields of that instruction. -/
structure WordOf (word : Int) (i : Instr) : Prop where
  width : 0 ≤ word ∧ word < 2 ^ 32
  decoded : A64.decode word.toNat = some i
  fields : word = A64.encode i

/-- What an encoder gives: the word of an instruction with some meaning, or an exception exactly where
its operand does not fit. -/
def Exact (result : Except PyError Int) (fits : Prop) (meaning : Instr → Prop) : Prop :=
  match result with
  | .ok word => fits ∧ ∃ i, WordOf word i ∧ meaning i
  | .error _ => ¬ fits

theorem wordOf_encode (i : Instr) : WordOf (A64.encode i) i := by
  have hlt := A64.encode_lt i
  refine ⟨⟨by omega, by omega⟩, ?_, rfl⟩
  rw [Int.toNat_natCast, A64.decode_encode]

theorem exact_of_eq {result : Except PyError Int} {fits : Prop} [Decidable fits]
    {meaning : Instr → Prop} {i : Instr} {e : PyError}
    (h : result = if fits then .ok (A64.encode i) else .error e) (hmeaning : fits → meaning i) :
    Exact result fits meaning := by
  by_cases hfits : fits
  · rw [h, if_pos hfits]
    exact ⟨hfits, i, wordOf_encode i, hmeaning hfits⟩
  · rw [h, if_neg hfits]
    exact hfits

/-! ## The encoders one by one -/

section Exactness

open TwosComplement

variable {pc target : Int}

theorem branch_exact (pc target : Int) :
    Exact (branch pc target)
      ((target - pc) % 4 = 0 ∧ -2 ^ 27 ≤ target - pc ∧ target - pc < 2 ^ 27) fun i =>
        ∃ imm26, i = .b imm26 ∧ pc + 4 * imm26.toInt = target ∧
          ∀ s : State, s.pc = BitVec.ofInt 64 pc →
            exec i s = ({ s with pc := BitVec.ofInt 64 target }, []) := by
  have htarget : pc + (target - pc) = target := by omega
  refine exact_of_eq (branch_eq pc target) fun ⟨hfour, hreach⟩ => ⟨_, rfl, ?_, fun s hpc => ?_⟩
  · rw [toInt_ofInt (by omega)]
    omega
  · rw [A64.exec_b hpc hfour hreach, htarget]

/-- `_adr(register, pc, target)` -/
theorem adr_exact (register : BitVec 5) (pc target : Int) :
    Exact (adr register.toNat pc target false) (-2 ^ 20 ≤ target - pc ∧ target - pc < 2 ^ 20) fun i =>
      ∃ imm, i = .adr register imm ∧ pc + imm.toInt = target ∧
        ∀ s : State, s.pc = BitVec.ofInt 64 pc →
          exec i s = ((s.write register (BitVec.ofInt 64 target)).next, []) := by
  have hadr := adr_eq register pc target false
  have htarget : pc + (target - pc) = target := by omega
  simp only [distance, if_neg Bool.false_ne_true] at hadr
  refine exact_of_eq hadr fun hreach => ⟨_, rfl, ?_, fun s hpc => ?_⟩
  · rw [toInt_ofInt hreach, htarget]
  · rw [A64.exec_adr register hpc hreach, htarget]

/-- `_adr(register, pc, target, page=True)` -/
theorem adrp_exact (register : BitVec 5) (pc target : Int) :
    Exact (adr register.toNat pc target true)
      (-2 ^ 20 ≤ target / 2 ^ 12 - pc / 2 ^ 12 ∧ target / 2 ^ 12 - pc / 2 ^ 12 < 2 ^ 20) fun i =>
        ∃ imm, i = .adrp register imm ∧ pc / 2 ^ 12 + imm.toInt = target / 2 ^ 12 ∧
          ∀ s : State, s.pc = BitVec.ofInt 64 pc →
            exec i s = ((s.write register (BitVec.ofInt 64 (target / 2 ^ 12 * 2 ^ 12))).next, []) := by
  have hadr := adr_eq register pc target true
  have htarget : pc / 2 ^ 12 + (target / 2 ^ 12 - pc / 2 ^ 12) = target / 2 ^ 12 := by omega
  simp only [distance, if_true] at hadr
  refine exact_of_eq hadr fun hreach => ⟨_, rfl, ?_, fun s hpc => ?_⟩
  · rw [toInt_ofInt hreach, htarget]
  · rw [A64.exec_adrp register hpc hreach, htarget]

/-- The address of a load or store is the base with the offset added. -/
theorem memory_exact (register base : BitVec 5) (offset : Int) (load : Bool) :
    Exact (memory register.toNat base.toNat offset load)
      (offset % 8 = 0 ∧ 0 ≤ offset ∧ offset < 32768) fun i =>
        ∃ imm12, i = (if load then .ldr register base imm12 else .str register base imm12) ∧
          8 * (imm12.toNat : Int) = offset ∧
          ∀ a : BitVec 64, a + A64.offset8 imm12 = a + BitVec.ofInt 64 offset := by
  refine exact_of_eq (memory_eq register base offset load) fun ⟨height, hlow, hhigh⟩ =>
    ⟨BitVec.ofInt 12 (offset / 8), rfl, ?_, fun a => ?_⟩
  · rw [toNat_ofInt]
    omega
  · lift offset to Nat using hlow
    rw [A64.offset8_ofInt (by omega) (by omega), BitVec.ofInt_natCast]

/-- `_add` checks nothing; an immediate of 12 bits keeps to its field. -/
theorem add_exact (register : BitVec 5) (target : Int) :
    ∃ imm12 : BitVec 12, WordOf (add register.toNat (land target 0xfff)) (.add register register imm12) ∧
      (imm12.toNat : Int) = target % 2 ^ 12 := by
  have hmask : land target 0xfff = target % 2 ^ 12 := land_mask target 12
  have himm := toNat_ofInt 12 target
  refine ⟨BitVec.ofInt 12 target, ?_, himm⟩
  rw [hmask, ← himm, add_eq]
  exact wordOf_encode _

end Exactness

/-! ## All of them -/

/-- **Exactness.**  For registers below 32 each encoder raises exactly where its distance or offset is
out of reach, and otherwise gives a word of 32 bits that decodes to the same registers and to the
target, and consists of these fields alone. -/
theorem encoders_exact (pc target offset : Int) (register base : Nat) (hregister : register < 32)
    (hbase : base < 32) :
    Exact (branch pc target)
        ((target - pc) % 4 = 0 ∧ -2 ^ 27 ≤ target - pc ∧ target - pc < 2 ^ 27) (fun i =>
          ∃ imm26, i = .b imm26 ∧ pc + 4 * imm26.toInt = target ∧
            ∀ s : State, s.pc = BitVec.ofInt 64 pc →
              exec i s = ({ s with pc := BitVec.ofInt 64 target }, [])) ∧
      Exact (adr register pc target false) (-2 ^ 20 ≤ target - pc ∧ target - pc < 2 ^ 20) (fun i =>
          ∃ imm, i = .adr (BitVec.ofNat 5 register) imm ∧ pc + imm.toInt = target ∧
            ∀ s : State, s.pc = BitVec.ofInt 64 pc →
              exec i s =
                ((s.write (BitVec.ofNat 5 register) (BitVec.ofInt 64 target)).next, [])) ∧
      Exact (adr register pc target true)
        (-2 ^ 20 ≤ target / 2 ^ 12 - pc / 2 ^ 12 ∧ target / 2 ^ 12 - pc / 2 ^ 12 < 2 ^ 20) (fun i =>
          ∃ imm, i = .adrp (BitVec.ofNat 5 register) imm ∧
            pc / 2 ^ 12 + imm.toInt = target / 2 ^ 12 ∧
            ∀ s : State, s.pc = BitVec.ofInt 64 pc →
              exec i s = ((s.write (BitVec.ofNat 5 register)
                (BitVec.ofInt 64 (target / 2 ^ 12 * 2 ^ 12))).next, [])) ∧
      (∀ load, Exact (memory register base offset load)
        (offset % 8 = 0 ∧ 0 ≤ offset ∧ offset < 32768) (fun i =>
          ∃ imm12, i = (if load then .ldr (BitVec.ofNat 5 register) (BitVec.ofNat 5 base) imm12
              else .str (BitVec.ofNat 5 register) (BitVec.ofNat 5 base) imm12) ∧
            8 * (imm12.toNat : Int) = offset ∧
            ∀ a : BitVec 64, a + A64.offset8 imm12 = a + BitVec.ofInt 64 offset)) ∧
      ∃ imm12 : BitVec 12, WordOf (add register (land target 0xfff))
          (.add (BitVec.ofNat 5 register) (BitVec.ofNat 5 register) imm12) ∧
        (imm12.toNat : Int) = target % 2 ^ 12 := by
  have hregister' : (register : Int) = ((BitVec.ofNat 5 register).toNat : Int) := by
    rw [BitVec.toNat_ofNat, Nat.mod_eq_of_lt hregister]
  have hbase' : (base : Int) = ((BitVec.ofNat 5 base).toNat : Int) := by
    rw [BitVec.toNat_ofNat, Nat.mod_eq_of_lt hbase]
  rw [hregister', hbase']
  exact ⟨branch_exact pc target, adr_exact _ pc target, adrp_exact _ pc target,
    memory_exact _ _ offset, add_exact _ target⟩

/-- The longest ways back, into `x9`, and the farthest load from `x11`. -/
theorem encoders_exact_back :
    (branch (2 ^ 27) 0 = .ok 0x16000000 ∧
      ∃ imm26, A64.decode 0x16000000 = some (.b imm26) ∧ 2 ^ 27 + 4 * imm26.toInt = 0) ∧
    (adr 9 (2 ^ 20) 0 false = .ok 0x10800009 ∧
      ∃ imm, A64.decode 0x10800009 = some (.adr 9 imm) ∧ 2 ^ 20 + imm.toInt = 0) ∧
    (memory 9 11 32760 true = .ok 0xf97ffd69 ∧
      ∃ imm12, A64.decode 0xf97ffd69 = some (.ldr 9 11 imm12) ∧ 8 * (imm12.toNat : Int) = 32760) := by
  have hbranch : branch (2 ^ 27) 0 = .ok 0x16000000 := by decide +kernel
  have hadr : adr 9 (2 ^ 20) 0 false = .ok 0x10800009 := by decide +kernel
  have hmemory : memory 9 11 32760 true = .ok 0xf97ffd69 := by decide +kernel
  have hfar := (encoders_exact (2 ^ 27) 0 0 9 11 (by decide) (by decide)).1
  rcases encoders_exact (2 ^ 20) 0 32760 9 11 (by decide) (by decide) with ⟨_, hnear, _, hload, _⟩
  have hload := hload true
  rw [hbranch] at hfar
  rw [Nat.cast_ofNat, hadr] at hnear
  rw [Nat.cast_ofNat, Nat.cast_ofNat, hmemory] at hload
  rcases hfar with ⟨_, _, hb, imm26, rfl, htarget, _⟩
  rcases hnear with ⟨_, _, ha, imm, rfl, hplace, _⟩
  rcases hload with ⟨_, _, hl, imm12, rfl, hoffset, _⟩
  exact ⟨⟨hbranch, imm26, hb.decoded, htarget⟩, ⟨hadr, imm, ha.decoded, hplace⟩,
    hmemory, imm12, hl.decoded, hoffset⟩

end Camera
end M2391Device
