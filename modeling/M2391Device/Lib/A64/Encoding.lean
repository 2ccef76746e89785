import Mathlib.Data.BitVec

/-!
# Encoding — words of some A64 instructions

Each instruction carries its operands as the fields of its word, and a word is a number below 2^32.
`encode` puts the fields in their places, `decode` is the reading of a word by the architecture, and
`decode_encode` says that no field is lost or read in another's place.
-/

namespace A64

/-- `bti` is `BTI c`; loads and stores are those of 64 bits with an unsigned offset. -/
inductive Instr
  | bti
  | b (imm26 : BitVec 26)
  | adr (rd : BitVec 5) (imm : BitVec 21)
  | adrp (rd : BitVec 5) (imm : BitVec 21)
  | add (rd rn : BitVec 5) (imm12 : BitVec 12)
  | ldr (rt rn : BitVec 5) (imm12 : BitVec 12)
  | str (rt rn : BitVec 5) (imm12 : BitVec 12)
  deriving DecidableEq

/-! ## From instructions to words -/

/-- The address of a label: the two low bits of the immediate stand apart from the others. -/
def adrWord (op : Nat) (rd : BitVec 5) (imm : BitVec 21) : Nat :=
  op * 2 ^ 31 + imm.toNat % 4 * 2 ^ 29 + 0b10000 * 2 ^ 24 + imm.toNat / 4 * 2 ^ 5 + rd.toNat

/-- An operation with two registers and an immediate of 12 bits. -/
def imm12Word (op : Nat) (rd rn : BitVec 5) (imm12 : BitVec 12) : Nat :=
  op * 2 ^ 22 + imm12.toNat * 2 ^ 10 + rn.toNat * 2 ^ 5 + rd.toNat

def encode : Instr → Nat
  | .bti => 0xd503245f
  | .b imm26 => 0b000101 * 2 ^ 26 + imm26.toNat
  | .adr rd imm => adrWord 0 rd imm
  | .adrp rd imm => adrWord 1 rd imm
  | .add rd rn imm12 => imm12Word 0b1001000100 rd rn imm12
  | .ldr rt rn imm12 => imm12Word 0b1111100101 rt rn imm12
  | .str rt rn imm12 => imm12Word 0b1111100100 rt rn imm12

/-! ## From words to instructions -/

/-- The bits of a word from `lo` on. -/
def field (w lo len : Nat) : Nat := w / 2 ^ lo % 2 ^ len

def register (w lo : Nat) : BitVec 5 := BitVec.ofNat 5 (field w lo 5)

def imm12Of (w : Nat) : BitVec 12 := BitVec.ofNat 12 (field w 10 12)

def immOf (w : Nat) : BitVec 21 := BitVec.ofNat 21 (field w 5 19 * 4 + field w 29 2)

def decode (w : Nat) : Option Instr :=
  if w = 0xd503245f then some .bti
  else if field w 26 6 = 0b000101 then some (.b (BitVec.ofNat 26 (field w 0 26)))
  else if field w 24 5 = 0b10000 then
    if field w 31 1 = 0 then some (.adr (register w 0) (immOf w))
    else some (.adrp (register w 0) (immOf w))
  else if field w 22 10 = 0b1001000100 then some (.add (register w 0) (register w 5) (imm12Of w))
  else if field w 22 10 = 0b1111100101 then some (.ldr (register w 0) (register w 5) (imm12Of w))
  else if field w 22 10 = 0b1111100100 then some (.str (register w 0) (register w 5) (imm12Of w))
  else none

/-! ## The round trip -/

theorem encode_lt (i : Instr) : encode i < 2 ^ 32 := by
  cases i with
  | bti => decide
  | b imm26 =>
      have himm := imm26.isLt
      simp only [encode]
      omega
  | adr rd imm | adrp rd imm =>
      have himm := imm.isLt
      have hrd := rd.isLt
      simp only [encode, adrWord]
      omega
  | add rd rn imm12 | ldr rd rn imm12 | str rd rn imm12 =>
      have himm := imm12.isLt
      have hrd := rd.isLt
      have hrn := rn.isLt
      simp only [encode, imm12Word]
      omega

theorem ofNat_of_eq {w n : Nat} {x : BitVec w} (h : n = x.toNat) : BitVec.ofNat w n = x := by
  rw [h, BitVec.ofNat_toNat, BitVec.setWidth_eq]

/-- The fields of the address of a label. -/
theorem adrWord_fields {op lo hi rd : Nat} (hop : op < 2) (hlo : lo < 2 ^ 2) (hhi : hi < 2 ^ 19)
    (hrd : rd < 2 ^ 5) {w : Nat}
    (hw : w = op * 2 ^ 31 + lo * 2 ^ 29 + 0b10000 * 2 ^ 24 + hi * 2 ^ 5 + rd) :
    field w 0 5 = rd ∧ field w 5 19 = hi ∧ field w 29 2 = lo ∧ field w 24 5 = 0b10000 ∧
      field w 31 1 = op ∧ field w 26 6 ≠ 0b000101 ∧ w ≠ 0xd503245f := by
  subst hw
  simp only [field]
  refine ⟨?_, ?_, ?_, ?_, ?_, ?_, ?_⟩ <;> omega

theorem decode_adrWord {op : Nat} (hop : op < 2) (rd : BitVec 5) (imm : BitVec 21) :
    decode (adrWord op rd imm) = some (if op = 0 then .adr rd imm else .adrp rd imm) := by
  have himm := imm.isLt
  have hlo : imm.toNat % 4 < 2 ^ 2 := by omega
  have hhi : imm.toNat / 4 < 2 ^ 19 := by omega
  rcases adrWord_fields hop hlo hhi rd.isLt rfl with ⟨hrd, hhi, hlo, hadr, hpage, hb, hbti⟩
  have hrd' : register (adrWord op rd imm) 0 = rd := ofNat_of_eq hrd
  have himm' : immOf (adrWord op rd imm) = imm := by
    refine ofNat_of_eq ?_
    rw [adrWord, hhi, hlo]
    omega
  rw [decode, adrWord, if_neg hbti, if_neg hb, if_pos hadr, hpage, ← adrWord, hrd', himm']
  by_cases h0 : op = 0
  · rw [if_pos h0, if_pos h0]
  · rw [if_neg h0, if_neg h0]

theorem decode_imm12Word {op : Nat} (hlow : 0b1001000100 ≤ op) (hop : op < 2 ^ 10)
    (hother : op / 2 ^ 2 % 2 ^ 5 ≠ 0b10000 ∧ op ≠ 0xd503245f / 2 ^ 22) (rd rn : BitVec 5)
    (imm12 : BitVec 12) :
    decode (imm12Word op rd rn imm12) =
      if op = 0b1001000100 then some (.add rd rn imm12)
      else if op = 0b1111100101 then some (.ldr rd rn imm12)
      else if op = 0b1111100100 then some (.str rd rn imm12)
      else none := by
  have himm := imm12.isLt
  have hrd := rd.isLt
  have hrn := rn.isLt
  have hrd' : register (imm12Word op rd rn imm12) 0 = rd :=
    ofNat_of_eq (by simp only [field, imm12Word]; omega)
  have hrn' : register (imm12Word op rd rn imm12) 5 = rn :=
    ofNat_of_eq (by simp only [field, imm12Word]; omega)
  have himm' : imm12Of (imm12Word op rd rn imm12) = imm12 :=
    ofNat_of_eq (by simp only [field, imm12Word]; omega)
  have hbti : imm12Word op rd rn imm12 ≠ 0xd503245f := by simp only [imm12Word]; omega
  have hb : field (imm12Word op rd rn imm12) 26 6 ≠ 0b000101 := by
    simp only [field, imm12Word]
    omega
  have hadr : field (imm12Word op rd rn imm12) 24 5 ≠ 0b10000 := by
    simp only [field, imm12Word]
    omega
  have hopOf : field (imm12Word op rd rn imm12) 22 10 = op := by
    simp only [field, imm12Word]
    omega
  rw [decode, if_neg hbti, if_neg hb, if_neg hadr, hrd', hrn', himm', hopOf]

theorem decode_encode (i : Instr) : decode (encode i) = some i := by
  cases i with
  | bti => decide
  | b imm26 =>
      have himm := imm26.isLt
      have himm' : BitVec.ofNat 26 (field (encode (.b imm26)) 0 26) = imm26 :=
        ofNat_of_eq (by simp only [field, encode]; omega)
      have hbti : encode (.b imm26) ≠ 0xd503245f := by simp only [encode]; omega
      have hb : field (encode (.b imm26)) 26 6 = 0b000101 := by simp only [field, encode]; omega
      rw [decode, if_neg hbti, if_pos hb, himm']
  | adr rd imm => exact decode_adrWord (by decide) rd imm
  | adrp rd imm => exact decode_adrWord (by decide) rd imm
  | add rd rn imm12 => exact decode_imm12Word (by decide) (by decide) (by decide) rd rn imm12
  | ldr rt rn imm12 => exact decode_imm12Word (by decide) (by decide) (by decide) rt rn imm12
  | str rt rn imm12 => exact decode_imm12Word (by decide) (by decide) (by decide) rt rn imm12

/-- A word that is read as an instruction is the word of that instruction. -/
theorem encode_of_decode {w : Nat} {i : Instr} (hw : w < 2 ^ 32) (h : decode w = some i) :
    encode i = w := by
  -- the immediate of the address of a label, put together from its two parts
  have himm : (w / 2 ^ 5 % 2 ^ 19 * 4 + w / 2 ^ 29 % 2 ^ 2) % 2 ^ 21 =
      w / 2 ^ 5 % 2 ^ 19 * 4 + w / 2 ^ 29 % 2 ^ 2 := Nat.mod_eq_of_lt (by omega)
  have hlo : (w / 2 ^ 5 % 2 ^ 19 * 4 + w / 2 ^ 29 % 2 ^ 2) % 4 = w / 2 ^ 29 % 2 ^ 2 := by omega
  have hhi : (w / 2 ^ 5 % 2 ^ 19 * 4 + w / 2 ^ 29 % 2 ^ 2) / 4 = w / 2 ^ 5 % 2 ^ 19 := by omega
  unfold decode at h
  split_ifs at h with hbti hb hadr hpage hadd hldr hstr
  · cases h
    exact hbti.symm
  · cases h
    simp only [encode, field, BitVec.toNat_ofNat] at hb ⊢
    omega
  · cases h
    simp only [encode, adrWord, register, immOf, field, BitVec.toNat_ofNat, himm, hlo, hhi]
      at hadr hpage ⊢
    omega
  · cases h
    simp only [encode, adrWord, register, immOf, field, BitVec.toNat_ofNat, himm, hlo, hhi]
      at hadr hpage ⊢
    omega
  · cases h
    simp only [encode, imm12Word, register, imm12Of, field, BitVec.toNat_ofNat] at hadd ⊢
    omega
  · cases h
    simp only [encode, imm12Word, register, imm12Of, field, BitVec.toNat_ofNat] at hldr ⊢
    omega
  · cases h
    simp only [encode, imm12Word, register, imm12Of, field, BitVec.toNat_ofNat] at hstr ⊢
    omega

end A64
