import M2391Device.Lib.A64.Encoding
import M2391Device.Lib.LittleEndian
import M2391Device.Lib.TwosComplement
import Mathlib.Logic.Function.Basic

/-!
# Machine — what the instructions do

A state has the registers, the stack pointer, the program counter and a memory of bytes.  `step`
fetches the word at the program counter; a run lists the stores that it performs.  A straight line of
code in memory runs as the list of its instructions does, if no store falls on it (`run_straight`).
-/

namespace A64

open LittleEndian (value pack32)

/-! ## States and stores -/

abbrev Memory := BitVec 64 → UInt8

structure State where
  x : BitVec 5 → BitVec 64
  sp : BitVec 64
  pc : BitVec 64
  mem : Memory

/-- A store of eight bytes. -/
structure Store where
  addr : BitVec 64
  value : BitVec 64
  deriving DecidableEq

/-- The bytes from an address on. -/
def bytes (mem : Memory) (a : BitVec 64) (n : Nat) : List UInt8 :=
  (List.range n).map fun i => mem (a + BitVec.ofNat 64 i)

def load64 (mem : Memory) (a : BitVec 64) : BitVec 64 := BitVec.ofNat 64 (value (bytes mem a 8))

def Store.apply (st : Store) (mem : Memory) : Memory := fun p =>
  if (p - st.addr).toNat < 8 then UInt8.ofNat (st.value.toNat / 256 ^ (p - st.addr).toNat)
  else mem p

def applyAll (stores : List Store) (mem : Memory) : Memory :=
  stores.foldl (fun mem st => st.apply mem) mem

/-! ## Instructions -/

namespace State

variable (s : State)

/-- Register 31 reads as zero. -/
def read (r : BitVec 5) : BitVec 64 := if r = 31 then 0 else s.x r

/-- Register 31 is the stack pointer where an address is formed. -/
def readSp (r : BitVec 5) : BitVec 64 := if r = 31 then s.sp else s.x r

def write (r : BitVec 5) (v : BitVec 64) : State :=
  if r = 31 then s else { s with x := Function.update s.x r v }

def writeSp (r : BitVec 5) (v : BitVec 64) : State :=
  if r = 31 then { s with sp := v } else { s with x := Function.update s.x r v }

def next : State := { s with pc := s.pc + 4 }

end State

/-- The page of an address. -/
def page (a : BitVec 64) : BitVec 64 := a >>> 12 <<< 12

def offset8 (imm12 : BitVec 12) : BitVec 64 := imm12.setWidth 64 <<< 3

def exec : Instr → State → State × List Store
  | .bti, s => (s.next, [])
  | .b imm26, s => ({ s with pc := s.pc + imm26.signExtend 64 <<< 2 }, [])
  | .adr rd imm, s => ((s.write rd (s.pc + imm.signExtend 64)).next, [])
  | .adrp rd imm, s => ((s.write rd (page s.pc + imm.signExtend 64 <<< 12)).next, [])
  | .add rd rn imm12, s => ((s.writeSp rd (s.readSp rn + imm12.setWidth 64)).next, [])
  | .ldr rt rn imm12, s => ((s.write rt (load64 s.mem (s.readSp rn + offset8 imm12))).next, [])
  | .str rt rn imm12, s =>
      let st : Store := ⟨s.readSp rn + offset8 imm12, s.read rt⟩
      ({ s with mem := st.apply s.mem }.next, [st])

/-- One step: a program counter that is not aligned, or a word that is not one of the instructions,
has none. -/
def step (s : State) : Option (State × List Store) :=
  if s.pc.toNat % 4 = 0 then (decode (value (bytes s.mem s.pc 4))).map fun i => exec i s else none

/-- A number of steps, with the stores in their order. -/
def run : Nat → State → Option (State × List Store)
  | 0, s => some (s, [])
  | n + 1, s => do
      let (s, first) ← step s
      let (s, rest) ← run n s
      return (s, first ++ rest)

/-- A list of instructions, one after the other. -/
def execAll : List Instr → State → State × List Store
  | [], s => (s, [])
  | i :: is, s => ((execAll is (exec i s).1).1, (exec i s).2 ++ (execAll is (exec i s).1).2)

/-- An instruction after which the next one follows. -/
def Instr.sequential : Instr → Bool
  | .b _ => false
  | _ => true

/-- Instructions in memory. -/
def Code (mem : Memory) (a : BitVec 64) (is : List Instr) : Prop :=
  bytes mem a (4 * is.length) = is.flatMap fun i => pack32 (encode i)

/-! ## Operands -/

section Operands

open TwosComplement

theorem page_ofInt (z : Int) :
    page (BitVec.ofInt 64 z) = BitVec.ofInt 64 (z / 2 ^ 12 * 2 ^ 12) := by
  refine BitVec.eq_of_toNat_eq ?_
  have hz := toNat_ofInt 64 z
  have hpage := toNat_ofInt 64 (z / 2 ^ 12 * 2 ^ 12)
  rw [page, BitVec.toNat_shiftLeft, BitVec.toNat_ushiftRight, Nat.shiftLeft_eq,
    Nat.shiftRight_eq_div_pow]
  omega

/-- The place in its page that an immediate of 12 bits keeps of an address. -/
theorem setWidth_ofInt (z : Int) :
    (BitVec.ofInt 12 z).setWidth 64 = BitVec.ofInt 64 (z % 2 ^ 12) := by
  refine BitVec.eq_of_toNat_eq ?_
  have hz := toNat_ofInt 12 z
  have hmod := toNat_ofInt 64 (z % 2 ^ 12)
  rw [BitVec.toNat_setWidth]
  omega

theorem offset8_ofInt {offset : Nat} (h8 : offset % 8 = 0) (h : offset < 32768) :
    offset8 (BitVec.ofInt 12 ((offset : Int) / 8)) = BitVec.ofNat 64 offset := by
  have hoffset : (offset : Int) / 8 % 2 ^ 12 * 2 ^ 3 = offset := by omega
  rw [offset8, setWidth_ofInt, shiftLeft_ofInt, hoffset, BitVec.ofInt_natCast]

/-- A branch, with where it stands and how far it goes as integers. -/
theorem exec_b {s : State} {pc delta : Int} (hpc : s.pc = BitVec.ofInt 64 pc)
    (hfour : delta % 4 = 0) (hreach : -2 ^ 27 ≤ delta ∧ delta < 2 ^ 27) :
    exec (.b (BitVec.ofInt 26 (delta / 4))) s =
      ({ s with pc := BitVec.ofInt 64 (pc + delta) }, []) := by
  have hrange : -2 ^ 25 ≤ delta / 4 ∧ delta / 4 < 2 ^ 25 := by omega
  have hwhole : delta / 4 * 2 ^ 2 = delta := by omega
  rw [exec, signExtend_ofInt hrange, shiftLeft_ofInt, hpc, ← BitVec.ofInt_add, hwhole]

/-- The address of a label. -/
theorem exec_adr {s : State} {pc delta : Int} (rd : BitVec 5) (hpc : s.pc = BitVec.ofInt 64 pc)
    (hreach : -2 ^ 20 ≤ delta ∧ delta < 2 ^ 20) :
    exec (.adr rd (BitVec.ofInt 21 delta)) s =
      ((s.write rd (BitVec.ofInt 64 (pc + delta))).next, []) := by
  rw [exec, signExtend_ofInt hreach, hpc, ← BitVec.ofInt_add]

/-- The page of a label. -/
theorem exec_adrp {s : State} {pc delta : Int} (rd : BitVec 5) (hpc : s.pc = BitVec.ofInt 64 pc)
    (hreach : -2 ^ 20 ≤ delta ∧ delta < 2 ^ 20) :
    exec (.adrp rd (BitVec.ofInt 21 delta)) s =
      ((s.write rd (BitVec.ofInt 64 ((pc / 2 ^ 12 + delta) * 2 ^ 12))).next, []) := by
  rw [exec, signExtend_ofInt hreach, shiftLeft_ofInt, hpc, page_ofInt, ← BitVec.ofInt_add,
    Int.add_mul]

end Operands

/-! ## Bytes and stores -/

section Bytes

variable {mem : Memory} {a : BitVec 64} {m n : Nat} {st : Store} {stores : List Store}

@[simp] theorem length_bytes (mem : Memory) (a : BitVec 64) (n : Nat) :
    (bytes mem a n).length = n := by
  simp [bytes]

theorem bytes_add (mem : Memory) (a : BitVec 64) (m n : Nat) :
    bytes mem a (m + n) = bytes mem a m ++ bytes mem (a + BitVec.ofNat 64 m) n := by
  rw [bytes, List.range_add, List.map_append, List.map_map, bytes, bytes]
  congr 1
  refine List.map_congr_left fun i _ => ?_
  simp only [Function.comp_apply, BitVec.ofNat_add, BitVec.add_assoc]

/-- The bytes of a part of what is in memory. -/
theorem bytes_part {front middle back : List UInt8}
    (h : bytes mem a (front ++ middle ++ back).length = front ++ middle ++ back) :
    bytes mem (a + BitVec.ofNat 64 front.length) middle.length = middle := by
  rw [List.length_append, List.length_append, bytes_add, bytes_add] at h
  have hfront := List.append_inj_left h (by simp)
  exact List.append_inj_right hfront (by simp)

/-- A store that touches none of the `n` bytes from `a` on. -/
def Store.Apart (st : Store) (a : BitVec 64) (n : Nat) : Prop :=
  ∀ i < n, 8 ≤ (a + BitVec.ofNat 64 i - st.addr).toNat

theorem Store.Apart.part (h : st.Apart a n) {k len : Nat} (hk : k + len ≤ n) :
    st.Apart (a + BitVec.ofNat 64 k) len := by
  intro i hi
  rw [BitVec.add_assoc, ← BitVec.ofNat_add]
  exact h (k + i) (by omega)

theorem Store.Apart.le (h : st.Apart a n) {len : Nat} (hlen : len ≤ n) : st.Apart a len :=
  fun i hi => h i (hi.trans_le hlen)

/-- A store that ends before the bytes, or begins behind them. -/
theorem Store.apart_of_toNat (h : (st.addr.toNat + 8 ≤ a.toNat ∧ a.toNat + n ≤ 2 ^ 64) ∨
    (a.toNat + n ≤ st.addr.toNat ∧ st.addr.toNat + 8 ≤ 2 ^ 64)) : st.Apart a n := by
  intro i hi
  rw [BitVec.toNat_sub, BitVec.toNat_add, BitVec.toNat_ofNat]
  omega

theorem bytes_apply (h : st.Apart a n) : bytes (st.apply mem) a n = bytes mem a n := by
  refine List.map_congr_left fun i hi => ?_
  have hout := h i (List.mem_range.1 hi)
  exact if_neg (Nat.not_lt.2 hout)

theorem bytes_applyAll (h : ∀ st ∈ stores, st.Apart a n) :
    bytes (applyAll stores mem) a n = bytes mem a n := by
  induction stores generalizing mem with
  | nil => rfl
  | cons st stores ih =>
      have hrest : bytes (applyAll stores (st.apply mem)) a n = bytes (st.apply mem) a n :=
        ih fun st' hst' => h st' (List.mem_cons_of_mem st hst')
      exact hrest.trans (bytes_apply (h st List.mem_cons_self))

theorem applyAll_append (first rest : List Store) :
    applyAll (first ++ rest) mem = applyAll rest (applyAll first mem) := List.foldl_append

end Bytes

/-! ## Straight lines of code -/

section Straight

variable {s : State} {i : Instr} {is js : List Instr} {a : BitVec 64}

theorem exec_mem (i : Instr) (s : State) : (exec i s).1.mem = applyAll (exec i s).2 s.mem := by
  cases i with
  | bti | b | str => rfl
  | add rd rn imm12 =>
      simp only [exec, State.writeSp, State.next]
      split <;> rfl
  | adr rd imm | adrp rd imm | ldr rt rn imm12 =>
      simp only [exec, State.write, State.next]
      split <;> rfl

theorem exec_pc (h : i.sequential = true) (s : State) : (exec i s).1.pc = s.pc + 4 := by
  cases i with
  | b imm26 => cases h
  | bti | str => rfl
  | add rd rn imm12 =>
      simp only [exec, State.writeSp, State.next]
      split <;> rfl
  | adr rd imm | adrp rd imm | ldr rt rn imm12 =>
      simp only [exec, State.write, State.next]
      split <;> rfl

theorem execAll_mem (is : List Instr) (s : State) :
    (execAll is s).1.mem = applyAll (execAll is s).2 s.mem := by
  induction is generalizing s with
  | nil => rfl
  | cons i is ih => rw [execAll, ih, applyAll_append, exec_mem]

theorem execAll_append (is js : List Instr) (s : State) :
    execAll (is ++ js) s =
      ((execAll js (execAll is s).1).1, (execAll is s).2 ++ (execAll js (execAll is s).1).2) := by
  induction is generalizing s with
  | nil => simp [execAll]
  | cons i is ih => simp [execAll, ih]

theorem execAll_pc (h : is.all Instr.sequential = true) (s : State) :
    (execAll is s).1.pc = s.pc + BitVec.ofNat 64 (4 * is.length) := by
  induction is generalizing s with
  | nil => simp [execAll]
  | cons i is ih =>
      rw [List.all_cons, Bool.and_eq_true] at h
      rw [execAll, ih h.2, exec_pc h.1, BitVec.add_assoc, List.length_cons, Nat.mul_succ, Nat.add_comm, BitVec.ofNat_add]
      rfl

/-- Instructions have run one after the other: they performed some stores, and they changed no other
register than those that are named. -/
structure Ran (is : List Instr) (s s' : State) (registers : List (BitVec 5)) (stores : List Store) :
    Prop where
  exec : execAll is s = (s', stores)
  others : ∀ r, r ∉ registers → s'.x r = s.x r
  sp : s'.sp = s.sp

namespace Ran

variable {s' s'' : State} {rs rs' : List (BitVec 5)} {first rest : List Store}

theorem append (h : Ran is s s' rs first) (h' : Ran js s' s'' rs' rest) :
    Ran (is ++ js) s s'' (rs ++ rs') (first ++ rest) where
  exec := by rw [execAll_append, h.exec, h'.exec]
  others := fun r hr => by
    rw [h'.others r fun hmem => hr (List.mem_append_right _ hmem),
      h.others r fun hmem => hr (List.mem_append_left _ hmem)]
  sp := h'.sp.trans h.sp

theorem mem (h : Ran is s s' rs first) : s'.mem = applyAll first s.mem := by
  have hmem := execAll_mem is s
  rwa [h.exec] at hmem

theorem pc (h : Ran is s s' rs first) (hseq : is.all Instr.sequential = true) :
    s'.pc = s.pc + BitVec.ofNat 64 (4 * is.length) := by
  have hpc := execAll_pc hseq s
  rwa [h.exec] at hpc

end Ran

/-! ### The instructions one by one -/

section Rules

variable {r : BitVec 5} {v : BitVec 64}

theorem ran_bti (s : State) : ∃ s', Ran [.bti] s s' [] [] ∧ s'.x = s.x := by
  refine ⟨s.next, ⟨?_, ?_, ?_⟩, ?_⟩
  · rfl
  · intro _ _
    rfl
  · rfl
  · rfl

/-- An instruction that writes a register and stores nothing. -/
theorem ran_write (hr : r ≠ 31) (hexec : exec i s = ((s.write r v).next, [])) :
    ∃ s', Ran [i] s s' [r] [] ∧ s'.x r = v := by
  have hwrite : s.write r v = { s with x := Function.update s.x r v } := if_neg hr
  rw [hwrite] at hexec
  refine ⟨({ s with x := Function.update s.x r v } : State).next, ⟨?_, ?_, ?_⟩, ?_⟩
  · rw [execAll, hexec, execAll, List.append_nil]
  · intro q hq
    exact Function.update_of_ne (List.ne_of_not_mem_cons hq) v s.x
  · rfl
  · exact Function.update_self r v s.x

theorem ran_adr (s : State) (hr : r ≠ 31) (imm : BitVec 21) :
    ∃ s', Ran [.adr r imm] s s' [r] [] ∧ s'.x r = s.pc + imm.signExtend 64 := ran_write hr rfl

theorem ran_adrp (s : State) (hr : r ≠ 31) (imm : BitVec 21) :
    ∃ s', Ran [.adrp r imm] s s' [r] [] ∧ s'.x r = page s.pc + imm.signExtend 64 <<< 12 :=
  ran_write hr rfl

theorem ran_add (s : State) (hr : r ≠ 31) (rn : BitVec 5) (imm12 : BitVec 12) :
    ∃ s', Ran [.add r rn imm12] s s' [r] [] ∧ s'.x r = s.readSp rn + imm12.setWidth 64 := by
  refine ran_write hr ?_
  rw [exec, State.writeSp, State.write, if_neg hr, if_neg hr]

theorem ran_ldr (s : State) (hr : r ≠ 31) (rn : BitVec 5) (imm12 : BitVec 12) :
    ∃ s', Ran [.ldr r rn imm12] s s' [r] [] ∧
      s'.x r = load64 s.mem (s.readSp rn + offset8 imm12) := ran_write hr rfl

theorem ran_str (s : State) (r rn : BitVec 5) (imm12 : BitVec 12) :
    ∃ s', Ran [.str r rn imm12] s s' [] [⟨s.readSp rn + offset8 imm12, s.read r⟩] ∧ s'.x = s.x := by
  refine ⟨(exec (.str r rn imm12) s).1, ⟨?_, ?_, ?_⟩, ?_⟩
  · rfl
  · intro _ _
    rfl
  · rfl
  · rfl

end Rules

theorem Code.head (h : Code s.mem a (i :: is)) : bytes s.mem a 4 = pack32 (encode i) := by
  rw [Code, List.length_cons, Nat.mul_succ, Nat.add_comm, bytes_add, List.flatMap_cons] at h
  exact List.append_inj_left h (by simp)

theorem Code.tail (h : Code s.mem a (i :: is)) : Code s.mem (a + 4) is := by
  rw [Code, List.length_cons, Nat.mul_succ, Nat.add_comm, bytes_add, List.flatMap_cons] at h
  exact List.append_inj_right h (by simp)

theorem step_code (halign : s.pc.toNat % 4 = 0) (h : Code s.mem s.pc (i :: is)) :
    step s = some (exec i s) := by
  rw [step, if_pos halign, h.head, LittleEndian.value_pack32 (encode_lt i), decode_encode]
  rfl

/-- A straight line of code runs as its instructions do, up to a last one that may branch. -/
theorem run_straight (hseq : is.all Instr.sequential = true) (halign : s.pc.toNat % 4 = 0)
    (hcode : Code s.mem s.pc (is ++ [i]))
    (hapart : ∀ st ∈ (execAll is s).2, st.Apart s.pc (4 * (is ++ [i]).length)) :
    run (is ++ [i]).length s = some (execAll (is ++ [i]) s) := by
  induction is generalizing s with
  | nil =>
      have hstep := step_code halign hcode
      simp only [List.nil_append, List.length_cons, List.length_nil, run, hstep, execAll,
        List.append_nil, Option.bind_eq_bind, Option.bind_some]
      rfl
  | cons j is ih =>
      rw [List.all_cons, Bool.and_eq_true] at hseq
      have hpc := exec_pc hseq.1 s
      have hlength : 4 + 4 * (is ++ [i]).length ≤ 4 * (j :: is ++ [i]).length := by
        rw [List.cons_append, List.length_cons]
        omega
      have hfirst : ∀ st ∈ (exec j s).2, st.Apart (exec j s).1.pc (4 * (is ++ [i]).length) := by
        intro st hst
        rw [hpc]
        exact (hapart st (List.mem_append_left _ hst)).part hlength
      have hrest := ih (s := (exec j s).1) hseq.2
        (by rw [hpc, BitVec.toNat_add]; change (s.pc.toNat + 4) % 2 ^ 64 % 4 = 0; omega)
        (by
          rw [Code, exec_mem, bytes_applyAll hfirst, hpc]
          exact hcode.tail)
        (by
          intro st hst
          rw [hpc]
          exact (hapart st (List.mem_append_right _ hst)).part hlength)
      rw [List.cons_append, List.length_cons, run, step_code halign hcode]
      simp only [Option.bind_eq_bind, Option.bind_some, hrest]
      rfl

end Straight

end A64
