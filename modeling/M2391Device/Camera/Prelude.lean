import M2391Device.Camera.Encoders
import M2391Device.Lib.A64.Machine

/-!
# Prelude — the code that the camera fixup injects

`_prelude` of `camera_multicam_fixup.py`: the words it assembles, the literals behind them, and what
the bytes do when they are run at the address they were assembled for, moved by a load bias.
-/

namespace M2391Device
namespace Camera

open Ims (PyError Bytes)
open Int (land lor)
open LittleEndian (pack32)
open A64 (Instr State Store)

/-! ## Constants -/

def ENTRY_BRANCH : Nat := 0xd1a04
def ENTRY_BODY : Nat := 0x3038b0
def MODE_POINTER : Nat := 0x45c658
def THREE_MODES : Nat := 0x4856e0
def THREE_TAG_TABLE : Nat := 0x485728
def THREE_ZOOM_VECTOR : Nat := 0x4856f8
def DEFAULT_TABLE_POINTER : Nat := 0x489570

/-- `b'M2391-MCX-3CAM-V1\0'` -/
def MARKER : Bytes := "M2391-MCX-3CAM-V1".toList.map (fun c => UInt8.ofNat c.toNat) ++ [0]

/-- A decimal literal: `units` over a power of ten. -/
structure Decimal where
  units : Nat
  places : Nat

def BOUNDARIES : List (Decimal × Decimal) :=
  [(⟨6, 1⟩, ⟨9, 1⟩), (⟨9, 1⟩, ⟨99, 2⟩), (⟨99, 2⟩, ⟨19, 1⟩), (⟨19, 1⟩, ⟨21, 1⟩), (⟨21, 1⟩, ⟨10, 0⟩)]

/-! ## Floats -/

/-- `n / d` rounded to the nearest integer, and to the even one of two. -/
def roundHalfEven (n d : Nat) : Nat :=
  if d < 2 * (n % d) ∨ (2 * (n % d) = d ∧ n / d % 2 = 1) then n / d + 1 else n / d

/-- The exponent with which `n / d`, as a multiple of its power of two, has `p` bits. -/
def exponent (p n d : Nat) : Int :=
  let e : Int := (Nat.log2 n : Int) - Nat.log2 d
  (if d * 2 ^ e.toNat ≤ n * 2 ^ (-e).toNat then e else e - 1) - (p - 1)

/-- The number of `p` bits, with its exponent, that is nearest to `n / d`. -/
def nearest (p n d : Nat) : Nat × Int :=
  let e := exponent p n d
  let m := roundHalfEven (n * 2 ^ (-e).toNat) (d * 2 ^ e.toNat)
  if m = 2 ^ p then (2 ^ (p - 1), e + 1) else (m, e)

/-- The double that a literal stands for. -/
def Decimal.toDouble (x : Decimal) : Nat × Int := nearest 53 x.units (10 ^ x.places)

/-- The bits of the float nearest to a double, for a positive one in the range of normal floats. -/
def floatBits (double : Nat × Int) : Nat :=
  let (m, e) := nearest 24 (double.1 * 2 ^ double.2.toNat) (2 ^ (-double.2).toNat)
  (e + 150).toNat * 2 ^ 23 + (m - 2 ^ 23)

/-- `struct.pack('<ff', *bounds)` -/
def packFloats (bounds : Decimal × Decimal) : Bytes :=
  pack32 (floatBits bounds.1.toDouble) ++ pack32 (floatBits bounds.2.toDouble)

/-! ## The assembly -/

/-- `struct.pack('<I', word)` -/
def packI (word : Int) : Except PyError Bytes :=
  if 0 ≤ word ∧ word < 2 ^ 32 then .ok (pack32 word.toNat) else .error .structError

def packWords : List Int → Except PyError Bytes
  | [] => .ok []
  | word :: words => do
      let bytes ← packI word
      let rest ← packWords words
      return bytes ++ rest

/-- `pointer(register, target)`, after the words emitted so far. -/
def emitPointer (address register target : Int) (words : List Int) :
    Except PyError (List Int) := do
  let page ← adr register (address + words.length * 4) target true
  return words ++ [page, add register (land target 0xfff)]

/-- The body of the loop over the boundaries. -/
def emitBoundary (words : List Int) (i : Nat) : Except PyError (List Int) := do
  let load ← memory 10 11 (i * 8) true
  let store ← memory 10 9 (i * 160) false
  let clear ← memory 31 9 (i * 160 + 8) false
  return words ++ [load, store, clear]

/-- `_prelude(address)` -/
def prelude (address : Int) : Except PyError Bytes := do
  let words ← emitPointer address 9 DEFAULT_TABLE_POINTER [0xd503245f]
  let words ← emitPointer address 10 THREE_TAG_TABLE words
  let store ← memory 10 9 0 false
  let words := words ++ [store]
  let words ← emitPointer address 9 THREE_ZOOM_VECTOR words
  let load ← memory 9 9 0 true
  let words := words ++ [load]
  let literal_instruction := words.length
  -- a forward reference, resolved below
  let words := words ++ [0]
  let words ← (List.range BOUNDARIES.length).foldlM emitBoundary words
  let back ← branch (address + words.length * 4) ENTRY_BODY
  let words := words ++ [back]
  let literal_offset := align (words.length * 4) 8
  let literal ← adr 11 (address + literal_instruction * 4) (address + literal_offset) false
  let code ← packWords (words.set literal_instruction literal)
  return code ++ List.replicate (literal_offset - code.length).toNat 0 ++
    BOUNDARIES.flatMap packFloats ++ MARKER

/-! ## The instructions -/

/-- The two instructions for the address of a target: its page, and its place in the page. -/
def pointer (register : BitVec 5) (pc target : Int) : List Instr :=
  [.adrp register (BitVec.ofInt 21 (distance pc target true)),
    .add register register (BitVec.ofInt 12 target)]

/-- The three instructions for a boundary: the pair is copied, and the offset after it is cleared. -/
def boundary (i : Nat) : List Instr :=
  [memoryInstr 10 11 (i * 8) true, memoryInstr 10 9 (i * 160) false,
    memoryInstr 31 9 (i * 160 + 8) false]

/-- The instructions before the address of the literals. -/
def setup (address : Int) : List Instr :=
  [.bti] ++ pointer 9 (address + 4) DEFAULT_TABLE_POINTER ++
    pointer 10 (address + 12) THREE_TAG_TABLE ++ [memoryInstr 10 9 0 false] ++
    pointer 9 (address + 24) THREE_ZOOM_VECTOR ++ [memoryInstr 9 9 0 true]

/-- The address of the literals, which follow the 26 instructions. -/
def literalPointer (address : Int) : Instr :=
  .adr 11 (BitVec.ofInt 21 (distance (address + 36) (address + 104) false))

def loop : List Instr := (List.range BOUNDARIES.length).flatMap boundary

/-- The branch to the entry body. -/
def back (address : Int) : Instr := .b (BitVec.ofInt 26 ((ENTRY_BODY - (address + 100)) / 4))

def program (address : Int) : List Instr :=
  setup address ++ [literalPointer address] ++ loop ++ [back address]

/-- What the literals and the marker are. -/
def literals : Bytes := BOUNDARIES.flatMap packFloats

def wordsOf (is : List Instr) : List Int := is.map fun i => (A64.encode i : Int)

def codeBytes (is : List Instr) : Bytes := is.flatMap fun i => pack32 (A64.encode i)

/-- A target whose page can be reached. -/
def PageReach (pc target : Int) : Prop :=
  -2 ^ 20 ≤ distance pc target true ∧ distance pc target true < 2 ^ 20

/-- The addresses for which the prelude can be assembled. -/
structure Reaches (address : Int) : Prop where
  table : PageReach (address + 4) DEFAULT_TABLE_POINTER
  tags : PageReach (address + 12) THREE_TAG_TABLE
  zoom : PageReach (address + 24) THREE_ZOOM_VECTOR
  aligned : (ENTRY_BODY - (address + 100)) % 4 = 0
  body : -2 ^ 27 ≤ ENTRY_BODY - (address + 100) ∧ ENTRY_BODY - (address + 100) < 2 ^ 27

theorem emitPointer_eq (register : BitVec 5) (address target : Int) (words : List Int) :
    emitPointer address register.toNat target words =
      if -2 ^ 20 ≤ distance (address + words.length * 4) target true ∧
          distance (address + words.length * 4) target true < 2 ^ 20 then
        .ok (words ++ wordsOf (pointer register (address + words.length * 4) target))
      else .error (.valueError "AArch64 ADR outside range") := by
  have hmask : land target 0xfff = ((BitVec.ofInt 12 target).toNat : Int) := by
    rw [TwosComplement.toNat_ofInt]
    exact TwosComplement.land_mask target 12
  rw [emitPointer, adr_eq, hmask, add_eq]
  by_cases h : -2 ^ 20 ≤ distance (address + words.length * 4) target true ∧
      distance (address + words.length * 4) target true < 2 ^ 20
  · rw [if_pos h, if_pos h]
    rfl
  · rw [if_neg h, if_neg h]
    rfl

theorem memory_ok (register base : BitVec 5) {offset : Int} (load : Bool)
    (h : offset % 8 = 0 ∧ 0 ≤ offset ∧ offset < 32768) :
    memory register.toNat base.toNat offset load =
      .ok (A64.encode (memoryInstr register base offset load)) := by
  rw [memory_eq, if_pos h]

theorem emitBoundary_eq (words : List Int) {i : Nat} (hi : i * 160 + 8 < 32768) :
    emitBoundary words i = .ok (words ++ wordsOf (boundary i)) := by
  have hload : memory 10 11 (i * 8) true = .ok (A64.encode (memoryInstr 10 11 (i * 8) true)) :=
    memory_ok 10 11 true (by omega)
  have hstore : memory 10 9 (i * 160) false =
      .ok (A64.encode (memoryInstr 10 9 (i * 160) false)) := memory_ok 10 9 false (by omega)
  have hclear : memory 31 9 (i * 160 + 8) false =
      .ok (A64.encode (memoryInstr 31 9 (i * 160 + 8) false)) := memory_ok 31 9 false (by omega)
  rw [emitBoundary, hload, hstore, hclear]
  rfl

theorem emitBoundaries_eq (indices : List Nat) (h : ∀ i ∈ indices, i * 160 + 8 < 32768)
    (words : List Int) :
    indices.foldlM emitBoundary words = .ok (words ++ wordsOf (indices.flatMap boundary)) := by
  induction indices generalizing words with
  | nil => simp [wordsOf]
  | cons i indices ih =>
      rw [List.foldlM_cons, emitBoundary_eq words (h i List.mem_cons_self), Ims.ok_bind,
        ih (fun j hj => h j (List.mem_cons_of_mem i hj))]
      simp [wordsOf]

theorem packWords_eq (is : List Instr) : packWords (wordsOf is) = .ok (codeBytes is) := by
  induction is with
  | nil => rfl
  | cons i is ih =>
      have hword : packI (A64.encode i : Int) = .ok (pack32 (A64.encode i)) := by
        have hlt := A64.encode_lt i
        rw [packI, if_pos (by omega), Int.toNat_natCast]
      rw [wordsOf, List.map_cons, packWords, hword, Ims.ok_bind, ← wordsOf, ih, Ims.ok_bind]
      rfl

/-- A call in a sequence that has not raised. -/
theorem ok_of_bind {α β : Type} {c : Prop} [Decidable c] {a : α} {e : PyError}
    {f : α → Except PyError β} {b : β}
    (h : ((if c then .ok a else .error e : Except PyError α) >>= f) = .ok b) : c ∧ f a = .ok b := by
  by_cases hc : c
  · rw [if_pos hc, Ims.ok_bind] at h
    exact ⟨hc, h⟩
  · rw [if_neg hc, Ims.error_bind] at h
    cases h

theorem pointer_of_bind {β : Type} (register : BitVec 5) (pc : Int) {address target : Int}
    {words : List Int} {f : List Int → Except PyError β} {b : β}
    (h : (emitPointer address register.toNat target words >>= f) = .ok b)
    (hpc : address + words.length * 4 = pc) :
    PageReach pc target ∧ f (words ++ wordsOf (pointer register pc target)) = .ok b := by
  rw [emitPointer_eq, hpc] at h
  rcases ok_of_bind h with ⟨hreach, h⟩
  exact ⟨hreach, h⟩

/-- What is assembled when nothing is raised. -/
theorem prelude_ok {address : Int} {payload : Bytes} (h : prelude address = .ok payload) :
    Reaches address ∧ payload = codeBytes (program address) ++ literals ++ MARKER := by
  have hstore : memory 10 9 0 false = .ok (A64.encode (memoryInstr 10 9 0 false)) :=
    memory_ok 10 9 false (by decide)
  have hload : memory 9 9 0 true = .ok (A64.encode (memoryInstr 9 9 0 true)) :=
    memory_ok 9 9 true (by decide)
  have hindices : ∀ i ∈ List.range BOUNDARIES.length, i * 160 + 8 < 32768 := by decide
  rw [prelude] at h
  rcases pointer_of_bind 9 (address + 4) h rfl with ⟨htable, h⟩
  rcases pointer_of_bind 10 (address + 12) h rfl with ⟨htags, h⟩
  rw [hstore, Ims.ok_bind] at h
  -- each `pointer` that does not raise says that its target is reached
  rcases pointer_of_bind 9 (address + 24) h rfl with ⟨hzoom, h⟩
  rw [hload, Ims.ok_bind] at h
  have hsetup : [0xd503245f] ++ wordsOf (pointer 9 (address + 4) DEFAULT_TABLE_POINTER) ++
      wordsOf (pointer 10 (address + 12) THREE_TAG_TABLE) ++
      [(A64.encode (memoryInstr 10 9 0 false) : Int)] ++
      wordsOf (pointer 9 (address + 24) THREE_ZOOM_VECTOR) ++
      [(A64.encode (memoryInstr 9 9 0 true) : Int)] = wordsOf (setup address) := rfl
  rw [hsetup] at h
  dsimp only at h
  have hloop : (List.range BOUNDARIES.length).flatMap boundary = loop := rfl
  have hcount : (wordsOf (setup address) ++ [0] ++ wordsOf loop).length = 25 := rfl
  rw [emitBoundaries_eq _ hindices, Ims.ok_bind, hloop, hcount, branch_eq] at h
  rcases ok_of_bind h with ⟨hbody, h⟩
  have hback : A64.encode (.b (BitVec.ofInt 26 ((ENTRY_BODY - (address + ((25 : Nat) : Int) * 4)) / 4))) =
      A64.encode (back address) := rfl
  rw [hback] at h
  have htotal : (wordsOf (setup address) ++ [0] ++ wordsOf loop ++
      [(A64.encode (back address) : Int)]).length = 26 := rfl
  have halign : align (((26 : Nat) : Int) * 4) 8 = 104 := align_natCast 104 3
  have hadr : adr 11 (address + ((wordsOf (setup address)).length : Int) * 4) (address + 104) false =
      .ok (A64.encode (literalPointer address)) := by
    have hdistance : distance (address + 36) (address + 104) false = 68 := by
      rw [distance, if_neg Bool.false_ne_true]
      omega
    have heq := adr_eq 11 (address + 36) (address + 104) false
    rw [if_pos (by rw [hdistance]; decide)] at heq
    exact heq
  rw [htotal, halign, hadr, Ims.ok_bind] at h
  have hset : (wordsOf (setup address) ++ [0] ++ wordsOf loop ++
      [(A64.encode (back address) : Int)]).set (wordsOf (setup address)).length
        (A64.encode (literalPointer address)) = wordsOf (program address) := rfl
  -- the word that was left open is set, and nothing is missing
  rw [hset, packWords_eq, Ims.ok_bind] at h
  have hgap : ((104 : Int) - ((codeBytes (program address)).length : Int)).toNat = 0 := rfl
  rw [hgap, List.replicate_zero, List.append_nil] at h
  cases h
  exact ⟨⟨htable, htags, hzoom, hbody.1, hbody.2⟩, rfl⟩

end Camera
end M2391Device
