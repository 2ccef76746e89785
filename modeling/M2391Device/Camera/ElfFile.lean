import M2391Device.Camera.Encoders

/-!
# ElfFile — fields of a file, and program headers

What the camera fixup uses of `struct` on a buffer: a number of 2, 4 or 8 bytes at an offset, read with
`unpack_from` or written with `pack_into`, and a program header of 56 bytes.  An access that does
not fit in the buffer, and a number that does not fit in its field, raise.
-/

namespace M2391Device
namespace Camera

open Ims (PyError Bytes slice)
open LittleEndian

/-! ## Numbers -/

/-- `struct.unpack_from(format, data, offset)` for one number of `n` bytes. -/
def unpackFrom (n : Nat) (data : Bytes) (offset : Nat) : Except PyError Nat :=
  if offset + n ≤ data.length then .ok (value (slice data offset n)) else .error .structError

/-- `struct.pack(format, v)` for one number of `n` bytes. -/
def packNumber (n : Nat) (v : Int) : Except PyError Bytes :=
  if 0 ≤ v ∧ v < 256 ^ n then .ok (pack n v.toNat) else .error .structError

/-- `struct.pack_into(format, result, offset, v)` for one number of `n` bytes. -/
def packInto (n : Nat) (result : Bytes) (offset : Nat) (v : Int) : Except PyError Bytes := do
  let field ← packNumber n v
  if offset + n ≤ result.length then .ok (overwrite result offset field)
  else .error .structError

/-- `if condition: raise ValueError(message)` -/
def raiseIf (condition : Prop) [Decidable condition] (message : String) : Except PyError Unit :=
  if condition then .error (.valueError message) else .ok ()

/-- `list(struct.unpack_from(format, data, offset))`, with the widths of the numbers as the format. -/
def unpackFields : List Nat → Bytes → Nat → Except PyError (List Int)
  | [], _, _ => .ok []
  | n :: widths, data, offset => do
      let v ← unpackFrom n data offset
      let rest ← unpackFields widths data (offset + n)
      return (v : Int) :: rest

/-- `struct.pack(format, *fields)`, which takes one value for each number of the format. -/
def packFields : List Nat → List Int → Except PyError Bytes
  | [], [] => .ok []
  | n :: widths, v :: fields => do
      let bytes ← packNumber n v
      let rest ← packFields widths fields
      return bytes ++ rest
  | _, _ => .error .structError

/-! ## Program headers -/

/-- The format `<II6Q` of a program header: kind, flags, offset, address, physical address, size in the
file, size in memory, alignment. -/
def II6Q : List Nat := [4, 4, 8, 8, 8, 8, 8, 8]

namespace Phdr

variable (h : List Int)

def kind : Int := h.getD 0 0
def offset : Int := h.getD 2 0
def vaddr : Int := h.getD 3 0
def filesz : Int := h.getD 5 0
def memsz : Int := h.getD 6 0

end Phdr

/-! ## What succeeds -/

section Lemmas

variable {data result result' field : Bytes} {offset n : Nat} {v : Int} {widths : List Nat}
  {fields : List Int}

theorem bind_eq_ok {α β : Type} {x : Except PyError α} {f : α → Except PyError β} {b : β} :
    (x >>= f) = .ok b ↔ ∃ a, x = .ok a ∧ f a = .ok b := by
  cases x with
  | error e => simp
  | ok a => simp

theorem raiseIf_eq_ok {condition : Prop} [Decidable condition] {message : String} {u : Unit} :
    raiseIf condition message = .ok u ↔ ¬ condition := by
  by_cases hc : condition <;> simp [raiseIf, hc]

theorem unpackFrom_eq_ok {k : Nat} :
    unpackFrom n data offset = .ok k ↔
      offset + n ≤ data.length ∧ value (slice data offset n) = k := by
  by_cases hfits : offset + n ≤ data.length <;> simp [unpackFrom, hfits]

theorem packNumber_eq_ok :
    packNumber n v = .ok field ↔ (0 ≤ v ∧ v < 256 ^ n) ∧ pack n v.toNat = field := by
  by_cases hfits : 0 ≤ v ∧ v < 256 ^ n <;> simp [packNumber, hfits]

theorem packInto_eq_ok :
    packInto n result offset v = .ok result' ↔
      (0 ≤ v ∧ v < 256 ^ n) ∧ offset + n ≤ result.length ∧
        overwrite result offset (pack n v.toNat) = result' := by
  rw [packInto, bind_eq_ok]
  constructor
  · rintro ⟨field, hfield, hwrite⟩
    rw [packNumber_eq_ok] at hfield
    by_cases hfits : offset + n ≤ result.length
    · rw [if_pos hfits] at hwrite
      cases hwrite
      exact ⟨hfield.1, hfits, by rw [hfield.2]⟩
    · rw [if_neg hfits] at hwrite
      cases hwrite
  · rintro ⟨hv, hfits, rfl⟩
    exact ⟨_, packNumber_eq_ok.2 ⟨hv, rfl⟩, if_pos hfits⟩

/-! ## Slices -/

theorem getElem?_slice (data : Bytes) (offset n i : Nat) :
    (slice data offset n)[i]? = if i < n then data[offset + i]? else none := by
  rw [slice, List.getElem?_take, List.getElem?_drop]

theorem slice_congr {other : Bytes} {offset' : Nat}
    (hsame : ∀ i < n, data[offset + i]? = other[offset' + i]?) :
    slice data offset n = slice other offset' n := by
  refine List.ext_getElem? fun i => ?_
  rw [getElem?_slice, getElem?_slice]
  by_cases hi : i < n
  · rw [if_pos hi, if_pos hi, hsame i hi]
  · rw [if_neg hi, if_neg hi]

theorem length_slice (hfits : offset + n ≤ data.length) : (slice data offset n).length = n := by
  rw [slice, List.length_take, List.length_drop]
  omega

theorem slice_add (data : Bytes) (offset m n : Nat) :
    slice data offset (m + n) = slice data offset m ++ slice data (offset + m) n := by
  rw [slice, slice, slice, List.take_add, List.drop_drop]

theorem slice_append_left (back : Bytes) (hfits : offset + n ≤ data.length) :
    slice (data ++ back) offset n = slice data offset n :=
  slice_congr fun i hi => List.getElem?_append_left (by omega)

theorem slice_append_right (front back : Bytes) (n : Nat) {at' : Nat}
    (hat : at' = front.length + offset) : slice (front ++ back) at' n = slice back offset n := by
  rw [hat, slice, slice, List.drop_append, List.drop_eq_nil_of_le (by omega), List.nil_append]
  congr 2
  omega

/-- One of the parts, all of one length, of a concatenation. -/
theorem slice_flatten {parts : List Bytes} (hparts : ∀ part ∈ parts, part.length = n) {i : Nat}
    {part : Bytes} (hpart : parts[i]? = some part) : slice parts.flatten (i * n) n = part := by
  induction parts generalizing i with
  | nil => cases hpart
  | cons first parts ih =>
      have hfirst := hparts first List.mem_cons_self
      cases i with
      | zero =>
          rw [List.getElem?_cons_zero, Option.some_inj] at hpart
          subst hpart
          rw [List.flatten_cons, slice_append_left _ (by omega), slice, Nat.zero_mul, List.drop_zero,
            ← hfirst, List.take_length]
      | succ i =>
          rw [List.getElem?_cons_succ] at hpart
          have hat : (i + 1) * n = first.length + i * n := by
            rw [hfirst, Nat.succ_mul, Nat.add_comm]
          rw [List.flatten_cons, slice_append_right _ _ _ hat]
          exact ih (fun part hmem => hparts part (List.mem_cons_of_mem first hmem)) hpart

/-- What was written is read back. -/
theorem slice_overwrite (hfits : offset + field.length ≤ data.length) :
    slice (overwrite data offset field) offset field.length = field := by
  refine List.ext_getElem? fun i => ?_
  rw [getElem?_slice]
  by_cases hi : i < field.length
  · rw [if_pos hi, getElem?_overwrite hfits, if_pos (by omega), Nat.add_sub_cancel_left]
  · rw [if_neg hi, List.getElem?_eq_none (by omega)]

theorem slice_overwrite_other {start : Nat} (hfits : start + field.length ≤ data.length)
    (hother : offset + n ≤ start ∨ start + field.length ≤ offset) :
    slice (overwrite data start field) offset n = slice data offset n :=
  slice_congr fun i hi => by rw [getElem?_overwrite hfits, if_neg (by omega)]

/-! ## Fields -/

theorem unpackFields_cons {fields : List Int} :
    unpackFields (n :: widths) data offset = .ok fields ↔
      ∃ rest, offset + n ≤ data.length ∧ unpackFields widths data (offset + n) = .ok rest ∧
        (value (slice data offset n) : Int) :: rest = fields := by
  rw [unpackFields, bind_eq_ok]
  constructor
  · rintro ⟨v, hv, hrest⟩
    rw [unpackFrom_eq_ok] at hv
    rcases bind_eq_ok.1 hrest with ⟨rest, hunpack, hfields⟩
    cases hfields
    exact ⟨rest, hv.1, hunpack, by rw [hv.2]⟩
  · rintro ⟨rest, hfits, hunpack, rfl⟩
    exact ⟨_, unpackFrom_eq_ok.2 ⟨hfits, rfl⟩, bind_eq_ok.2 ⟨rest, hunpack, rfl⟩⟩

/-- Fields that were unpacked are packed to the bytes that they came from. -/
theorem packFields_unpackFields (h : unpackFields widths data offset = .ok fields) :
    packFields widths fields = .ok (slice data offset widths.sum) ∧
      offset + widths.sum ≤ max data.length offset := by
  induction widths generalizing offset fields with
  | nil =>
      cases h
      exact ⟨rfl, Nat.le_max_right _ _⟩
  | cons n widths ih =>
      rcases unpackFields_cons.1 h with ⟨rest, hfits, hrest, rfl⟩
      rcases ih hrest with ⟨hpack, hbound⟩
      have hlength := length_slice hfits
      have hfirst : packNumber n (value (slice data offset n)) = .ok (slice data offset n) := by
        have hlt := value_lt (slice data offset n)
        have hpacked := pack_value (slice data offset n)
        rw [hlength] at hlt hpacked
        refine packNumber_eq_ok.2 ⟨⟨Int.natCast_nonneg _, ?_⟩, ?_⟩
        · exact_mod_cast hlt
        · rw [Int.toNat_natCast, hpacked]
      rw [List.sum_cons]
      constructor
      · rw [packFields, hfirst, hpack, slice_add]
        rfl
      · omega

/-- Packed fields are unpacked where their bytes stand. -/
theorem unpackFields_packFields {bytes : Bytes} (h : packFields widths fields = .ok bytes)
    (hbytes : slice data offset widths.sum = bytes) (hfits : offset + widths.sum ≤ data.length) :
    unpackFields widths data offset = .ok fields := by
  induction widths generalizing offset fields bytes with
  | nil =>
      cases fields with
      | nil => rfl
      | cons v fields => cases h
  | cons n widths ih =>
      cases fields with
      | nil => cases h
      | cons v fields =>
          rw [packFields, bind_eq_ok] at h
          rcases h with ⟨first, hfirst, hothers⟩
          rcases bind_eq_ok.1 hothers with ⟨rest, hrest, hboth⟩
          cases hboth
          rw [packNumber_eq_ok] at hfirst
          rcases hfirst with ⟨⟨hv, hv'⟩, rfl⟩
          rw [List.sum_cons] at hfits hbytes
          rw [slice_add] at hbytes
          have hlength : (slice data offset n).length = n := length_slice (by omega)
          have hfirst : slice data offset n = pack n v.toNat :=
            List.append_inj_left hbytes (by rw [hlength, length_pack])
          have hsecond := List.append_inj_right hbytes (by rw [hlength, length_pack])
          refine unpackFields_cons.2 ⟨fields, by omega, ih hrest hsecond (by omega), ?_⟩
          have hlt : v.toNat < 256 ^ n := by
            rw [Int.toNat_lt hv]
            push_cast
            exact hv'
          rw [hfirst, value_pack hlt, Int.toNat_of_nonneg hv]

theorem length_packFields {bytes : Bytes} (h : packFields widths fields = .ok bytes) :
    bytes.length = widths.sum := by
  induction widths generalizing fields bytes with
  | nil =>
      cases fields with
      | nil =>
          cases h
          rfl
      | cons v fields => cases h
  | cons n widths ih =>
      cases fields with
      | nil => cases h
      | cons v fields =>
          rw [packFields, bind_eq_ok] at h
          rcases h with ⟨first, hfirst, hothers⟩
          rcases bind_eq_ok.1 hothers with ⟨rest, hrest, hboth⟩
          cases hboth
          rw [packNumber_eq_ok] at hfirst
          rw [List.length_append, ← hfirst.2, length_pack, ih hrest, List.sum_cons]

end Lemmas

/-! ## What a loader reads -/

structure ProgramHeader where
  kind : Nat
  flags : Nat
  offset : Nat
  vaddr : Nat
  paddr : Nat
  filesz : Nat
  memsz : Nat
  align : Nat
  deriving DecidableEq

/-- The list that `unpack_from` makes of a program header. -/
def ProgramHeader.fields (p : ProgramHeader) : List Int :=
  [p.kind, p.flags, p.offset, p.vaddr, p.paddr, p.filesz, p.memsz, p.align]

/-- The number of `n` bytes at an offset of a file. -/
def numberAt (n : Nat) (data : Bytes) (offset : Nat) : Nat := value (slice data offset n)

def readHeader (data : Bytes) (at' : Nat) : ProgramHeader where
  kind := numberAt 4 data at'
  flags := numberAt 4 data (at' + 4)
  offset := numberAt 8 data (at' + 8)
  vaddr := numberAt 8 data (at' + 16)
  paddr := numberAt 8 data (at' + 24)
  filesz := numberAt 8 data (at' + 32)
  memsz := numberAt 8 data (at' + 40)
  align := numberAt 8 data (at' + 48)

/-- `e_phoff` -/
def phoff (data : Bytes) : Nat := numberAt 8 data 32

/-- `e_phnum` -/
def phnum (data : Bytes) : Nat := numberAt 2 data 56

/-- The bytes of a program header, found through `e_phoff`. -/
def headerBytes (data : Bytes) (i : Nat) : Bytes := slice data (phoff data + i * 56) 56

def programHeader (data : Bytes) (i : Nat) : ProgramHeader := readHeader data (phoff data + i * 56)

section Reader

variable {data : Bytes} {at' : Nat} {fields : List Int}

theorem fields_inj {p q : ProgramHeader} (h : p.fields = q.fields) : p = q := by
  cases p
  cases q
  simpa [ProgramHeader.fields] using h

theorem unpackFields_II6Q :
    unpackFields II6Q data at' = .ok fields ↔
      at' + 56 ≤ data.length ∧ (readHeader data at').fields = fields := by
  simp only [II6Q, unpackFields_cons, Nat.add_assoc, Nat.reduceAdd]
  constructor
  · rintro ⟨_, _, ⟨_, _, ⟨_, _, ⟨_, _, ⟨_, _, ⟨_, _, ⟨_, _, ⟨_, hfits, hnil, rfl⟩, rfl⟩, rfl⟩, rfl⟩,
      rfl⟩, rfl⟩, rfl⟩, rfl⟩
    cases hnil
    exact ⟨by omega, rfl⟩
  · rintro ⟨hfits, rfl⟩
    refine ⟨_, by omega, ⟨_, by omega, ⟨_, by omega, ⟨_, by omega, ⟨_, by omega, ⟨_, by omega,
      ⟨_, by omega, ⟨_, by omega, rfl, rfl⟩, rfl⟩, rfl⟩, rfl⟩, rfl⟩, rfl⟩, rfl⟩, rfl⟩

end Reader

end Camera
end M2391Device
