import M2391Device.Lib.A64.Machine

/-!
# Image — segments of a file in memory

A segment maps addresses to a range of a file, and the addresses past that range to zeros.  Segments
are mapped in their order, so that the last one that covers an address decides what is there
(`origin`).  A memory `Holds` an image when it has its bytes, moved by a bias, wherever the image says
what they are.
-/

namespace A64

/-! ## Segments -/

structure Segment where
  offset : Nat
  vaddr : Nat
  filesz : Nat
  memsz : Nat
  deriving DecidableEq

/-- Where a byte in memory comes from. -/
inductive Origin where
  | file (offset : Nat)
  | zero
  deriving DecidableEq

namespace Segment

variable (g : Segment)

def Covers (a : Nat) : Prop := g.vaddr ≤ a ∧ a < g.vaddr + g.memsz

instance (a : Nat) : Decidable (g.Covers a) := inferInstanceAs (Decidable (_ ∧ _))

/-- The byte of the segment at an address that it covers. -/
def source (a : Nat) : Origin :=
  if a < g.vaddr + g.filesz then .file (g.offset + (a - g.vaddr)) else .zero

end Segment

/-- What the last segment that covers an address has there. -/
def origin : List Segment → Nat → Option Origin
  | [], _ => none
  | g :: segments, a =>
      (origin segments a).or (if g.Covers a then some (g.source a) else none)

def Origin.byte (file : List UInt8) : Origin → Option UInt8
  | .file offset => file[offset]?
  | .zero => some 0

/-- The bytes that are mapped, by their addresses before the bias. -/
def image (file : List UInt8) (segments : List Segment) (a : Nat) : Option UInt8 :=
  (origin segments a).bind (Origin.byte file)

/-- A memory that has the bytes of an image. -/
def Holds (mem : Memory) (bias : BitVec 64) (image : Nat → Option UInt8) : Prop :=
  ∀ a b, image a = some b → mem (bias + BitVec.ofNat 64 a) = b

/-! ## Origins -/

section Origins

variable {segments others : List Segment} {g : Segment} {a : Nat}

theorem origin_append (segments others : List Segment) (a : Nat) :
    origin (segments ++ others) a = (origin others a).or (origin segments a) := by
  induction segments with
  | nil => rw [List.nil_append, origin, Option.or_none]
  | cons g segments ih => rw [List.cons_append, origin, origin, ih, Option.or_assoc]

theorem origin_singleton (g : Segment) (a : Nat) :
    origin [g] a = if g.Covers a then some (g.source a) else none := rfl

theorem origin_eq_none : origin segments a = none ↔ ∀ g ∈ segments, ¬ g.Covers a := by
  induction segments with
  | nil => exact ⟨fun _ g hg => absurd hg List.not_mem_nil, fun _ => rfl⟩
  | cons g segments ih =>
      rw [origin, Option.or_eq_none_iff, ih, List.forall_mem_cons]
      by_cases hg : g.Covers a
      · rw [if_pos hg]
        exact ⟨fun h => absurd h.2 (Option.some_ne_none _), fun h => absurd hg h.1⟩
      · rw [if_neg hg]
        exact ⟨fun h => ⟨hg, h.1⟩, fun h => ⟨h.2, rfl⟩⟩

/-- A segment that is mapped last, where it does not cover an address. -/
theorem origin_snoc_other (h : ¬ g.Covers a) : origin (segments ++ [g]) a = origin segments a := by
  rw [origin_append, origin_singleton, if_neg h, Option.none_or]

/-- A segment that is mapped last, where it covers an address. -/
theorem origin_snoc_self (h : g.Covers a) : origin (segments ++ [g]) a = some (g.source a) := by
  rw [origin_append, origin_singleton, if_pos h, Option.some_or]

/-- A byte of the file range of the segment that is mapped last. -/
theorem image_snoc_file {file : List UInt8} {k : Nat} (hfile : k < g.filesz)
    (hmem : g.filesz ≤ g.memsz) :
    image file (segments ++ [g]) (g.vaddr + k) = file[g.offset + k]? := by
  have hcovers : g.Covers (g.vaddr + k) := ⟨by omega, by omega⟩
  have hinside : g.vaddr + k < g.vaddr + g.filesz := by omega
  rw [image, origin_snoc_self hcovers, Segment.source, if_pos hinside, Nat.add_sub_cancel_left]
  rfl

end Origins

/-! ## Memories -/

section Memories

variable {mem : Memory} {bias : BitVec 64} {image : Nat → Option UInt8} {a : Nat}

/-- The bytes of an image that stand one after the other. -/
theorem Holds.bytes_eq (h : Holds mem bias image) (xs : List UInt8)
    (himage : ∀ k < xs.length, image (a + k) = xs[k]?) :
    bytes mem (bias + BitVec.ofNat 64 a) xs.length = xs := by
  refine List.ext_getElem (length_bytes _ _ _) fun k _ hk => ?_
  have hbyte : image (a + k) = some xs[k] := by rw [himage k hk, List.getElem?_eq_getElem hk]
  have hmem := h (a + k) xs[k] hbyte
  rw [BitVec.ofNat_add, ← BitVec.add_assoc] at hmem
  simp only [bytes, List.getElem_map, List.getElem_range, hmem]

/-- An instruction of an image is the one that is run. -/
theorem Holds.step {s : State} (h : Holds s.mem bias image) {i : Instr} {word : List UInt8}
    (hlength : word.length = 4) (himage : ∀ k < 4, image (a + k) = word[k]?)
    (hword : decode (LittleEndian.value word) = some i) (hpc : s.pc = bias + BitVec.ofNat 64 a)
    (halign : s.pc.toNat % 4 = 0) : step s = some (exec i s) := by
  have hbytes : bytes s.mem s.pc 4 = word := by
    have hheld := h.bytes_eq word (by rwa [hlength])
    rwa [hlength, ← hpc] at hheld
  rw [A64.step, if_pos halign, hbytes, hword]
  rfl

end Memories

end A64
