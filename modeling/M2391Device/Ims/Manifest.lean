import M2391Device.Lib.Text

/-!
# Manifest — the chunk walk that removes the overlay element

A shallow embedding of the manifest part of `remove_ims_overlay` in `ims_fixup.py`: from the bytes
of `AndroidManifest.xml` to the patched bytes, with every exception that Python raises on the way.
Byte strings are lists, and a Python string is a sequence of Unicode scalar values, which is what
its strict decoders for UTF-8 and UTF-16 (here those of `Text`) produce.
-/

namespace M2391Device
namespace Ims

open LittleEndian Text

abbrev Bytes := List UInt8

/-- The exceptions that leave the function. -/
inductive PyError
  | valueError (message : String)
  | structError
  | indexError
  | unicodeDecodeError
  deriving DecidableEq

def orRaise {α : Type} (e : PyError) : Option α → Except PyError α
  | some a => .ok a
  | none => .error e

@[simp] theorem ok_bind {α β : Type} (a : α) (f : α → Except PyError β) :
    ((.ok a : Except PyError α) >>= f) = f a := rfl

@[simp] theorem error_bind {α β : Type} (e : PyError) (f : α → Except PyError β) :
    ((.error e : Except PyError α) >>= f) = .error e := rfl

@[simp] theorem pure_eq_ok {α : Type} (a : α) : (pure a : Except PyError α) = .ok a := rfl

@[simp] theorem orRaise_some {α : Type} (e : PyError) (a : α) : orRaise e (some a) = .ok a := rfl

/-! ## Reading the bytes -/

/-- `struct.unpack_from('<H', data, offset)[0]` -/
def unpackH (data : Bytes) (offset : Nat) : Except PyError Nat :=
  orRaise .structError (u16At data offset)

/-- `struct.unpack_from('<I', data, offset)[0]` -/
def unpackI (data : Bytes) (offset : Nat) : Except PyError Nat :=
  orRaise .structError (u32At data offset)

/-- `struct.unpack_from('<HHI', data, offset)`: the kind, header size and length of a chunk. -/
def unpackHHI (data : Bytes) (offset : Nat) : Except PyError (Nat × Nat × Nat) := do
  let kind ← unpackH data offset
  let header ← unpackH data (offset + 2)
  let length ← unpackI data (offset + 4)
  return (kind, header, length)

/-- `data[pos]` -/
def byteAt (data : Bytes) (pos : Nat) : Except PyError Nat :=
  orRaise .indexError (data[pos]?.map UInt8.toNat)

/-- `data[pos:pos + n]`, which Python cuts off at the end of the data. -/
def slice (data : Bytes) (pos n : Nat) : Bytes := (data.drop pos).take n

/-! ## The string pool -/

/-- One round of the loop over the two lengths of a UTF-8 string: the length at `pos`, and the
position after it. -/
def lengthUtf8 (chunk : Bytes) (pos : Nat) : Except PyError (Nat × Nat) := do
  let n ← byteAt chunk pos
  if n &&& 0x80 ≠ 0 then
    let low ← byteAt chunk (pos + 1)
    return (((n &&& 0x7f) <<< 8) ||| low, pos + 2)
  else return (n, pos + 1)

def lengthUtf16 (chunk : Bytes) (pos : Nat) : Except PyError (Nat × Nat) := do
  let n ← unpackH chunk pos
  if n &&& 0x8000 ≠ 0 then
    let low ← unpackH chunk (pos + 2)
    return (((n &&& 0x7fff) <<< 16) ||| low, pos + 4)
  else return (n, pos + 2)

def decodeString (chunk : Bytes) (flags pos : Nat) : Except PyError String :=
  if flags &&& 0x100 ≠ 0 then do
    -- The first length counts UTF-16 units and is read over; the second counts bytes.
    let (_, pos) ← lengthUtf8 chunk pos
    let (n, pos) ← lengthUtf8 chunk pos
    orRaise .unicodeDecodeError (decodeUtf8 (slice chunk pos n))
  else do
    let (n, pos) ← lengthUtf16 chunk pos
    orRaise .unicodeDecodeError (decodeUtf16le (slice chunk pos (n * 2)))

/-- The loop `for i in range(count)` from index `i` on, with `count` strings to go. -/
def decodeStrings (chunk : Bytes) (chunkHeader flags start : Nat) :
    Nat → Nat → Except PyError (List String)
  | _, 0 => return []
  | i, count + 1 => do
      let offset ← unpackI chunk (chunkHeader + 4 * i)
      let string ← decodeString chunk flags (start + offset)
      let rest ← decodeStrings chunk chunkHeader flags start (i + 1) count
      return string :: rest

/-- The branch for a chunk of kind 1: the strings that it appends. -/
def poolStrings (chunk : Bytes) (chunkHeader : Nat) : Except PyError (List String) := do
  let count ← unpackI chunk 8
  let _styles ← unpackI chunk 12
  let flags ← unpackI chunk 16
  let start ← unpackI chunk 20
  decodeStrings chunk chunkHeader flags start 0 count

/-! ## The walk -/

/-- The local variables of the loop over the chunks, other than `offset`. -/
structure Walk where
  strings : List String
  chunks : List Bytes
  removed : Nat
  depth : Nat
  deriving DecidableEq

namespace Walk

def start : Walk := ⟨[], [], 0, 0⟩

/-- The end of the loop body, which a removed start element does not reach. -/
def keepOrSkip (w : Walk) (kind : Nat) (chunk : Bytes) : Walk :=
  if w.depth ≠ 0 then
    if kind = 0x103 then { w with depth := w.depth - 1 } else w
  else { w with chunks := w.chunks ++ [chunk] }

/-- The branch for a chunk of kind 0x102. -/
def startElement (w : Walk) (kind : Nat) (chunk : Bytes) : Except PyError Walk := do
  let index ← unpackI chunk 20
  let name ← orRaise .indexError w.strings[index]?
  if w.depth ≠ 0 ∨ name = "overlay" then
    return { w with
      removed := if w.depth = 0 then w.removed + 1 else w.removed
      depth := w.depth + 1 }
  else return w.keepOrSkip kind chunk

/-- The loop body for one chunk. -/
def visit (w : Walk) (kind chunkHeader : Nat) (chunk : Bytes) : Except PyError Walk := do
  let w ←
    if kind = 1 then do
      let strings ← poolStrings chunk chunkHeader
      pure { w with strings := w.strings ++ strings }
    else pure w
  if kind = 0x102 then w.startElement kind chunk
  else return w.keepOrSkip kind chunk

end Walk

/-- The loop `while offset < len(manifest)`.  Every accepted chunk has at least 8 bytes. -/
def walk (manifest : Bytes) (offset : Nat) (w : Walk) : Except PyError Walk :=
  if offset < manifest.length then
    match unpackHHI manifest offset with
    | .error e => .error e
    | .ok (kind, chunkHeader, length) =>
        if length < chunkHeader ∨ length < 8 ∨ offset + length > manifest.length then
          .error (.valueError "Invalid IMS manifest chunk")
        else
          match w.visit kind chunkHeader (slice manifest offset length) with
          | .error e => .error e
          | .ok w => walk manifest (offset + length) w
  else .ok w
termination_by manifest.length - offset
decreasing_by omega

/-- `struct.pack_into('<I', patched, 4, len(patched))` -/
def packLength (patched : Bytes) : Except PyError Bytes :=
  if patched.length < 8 ∨ 2 ^ 32 ≤ patched.length then .error .structError
  else .ok (overwrite patched 4 (pack32 patched.length))

/-- `remove_ims_overlay` from the bytes of the manifest to the patched bytes. -/
def removeImsOverlay (manifest : Bytes) : Except PyError Bytes := do
  let (kind, header, size) ← unpackHHI manifest 0
  if kind ≠ 3 ∨ size ≠ manifest.length then
    throw (.valueError "Unexpected IMS binary XML header")
  let w ← walk manifest header Walk.start
  if w.removed ≠ 1 ∨ w.depth ≠ 0 then
    throw (.valueError "Expected exactly one complete IMS overlay element")
  packLength (manifest.take header ++ w.chunks.flatten)

end Ims
end M2391Device
