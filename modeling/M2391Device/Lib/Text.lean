import M2391Device.Lib.LittleEndian

/-!
# Text — strings as UTF-8 and as little-endian UTF-16 bytes

Encoders in the terms of the two formats, strict decoders, and the two round trips.
-/

namespace Text

open LittleEndian

/-! ## UTF-8 -/

def encodeUtf8 (s : String) : List UInt8 := s.toList.flatMap String.utf8EncodeChar

def decodeUtf8 (bytes : List UInt8) : Option String := String.fromUTF8? bytes.toByteArray

theorem decodeUtf8_encodeUtf8 (s : String) : decodeUtf8 (encodeUtf8 s) = some s := by
  have hbytes : (encodeUtf8 s).toByteArray = s.toByteArray := String.utf8Encode_toList
  simp only [decodeUtf8, hbytes, String.fromUTF8?]
  exact dif_pos s.isValidUTF8

/-! ## UTF-16 -/

/-- The code units of a character: one, or a high and a low surrogate. -/
def unitsOf (c : Char) : List Nat :=
  if c.toNat < 0x10000 then [c.toNat]
  else [0xD800 + (c.toNat - 0x10000) / 0x400, 0xDC00 + (c.toNat - 0x10000) % 0x400]

def units (s : String) : List Nat := s.toList.flatMap unitsOf

def packUnits (us : List Nat) : List UInt8 := us.flatMap pack16

def encodeUtf16le (s : String) : List UInt8 := packUnits (units s)

/-- The code units of a byte string; `none` when half a unit is left over. -/
def unpackUnits : List UInt8 → Option (List Nat)
  | [] => some []
  | [_] => none
  | a :: b :: rest => (unpackUnits rest).map ((a.toNat + 256 * b.toNat) :: ·)

/-- Code units to characters; a surrogate is accepted only in a pair, the high one first. -/
def fromUnits : List Nat → Option (List Char)
  | [] => some []
  | u :: rest =>
      if u < 0xD800 ∨ 0xE000 ≤ u then (fromUnits rest).map (Char.ofNat u :: ·)
      else
        match rest with
        | [] => none
        | v :: rest =>
            if u < 0xDC00 ∧ 0xDC00 ≤ v ∧ v < 0xE000 then
              (fromUnits rest).map
                (Char.ofNat (0x10000 + (u - 0xD800) * 0x400 + (v - 0xDC00)) :: ·)
            else none

def decodeUtf16le (bytes : List UInt8) : Option String :=
  (unpackUnits bytes).bind fun us => (fromUnits us).map String.ofList

theorem char_range (c : Char) : c.toNat < 0xD800 ∨ 0xDFFF < c.toNat ∧ c.toNat < 0x110000 := c.valid

theorem unitsOf_lt (c : Char) : ∀ u ∈ unitsOf c, u < 2 ^ 16 := by
  have hrange := char_range c
  intro u hu
  by_cases hone : c.toNat < 0x10000
  · simp only [unitsOf, hone, if_true, List.mem_singleton] at hu
    omega
  · simp only [unitsOf, hone, if_false, List.mem_cons, List.not_mem_nil, or_false] at hu
    omega

theorem units_lt (s : String) : ∀ u ∈ units s, u < 2 ^ 16 := by
  intro u hu
  rcases List.mem_flatMap.1 hu with ⟨c, _, hc⟩
  exact unitsOf_lt c u hc

theorem length_packUnits (us : List Nat) : (packUnits us).length = us.length * 2 := by
  induction us with
  | nil => rfl
  | cons u us ih =>
      have hone : packUnits (u :: us) = pack16 u ++ packUnits us := rfl
      rw [hone, List.length_append, ih, List.length_cons]
      simp only [pack16, List.length_cons, List.length_nil]
      omega

theorem unpackUnits_packUnits (us : List Nat) (hus : ∀ u ∈ us, u < 2 ^ 16) :
    unpackUnits (packUnits us) = some us := by
  induction us with
  | nil => rfl
  | cons u us ih =>
      have hu : u < 2 ^ 16 := hus u (List.mem_cons_self ..)
      have htail := ih fun v hv => hus v (List.mem_cons_of_mem u hv)
      have hbytes : (UInt8.ofNat u).toNat + 256 * (UInt8.ofNat (u / 256)).toNat = u := by
        simp only [UInt8.toNat_ofNat']
        omega
      calc
        unpackUnits (packUnits (u :: us))
            = (unpackUnits (packUnits us)).map
                (((UInt8.ofNat u).toNat + 256 * (UInt8.ofNat (u / 256)).toNat) :: ·) := rfl
        _ = some (u :: us) := by rw [htail, hbytes]; rfl

theorem fromUnits_plain {u : Nat} (hu : u < 0xD800 ∨ 0xE000 ≤ u) (rest : List Nat) :
    fromUnits (u :: rest) = (fromUnits rest).map (Char.ofNat u :: ·) := by
  rw [fromUnits.eq_def]
  exact if_pos hu

/-- The units of one character decode to it, whatever follows. -/
theorem fromUnits_unitsOf (c : Char) (rest : List Nat) :
    fromUnits (unitsOf c ++ rest) = (fromUnits rest).map (c :: ·) := by
  have hrange := char_range c
  by_cases hone : c.toNat < 0x10000
  · have hplain : c.toNat < 0xD800 ∨ 0xE000 ≤ c.toNat := by omega
    rw [unitsOf, if_pos hone, List.cons_append, List.nil_append, fromUnits_plain hplain,
      Char.ofNat_toNat]
  · have hhigh : ¬(0xD800 + (c.toNat - 0x10000) / 0x400 < 0xD800 ∨
        0xE000 ≤ 0xD800 + (c.toNat - 0x10000) / 0x400) := by omega
    have hpair : 0xD800 + (c.toNat - 0x10000) / 0x400 < 0xDC00 ∧
        0xDC00 ≤ 0xDC00 + (c.toNat - 0x10000) % 0x400 ∧
        0xDC00 + (c.toNat - 0x10000) % 0x400 < 0xE000 := by omega
    have hvalue : 0x10000 + (0xD800 + (c.toNat - 0x10000) / 0x400 - 0xD800) * 0x400 +
        (0xDC00 + (c.toNat - 0x10000) % 0x400 - 0xDC00) = c.toNat := by omega
    rw [unitsOf, if_neg hone, List.cons_append, List.cons_append, List.nil_append, fromUnits,
      if_neg hhigh]
    simp only [hpair, and_self, if_true, hvalue, Char.ofNat_toNat]

theorem fromUnits_flatMap (cs : List Char) : fromUnits (cs.flatMap unitsOf) = some cs := by
  induction cs with
  | nil => rfl
  | cons c cs ih => rw [List.flatMap_cons, fromUnits_unitsOf, ih]; rfl

theorem decodeUtf16le_encodeUtf16le (s : String) : decodeUtf16le (encodeUtf16le s) = some s := by
  have hunits : unpackUnits (encodeUtf16le s) = some (units s) :=
    unpackUnits_packUnits (units s) (units_lt s)
  have hchars : fromUnits (units s) = some s.toList := fromUnits_flatMap s.toList
  simp [decodeUtf16le, hunits, hchars, String.ofList_toList]

end Text
