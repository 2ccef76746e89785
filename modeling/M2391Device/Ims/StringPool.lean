import Mathlib.Data.Nat.Bitwise
import M2391Device.Ims.Manifest

/-!
# StringPool — the layout of a string pool, and that decoding inverts it

The format of a pool chunk is stated by itself, with arithmetic in place of the bit operations of
the walk: the two encodings, their length fields of one or two units, the offset table at the end
of the chunk header, and strings that lie anywhere behind `start`.
-/

namespace M2391Device
namespace Ims

open LittleEndian Text

/-! ## The format -/

inductive Encoding
  | utf8
  | utf16
  deriving DecidableEq

/-- The encoding named by the flag `UTF8_FLAG` of a pool. -/
def Encoding.ofFlags (flags : Nat) : Encoding := if flags / 0x100 % 2 = 1 then .utf8 else .utf16

/-- A length below `2 ^ 15` in one byte, or in two with the high bit of the first set. -/
def length8 (n : Nat) : Bytes :=
  if n < 0x80 then [UInt8.ofNat n] else [UInt8.ofNat (0x80 + n / 256), UInt8.ofNat (n % 256)]

/-- A length below `2 ^ 31` in one unit, or in two with the high bit of the first set. -/
def length16 (n : Nat) : Bytes :=
  if n < 0x8000 then pack16 n else pack16 (0x8000 + n / 65536) ++ pack16 (n % 65536)

namespace Encoding

def entry : Encoding → String → Bytes
  | utf8, s => length8 (units s).length ++ (length8 (encodeUtf8 s).length ++ encodeUtf8 s)
  | utf16, s => length16 (units s).length ++ encodeUtf16le s

/-- The lengths of a string can be written in the encoding. -/
def Fits : Encoding → String → Prop
  | utf8, s => (units s).length < 2 ^ 15 ∧ (encodeUtf8 s).length < 2 ^ 15
  | utf16, s => (units s).length < 2 ^ 31

end Encoding

/-- The pool in `chunk` holds `names`; the order of the string data, what follows each string and
the styles are free. -/
structure PoolLayout (chunk : Bytes) (headerSize : Nat) (names : List String) where
  flags : Nat
  start : Nat
  count_field : u32At chunk 8 = some names.length
  flags_field : u32At chunk 16 = some flags
  start_field : u32At chunk 20 = some start
  fits : ∀ name ∈ names, (Encoding.ofFlags flags).Fits name
  entries : ∀ (i : Nat) (hi : i < names.length), ∃ offset,
    u32At chunk (headerSize + 4 * i) = some offset ∧
      (Encoding.ofFlags flags).entry names[i] <+: chunk.drop (start + offset)

/-! ## Bits -/

theorem and_two_pow_eq_zero {n k : Nat} (hn : n < 2 ^ k) : n &&& 2 ^ k = 0 := by
  rw [Nat.and_two_pow, Nat.testBit_lt_two_pow hn]
  simp

theorem two_pow_add_and {m k : Nat} (hm : m < 2 ^ k) :
    (2 ^ k + m) &&& 2 ^ k ≠ 0 ∧ (2 ^ k + m) &&& (2 ^ k - 1) = m := by
  constructor
  · rw [Nat.and_two_pow, Nat.testBit_two_pow_add_eq, Nat.testBit_lt_two_pow hm]
    simp
  · rw [Nat.and_two_pow_sub_one_eq_mod, Nat.add_mod_left, Nat.mod_eq_of_lt hm]

theorem div_shiftLeft_or_mod (n k : Nat) : ((n / 2 ^ k) <<< k) ||| (n % 2 ^ k) = n := by
  rw [← Nat.shiftLeft_add_eq_or_of_lt (Nat.mod_lt n (Nat.two_pow_pos k)), Nat.shiftLeft_eq]
  exact Nat.div_add_mod' n (2 ^ k)

theorem ofFlags_utf8 (flags : Nat) : flags &&& 0x100 ≠ 0 ↔ Encoding.ofFlags flags = .utf8 := by
  have hbit : flags &&& 2 ^ 8 = (flags.testBit 8).toNat * 2 ^ 8 := Nat.and_two_pow flags 8
  have htest : flags.testBit 8 = decide (flags / 0x100 % 2 = 1) := Nat.testBit_eq_decide_div_mod_eq
  by_cases hflag : flags / 0x100 % 2 = 1
  · simp_all [Encoding.ofFlags]
  · simp_all [Encoding.ofFlags]

/-! ## Reading at a position whose bytes are known -/

section Drop

variable {chunk rest : Bytes} {pos n : Nat}

theorem drop_past {front : Bytes} (h : chunk.drop pos = front ++ rest) :
    chunk.drop (pos + front.length) = rest := by
  rw [← List.drop_drop, h, List.drop_left]

theorem byteAt_drop (hn : n < 2 ^ 8) (h : chunk.drop pos = UInt8.ofNat n :: rest) :
    byteAt chunk pos = .ok n := by
  have hget : chunk[pos]? = some (UInt8.ofNat n) := by
    have hhead := congrArg (fun bytes : Bytes => bytes[0]?) h
    simpa using hhead
  have hbyte : (UInt8.ofNat n).toNat = n := by
    rw [UInt8.toNat_ofNat']
    omega
  simp [byteAt, hget, hbyte]

theorem unpackH_drop (hn : n < 2 ^ 16) (h : chunk.drop pos = pack16 n ++ rest) :
    unpackH chunk pos = .ok n := by
  rw [unpackH, u16At, h, u16?_pack16 hn]
  rfl

theorem slice_drop {front : Bytes} (h : chunk.drop pos = front ++ rest) :
    slice chunk pos front.length = front := by
  rw [slice, h, List.take_left]

/-- One round of the loop over the lengths of a UTF-8 string. -/
theorem lengthUtf8_drop (hn : n < 2 ^ 15) (h : chunk.drop pos = length8 n ++ rest) :
    lengthUtf8 chunk pos = .ok (n, pos + (length8 n).length) := by
  by_cases hshort : n < 0x80
  · have hfield : length8 n = [UInt8.ofNat n] := if_pos hshort
    have hread : byteAt chunk pos = .ok n :=
      byteAt_drop (by omega) (by simpa [hfield] using h)
    -- one byte: the high bit is clear, and the byte is the length
    have hclear : n &&& 0x80 = 0 := and_two_pow_eq_zero (k := 7) hshort
    simp [lengthUtf8, hread, hclear, hfield]
  · have hfield : length8 n = [UInt8.ofNat (0x80 + n / 256), UInt8.ofNat (n % 256)] :=
      if_neg hshort
    have hsplit : chunk.drop pos =
        [UInt8.ofNat (0x80 + n / 256)] ++ (UInt8.ofNat (n % 256) :: rest) := by
      rw [h, hfield]
      rfl
    have hread : byteAt chunk pos = .ok (0x80 + n / 256) := byteAt_drop (by omega) hsplit
    have hread' : byteAt chunk (pos + 1) = .ok (n % 256) :=
      byteAt_drop (by omega) (drop_past hsplit)
    -- two bytes: the mark is set, and the rest of the first byte is the high part
    rcases two_pow_add_and (m := n / 256) (k := 7) (by omega) with ⟨hset, hlow⟩
    have hmark : 0x80 + n / 256 &&& 0x80 ≠ 0 := hset
    have hvalue : ((0x80 + n / 256 &&& 0x7f) <<< 8) ||| (n % 256) = n := by
      rw [show (0x80 + n / 256 &&& 0x7f) = n / 256 from hlow]
      exact div_shiftLeft_or_mod n 8
    simp [lengthUtf8, hread, hread', hmark, hvalue, hfield]

theorem lengthUtf16_drop (hn : n < 2 ^ 31) (h : chunk.drop pos = length16 n ++ rest) :
    lengthUtf16 chunk pos = .ok (n, pos + (length16 n).length) := by
  by_cases hshort : n < 0x8000
  · have hfield : length16 n = pack16 n := if_pos hshort
    have hsplit : chunk.drop pos = pack16 n ++ rest := by rw [h, hfield]
    have hread : unpackH chunk pos = .ok n := unpackH_drop (by omega) hsplit
    have hclear : n &&& 0x8000 = 0 := and_two_pow_eq_zero (k := 15) hshort
    have hwidth : (length16 n).length = 2 := by rw [hfield]; rfl
    simp [lengthUtf16, hread, hclear, hwidth]
  · have hfield : length16 n = pack16 (0x8000 + n / 65536) ++ pack16 (n % 65536) := if_neg hshort
    have hsplit : chunk.drop pos = pack16 (0x8000 + n / 65536) ++ (pack16 (n % 65536) ++ rest) := by
      rw [h, hfield, List.append_assoc]
    have hread : unpackH chunk pos = .ok (0x8000 + n / 65536) := unpackH_drop (by omega) hsplit
    have hread' : unpackH chunk (pos + 2) = .ok (n % 65536) :=
      unpackH_drop (by omega) (drop_past hsplit)
    rcases two_pow_add_and (m := n / 65536) (k := 15) (by omega) with ⟨hset, hlow⟩
    have hmark : 0x8000 + n / 65536 &&& 0x8000 ≠ 0 := hset
    have hvalue : ((0x8000 + n / 65536 &&& 0x7fff) <<< 16) ||| (n % 65536) = n := by
      rw [show (0x8000 + n / 65536 &&& 0x7fff) = n / 65536 from hlow]
      exact div_shiftLeft_or_mod n 16
    have hwidth : (length16 n).length = 4 := by rw [hfield]; rfl
    simp [lengthUtf16, hread, hread', hmark, hvalue, hwidth]

end Drop

/-! ## Decoding -/

theorem decodeString_entry {chunk : Bytes} {flags pos : Nat} {name : String}
    (hfits : (Encoding.ofFlags flags).Fits name)
    (hentry : (Encoding.ofFlags flags).entry name <+: chunk.drop pos) :
    decodeString chunk flags pos = .ok name := by
  rcases hentry with ⟨rest, hrest⟩
  cases hencoding : Encoding.ofFlags flags with
  | utf8 =>
      have hflag : flags &&& 0x100 ≠ 0 := (ofFlags_utf8 flags).2 hencoding
      rw [hencoding] at hfits hrest
      rw [Encoding.entry, List.append_assoc, List.append_assoc] at hrest
      have hunits := lengthUtf8_drop hfits.1 hrest.symm
      have hbytes := lengthUtf8_drop hfits.2 (drop_past hrest.symm)
      -- the bytes behind the two lengths are the string
      have htext := slice_drop (drop_past (drop_past hrest.symm))
      simp [decodeString, hflag, hunits, hbytes, htext, decodeUtf8_encodeUtf8]
  | utf16 =>
      have hflag : ¬(flags &&& 0x100 ≠ 0) := by
        rw [ofFlags_utf8 flags, hencoding]
        decide
      rw [hencoding] at hfits hrest
      rw [Encoding.entry, List.append_assoc] at hrest
      have hunits := lengthUtf16_drop hfits hrest.symm
      have htext := slice_drop (drop_past hrest.symm)
      rw [encodeUtf16le, length_packUnits] at htext
      have hdecoded : decodeUtf16le (packUnits (units name)) = some name :=
        decodeUtf16le_encodeUtf16le name
      simp [decodeString, hflag, hunits, htext, hdecoded]

/-- The loop over the offset table, from entry `i` on. -/
theorem decodeStrings_entries {chunk : Bytes} {headerSize flags start : Nat} (names : List String)
    (i : Nat) (hfits : ∀ name ∈ names, (Encoding.ofFlags flags).Fits name)
    (hentries : ∀ (j : Nat) (hj : j < names.length), ∃ offset,
      u32At chunk (headerSize + 4 * (i + j)) = some offset ∧
        (Encoding.ofFlags flags).entry names[j] <+: chunk.drop (start + offset)) :
    decodeStrings chunk headerSize flags start i names.length = .ok names := by
  -- induction on the names to come, with the table index along
  induction names generalizing i with
  | nil => rfl
  | cons name names ih =>
      rcases hentries 0 (Nat.succ_pos names.length) with ⟨offset, hoffset, hentry⟩
      have hread : unpackI chunk (headerSize + 4 * i) = .ok offset := by
        rw [unpackI, show headerSize + 4 * i = headerSize + 4 * (i + 0) from rfl, hoffset]
        rfl
      have hname := decodeString_entry (hfits name (List.mem_cons_self ..)) hentry
      have hrest : decodeStrings chunk headerSize flags start (i + 1) names.length = .ok names := by
        refine ih (i + 1) (fun other hother => hfits other (List.mem_cons_of_mem name hother)) ?_
        intro j hj
        have hnext := hentries (j + 1) (Nat.succ_lt_succ hj)
        rwa [show i + (j + 1) = i + 1 + j by omega] at hnext
      simp [decodeStrings, hread, hname, hrest]

/-- Decoding inverts the format: the pool branch appends exactly the names that were laid out. -/
theorem PoolLayout.poolStrings {chunk : Bytes} {headerSize : Nat} {names : List String}
    (pool : PoolLayout chunk headerSize names) :
    poolStrings chunk headerSize = .ok names := by
  have hcount : unpackI chunk 8 = .ok names.length := by rw [unpackI, pool.count_field]; rfl
  have hflags : unpackI chunk 16 = .ok pool.flags := by rw [unpackI, pool.flags_field]; rfl
  have hstart : unpackI chunk 20 = .ok pool.start := by rw [unpackI, pool.start_field]; rfl
  have hbound := u32At_bound pool.start_field
  have hinside : 12 + 4 ≤ chunk.length := by omega
  rcases exists_u32At hinside with ⟨styles, hstyles⟩
  have hstyles' : unpackI chunk 12 = .ok styles := by rw [unpackI, hstyles]; rfl
  have hnames := decodeStrings_entries names 0 pool.fits (by simpa using pool.entries)
  simp [Ims.poolStrings, hcount, hstyles', hflags, hstart, hnames]

end Ims
end M2391Device
