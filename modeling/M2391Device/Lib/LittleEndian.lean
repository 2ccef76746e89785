import Mathlib.Algebra.Ring.Nat
import Mathlib.Data.List.Basic

/-!
# LittleEndian — numbers of 16 and 32 bits inside a byte string

`u16At` and `u32At` read a little-endian number at an offset and fail outside the byte string;
`pack16` and `pack32` write one.  The lemmas say where a read looks: at the part of a concatenation
that it lies in (`u32At_append_left`, `u32At_append_right`), and past what was overwritten.
-/

namespace LittleEndian

def u16? : List UInt8 → Option Nat
  | a :: b :: _ => some (a.toNat + 256 * b.toNat)
  | _ => none

def u32? : List UInt8 → Option Nat
  | a :: b :: c :: d :: _ =>
      some (a.toNat + 256 * b.toNat + 65536 * c.toNat + 16777216 * d.toNat)
  | _ => none

def u16At (bytes : List UInt8) (offset : Nat) : Option Nat := u16? (bytes.drop offset)

def u32At (bytes : List UInt8) (offset : Nat) : Option Nat := u32? (bytes.drop offset)

def pack16 (n : Nat) : List UInt8 := [UInt8.ofNat n, UInt8.ofNat (n / 256)]

def pack32 (n : Nat) : List UInt8 :=
  [UInt8.ofNat n, UInt8.ofNat (n / 256), UInt8.ofNat (n / 65536), UInt8.ofNat (n / 16777216)]

/-- The number that bytes of any length stand for. -/
def value : List UInt8 → Nat
  | [] => 0
  | b :: rest => b.toNat + 256 * value rest

/-- The `n` low bytes of a number. -/
def pack : Nat → Nat → List UInt8
  | 0, _ => []
  | n + 1, v => UInt8.ofNat v :: pack n (v / 256)

/-- Write `field` over the bytes from `offset` on. -/
def overwrite (bytes : List UInt8) (offset : Nat) (field : List UInt8) : List UInt8 :=
  bytes.take offset ++ field ++ bytes.drop (offset + field.length)

/-! ## Round trips -/

@[simp] theorem length_pack32 (n : Nat) : (pack32 n).length = 4 := rfl

theorem u16?_pack16 {n : Nat} (hn : n < 2 ^ 16) (rest : List UInt8) :
    u16? (pack16 n ++ rest) = some n := by
  simp only [pack16, List.cons_append, List.nil_append, u16?, UInt8.toNat_ofNat']
  congr 1
  omega

theorem u32?_pack32 {n : Nat} (hn : n < 2 ^ 32) (rest : List UInt8) :
    u32? (pack32 n ++ rest) = some n := by
  simp only [pack32, List.cons_append, List.nil_append, u32?, UInt8.toNat_ofNat']
  congr 1
  omega

theorem value_pack32 {n : Nat} (hn : n < 2 ^ 32) : value (pack32 n) = n := by
  simp only [pack32, value, UInt8.toNat_ofNat']
  omega

@[simp] theorem length_pack (n v : Nat) : (pack n v).length = n := by
  induction n generalizing v with
  | zero => rfl
  | succ n ih => rw [pack, List.length_cons, ih]

theorem value_lt (bytes : List UInt8) : value bytes < 256 ^ bytes.length := by
  induction bytes with
  | nil => exact Nat.one_pos
  | cons b bytes ih =>
      have hb := b.toNat_lt
      rw [value, List.length_cons, Nat.pow_succ]
      omega

theorem value_pack {n v : Nat} (hv : v < 256 ^ n) : value (pack n v) = v := by
  induction n generalizing v with
  | zero =>
      have hzero : v = 0 := by simpa using hv
      rw [hzero]
      rfl
  | succ n ih =>
      rw [Nat.pow_succ] at hv
      rw [pack, value, ih (by omega), UInt8.toNat_ofNat']
      omega

theorem pack_value (bytes : List UInt8) : pack bytes.length (value bytes) = bytes := by
  induction bytes with
  | nil => rfl
  | cons b bytes ih =>
      have hb := b.toNat_lt
      have hdiv : (b.toNat + 256 * value bytes) / 256 = value bytes := by omega
      have hlow : UInt8.ofNat (b.toNat + 256 * value bytes) = b := by
        refine UInt8.toNat_inj.1 ?_
        rw [UInt8.toNat_ofNat']
        omega
      rw [value, List.length_cons, pack, hdiv, ih, hlow]

theorem u16?_some {bytes : List UInt8} {n : Nat} (h : u16? bytes = some n) :
    2 ≤ bytes.length ∧ n < 2 ^ 16 := by
  match bytes with
  | a :: b :: rest =>
      have ha := a.toNat_lt
      have hb := b.toNat_lt
      have hn : a.toNat + 256 * b.toNat = n := Option.some.inj h
      refine ⟨by simp, ?_⟩
      omega

theorem u32?_some {bytes : List UInt8} {n : Nat} (h : u32? bytes = some n) :
    4 ≤ bytes.length ∧ n < 2 ^ 32 := by
  match bytes with
  | a :: b :: c :: d :: rest =>
      have ha := a.toNat_lt
      have hb := b.toNat_lt
      have hc := c.toNat_lt
      have hd := d.toNat_lt
      have hn : a.toNat + 256 * b.toNat + 65536 * c.toNat + 16777216 * d.toNat = n :=
        Option.some.inj h
      refine ⟨by simp, ?_⟩
      omega

/-- A read that succeeds does not look further than its own bytes. -/
theorem u16?_append {bytes : List UInt8} {n : Nat} (h : u16? bytes = some n) (rest : List UInt8) :
    u16? (bytes ++ rest) = some n := by
  match bytes with
  | a :: b :: tail => exact h

theorem u32?_append {bytes : List UInt8} {n : Nat} (h : u32? bytes = some n) (rest : List UInt8) :
    u32? (bytes ++ rest) = some n := by
  match bytes with
  | a :: b :: c :: d :: tail => exact h

/-! ## Reads at an offset -/

section At

variable {bytes : List UInt8} {offset n : Nat}

theorem u32At_lt (h : u32At bytes offset = some n) : n < 2 ^ 32 := (u32?_some h).2

theorem u16At_bound (h : u16At bytes offset = some n) : offset + 2 ≤ bytes.length := by
  have hlength := (u16?_some h).1
  rw [List.length_drop] at hlength
  omega

theorem u32At_bound (h : u32At bytes offset = some n) : offset + 4 ≤ bytes.length := by
  have hlength := (u32?_some h).1
  rw [List.length_drop] at hlength
  omega

theorem exists_u32At (hbound : offset + 4 ≤ bytes.length) : ∃ n, u32At bytes offset = some n := by
  have hlength : 4 ≤ (bytes.drop offset).length := by
    rw [List.length_drop]
    omega
  match hdrop : bytes.drop offset with
  | [] => simp [hdrop] at hlength
  | [a] => simp [hdrop] at hlength
  | [a, b] => simp [hdrop] at hlength
  | [a, b, c] => simp [hdrop] at hlength
  | a :: b :: c :: d :: rest => exact ⟨_, by rw [u32At, hdrop]; rfl⟩

theorem u16At_append_left (h : u16At bytes offset = some n) (rest : List UInt8) :
    u16At (bytes ++ rest) offset = some n := by
  have hbound := u16At_bound h
  rw [u16At, List.drop_append_of_le_length (by omega)]
  exact u16?_append h rest

theorem u32At_append_left (h : u32At bytes offset = some n) (rest : List UInt8) :
    u32At (bytes ++ rest) offset = some n := by
  have hbound := u32At_bound h
  rw [u32At, List.drop_append_of_le_length (by omega)]
  exact u32?_append h rest

theorem u16At_append_right (front rest : List UInt8) (offset : Nat) :
    u16At (front ++ rest) (front.length + offset) = u16At rest offset := by
  have hfront : front.drop (front.length + offset) = [] := List.drop_eq_nil_of_le (by omega)
  simp [u16At, List.drop_append, hfront]

theorem u32At_append_right (front rest : List UInt8) (offset : Nat) :
    u32At (front ++ rest) (front.length + offset) = u32At rest offset := by
  have hfront : front.drop (front.length + offset) = [] := List.drop_eq_nil_of_le (by omega)
  simp [u32At, List.drop_append, hfront]

/-- A field overwritten later does not change a number before it. -/
theorem u16At_overwrite (h : u16At bytes offset = some n) {later : Nat} (field : List UInt8)
    (hlater : offset + 2 ≤ later) : u16At (overwrite bytes later field) offset = some n := by
  have hsplit : overwrite bytes later field =
      bytes.take later ++ (field ++ bytes.drop (later + field.length)) := by
    rw [overwrite, List.append_assoc]
  have hbound := u16At_bound h
  -- the two bytes lie in the part that is kept
  have htake : u16At (bytes.take later) offset = some n := by
    rw [u16At, List.drop_take]
    rw [u16At] at h
    match hdrop : bytes.drop offset with
    | [] => simp [hdrop, u16?] at h
    | [a] => simp [hdrop, u16?] at h
    | a :: b :: tail =>
        rw [hdrop] at h
        match hk : later - offset with
        | 0 => omega
        | 1 => omega
        | k + 2 => simpa [u16?] using h
  rw [hsplit]
  exact u16At_append_left htake _

/-- The field that was overwritten reads as what was written. -/
theorem u32At_overwrite (hn : n < 2 ^ 32) (hoffset : offset ≤ bytes.length) :
    u32At (overwrite bytes offset (pack32 n)) offset = some n := by
  have hlength : (bytes.take offset).length = offset := by
    rw [List.length_take]
    omega
  have hread := u32At_append_right (bytes.take offset)
    (pack32 n ++ bytes.drop (offset + (pack32 n).length)) 0
  rw [hlength, Nat.add_zero] at hread
  rw [overwrite, List.append_assoc, hread]
  exact u32?_pack32 hn _

theorem length_overwrite (field : List UInt8) (hfits : offset + field.length ≤ bytes.length) :
    (overwrite bytes offset field).length = bytes.length := by
  simp [overwrite]
  omega

theorem getElem?_overwrite {field : List UInt8} (hfits : offset + field.length ≤ bytes.length)
    (i : Nat) : (overwrite bytes offset field)[i]? =
      if offset ≤ i ∧ i < offset + field.length then field[i - offset]? else bytes[i]? := by
  have htake : (bytes.take offset).length = offset := by
    rw [List.length_take]
    omega
  rw [overwrite, List.append_assoc]
  by_cases hlow : i < offset
  · rw [if_neg (by omega), List.getElem?_append_left (by omega), List.getElem?_take, if_pos hlow]
  · rw [List.getElem?_append_right (by omega), htake]
    by_cases hhigh : i < offset + field.length
    · rw [if_pos (by omega), List.getElem?_append_left (by omega)]
    · rw [if_neg (by omega), List.getElem?_append_right (by omega), List.getElem?_drop]
      congr 1
      omega

/-- Overwriting inside the front of a concatenation. -/
theorem overwrite_append (field rest : List UInt8) (hfits : offset + field.length ≤ bytes.length) :
    overwrite (bytes ++ rest) offset field = overwrite bytes offset field ++ rest := by
  rw [overwrite, overwrite, List.take_append_of_le_length (by omega),
    List.drop_append_of_le_length hfits]
  simp only [List.append_assoc]

end At

end LittleEndian
