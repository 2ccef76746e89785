import M2391Device.Camera.ElfFile
import M2391Device.Camera.PreludeRun

/-!
# PatchOverride — the rewriting of the override library

`patch_override` of `camera_multicam_fixup.py`.  The program headers move to a new segment at the end
of the file, followed by the prelude; two words of the original are replaced.  Everything else is
kept, and the new headers agree with each other and with the file (`patchOverride_ok`).
-/

namespace M2391Device
namespace Camera

open Ims (PyError Bytes slice orRaise)
open LittleEndian

/-! ## The function -/

def STOCK_SHA256 : String := "474eeab7f1137ee02f04ac1edb8705913d015b703d9c1f18263c322a6e4a2b83"
def PATCHED_SHA256 : String := "59fcec3c692e4ac9b7ffd7bc0950c51b182be0e22b472ebde6d97bf941bf9e23"

/-- `b'\x7fELF\x02\x01'` -/
def ELF : Bytes := [0x7f, 0x45, 0x4c, 0x46, 2, 1]

/-- The ends of the loaded segments in memory. -/
def loadEnds (headers : List (List Int)) : List Int :=
  (headers.filter fun h => Phdr.kind h = 1).map fun h => Phdr.vaddr h + Phdr.memsz h

/-- `bytes(n)` -/
def zeros (n : Int) : Bytes := List.replicate n.toNat 0

/-- What `patch_override` does after the digest was compared. -/
def rewriteElf (data : Bytes) : Except PyError Bytes := do
  raiseIf (data.take 6 ≠ ELF) "Expected AArch64 little-endian ELF"
  let machine ← unpackFrom 2 data 18
  raiseIf (machine ≠ 183) "Expected AArch64 little-endian ELF"
  let phoff ← unpackFrom 8 data 32
  let phsize ← unpackFrom 2 data 54
  let phcount ← unpackFrom 2 data 56
  raiseIf (phsize ≠ 56 ∨ phcount ≠ 12) "Unexpected ELF program header layout"
  let headers ← (List.range phcount).mapM fun i => unpackFields II6Q data (phoff + i * phsize)
  let last ← orRaise (.valueError "max() iterable argument is empty") (loadEnds headers).max?
  let segment_address := align last 4096
  let segment_offset := align data.length 4096
  let header_bytes : Int := (phcount + 1) * phsize
  let code_offset := align header_bytes 16
  let code_address := segment_address + code_offset
  let payload ← prelude code_address
  let segment_size := code_offset + payload.length
  raiseIf (Phdr.kind (headers.getD 0 []) ≠ 6) "Missing PT_PHDR"
  let table := headers.set 0
    [6, 4, segment_offset, segment_address, segment_address, header_bytes, header_bytes, 8] ++
    [[1, 5, segment_offset, segment_address, segment_address, segment_size, segment_size, 4096]]
  let result ← packInto 8 data 32 segment_offset
  let result ← packInto 2 result 56 (phcount + 1)
  let entry ← unpackFrom 4 result ENTRY_BRANCH
  let expected ← branch ENTRY_BRANCH ENTRY_BODY
  raiseIf ((entry : Int) ≠ expected) "Unexpected override entry instruction"
  let mode ← unpackFrom 8 result MODE_POINTER
  raiseIf (mode ≠ 0x486898) "Unexpected mode descriptor pointer"
  let jump ← branch ENTRY_BRANCH code_address
  let result ← packInto 4 result ENTRY_BRANCH jump
  let result ← packInto 8 result MODE_POINTER THREE_MODES
  let packed ← table.mapM (packFields II6Q)
  return result ++ zeros (segment_offset - result.length) ++ packed.flatten ++
    zeros (code_offset - header_bytes) ++ payload

/-- `patch_override(data)`, for any function as the digest. -/
def patchOverride (sha256 : Bytes → String) (data : Bytes) : Except PyError Bytes :=
  if sha256 data = PATCHED_SHA256 then .ok data
  else if sha256 data ≠ STOCK_SHA256 then
    .error (.valueError
      "Unknown CHI override: revalidate the MCX layout for this firmware")
  else rewriteElf data

/-- `fix_camera_multicam`: the result, and the contents of the file after it. -/
def fixCameraMulticam (sha256 : Bytes → String) (contents : Bytes) : Except PyError Unit × Bytes :=
  match patchOverride sha256 contents with
  | .error e => (.error e, contents)
  | .ok result => (.ok (), result)

/-! ## What a file is rewritten to -/

/-- What `patch_override` checks of a file, besides the digest and the reach of the code. -/
structure Accepted (data : Bytes) : Prop where
  elf : data.take 6 = ELF
  machine : numberAt 2 data 18 = 183
  phsize : numberAt 2 data 54 = 56
  phcount : phnum data = 12
  table : phoff data + 12 * 56 ≤ data.length
  phdr : (programHeader data 0).kind = 6
  loaded : ∃ i < 12, (programHeader data i).kind = 1
  words : MODE_POINTER + 8 ≤ data.length
  entry : A64.decode (numberAt 4 data ENTRY_BRANCH) =
    some (.b (BitVec.ofInt 26 ((ENTRY_BODY - ENTRY_BRANCH) / 4)))
  mode : numberAt 8 data MODE_POINTER = 0x486898

/-- The bytes of `e_phoff`, of `e_phnum` and of the two words. -/
def Owned (i : Nat) : Prop :=
  (32 ≤ i ∧ i < 32 + 8) ∨ (56 ≤ i ∧ i < 56 + 2) ∨ (ENTRY_BRANCH ≤ i ∧ i < ENTRY_BRANCH + 4) ∨
    (MODE_POINTER ≤ i ∧ i < MODE_POINTER + 8)

/-- A segment that is loaded from the file and can be executed, above all that was loaded. -/
structure Added (data result : Bytes) (load : ProgramHeader) : Prop where
  kind : load.kind = 1
  flags : load.flags = 5
  inside : load.offset + load.filesz ≤ result.length
  whole : load.memsz = load.filesz
  congruent : load.offset % 4096 = load.vaddr % 4096
  above : ∀ i < 12, (programHeader data i).kind = 1 →
    (programHeader data i).vaddr + (programHeader data i).memsz ≤ load.vaddr

/-- A description of the table of `result`, which lies inside a loaded segment. -/
structure Describes (result : Bytes) (load phdr : ProgramHeader) : Prop where
  kind : phdr.kind = 6
  offset : phdr.offset = phoff result
  filesz : phdr.filesz = phnum result * 56
  memsz : phdr.memsz = phnum result * 56
  inside : load.offset ≤ phdr.offset ∧ phdr.offset + phdr.filesz ≤ load.offset + load.filesz
  mapped : load.vaddr ≤ phdr.vaddr ∧ phdr.vaddr + phdr.memsz ≤ load.vaddr + load.memsz
  same : phdr.vaddr - load.vaddr = phdr.offset - load.offset

/-- The word at the entry is a branch to the place in the segment where the prelude for that address
stands. -/
def EntersPrelude (result : Bytes) (load : ProgramHeader) : Prop :=
  ∃ imm place payload, A64.decode (numberAt 4 result ENTRY_BRANCH) = some (.b imm) ∧
    ENTRY_BRANCH + 4 * imm.toInt = ((load.vaddr + place : Nat) : Int) ∧
    prelude ((load.vaddr + place : Nat) : Int) = .ok payload ∧
    slice result (load.offset + place) payload.length = payload ∧
    place + payload.length ≤ load.filesz

structure Rewritten (data result : Bytes) : Prop where
  longer : data.length ≤ result.length
  kept : ∀ i < data.length, ¬ Owned i → result[i]? = data[i]?
  count : phnum result = 13
  table : phoff result + 13 * 56 ≤ result.length
  others : ∀ i, 1 ≤ i → i ≤ 11 → headerBytes result i = headerBytes data i
  added : Added data result (programHeader result 12)
  phdr : Describes result (programHeader result 12) (programHeader result 0)
  entry : EntersPrelude result (programHeader result 12)

/-! ## What holds when it returns -/

/-- A number rounded up to the next page. -/
def pageUp (n : Nat) : Nat := (n + (2 ^ 12 - 1)) / 2 ^ 12 * 2 ^ 12

/-- The original part of the result. -/
def patched (data : Bytes) (segment_offset jump : Nat) : Bytes :=
  overwrite (overwrite (overwrite (overwrite data 32 (pack 8 segment_offset)) 56 (pack 2 13))
    ENTRY_BRANCH (pack 4 jump)) MODE_POINTER (pack 8 THREE_MODES)

/-- The branch to the prelude. -/
def jumpTo (address : Nat) : A64.Instr := .b (BitVec.ofInt 26 (((address : Int) - ENTRY_BRANCH) / 4))

/-- The headers of the table and of the segment that are added. -/
def phdrEntry (segment_offset segment_address : Nat) : ProgramHeader :=
  ⟨6, 4, segment_offset, segment_address, segment_address, 728, 728, 8⟩

def loadEntry (segment_offset segment_address size : Nat) : ProgramHeader :=
  ⟨1, 5, segment_offset, segment_address, segment_address, size, size, 4096⟩

section Returned

variable {data result : Bytes}

theorem mapM_eq_ok {α β : Type} {f : α → Except PyError β} {xs : List α} {ys : List β}
    (h : xs.mapM f = .ok ys) : List.Forall₂ (fun x y => f x = .ok y) xs ys := by
  induction xs generalizing ys with
  | nil =>
      cases h
      exact .nil
  | cons x xs ih =>
      rw [List.mapM_cons, bind_eq_ok] at h
      rcases h with ⟨y, hy, hrest⟩
      rcases bind_eq_ok.1 hrest with ⟨rest, hrest', hboth⟩
      cases hboth
      exact .cons hy (ih hrest')

theorem forall₂_getElem? {α β : Type} {R : α → β → Prop} {xs : List α} {ys : List β}
    (h : List.Forall₂ R xs ys) {i : Nat} {x : α} (hx : xs[i]? = some x) :
    ∃ y, ys[i]? = some y ∧ R x y := by
  induction h generalizing i with
  | nil => cases hx
  | cons hxy _ ih =>
      cases i with
      | zero =>
          cases hx
          exact ⟨_, rfl, hxy⟩
      | succ i => exact ih hx

/-! ### The headers -/

section Headers

variable {headers : List (List Int)} {last : Int}

/-- The headers that were unpacked. -/
def Unpacked (data : Bytes) (headers : List (List Int)) : Prop :=
  (List.range 12).mapM (fun i => unpackFields II6Q data (phoff data + i * 56)) = .ok headers

theorem Unpacked.length (h : Unpacked data headers) : headers.length = 12 := by
  rw [← (mapM_eq_ok h).length_eq, List.length_range]

theorem Unpacked.header (h : Unpacked data headers) {i : Nat} (hi : i < 12) :
    phoff data + i * 56 + 56 ≤ data.length ∧ headers[i]? = some (programHeader data i).fields := by
  have hrange : (List.range 12)[i]? = some i := by rw [List.getElem?_range hi]
  rcases forall₂_getElem? (mapM_eq_ok h) hrange with ⟨fields, hfields, hread⟩
  rw [unpackFields_II6Q] at hread
  exact ⟨hread.1, hfields.trans (congrArg some hread.2.symm)⟩

theorem Unpacked.eq (h : Unpacked data headers) :
    headers = (List.range 12).map fun i => (programHeader data i).fields := by
  refine List.ext_getElem? fun i => ?_
  by_cases hi : i < 12
  · rw [(h.header hi).2, List.getElem?_map, List.getElem?_range hi, Option.map_some]
  · rw [List.getElem?_eq_none (by rw [h.length]; omega),
      List.getElem?_eq_none (by rw [List.length_map, List.length_range]; omega)]

/-- The last end in memory is that of a loaded segment, and is not below any other. -/
theorem Unpacked.ends (h : Unpacked data headers) (hlast : (loadEnds headers).max? = some last) :
    (∃ i < 12, (programHeader data i).kind = 1 ∧
      last = ((programHeader data i).vaddr + (programHeader data i).memsz : Nat)) ∧
    ∀ i < 12, (programHeader data i).kind = 1 →
      (((programHeader data i).vaddr + (programHeader data i).memsz : Nat) : Int) ≤ last := by
  rw [List.max?_eq_some_iff] at hlast
  rcases hlast with ⟨hmem, hall⟩
  constructor
  · rcases List.mem_map.1 hmem with ⟨fields, hfields, hend⟩
    rcases List.mem_filter.1 hfields with ⟨hin, hkind⟩
    rcases List.mem_iff_getElem?.1 hin with ⟨i, hi⟩
    have hi12 : i < 12 := by
      rw [← h.length]
      exact (List.getElem?_eq_some_iff.1 hi).1
    have hsame : fields = (programHeader data i).fields :=
      Option.some.inj (hi.symm.trans (h.header hi12).2)
    rw [hsame] at hkind hend
    exact ⟨i, hi12, Int.natCast_inj.1 (of_decide_eq_true hkind), hend.symm⟩
  · intro i hi hkind
    refine hall _ (List.mem_map.2 ⟨(programHeader data i).fields, List.mem_filter.2 ⟨?_, ?_⟩, rfl⟩)
    · exact List.mem_of_getElem? (h.header hi).2
    · exact decide_eq_true (congrArg Nat.cast hkind)

end Headers

/-! ### The new table -/

section Table

variable {entries : List (List Int)} {packed : List Bytes} {i : Nat}

theorem length_packed (hpacked : entries.mapM (packFields II6Q) = .ok packed) :
    ∀ part ∈ packed, part.length = 56 := by
  intro part hpart
  rcases List.mem_iff_getElem?.1 hpart with ⟨i, hi⟩
  rcases forall₂_getElem? (mapM_eq_ok hpacked).flip hi with ⟨fields, _, hfields⟩
  exact length_packFields hfields

theorem length_table (hpacked : entries.mapM (packFields II6Q) = .ok packed) :
    packed.flatten.length = entries.length * 56 := by
  have hlengths : packed.map List.length = List.replicate packed.length 56 :=
    List.eq_replicate_iff.2 ⟨List.length_map .., by
      intro n hn
      rcases List.mem_map.1 hn with ⟨part, hpart, rfl⟩
      exact length_packed hpacked part hpart⟩
  rw [(mapM_eq_ok hpacked).length_eq, List.length_flatten, hlengths, List.sum_replicate_nat]

/-- An entry of the table stands where its number says. -/
theorem entry_packed (hpacked : entries.mapM (packFields II6Q) = .ok packed) {fields : List Int}
    (hentry : entries[i]? = some fields) :
    packFields II6Q fields = .ok (slice packed.flatten (i * 56) 56) := by
  rcases forall₂_getElem? (mapM_eq_ok hpacked) hentry with ⟨part, hpart, hfields⟩
  rw [slice_flatten (length_packed hpacked) hpart]
  exact hfields

end Table

/-! ### The original part -/

section Patched

variable {segment_offset jump : Nat}

theorem length_overwritten {bytes : Bytes} {at' n v : Nat} (hfits : at' + n ≤ bytes.length) :
    (overwrite bytes at' (pack n v)).length = bytes.length :=
  length_overwrite _ (by rwa [length_pack])

theorem kept_overwrite {bytes : Bytes} {at' n v i : Nat} (hfits : at' + n ≤ bytes.length)
    (hi : ¬ (at' ≤ i ∧ i < at' + n)) : (overwrite bytes at' (pack n v))[i]? = bytes[i]? := by
  rw [getElem?_overwrite (by rwa [length_pack]), length_pack, if_neg hi]

theorem slice_kept {bytes : Bytes} {at' n v other m : Nat} (hfits : at' + n ≤ bytes.length)
    (hother : other + m ≤ at' ∨ at' + n ≤ other) :
    slice (overwrite bytes at' (pack n v)) other m = slice bytes other m :=
  slice_overwrite_other (by rwa [length_pack]) (by rwa [length_pack])

theorem slice_written {bytes : Bytes} {at' n v : Nat} (hfits : at' + n ≤ bytes.length) :
    slice (overwrite bytes at' (pack n v)) at' n = pack n v := by
  have hread : slice (overwrite bytes at' (pack n v)) at' (pack n v).length = pack n v :=
    slice_overwrite (by rwa [length_pack])
  rwa [length_pack] at hread

/-- The file with the place and the number of the new headers. -/
def counted (data : Bytes) (segment_offset : Nat) : Bytes :=
  overwrite (overwrite data 32 (pack 8 segment_offset)) 56 (pack 2 13)

theorem length_counted (hlong : 58 ≤ data.length) :
    (counted data segment_offset).length = data.length := by
  have hfirst : (overwrite data 32 (pack 8 segment_offset)).length = data.length :=
    length_overwritten (by omega)
  rw [counted, length_overwritten (by omega), hfirst]

theorem slice_counted (hlong : 58 ≤ data.length) {other m : Nat} (hother : 58 ≤ other) :
    slice (counted data segment_offset) other m = slice data other m := by
  have hfirst : (overwrite data 32 (pack 8 segment_offset)).length = data.length :=
    length_overwritten (by omega)
  rw [counted, slice_kept (by omega) (by omega), slice_kept (by omega) (by omega)]

/-- The four fields that are written, and nothing else, differ from the original. -/
theorem patched_fields (hwords : MODE_POINTER + 8 ≤ data.length) :
    (patched data segment_offset jump).length = data.length ∧
      (∀ i, ¬ Owned i → (patched data segment_offset jump)[i]? = data[i]?) ∧
      slice (patched data segment_offset jump) 32 8 = pack 8 segment_offset ∧
      slice (patched data segment_offset jump) 56 2 = pack 2 13 ∧
      slice (patched data segment_offset jump) ENTRY_BRANCH 4 = pack 4 jump := by
  have hmode : MODE_POINTER = 0x45c658 := rfl
  have hentry : ENTRY_BRANCH = 0xd1a04 := rfl
  have h1 : (overwrite data 32 (pack 8 segment_offset)).length = data.length :=
    length_overwritten (by omega)
  have h2 : (counted data segment_offset).length = data.length := length_counted (by omega)
  have h3 : (overwrite (counted data segment_offset) ENTRY_BRANCH (pack 4 jump)).length =
      data.length := by
    rw [length_overwritten (by omega), h2]
  rw [patched, ← counted]
  refine ⟨?_, ?_, ?_, ?_, ?_⟩
  · rw [length_overwritten (by omega), h3]
  · intro i hi
    simp only [Owned, not_or] at hi
    rw [kept_overwrite (by omega) hi.2.2.2, kept_overwrite (by omega) hi.2.2.1, counted,
      kept_overwrite (by omega) hi.2.1, kept_overwrite (by omega) hi.1]
  · rw [slice_kept (by omega) (by omega), slice_kept (by omega) (by omega), counted,
      slice_kept (by omega) (by omega), slice_written (by omega)]
  · rw [slice_kept (by omega) (by omega), slice_kept (by omega) (by omega), counted,
      slice_written (by omega)]
  · rw [slice_kept (by omega) (by omega), slice_written (by omega)]

end Patched

/-! ### The checks -/

/-- What is known of a run that returned. -/
structure Run (data : Bytes) (address : Nat) (payload : Bytes) (packed : List Bytes)
    (result : Bytes) : Prop where
  accepted : Accepted data
  ends : ∀ i < 12, (programHeader data i).kind = 1 →
    (programHeader data i).vaddr + (programHeader data i).memsz ≤ address
  page : address % 4096 = 0
  assembled : prelude ((address + 736 : Nat) : Int) = .ok payload
  reach : (((address + 736 : Nat) : Int) - ENTRY_BRANCH) % 4 = 0 ∧
    -2 ^ 27 ≤ ((address + 736 : Nat) : Int) - ENTRY_BRANCH ∧
    ((address + 736 : Nat) : Int) - ENTRY_BRANCH < 2 ^ 27
  offsetFits : pageUp data.length < 256 ^ 8
  table : ((((List.range 12).map fun i => (programHeader data i).fields).set 0
      (phdrEntry (pageUp data.length) address).fields) ++
    [(loadEntry (pageUp data.length) address (736 + payload.length)).fields]).mapM
      (packFields II6Q) = .ok packed
  output : result = patched data (pageUp data.length) (A64.encode (jumpTo (address + 736))) ++
    zeros ((pageUp data.length : Int) - data.length) ++ packed.flatten ++ zeros 8 ++ payload

theorem orRaise_eq_ok {α : Type} {e : PyError} {x : Option α} {a : α} (h : orRaise e x = .ok a) :
    x = some a := by
  cases x with
  | none => cases h
  | some b =>
      cases h
      rfl

theorem branch_eq_ok {pc target : Int} {word : Int} (h : branch pc target = .ok word) :
    ((target - pc) % 4 = 0 ∧ -2 ^ 27 ≤ target - pc ∧ target - pc < 2 ^ 27) ∧
      word = A64.encode (.b (BitVec.ofInt 26 ((target - pc) / 4))) := by
  rw [branch_eq] at h
  by_cases hreach : (target - pc) % 4 = 0 ∧ -2 ^ 27 ≤ target - pc ∧ target - pc < 2 ^ 27
  · rw [if_pos hreach] at h
    cases h
    exact ⟨hreach, rfl⟩
  · rw [if_neg hreach] at h
    cases h

theorem pageUp_spec (n : Nat) : n ≤ pageUp n ∧ pageUp n % 4096 = 0 := by
  rw [pageUp]
  omega

theorem rewriteElf_ok (h : rewriteElf data = .ok result) :
    ∃ address payload packed, Run data address payload packed result := by
  simp only [rewriteElf, bind_eq_ok, raiseIf_eq_ok, unpackFrom_eq_ok, packInto_eq_ok, not_not,
    not_or] at h
  -- up to the program headers, up to the fields of the table, and the rest
  rcases h with ⟨_, helf, machine, ⟨_, hmachine⟩, _, rfl, _, ⟨_, rfl⟩, phsize, ⟨_, hphsize⟩,
    phcount, ⟨hlong, hphcount⟩, _, ⟨rfl, rfl⟩, headers, hheaders, h⟩
  rcases h with ⟨last, hlast, payload, hpayload, _, hphdr, _, ⟨⟨_, hoffset⟩, _, rfl⟩, _,
    ⟨_, _, rfl⟩, h⟩
  rcases h with ⟨entry, ⟨_, hentry⟩, expected, hexpected, _, rfl, mode, ⟨hwords, hmode⟩, _, rfl,
    jump, hjump, _, ⟨_, _, rfl⟩, _, ⟨_, _, rfl⟩, packed, hpacked, hresult⟩
  have hheaders : Unpacked data headers := hheaders
  rcases hheaders.ends (orRaise_eq_ok hlast) with ⟨⟨k, hk, hkind, rfl⟩, hends⟩
  -- the numbers that were rounded up
  have hcode : align (((12 : Nat) + 1 : Int) * (56 : Nat)) 16 = 736 := align_natCast 728 4
  have hoffsetOf : align data.length 4096 = (pageUp data.length : Int) := align_natCast _ 12
  have haddressOf : align (((programHeader data k).vaddr + (programHeader data k).memsz : Nat) : Int)
      4096 = (pageUp ((programHeader data k).vaddr + (programHeader data k).memsz) : Int) :=
    align_natCast _ 12
  have hpage := pageUp_spec ((programHeader data k).vaddr + (programHeader data k).memsz)
  generalize pageUp ((programHeader data k).vaddr + (programHeader data k).memsz) = address at *
  have hplace : (address : Int) + 736 = ((address + 736 : Nat) : Int) := by push_cast; rfl
  rw [haddressOf, hcode, hplace] at hpayload hjump
  rw [hoffsetOf] at hoffset
  rcases branch_eq_ok hjump with ⟨hreach, rfl⟩
  -- the words stand behind the fields that were written before they were checked
  have hmodeIs : MODE_POINTER = 0x45c658 := rfl
  have hentryIs : ENTRY_BRANCH = 0xd1a04 := rfl
  have hcounted : overwrite (overwrite data 32 (pack 8 (align (data.length : Int) 4096).toNat)) 56
      (pack 2 ((12 : Nat) + 1 : Int).toNat) = counted data (pageUp data.length) := by
    rw [hoffsetOf, Int.toNat_natCast]
    rfl
  rw [hcounted] at hentry hwords hmode hresult
  rw [length_counted (by omega)] at hwords
  rw [slice_counted (by omega) (by omega)] at hentry hmode
  have hlast : phoff data + 11 * 56 + 56 ≤ data.length := (hheaders.header (i := 11) (by decide)).1
  refine ⟨address, payload, packed, ⟨helf, hmachine, hphsize, hphcount, by omega, ?_, ⟨k, hk, hkind⟩,
    hwords, ?_, hmode⟩, ?_, hpage.2, hpayload, hreach, ?_, ?_, ?_⟩
  · rw [List.getD_eq_getElem?_getD, (hheaders.header (i := 0) (by decide)).2] at hphdr
    exact Int.natCast_inj.1 hphdr
  · have hword := (branch_eq_ok hexpected).2
    rw [numberAt, hentry, Int.natCast_inj.1 hword, A64.decode_encode]
  · intro i hi hload
    have hend := hends i hi hload
    omega
  · exact_mod_cast hoffset
  · have hfields : [6, 4, (pageUp data.length : Int), (address : Int), (address : Int),
        ((12 : Nat) + 1 : Int) * (56 : Nat), ((12 : Nat) + 1 : Int) * (56 : Nat), 8] =
        (phdrEntry (pageUp data.length) address).fields := rfl
    have hfields' : [1, 5, (pageUp data.length : Int), (address : Int), (address : Int),
        736 + (payload.length : Int), 736 + (payload.length : Int), 4096] =
        (loadEntry (pageUp data.length) address (736 + payload.length)).fields := rfl
    rw [hoffsetOf, haddressOf, hcode, hfields, hfields', hheaders.eq] at hpacked
    exact hpacked
  · have hpatched : overwrite (overwrite (counted data (pageUp data.length)) ENTRY_BRANCH
        (pack 4 (A64.encode (jumpTo (address + 736)) : Int).toNat)) MODE_POINTER
        (pack 8 (THREE_MODES : Int).toNat) =
        patched data (pageUp data.length) (A64.encode (jumpTo (address + 736))) := rfl
    have hgap : (736 : Int) - ((12 : Nat) + 1 : Int) * (56 : Nat) = 8 := rfl
    rw [← jumpTo, hpatched, (patched_fields hwords).1, hoffsetOf, hcode, hgap] at hresult
    exact (Except.ok.inj hresult).symm

/-! ### The result -/

namespace Run

variable {address : Nat} {payload : Bytes} {packed : List Bytes}
  (run : Run data address payload packed result)

include run

/-- The new segment stands behind the original part and the bytes that fill its page. -/
theorem parts : ∃ front : Bytes, front.length = pageUp data.length ∧
    result = front ++ (packed.flatten ++ (zeros 8 ++ payload)) ∧
    ∀ i < data.length,
      front[i]? = (patched data (pageUp data.length) (A64.encode (jumpTo (address + 736))))[i]? := by
  have hup := (pageUp_spec data.length).1
  have hlength : (patched data (pageUp data.length) (A64.encode (jumpTo (address + 736)))).length =
      data.length := (patched_fields run.accepted.words).1
  refine ⟨patched data (pageUp data.length) (A64.encode (jumpTo (address + 736))) ++
    zeros ((pageUp data.length : Int) - data.length), ?_, ?_, fun i hi => ?_⟩
  · rw [List.length_append, hlength, zeros, List.length_replicate]
    omega
  · rw [run.output]
    simp only [List.append_assoc]
  · rw [List.getElem?_append_left (by rw [hlength]; exact hi)]

theorem length_flatten : packed.flatten.length = 13 * 56 := by
  rw [length_table run.table, List.length_append, List.length_set, List.length_map, List.length_range]
  rfl

theorem length_result : result.length = pageUp data.length + (736 + payload.length) := by
  rcases run.parts with ⟨front, hfront, hresult, _⟩
  have hzeros : (zeros 8).length = 8 := rfl
  rw [hresult, List.length_append, List.length_append, List.length_append, hfront,
    run.length_flatten, hzeros]
  omega

/-- What is read from the original part. -/
theorem slice_original {at' n : Nat} (hfits : at' + n ≤ data.length) :
    slice result at' n =
      slice (patched data (pageUp data.length) (A64.encode (jumpTo (address + 736)))) at' n := by
  rcases run.parts with ⟨front, hfront, hresult, hsame⟩
  have hup := (pageUp_spec data.length).1
  refine slice_congr fun i hi => ?_
  rw [hresult, List.getElem?_append_left (by omega), hsame _ (by omega)]

theorem phoff_eq : phoff result = pageUp data.length := by
  have hmode : MODE_POINTER = 0x45c658 := rfl
  have hwords := run.accepted.words
  rw [phoff, numberAt, run.slice_original (by omega), (patched_fields hwords).2.2.1,
    value_pack run.offsetFits]

theorem phnum_eq : phnum result = 13 := by
  have hmode : MODE_POINTER = 0x45c658 := rfl
  have hwords := run.accepted.words
  rw [phnum, numberAt, run.slice_original (by omega), (patched_fields hwords).2.2.2.1]
  rfl

theorem headerBytes_eq {i : Nat} (hi : i < 13) :
    headerBytes result i = slice packed.flatten (i * 56) 56 := by
  rcases run.parts with ⟨front, hfront, hresult, _⟩
  have hlength := run.length_flatten
  rw [headerBytes, run.phoff_eq, hresult, slice_append_right front _ 56 (by rw [hfront]),
    slice_append_left _ (by omega)]

/-- An entry of the new table is read as what was packed. -/
theorem header_eq {i : Nat} (hi : i < 13) {p : ProgramHeader}
    (hentry : (((List.range 12).map fun i => (programHeader data i).fields).set 0
      (phdrEntry (pageUp data.length) address).fields ++
      [(loadEntry (pageUp data.length) address (736 + payload.length)).fields])[i]? =
        some p.fields) : programHeader result i = p := by
  have hpacked := entry_packed run.table hentry
  have hlength := run.length_result
  rw [← run.headerBytes_eq hi] at hpacked
  have hsum : II6Q.sum = 56 := rfl
  have hread := unpackFields_packFields hpacked (by rw [hsum, headerBytes])
    (by rw [run.phoff_eq, hsum]; omega)
  exact fields_inj (unpackFields_II6Q.1 hread).2

theorem phdr_eq : programHeader result 0 = phdrEntry (pageUp data.length) address :=
  run.header_eq (by decide) rfl

theorem load_eq :
    programHeader result 12 = loadEntry (pageUp data.length) address (736 + payload.length) :=
  run.header_eq (by decide) rfl

/-- The other headers are packed to the bytes that they were unpacked from. -/
theorem headerBytes_kept {i : Nat} (hlow : 1 ≤ i) (hhigh : i ≤ 11) :
    headerBytes result i = headerBytes data i := by
  have hentry : (((List.range 12).map fun i => (programHeader data i).fields).set 0
      (phdrEntry (pageUp data.length) address).fields ++
      [(loadEntry (pageUp data.length) address (736 + payload.length)).fields])[i]? =
        some (programHeader data i).fields := by
    rw [List.getElem?_append_left (by simp; omega), List.getElem?_set_ne (by omega),
      List.getElem?_map, List.getElem?_range (by omega), Option.map_some]
  have hpacked := entry_packed run.table hentry
  rw [← run.headerBytes_eq (by omega)] at hpacked
  have htable := run.accepted.table
  have hread : unpackFields II6Q data (phoff data + i * 56) = .ok (programHeader data i).fields :=
    unpackFields_II6Q.2 ⟨by omega, rfl⟩
  exact Except.ok.inj (hpacked.symm.trans (packFields_unpackFields hread).1)

/-- The branch that was written is read back, and goes to the prelude. -/
theorem enters : EntersPrelude result (programHeader result 12) := by
  rcases run.parts with ⟨front, hfront, hresult, _⟩
  have hentry : ENTRY_BRANCH = 0xd1a04 := rfl
  have hmode : MODE_POINTER = 0x45c658 := rfl
  have hwords := run.accepted.words
  have hlength := run.length_flatten
  have hword : numberAt 4 result ENTRY_BRANCH = A64.encode (jumpTo (address + 736)) := by
    rw [numberAt, run.slice_original (by omega), (patched_fields hwords).2.2.2.2,
      value_pack (A64.encode_lt _)]
  have hreach := run.reach
  refine ⟨_, 736, payload, by rw [hword, jumpTo, A64.decode_encode], ?_, ?_, ?_, ?_⟩
  · have htarget : (programHeader result 12).vaddr + 736 = address + 736 := by rw [run.load_eq]; rfl
    rw [TwosComplement.toInt_ofInt (by omega), htarget]
    omega
  · rw [run.load_eq]
    exact run.assembled
  · have hplace : pageUp data.length + 736 =
        (front ++ (packed.flatten ++ zeros 8)).length + 0 := by
      rw [List.length_append, List.length_append, hfront, hlength]
      rfl
    have hwhole : result = (front ++ (packed.flatten ++ zeros 8)) ++ payload := by
      rw [hresult]
      simp only [List.append_assoc]
    rw [run.load_eq, hwhole, loadEntry, slice_append_right _ _ _ hplace, slice, List.drop_zero,
      List.take_length]
  · rw [run.load_eq]
    exact Nat.le_refl _

/-- Everything is kept but the four fields, and the new headers agree with each other and with the
file. -/
theorem rewritten : Rewritten data result := by
  have hup := pageUp_spec data.length
  have hlength := run.length_result
  have hwords := run.accepted.words
  have hload := run.load_eq
  refine ⟨by omega, fun i hi howned => ?_, run.phnum_eq, ?_, fun i hlow hhigh =>
    run.headerBytes_kept hlow hhigh, ?_, ?_, run.enters⟩
  · rcases run.parts with ⟨front, hfront, hresult, hsame⟩
    rw [hresult, List.getElem?_append_left (by omega), hsame i hi]
    exact (patched_fields hwords).2.1 i howned
  · rw [run.phoff_eq]
    omega
  · rw [hload]
    refine ⟨rfl, rfl, ?_, rfl, ?_, run.ends⟩
    · rw [hlength]
      exact Nat.le_refl _
    · rw [loadEntry, hup.2, run.page]
  · rw [hload, run.phdr_eq]
    refine ⟨rfl, run.phoff_eq.symm, ?_, ?_, ?_, ?_, ?_⟩
    · rw [run.phnum_eq]
      rfl
    · rw [run.phnum_eq]
      rfl
    · simp only [loadEntry, phdrEntry]
      omega
    · simp only [loadEntry, phdrEntry]
      omega
    · simp only [loadEntry, phdrEntry]
      omega

end Run

/-- Either the digest is that of a patched file, which is kept, or the file passed every check and is
rewritten; a file that fails a check is left as it is. -/
theorem patchOverride_ok (sha256 : Bytes → String) (data : Bytes) :
    match patchOverride sha256 data with
    | .ok result =>
        (sha256 data = PATCHED_SHA256 ∧ result = data) ∨
          (sha256 data = STOCK_SHA256 ∧ Accepted data ∧ Rewritten data result)
    | .error e => fixCameraMulticam sha256 data = (.error e, data) := by
  by_cases hpatched : sha256 data = PATCHED_SHA256
  · rw [patchOverride, if_pos hpatched]
    exact Or.inl ⟨hpatched, rfl⟩
  · by_cases hstock : sha256 data = STOCK_SHA256
    · have hcall : patchOverride sha256 data = rewriteElf data := by
        rw [patchOverride, if_neg hpatched, if_neg (not_not.2 hstock)]
      cases hrewrite : rewriteElf data with
      | error e =>
          rw [fixCameraMulticam, hcall, hrewrite]
      | ok result =>
          rcases rewriteElf_ok hrewrite with ⟨address, payload, packed, run⟩
          rw [hcall, hrewrite]
          exact Or.inr ⟨hstock, run.accepted, run.rewritten⟩
    · rw [fixCameraMulticam, patchOverride, if_neg hpatched, if_pos hstock]

end Returned

end Camera
end M2391Device
