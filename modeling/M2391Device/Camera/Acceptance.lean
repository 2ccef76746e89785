import M2391Device.Camera.PatchOverride

/-!
# Acceptance — the files that are rewritten

`patch_override` raises in many places: on a check of its own, in an encoder that does not reach its
target, on a read or a write outside the buffer, on a number that does not fit in its field.  It
returns for the patched file, and for the stock file exactly when that passes the checks, its
segments end low enough for the branch at the entry, and its length is that of a file
(`patchOverride_returns_iff`).
-/

namespace M2391Device
namespace Camera

open Ims (PyError Bytes slice orRaise)
open LittleEndian

/-! ## The prelude -/

theorem pointer_ok (register : BitVec 5) {address pc target : Int} {words : List Int}
    (hpc : address + words.length * 4 = pc) (hreach : PageReach pc target) :
    emitPointer address register.toNat target words =
      .ok (words ++ wordsOf (pointer register pc target)) := by
  rw [emitPointer_eq, hpc]
  exact if_pos hreach

/-- Nothing is raised at an address from which everything is reached. -/
theorem prelude_of_reaches {address : Int} (h : Reaches address) :
    prelude address = .ok (codeBytes (program address) ++ literals ++ MARKER) := by
  have hstore : memory 10 9 0 false = .ok (A64.encode (memoryInstr 10 9 0 false)) :=
    memory_ok 10 9 false (by decide)
  have hload : memory 9 9 0 true = .ok (A64.encode (memoryInstr 9 9 0 true)) :=
    memory_ok 9 9 true (by decide)
  have hindices : ∀ i ∈ List.range BOUNDARIES.length, i * 160 + 8 < 32768 := by decide
  have htable : emitPointer address 9 DEFAULT_TABLE_POINTER [0xd503245f] =
      .ok ([0xd503245f] ++ wordsOf (pointer 9 (address + 4) DEFAULT_TABLE_POINTER)) :=
    pointer_ok 9 rfl h.table
  have htags : emitPointer address 10 THREE_TAG_TABLE
      ([0xd503245f] ++ wordsOf (pointer 9 (address + 4) DEFAULT_TABLE_POINTER)) =
      .ok ([0xd503245f] ++ wordsOf (pointer 9 (address + 4) DEFAULT_TABLE_POINTER) ++
        wordsOf (pointer 10 (address + 12) THREE_TAG_TABLE)) := pointer_ok 10 rfl h.tags
  have hzoom : emitPointer address 9 THREE_ZOOM_VECTOR
      ([0xd503245f] ++ wordsOf (pointer 9 (address + 4) DEFAULT_TABLE_POINTER) ++
        wordsOf (pointer 10 (address + 12) THREE_TAG_TABLE) ++
        [(A64.encode (memoryInstr 10 9 0 false) : Int)]) =
      .ok ([0xd503245f] ++ wordsOf (pointer 9 (address + 4) DEFAULT_TABLE_POINTER) ++
        wordsOf (pointer 10 (address + 12) THREE_TAG_TABLE) ++
        [(A64.encode (memoryInstr 10 9 0 false) : Int)] ++
        wordsOf (pointer 9 (address + 24) THREE_ZOOM_VECTOR)) := pointer_ok 9 rfl h.zoom
  have hsetup : [0xd503245f] ++ wordsOf (pointer 9 (address + 4) DEFAULT_TABLE_POINTER) ++
      wordsOf (pointer 10 (address + 12) THREE_TAG_TABLE) ++
      [(A64.encode (memoryInstr 10 9 0 false) : Int)] ++
      wordsOf (pointer 9 (address + 24) THREE_ZOOM_VECTOR) ++
      [(A64.encode (memoryInstr 9 9 0 true) : Int)] = wordsOf (setup address) := rfl
  -- from here on the program is run line by line, and each line is one of the facts above
  rw [prelude, htable, Ims.ok_bind, htags, Ims.ok_bind, hstore, Ims.ok_bind]
  dsimp only
  rw [hzoom, Ims.ok_bind, hload, Ims.ok_bind, hsetup]
  have hloop : (List.range BOUNDARIES.length).flatMap boundary = loop := rfl
  have hcount : (wordsOf (setup address) ++ [0] ++ wordsOf loop).length = 25 := rfl
  have hback : branch (address + ((25 : Nat) : Int) * 4) ENTRY_BODY =
      .ok (A64.encode (back address)) := by
    rw [branch_eq]
    exact if_pos ⟨h.aligned, h.body⟩
  rw [emitBoundaries_eq _ hindices, Ims.ok_bind, hloop, hcount, hback, Ims.ok_bind]
  -- the place that was kept for the address of the literals is filled at the end
  have htotal : (wordsOf (setup address) ++ [0] ++ wordsOf loop ++
      [(A64.encode (back address) : Int)]).length = 26 := rfl
  have halign : align (((26 : Nat) : Int) * 4) 8 = 104 := align_natCast 104 3
  have hadr : adr 11 (address + ((wordsOf (setup address)).length : Int) * 4) (address + 104) false =
      .ok (A64.encode (literalPointer address)) := by
    have hdistance : distance (address + 36) (address + 104) false = 68 := by
      rw [distance, if_neg Bool.false_ne_true]
      omega
    have heq := adr_eq 11 (address + 36) (address + 104) false
    rw [if_pos (by rw [hdistance]; decide)] at heq
    exact heq
  have hset : (wordsOf (setup address) ++ [0] ++ wordsOf loop ++
      [(A64.encode (back address) : Int)]).set (wordsOf (setup address)).length
        (A64.encode (literalPointer address)) = wordsOf (program address) := rfl
  have hgap : ((104 : Int) - ((codeBytes (program address)).length : Int)).toNat = 0 := rfl
  rw [htotal, halign, hadr, Ims.ok_bind, hset, packWords_eq, Ims.ok_bind, hgap, List.replicate_zero,
    List.append_nil]
  rfl

/-! ## The checks -/

/-- Every loaded segment ends on a page, behind which the code is in reach of the branch at the
entry. -/
def InReach (data : Bytes) : Prop :=
  ∀ i < 12, (programHeader data i).kind = 1 →
    pageUp ((programHeader data i).vaddr + (programHeader data i).memsz) + 736 < 2 ^ 27 + ENTRY_BRANCH

section Checks

variable {data result : Bytes}

theorem mapM_of_forall {α β : Type} {f : α → Except PyError β} {xs : List α}
    (h : ∀ x ∈ xs, ∃ y, f x = .ok y) : ∃ ys, xs.mapM f = .ok ys := by
  induction xs with
  | nil => exact ⟨[], rfl⟩
  | cons x xs ih =>
      rcases h x List.mem_cons_self with ⟨y, hy⟩
      rcases ih fun x' hx' => h x' (List.mem_cons_of_mem x hx') with ⟨ys, hys⟩
      exact ⟨y :: ys, by rw [List.mapM_cons, hy, Ims.ok_bind, hys, Ims.ok_bind]; rfl⟩

theorem packNumber_natCast {n v : Nat} (h : v < 256 ^ n) :
    packNumber n (v : Int) = .ok (pack n v) :=
  packNumber_eq_ok.2 ⟨⟨Int.natCast_nonneg v, by exact_mod_cast h⟩, by rw [Int.toNat_natCast]⟩

/-- The fields of a header that all fit are packed. -/
theorem packFields_header {p : ProgramHeader} (hkind : p.kind < 256 ^ 4) (hflags : p.flags < 256 ^ 4)
    (hoffset : p.offset < 256 ^ 8) (hvaddr : p.vaddr < 256 ^ 8) (hpaddr : p.paddr < 256 ^ 8)
    (hfilesz : p.filesz < 256 ^ 8) (hmemsz : p.memsz < 256 ^ 8) (halign : p.align < 256 ^ 8) :
    ∃ bytes, packFields II6Q p.fields = .ok bytes := by
  simp only [II6Q, ProgramHeader.fields, packFields, packNumber_natCast hkind,
    packNumber_natCast hflags, packNumber_natCast hoffset, packNumber_natCast hvaddr,
    packNumber_natCast hpaddr, packNumber_natCast hfilesz, packNumber_natCast hmemsz,
    packNumber_natCast halign, Ims.ok_bind]
  exact ⟨_, rfl⟩

/-- A page that is reached from the entry is one from which everything is reached. -/
theorem reaches_of_branch {address : Nat} (hpage : address % 4096 = 0)
    (hreach : address + 736 < 2 ^ 27 + ENTRY_BRANCH) : Reaches ((address + 736 : Nat) : Int) := by
  have hentry : ENTRY_BRANCH = 0xd1a04 := rfl
  have hbody : ENTRY_BODY = 0x3038b0 := rfl
  have hpageReach : ∀ k target : Nat, k ≤ 24 → target < 2 ^ 24 →
      PageReach (((address + 736 : Nat) : Int) + k) target := by
    intro k target hk htarget
    rw [PageReach, distance, if_pos rfl]
    omega
  exact ⟨hpageReach 4 _ (by decide) (by decide), hpageReach 12 _ (by decide) (by decide),
    hpageReach 24 _ (by decide) (by decide), by omega, by omega⟩

/-- The headers of an accepted file are unpacked. -/
theorem Accepted.unpacked (h : Accepted data) : ∃ headers, Unpacked data headers :=
  mapM_of_forall fun i hi => by
    have htable := h.table
    have hi12 := List.mem_range.1 hi
    exact ⟨_, unpackFields_II6Q.2 ⟨by omega, rfl⟩⟩

/-- Some loaded segment has the last end in memory. -/
theorem Accepted.last (h : Accepted data) {headers : List (List Int)}
    (hheaders : Unpacked data headers) :
    ∃ i < 12, (programHeader data i).kind = 1 ∧ (loadEnds headers).max? =
      some (((programHeader data i).vaddr + (programHeader data i).memsz : Nat) : Int) := by
  cases hlast : (loadEnds headers).max? with
  | none =>
      rcases h.loaded with ⟨i, hi, hkind⟩
      have hmem : (programHeader data i).fields ∈ headers :=
        List.mem_of_getElem? (hheaders.header hi).2
      have hload : (programHeader data i).fields ∈ headers.filter fun h => Phdr.kind h = 1 :=
        List.mem_filter.2 ⟨hmem, decide_eq_true (congrArg Nat.cast hkind)⟩
      have hnil : loadEnds headers = [] := List.max?_eq_none_iff.1 hlast
      rw [loadEnds, List.map_eq_nil_iff] at hnil
      rw [hnil] at hload
      exact absurd hload List.not_mem_nil
  | some last =>
      rcases (hheaders.ends hlast).1 with ⟨i, hi, hkind, rfl⟩
      exact ⟨i, hi, hkind, rfl⟩

/-- The new table is packed: the old entries were read from fields of their sizes, and the numbers of
the two new ones fit. -/
theorem Accepted.packed (h : Accepted data) {segment_offset address size : Nat}
    (hoffset : segment_offset < 256 ^ 8) (haddress : address < 256 ^ 8) (hsize : size < 256 ^ 8) :
    ∃ packed, ((((List.range 12).map fun i => (programHeader data i).fields).set 0
        (phdrEntry segment_offset address).fields) ++
      [(loadEntry segment_offset address size).fields]).mapM (packFields II6Q) = .ok packed := by
  refine mapM_of_forall fun fields hfields => ?_
  rcases List.mem_append.1 hfields with hold | hnew
  · rcases List.mem_or_eq_of_mem_set hold with hkept | rfl
    · rcases List.mem_map.1 hkept with ⟨i, hi, rfl⟩
      have htable := h.table
      have hi12 := List.mem_range.1 hi
      have hread : unpackFields II6Q data (phoff data + i * 56) = .ok (programHeader data i).fields :=
        unpackFields_II6Q.2 ⟨by omega, rfl⟩
      exact ⟨_, (packFields_unpackFields hread).1⟩
    · exact packFields_header (show 6 < 256 ^ 4 by decide) (show 4 < 256 ^ 4 by decide) hoffset
        haddress haddress (show 728 < 256 ^ 8 by decide) (show 728 < 256 ^ 8 by decide)
        (show 8 < 256 ^ 8 by decide)
  · rw [List.mem_singleton.1 hnew]
    exact packFields_header (show 1 < 256 ^ 4 by decide) (show 5 < 256 ^ 4 by decide) hoffset
      haddress haddress hsize hsize (show 4096 < 256 ^ 8 by decide)

/-! ## The files -/

/-- The calls one after the other, with the page behind the last end. -/
theorem Accepted.assembled (h : Accepted data) (hfits : pageUp data.length < 256 ^ 8)
    {headers : List (List Int)} (hheaders : Unpacked data headers) {last : Int} {address : Nat}
    (hlast : (loadEnds headers).max? = some last) (haddressOf : align last 4096 = address)
    (hpage : address % 4096 = 0) (hinReach : address + 736 < 2 ^ 27 + ENTRY_BRANCH)
    (hends : ∀ i < 12, (programHeader data i).kind = 1 →
      (programHeader data i).vaddr + (programHeader data i).memsz ≤ address) :
    ∃ result payload packed, rewriteElf data = .ok result ∧ Run data address payload packed result := by
  have hmodeIs : MODE_POINTER = 0x45c658 := rfl
  have hentryIs : ENTRY_BRANCH = 0xd1a04 := rfl
  have hwords := h.words
  have hcode : align (((12 : Nat) + 1 : Int) * (56 : Nat)) 16 = 736 := align_natCast 728 4
  have hoffsetOf : align data.length 4096 = (pageUp data.length : Int) := align_natCast _ 12
  -- the code
  have hassembled := prelude_of_reaches (reaches_of_branch hpage hinReach)
  have hlength : (codeBytes (program ((address + 736 : Nat) : Int)) ++ literals ++ MARKER).length =
      162 := rfl
  generalize codeBytes (program ((address + 736 : Nat) : Int)) ++ literals ++ MARKER = payload at *
  have hjump : branch ENTRY_BRANCH ((address + 736 : Nat) : Int) =
      .ok (A64.encode (jumpTo (address + 736))) := by
    rw [branch_eq]
    exact if_pos ⟨by omega, by omega, by omega⟩
  have hexpected : branch ENTRY_BRANCH ENTRY_BODY =
      .ok (A64.encode (.b (BitVec.ofInt 26 ((ENTRY_BODY - ENTRY_BRANCH) / 4)))) := by
    rw [branch_eq]
    exact if_pos (by decide)
  have hplace : (address : Int) + 736 = ((address + 736 : Nat) : Int) := by push_cast; rfl
  rcases h.packed hfits (by omega : address < 256 ^ 8)
    (by omega : 736 + payload.length < 256 ^ 8) with ⟨packed, hpacked⟩
  -- what is written, and what is read back from it
  have hcount : (overwrite data 32 (pack 8 (pageUp data.length))).length = data.length :=
    length_overwritten (by omega)
  have hcounted : (counted data (pageUp data.length)).length = data.length :=
    length_counted (by omega)
  have hjumped : (overwrite (counted data (pageUp data.length)) ENTRY_BRANCH
      (pack 4 (A64.encode (jumpTo (address + 736))))).length = data.length := by
    rw [length_overwritten (by omega), hcounted]
  have hentry : value (slice (counted data (pageUp data.length)) ENTRY_BRANCH 4) =
      A64.encode (.b (BitVec.ofInt 26 ((ENTRY_BODY - ENTRY_BRANCH) / 4))) := by
    have hlt := value_lt (slice data ENTRY_BRANCH 4)
    rw [length_slice (by omega)] at hlt
    rw [slice_counted (by omega) (by omega)]
    exact (A64.encode_of_decode hlt h.entry).symm
  have hmode : value (slice (counted data (pageUp data.length)) MODE_POINTER 8) = 0x486898 := by
    rw [slice_counted (by omega) (by omega)]
    exact h.mode
  have hphdr : Phdr.kind (headers.getD 0 []) = 6 := by
    rw [List.getD_eq_getElem?_getD, (hheaders.header (i := 0) (by decide)).2]
    exact congrArg Nat.cast h.phdr
  have hword := A64.encode_lt (jumpTo (address + 736))
  have htable : headers.set 0
      [6, 4, align data.length 4096, (address : Int), (address : Int),
        ((12 : Nat) + 1 : Int) * (56 : Nat), ((12 : Nat) + 1 : Int) * (56 : Nat), 8] ++
      [[1, 5, align data.length 4096, (address : Int), (address : Int), 736 + (payload.length : Int),
        736 + (payload.length : Int), 4096]] =
      (((List.range 12).map fun i => (programHeader data i).fields).set 0
        (phdrEntry (pageUp data.length) address).fields) ++
      [(loadEntry (pageUp data.length) address (736 + payload.length)).fields] := by
    rw [hheaders.eq, hoffsetOf]
    rfl
  refine ⟨_, payload, packed, ?_, h, hends, hpage, hassembled, ⟨by omega, by omega, by omega⟩, hfits,
    hpacked, rfl⟩
  simp only [rewriteElf, bind_eq_ok, raiseIf_eq_ok, unpackFrom_eq_ok, packInto_eq_ok, not_not,
    not_or]
  refine ⟨(), h.elf, _, ⟨by omega, rfl⟩, (), h.machine, phoff data, ⟨by omega, rfl⟩, 56,
    ⟨by omega, h.phsize⟩, 12, ⟨by omega, h.phcount⟩, (), ⟨rfl, rfl⟩, headers, hheaders, _,
    by rw [hlast, Ims.orRaise_some], payload, by rw [haddressOf, hcode, hplace, hassembled], (), hphdr,
    overwrite data 32 (pack 8 (pageUp data.length)), ⟨⟨?_, ?_⟩, by omega, ?_⟩,
    counted data (pageUp data.length), ⟨by decide, by omega, rfl⟩, _, ⟨by omega, hentry⟩, _, hexpected,
    (), rfl, _, ⟨by omega, hmode⟩, (), rfl, _, by rw [haddressOf, hcode, hplace, hjump],
    overwrite (counted data (pageUp data.length)) ENTRY_BRANCH
      (pack 4 (A64.encode (jumpTo (address + 736)))), ⟨⟨by omega, ?_⟩, by omega, ?_⟩,
    patched data (pageUp data.length) (A64.encode (jumpTo (address + 736))),
    ⟨by decide, by omega, rfl⟩, packed, ?_, ?_⟩
  · rw [hoffsetOf]
    exact Int.natCast_nonneg _
  · rw [hoffsetOf]
    exact_mod_cast hfits
  · rw [hoffsetOf, Int.toNat_natCast]
  · exact_mod_cast hword
  · rw [Int.toNat_natCast]
  · rw [haddressOf, hcode, htable]
    exact hpacked
  · have hgap : (736 : Int) - ((12 : Nat) + 1 : Int) * (56 : Nat) = 8 := rfl
    rw [(patched_fields hwords).1, hoffsetOf, hcode, hgap]
    rfl

/-- A file that passes every check is rewritten, with the new segment on the page behind the last
end. -/
theorem Accepted.run (h : Accepted data) (hreach : InReach data)
    (hfits : pageUp data.length < 256 ^ 8) :
    ∃ result payload packed, ∃ i < 12, (programHeader data i).kind = 1 ∧ rewriteElf data = .ok result ∧
      Run data (pageUp ((programHeader data i).vaddr + (programHeader data i).memsz)) payload packed
        result := by
  rcases h.unpacked with ⟨headers, hheaders⟩
  rcases h.last hheaders with ⟨k, hk, hkind, hlast⟩
  have hpage := pageUp_spec ((programHeader data k).vaddr + (programHeader data k).memsz)
  have hends : ∀ i < 12, (programHeader data i).kind = 1 →
      (programHeader data i).vaddr + (programHeader data i).memsz ≤
        pageUp ((programHeader data k).vaddr + (programHeader data k).memsz) := fun i hi hload => by
    have hend := (hheaders.ends hlast).2 i hi hload
    omega
  rcases h.assembled hfits hheaders hlast (align_natCast _ 12) hpage.2 (hreach k hk hkind) hends with
    ⟨result, payload, packed, hresult, run⟩
  exact ⟨result, payload, packed, k, hk, hkind, hresult, run⟩

/-- A file that is rewritten passed every check. -/
theorem accepted_of_rewritten {result : Bytes} (h : rewriteElf data = .ok result) :
    Accepted data ∧ InReach data ∧ pageUp data.length < 256 ^ 8 := by
  rcases rewriteElf_ok h with ⟨address, payload, packed, run⟩
  refine ⟨run.accepted, fun i hi hkind => ?_, run.offsetFits⟩
  have hend := run.ends i hi hkind
  have hpage := run.page
  have hreach := run.reach
  rw [pageUp]
  omega

/-- What is known of a run that returned, with the page that it found for the new segment. -/
theorem rewriteElf_run {result : Bytes} (h : rewriteElf data = .ok result) :
    ∃ i < 12, (programHeader data i).kind = 1 ∧ ∃ payload packed,
      Run data (pageUp ((programHeader data i).vaddr + (programHeader data i).memsz)) payload packed
        result := by
  rcases accepted_of_rewritten h with ⟨haccepted, hreach, hfits⟩
  rcases haccepted.run hreach hfits with ⟨other, payload, packed, i, hi, hkind, hother, run⟩
  rw [h] at hother
  cases hother
  exact ⟨i, hi, hkind, payload, packed, run⟩

/-- The function returns for the patched file, and for the stock file if that passes every check, its
segments end low enough and it is no longer than an offset can say. -/
theorem patchOverride_returns_iff (sha256 : Bytes → String) (data : Bytes) :
    (∃ result, patchOverride sha256 data = .ok result) ↔
      sha256 data = PATCHED_SHA256 ∨ (sha256 data = STOCK_SHA256 ∧ Accepted data ∧ InReach data ∧
        pageUp data.length < 2 ^ 64) := by
  have hdigests : PATCHED_SHA256 ≠ STOCK_SHA256 := by decide
  by_cases hpatched : sha256 data = PATCHED_SHA256
  · rw [patchOverride, if_pos hpatched]
    exact ⟨fun _ => Or.inl hpatched, fun _ => ⟨data, rfl⟩⟩
  · rw [patchOverride, if_neg hpatched]
    by_cases hstock : sha256 data = STOCK_SHA256
    · rw [if_neg (not_not.2 hstock)]
      constructor
      · rintro ⟨result, h⟩
        exact Or.inr ⟨hstock, accepted_of_rewritten h⟩
      · rintro (hother | ⟨_, haccepted, hreach, hfits⟩)
        · exact absurd hother hpatched
        · rcases haccepted.run hreach hfits with ⟨result, _, _, _, _, _, h, _⟩
          exact ⟨result, h⟩
    · rw [if_pos hstock]
      constructor
      · rintro ⟨result, h⟩
        cases h
      · rintro (hother | ⟨hother, _⟩)
        · exact absurd hother hpatched
        · exact absurd hother hstock

end Checks

/-! ## A small library -/

/-- A header whose segment has its addresses as offsets. -/
def flatHeader (kind size : Nat) : Bytes :=
  pack 4 kind ++ pack 4 4 ++ pack 8 0 ++ pack 8 0 ++ pack 8 0 ++ pack 8 size ++ pack 8 size ++
    pack 8 4096

/-- The header of a file, a description of its twelve program headers, and one loaded segment. -/
def smallFront : Bytes :=
  ELF ++ zeros 12 ++ pack 2 183 ++ zeros 12 ++ pack 8 64 ++ zeros 14 ++ pack 2 56 ++ pack 2 12 ++
    zeros 6 ++ flatHeader 6 728 ++ flatHeader 1 (MODE_POINTER + 8) ++ zeros 560

/-- A library with nothing but its headers and the two words that are looked at. -/
def smallLibrary : Bytes :=
  smallFront ++ (List.replicate (ENTRY_BRANCH - 736) 0 ++
    (pack 4 (A64.encode (.b (BitVec.ofInt 26 ((ENTRY_BODY - ENTRY_BRANCH) / 4)))) ++
      (List.replicate (MODE_POINTER - ENTRY_BRANCH - 4) 0 ++ pack 8 0x486898)))

theorem length_smallFront : smallFront.length = 736 := by decide +kernel

theorem length_smallLibrary : smallLibrary.length = MODE_POINTER + 8 := by
  have hentryIs : ENTRY_BRANCH = 0xd1a04 := rfl
  have hmodeIs : MODE_POINTER = 0x45c658 := rfl
  simp only [smallLibrary, List.length_append, length_smallFront, List.length_replicate, length_pack]
  omega

theorem slice_smallLibrary {offset n : Nat} (h : offset + n ≤ 736) :
    slice smallLibrary offset n = slice smallFront offset n :=
  slice_append_left _ (by rwa [length_smallFront])

theorem phoff_smallLibrary : phoff smallLibrary = 64 := by
  rw [phoff, numberAt, slice_smallLibrary (by decide)]
  decide +kernel

/-- Its headers, read from the front. -/
theorem header_smallLibrary {i : Nat} (hi : i < 12) :
    programHeader smallLibrary i = readHeader smallFront (64 + i * 56) := by
  have hnumber : ∀ k n, k + n ≤ 56 → numberAt n smallLibrary (64 + i * 56 + k) =
      numberAt n smallFront (64 + i * 56 + k) := by
    intro k n h
    rw [numberAt, slice_smallLibrary (by omega), numberAt]
  have hkind := hnumber 0 4 (by decide)
  rw [Nat.add_zero] at hkind
  simp only [programHeader, phoff_smallLibrary, readHeader, hkind, hnumber 4 4 (by decide),
    hnumber 8 8 (by decide), hnumber 16 8 (by decide), hnumber 24 8 (by decide),
    hnumber 32 8 (by decide), hnumber 40 8 (by decide), hnumber 48 8 (by decide)]

/-- Its only loaded segment ends with it. -/
theorem small_loads : ∀ i < 12, (readHeader smallFront (64 + i * 56)).kind = 1 →
    (readHeader smallFront (64 + i * 56)).vaddr + (readHeader smallFront (64 + i * 56)).memsz =
      MODE_POINTER + 8 := by
  decide +kernel

theorem slice_whole {n : Nat} {field back : Bytes} (h : field.length = n) :
    slice (field ++ back) 0 n = field := by
  rw [slice_append_left back (by omega), slice, List.drop_zero, ← h, List.take_length]

theorem entry_smallLibrary : numberAt 4 smallLibrary ENTRY_BRANCH =
    A64.encode (.b (BitVec.ofInt 26 ((ENTRY_BODY - ENTRY_BRANCH) / 4))) := by
  have hfront : ENTRY_BRANCH = smallFront.length + (ENTRY_BRANCH - 736) := by
    rw [length_smallFront]
    decide
  have hgap : ENTRY_BRANCH - 736 = (List.replicate (ENTRY_BRANCH - 736) (0 : UInt8)).length + 0 := by
    rw [List.length_replicate]
    rfl
  rw [numberAt, smallLibrary, slice_append_right _ _ _ hfront, slice_append_right _ _ _ hgap,
    slice_whole (length_pack 4 _), value_pack (A64.encode_lt _)]

theorem mode_smallLibrary : numberAt 8 smallLibrary MODE_POINTER = 0x486898 := by
  have hfront : MODE_POINTER = smallFront.length + (MODE_POINTER - 736) := by
    rw [length_smallFront]
    decide
  have hgap : MODE_POINTER - 736 = (List.replicate (ENTRY_BRANCH - 736) (0 : UInt8)).length +
      (MODE_POINTER - ENTRY_BRANCH) := by
    rw [List.length_replicate]
    decide
  have hword : MODE_POINTER - ENTRY_BRANCH =
      (pack 4 (A64.encode (.b (BitVec.ofInt 26 ((ENTRY_BODY - ENTRY_BRANCH) / 4))))).length +
        (MODE_POINTER - ENTRY_BRANCH - 4) := by
    rw [length_pack]
    decide
  have hrest : MODE_POINTER - ENTRY_BRANCH - 4 =
      (List.replicate (MODE_POINTER - ENTRY_BRANCH - 4) (0 : UInt8)).length + 0 := by
    rw [List.length_replicate]
    rfl
  rw [numberAt, smallLibrary, slice_append_right _ _ _ hfront, slice_append_right _ _ _ hgap,
    slice_append_right _ _ _ hword, slice_append_right _ _ _ hrest, slice, List.drop_zero]
  decide +kernel

theorem smallLibrary_accepted : Accepted smallLibrary where
  elf := (slice_smallLibrary (by decide) : slice smallLibrary 0 6 = _).trans (by decide +kernel)
  machine := by
    rw [numberAt, slice_smallLibrary (by decide)]
    decide +kernel
  phsize := by
    rw [numberAt, slice_smallLibrary (by decide)]
    decide +kernel
  phcount := by
    rw [phnum, numberAt, slice_smallLibrary (by decide)]
    decide +kernel
  table := by
    rw [phoff_smallLibrary, length_smallLibrary]
    decide
  phdr := by
    rw [header_smallLibrary (by decide)]
    decide +kernel
  loaded := ⟨1, by decide, by rw [header_smallLibrary (by decide)]; decide +kernel⟩
  words := Nat.le_of_eq length_smallLibrary.symm
  entry := by rw [entry_smallLibrary, A64.decode_encode]
  mode := mode_smallLibrary

/-- It is rewritten, and the new segment starts on the page behind it. -/
theorem smallLibrary_run : ∃ result payload packed, rewriteElf smallLibrary = .ok result ∧
    Run smallLibrary (pageUp (MODE_POINTER + 8)) payload packed result := by
  have hreach : InReach smallLibrary := fun i hi hkind => by
    rw [header_smallLibrary hi] at hkind ⊢
    rw [small_loads i hi hkind]
    decide
  have hfits : pageUp smallLibrary.length < 256 ^ 8 := by
    rw [length_smallLibrary]
    decide
  rcases smallLibrary_accepted.run hreach hfits with
    ⟨result, payload, packed, i, hi, hkind, hresult, run⟩
  rw [header_smallLibrary hi] at hkind run
  rw [small_loads i hi hkind] at run
  exact ⟨result, payload, packed, hresult, run⟩

end Camera
end M2391Device
