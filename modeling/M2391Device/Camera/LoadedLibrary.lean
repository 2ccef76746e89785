import M2391Device.Camera.Acceptance
import M2391Device.Lib.A64.Image

/-!
# LoadedLibrary — the rewritten library in memory

A library is loaded segment by segment, at the addresses of its program headers and a bias.  What the
rewriting leaves of the original is mapped where it was, from the same offsets of the file; the
new segment is mapped on pages of its own, and has the program headers where `PT_PHDR` says
(`loaded_image`).  A call of the entry goes on at the entry body, as it did in the original, but after
the stores that the prelude is for (`loaded_entry`).
-/

namespace M2391Device
namespace Camera

open Ims (PyError Bytes slice)
open LittleEndian
open A64 (Segment Origin State Holds origin image bytes load64 execAll)

/-! ## Segments -/

def ProgramHeader.segment (p : ProgramHeader) : Segment := ⟨p.offset, p.vaddr, p.filesz, p.memsz⟩

/-- The segments that are mapped (`PT_LOAD`), in the order of the headers. -/
def loads (data : Bytes) : List Segment :=
  (((List.range (phnum data)).map (programHeader data)).filter fun p => p.kind = 1).map
    ProgramHeader.segment

/-- The library in memory, by the addresses before the bias. -/
def libraryImage (data : Bytes) : Nat → Option UInt8 := image data (loads data)

/-- An address at which one of the bytes that are written over is mapped. -/
def Rewired (data : Bytes) (a : Nat) : Prop := ∃ o, origin (loads data) a = some (.file o) ∧ Owned o

/-- The entry is mapped at the address that is its offset in the file, as its branches presume. -/
def MapsEntry (data : Bytes) : Prop :=
  ∀ k < 4, origin (loads data) (ENTRY_BRANCH + k) = some (.file (ENTRY_BRANCH + k))

/-- What a loader makes of the rewritten library, beside the original. -/
structure Extends (data result : Bytes) (load : ProgramHeader) : Prop where
  segments : loads result = loads data ++ [load.segment]
  page : load.vaddr % 4096 = 0 ∧ load.offset % 4096 = 0
  above : ∀ g ∈ loads data, g.vaddr + g.memsz ≤ load.vaddr
  next : ∃ g ∈ loads data, load.vaddr = pageUp (g.vaddr + g.memsz)
  origins : ∀ a, origin (loads data) a ≠ none → origin (loads result) a = origin (loads data) a
  kept : ∀ a b, libraryImage data a = some b → ¬ Rewired data a → libraryImage result a = some b
  fresh : ∀ a, origin (loads data) a = none → libraryImage result a ≠ none → load.segment.Covers a
  headers : ∀ i < 13, ∀ k < 56,
    libraryImage result ((programHeader result 0).vaddr + i * 56 + k) = (headerBytes result i)[k]?

section Headers

variable {data other : Bytes}

theorem slice_slice (data : Bytes) (at' : Nat) {m k n : Nat} (h : k + n ≤ m) :
    slice (slice data at' m) k n = slice data (at' + k) n :=
  slice_congr fun i hi => by rw [getElem?_slice, if_pos (by omega), Nat.add_assoc]

/-- A header is read from its own bytes. -/
theorem readHeader_slice (data : Bytes) (at' : Nat) :
    readHeader (slice data at' 56) 0 = readHeader data at' := by
  have hnumber : ∀ k n, k + n ≤ 56 → numberAt n (slice data at' 56) (0 + k) = numberAt n data (at' + k) := by
    intro k n h
    rw [numberAt, numberAt, Nat.zero_add, slice_slice data at' h]
  simp only [readHeader]
  rw [hnumber 4 4 (by decide), hnumber 8 8 (by decide), hnumber 16 8 (by decide),
    hnumber 24 8 (by decide), hnumber 32 8 (by decide), hnumber 40 8 (by decide),
    hnumber 48 8 (by decide)]
  have hkind := hnumber 0 4 (by decide)
  rw [Nat.add_zero, Nat.add_zero] at hkind
  rw [hkind]

theorem programHeader_congr {i : Nat} (h : headerBytes other i = headerBytes data i) :
    programHeader other i = programHeader data i := by
  rw [programHeader, ← readHeader_slice, ← headerBytes, h, headerBytes, readHeader_slice, programHeader]

end Headers

/-! ## The image -/

section Image

variable {data result : Bytes}

/-- The headers that are mapped are those of the original and the new one. -/
theorem loads_rewritten (haccepted : Accepted data) (h : Rewritten data result) :
    loads result = loads data ++ [(programHeader result 12).segment] := by
  have hold : ((List.range 12).map (programHeader result)).filter (fun p => p.kind = 1) =
      ((List.range 12).map (programHeader data)).filter fun p => p.kind = 1 := by
    -- the first header describes the table in both files, the others are the same
    have hrange : List.range 12 = 0 :: (List.range 11).map Nat.succ := List.range_succ_eq_map
    have hrest : ((List.range 11).map Nat.succ).map (programHeader result) =
        ((List.range 11).map Nat.succ).map (programHeader data) := by
      refine List.map_congr_left fun i hi => ?_
      rcases List.mem_map.1 hi with ⟨j, hj, rfl⟩
      have hj11 := List.mem_range.1 hj
      exact programHeader_congr (h.others (j + 1) (by omega) (by omega))
    rw [hrange, List.map_cons, List.map_cons, hrest,
      List.filter_cons_of_neg (by rw [h.phdr.kind]; decide),
      List.filter_cons_of_neg (by rw [haccepted.phdr]; decide)]
  have hnew : [programHeader result 12].filter (fun p => p.kind = 1) = [programHeader result 12] :=
    List.filter_cons_of_pos (decide_eq_true h.added.kind)
  rw [loads, loads, h.count, haccepted.phcount, List.range_succ, List.map_append, List.filter_append,
    hold, List.map_singleton, hnew, List.map_append, List.map_singleton]

theorem segment_mem_loads {i : Nat} (haccepted : Accepted data) (hi : i < 12)
    (hkind : (programHeader data i).kind = 1) : (programHeader data i).segment ∈ loads data := by
  refine List.mem_map_of_mem (List.mem_filter.2 ⟨List.mem_map_of_mem ?_, decide_eq_true hkind⟩)
  rw [haccepted.phcount]
  exact List.mem_range.2 hi

theorem mem_loads {g : Segment} (haccepted : Accepted data) (hg : g ∈ loads data) :
    ∃ i < 12, (programHeader data i).kind = 1 ∧ (programHeader data i).segment = g := by
  rcases List.mem_map.1 hg with ⟨p, hp, rfl⟩
  rcases List.mem_filter.1 hp with ⟨hin, hkind⟩
  rcases List.mem_map.1 hin with ⟨i, hi, rfl⟩
  rw [haccepted.phcount] at hi
  exact ⟨i, List.mem_range.1 hi, of_decide_eq_true hkind, rfl⟩

/-- A byte of the new segment. -/
theorem image_new (haccepted : Accepted data) (h : Rewritten data result) {k : Nat}
    (hk : k < (programHeader result 12).filesz) :
    libraryImage result ((programHeader result 12).vaddr + k) =
      result[(programHeader result 12).offset + k]? := by
  rw [libraryImage, loads_rewritten haccepted h]
  exact A64.image_snoc_file hk (Nat.le_of_eq h.added.whole.symm)

theorem headers_mapped (haccepted : Accepted data) (h : Rewritten data result) {i k : Nat}
    (hi : i < 13) (hk : k < 56) :
    libraryImage result ((programHeader result 0).vaddr + i * 56 + k) =
      (headerBytes result i)[k]? := by
  have hinside := h.phdr.inside
  have hmapped := h.phdr.mapped
  have hsame := h.phdr.same
  have hoffset := h.phdr.offset
  have hfilesz := h.phdr.filesz
  have hcount := h.count
  rw [hcount] at hfilesz
  have hplace : (programHeader result 0).vaddr + i * 56 + k = (programHeader result 12).vaddr +
      ((programHeader result 0).vaddr - (programHeader result 12).vaddr + i * 56 + k) := by omega
  have hfile : (programHeader result 12).offset +
      ((programHeader result 0).vaddr - (programHeader result 12).vaddr + i * 56 + k) =
        phoff result + i * 56 + k := by omega
  rw [hplace, image_new haccepted h (by omega), hfile, headerBytes, getElem?_slice, if_pos hk]

theorem origin_kept (haccepted : Accepted data) (h : Rewritten data result) {a : Nat}
    (ha : origin (loads data) a ≠ none) : origin (loads result) a = origin (loads data) a := by
  have hcovered : ∃ g ∈ loads data, g.Covers a := by
    by_contra hnone
    exact ha (A64.origin_eq_none.2 fun g hg hcovers => hnone ⟨g, hg, hcovers⟩)
  rcases hcovered with ⟨g, hg, hcovers⟩
  rcases mem_loads haccepted hg with ⟨i, hi, hkind, rfl⟩
  have habove := h.added.above i hi hkind
  rw [loads_rewritten haccepted h]
  refine A64.origin_snoc_other fun hnew => ?_
  have hlow : a < (programHeader data i).vaddr + (programHeader data i).memsz := hcovers.2
  have hhigh : (programHeader result 12).vaddr ≤ a := hnew.1
  omega

theorem image_kept (haccepted : Accepted data) (h : Rewritten data result) {a : Nat} {b : UInt8}
    (ha : libraryImage data a = some b) (hother : ¬ Rewired data a) :
    libraryImage result a = some b := by
  rcases Option.bind_eq_some_iff.1 ha with ⟨source, hsource, hbyte⟩
  have hkept := origin_kept haccepted h (by rw [hsource]; exact Option.some_ne_none _)
  rw [libraryImage, image, hkept, hsource, Option.bind_some]
  cases source with
  | zero => exact hbyte
  | file o =>
      have hdata : data[o]? = some b := hbyte
      have hlength := (List.getElem?_eq_some_iff.1 hdata).1
      have howned : ¬ Owned o := fun howned => hother ⟨o, hsource, howned⟩
      exact (h.kept o hlength howned).trans hdata

/-- Wherever the original has a byte, the rewritten library has the same one, from the same place of
the file, save where one is written over; whatever else is mapped is the new segment, which starts
a page above everything. -/
theorem loaded_image (h : rewriteElf data = .ok result) :
    Extends data result (programHeader result 12) := by
  rcases rewriteElf_run h with ⟨i, hi, hkind, payload, packed, run⟩
  have haccepted := run.accepted
  have hrewritten := run.rewritten
  have hload := run.load_eq
  refine ⟨loads_rewritten haccepted hrewritten, ?_, fun g hg => ?_,
    ⟨(programHeader data i).segment, segment_mem_loads haccepted hi hkind, by rw [hload]; rfl⟩, fun a ha =>
    origin_kept haccepted hrewritten ha, fun a b ha hother =>
    image_kept haccepted hrewritten ha hother, fun a hnone ha => ?_, fun i hi k hk =>
    headers_mapped haccepted hrewritten hi hk⟩
  · rw [hload]
    exact ⟨run.page, (pageUp_spec data.length).2⟩
  · rcases mem_loads haccepted hg with ⟨i, hi, hkind, rfl⟩
    exact hrewritten.added.above i hi hkind
  · by_contra hcovers
    refine ha ?_
    rw [libraryImage, image, loads_rewritten haccepted hrewritten, A64.origin_snoc_other hcovers, hnone]
    rfl

/-- The small library, with its headers and the new segment mapped behind it. -/
theorem loaded_image_small : ∃ result, rewriteElf smallLibrary = .ok result ∧
    Extends smallLibrary result (programHeader result 12) := by
  rcases smallLibrary_run with ⟨result, _, _, hresult, _⟩
  exact ⟨result, hresult, loaded_image hresult⟩

end Image

/-! ## A call of the entry -/

section Entry

variable {data result : Bytes} {bias z : BitVec 64} {s : State}

/-- The word at the entry, in a library that has it mapped. -/
theorem entry_step {library : Bytes} {imm : BitVec 26} (hbias : bias.toNat % 4096 = 0)
    (hpc : s.pc = bias + BitVec.ofNat 64 ENTRY_BRANCH)
    (hmaps : ∀ k < 4, origin (loads library) (ENTRY_BRANCH + k) = some (.file (ENTRY_BRANCH + k)))
    (hheld : Holds s.mem bias (libraryImage library)) (hlong : ENTRY_BRANCH + 4 ≤ library.length)
    (hword : A64.decode (numberAt 4 library ENTRY_BRANCH) = some (.b imm)) :
    A64.step s = some (A64.exec (.b imm) s) := by
  have halign : s.pc.toNat % 4 = 0 := by
    have hentry : (BitVec.ofNat 64 ENTRY_BRANCH).toNat = 0xd1a04 := rfl
    rw [hpc, BitVec.toNat_add, hentry]
    omega
  refine hheld.step (length_slice hlong) (fun k hk => ?_) hword hpc halign
  rw [libraryImage, image, hmaps k hk, getElem?_slice, if_pos hk]
  rfl

/-- A branch from the entry to another address of the library. -/
theorem exec_entry {target : Nat} (hpc : s.pc = bias + BitVec.ofNat 64 ENTRY_BRANCH)
    (hreach : ((target : Int) - ENTRY_BRANCH) % 4 = 0 ∧ -2 ^ 27 ≤ (target : Int) - ENTRY_BRANCH ∧
      (target : Int) - ENTRY_BRANCH < 2 ^ 27) :
    A64.exec (.b (BitVec.ofInt 26 (((target : Int) - ENTRY_BRANCH) / 4))) s =
      ({ s with pc := bias + BitVec.ofNat 64 target }, []) := by
  have hsum : (bias.toNat : Int) + ENTRY_BRANCH + (target - ENTRY_BRANCH) = bias.toNat + target := by
    omega
  rw [A64.exec_b (hpc.trans (bias_add bias ENTRY_BRANCH)) hreach.1 hreach.2, hsum, bias_add]

/-- The payload stands behind the new headers and the bytes that align it. -/
theorem payload_byte {address : Nat} {payload : Bytes} {packed : List Bytes}
    (run : Run data address payload packed result) (k : Nat) :
    result[pageUp data.length + 736 + k]? = payload[k]? := by
  rcases run.parts with ⟨front, hfront, hresult, _⟩
  have hflatten := run.length_flatten
  have hlength : (front ++ (packed.flatten ++ zeros 8)).length = pageUp data.length + 736 := by
    rw [List.length_append, List.length_append, hfront, hflatten]
    rfl
  have hwhole : result = (front ++ (packed.flatten ++ zeros 8)) ++ payload := by
    rw [hresult]
    simp only [List.append_assoc]
  rw [hwhole, List.getElem?_append_right (by omega), hlength, Nat.add_sub_cancel_left]

theorem run_one {s' : State} {stores : List A64.Store} (h : A64.step s = some (s', stores)) :
    A64.run 1 s = some (s', stores) := by
  rw [A64.run, h]
  simp only [A64.run, Option.bind_eq_bind, Option.bind_some, List.append_nil]
  rfl

/-- At the entry of the original library the entry body is next.  At the entry of the rewritten one it
is next as well, with every register but three as it was, after the intended stores and no other. -/
theorem loaded_entry (h : rewriteElf data = .ok result) (hmaps : MapsEntry data)
    (hbias : bias.toNat % 4096 = 0) (hpc : s.pc = bias + BitVec.ofNat 64 ENTRY_BRANCH) :
    (Holds s.mem bias (libraryImage data) →
      A64.run 1 s = some ({ s with pc := bias + BitVec.ofNat 64 ENTRY_BODY }, [])) ∧
    (Holds s.mem bias (libraryImage result) →
      z = load64 s.mem (bias + BitVec.ofNat 64 THREE_ZOOM_VECTOR) →
      (∀ st ∈ intended bias z, st.Apart (bias + BitVec.ofNat 64 (programHeader result 12).vaddr)
        (programHeader result 12).filesz) →
      ∃ s', A64.run 27 s = some (s', intended bias z) ∧
        s'.pc = bias + BitVec.ofNat 64 ENTRY_BODY ∧
        (∀ r, r ≠ 9 → r ≠ 10 → r ≠ 11 → s'.x r = s.x r) ∧ s'.sp = s.sp ∧
        s'.mem = A64.applyAll (intended bias z) s.mem) := by
  have hmodeIs : MODE_POINTER = 0x45c658 := rfl
  have hentryIs : ENTRY_BRANCH = 0xd1a04 := rfl
  rcases rewriteElf_ok h with ⟨address, payload, packed, run⟩
  have hwords := run.accepted.words
  constructor
  · intro hheld
    have hstep := entry_step hbias hpc hmaps hheld (by omega) run.accepted.entry
    rw [exec_entry hpc (by decide)] at hstep
    exact run_one hstep
  · intro hheld hz hapart
    have hload := run.load_eq
    -- the branch to the prelude
    have hmaps' : ∀ k < 4, origin (loads result) (ENTRY_BRANCH + k) =
        some (.file (ENTRY_BRANCH + k)) := by
      intro k hk
      rw [origin_kept run.accepted run.rewritten (by rw [hmaps k hk]; exact Option.some_ne_none _)]
      exact hmaps k hk
    have hlong := run.rewritten.longer
    have hword : A64.decode (numberAt 4 result ENTRY_BRANCH) = some (jumpTo (address + 736)) := by
      rw [numberAt, run.slice_original (by omega), (patched_fields hwords).2.2.2.2,
        value_pack (A64.encode_lt _), A64.decode_encode]
    have hstep := entry_step hbias hpc hmaps' hheld (by omega) hword
    rw [exec_entry hpc run.reach] at hstep
    -- the prelude
    have hplace : bias + BitVec.ofNat 64 (address + 736) =
        bias + BitVec.ofNat 64 address + BitVec.ofNat 64 736 := by
      rw [BitVec.ofNat_add, BitVec.add_assoc]
    have hcode : bytes s.mem (bias + BitVec.ofNat 64 (address + 736)) payload.length = payload := by
      refine hheld.bytes_eq payload fun k hk => ?_
      have hinside : 736 + k < (programHeader result 12).filesz := by
        rw [hload]
        exact Nat.add_lt_add_left hk 736
      have hbyte := image_new run.accepted run.rewritten hinside
      rw [hload, loadEntry] at hbyte
      rw [Nat.add_assoc, hbyte, ← Nat.add_assoc]
      exact payload_byte run k
    have hpart : ∀ st ∈ intended bias z,
        st.Apart (bias + BitVec.ofNat 64 (address + 736)) payload.length := by
      intro st hst
      have hall := hapart st hst
      rw [hload] at hall
      rw [hplace]
      exact hall.part (Nat.le_refl _)
    have haligned : ((address + 736 : Nat) : Int) % 4 = 0 := by
      have hpage := run.page
      omega
    have hpayloadPc : bias + BitVec.ofNat 64 (address + 736) =
        BitVec.ofInt 64 (bias.toNat + ((address + 736 : Nat) : Int)) := bias_add bias _
    rcases assembled_run (s := { s with pc := bias + BitVec.ofNat 64 (address + 736) })
      run.assembled haligned hbias hpayloadPc hcode hz hpart with ⟨s', hrun, hs'⟩
    refine ⟨s', ?_, hs'⟩
    have hcount : (program ((address + 736 : Nat) : Int)).length = 26 := rfl
    rw [hcount] at hrun
    rw [A64.run, hstep]
    simp only [Option.bind_eq_bind, Option.bind_some, hrun]
    rfl

/-! ### The small library -/

theorem loads_smallLibrary : loads smallLibrary = [⟨0, 0, MODE_POINTER + 8, MODE_POINTER + 8⟩] := by
  have hheaders : (List.range 12).map (programHeader smallLibrary) =
      (List.range 12).map fun i => readHeader smallFront (64 + i * 56) :=
    List.map_congr_left fun i hi => header_smallLibrary (List.mem_range.1 hi)
  rw [loads, smallLibrary_accepted.phcount, hheaders]
  decide +kernel

theorem mapsEntry_smallLibrary : MapsEntry smallLibrary := by
  intro k hk
  have hcovers : (⟨0, 0, MODE_POINTER + 8, MODE_POINTER + 8⟩ : Segment).Covers (ENTRY_BRANCH + k) := by
    have hentryIs : ENTRY_BRANCH = 0xd1a04 := rfl
    have hmodeIs : MODE_POINTER = 0x45c658 := rfl
    exact ⟨Nat.zero_le _, by simp only; omega⟩
  have hfile : ENTRY_BRANCH + k < 0 + (MODE_POINTER + 8) := by
    rw [Nat.zero_add]
    have hmem : ENTRY_BRANCH + k < 0 + (MODE_POINTER + 8) := hcovers.2
    rwa [Nat.zero_add] at hmem
  rw [loads_smallLibrary, A64.origin_singleton, if_pos hcovers, Segment.source, if_pos hfile]
  simp

/-- A processor at the entry of the small library, with nothing else in memory. -/
def atEntry (result : Bytes) : State where
  x := fun _ => 0
  sp := 0
  pc := 0 + BitVec.ofNat 64 ENTRY_BRANCH
  mem := fun p => (libraryImage result p.toNat).getD 0

/-- What is mapped of the rewritten small library. -/
theorem small_mapped {result : Bytes} {payload : Bytes} {packed : List Bytes}
    (run : Run smallLibrary (pageUp (MODE_POINTER + 8)) payload packed result) :
    loads result = [⟨0, 0, 0x45c660, 0x45c660⟩, ⟨0x45d000, 0x45d000, 898, 898⟩] ∧
      ∀ a, 0x45d382 ≤ a → libraryImage result a = none := by
  have hsize : payload.length = 162 := by
    rw [(prelude_ok run.assembled).2]
    rfl
  have hpage : pageUp (MODE_POINTER + 8) = 0x45d000 := by decide
  have hloads := loads_rewritten run.accepted run.rewritten
  rw [loads_smallLibrary, run.load_eq, hsize, length_smallLibrary, hpage] at hloads
  refine ⟨hloads, fun a ha => ?_⟩
  have hnone : origin (loads result) a = none := by
    rw [hloads, A64.origin_eq_none]
    intro g hg hcovers
    rcases List.mem_cons.1 hg with rfl | hg
    · have hbelow : a < 0 + (0x45c658 + 8) := hcovers.2
      omega
    · rw [List.mem_singleton.1 hg] at hcovers
      have hbelow : a < 0x45d000 + (736 + 162) := hcovers.2
      omega
  rw [libraryImage, image, hnone]
  rfl

theorem atEntry_holds {result : Bytes} (h : ∀ a, 0x45d382 ≤ a → libraryImage result a = none) :
    Holds (atEntry result).mem 0 (libraryImage result) := by
  intro a b hb
  have ha : a < 0x45d382 := by
    by_contra hlarge
    rw [h a (by omega)] at hb
    cases hb
  have haddr : ((0 : BitVec 64) + BitVec.ofNat 64 a).toNat = a := by
    have hzero : (0 : BitVec 64).toNat = 0 := rfl
    rw [BitVec.toNat_add, hzero, BitVec.toNat_ofNat]
    omega
  have hmem : (atEntry result).mem (0 + BitVec.ofNat 64 a) = (libraryImage result a).getD 0 :=
    congrArg (fun n => (libraryImage result n).getD 0) haddr
  rw [hmem, hb]
  rfl

theorem loaded_entry_small : ∃ result s', rewriteElf smallLibrary = .ok result ∧
    A64.run 27 (atEntry result) = some (s', intended 0 0) ∧ s'.pc = 0 + BitVec.ofNat 64 ENTRY_BODY := by
  rcases smallLibrary_run with ⟨result, payload, packed, hresult, run⟩
  rcases small_mapped run with ⟨_, hnone⟩
  have hpage : pageUp (MODE_POINTER + 8) = 0x45d000 := by decide
  have hsize : payload.length = 162 := by
    rw [(prelude_ok run.assembled).2]
    rfl
  have hload : programHeader result 12 = loadEntry 0x45d000 0x45d000 898 := by
    rw [run.load_eq, hsize, length_smallLibrary, hpage]
  -- the pointer to the zoom entries is behind everything that is mapped
  have hz : load64 (atEntry result).mem (0 + BitVec.ofNat 64 THREE_ZOOM_VECTOR) = 0 := by
    have hbytes : bytes (atEntry result).mem (0 + BitVec.ofNat 64 THREE_ZOOM_VECTOR) 8 =
        (List.range 8).map fun _ => 0 := by
      refine List.map_congr_left fun i hi => ?_
      have hi8 := List.mem_range.1 hi
      have haddr : 0x45d382 ≤
          (0 + BitVec.ofNat 64 THREE_ZOOM_VECTOR + BitVec.ofNat 64 i).toNat := by
        have hall : ∀ i < 8, 0x45d382 ≤
            (0 + BitVec.ofNat 64 THREE_ZOOM_VECTOR + BitVec.ofNat 64 i).toNat := by decide
        exact hall i hi8
      change (libraryImage result _).getD 0 = 0
      rw [hnone _ haddr]
      rfl
    rw [load64, hbytes]
    decide
  have hapart : ∀ st ∈ intended 0 0, st.Apart (0 + BitVec.ofNat 64 (programHeader result 12).vaddr)
      (programHeader result 12).filesz := by
    rw [hload]
    have hplaces : ∀ st ∈ intended 0 0, (st.addr.toNat + 8 ≤ 0x45d000 ∧ 0x45d000 + 898 ≤ 2 ^ 64) ∨
        (0x45d000 + 898 ≤ st.addr.toNat ∧ st.addr.toNat + 8 ≤ 2 ^ 64) := by decide +kernel
    exact fun st hst => A64.Store.apart_of_toNat (hplaces st hst)
  have hbias : (0 : BitVec 64).toNat % 4096 = 0 := rfl
  have hpc : (atEntry result).pc = 0 + BitVec.ofNat 64 ENTRY_BRANCH := rfl
  rcases (loaded_entry hresult mapsEntry_smallLibrary hbias hpc).2 (atEntry_holds hnone) hz.symm hapart
    with ⟨s', hrun, hpc', _⟩
  exact ⟨result, s', hresult, hrun, hpc'⟩

end Entry

end Camera
end M2391Device
