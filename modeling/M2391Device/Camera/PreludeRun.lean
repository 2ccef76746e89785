import M2391Device.Camera.Prelude

/-!
# PreludeRun — what the injected code does

The bytes of `_prelude` at the address they were assembled for, moved by a load bias that is a multiple
of the page size, are run from any state of the registers and the memory.  They perform the stores of
`intended` in that order and no other, and go on at the entry body (`prelude_run`).
-/

namespace M2391Device
namespace Camera

open Ims (Bytes)
open LittleEndian (value)
open TwosComplement
open A64 (Instr State Store Ran execAll bytes load64)

/-! ## What is stored -/

/-- The eight bytes of the pair of a boundary. -/
def pairAt (i : Nat) : Bytes := (BOUNDARIES[i]?.map packFloats).getD []

/-- The stores of some rounds of the loop, with `z` the start of the zoom entries. -/
def copies (z : BitVec 64) (indices : List Nat) : List Store :=
  indices.flatMap fun i =>
    [⟨z + BitVec.ofNat 64 (i * 160), BitVec.ofNat 64 (value (pairAt i))⟩,
      ⟨z + BitVec.ofNat 64 (i * 160 + 8), 0⟩]

/-- The stores that the prelude is for. -/
def intended (bias z : BitVec 64) : List Store :=
  ⟨bias + BitVec.ofNat 64 DEFAULT_TABLE_POINTER, bias + BitVec.ofNat 64 THREE_TAG_TABLE⟩ ::
    copies z (List.range BOUNDARIES.length)

/-! ## Blocks -/

section Blocks

variable {s : State} {b pc target : Int}

/-- The program counter of a block, as an integer. -/
theorem pc_ofInt {k : Nat} {p : BitVec 64} (h : p = BitVec.ofInt 64 (b + pc)) :
    p + BitVec.ofNat 64 k = BitVec.ofInt 64 (b + (pc + k)) := by
  rw [h, ← BitVec.ofInt_natCast, ← BitVec.ofInt_add, Int.add_assoc]

theorem readSp_eq {r : BitVec 5} (h : r ≠ 31) : s.readSp r = s.x r := if_neg h

theorem add_offset8_zero (a : BitVec 64) : a + A64.offset8 (BitVec.ofInt 12 (0 / 8)) = a := by
  have hzero : A64.offset8 (BitVec.ofInt 12 (0 / 8)) = 0#64 := by decide
  rw [hzero, BitVec.add_zero]

/-- The two instructions leave the address of the target in their register. -/
theorem ran_pointer {register : BitVec 5} (hregister : register ≠ 31) (hb : b % 2 ^ 12 = 0)
    (hreach : PageReach pc target) (hpc : s.pc = BitVec.ofInt 64 (b + pc)) :
    ∃ s', Ran (pointer register pc target) s s' [register, register] [] ∧
      s'.x register = BitVec.ofInt 64 (b + target) := by
  have hdistance : distance pc target true = target / 2 ^ 12 - pc / 2 ^ 12 := rfl
  rcases A64.ran_adrp s hregister (BitVec.ofInt 21 (distance pc target true)) with
    ⟨s1, hadrp, hpage⟩
  rcases A64.ran_add s1 hregister register (BitVec.ofInt 12 target) with ⟨s2, hadd, hsum⟩
  refine ⟨s2, hadrp.append hadd, ?_⟩
  rw [hsum, readSp_eq hregister, hpage, hpc, A64.page_ofInt, signExtend_ofInt hreach,
    shiftLeft_ofInt, A64.setWidth_ofInt, ← BitVec.ofInt_add, ← BitVec.ofInt_add, hdistance]
  congr 1
  omega

theorem ran_boundary {i : Nat} (hi : i * 160 + 8 < 32768) {copied : BitVec 64}
    (hcopied : load64 s.mem (s.x 11 + BitVec.ofNat 64 (i * 8)) = copied) :
    ∃ s', Ran (boundary i) s s' [10]
      [⟨s.x 9 + BitVec.ofNat 64 (i * 160), copied⟩, ⟨s.x 9 + BitVec.ofNat 64 (i * 160 + 8), 0⟩] := by
  have hload : A64.offset8 (BitVec.ofInt 12 ((i : Int) * 8 / 8)) = BitVec.ofNat 64 (i * 8) := by
    have hoffset := A64.offset8_ofInt (Nat.mul_mod_left i 8) (by omega)
    rwa [Int.natCast_mul] at hoffset
  have hstore : A64.offset8 (BitVec.ofInt 12 ((i : Int) * 160 / 8)) = BitVec.ofNat 64 (i * 160) := by
    have hoffset := A64.offset8_ofInt (by omega : i * 160 % 8 = 0) (by omega)
    rwa [Int.natCast_mul] at hoffset
  have hclear : A64.offset8 (BitVec.ofInt 12 (((i : Int) * 160 + 8) / 8)) =
      BitVec.ofNat 64 (i * 160 + 8) := by
    have hoffset := A64.offset8_ofInt (by omega : (i * 160 + 8) % 8 = 0) hi
    rwa [Int.natCast_add, Int.natCast_mul] at hoffset
  have h10 : (10 : BitVec 5) ≠ 31 := by decide
  rcases A64.ran_ldr s h10 11 (BitVec.ofInt 12 ((i : Int) * 8 / 8)) with
    ⟨s1, hldr, hx10⟩
  rcases A64.ran_str s1 10 9 (BitVec.ofInt 12 ((i : Int) * 160 / 8)) with ⟨s2, hstr, hx2⟩
  rcases A64.ran_str s2 31 9 (BitVec.ofInt 12 (((i : Int) * 160 + 8) / 8)) with ⟨s3, hzero, hx3⟩
  have hx9 : s1.x 9 = s.x 9 := hldr.others 9 (by decide)
  rw [readSp_eq (by decide), hload, hcopied] at hx10
  rw [readSp_eq (by decide), hstore, hx9, State.read, if_neg (by decide), hx10] at hstr
  rw [readSp_eq (by decide), hclear, hx2, hx9, State.read, if_pos rfl] at hzero
  exact ⟨s3, hldr.append (hstr.append hzero)⟩

/-- The rounds of the loop copy what is at the literals, as long as no store falls on these. -/
theorem ran_loop {z literal : BitVec 64} (indices : List Nat)
    (hindices : ∀ i ∈ indices, i * 160 + 8 < 32768) (hz : s.x 9 = z) (hliteral : s.x 11 = literal)
    (hpairs : ∀ i ∈ indices, bytes s.mem (literal + BitVec.ofNat 64 (i * 8)) 8 = pairAt i)
    (hapart : ∀ st ∈ copies z indices, ∀ i ∈ indices,
      st.Apart (literal + BitVec.ofNat 64 (i * 8)) 8) :
    ∃ s', Ran (indices.flatMap boundary) s s' (indices.map fun _ => 10) (copies z indices) := by
  induction indices generalizing s with
  | nil => exact ⟨s, rfl, fun _ _ => rfl, rfl⟩
  | cons i indices ih =>
      have hcopied : load64 s.mem (s.x 11 + BitVec.ofNat 64 (i * 8)) =
          BitVec.ofNat 64 (value (pairAt i)) := by
        rw [hliteral, load64, hpairs i List.mem_cons_self]
      rcases ran_boundary (hindices i List.mem_cons_self) hcopied with ⟨s1, hround⟩
      rw [hz] at hround
      have hcopies : copies z (i :: indices) =
          [⟨z + BitVec.ofNat 64 (i * 160), BitVec.ofNat 64 (value (pairAt i))⟩,
            ⟨z + BitVec.ofNat 64 (i * 160 + 8), 0⟩] ++ copies z indices := rfl
      rw [hcopies] at hapart ⊢
      rcases ih (s := s1) (fun j hj => hindices j (List.mem_cons_of_mem i hj))
        ((hround.others 9 (by decide)).trans hz) ((hround.others 11 (by decide)).trans hliteral)
        (fun j hj => by
          rw [hround.mem, A64.bytes_applyAll fun st hst =>
            hapart st (List.mem_append_left _ hst) j (List.mem_cons_of_mem i hj)]
          exact hpairs j (List.mem_cons_of_mem i hj))
        (fun st hst j hj => hapart st (List.mem_append_right _ hst) j (List.mem_cons_of_mem i hj))
        with ⟨s', hrest⟩
      exact ⟨s', hround.append hrest⟩

/-- What the instructions before the loop do. -/
theorem ran_setup {address : Int} (hreaches : Reaches address) (hb : b % 2 ^ 12 = 0)
    (hpc : s.pc = BitVec.ofInt 64 (b + address)) {st : Store}
    (hst : st = ⟨BitVec.ofInt 64 (b + DEFAULT_TABLE_POINTER), BitVec.ofInt 64 (b + THREE_TAG_TABLE)⟩) :
    ∃ s', Ran (setup address ++ [literalPointer address]) s s' [9, 9, 10, 10, 9, 9, 9, 11] [st] ∧
      s'.x 9 = load64 (st.apply s.mem) (BitVec.ofInt 64 (b + THREE_ZOOM_VECTOR)) ∧
      s'.x 11 = BitVec.ofInt 64 (b + (address + 104)) := by
  have h9 : (9 : BitVec 5) ≠ 31 := by decide
  have h10 : (10 : BitVec 5) ≠ 31 := by decide
  have h11 : (11 : BitVec 5) ≠ 31 := by decide
  rcases A64.ran_bti s with ⟨s1, hbti, _⟩
  have hpc1 : s1.pc = BitVec.ofInt 64 (b + (address + 4)) := by
    rw [hbti.pc rfl]
    exact pc_ofInt hpc
  -- the default table gets the three tags
  rcases ran_pointer h9 hb hreaches.table hpc1 with ⟨s2, htable, hx9⟩
  have hrun2 := hbti.append htable
  have hpc2 : s2.pc = BitVec.ofInt 64 (b + (address + 12)) := by
    rw [hrun2.pc rfl]
    exact pc_ofInt hpc
  rcases ran_pointer h10 hb hreaches.tags hpc2 with ⟨s3, htags, hx10⟩
  rcases A64.ran_str s3 10 9 (BitVec.ofInt 12 (0 / 8)) with ⟨s4, hstr, hx4⟩
  have hx9' : s3.x 9 = BitVec.ofInt 64 (b + DEFAULT_TABLE_POINTER) :=
    (htags.others 9 (by decide)).trans hx9
  rw [readSp_eq h9, add_offset8_zero, hx9', State.read, if_neg h10, hx10, ← hst] at hstr
  have hrun4 := (hrun2.append htags).append hstr
  have hpc4 : s4.pc = BitVec.ofInt 64 (b + (address + 24)) := by
    rw [hrun4.pc rfl]
    exact pc_ofInt hpc
  -- then the vector of the zoom tags is loaded, after the store
  rcases ran_pointer h9 hb hreaches.zoom hpc4 with ⟨s5, hzoom, hx5⟩
  rcases A64.ran_ldr s5 h9 9 (BitVec.ofInt 12 (0 / 8)) with ⟨s6, hldr, hx6⟩
  have hrun6 := (hrun4.append hzoom).append hldr
  have hpc6 : s6.pc = BitVec.ofInt 64 (b + (address + 36)) := by
    rw [hrun6.pc rfl]
    exact pc_ofInt hpc
  have hmem : s5.mem = st.apply s.mem := (hrun4.append hzoom).mem
  rw [readSp_eq h9, add_offset8_zero, hx5, hmem] at hx6
  have hdistance : distance (address + 36) (address + 104) false = 68 := by
    rw [distance, if_neg Bool.false_ne_true]
    omega
  -- and the literals are found behind the program
  rcases A64.ran_adr s6 h11 (BitVec.ofInt 21 (distance (address + 36) (address + 104) false)) with
    ⟨s7, hadr, hx7⟩
  refine ⟨s7, hrun6.append hadr, ?_, ?_⟩
  · rw [hadr.others 9 (by decide)]
    exact hx6
  · rw [hx7, hpc6, hdistance, signExtend_ofInt (by decide), ← BitVec.ofInt_add]
    congr 1
    omega

end Blocks

/-! ## The run -/

section Run

variable {s : State} {b address : Int} {bias z : BitVec 64} {payload : Bytes}

/-- The instructions before the branch. -/
def straight (address : Int) : List Instr := setup address ++ [literalPointer address] ++ loop

/-- The literals in memory, behind the 26 instructions. -/
theorem literals_held (hcode : bytes s.mem s.pc payload.length = payload)
    (hpayload : payload = codeBytes (program address) ++ literals ++ MARKER) {i : Nat}
    (hi : i ∈ List.range BOUNDARIES.length) :
    bytes s.mem (s.pc + BitVec.ofNat 64 (104 + i * 8)) 8 = pairAt i := by
  have hsplit : ∀ i ∈ List.range BOUNDARIES.length, (pairAt i).length = 8 ∧
      (literals.take (i * 8)).length = i * 8 ∧
      literals = literals.take (i * 8) ++ pairAt i ++ literals.drop (i * 8 + 8) := by
    decide +kernel
  rcases hsplit i hi with ⟨hlength, hfront, hliterals⟩
  have hwhole : payload = (codeBytes (program address) ++ literals.take (i * 8)) ++ pairAt i ++
      (literals.drop (i * 8 + 8) ++ MARKER) := by
    rw [hpayload]
    conv_lhs => rw [hliterals]
    simp only [List.append_assoc]
  rw [hwhole] at hcode
  have hpart := A64.bytes_part hcode
  have hcount : (codeBytes (program address)).length = 104 := rfl
  rwa [List.length_append, hcount, hfront, hlength] at hpart

theorem code_held (hcode : bytes s.mem s.pc payload.length = payload)
    (hpayload : payload = codeBytes (program address) ++ literals ++ MARKER) :
    A64.Code s.mem s.pc (program address) := by
  have hwhole : payload = [] ++ codeBytes (program address) ++ (literals ++ MARKER) := by
    rw [hpayload, List.nil_append, List.append_assoc]
  rw [hwhole] at hcode
  have hpart := A64.bytes_part hcode
  have hzero : s.pc + BitVec.ofNat 64 ([] : Bytes).length = s.pc := BitVec.add_zero s.pc
  rw [hzero] at hpart
  exact hpart

/-- The pointer to the default table is stored apart from the pointer to the zoom entries. -/
theorem zoom_kept (b : Int) (mem : A64.Memory) (v : BitVec 64) :
    load64 (Store.apply ⟨BitVec.ofInt 64 (b + DEFAULT_TABLE_POINTER), v⟩ mem)
      (BitVec.ofInt 64 (b + THREE_ZOOM_VECTOR)) =
      load64 mem (BitVec.ofInt 64 (b + THREE_ZOOM_VECTOR)) := by
  rw [load64, load64, A64.bytes_apply]
  intro i hi
  have hall : ∀ i < 8, 8 ≤ (BitVec.ofNat 64 THREE_ZOOM_VECTOR + BitVec.ofNat 64 i -
      BitVec.ofNat 64 DEFAULT_TABLE_POINTER).toNat := by decide
  have hdiff : BitVec.ofInt 64 (b + THREE_ZOOM_VECTOR) + BitVec.ofNat 64 i -
      BitVec.ofInt 64 (b + DEFAULT_TABLE_POINTER) = BitVec.ofNat 64 THREE_ZOOM_VECTOR +
        BitVec.ofNat 64 i - BitVec.ofNat 64 DEFAULT_TABLE_POINTER := by
    rw [BitVec.ofInt_add, BitVec.ofInt_add, BitVec.ofInt_natCast, BitVec.ofInt_natCast,
      BitVec.add_assoc]
    exact add_sub_add_left_eq_sub _ _ _
  rw [hdiff]
  exact hall i hi

/-- The branch goes to the entry body. -/
theorem exec_back (hreaches : Reaches address) (hpc : s.pc = BitVec.ofInt 64 (b + (address + 100))) :
    A64.exec (back address) s = ({ s with pc := BitVec.ofInt 64 (b + ENTRY_BODY) }, []) := by
  have haligned := hreaches.aligned
  have hbody := hreaches.body
  have htarget : b + (address + 100) + (ENTRY_BODY - (address + 100)) = b + ENTRY_BODY := by omega
  rw [back, A64.exec_b hpc (by omega) (by omega), htarget]

/-- An address of the source, loaded with the bias. -/
theorem bias_add (bias : BitVec 64) (n : Nat) :
    bias + BitVec.ofNat 64 n = BitVec.ofInt 64 (bias.toNat + n) := by
  rw [BitVec.ofInt_add, BitVec.ofInt_natCast, BitVec.ofInt_natCast, BitVec.ofNat_toNat,
    BitVec.setWidth_eq]

/-- Everything before the branch: the loop reads its literals where the code says. -/
theorem ran_straight (hreaches : Reaches address)
    (hpayload : payload = codeBytes (program address) ++ literals ++ MARKER)
    (hbias : bias.toNat % 4096 = 0) (hpc : s.pc = BitVec.ofInt 64 (bias.toNat + address))
    (hcode : bytes s.mem s.pc payload.length = payload)
    (hz : z = load64 s.mem (bias + BitVec.ofNat 64 THREE_ZOOM_VECTOR))
    (hapart : ∀ st ∈ intended bias z, st.Apart s.pc payload.length) :
    ∃ s', Ran (straight address) s s' ([9, 9, 10, 10, 9, 9, 9, 11] ++
      (List.range BOUNDARIES.length).map fun _ => 10) (intended bias z) := by
  have hb : (bias.toNat : Int) % 2 ^ 12 = 0 := by omega
  have hlength : 104 + 40 ≤ payload.length := by
    have hcount : (codeBytes (program address) ++ literals ++ MARKER).length = 162 := rfl
    rw [hpayload, hcount]
    decide
  -- the instructions before the loop
  let st : Store :=
    ⟨bias + BitVec.ofNat 64 DEFAULT_TABLE_POINTER, bias + BitVec.ofNat 64 THREE_TAG_TABLE⟩
  have hst : st = ⟨BitVec.ofInt 64 (bias.toNat + DEFAULT_TABLE_POINTER),
      BitVec.ofInt 64 (bias.toNat + THREE_TAG_TABLE)⟩ := by
    simp only [st, bias_add]
  rcases ran_setup hreaches hb hpc hst with ⟨s1, hsetup, hx9, hx11⟩
  have hx9' : s1.x 9 = z := by
    rw [hx9, hst, zoom_kept, hz, bias_add]
  -- the loop
  have hliteral : ∀ i : Nat, BitVec.ofInt 64 (bias.toNat + (address + 104)) + BitVec.ofNat 64 (i * 8) =
      s.pc + BitVec.ofNat 64 (104 + i * 8) := fun i => by
    rw [hpc, ← BitVec.ofInt_natCast, ← BitVec.ofInt_natCast, ← BitVec.ofInt_add,
      ← BitVec.ofInt_add]
    congr 1
    omega
  have hloopApart : ∀ st' ∈ intended bias z, ∀ i ∈ List.range BOUNDARIES.length,
      st'.Apart (BitVec.ofInt 64 (bias.toNat + (address + 104)) + BitVec.ofNat 64 (i * 8)) 8 := by
    intro st' hst' i hi
    have hi5 : i < 5 := List.mem_range.1 hi
    rw [hliteral]
    exact (hapart st' hst').part (by omega)
  have hpairs : ∀ i ∈ List.range BOUNDARIES.length,
      bytes s1.mem (BitVec.ofInt 64 (bias.toNat + (address + 104)) + BitVec.ofNat 64 (i * 8)) 8 =
        pairAt i := by
    intro i hi
    rw [hsetup.mem, A64.bytes_applyAll, hliteral]
    · exact literals_held hcode hpayload hi
    · intro st' hst'
      rw [List.mem_singleton.1 hst']
      exact hloopApart st List.mem_cons_self i hi
  rcases ran_loop (List.range BOUNDARIES.length) (by decide) hx9' hx11 hpairs
    (fun st' hst' => hloopApart st' (List.mem_cons_of_mem _ hst')) with ⟨s2, hloop⟩
  exact ⟨s2, hsetup.append hloop⟩

/-- A processor at an assembled prelude performs the intended stores and no other, goes on at the
entry body, and changes no register but `x9`, `x10` and `x11`. -/
theorem assembled_run (h : prelude address = .ok payload) (haligned : address % 4 = 0)
    (hbias : bias.toNat % 4096 = 0) (hpc : s.pc = BitVec.ofInt 64 (bias.toNat + address))
    (hcode : bytes s.mem s.pc payload.length = payload)
    (hz : z = load64 s.mem (bias + BitVec.ofNat 64 THREE_ZOOM_VECTOR))
    (hapart : ∀ st ∈ intended bias z, st.Apart s.pc payload.length) :
    ∃ s', A64.run (program address).length s = some (s', intended bias z) ∧
      s'.pc = bias + BitVec.ofNat 64 ENTRY_BODY ∧
      (∀ r, r ≠ 9 → r ≠ 10 → r ≠ 11 → s'.x r = s.x r) ∧ s'.sp = s.sp ∧
      s'.mem = A64.applyAll (intended bias z) s.mem := by
  rcases prelude_ok h with ⟨hreaches, hpayload⟩
  rcases ran_straight hreaches hpayload hbias hpc hcode hz hapart with ⟨s2, hrun⟩
  have hpc2 : s2.pc = BitVec.ofInt 64 (bias.toNat + (address + 100)) := by
    rw [hrun.pc rfl]
    exact pc_ofInt hpc
  -- the branch
  have hlast := exec_back hreaches hpc2
  have hwhole : execAll (program address) s =
      ({ s2 with pc := BitVec.ofInt 64 (bias.toNat + ENTRY_BODY) }, intended bias z) := by
    rw [program, ← straight, A64.execAll_append, hrun.exec]
    simp only [execAll, hlast, List.append_nil]
  -- the words are fetched from memory, since no store meets them
  have hlength : 4 * (straight address ++ [back address]).length ≤ payload.length := by
    have hcount : (codeBytes (program address) ++ literals ++ MARKER).length = 162 := rfl
    have hwords : 4 * (straight address ++ [back address]).length = 104 := rfl
    rw [hpayload, hcount, hwords]
    decide
  have halign4 : s.pc.toNat % 4 = 0 := by
    have hvalue := toNat_ofInt 64 (bias.toNat + address)
    rw [hpc]
    omega
  have hsteps : A64.run (straight address ++ [back address]).length s =
      some (execAll (straight address ++ [back address]) s) :=
    A64.run_straight rfl halign4 (code_held hcode hpayload) (fun st' hst' => by
      rw [hrun.exec] at hst'
      exact (hapart st' hst').le hlength)
  refine ⟨_, hsteps.trans (congrArg some hwhole), ?_, fun r h9 h10 h11 => ?_, hrun.sp, hrun.mem⟩
  · rw [bias_add]
  · have hregisters : ∀ q ∈ ([9, 9, 10, 10, 9, 9, 9, 11] : List (BitVec 5)) ++
        (List.range BOUNDARIES.length).map fun _ => 10, q = 9 ∨ q = 10 ∨ q = 11 := by decide
    refine hrun.others r fun hmem => ?_
    rcases hregisters r hmem with hr | hr | hr
    · exact h9 hr
    · exact h10 hr
    · exact h11 hr

/-- The prelude performs the intended stores and no other, goes on at the entry body, and changes no
register but `x9`, `x10` and `x11`. -/
theorem prelude_run (h : prelude address = .ok payload) (haligned : address % 16 = 0)
    (hbias : bias.toNat % 4096 = 0) (hpc : s.pc = bias + BitVec.ofInt 64 address)
    (hcode : bytes s.mem s.pc payload.length = payload)
    (hz : z = load64 s.mem (bias + BitVec.ofNat 64 THREE_ZOOM_VECTOR))
    (hapart : ∀ st ∈ intended bias z, st.Apart s.pc payload.length) :
    ∃ s', A64.run (program address).length s = some (s', intended bias z) ∧
      s'.pc = bias + BitVec.ofNat 64 ENTRY_BODY ∧
      (∀ r, r ≠ 9 → r ≠ 10 → r ≠ 11 → s'.x r = s.x r) ∧ s'.sp = s.sp ∧
      s'.mem = A64.applyAll (intended bias z) s.mem := by
  refine assembled_run h (by omega) hbias ?_ hcode hz hapart
  rw [hpc, BitVec.ofInt_add, BitVec.ofInt_natCast, BitVec.ofNat_toNat, BitVec.setWidth_eq]

/-- The prelude behind the headers of a segment at `0x4a6000`, without a bias and with nothing else in
memory. -/
def loaded : State where
  x := fun _ => 0
  sp := 0
  pc := 0x4a62e0
  mem := fun p =>
    (codeBytes (program 0x4a62e0) ++ literals ++ MARKER).getD (p - 0x4a62e0).toNat 0

theorem prelude_run_loaded :
    ∃ s', A64.run 26 loaded = some (s', intended 0 0) ∧ s'.pc = 0 + BitVec.ofNat 64 ENTRY_BODY ∧
      (∀ r, r ≠ 9 → r ≠ 10 → r ≠ 11 → s'.x r = 0) ∧ s'.sp = 0 ∧
      s'.mem = A64.applyAll (intended 0 0) loaded.mem := by
  have hpayload : prelude 0x4a62e0 = .ok (codeBytes (program 0x4a62e0) ++ literals ++ MARKER) := by
    decide +kernel
  exact prelude_run (s := loaded) (z := 0) hpayload (by decide) (by decide) (by decide)
    (by decide +kernel) (by decide +kernel)
    (by unfold Store.Apart; decide +kernel)

end Run

end Camera
end M2391Device
