import M2391Device.Ir.Transaction
import Mathlib.Algebra.Ring.Int.Defs

/-!
# Acceptance — which commands reach the device, and how long the gap is

The three sums and counts of `transmitLirc` depend on the parity of the pattern's length.
`ValidRequest` says what they are for, in terms of the advertised carriers and of exact sums, and
the loop is shown to decide it: its accumulators are exact after every entry (`accumulated`),
because the bound on the length is checked before the first addition.
-/

namespace M2391Device
namespace Ir

universe u

variable {σ : Type u}

/-! ## Exact sums -/

/-- The sum of the entries in microseconds, as an integer. -/
def micros (pattern : List Int32) : Int := (pattern.map Int32.toInt).sum

@[simp] theorem micros_nil : micros [] = 0 := rfl

theorem micros_snoc (xs : List Int32) (x : Int32) : micros (xs ++ [x]) = micros xs + x.toInt := by
  simp [micros]

/-- Positive entries of 32 bits sum to less than `2^31` each. -/
theorem micros_bounds {xs : List Int32} (hpositive : ∀ x ∈ xs, 0 < x.toInt) :
    0 ≤ micros xs ∧ micros xs ≤ xs.length * 2147483647 := by
  induction xs with
  | nil => simp
  | cons x rest ih =>
      rcases ih (fun y hy => hpositive y (by simp [hy])) with ⟨hlow, hhigh⟩
      have hx := hpositive x (by simp)
      have hx' := x.toInt_lt
      have hcons : micros (x :: rest) = x.toInt + micros rest := by simp [micros]
      rw [hcons]
      push_cast [List.length_cons]
      omega

/-! ## The loop -/

theorem le_zero_iff (x : Int32) : x ≤ 0 ↔ x.toInt ≤ 0 := by
  rw [Int32.le_iff_toInt_le]
  rfl

/-- The loop passes through the accumulators of every prefix. -/
theorem addEntries_append (pulses : Nat) (xs ys : List Int32) (i : Nat) (duration total : Int64) :
    addEntries pulses i duration total (xs ++ ys) =
      (addEntries pulses i duration total xs).bind
        (fun sums => addEntries pulses (i + xs.length) sums.1 sums.2 ys) := by
  induction xs generalizing i duration total with
  | nil => simp [addEntries]
  | cons x rest ih =>
      by_cases hx : x ≤ 0
      · simp [addEntries, hx]
      · have hindex : i + 1 + rest.length = i + (x :: rest).length := by
          rw [List.length_cons]
          omega
        simp only [List.cons_append, addEntries, hx, if_false, ih, hindex]

/-- The accumulators after the entries `xs`. -/
structure Exact (pulses : Nat) (xs : List Int32) (duration total : Int64) : Prop where
  duration : duration.toInt = micros (xs.take pulses)
  total : total.toInt = micros xs

theorem toInt_add_entry {a : Int64} {xs : List Int32} {x : Int32} (ha : a.toInt = micros xs)
    (hpositive : ∀ y ∈ xs ++ [x], 0 < y.toInt) (hlength : (xs ++ [x]).length ≤ 1025) :
    (a + x.toInt64).toInt = a.toInt + x.toInt := by
  have hbounds := micros_bounds hpositive
  rw [micros_snoc] at hbounds
  -- 1025 entries below `2 ^ 31` stay far below `2 ^ 63`
  have hsum : (a.toInt + x.toInt).bmod (2 ^ 64) = a.toInt + x.toInt :=
    Int.bmod_eq_of_le (by omega) (by omega)
  rw [Int64.toInt_add, Int32.toInt_toInt64, hsum]

/-- One iteration keeps the accumulators exact. -/
theorem Exact.snoc {pulses : Nat} {xs : List Int32} {duration total : Int64} {x : Int32}
    (h : Exact pulses xs duration total) (hpositive : ∀ y ∈ xs ++ [x], 0 < y.toInt)
    (hlength : (xs ++ [x]).length ≤ 1025) :
    Exact pulses (xs ++ [x])
      (if xs.length < pulses then duration + x.toInt64 else duration) (total + x.toInt64) := by
  refine ⟨?_, ?_⟩
  -- `duration` grows only inside the pulse train
  · by_cases hpulse : xs.length < pulses
    · have hall : xs.take pulses = xs := List.take_of_length_le (Nat.le_of_lt hpulse)
      have hall' : (xs ++ [x]).take pulses = xs ++ [x] :=
        List.take_of_length_le (by simpa using Nat.succ_le_of_lt hpulse)
      have hexact := h.duration
      rw [hall] at hexact
      rw [if_pos hpulse, hall', micros_snoc, toInt_add_entry hexact hpositive hlength, hexact]
    · have hsame : (xs ++ [x]).take pulses = xs.take pulses :=
        List.take_append_of_le_length (Nat.le_of_not_lt hpulse)
      rw [if_neg hpulse, hsame]
      exact h.duration
  · rw [toInt_add_entry h.total hpositive hlength, h.total, micros_snoc]

/-- From exact accumulators the loop ends with exact ones, or at an entry that is not positive. -/
theorem addEntries_exact {pulses : Nat} (rest : List Int32) {done : List Int32}
    {duration total : Int64} (h : Exact pulses done duration total)
    (hpositive : ∀ x ∈ done, 0 < x.toInt) (hlength : (done ++ rest).length ≤ 1025) :
    (addEntries pulses done.length duration total rest = none ∧ ∃ x ∈ rest, x.toInt ≤ 0) ∨
      ∃ duration' total', addEntries pulses done.length duration total rest =
          some (duration', total') ∧
        (∀ x ∈ rest, 0 < x.toInt) ∧ Exact pulses (done ++ rest) duration' total' := by
  induction rest generalizing done duration total with
  | nil => exact Or.inr ⟨duration, total, rfl, by simp, by simpa using h⟩
  | cons x rest ih =>
      -- induction on the entries to come; the loop leaves at the first that is not positive
      by_cases hx : x ≤ 0
      · refine Or.inl ⟨by simp [addEntries, hx], x, by simp, (le_zero_iff x).1 hx⟩
      · have hx' : 0 < x.toInt := by
          have hnot := mt (le_zero_iff x).2 hx
          omega
        have hassoc : done ++ x :: rest = (done ++ [x]) ++ rest := by simp
        have hpositive' : ∀ y ∈ done ++ [x], 0 < y.toInt := by
          intro y hy
          rcases List.mem_append.1 hy with hy | hy
          · exact hpositive y hy
          · have hyx : y = x := by simpa using hy
            rw [hyx]
            exact hx'
        rw [hassoc] at hlength
        have hshort : (done ++ [x]).length ≤ 1025 := by
          have hle : (done ++ [x]).length ≤ ((done ++ [x]) ++ rest).length := by simp
          omega
        have hindex : done.length + 1 = (done ++ [x]).length := by simp
        have hnext := ih (h.snoc hpositive' hshort) hpositive' hlength
        simp only [addEntries, hx, if_false, hindex, hassoc]
        rcases hnext with ⟨hnone, y, hy, hyneg⟩ | ⟨duration', total', hsome, hrest, hexact⟩
        · exact Or.inl ⟨hnone, y, by simp [hy], hyneg⟩
        · refine Or.inr ⟨duration', total', hsome, ?_, hexact⟩
          intro y hy
          rcases List.mem_cons.1 hy with rfl | hy
          · exact hx'
          · exact hrest y hy

/-- Every prefix that the loop gets through leaves it with exact accumulators, and the loop goes on
from there. -/
theorem accumulated {pattern : List Int32} (hlength : pattern.length ≤ 1025) {k pulses : Nat}
    {duration total : Int64}
    (htaken : addEntries pulses 0 0 0 (pattern.take k) = some (duration, total)) :
    (∀ x ∈ pattern.take k, 0 < x.toInt) ∧ Exact pulses (pattern.take k) duration total ∧
      addEntries pulses 0 0 0 pattern =
        addEntries pulses (pattern.take k).length duration total (pattern.drop k) := by
  have hstart : Exact pulses [] 0 0 := ⟨by simp, by simp⟩
  have hshort : ([] ++ pattern.take k).length ≤ 1025 := by
    simp
    omega
  rcases addEntries_exact (pattern.take k) hstart (by simp) hshort with
    ⟨hnone, _⟩ | ⟨duration', total', hsome, hpositive, hexact⟩
  · have hcontra := htaken.symm.trans hnone
    cases hcontra
  · have hsame := htaken.symm.trans hsome
    cases hsame
    refine ⟨hpositive, by simpa using hexact, ?_⟩
    -- the loop over the whole pattern passes through the state after `k` entries
    have hsplit := addEntries_append pulses (pattern.take k) (pattern.drop k) 0 0 0
    rw [List.take_append_drop, htaken] at hsplit
    simpa using hsplit

/-! ## What a valid command is -/

/-- What is written: the pattern without its last entry when its length is even. -/
def pulseTrain (pattern : List Int32) : List Int32 :=
  if pattern.length % 2 = 0 then pattern.dropLast else pattern

structure ValidRequest (carrier : Int32) (pattern : List Int32) : Prop where
  carrier : ∃ range ∈ getCarrierFreqs, range.minHz ≤ carrier ∧ carrier ≤ range.maxHz
  nonempty : pattern ≠ []
  positive : ∀ x ∈ pattern, 0 < x.toInt
  entries : (pulseTrain pattern).length ≤ 1024
  duration : micros (pulseTrain pattern) ≤ 500000
  total : micros pattern ≤ 2000000

/-- The carrier predicate agrees with the advertised ranges. -/
theorem supportsCarrier_iff (carrier : Int32) :
    supportsCarrier carrier = true ↔
      ∃ range ∈ getCarrierFreqs, range.minHz ≤ carrier ∧ carrier ≤ range.maxHz := by
  have hadvertised : (∃ range ∈ getCarrierFreqs, range.minHz ≤ carrier ∧ carrier ≤ range.maxHz) ↔
      ((36000 : Int32) ≤ carrier ∧ carrier ≤ 36000) ∨
        ((37001 : Int32) ≤ carrier ∧ carrier ≤ 38999) := by
    simp [getCarrierFreqs]
  -- both sides become inequalities between integers
  have h36000 : (36000 : Int32).toInt = 36000 := rfl
  have h37000 : (37000 : Int32).toInt = 37000 := rfl
  have h37001 : (37001 : Int32).toInt = 37001 := rfl
  have h38999 : (38999 : Int32).toInt = 38999 := rfl
  have h39000 : (39000 : Int32).toInt = 39000 := rfl
  rw [hadvertised]
  simp only [supportsCarrier, Bool.or_eq_true, beq_iff_eq, Bool.and_eq_true, decide_eq_true_eq,
    gt_iff_lt, ← Int32.toInt_inj, Int32.lt_iff_toInt_lt, Int32.le_iff_toInt_le, h36000, h37000,
    h37001, h38999, h39000]
  omega

theorem take_pulseCount_eq (pattern : List Int32) :
    pattern.take (pulseCount pattern) = pulseTrain pattern := by
  by_cases heven : pattern.length % 2 = 0
  · simp [pulseCount, hasTrailingSpace, pulseTrain, heven, List.dropLast_eq_take]
  · simp [pulseCount, hasTrailingSpace, pulseTrain, heven]

theorem length_pulseTrain (pattern : List Int32) :
    (pulseTrain pattern).length = pulseCount pattern := by
  rw [← take_pulseCount_eq, List.length_take, pulseCount]
  omega

/-- The pulse train of a pattern has an odd number of entries. -/
theorem pulseTrain_odd {pattern : List Int32} (hnonempty : pattern ≠ []) :
    (pulseTrain pattern).length % 2 = 1 := by
  have hpositive := List.length_pos_of_ne_nil hnonempty
  by_cases heven : pattern.length % 2 = 0
  · simp [pulseTrain, heven]
    omega
  · simp [pulseTrain, heven]
    omega

/-- The bound on the pulse train bounds the whole pattern. -/
theorem length_le_of_pulseCount {pattern : List Int32}
    (hentries : pulseCount pattern ≤ kLircBufferSize) : pattern.length ≤ 1025 := by
  unfold pulseCount kLircBufferSize at hentries
  split at hentries <;> omega

/-- What the checks behind the bound on the length decide. -/
theorem addEntries_accepts {pattern : List Int32}
    (hentries : pulseCount pattern ≤ kLircBufferSize) :
    (addEntries (pulseCount pattern) 0 0 0 pattern = none ∧ ∃ x ∈ pattern, x.toInt ≤ 0) ∨
      ∃ duration total, addEntries (pulseCount pattern) 0 0 0 pattern = some (duration, total) ∧
        (∀ x ∈ pattern, 0 < x.toInt) ∧
        (duration > kLircMaxDurationUs ↔ 500000 < micros (pulseTrain pattern)) ∧
        (total > kMaxTransmitDurationUs ↔ 2000000 < micros pattern) := by
  have hstart : Exact (pulseCount pattern) [] 0 0 := ⟨by simp, by simp⟩
  have hlength := length_le_of_pulseCount hentries
  rcases addEntries_exact pattern hstart (by simp) (by simpa using hlength) with
    hnone | ⟨duration, total, hsome, hpositive, hexact⟩
  · exact Or.inl hnone
  · refine Or.inr ⟨duration, total, hsome, hpositive, ?_, ?_⟩
    · have hduration : duration.toInt = micros (pulseTrain pattern) := by
        rw [← take_pulseCount_eq]
        exact hexact.duration
      have hlimit : kLircMaxDurationUs.toInt = 500000 := rfl
      rw [gt_iff_lt, Int64.lt_iff_toInt_lt, hduration, hlimit]
    · have htotal : total.toInt = micros pattern := hexact.total
      have hlimit : kMaxTransmitDurationUs.toInt = 2000000 := rfl
      rw [gt_iff_lt, Int64.lt_iff_toInt_lt, htotal, hlimit]

/-- The checks of the code accept exactly the valid commands. -/
theorem validate_iff (carrier : Int32) (pattern : List Int32) :
    validate carrier pattern = .ok () ↔ ValidRequest carrier pattern := by
  -- one case for each check, in the order of the source
  by_cases hcarrier : supportsCarrier carrier = true
  · by_cases hnil : pattern = []
    · refine ⟨?_, fun hvalid => absurd hnil hvalid.nonempty⟩
      intro hok
      exact absurd hnil (validate_nonempty hok)
    · by_cases hentries : pulseCount pattern > kLircBufferSize
      · refine ⟨?_, ?_⟩
        · intro hok
          simp [validate, hcarrier, hnil, hentries] at hok
        · intro hvalid
          have hlength := hvalid.entries
          rw [length_pulseTrain] at hlength
          exact absurd hlength (Nat.not_le_of_gt hentries)
      · have hentries' : pulseCount pattern ≤ kLircBufferSize := Nat.le_of_not_gt hentries
        rcases addEntries_accepts hentries' with
          ⟨hnone, x, hx, hnegative⟩ | ⟨duration, total, hsome, hpositive, hduration, htotal⟩
        · refine ⟨?_, ?_⟩
          · intro hok
            simp [validate, hcarrier, hnil, hentries, hnone] at hok
          · intro hvalid
            have hcontra := hvalid.positive x hx
            omega
        · have hbounded : validate carrier pattern = .ok () ↔
              ¬ (duration > kLircMaxDurationUs ∨ total > kMaxTransmitDurationUs) := by
            by_cases hlong : duration > kLircMaxDurationUs ∨ total > kMaxTransmitDurationUs
            · simp [validate, hcarrier, hnil, hentries, hsome, hlong]
            · simp [validate, hcarrier, hnil, hentries, hsome, hlong]
          rw [hbounded, hduration, htotal]
          refine ⟨?_, ?_⟩
          · intro hfits
            refine ⟨(supportsCarrier_iff carrier).1 hcarrier, hnil, hpositive, ?_, ?_, ?_⟩
            · rw [length_pulseTrain]
              exact hentries'
            · omega
            · omega
          · intro hvalid
            have hshort := hvalid.duration
            have hshort' := hvalid.total
            omega
  · refine ⟨?_, ?_⟩
    · intro hok
      simp [validate, hcarrier] at hok
    · intro hvalid
      exact absurd ((supportsCarrier_iff carrier).2 hvalid.carrier) hcarrier

/-! ## The gap -/

namespace Timespec

def nanoseconds (gap : Timespec) : Int := gap.sec.toInt * 1000000000 + gap.nsec.toInt

/-- What `nanosleep` requires of its argument. -/
def Valid (gap : Timespec) : Prop :=
  0 ≤ gap.sec.toInt ∧ 0 ≤ gap.nsec.toInt ∧ gap.nsec.toInt < 1000000000

end Timespec

/-- The `timespec` of a gap is valid and exact. -/
theorem gapTimespec_exact {microseconds : Int32} (hpositive : 0 ≤ microseconds.toInt) :
    (LircIo.gapTimespec microseconds).Valid ∧
      (LircIo.gapTimespec microseconds).nanoseconds = microseconds.toInt * 1000 := by
  have hmillion : (1000000 : Int32).toInt = 1000000 := rfl
  have hthousand : (1000 : Int64).toInt = 1000 := rfl
  -- division of nonnegative numbers truncates as the integers do
  have hsec : (LircIo.gapTimespec microseconds).sec.toInt = microseconds.toInt / 1000000 := by
    have hdiv := Int32.toInt_div_of_ne_right microseconds 1000000 (by decide)
    rw [hmillion, Int.tdiv_eq_ediv_of_nonneg hpositive] at hdiv
    simpa [LircIo.gapTimespec] using hdiv
  have hmod : (microseconds % 1000000).toInt64.toInt = microseconds.toInt % 1000000 := by
    rw [Int32.toInt_toInt64, Int32.toInt_mod, hmillion, Int.tmod_eq_emod_of_nonneg hpositive]
  have hnsec : (LircIo.gapTimespec microseconds).nsec.toInt =
      microseconds.toInt % 1000000 * 1000 := by
    have hexact : (microseconds.toInt % 1000000 * 1000).bmod (2 ^ 64) =
        microseconds.toInt % 1000000 * 1000 := Int.bmod_eq_of_le (by omega) (by omega)
    simp only [LircIo.gapTimespec]
    rw [Int64.toInt_mul, hmod, hthousand, hexact]
  refine ⟨⟨?_, ?_, ?_⟩, ?_⟩
  · rw [hsec]
    omega
  · rw [hnsec]
    omega
  · rw [hnsec]
    omega
  · rw [Timespec.nanoseconds, hsec, hnsec]
    omega

/-- What `nanosleep` documents about one call: it sleeps for as long as it was asked to, or it is
interrupted and leaves what is left, or it fails with an error number. -/
structure Nanosleep.Documented (request : Timespec) (nap : Nanosleep) : Prop where
  completed : ¬ nap.returned < 0 → request.nanoseconds ≤ nap.slept
  interrupted : nap.returned < 0 → nap.errno = EINTR →
    nap.gap.nanoseconds ≤ request.nanoseconds ∧
      request.nanoseconds - nap.gap.nanoseconds ≤ nap.slept
  failed : nap.returned < 0 → nap.errno ≠ 0

/-- The calls of `waitGap`: each is asked for what the one before it left. -/
def NapsDocumented : Timespec → List Nanosleep → Prop
  | _, [] => True
  | request, nap :: rest => nap.Documented request ∧ NapsDocumented nap.gap rest

theorem neg_ne_zero {errno : Int32} (h : errno ≠ 0) : -errno ≠ 0 := by
  intro hzero
  have hback := congrArg (fun x => -x) hzero
  exact h (by simpa using hback)

/-- However often it is interrupted, a wait that succeeds lasts for the whole gap. -/
theorem slept_whole {request : Timespec} {naps : List Nanosleep}
    (hdocumented : NapsDocumented request naps) (hzero : LircIo.waitGap naps = some 0) :
    request.nanoseconds ≤ LircIo.slept naps := by
  induction naps generalizing request with
  | nil => cases hzero
  | cons nap rest ih =>
      rcases hdocumented with ⟨hnap, hrest⟩
      -- induction on the system calls: what one leaves is the request of the next
      by_cases hreturned : nap.returned < 0
      · by_cases hinterrupted : nap.errno = EINTR
        · have hnext : LircIo.waitGap rest = some 0 := by
            simpa [LircIo.waitGap, hreturned, hinterrupted] using hzero
          have hleft := ih hrest hnext
          have hslept := (hnap.interrupted hreturned hinterrupted).2
          have htotal : LircIo.slept (nap :: rest) = nap.slept + LircIo.slept rest := by
            simp [LircIo.slept, hreturned, hinterrupted]
          omega
        · have herror : -nap.errno = 0 := by
            simpa [LircIo.waitGap, hreturned, hinterrupted] using hzero
          exact absurd herror (neg_ne_zero (hnap.failed hreturned))
      · have htotal : LircIo.slept (nap :: rest) = nap.slept := by
          simp [LircIo.slept, hreturned]
        rw [htotal]
        exact hnap.completed hreturned

/-! ## Acceptance -/

theorem opened_iff_validate (io : Io σ) (carrier : Int32) (pattern : List Int32) (s : σ) :
    (∃ fd, .openDevice fd ∈ (transmitLirc io carrier pattern ⟨s, []⟩).2.calls) ↔
      validate carrier pattern = .ok () := by
  rcases transmitLirc_cases io carrier pattern ⟨s, []⟩ with
    ⟨error, hinvalid, heq⟩ | ⟨hvalid, trace, hcalls, _, htrace⟩
  · simp [heq, hinvalid]
  · have hcalls' : (transmitLirc io carrier pattern ⟨s, []⟩).2.calls = trace := hcalls
    rw [hcalls']
    refine ⟨fun _ => hvalid, fun _ => ?_⟩
    cases htrace with
    | notOpened _ => exact ⟨_, List.mem_cons_self⟩
    | carrierRefused _ _ => exact ⟨_, List.mem_cons_self⟩
    | written _ _ _ => exact ⟨_, List.mem_cons_self⟩

/-- A call is only made for a valid command, in its transaction. -/
theorem transaction_of_call {io : Io σ} {carrier : Int32} {pattern : List Int32} {s : σ} {call : Call}
    (hcall : call ∈ (transmitLirc io carrier pattern ⟨s, []⟩).2.calls) :
    ValidRequest carrier pattern ∧
      Transaction carrier pattern (transmitLirc io carrier pattern ⟨s, []⟩).2.calls
        (transmitLirc io carrier pattern ⟨s, []⟩).1 := by
  rcases transmitLirc_cases io carrier pattern ⟨s, []⟩ with
    ⟨error, _, heq⟩ | ⟨hvalid, trace, hcalls, _, htrace⟩
  · simp [heq] at hcall
  · have hcalls' : (transmitLirc io carrier pattern ⟨s, []⟩).2.calls = trace := hcalls
    refine ⟨(validate_iff carrier pattern).1 hvalid, ?_⟩
    rw [hcalls']
    exact htrace

/-- The loop comes to each entry with exact sums, and adds it without overflow. -/
theorem added_exactly {pattern : List Int32} {k : Nat} {x : Int32} {duration total : Int64}
    (hentries : pulseCount pattern ≤ kLircBufferSize) (hk : pattern[k]? = some x)
    (htaken : addEntries (pulseCount pattern) 0 0 0 (pattern.take k) = some (duration, total)) :
    addEntries (pulseCount pattern) 0 0 0 pattern =
        addEntries (pulseCount pattern) k duration total (pattern.drop k) ∧
      (0 < x.toInt →
        (total + x.toInt64).toInt = total.toInt + x.toInt ∧
        (k < pulseCount pattern → (duration + x.toInt64).toInt = duration.toInt + x.toInt)) := by
  have hlength := length_le_of_pulseCount hentries
  rcases accumulated hlength htaken with ⟨hpositive, hexact, hloop⟩
  have hkl := (List.getElem?_eq_some_iff.1 hk).1
  have htake : (pattern.take k).length = k := by
    simp
    omega
  rw [htake] at hloop
  refine ⟨hloop, ?_⟩
  intro hx
  have hpositive' : ∀ y ∈ pattern.take k ++ [x], 0 < y.toInt := by
    intro y hy
    rcases List.mem_append.1 hy with hy | hy
    · exact hpositive y hy
    · have hyx : y = x := by simpa using hy
      rw [hyx]
      exact hx
  -- entry `k` is still within the bound that was checked before the loop
  have hshort : (pattern.take k ++ [x]).length ≤ 1025 := by
    rw [List.length_append, htake]
    simp
    omega
  refine ⟨toInt_add_entry hexact.total hpositive' hshort, ?_⟩
  intro hpulse
  have hduration := hexact.duration
  rw [List.take_of_length_le (by omega)] at hduration
  exact toInt_add_entry hduration hpositive' hshort

/-- **Acceptance.**  A command reaches the device exactly if it is valid, and then an odd number of
entries, at most 1023, is written.  No addition of the loop overflows, whatever the pattern.  The
gap that is waited is turned into a valid and exact `timespec`, and a wait that succeeds lasts for
the whole of it. -/
theorem accepts_exactly_valid (io : Io σ) (carrier : Int32) (pattern : List Int32) (s : σ) :
    ((∃ fd, .openDevice fd ∈ (transmitLirc io carrier pattern ⟨s, []⟩).2.calls) ↔
      ValidRequest carrier pattern) ∧
    (∀ fd data bytes written,
      .write fd data bytes written ∈ (transmitLirc io carrier pattern ⟨s, []⟩).2.calls →
      data.take (bytes / 4) = pulseTrain pattern ∧ (pulseTrain pattern).length % 2 = 1 ∧
        (pulseTrain pattern).length ≤ 1023) ∧
    (∀ k x duration total, pulseCount pattern ≤ kLircBufferSize → pattern[k]? = some x →
      addEntries (pulseCount pattern) 0 0 0 (pattern.take k) = some (duration, total) →
      addEntries (pulseCount pattern) 0 0 0 pattern =
          addEntries (pulseCount pattern) k duration total (pattern.drop k) ∧
        (0 < x.toInt →
          (total + x.toInt64).toInt = total.toInt + x.toInt ∧
          (k < pulseCount pattern →
            (duration + x.toInt64).toInt = duration.toInt + x.toInt))) ∧
    (∀ microseconds waited,
      .waitGap microseconds waited ∈ (transmitLirc io carrier pattern ⟨s, []⟩).2.calls →
      (LircIo.gapTimespec microseconds).Valid ∧
        (LircIo.gapTimespec microseconds).nanoseconds = microseconds.toInt * 1000 ∧
        ∀ naps, NapsDocumented (LircIo.gapTimespec microseconds) naps →
          LircIo.waitGap naps = some 0 → microseconds.toInt * 1000 ≤ LircIo.slept naps) := by
  refine ⟨?_, ?_, fun _ _ _ _ => added_exactly, ?_⟩
  · rw [opened_iff_validate, validate_iff]
  · intro fd data bytes written hwrite
    rcases transaction_of_call hwrite with ⟨hrequest, htrace⟩
    rcases htrace.write_pulses hwrite with ⟨rfl, rfl, _⟩
    have hodd := pulseTrain_odd hrequest.nonempty
    have hentries := hrequest.entries
    refine ⟨?_, hodd, by omega⟩
    rw [pulseBytes_div, take_pulseCount_eq]
  · intro microseconds waited hwait
    rcases transaction_of_call hwait with ⟨hrequest, htrace⟩
    -- the gap is an entry of a valid pattern, and so it is positive
    rcases htrace.waitGap_space hwait with ⟨_, rfl, _⟩
    have hlast : pattern.getLastD 0 ∈ pattern := by
      rw [List.getLastD_eq_getLast?, List.getLast?_eq_some_getLast hrequest.nonempty]
      exact List.getLast_mem hrequest.nonempty
    have hpositive := hrequest.positive _ hlast
    rcases gapTimespec_exact (Int.le_of_lt hpositive) with ⟨hvalidGap, hexact⟩
    refine ⟨hvalidGap, hexact, ?_⟩
    intro naps hdocumented hzero
    rw [← hexact]
    exact slept_whole hdocumented hzero

/-- A gap of 1.5 s, interrupted once after 1 s, on the device that takes everything. -/
theorem accepts_exactly_valid_willing :
    1500000 * 1000 ≤
      LircIo.slept [⟨-1, EINTR, ⟨0, 500000000⟩, 1000000000⟩, ⟨0, 0, ⟨0, 0⟩, 500000100⟩] := by
  have haccepts := accepts_exactly_valid willingIo 38000 [600, 1500000] ()
  have hwait : .waitGap 1500000 0 ∈
      (transmitLirc willingIo 38000 [600, 1500000] ⟨(), []⟩).2.calls := by decide
  refine (haccepts.2.2.2 1500000 0 hwait).2.2 _ ⟨⟨?_, ?_, ?_⟩, ⟨?_, ?_, ?_⟩, trivial⟩ (by decide)
  · decide
  · decide
  · decide
  · decide
  · decide
  · decide

end Ir
end M2391Device
