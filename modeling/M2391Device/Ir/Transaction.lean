import M2391Device.Ir.Transmit

/-!
# Transaction — the order of the calls to the LIRC device

`Transaction carrier pattern trace result` is what an infrared command may do to the device: it
either does not get the device, or it closes it last, and in between it goes through the carrier,
the one write and the trailing gap in this order, up to the first failure.  `transmitLirc` makes no
call at all or goes through one such transaction (`transmitLirc_cases`); everything else is read off
the six kinds of transaction.
-/

namespace M2391Device
namespace Ir

universe u

variable {σ : Type u}

/-! ## The abstract transaction -/

namespace Call

/-- The place of an operation in a transaction. -/
def rank : Call → Nat
  | .openDevice _ => 0
  | .setCarrier _ _ _ => 1
  | .write _ _ _ _ => 2
  | .waitGap _ _ => 3
  | .close _ => 4

/-- The durations that a call hands on: the entries that its bytes cover, or the gap. -/
def sent : Call → List Int32
  | .write _ data bytes _ => data.take (bytes / 4)
  | .waitGap microseconds _ => [microseconds]
  | _ => []

end Call

/-- The bytes of the pulse train. -/
def pulseBytes (pattern : List Int32) : Nat := pulseCount pattern * 4

/-- What follows the write that returned `written`, and the result of the command. -/
inductive AfterWrite (pattern : List Int32) (written : Int64) : List Call → Int32 → Prop where
  | failed : written < 0 → AfterWrite pattern written [] written.toInt32
  | cutShort : ¬ written < 0 → written.toInt ≠ pulseBytes pattern →
      AfterWrite pattern written [] (- EIO)
  | sent : written.toInt = pulseBytes pattern → hasTrailingSpace pattern = false →
      AfterWrite pattern written [] 0
  | waited {waited : Int32} : written.toInt = pulseBytes pattern →
      hasTrailingSpace pattern = true →
      AfterWrite pattern written [.waitGap (pattern.getLastD 0) waited] waited

inductive Transaction (carrier : Int32) (pattern : List Int32) : List Call → Int32 → Prop where
  | notOpened {fd : Int32} : fd < 0 →
      Transaction carrier pattern [.openDevice fd] fd
  | carrierRefused {fd result : Int32} : ¬ fd < 0 → result < 0 →
      Transaction carrier pattern
        [.openDevice fd, .setCarrier fd carrier result, .close fd] result
  | written {fd accepted result : Int32} {written : Int64} {rest : List Call} : ¬ fd < 0 →
      ¬ accepted < 0 → AfterWrite pattern written rest result →
      Transaction carrier pattern
        (.openDevice fd :: .setCarrier fd carrier accepted ::
          .write fd pattern (pulseBytes pattern) written :: (rest ++ [.close fd])) result

/-! ## The code goes through a transaction -/

namespace Device

variable (io : Io σ) (d : Device σ)

theorem openDevice_calls :
    (d.openDevice io).2.calls = d.calls ++ [.openDevice (d.openDevice io).1] := rfl

theorem setCarrier_calls (fd carrier : Int32) :
    (d.setCarrier io fd carrier).2.calls =
      d.calls ++ [.setCarrier fd carrier (d.setCarrier io fd carrier).1] := rfl

theorem write_calls (fd : Int32) (data : List Int32) (bytes : Nat) :
    (d.write io fd data bytes).2.calls =
      d.calls ++ [.write fd data bytes (d.write io fd data bytes).1] := rfl

theorem waitGap_calls (microseconds : Int32) :
    (d.waitGap io microseconds).2.calls =
      d.calls ++ [.waitGap microseconds (d.waitGap io microseconds).1] := rfl

theorem close_calls (fd : Int32) : (d.close io fd).calls = d.calls ++ [.close fd] := rfl

end Device

/-- The write of the trace returned what the `Io` object answered. -/
def WriteAnswered (io : Io σ) (trace : List Call) : Prop :=
  ∀ fd data bytes written, .write fd data bytes written ∈ trace →
    ∃ s, (io.write fd data bytes s).1 = written

/-- What the body of `transmitLirc` does behind a successful `open`. -/
theorem transaction_cases (io : Io σ) (carrier : Int32) (pattern : List Int32) {fd : Int32}
    (d : Device σ) (hfd : ¬ fd < 0) :
    ∃ trace, (transaction io carrier pattern fd d).2.calls = d.calls ++ trace ∧
      WriteAnswered io trace ∧
      Transaction carrier pattern (.openDevice fd :: (trace ++ [.close fd]))
        (transaction io carrier pattern fd d).1 := by
  rcases hset : d.setCarrier io fd carrier with ⟨result, d₁⟩
  have hcalls₁ : d₁.calls = d.calls ++ [.setCarrier fd carrier result] := by
    have hcalls := d.setCarrier_calls io fd carrier
    rwa [hset] at hcalls
  rcases hwrite : d₁.write io fd pattern (pulseBytes pattern) with ⟨written, d₂⟩
  have hcalls₂ : d₂.calls = d.calls ++
      [.setCarrier fd carrier result, .write fd pattern (pulseBytes pattern) written] := by
    have hcalls := d₁.write_calls io fd pattern (pulseBytes pattern)
    rw [hwrite, hcalls₁, List.append_assoc] at hcalls
    exact hcalls
  have hanswer : (io.write fd pattern (pulseBytes pattern) d₁.state).1 = written :=
    congrArg Prod.fst hwrite
  have hanswered : ∀ rest, (∀ x ∈ rest, x.rank = 3) →
      WriteAnswered io (.setCarrier fd carrier result ::
        .write fd pattern (pulseBytes pattern) written :: rest) := by
    intro rest hrest fd' data bytes written' hmem
    have hcases : (fd' = fd ∧ data = pattern ∧ bytes = pulseBytes pattern ∧ written' = written) ∨
        .write fd' data bytes written' ∈ rest := by simpa using hmem
    rcases hcases with ⟨rfl, rfl, rfl, rfl⟩ | hlater
    · exact ⟨d₁.state, hanswer⟩
    · have hcontra := hrest _ hlater
      cases hcontra
  have hbytes : pulseCount pattern * 4 = pulseBytes pattern := rfl
  simp only [transaction, hset, hbytes, hwrite]
  -- the early returns of the source, one by one
  by_cases hresult : result < 0
  · rw [if_pos hresult]
    refine ⟨_, hcalls₁, ?_, Transaction.carrierRefused hfd hresult⟩
    intro fd' data bytes written' hmem
    simp at hmem
  · rw [if_neg hresult]
    by_cases hfailed : written < 0
    · rw [if_pos hfailed]
      exact ⟨_, hcalls₂, hanswered [] (by simp),
        Transaction.written hfd hresult (AfterWrite.failed hfailed)⟩
    · rw [if_neg hfailed]
      by_cases hfull : written.toInt = pulseBytes pattern
      · rw [if_neg (not_not_intro hfull)]
        cases hspace : hasTrailingSpace pattern with
        | true =>
            have hcalls := d₂.waitGap_calls io (pattern.getLastD 0)
            rw [hcalls₂, List.append_assoc] at hcalls
            exact ⟨_, hcalls, hanswered [_] (by simp [Call.rank]),
              Transaction.written hfd hresult (AfterWrite.waited hfull hspace)⟩
        | false =>
            exact ⟨_, hcalls₂, hanswered [] (by simp),
              Transaction.written hfd hresult (AfterWrite.sent hfull hspace)⟩
      -- a short write is an error and is not resumed
      · rw [if_pos hfull]
        exact ⟨_, hcalls₂, hanswered [] (by simp),
          Transaction.written hfd hresult (AfterWrite.cutShort hfailed hfull)⟩

/-- A rejected command makes no call; any other is one transaction. -/
theorem transmitLirc_cases (io : Io σ) (carrier : Int32) (pattern : List Int32) (d : Device σ) :
    (∃ error, validate carrier pattern = .error error ∧
        transmitLirc io carrier pattern d = (error, d)) ∨
      (validate carrier pattern = .ok () ∧
        ∃ trace, (transmitLirc io carrier pattern d).2.calls = d.calls ++ trace ∧
          WriteAnswered io trace ∧
          Transaction carrier pattern trace (transmitLirc io carrier pattern d).1) := by
  cases hvalid : validate carrier pattern with
  | error error => exact Or.inl ⟨error, rfl, by simp [transmitLirc, hvalid]⟩
  | ok _ =>
      refine Or.inr ⟨rfl, ?_⟩
      rcases hopen : d.openDevice io with ⟨fd, d₁⟩
      have hcalls₁ : d₁.calls = d.calls ++ [.openDevice fd] := by
        have hcalls := d.openDevice_calls io
        rwa [hopen] at hcalls
      -- without a descriptor there is nothing to close
      by_cases hfd : fd < 0
      · simp only [transmitLirc, hvalid, hopen, hfd, if_true]
        refine ⟨_, hcalls₁, ?_, Transaction.notOpened hfd⟩
        intro fd' data bytes written hmem
        simp at hmem
      · rcases transaction_cases io carrier pattern d₁ hfd with
          ⟨trace, hcalls, hanswered, htrace⟩
        simp only [transmitLirc, hvalid, hopen, hfd, if_false]
        refine ⟨.openDevice fd :: (trace ++ [.close fd]), ?_, ?_, htrace⟩
        · rw [Device.close_calls, hcalls, hcalls₁]
          simp
        · intro fd' data bytes written hmem
          have hmem' : .write fd' data bytes written ∈ trace := by simpa using hmem
          exact hanswered fd' data bytes written hmem'

/-! ## What a transaction guarantees -/

theorem pulseBytes_div (pattern : List Int32) : pulseBytes pattern / 4 = pulseCount pattern := by
  simp [pulseBytes]

/-- The pulse train and the trailing gap are the whole pattern. -/
theorem take_pulseCount_append {pattern : List Int32} (hspace : hasTrailingSpace pattern = true)
    (hnonempty : pattern ≠ []) :
    pattern.take (pulseCount pattern) ++ [pattern.getLastD 0] = pattern := by
  have hlast : pattern.getLastD 0 = pattern.getLast hnonempty := by
    simp [List.getLastD_eq_getLast?, List.getLast?_eq_some_getLast hnonempty]
  have htake : pattern.take (pulseCount pattern) = pattern.dropLast := by
    simp [pulseCount, hspace, List.dropLast_eq_take]
  rw [hlast, htake]
  exact List.dropLast_append_getLast hnonempty

theorem take_pulseCount {pattern : List Int32} (hspace : hasTrailingSpace pattern = false) :
    pattern.take (pulseCount pattern) = pattern := by
  simp [pulseCount, hspace]

/-- What "`Io` returns negative errno on failure" means for `write`, whose result is narrowed. -/
def Io.ReportsErrno (io : Io σ) : Prop :=
  ∀ fd data bytes s, (io.write fd data bytes s).1 < 0 → -4095 ≤ (io.write fd data bytes s).1.toInt

/-- The service's own `write` keeps to that: what it reports is an error number of the kernel. -/
theorem LircIo.write_reportsErrno {outcome : Except Int32 Int64}
    (herror : ∀ errno, outcome = .error errno → 0 < errno.toInt ∧ errno.toInt ≤ 4095)
    (hwritten : ∀ n, outcome = .ok n → ¬ n < 0) (hneg : LircIo.write outcome < 0) :
    -4095 ≤ (LircIo.write outcome).toInt := by
  cases outcome with
  | ok n => exact absurd hneg (hwritten n rfl)
  | error errno =>
      rcases herror errno rfl with ⟨hlow, hhigh⟩
      have hbmod : (-errno.toInt).bmod (2 ^ 32) = -errno.toInt :=
        Int.bmod_eq_of_le (by omega) (by omega)
      have hvalue : (LircIo.write (.error errno)).toInt = -errno.toInt := by
        rw [LircIo.write, Int32.toInt_toInt64, Int32.toInt_neg, hbmod]
      omega

namespace Transaction

variable {carrier : Int32} {pattern : List Int32} {trace : List Call} {result : Int32}

/-- Each operation happens at most once, in the order of the ranks. -/
theorem ordered (h : Transaction carrier pattern trace result) :
    trace.Pairwise (fun a b => a.rank < b.rank) := by
  cases h with
  | notOpened _ => simp
  | carrierRefused _ _ => simp [Call.rank]
  | written _ _ hafter => cases hafter <;> simp [Call.rank]

/-- A descriptor that was obtained is closed by the last call. -/
theorem closed_last (h : Transaction carrier pattern trace result) {fd : Int32} (hfd : ¬ fd < 0)
    (hopen : .openDevice fd ∈ trace) : trace.getLast? = some (.close fd) := by
  cases h with
  | notOpened hneg =>
      have heq : fd = result := by simpa using hopen
      rw [heq] at hfd
      exact absurd hneg hfd
  | carrierRefused _ _ =>
      have heq := by simpa using hopen
      simp [heq]
  | @written fd' _ _ _ rest _ _ hafter =>
      have heq : fd = fd' := by
        cases hafter <;> simpa using hopen
      cases hafter <;> simp [heq]

/-- The one write is that of the pulse train, on the descriptor whose carrier was set before. -/
theorem write_pulses (h : Transaction carrier pattern trace result) {fd : Int32}
    {data : List Int32} {bytes : Nat} {written : Int64}
    (hwrite : .write fd data bytes written ∈ trace) :
    data = pattern ∧ bytes = pulseBytes pattern ∧
      ∃ accepted, ¬ accepted < 0 ∧ .setCarrier fd carrier accepted ∈ trace := by
  cases h with
  | notOpened _ => simp at hwrite
  | carrierRefused _ _ => simp at hwrite
  | @written fd' accepted _ written' rest _ haccepted hafter =>
      have heq : fd = fd' ∧ data = pattern ∧ bytes = pulseBytes pattern ∧ written = written' := by
        cases hafter <;> simpa using hwrite
      rcases heq with ⟨rfl, rfl, rfl, rfl⟩
      exact ⟨rfl, rfl, accepted, haccepted, by simp⟩

/-- The gap is that of a pattern that ends with a space, after a full write. -/
theorem waitGap_space (h : Transaction carrier pattern trace result)
    {microseconds waited : Int32} (hwait : .waitGap microseconds waited ∈ trace) :
    hasTrailingSpace pattern = true ∧ microseconds = pattern.getLastD 0 ∧
      ∃ (fd : Int32) (written : Int64), written.toInt = pulseBytes pattern ∧
        .write fd pattern (pulseBytes pattern) written ∈ trace := by
  cases h with
  | notOpened _ => simp at hwait
  | carrierRefused _ _ => simp at hwait
  | @written fd _ _ written rest _ _ hafter =>
      cases hafter with
      | failed _ => simp at hwait
      | cutShort _ _ => simp at hwait
      | sent _ _ => simp at hwait
      | waited hfull hspace =>
          have heq : microseconds = pattern.getLastD 0 ∧ waited = result := by simpa using hwait
          exact ⟨hspace, heq.1, fd, written, hfull, by simp⟩

/-- The gap of a pattern that ends with a space, waited in full. -/
def gapCalls (pattern : List Int32) : List Call :=
  if hasTrailingSpace pattern then [.waitGap (pattern.getLastD 0) 0] else []

/-- The calls of a command that went through. -/
def completed (carrier : Int32) (pattern : List Int32) (fd accepted : Int32) (written : Int64) :
    List Call :=
  .openDevice fd :: .setCarrier fd carrier accepted ::
    .write fd pattern (pulseBytes pattern) written :: (gapCalls pattern ++ [.close fd])

theorem toInt32_ne_zero {n : Int64} (hneg : n < 0) (herrno : -4095 ≤ n.toInt) : n.toInt32 ≠ 0 := by
  intro hzero
  have hcast := congrArg Int32.toInt hzero
  have hneg' : n.toInt < 0 := by simpa using Int64.lt_iff_toInt_lt.1 hneg
  -- an error number survives the narrowing to 32 bits
  have hbmod : n.toInt.bmod (2 ^ 32) = n.toInt := Int.bmod_eq_of_le (by omega) (by omega)
  rw [Int64.toInt_toInt32, hbmod] at hcast
  have hzero' : (0 : Int32).toInt = 0 := rfl
  omega

theorem afterWrite_eq_zero {written : Int64} {rest : List Call}
    (h : AfterWrite pattern written rest result)
    (herrno : written < 0 → -4095 ≤ written.toInt) :
    result = 0 ↔ written.toInt = pulseBytes pattern ∧ rest = gapCalls pattern := by
  cases h with
  | failed hneg =>
      have hneg' : written.toInt < 0 := by simpa using Int64.lt_iff_toInt_lt.1 hneg
      refine ⟨fun hzero => absurd hzero (toInt32_ne_zero hneg (herrno hneg)), ?_⟩
      rintro ⟨hfull, _⟩
      omega
  | cutShort _ hshort =>
      refine ⟨fun hzero => absurd hzero (by decide), ?_⟩
      rintro ⟨hfull, _⟩
      exact absurd hfull hshort
  | sent hfull hspace => simp [hfull, gapCalls, hspace]
  | waited hfull hspace => simp [hfull, gapCalls, hspace]

/-- A transaction reports success exactly if it went through. -/
theorem result_eq_zero (h : Transaction carrier pattern trace result)
    (herrno : ∀ fd data bytes (n : Int64), .write fd data bytes n ∈ trace → n < 0 →
      -4095 ≤ n.toInt) :
    result = 0 ↔
      ∃ (fd accepted : Int32) (written : Int64), ¬ fd < 0 ∧ ¬ accepted < 0 ∧
        written.toInt = pulseBytes pattern ∧
        trace = completed carrier pattern fd accepted written := by
  cases h with
  | notOpened hneg =>
      refine ⟨?_, ?_⟩
      · intro hzero
        rw [hzero] at hneg
        exact absurd hneg (by decide)
      · rintro ⟨fd, accepted, written, _, _, _, htrace⟩
        simp [completed] at htrace
  | carrierRefused _ hneg =>
      refine ⟨?_, ?_⟩
      · intro hzero
        rw [hzero] at hneg
        exact absurd hneg (by decide)
      · rintro ⟨fd, accepted, written, _, _, _, htrace⟩
        simp [completed] at htrace
  | @written fd accepted _ written rest hfd haccepted hafter =>
      have hzero := afterWrite_eq_zero hafter
        (herrno fd pattern (pulseBytes pattern) written (by simp))
      rw [hzero]
      refine ⟨?_, ?_⟩
      · rintro ⟨hfull, rfl⟩
        exact ⟨fd, accepted, written, hfd, haccepted, hfull, rfl⟩
      · rintro ⟨fd', accepted', written', _, _, hfull, htrace⟩
        -- the trace determines its own descriptor, carrier result and write
        rcases List.cons.inj htrace with ⟨hopen, htrace⟩
        rcases List.cons.inj htrace with ⟨_, htrace⟩
        rcases List.cons.inj htrace with ⟨hwrite, hrest⟩
        cases hopen
        cases hwrite
        exact ⟨hfull, List.append_cancel_right hrest⟩

/-- What a command that went through handed on is the whole pattern. -/
theorem completed_sent (hnonempty : pattern ≠ []) (fd accepted : Int32) (written : Int64) :
    (completed carrier pattern fd accepted written).flatMap Call.sent = pattern := by
  cases hspace : hasTrailingSpace pattern with
  | true =>
      have hpattern := take_pulseCount_append hspace hnonempty
      simpa [completed, gapCalls, hspace, Call.sent, pulseBytes_div] using hpattern
  | false =>
      have hpattern := take_pulseCount hspace
      simpa [completed, gapCalls, hspace, Call.sent, pulseBytes_div] using hpattern

end Transaction

/-! ## All or nothing -/

theorem validate_nonempty {carrier : Int32} {pattern : List Int32}
    (hvalid : validate carrier pattern = .ok ()) : pattern ≠ [] := by
  intro hnil
  cases hcarrier : supportsCarrier carrier <;> simp [validate, hcarrier, hnil] at hvalid

theorem validate_error {carrier : Int32} {pattern : List Int32} {error : Int32}
    (hinvalid : validate carrier pattern = .error error) : error = -EOPNOTSUPP ∨ error = -EINVAL := by
  unfold validate at hinvalid
  split at hinvalid
  · exact Or.inl (Except.error.inj hinvalid).symm
  · refine Or.inr ?_
    split at hinvalid
    · exact (Except.error.inj hinvalid).symm
    · split at hinvalid
      · exact (Except.error.inj hinvalid).symm
      · split at hinvalid
        · exact (Except.error.inj hinvalid).symm
        · split at hinvalid
          · exact (Except.error.inj hinvalid).symm
          · cases hinvalid

/-- **All or nothing.**  Whatever the `Io` object answers, `transmitLirc` makes each call at most
once and in the order open, carrier, write, gap, close; it opens only a valid command, closes every
descriptor it gets with its last call, writes the pulse train in one write after the carrier was
accepted, and waits the trailing gap only after a full write.  It returns 0 exactly if all of it
went through, and then the pulse train and the gap are the pattern. -/
theorem transmit_all_or_nothing (io : Io σ) (hio : io.ReportsErrno) (carrier : Int32)
    (pattern : List Int32) (s : σ) :
    ((transmitLirc io carrier pattern ⟨s, []⟩).2.calls.Pairwise (fun a b => a.rank < b.rank)) ∧
    (∀ x ∈ (transmitLirc io carrier pattern ⟨s, []⟩).2.calls, validate carrier pattern = .ok ()) ∧
    (∀ fd, ¬ fd < 0 → .openDevice fd ∈ (transmitLirc io carrier pattern ⟨s, []⟩).2.calls →
      (transmitLirc io carrier pattern ⟨s, []⟩).2.calls.getLast? = some (.close fd)) ∧
    (∀ fd data bytes written,
      .write fd data bytes written ∈ (transmitLirc io carrier pattern ⟨s, []⟩).2.calls →
      data.take (bytes / 4) = pattern.take (pulseCount pattern) ∧ bytes = 4 * pulseCount pattern ∧
        ∃ accepted, ¬ accepted < 0 ∧
          .setCarrier fd carrier accepted ∈ (transmitLirc io carrier pattern ⟨s, []⟩).2.calls) ∧
    (∀ microseconds waited,
      .waitGap microseconds waited ∈ (transmitLirc io carrier pattern ⟨s, []⟩).2.calls →
      pattern.length % 2 = 0 ∧ pattern.getLast? = some microseconds ∧
        ∃ (fd : Int32) (written : Int64), written.toInt = (4 * pulseCount pattern : Nat) ∧
          .write fd pattern (4 * pulseCount pattern) written ∈
            (transmitLirc io carrier pattern ⟨s, []⟩).2.calls) ∧
    ((transmitLirc io carrier pattern ⟨s, []⟩).1 = 0 →
      (transmitLirc io carrier pattern ⟨s, []⟩).2.calls.flatMap Call.sent = pattern) ∧
    ((transmitLirc io carrier pattern ⟨s, []⟩).1 = 0 ↔
      validate carrier pattern = .ok () ∧
        ∃ (fd accepted : Int32) (written : Int64), ¬ fd < 0 ∧ ¬ accepted < 0 ∧
          written.toInt = (4 * pulseCount pattern : Nat) ∧
          (transmitLirc io carrier pattern ⟨s, []⟩).2.calls =
            Transaction.completed carrier pattern fd accepted written) := by
  have hbytes : 4 * pulseCount pattern = pulseBytes pattern := Nat.mul_comm 4 _
  rcases transmitLirc_cases io carrier pattern ⟨s, []⟩ with
    ⟨error, hinvalid, heq⟩ | ⟨hvalid, trace, hcalls, hanswered, htrace⟩
  · have hnonzero : error ≠ 0 := by
      rcases validate_error hinvalid with rfl | rfl <;> decide
    simp [heq, hinvalid, hnonzero]
  · have hcalls' : (transmitLirc io carrier pattern ⟨s, []⟩).2.calls = trace := hcalls
    have hnonempty := validate_nonempty hvalid
    -- a failed write returns an `errno`, which is no short count
    have herrno : ∀ fd data bytes (n : Int64), .write fd data bytes n ∈ trace → n < 0 →
        -4095 ≤ n.toInt := by
      intro fd data bytes n hwrite hneg
      rcases hanswered fd data bytes n hwrite with ⟨s', rfl⟩
      exact hio fd data bytes s' hneg
    have hzero := htrace.result_eq_zero herrno
    rw [hcalls', hbytes]
    refine ⟨htrace.ordered, fun _ _ => hvalid, fun fd hfd hopen => htrace.closed_last hfd hopen,
      ?_, ?_, ?_, ?_⟩
    · intro fd data bytes written hwrite
      rcases htrace.write_pulses hwrite with ⟨rfl, rfl, hset⟩
      exact ⟨by rw [pulseBytes_div], rfl, hset⟩
    · intro microseconds waited hwait
      rcases htrace.waitGap_space hwait with ⟨hspace, rfl, hwrite⟩
      refine ⟨by simpa [hasTrailingSpace] using hspace, ?_, hwrite⟩
      rw [List.getLastD_eq_getLast?, List.getLast?_eq_some_getLast hnonempty]
      rfl
    · intro hresult
      rcases hzero.1 hresult with ⟨fd, accepted, written, _, _, _, rfl⟩
      exact Transaction.completed_sent hnonempty fd accepted written
    · rw [hzero]
      exact ⟨fun h => ⟨hvalid, h⟩, fun h => h.2⟩

/-- A device that takes everything that fits its buffer. -/
def willingIo : Io Unit where
  openDevice _ := (3, ())
  setCarrier _ _ _ := (0, ())
  write _ _ bytes _ := (Int64.ofNat (min bytes 4096), ())
  waitGap _ _ := (0, ())
  close _ _ := ()

theorem willingIo_reportsErrno : willingIo.ReportsErrno := by
  intro fd data bytes s _
  have hsmall : min bytes 4096 < 2 ^ 63 := by omega
  have hvalue : (willingIo.write fd data bytes s).1.toInt = (min bytes 4096 : Nat) :=
    Int64.toInt_ofNat_of_lt hsmall
  omega

theorem transmit_all_or_nothing_willing :
    (transmitLirc willingIo 38000 [600, 500, 600, 900] ⟨(), []⟩).2.calls.flatMap Call.sent =
      [600, 500, 600, 900] := by
  have hall := transmit_all_or_nothing willingIo willingIo_reportsErrno 38000
    [600, 500, 600, 900] ()
  exact hall.2.2.2.2.2.1 (by decide)

end Ir
end M2391Device
