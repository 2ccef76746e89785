import M2391Device.Ir.Acceptance
import M2391Device.Ir.Service

/-!
# Gaps — the trailing off interval on the clock

`LircIo` of `ir/service.cpp` over system calls, some of which are made again when a signal interrupts
them.  After a complete pulse train the thread sleeps the trailing off interval out while it holds the
mutex.  However the threads are interleaved, and however often the sleep is interrupted, nobody gets at
the device before the interval is over (`gaps_kept`).
-/

namespace M2391Device
namespace Ir

open Program Locks Transition

universe u v

/-! ## System calls -/

/-- The system calls of `LircIo`, and the return of a call to its caller. -/
inductive Syscall
  | openDevice
  | ioctl (fd carrier : Int32)
  | write (fd : Int32) (data : List Int32) (bytes : Nat)
  | nanosleep (gap : Timespec)
  | close (fd : Int32)
  | reply (status : Status)
  deriving DecidableEq

/-- An error is a negative result with this `errno`; a sleep leaves with it what is left. -/
abbrev SysRes : Syscall → Type
  | .openDevice => Except Int32 Int32
  | .ioctl _ _ => Except Int32 Int32
  | .write _ _ _ => Except Int32 Int64
  | .nanosleep _ => Except (Int32 × Timespec) Unit
  | .close _ => Unit
  | .reply _ => Unit

namespace LircCalls

/-- A thread that fails is one that is interrupted for longer than it is looked at. -/
abbrev Body (α : Type) := Program Syscall SysRes Unit α

abbrev Thread (α : Type) := Locks.Thread SysRes Unit Empty Unit α

/-- `do { … } while (result < 0 && errno == EINTR)` -/
def retryInterrupted {α : Type} (attempt : Body (Except Int32 α)) : Nat → Body (Except Int32 α)
  | 0 => .throw ()
  | n + 1 => do
      match ← attempt with
      | .ok value => return .ok value
      | .error errno => if errno = EINTR then retryInterrupted attempt n else return .error errno

def openDevice (n : Nat) : Body Int32 := do
  match ← retryInterrupted (Program.call Syscall.openDevice) n with
  | .ok fd => return fd
  | .error errno => return -errno

def setCarrier (n : Nat) (fd carrier : Int32) : Body Int32 := do
  match ← retryInterrupted (Program.call (Syscall.ioctl fd carrier)) n with
  | .ok _ => return 0
  | .error errno => return -errno

/-- An interrupted waveform is never retried. -/
def write (fd : Int32) (data : List Int32) (bytes : Nat) : Body Int64 := do
  match ← (Program.call (Syscall.write fd data bytes) : Body (Except Int32 Int64)) with
  | .ok written => return written
  | .error errno => return (-errno).toInt64

/-- `while (nanosleep(&gap, &gap) < 0)` -/
def sleep : Nat → Timespec → Body Int32
  | 0, _ => .throw ()
  | n + 1, gap => do
      match ← (Program.call (Syscall.nanosleep gap) : Body (Except (Int32 × Timespec) Unit)) with
      | .ok _ => return 0
      | .error (errno, rest) => if errno ≠ EINTR then return -errno else sleep n rest

def waitGap (n : Nat) (microseconds : Int32) : Body Int32 := sleep n (LircIo.gapTimespec microseconds)

/-- The methods of the class. -/
def method (n : Nat) : (o : ServiceOp) → Body (ServiceRes o)
  | .openDevice => openDevice n
  | .setCarrier fd carrier => setCarrier n fd carrier
  | .write fd data bytes => write fd data bytes
  | .waitGap microseconds => waitGap n microseconds
  | .close fd => Program.call (Syscall.close fd)
  | .reply status => Program.call (Syscall.reply status)

/-- `transmitLirc` with `LircIo` for its template parameter. -/
def transmitLirc (n : Nat) (x : Request) : Body Int32 :=
  (ConsumerIr.transmitLirc x).interpret (method n) Empty.elim

def reply (result : Int32) : Thread Unit :=
  .perform (.op (.reply (statusOf result))) fun _ => .pure ()

/-- `ConsumerIr::transmit(carrier, pattern)` -/
def transmit (n : Nat) (x : Request) : Thread Unit :=
  withLock () (lift (transmitLirc n x)) >>= reply

end LircCalls

/-! ## The clock -/

/-- What is below the system calls, with its clock in nanoseconds.  A sleep lasts for as long as it was
asked to, or leaves what is left of it; of a valid request it has no other complaint. -/
structure Kernel (σ : Type u) where
  step : (o : Syscall) → σ → SysRes o × σ
  clock : σ → Int
  monotone : ∀ o s, clock s ≤ clock (step o s).2
  slept : ∀ gap s, gap.Valid → (step (.nanosleep gap) s).1 = .ok () →
    clock s + gap.nanoseconds ≤ clock (step (.nanosleep gap) s).2
  interrupted : ∀ gap s errno rest, gap.Valid → (step (.nanosleep gap) s).1 = .error (errno, rest) →
    errno = EINTR ∧ rest.Valid ∧
      clock s + gap.nanoseconds ≤ clock (step (.nanosleep gap) s).2 + rest.nanoseconds

/-- A system call with its answer, and when it was made and answered. -/
structure Stamp where
  call : Answered Syscall SysRes
  began : Int
  ended : Int

/-- The off interval that is due after a system call: a complete pulse train has one. -/
def Stamp.gap (x : Stamp) : Int :=
  match x.call with
  | ⟨.write _ data bytes, .ok written⟩ =>
      if written.toInt = bytes ∧ hasTrailingSpace data then (data.getLastD 0).toInt * 1000 else 0
  | _ => 0

def Stamp.sleeps (x : Stamp) : Bool :=
  match x.call.1 with
  | .nanosleep _ => true
  | _ => false

structure Timeline (σ : Type u) where
  kernel : σ
  log : List Stamp

section Clock

variable {σ : Type u} (K : Kernel σ)

def Kernel.stamp (o : Syscall) (s : Timeline σ) : SysRes o × Timeline σ :=
  ((K.step o s.kernel).1,
    ⟨(K.step o s.kernel).2,
      s.log ++ [⟨⟨o, (K.step o s.kernel).1⟩, K.clock s.kernel, K.clock (K.step o s.kernel).2⟩]⟩)

def Kernel.perform : (o : Syscall) → Timeline σ → SysRes o × Timeline σ
  | .reply _, s => ((), s)
  | o, s => K.stamp o s

def Kernel.machine : Machine Syscall SysRes Empty (Timeline σ) where
  step := K.perform
  holds := nofun

/-- Anything but the service may happen to the device, and takes its time. -/
def Kernel.Elapsed (s t : Timeline σ) : Prop := t.log = s.log ∧ K.clock s.kernel ≤ K.clock t.kernel

def Syscall.isReply : Syscall → Bool
  | .reply _ => true
  | _ => false

/-- No system call but a sleep is made before the intervals of those before it are over. -/
def Spaced (log : List Stamp) : Prop :=
  log.Pairwise fun x y => y.sleeps = false → x.ended + x.gap ≤ y.began

/-- All intervals are over within this time from now. -/
def Kernel.Owes (gap : Int) (s : Timeline σ) : Prop :=
  ∀ x ∈ s.log, x.ended + x.gap ≤ K.clock s.kernel + gap

/-! ## What is owed -/

section Owed

variable {K} {s t : Timeline σ} {o : Syscall} {due rest : Int} {α β : Type}

theorem elapsed_of_steps (h : Relation.ReflTransGen K.Elapsed s t) : K.Elapsed s t := by
  induction h with
  | refl => exact ⟨rfl, le_rfl⟩
  | tail _ hx ih => exact ⟨hx.1.trans ih.1, ih.2.trans hx.2⟩

theorem Kernel.Owes.elapsed (h : K.Owes due s) (ht : K.Elapsed s t) : K.Owes due t := by
  intro x hx
  rw [ht.1] at hx
  have hdue := h x hx
  have hclock := ht.2
  omega

theorem Kernel.Owes.mono (h : K.Owes due s) (hle : due ≤ rest) : K.Owes rest s := by
  intro x hx
  have hdue := h x hx
  omega

/-- The stamp of a system call. -/
def Kernel.stampOf (K : Kernel σ) (o : Syscall) (s : Timeline σ) : Stamp :=
  ⟨⟨o, (K.step o s.kernel).1⟩, K.clock s.kernel, K.clock (K.step o s.kernel).2⟩

/-- A system call, made when nothing is due or to sleep. -/
theorem Kernel.Owes.stamp (hspaced : Spaced s.log) (h : K.Owes due s)
    (hready : due = 0 ∨ (K.stampOf o s).sleeps = true)
    (hclock : K.clock s.kernel + due ≤ K.clock (K.step o s.kernel).2 + rest)
    (hgap : (K.stampOf o s).gap ≤ rest) :
    Spaced (K.stamp o s).2.log ∧ K.Owes rest (K.stamp o s).2 := by
  constructor
  · refine List.pairwise_append.2 ⟨hspaced, List.pairwise_singleton _ _, ?_⟩
    intro x hx y hy hawake
    rw [List.mem_singleton.1 hy] at hawake ⊢
    -- only a sleep may begin before everything is over
    rcases hready with rfl | hsleeps
    · have hdue := h x hx
      change x.ended + x.gap ≤ K.clock s.kernel
      omega
    · cases hsleeps.symm.trans hawake
  · intro x hx
    rcases List.mem_append.1 hx with hx | hx
    · have hdue := h x hx
      change x.ended + x.gap ≤ K.clock (K.step o s.kernel).2 + rest
      omega
    · rw [List.mem_singleton.1 hx]
      exact Int.add_le_add_left hgap _

/-- A program of system calls, however it is interrupted. -/
abbrev Kernel.Meets (K : Kernel σ) (x : LircCalls.Body α) (Q : α → Timeline σ → Prop) (s : Timeline σ) :
    Prop :=
  Program.Meets (answersAfter K.machine K.Elapsed) (fun s => Spaced s.log) Q (fun _ _ => True) x s

theorem meets_call (ho : o.isReply = false) (hspaced : Spaced s.log) {Q : SysRes o → Timeline σ → Prop}
    (h : ∀ t, K.Elapsed s t → Spaced (K.stamp o t).2.log ∧ Q (K.stamp o t).1 (K.stamp o t).2) :
    K.Meets (Program.call o) Q s := by
  refine ⟨hspaced, ?_⟩
  rintro r s' ⟨t, hsteps, rfl, rfl⟩
  have hperform : K.machine.step o t = K.stamp o t := by
    cases o with
    | reply status => cases ho
    | _ => rfl
  rw [hperform]
  exact h t (elapsed_of_steps hsteps)

/-- A system call that has nothing due after it. -/
theorem meets_quiet (ho : o.isReply = false) (hquiet : ∀ t, (K.stampOf o t).gap = 0)
    (hspaced : Spaced s.log) (h : K.Owes 0 s) : K.Meets (Program.call o) (fun _ t => K.Owes 0 t) s := by
  refine meets_call ho hspaced fun t ht => ?_
  have hlog : Spaced t.log := ht.1 ▸ hspaced
  refine (h.elapsed ht).stamp hlog (Or.inl rfl) ?_ (le_of_eq (hquiet t))
  have hmonotone := K.monotone o t.kernel
  omega

end Owed

/-! ## The methods -/

section Methods

variable {K} {s : Timeline σ} {n : Nat} {α : Type}

theorem meets_retryInterrupted {attempt : LircCalls.Body (Except Int32 α)}
    (hattempt : ∀ t, Spaced t.log → K.Owes 0 t → K.Meets attempt (fun _ t => K.Owes 0 t) t)
    (hspaced : Spaced s.log) (h : K.Owes 0 s) :
    K.Meets (LircCalls.retryInterrupted attempt n) (fun _ t => K.Owes 0 t) s := by
  induction n generalizing s with
  | zero => exact ⟨hspaced, trivial⟩
  | succ n ih =>
      refine Meets.seq (hattempt s hspaced h) fun answer t ht hdue => ?_
      cases answer with
      | ok value => exact ⟨ht, hdue⟩
      | error errno => exact Meets.ite (fun _ => ih ht hdue) fun _ => ⟨ht, hdue⟩

theorem meets_openDevice (hspaced : Spaced s.log) (h : K.Owes 0 s) :
    K.Meets (LircCalls.openDevice n) (fun _ t => K.Owes 0 t) s := by
  have hattempt : ∀ t, Spaced t.log → K.Owes 0 t →
      K.Meets (Program.call Syscall.openDevice) (fun _ t => K.Owes 0 t) t :=
    fun t ht hdue => meets_quiet rfl (fun _ => rfl) ht hdue
  refine Meets.seq (meets_retryInterrupted hattempt hspaced h) fun answer t ht hdue => ?_
  cases answer with
  | ok fd => exact ⟨ht, hdue⟩
  | error errno => exact ⟨ht, hdue⟩

theorem meets_setCarrier {fd carrier : Int32} (hspaced : Spaced s.log) (h : K.Owes 0 s) :
    K.Meets (LircCalls.setCarrier n fd carrier) (fun _ t => K.Owes 0 t) s := by
  have hattempt : ∀ t, Spaced t.log → K.Owes 0 t →
      K.Meets (Program.call (Syscall.ioctl fd carrier)) (fun _ t => K.Owes 0 t) t :=
    fun t ht hdue => meets_quiet rfl (fun _ => rfl) ht hdue
  refine Meets.seq (meets_retryInterrupted hattempt hspaced h) fun answer t ht hdue => ?_
  cases answer with
  | ok result => exact ⟨ht, hdue⟩
  | error errno => exact ⟨ht, hdue⟩

/-- The interval that is due after a write, by what it returned. -/
def dueAfter (data : List Int32) (bytes : Nat) (written : Int64) : Int :=
  if written.toInt = bytes ∧ hasTrailingSpace data then (data.getLastD 0).toInt * 1000 else 0

theorem dueAfter_nonneg {data : List Int32} (hlast : 0 ≤ (data.getLastD 0).toInt) (bytes : Nat)
    (written : Int64) : 0 ≤ dueAfter data bytes written := by
  rw [dueAfter]
  split
  · omega
  · exact le_rfl

/-- The same, by the answer of the system call. -/
def dueAnswered (data : List Int32) (bytes : Nat) : Except Int32 Int64 → Int
  | .ok written => dueAfter data bytes written
  | .error _ => 0

theorem meets_write {fd : Int32} {data : List Int32} {bytes : Nat}
    (hlast : 0 ≤ (data.getLastD 0).toInt) (hspaced : Spaced s.log) (h : K.Owes 0 s) :
    K.Meets (LircCalls.write fd data bytes)
      (fun written t => K.Owes (dueAfter data bytes written) t) s := by
  have hnonneg : ∀ answer, 0 ≤ dueAnswered data bytes answer := by
    intro answer
    cases answer with
    | ok written => exact dueAfter_nonneg hlast bytes written
    | error errno => exact le_rfl
  have hcall : K.Meets (Program.call (Syscall.write fd data bytes))
      (fun answer t => K.Owes (dueAnswered data bytes answer) t) s := by
    refine meets_call rfl hspaced fun t ht => ?_
    have hlog : Spaced t.log := ht.1 ▸ hspaced
    have hmonotone := K.monotone (.write fd data bytes) t.kernel
    have hdue := hnonneg (K.stamp (.write fd data bytes) t).1
    have hgap : (K.stampOf (.write fd data bytes) t).gap =
        dueAnswered data bytes (K.stamp (.write fd data bytes) t).1 := by
      rw [Kernel.stampOf, Kernel.stamp]
      cases (K.step (.write fd data bytes) t.kernel).1 with
      | ok written => rfl
      | error errno => rfl
    exact (h.elapsed ht).stamp hlog (Or.inl rfl) (by omega) (le_of_eq hgap)
  refine Meets.seq hcall fun answer t ht howes => ?_
  cases answer with
  | ok written => exact ⟨ht, howes⟩
  | error errno => exact ⟨ht, howes.mono (dueAfter_nonneg hlast bytes _)⟩

/-- What is due is slept out, in as many pieces as it takes. -/
theorem meets_sleep {gap : Timespec} (hvalid : gap.Valid) (hspaced : Spaced s.log)
    (h : K.Owes gap.nanoseconds s) : K.Meets (LircCalls.sleep n gap) (fun _ t => K.Owes 0 t) s := by
  induction n generalizing s gap with
  | zero => exact ⟨hspaced, trivial⟩
  | succ n ih =>
      have hcall : K.Meets (Program.call (Syscall.nanosleep gap)) (fun answer t =>
          (∀ u, answer = .ok u → K.Owes 0 t) ∧ ∀ errno rest, answer = .error (errno, rest) →
            errno = EINTR ∧ rest.Valid ∧ K.Owes rest.nanoseconds t) s := by
        refine meets_call rfl hspaced fun t ht => ?_
        have hlog : Spaced t.log := ht.1 ▸ hspaced
        have hmonotone := K.monotone (.nanosleep gap) t.kernel
        have hstamp : ∀ rest : Int, K.clock t.kernel + gap.nanoseconds ≤
            K.clock (K.step (.nanosleep gap) t.kernel).2 + rest → 0 ≤ rest →
              Spaced (K.stamp (.nanosleep gap) t).2.log ∧ K.Owes rest (K.stamp (.nanosleep gap) t).2 :=
          fun rest hclock hrest => (h.elapsed ht).stamp hlog (Or.inr rfl) hclock hrest
        cases hanswer : (K.step (.nanosleep gap) t.kernel).1 with
        | ok u =>
            have hslept := K.slept gap t.kernel hvalid hanswer
            rcases hstamp 0 (by omega) le_rfl with ⟨hspaced', howes⟩
            refine ⟨hspaced', fun _ _ => howes, fun errno rest herror => ?_⟩
            cases hanswer.symm.trans herror
        | error e =>
            rcases e with ⟨errno, rest⟩
            rcases K.interrupted gap t.kernel errno rest hvalid hanswer with ⟨herrno, hrest, hleft⟩
            have hnonneg : 0 ≤ rest.nanoseconds := by
              rcases hrest with ⟨hsec, hnsec, _⟩
              rw [Timespec.nanoseconds]
              omega
            rcases hstamp _ hleft hnonneg with ⟨hspaced', howes⟩
            refine ⟨hspaced', fun u hok => ?_, fun errno' rest' herror => ?_⟩
            · cases hanswer.symm.trans hok
            · cases hanswer.symm.trans herror
              exact ⟨herrno, hrest, howes⟩
      refine Meets.seq hcall fun answer t ht hafter => ?_
      cases answer with
      | ok u => exact ⟨ht, hafter.1 u rfl⟩
      | error e =>
          rcases e with ⟨errno, rest⟩
          rcases hafter.2 errno rest rfl with ⟨herrno, hrest, howes⟩
          -- what an interruption leaves is what is due from now on
          exact Meets.ite (fun hother => absurd herrno hother) fun _ => ih hrest ht howes

/-- A pulse train that is not complete has no interval. -/
theorem dueAfter_incomplete {data : List Int32} {bytes : Nat} {written : Int64}
    (h : written.toInt ≠ bytes) : dueAfter data bytes written = 0 := if_neg fun hfull => h hfull.1

theorem meets_transaction {carrier fd : Int32} {pattern : List Int32}
    (hlast : 0 ≤ (pattern.getLastD 0).toInt) (hspaced : Spaced s.log) (h : K.Owes 0 s) :
    K.Meets ((ConsumerIr.transaction carrier pattern fd).interpret (LircCalls.method n) Empty.elim)
      (fun _ t => K.Owes 0 t) s := by
  rw [ConsumerIr.transaction, interpret_bind, interpret_call]
  refine Meets.seq (meets_setCarrier hspaced h) fun result t ht howes => ?_
  by_cases hresult : result < 0
  · rw [if_pos hresult]
    exact ⟨ht, howes⟩
  rw [if_neg hresult]
  simp only
  rw [interpret_bind, interpret_call]
  refine Meets.seq (meets_write hlast ht howes) fun written t ht howes => ?_
  -- a write that failed, or was short, has no interval: nothing is slept out and nothing is due
  by_cases hfailed : written < 0
  · have hnegative : written.toInt < 0 := Int64.lt_iff_toInt_lt.1 hfailed
    rw [dueAfter_incomplete (by omega)] at howes
    rw [if_pos hfailed]
    exact ⟨ht, howes⟩
  rw [if_neg hfailed]
  by_cases hshort : written.toInt ≠ (pulseCount pattern * 4 : Nat)
  · rw [dueAfter_incomplete hshort] at howes
    rw [if_pos hshort]
    exact ⟨ht, howes⟩
  rw [if_neg hshort]
  have hfull : written.toInt = (pulseCount pattern * 4 : Nat) := not_not.1 hshort
  cases hspace : hasTrailingSpace pattern with
  | false =>
      rw [dueAfter, if_neg fun hdue => by cases hspace.symm.trans hdue.2] at howes
      exact ⟨ht, howes⟩
  | true =>
      rcases gapTimespec_exact hlast with ⟨hvalid, hexact⟩
      rw [dueAfter, if_pos ⟨hfull, hspace⟩, ← hexact] at howes
      -- what is due is what `waitGap` is called with
      change K.Meets ((Program.call (ServiceOp.waitGap (pattern.getLastD 0)) :
        ConsumerIr.Body Int32).interpret (LircCalls.method n) Empty.elim) (fun _ t => K.Owes 0 t) t
      rw [interpret_call]
      exact meets_sleep hvalid ht howes

theorem meets_transmitLirc {x : Request} (hspaced : Spaced s.log) (h : K.Owes 0 s) :
    K.Meets (LircCalls.transmitLirc n x) (fun _ t => K.Owes 0 t) s := by
  rw [LircCalls.transmitLirc, ConsumerIr.transmitLirc]
  cases hvalidate : validate x.carrier x.pattern with
  | error result => exact ⟨hspaced, h⟩
  | ok _ =>
      -- the durations of a valid request are positive, the last one as well
      have hlast : 0 ≤ (x.pattern.getLastD 0).toInt := by
        have hrequest := (validate_iff x.carrier x.pattern).1 hvalidate
        have hmem : x.pattern.getLastD 0 ∈ x.pattern := by
          rw [List.getLastD_eq_getLast?, List.getLast?_eq_some_getLast hrequest.nonempty]
          exact List.getLast_mem hrequest.nonempty
        exact Int.le_of_lt (hrequest.positive _ hmem)
      simp only
      rw [interpret_bind, interpret_call]
      refine Meets.seq (meets_openDevice hspaced h) fun fd t ht howes => ?_
      by_cases hfd : fd < 0
      · rw [if_pos hfd]
        exact ⟨ht, howes⟩
      rw [if_neg hfd, interpret_bind]
      refine Meets.seq (meets_transaction hlast ht howes) fun result t ht howes => ?_
      rw [interpret_bind, interpret_call]
      exact Meets.seq (meets_quiet rfl (fun _ => rfl) ht howes) fun _ t ht howes => ⟨ht, howes⟩

end Methods

/-! ## Threads -/

section Threads

variable {K} {ι : Type v} [DecidableEq ι] {s t : Timeline σ} {n : Nat} {α : Type}

/-- A thread may start any call. -/
def LircCalls.Starts (_ : ι) (p : LircCalls.Thread Unit) : Prop :=
  ∃ n x, p = LircCalls.transmit n x

abbrev Kernel.Interleaves (K : Kernel σ) :
    Locks.State SysRes Unit Empty Unit (Timeline σ) ι → Locks.Event SysRes Unit Empty Unit ι →
      Locks.State SysRes Unit Empty Unit (Timeline σ) ι → Prop :=
  Locks.Step K.machine LircCalls.Starts K.Elapsed

theorem retryInterrupted_locked {attempt : LircCalls.Body (Except Int32 α)}
    (hattempt : attempt.Performs fun o => o.isReply = false) :
    (LircCalls.retryInterrupted attempt n).Performs fun o => o.isReply = false := by
  induction n with
  | zero => exact trivial
  | succ n ih =>
      refine Performs.bind hattempt fun answer => ?_
      cases answer with
      | ok value => exact trivial
      | error errno => exact Performs.ite (fun _ => ih) fun _ => trivial

theorem sleep_locked {gap : Timespec} :
    (LircCalls.sleep n gap).Performs fun o => o.isReply = false := by
  induction n generalizing gap with
  | zero => exact trivial
  | succ n ih =>
      refine Performs.bind (Performs.call_iff.2 rfl) fun answer => ?_
      cases answer with
      | ok u => exact trivial
      | error e => exact Performs.ite (fun _ => trivial) fun _ => ih

/-- The methods are system calls, all but the reply. -/
theorem method_locked (o : ServiceOp) (ho : o.isReply = false) :
    (LircCalls.method n o).Performs fun o => o.isReply = false := by
  cases o with
  | openDevice =>
      refine Performs.bind (retryInterrupted_locked (Performs.call_iff.2 rfl)) fun answer => ?_
      cases answer with
      | ok fd => exact trivial
      | error errno => exact trivial
  | setCarrier fd carrier =>
      refine Performs.bind (retryInterrupted_locked (Performs.call_iff.2 rfl)) fun answer => ?_
      cases answer with
      | ok result => exact trivial
      | error errno => exact trivial
  | write fd data bytes =>
      refine Performs.bind (Performs.call_iff.2 rfl) fun answer => ?_
      cases answer with
      | ok written => exact trivial
      | error errno => exact trivial
  | waitGap microseconds => exact sleep_locked
  | close fd => exact ⟨rfl, fun _ => trivial⟩
  | reply status => cases ho

/-- The device is used under the lock, and the reply comes after it. -/
theorem LircCalls.transmit_sectioned (x : Request) :
    Sectioned Syscall.isReply () false (LircCalls.transmit n x) false := by
  have hlocked : (LircCalls.transmitLirc n x).Performs fun o => o.isReply = false :=
    (transmitLirc_locked x).interpret method_locked
  exact Sectioned.bind (Sectioned.withLock (Sectioned.lift hlocked)) fun _ => ⟨rfl, fun _ => rfl⟩

theorem Kernel.reply_apart (K : Kernel σ) : K.machine.Apart Syscall.isReply := by
  intro o ho s t
  cases o with
  | reply status => exact ⟨rfl, rfl⟩
  | _ => cases ho

/-- While nobody has the lock, nothing is due, and every thread is before its call, after it, or
between its transaction and its return. -/
structure Settled (K : Kernel σ) (c : Serial SysRes Unit Empty Unit (Timeline σ) ι) : Prop where
  spaced : Spaced c.shared.log
  owes : K.Owes 0 c.shared
  code : ∀ i, c.code i = .pure () ∨ (∃ n x, c.code i = LircCalls.transmit n x) ∨
    ∃ result, c.code i = LircCalls.reply result

omit [DecidableEq ι] in
/-- A thread that takes the lock starts a transaction, and keeps the intervals up to where it is. -/
theorem Settled.within {c : Serial SysRes Unit Empty Unit (Timeline σ) ι} {i : ι}
    {p q : LircCalls.Thread Unit} {ops : List (Answered Syscall SysRes)} (h : Settled K c)
    (henters : Enters K.machine () c.shared (c.code i) p)
    (hwithin : Within K.machine K.Elapsed p c.shared ops q t) :
    ∃ (y : LircCalls.Body Int32) (t₀ : Timeline σ),
      q = (lift y >>= fun result => .perform (.unlock ()) fun _ => LircCalls.reply result) ∧
        K.Elapsed t₀ t ∧ K.Meets y (fun _ t => K.Owes 0 t) t₀ := by
  rcases h.code i with hcode | ⟨n, x, hcode⟩ | ⟨result, hcode⟩
  · rw [hcode] at henters
    cases henters
  · rw [hcode, LircCalls.transmit, withLock_bind] at henters
    cases henters
    have hk : ∀ (result : Int32) (o : Syscall) (next : SysRes o → LircCalls.Thread Unit),
        (Program.perform (Instr.unlock ()) fun _ => LircCalls.reply result) ≠ .perform (.op o) next :=
      fun _ _ _ => nofun
    rcases hwithin.meets hk (meets_transmitLirc h.spaced h.owes) with ⟨y, t₀, hy, hsteps, hmeets⟩
    exact ⟨y, t₀, hy, elapsed_of_steps hsteps, hmeets⟩
  · rw [hcode] at henters
    cases henters

theorem Settled.step {c c' : Serial SysRes Unit Empty Unit (Timeline σ) ι}
    {mv : Move SysRes Unit Empty Unit ι} (h : Settled K c)
    (hstep : Serially K.machine LircCalls.Starts K.Elapsed Syscall.isReply () c mv c') :
    Settled K c' := by
  cases hstep with
  | @start i p hcode hp =>
      refine ⟨h.spaced, h.owes, fun j => ?_⟩
      rcases hp with ⟨n, x, rfl⟩
      by_cases hj : j = i
      · subst hj
        exact Or.inr (Or.inl ⟨n, x, Function.update_self _ _ _⟩)
      · simpa only [Function.update_of_ne hj] using h.code j
  | @stretch i p q q' ops t henters hwithin hleaves hops =>
      rcases h.within henters hwithin with ⟨y, t₀, rfl, helapsed, hmeets⟩
      -- the lock is left at the end of the transaction and nowhere before
      cases y with
      | pure result =>
          cases hleaves
          rcases hmeets with ⟨hspaced, howes⟩
          refine ⟨helapsed.1 ▸ hspaced, howes.elapsed helapsed, fun j => ?_⟩
          by_cases hj : j = i
          · subst hj
            exact Or.inr (Or.inr ⟨result, Function.update_self _ _ _⟩)
          · simpa only [Function.update_of_ne hj] using h.code j
      | throw e => cases hleaves
      | perform o next => cases hleaves
  | @apart i o next hcode hfree =>
      refine ⟨h.spaced, h.owes, fun j => ?_⟩
      by_cases hj : j = i
      · subst hj
        rcases h.code j with hp | ⟨n, x, hp⟩ | ⟨result, hp⟩
        · cases hp.symm.trans hcode
        · cases hp.symm.trans hcode
        · cases hp.symm.trans hcode
          exact Or.inl (Function.update_self _ _ _)
      · simpa only [Function.update_of_ne hj] using h.code j
  | environment hx =>
      exact ⟨hx.1 ▸ h.spaced, h.owes.elapsed hx, h.code⟩

/-- However the calls are interleaved and interrupted, the device is left alone until the off interval of
every complete pulse train is over, and by the time the mutex is free all of them are. -/
theorem gaps_kept {k : σ} {h : List (Locks.Event SysRes Unit Empty Unit ι)}
    {s : Locks.State SysRes Unit Empty Unit (Timeline σ) ι}
    (hrun : Run K.Interleaves (.idle ⟨k, []⟩) h s) :
    Spaced s.shared.log ∧ (s.owner () = none → K.Owes 0 s.shared) := by
  have hstarts : ∀ (i : ι) (p : LircCalls.Thread Unit), LircCalls.Starts i p →
      Sectioned Syscall.isReply () false p false := by
    rintro i p ⟨n, x, rfl⟩
    exact LircCalls.transmit_sectioned x
  have hstart : Settled K (Serial.idle ⟨k, []⟩ : Serial SysRes Unit Empty Unit (Timeline σ) ι) :=
    ⟨List.Pairwise.nil, fun x hx => absurd hx List.not_mem_nil, fun i => Or.inl rfl⟩
  -- nothing is to be told of the moves but where they lead
  have hkeep : ∀ (past : List (ι × Deed SysRes Unit Empty Unit)) (g : List Unit)
      (c : Serial SysRes Unit Empty Unit (Timeline σ) ι) (mv : Move SysRes Unit Empty Unit ι)
      (c' : Serial SysRes Unit Empty Unit (Timeline σ) ι), Settled K c →
      Serially K.machine LircCalls.Starts K.Elapsed Syscall.isReply () c mv c' →
      ∃ _ : List Unit, Settled K c' := fun _ _ _ _ _ hc hstep => ⟨[], hc.step hstep⟩
  rcases serial (fun _ _ c => Settled K c) K.reply_apart hstarts hstart hkeep hrun with
    ⟨_, ⟨past, c, hsettled, hb⟩, _⟩
  cases hb with
  | level _ hshared =>
      rw [← hshared]
      exact ⟨hsettled.spaced, fun _ => hsettled.owes⟩
  | within hown _ henters hwithin =>
      -- in the middle of a transaction something may be due, but then the mutex is not free
      rcases hsettled.within henters hwithin with ⟨y, t₀, _, helapsed, hmeets⟩
      refine ⟨helapsed.1 ▸ hmeets.now, fun hfree => ?_⟩
      cases hfree.symm.trans hown

end Threads

end Clock

/-- A clock, and whether a signal is about to interrupt the next sleep. -/
def signalled : Kernel (Int × Bool) where
  step
    | .openDevice, s => (.ok 3, (s.1 + 20000, s.2))
    | .ioctl _ _, s => (.ok 0, (s.1 + 5000, s.2))
    | .write _ _ bytes, s => (.ok (Int64.ofNat bytes), (s.1 + 600000, s.2))
    | .nanosleep gap, (now, true) => (.error (EINTR, gap), (now, false))
    | .nanosleep gap, (now, false) => (.ok (), (now + max 0 gap.nanoseconds, false))
    | .close _, s => ((), s)
    | .reply _, s => ((), s)
  clock := Prod.fst
  monotone := by
    intro o s
    rcases s with ⟨now, signal⟩
    cases o with
    | nanosleep gap =>
        cases signal with
        | true => exact le_rfl
        | false => exact Int.le_add_of_nonneg_right (le_max_left 0 _)
    | openDevice => exact Int.le_add_of_nonneg_right (by decide)
    | ioctl fd carrier => exact Int.le_add_of_nonneg_right (by decide)
    | write fd data bytes => exact Int.le_add_of_nonneg_right (by decide)
    | close fd => exact le_rfl
    | reply status => exact le_rfl
  slept := by
    intro gap s hvalid hslept
    rcases s with ⟨now, signal⟩
    cases signal with
    | true => cases hslept
    | false => exact Int.add_le_add_left (le_max_right 0 _) now
  interrupted := by
    intro gap s errno rest hvalid herror
    rcases s with ⟨now, signal⟩
    cases signal with
    | true =>
        cases herror
        exact ⟨rfl, hvalid, le_rfl⟩
    | false => cases herror

/-- A sleep is interrupted, and another call waits for the mutex meanwhile. -/
theorem gaps_kept_signalled : ∃ h, ∃ s : Locks.State SysRes Unit Empty Unit (Timeline (Int × Bool)) Bool,
    Run signalled.Interleaves (.idle ⟨(0, true), []⟩) h s ∧
      s.shared.log.map (fun x => (x.began, x.ended, x.gap)) =
        [(0, 20000, 0), (20000, 25000, 0), (25000, 625000, 500000), (625000, 625000, 0),
          (625000, 1125000, 0), (1125000, 1125000, 0), (1125000, 1145000, 0)] ∧ Spaced s.shared.log := by
  have hrun : ∃ h, ∃ s : Locks.State SysRes Unit Empty Unit (Timeline (Int × Bool)) Bool,
      Run signalled.Interleaves (.idle ⟨(0, true), []⟩) h s ∧
        s.shared.log.map (fun x => (x.began, x.ended, x.gap)) =
          [(0, 20000, 0), (20000, 25000, 0), (25000, 625000, 500000), (625000, 625000, 0),
            (625000, 1125000, 0), (1125000, 1125000, 0), (1125000, 1145000, 0)] := by
    refine ⟨_, _, Run.snoc _ (Run.snoc _ (Run.snoc _ (Run.snoc _ (Run.snoc _ (Run.snoc _ (Run.snoc _
      (Run.snoc _ (Run.snoc _ (Run.snoc _ (Run.snoc _ (Run.snoc _ Run.nil
      (.start (i := false) rfl ⟨2, ⟨38000, [600, 500]⟩, rfl⟩))
      (.start (i := true) rfl ⟨2, ⟨36000, [900]⟩, rfl⟩)) (.lock (i := false) rfl rfl))
      (.op (i := false) rfl)) (.op (i := false) rfl)) (.op (i := false) rfl)) (.op (i := false) rfl))
      (.op (i := false) rfl)) (.op (i := false) rfl)) (.unlock (i := false) rfl rfl))
      (.lock (i := true) rfl rfl)) (.op (i := true) rfl), by decide⟩
  rcases hrun with ⟨h, s, hrun, hlog⟩
  exact ⟨h, s, hrun, hlog, (gaps_kept hrun).1⟩

end Ir
end M2391Device
