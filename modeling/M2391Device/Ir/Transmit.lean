import Mathlib.Data.List.Basic

/-!
# Transmit — one infrared command as a LIRC transaction

A shallow embedding of `ir/Transmit.h` and of the classes in `ir/service.cpp` that call it.
Machine integers are those of the source: 32-bit carriers and durations, 64-bit accumulators that
wrap.  The `Io` object is arbitrary and has a state of its own; every call made to it is recorded
with what it returned, so that statements can speak about the order of the calls.
-/

namespace M2391Device
namespace Ir

universe u

/-! ## Constants -/

def kLircBufferSize : Nat := 1024
def kLircMaxDurationUs : Int64 := 500000
def kMaxTransmitDurationUs : Int64 := 2000000

/-- The error numbers that the source names. -/
def EINTR : Int32 := 4
def EIO : Int32 := 5
def EINVAL : Int32 := 22
def EOPNOTSUPP : Int32 := 95

/-! ## Validation -/

/-- The two carrier settings implemented by `pwm_ir`. -/
def supportsCarrier (carrier : Int32) : Bool :=
  carrier == 36000 || (decide (carrier > 37000) && decide (carrier < 39000))

/-- The loop over the pattern from index `i` on, with its accumulators `duration` and `total`;
`none` is the early return at an entry that is not positive. -/
def addEntries (pulses : Nat) : Nat → Int64 → Int64 → List Int32 → Option (Int64 × Int64)
  | _, duration, total, [] => some (duration, total)
  | i, duration, total, x :: rest =>
      if x ≤ 0 then none
      else
        addEntries pulses (i + 1) (if i < pulses then duration + x.toInt64 else duration)
          (total + x.toInt64) rest

def hasTrailingSpace (pattern : List Int32) : Bool := pattern.length % 2 == 0

/-- The number of entries that are written: all but a trailing space. -/
def pulseCount (pattern : List Int32) : Nat :=
  pattern.length - (if hasTrailingSpace pattern then 1 else 0)

/-- The checks of `transmitLirc` before its first call to the `Io` object. -/
def validate (carrier : Int32) (pattern : List Int32) : Except Int32 Unit :=
  if supportsCarrier carrier = false then .error (-EOPNOTSUPP)
  else if pattern = [] then .error (-EINVAL)
  else if pulseCount pattern > kLircBufferSize then .error (-EINVAL)
  else
    match addEntries (pulseCount pattern) 0 0 0 pattern with
    | none => .error (-EINVAL)
    | some (duration, total) =>
        if duration > kLircMaxDurationUs ∨ total > kMaxTransmitDurationUs then .error (-EINVAL)
        else .ok ()

/-! ## The transaction -/

/-- The operations of the `Io` template parameter. -/
structure Io (σ : Type u) where
  openDevice : σ → Int32 × σ
  setCarrier : Int32 → Int32 → σ → Int32 × σ
  /-- `write(fd, data, bytes)`; the pointer gives access to all of `data`. -/
  write : Int32 → List Int32 → Nat → σ → Int64 × σ
  waitGap : Int32 → σ → Int32 × σ
  close : Int32 → σ → σ

/-- A call to the `Io` object with its arguments and what it returned. -/
inductive Call
  | openDevice (returned : Int32)
  | setCarrier (fd carrier returned : Int32)
  | write (fd : Int32) (data : List Int32) (bytes : Nat) (returned : Int64)
  | waitGap (microseconds returned : Int32)
  | close (fd : Int32)
  deriving DecidableEq

/-- The state of the `Io` object, and the calls made so far, oldest first. -/
structure Device (σ : Type u) where
  state : σ
  calls : List Call

namespace Device

variable {σ : Type u} (io : Io σ) (d : Device σ)

def openDevice : Int32 × Device σ :=
  let answer := io.openDevice d.state
  (answer.1, ⟨answer.2, d.calls ++ [.openDevice answer.1]⟩)

def setCarrier (fd carrier : Int32) : Int32 × Device σ :=
  let answer := io.setCarrier fd carrier d.state
  (answer.1, ⟨answer.2, d.calls ++ [.setCarrier fd carrier answer.1]⟩)

def write (fd : Int32) (data : List Int32) (bytes : Nat) : Int64 × Device σ :=
  let answer := io.write fd data bytes d.state
  (answer.1, ⟨answer.2, d.calls ++ [.write fd data bytes answer.1]⟩)

def waitGap (microseconds : Int32) : Int32 × Device σ :=
  let answer := io.waitGap microseconds d.state
  (answer.1, ⟨answer.2, d.calls ++ [.waitGap microseconds answer.1]⟩)

def close (fd : Int32) : Device σ :=
  ⟨io.close fd d.state, d.calls ++ [.close fd]⟩

end Device

section Transmit

variable {σ : Type u} (io : Io σ)

/-- The body of `transmitLirc` while the descriptor is open. -/
def transaction (carrier : Int32) (pattern : List Int32) (fd : Int32) (d : Device σ) :
    Int32 × Device σ :=
  let (result, d) := d.setCarrier io fd carrier
  if result < 0 then (result, d)
  else
    let bytes := pulseCount pattern * 4
    let (written, d) := d.write io fd pattern bytes
    -- `static_cast<int>(written)` keeps the low 32 bits
    if written < 0 then (written.toInt32, d)
    else if written.toInt ≠ bytes then (- EIO, d)
    else if hasTrailingSpace pattern then d.waitGap io (pattern.getLastD 0)
    else (0, d)

/-- `transmitLirc`: the destructor of `Close` runs after the value to return has been computed, on
every path behind a successful `open`. -/
def transmitLirc (carrier : Int32) (pattern : List Int32) (d : Device σ) : Int32 × Device σ :=
  match validate carrier pattern with
  | .error result => (result, d)
  | .ok () =>
      -- from here on there is a descriptor to close, unless `open` failed
      let (fd, d) := d.openDevice io
      if fd < 0 then (fd, d)
      else
        let (result, d) := transaction io carrier pattern fd d
        (result, d.close io fd)

end Transmit

/-! ## The service -/

/-- `ConsumerIrFreqRange`. -/
structure FreqRange where
  minHz : Int32
  maxHz : Int32
  deriving DecidableEq

/-- `ConsumerIr::getCarrierFreqs`. -/
def getCarrierFreqs : List FreqRange := [⟨36000, 36000⟩, ⟨37001, 38999⟩]

/-- `struct timespec`. -/
structure Timespec where
  sec : Int64
  nsec : Int64
  deriving DecidableEq

/-- How one `nanosleep(&gap, &gap)` ended: its result, `errno`, the contents of `gap` afterwards,
and how long the thread slept, in nanoseconds. -/
structure Nanosleep where
  returned : Int32
  errno : Int32
  gap : Timespec
  slept : Int
  deriving DecidableEq

namespace LircIo

/-- How one system call ended: its result, or `errno` if that was negative. -/
abbrev Outcome := Except Int32 Int32

/-- `do { … } while (result < 0 && errno == EINTR)` over the outcomes of the system calls; `none`
if all of them were interrupted. -/
def retryInterrupted : List Outcome → Option Outcome
  | [] => none
  | .ok value :: _ => some (.ok value)
  | .error errno :: rest => if errno = EINTR then retryInterrupted rest else some (.error errno)

/-- `LircIo::open`. -/
def openDevice (outcomes : List Outcome) : Option Int32 :=
  match retryInterrupted outcomes with
  | none => none
  | some (.ok fd) => some fd
  | some (.error errno) => some (-errno)

/-- `LircIo::setCarrier`. -/
def setCarrier (outcomes : List Outcome) : Option Int32 :=
  match retryInterrupted outcomes with
  | none => none
  | some (.ok _) => some 0
  | some (.error errno) => some (-errno)

/-- `LircIo::write`: an interrupted waveform is never retried. -/
def write (outcome : Except Int32 Int64) : Int64 :=
  match outcome with
  | .ok written => written
  | .error errno => (-errno).toInt64

/-- The `timespec` that `waitGap` starts with. -/
def gapTimespec (microseconds : Int32) : Timespec :=
  ⟨(microseconds / 1000000).toInt64, (microseconds % 1000000).toInt64 * 1000⟩

/-- `LircIo::waitGap` over the outcomes of its system calls. -/
def waitGap : List Nanosleep → Option Int32
  | [] => none
  | nap :: rest =>
      if nap.returned < 0 then
        if nap.errno ≠ EINTR then some (-nap.errno) else waitGap rest
      else some 0

/-- How long the thread slept in `waitGap`. -/
def slept : List Nanosleep → Int
  | [] => 0
  | nap :: rest =>
      if nap.returned < 0 then
        if nap.errno ≠ EINTR then nap.slept else nap.slept + slept rest
      else nap.slept

end LircIo

end Ir
end M2391Device
