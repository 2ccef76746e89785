import M2391Device.Usb.System
import M2391Device.Vibrator.MotorLemmas

/-!
# RamLoop — the start of the carrier loop on the raw nodes

`RamLoop::start` of `vibrator/RamLoop.h` and the writer of `vibrator/service.cpp` that calls it.  The
answers to the writes, the readings of `index` and those of the clock are arbitrary.  A start either
confirms that the loop is programmed, or ends by draining what is queued (`start_confirms_or_drains`).
-/

namespace M2391Device
namespace Vibrator

open UsbHal (stoi)

universe u v

/-! ## The raw nodes -/

/-- What is below the raw nodes: a writer, the readings of `index` and those of the steady clock. -/
structure Raw (σ : Type v) where
  writeRawNode : Writer σ
  index : Nat → Int
  clock : Nat → Int

/-- The raw nodes in use: how much has been read, and the writes that were attempted. -/
structure Chip (σ : Type v) where
  device : σ
  log : List Write
  polls : Nat
  times : Nat

namespace RamLoop

variable {κ : Type u} {σ : Type v} (raw : Raw σ)

def write (node : Node) (value : String) (chip : Chip σ) : Bool × Chip σ :=
  let answer := raw.writeRawNode chip.device node value
  (answer.1, { chip with device := answer.2, log := chip.log ++ [⟨node, value, answer.1⟩] })

/-- `readIndex()` -/
def readIndex (chip : Chip σ) : Int × Chip σ :=
  (raw.index chip.polls, { chip with polls := chip.polls + 1 })

/-- `std::chrono::steady_clock::now()` -/
def now (chip : Chip σ) : Int × Chip σ :=
  (raw.clock chip.times, { chip with times := chip.times + 1 })

/-! ## The start -/

/-- The four writes of a start, with their outcomes when none fails. -/
def startWrites (gain : Int) : List Write :=
  [⟨.enable, "0", true⟩, ⟨.seq, "0 0", true⟩, ⟨.waveform, "19", true⟩,
    ⟨.enable, "1 " ++ toString gain ++ " 0", true⟩]

/-- Writes in a chain of `||`: the first that fails ends it. -/
def writeAll : List Write → Chip σ → Bool × Chip σ
  | [], chip => (true, chip)
  | x :: rest, chip =>
      match write raw x.node x.value chip with
      | (false, chip) => (false, chip)
      | (true, chip) => writeAll rest chip

/-- The `do` loop, up to a number of rounds: whether it has seen the wave. -/
def poll (limit : Int) : Nat → Chip σ → Option (Bool × Chip σ)
  | 0, _ => none
  | rounds + 1, chip =>
      let (index, chip) := readIndex raw chip
      if index = 19 then some (true, chip)
      else if index < 0 then some (false, chip)
      else
        let (time, chip) := now raw chip
        if time < limit then poll limit rounds chip else some (false, chip)

/-- `start(write, readIndex, gain)`; there is no result if the loop needs more rounds. -/
def start (rounds : Nat) (gain : Int) (chip : Chip σ) : Option (Bool × Chip σ) :=
  if gain < 1 ∨ gain > 128 then some (false, chip)
  else
    match writeAll raw (startWrites gain) chip with
    | (false, chip) => some (false, (write raw .enable "0" chip).2)
    | (true, chip) =>
        let (time, chip) := now raw chip
        match poll raw (time + millis 50) rounds chip with
        | none => none
        | some (true, chip) => some (true, chip)
        -- a failed readback is drained as well
        | some (false, chip) => some (false, (write raw .enable "0" chip).2)

/-- `writeNode(node, value)`; `none` is a call that has not returned, by an exception or because it
needs more rounds. -/
def writeNode (rounds : Nat) : Writer (Option (Chip σ))
  | none, _, _ => (false, none)
  | some chip, node, value =>
      if node = .ramLoop then
        match stoi 10 value.toList with
        | .error _ => (false, none)
        | .ok gain =>
            match start raw rounds gain chip with
            | none => (false, none)
            | some (started, chip) => (started, some chip)
      else ((write raw node value chip).1, some (write raw node value chip).2)

/-! ## The polls of a start -/

/-- The number of polls that are made with the given readings, clock readings and limit: the first
poll always, and a later one when the reading before it leaves the loop on and there is time. -/
structure Polls (index time : Nat → Int) (limit : Int) (n : Nat) : Prop where
  first : 0 < n
  later : ∀ j, j + 1 < n ↔ j < n ∧ 0 ≤ index j ∧ index j ≠ 19 ∧ time j < limit

variable {index time : Nat → Int} {limit : Int} {n : Nat}

theorem Polls.last (h : ¬ (0 ≤ index 0 ∧ index 0 ≠ 19 ∧ time 0 < limit)) :
    Polls index time limit 1 := by
  refine ⟨Nat.one_pos, fun j => ?_⟩
  cases j with
  | zero => exact iff_of_false (Nat.lt_irrefl 1) fun hj => h hj.2
  | succ j => exact iff_of_false (by omega) fun hj => absurd hj.1 (by omega)

theorem Polls.next (h : 0 ≤ index 0 ∧ index 0 ≠ 19 ∧ time 0 < limit)
    (hn : Polls (fun j => index (j + 1)) (fun j => time (j + 1)) limit n) :
    Polls index time limit (n + 1) := by
  refine ⟨Nat.succ_pos n, fun j => ?_⟩
  cases j with
  | zero => exact iff_of_true (Nat.succ_lt_succ hn.first) ⟨Nat.succ_pos n, h⟩
  | succ j => rw [Nat.succ_lt_succ_iff, Nat.succ_lt_succ_iff, hn.later j]

/-- The readings of `index` from a chip on. -/
def indexFrom (chip : Chip σ) (j : Nat) : Int := raw.index (chip.polls + j)

/-- The readings of the clock from a chip on. -/
def timeFrom (chip : Chip σ) (j : Nat) : Int := raw.clock (chip.times + j)

variable {raw} {chip chip' : Chip σ} {confirmed : Bool} {rounds : Nat}

/-- One round of the loop. -/
theorem poll_succ :
    poll raw limit (rounds + 1) chip =
      if raw.index chip.polls = 19 then some (true, { chip with polls := chip.polls + 1 })
      else if raw.index chip.polls < 0 then some (false, { chip with polls := chip.polls + 1 })
      else if raw.clock chip.times < limit then
        poll raw limit rounds { chip with polls := chip.polls + 1, times := chip.times + 1 }
      else some (false, { chip with polls := chip.polls + 1, times := chip.times + 1 }) := rfl

/-- The loop confirms when one of the polls that it makes reads 19, and writes nothing. -/
theorem poll_cases (h : poll raw limit rounds chip = some (confirmed, chip')) :
    ∃ n, Polls (indexFrom raw chip) (timeFrom raw chip) limit n ∧
      chip'.polls = chip.polls + n ∧ chip'.device = chip.device ∧ chip'.log = chip.log ∧
      (confirmed = true ↔ ∃ j < n, indexFrom raw chip j = 19) := by
  induction rounds generalizing chip with
  | zero => cases h
  | succ rounds ih =>
      have hone : ∀ b : Bool, (b = true ↔ indexFrom raw chip 0 = 19) →
          (b = true ↔ ∃ j < 1, indexFrom raw chip j = 19) := fun b hb => by
        simpa using hb
      rw [poll_succ] at h
      by_cases hdone : raw.index chip.polls = 19
      · rw [if_pos hdone] at h
        cases h
        exact ⟨1, .last fun hon => hon.2.1 hdone, rfl, rfl, rfl, hone _ (iff_of_true rfl hdone)⟩
      rw [if_neg hdone] at h
      by_cases hfailed : raw.index chip.polls < 0
      · rw [if_pos hfailed] at h
        cases h
        exact ⟨1, .last fun hon => absurd hfailed (Int.not_lt.2 hon.1), rfl, rfl, rfl,
          hone _ (iff_of_false Bool.false_ne_true hdone)⟩
      rw [if_neg hfailed] at h
      by_cases htime : raw.clock chip.times < limit
      · rw [if_pos htime] at h
        rcases ih h with ⟨n, hpolls, hcount, hdevice, hlog, hiff⟩
        -- the polls of the rest are those of the whole, counted from the next one
        have hindex : indexFrom raw ⟨chip.device, chip.log, chip.polls + 1, chip.times + 1⟩ =
            fun j => indexFrom raw chip (j + 1) := by
          funext j
          exact congrArg raw.index (Nat.succ_add_eq_add_succ chip.polls j)
        have htimes : timeFrom raw ⟨chip.device, chip.log, chip.polls + 1, chip.times + 1⟩ =
            fun j => timeFrom raw chip (j + 1) := by
          funext j
          exact congrArg raw.clock (Nat.succ_add_eq_add_succ chip.times j)
        rw [hindex] at hpolls hiff
        rw [htimes] at hpolls
        refine ⟨n + 1, .next ⟨Int.not_lt.1 hfailed, hdone, htime⟩ hpolls, ?_, hdevice, hlog,
          hiff.trans ?_⟩
        · exact hcount.trans (Nat.succ_add_eq_add_succ chip.polls n)
        constructor
        · rintro ⟨j, hj, h19⟩
          exact ⟨j + 1, Nat.succ_lt_succ hj, h19⟩
        · rintro ⟨j, hj, h19⟩
          cases j with
          | zero => exact absurd h19 hdone
          | succ j => exact ⟨j, Nat.lt_of_succ_lt_succ hj, h19⟩
      · rw [if_neg htime] at h
        cases h
        exact ⟨1, .last fun hon => htime hon.2.2, rfl, rfl, rfl,
          hone _ (iff_of_false Bool.false_ne_true hdone)⟩

/-- The loop comes to an end by the first reading of the clock that is not before the limit. -/
theorem poll_returns {k : Nat} (hclock : limit ≤ timeFrom raw chip k) (hrounds : k < rounds) :
    (poll raw limit rounds chip).isSome = true := by
  induction rounds generalizing chip k with
  | zero => omega
  | succ rounds ih =>
      rw [poll_succ]
      by_cases hdone : raw.index chip.polls = 19
      · rw [if_pos hdone]
        rfl
      rw [if_neg hdone]
      by_cases hfailed : raw.index chip.polls < 0
      · rw [if_pos hfailed]
        rfl
      rw [if_neg hfailed]
      by_cases htime : raw.clock chip.times < limit
      · rw [if_pos htime]
        cases k with
        | zero => exact absurd hclock (Int.not_le.2 htime)
        | succ k =>
            refine ih (k := k) ?_ (by omega)
            rw [timeFrom, Nat.add_right_comm]
            exact hclock
      · rw [if_neg htime]
        rfl

/-! ## What a start has done when it returns -/

/-- The writes of a chain that stops at the first failure: all of them, or something that goes on
otherwise than they do. -/
theorem writeAll_cases {xs : List Write} (hok : ∀ x ∈ xs, x.ok = true) {all : Bool}
    (h : writeAll raw xs chip = (all, chip')) :
    ∃ ws, chip'.log = chip.log ++ ws ∧ chip'.polls = chip.polls ∧ chip'.times = chip.times ∧
      (all = true → ws = xs) ∧ (all = false → ∀ more, ¬ xs <+: ws ++ more) := by
  induction xs generalizing chip with
  | nil =>
      cases h
      exact ⟨[], (List.append_nil _).symm, rfl, rfl, fun _ => rfl, fun hall => by cases hall⟩
  | cons x rest ih =>
      have hx : x.ok = true := hok x List.mem_cons_self
      rw [writeAll] at h
      cases hanswer : raw.writeRawNode chip.device x.node x.value with
      | mk ok device =>
          simp only [write, hanswer] at h
          cases ok with
          | false =>
              cases h
              refine ⟨[⟨x.node, x.value, false⟩], rfl, rfl, rfl, fun hall => (by cases hall), ?_⟩
              intro _ more hbegins
              rw [List.singleton_append, List.cons_prefix_cons] at hbegins
              rw [hbegins.1] at hx
              cases hx
          | true =>
              rcases ih (fun y hy => hok y (List.mem_cons_of_mem x hy)) h with
                ⟨ws, hlog, hpolls, htimes, hall, hfailed⟩
              have hwrite : (⟨x.node, x.value, true⟩ : Write) = x := by rw [← hx]
              refine ⟨x :: ws, ?_, hpolls, htimes, fun htrue => by rw [hall htrue], ?_⟩
              · rw [hlog, List.append_assoc, hwrite]
                rfl
              · intro hfalse more hbegins
                rw [List.cons_append, List.cons_prefix_cons] at hbegins
                exact hfailed hfalse more hbegins.2

/-- What `start` has done when it returns: `ws` are its writes and `n` is the number of its polls. -/
structure Outcome (raw : Raw σ) (gain : Int) (chip : Chip σ) (confirmed : Bool) (chip' : Chip σ)
    (ws : List Write) (n : Nat) : Prop where
  log : chip'.log = chip.log ++ ws
  polls : chip'.polls = chip.polls + n
  rejected : gain < 1 ∨ gain > 128 → confirmed = false ∧ ws = [] ∧ n = 0
  polled : startWrites gain <+: ws →
    Polls (indexFrom raw chip) (timeFrom raw (now raw chip).2) (raw.clock chip.times + millis 50) n
  unpolled : ¬ startWrites gain <+: ws → n = 0
  confirmed_iff : confirmed = true ↔
    startWrites gain <+: ws ∧ ∃ j < n, indexFrom raw chip j = 19
  no_more : confirmed = true → ws = startWrites gain
  drained : ¬ (gain < 1 ∨ gain > 128) → confirmed = false →
    ∃ ok, ws.getLast? = some (Hardware.stopWrite ok)

/-- A start that is drained, after the writes `ws` and `n` polls. -/
theorem Outcome.of_drain {gain : Int} {middle : Chip σ} {ws : List Write}
    (hgain : ¬ (gain < 1 ∨ gain > 128)) (hlog : middle.log = chip.log ++ ws)
    (hpolls : middle.polls = chip.polls + n)
    (hwrites : startWrites gain <+: ws ∧
        Polls (indexFrom raw chip) (timeFrom raw (now raw chip).2)
          (raw.clock chip.times + millis 50) n ∧
        (¬ ∃ j < n, indexFrom raw chip j = 19) ∨
      (∀ more, ¬ startWrites gain <+: ws ++ more) ∧ n = 0) :
    ∃ ws n, Outcome raw gain chip false (write raw .enable "0" middle).2 ws n := by
  have hdrain : (write raw .enable "0" middle).2.log =
      chip.log ++ (ws ++ [Hardware.stopWrite (write raw .enable "0" middle).1]) := by
    rw [← List.append_assoc, ← hlog]
    rfl
  refine ⟨_, n, hdrain, hpolls, fun hbad => absurd hbad hgain, ?_, ?_, ?_, ?_, ?_⟩
  · intro hbegins
    rcases hwrites with ⟨_, hn, _⟩ | ⟨hno, _⟩
    · exact hn
    · exact absurd hbegins (hno _)
  · intro hno
    rcases hwrites with ⟨hbegins, _⟩ | ⟨_, hn⟩
    · exact absurd (hbegins.trans (List.prefix_append _ _)) hno
    · exact hn
  · refine iff_of_false Bool.false_ne_true ?_
    rintro ⟨hbegins, hseen⟩
    rcases hwrites with ⟨_, _, hunseen⟩ | ⟨hno, _⟩
    · exact hunseen hseen
    · exact hno _ hbegins
  · intro htrue
    cases htrue
  · exact fun _ _ => ⟨_, List.getLast?_concat⟩

theorem start_outcome {gain : Int} (h : start raw rounds gain chip = some (confirmed, chip')) :
    ∃ ws n, Outcome raw gain chip confirmed chip' ws n := by
  have hnil : ¬ startWrites gain <+: [] := fun hbegins => by cases List.prefix_nil.1 hbegins
  rw [start] at h
  by_cases hgain : gain < 1 ∨ gain > 128
  · rw [if_pos hgain] at h
    cases h
    exact ⟨[], 0, (List.append_nil _).symm, rfl, fun _ => ⟨rfl, rfl, rfl⟩,
      fun hbegins => absurd hbegins hnil, fun _ => rfl,
      iff_of_false Bool.false_ne_true fun hboth => hnil hboth.1, fun htrue => (by cases htrue),
      fun hvalid => absurd hgain hvalid⟩
  rw [if_neg hgain] at h
  have hok : ∀ x ∈ startWrites gain, x.ok = true := by simp [startWrites]
  rcases hall : writeAll raw (startWrites gain) chip with ⟨all, written⟩
  rcases writeAll_cases hok hall with ⟨ws, hlog, hpolls, htimes, hwrote, hfailed⟩
  rw [hall] at h
  cases all with
  | false =>
      cases h
      exact Outcome.of_drain (n := 0) hgain hlog hpolls (Or.inr ⟨hfailed rfl, rfl⟩)
  | true =>
      have hws := hwrote rfl
      subst hws
      have hindex : indexFrom raw (now raw written).2 = indexFrom raw chip := by
        funext j
        exact congrArg (fun p => raw.index (p + j)) hpolls
      have htime : timeFrom raw (now raw written).2 = timeFrom raw (now raw chip).2 := by
        funext j
        exact congrArg (fun t => raw.clock (t + 1 + j)) htimes
      have hlimit : (now raw written).1 = raw.clock chip.times := congrArg raw.clock htimes
      -- the loop starts from the chip after the writes and one reading of the clock
      simp only at h
      rcases hpoll : poll raw ((now raw written).1 + millis 50) rounds (now raw written).2 with
        _ | ⟨seen, polled⟩
      · rw [hpoll] at h
        cases h
      rcases poll_cases hpoll with ⟨n, hn, hcount, _, hquiet, hiff⟩
      rw [hindex, htime, hlimit] at hn
      rw [hindex] at hiff
      have hcount : polled.polls = chip.polls + n := by rw [hcount, ← hpolls]; rfl
      have hlog : polled.log = chip.log ++ startWrites gain := hquiet.trans hlog
      rw [hpoll] at h
      cases seen with
      | false =>
          cases h
          refine Outcome.of_drain hgain hlog hcount (Or.inl ⟨List.prefix_rfl, hn, fun hseen => ?_⟩)
          cases hiff.2 hseen
      | true =>
          cases h
          exact ⟨_, n, hlog, hcount, fun hbad => absurd hbad hgain, fun _ => hn,
            fun hno => absurd List.prefix_rfl hno,
            iff_of_true rfl ⟨List.prefix_rfl, hiff.1 rfl⟩, fun _ => rfl,
            fun _ hfalse => (by cases hfalse)⟩

/-- With a clock that passes the limit, a start returns. -/
theorem start_returns {gain : Int} {k : Nat}
    (hclock : raw.clock chip.times + millis 50 ≤ raw.clock (chip.times + k)) (hrounds : k ≤ rounds) :
    (start raw rounds gain chip).isSome = true := by
  rw [start]
  by_cases hgain : gain < 1 ∨ gain > 128
  · rw [if_pos hgain]
    rfl
  rw [if_neg hgain]
  have hok : ∀ x ∈ startWrites gain, x.ok = true := by simp [startWrites]
  rcases hall : writeAll raw (startWrites gain) chip with ⟨all, written⟩
  rcases writeAll_cases hok hall with ⟨_, _, _, htimes, _⟩
  cases all with
  | false => rfl
  | true =>
      cases k with
      | zero =>
          rw [millis, Nat.add_zero] at hclock
          omega
      | succ k =>
          have hlimit : (now raw written).1 + millis 50 ≤ timeFrom raw (now raw written).2 k := by
            have htimes' : written.times + 1 + k = chip.times + (k + 1) := by omega
            change raw.clock written.times + millis 50 ≤ raw.clock (written.times + 1 + k)
            rw [htimes', htimes]
            exact hclock
          have hsome := poll_returns hlimit hrounds
          simp only
          rcases hpoll : poll raw ((now raw written).1 + millis 50) rounds (now raw written).2 with
            _ | ⟨seen, polled⟩
          · rw [hpoll] at hsome
            cases hsome
          · cases seen <;> rfl

/-! ## The start below `play` -/

/-- The text of a gain is read back as the gain. -/
theorem stoi_gain {gain : Int} (h : 1 ≤ gain) (h' : gain ≤ 128) :
    stoi 10 (toString gain).toList = .ok gain := by
  have hall : ∀ g : Fin 128, stoi 10 (toString ((g.val : Int) + 1)).toList = .ok ((g.val : Int) + 1) := by
    decide +kernel
  have hgain := hall ⟨(gain - 1).toNat, by omega⟩
  have hval : (((gain - 1).toNat : Nat) : Int) + 1 = gain := by omega
  rwa [hval] at hgain

theorem writeNode_other {node : Node} (h : node ≠ .ramLoop) (value : String) :
    writeNode raw rounds (some chip) node value =
      ((write raw node value chip).1, some (write raw node value chip).2) := by
  rw [writeNode, if_neg h]

/-- The writes that were made on the raw nodes since a chip. -/
def Since (chip : Chip σ) (device : Option (Chip σ)) (ws : List Write) : Prop :=
  ∃ c, device = some c ∧ c.log = chip.log ++ ws

theorem since_write {hw : Hardware (Option (Chip σ))} {ws : List Write} {node : Node} {value : String}
    (h : Since chip hw.device ws) (hnode : node ≠ .ramLoop) :
    Since chip (hw.write (writeNode raw rounds) node value).2.device
      (ws ++ [⟨node, value, (hw.write (writeNode raw rounds) node value).1⟩]) := by
  rcases h with ⟨c, hdevice, hlog⟩
  have hwrite : writeNode raw rounds (some c) node value =
      ((write raw node value c).1, some (write raw node value c).2) := writeNode_other hnode value
  simp only [Hardware.write, hdevice, hwrite]
  refine ⟨_, rfl, ?_⟩
  rw [← List.append_assoc, ← hlog]
  rfl

theorem since_start {gain : Int} (h : 1 ≤ gain) (h' : gain ≤ 128) {k : Nat}
    (hclock : raw.clock chip.times + millis 50 ≤ raw.clock (chip.times + k)) (hrounds : k ≤ rounds)
    {hw : Hardware (Option (Chip σ))} (hdevice : hw.device = some chip) :
    ∃ ws, Since chip (hw.write (writeNode raw rounds) .ramLoop (toString gain)).2.device ws := by
  have hreturns : (start raw rounds gain chip).isSome = true := start_returns hclock hrounds
  rcases hstart : start raw rounds gain chip with _ | ⟨started, c⟩
  · rw [hstart] at hreturns
    cases hreturns
  rcases start_outcome hstart with ⟨ws, n, houtcome⟩
  refine ⟨ws, c, ?_, houtcome.log⟩
  simp only [Hardware.write, hdevice, writeNode, if_true, stoi_gain h h', hstart]

/-- A play of a loop that fails ends with the stop command on the raw node. -/
theorem play_drains {m m' : Motor κ (Option (Chip σ))} {now milliseconds gain : Int}
    {complete : Option κ} {returned : Bool} {k : Nat} (hdevice : m.device = some chip)
    (hclock : raw.clock chip.times + millis 50 ≤ raw.clock (chip.times + k)) (hrounds : k ≤ rounds)
    (haccepts : Motor.PlayAccepts milliseconds (-1) gain)
    (hplay : m.play (writeNode raw rounds) now milliseconds (-1) gain complete = (returned, m')) :
    ∃ ws, Since chip m'.device ws ∧
      (returned = false → ∃ ok, ws.getLast? = some (Hardware.stopWrite ok)) := by
  have hgain : 1 ≤ gain ∧ gain ≤ 128 := by
    rw [Motor.PlayAccepts] at haccepts
    omega
  let begun : Hardware (Option (Chip σ)) := { m.toHardware with active := true }
  have hbegun : begun.device = some chip := hdevice
  rcases since_start hgain.1 hgain.2 hclock hrounds hbegun with ⟨ws, hstarted⟩
  -- both start writes leave a chip that has returned
  have hsince : ∃ ws, Since chip (Hardware.startThenGain (writeNode raw rounds) .ramLoop
      (toString gain) gain begun).2.device ws := by
    rcases Hardware.startThenGain_cases (writeNode raw rounds) begun .ramLoop (toString gain) gain with
      ⟨_, heq⟩ | ⟨_, heq⟩
    · rw [heq]
      exact ⟨_, since_write hstarted (by decide)⟩
    · rw [heq]
      exact ⟨_, hstarted⟩
  rcases hsince with ⟨ws, hsince⟩
  have hactive : (Hardware.startThenGain (writeNode raw rounds) .ramLoop (toString gain) gain
      begun).2.active = true := Hardware.startThenGain_active _ _ _ _ _
  have hhardware : Motor.playHardware (writeNode raw rounds) (-1) gain m.toHardware =
      Hardware.orStop (writeNode raw rounds)
        (Hardware.startThenGain (writeNode raw rounds) .ramLoop (toString gain) gain begun) := rfl
  generalize Hardware.startThenGain (writeNode raw rounds) .ramLoop (toString gain) gain begun = r
    at hsince hactive hhardware
  rcases Motor.play_cases _ _ hplay with ⟨hno, _⟩ | ⟨_, rfl, hfalse, rfl⟩ | ⟨_, rfl, htrue, rfl⟩
  · exact absurd haccepts hno
  · rw [hhardware, Hardware.orStop_fst] at hfalse
    refine ⟨ws ++ [Hardware.stopWrite (r.2.write (writeNode raw rounds) .enable "0").1], ?_,
      fun _ => ⟨_, List.getLast?_concat⟩⟩
    rw [hhardware, Hardware.orStop, if_neg (by rw [hfalse]; exact Bool.false_ne_true),
      Hardware.stopHardware_active _ _ hactive]
    exact since_write hsince (by decide)
  · rw [hhardware, Hardware.orStop_fst] at htrue
    refine ⟨ws, ?_, fun hfalse => (by cases hfalse)⟩
    rw [hhardware, Hardware.orStop, if_pos htrue]
    exact hsince

/-- With a clock that passes the limit a start returns, and confirms or drains; and a play of a loop
that fails drains, unless it is rejected for its arguments. -/
theorem start_confirms_or_drains (raw : Raw σ) (chip : Chip σ) (k : Nat)
    (hclock : raw.clock chip.times + millis 50 ≤ raw.clock (chip.times + k)) (rounds : Nat)
    (hrounds : k ≤ rounds) :
    (∀ gain, ∃ confirmed chip' ws n, start raw rounds gain chip = some (confirmed, chip') ∧
      Outcome raw gain chip confirmed chip' ws n) ∧
    ∀ (m m' : Motor κ (Option (Chip σ))) (now milliseconds gain : Int) (complete : Option κ)
      (returned : Bool), m.device = some chip → Motor.PlayAccepts milliseconds (-1) gain →
      m.play (writeNode raw rounds) now milliseconds (-1) gain complete = (returned, m') →
      ∃ ws, Since chip m'.device ws ∧
        (returned = false → ∃ ok, ws.getLast? = some (Hardware.stopWrite ok)) := by
  refine ⟨fun gain => ?_, ?_⟩
  · have hreturns : (start raw rounds gain chip).isSome = true := start_returns hclock hrounds
    rcases hstart : start raw rounds gain chip with _ | ⟨confirmed, chip'⟩
    · rw [hstart] at hreturns
      cases hreturns
    rcases start_outcome hstart with ⟨ws, n, houtcome⟩
    exact ⟨confirmed, chip', ws, n, rfl, houtcome⟩
  · intro m m' now milliseconds gain complete returned hdevice haccepts hplay
    exact play_drains hdevice hclock hrounds haccepts hplay

/-- Nodes that take every write, a driver that never gets to the wave, and a clock that advances by
60 ms. -/
def idle : Raw Unit := ⟨fun _ _ _ => (true, ()), fun _ => 0, fun k => millis (60 * k)⟩

def unused : Chip Unit := ⟨(), [], 0, 0⟩

def taken : Motor Unit (Option (Chip Unit)) := Motor.constructed (some unused)

theorem start_drains_idle :
    (∃ chip' ws n, start idle 1 64 unused = some (false, chip') ∧
      Outcome idle 64 unused false chip' ws n) ∧
    ∃ m' ws, taken.play (writeNode idle 1) 0 1000 (-1) 64 none = (false, m') ∧
      Since unused m'.device ws ∧ ∃ ok, ws.getLast? = some (Hardware.stopWrite ok) := by
  have hboth := start_confirms_or_drains (κ := Unit) idle unused 1 (by decide) 1 le_rfl
  refine ⟨?_, ?_⟩
  · rcases hboth.1 64 with ⟨confirmed, chip', ws, n, hstart, houtcome⟩
    have hfalse : (start idle 1 64 unused).map (·.1) = some false := by decide
    rw [hstart] at hfalse
    cases hfalse
    exact ⟨chip', ws, n, hstart, houtcome⟩
  · have hfalse : (taken.play (writeNode idle 1) 0 1000 (-1) 64 none).1 = false := by decide +kernel
    rcases hplay : taken.play (writeNode idle 1) 0 1000 (-1) 64 none with ⟨returned, m'⟩
    rw [hplay] at hfalse
    cases hfalse
    rcases hboth.2 taken m' 0 1000 64 none false rfl (by decide) hplay with ⟨ws, hsince, hdrain⟩
    exact ⟨m', ws, rfl, hsince, hdrain rfl⟩

/-- A play that is rejected for its duration writes nothing. -/
theorem rejected_without_drain :
    ¬ ∀ (milliseconds : Int) (m' : Motor Unit (Option (Chip Unit))),
      taken.play (writeNode idle 1) 0 milliseconds (-1) 128 none = (false, m') →
      ∃ ws, Since unused m'.device ws ∧ ∃ ok, ws.getLast? = some (Hardware.stopWrite ok) := by
  intro h
  have hrejected : ¬ Motor.PlayAccepts 0 (-1) 128 := by decide
  rcases h 0 taken (Motor.play_rejected _ _ _ _ hrejected) with ⟨ws, ⟨c, hdevice, hlog⟩, ok, hlast⟩
  cases hdevice
  have hnone : ws = [] := hlog.symm
  rw [hnone] at hlast
  cases hlast

end RamLoop
end Vibrator
end M2391Device
