import M2391Device.Ir.Transaction
import M2391Device.Lib.Calls

/-!
# Service — infrared commands from any number of threads

`ConsumerIr::transmit` holds a mutex around `transmitLirc`: setting the carrier, the write and the
trailing off interval form one transaction, even when Binder dispatches calls on multiple threads.
However the threads are interleaved, the device is used as by one thread that serves the calls one
after the other, each while it is under way (`transmissions_linearized`), and each call is told how its
own command went.
-/

namespace M2391Device
namespace Ir

open Program Locks Transition

universe u v

/-! ## The calls as programs -/

/-- The result of a call: `EX_UNSUPPORTED_OPERATION`, or a service-specific error. -/
inductive Status
  | ok
  | unsupported
  | serviceSpecific (error : Int32)
  deriving DecidableEq

/-- `ConsumerIr::transmit`, of what `transmitLirc` returned. -/
def statusOf (result : Int32) : Status :=
  if result = 0 then .ok
  else if result = -EOPNOTSUPP then .unsupported
  else .serviceSpecific (-result)

/-- The operations of the `Io` object, and the return of a call to its caller. -/
inductive ServiceOp
  | openDevice
  | setCarrier (fd carrier : Int32)
  | write (fd : Int32) (data : List Int32) (bytes : Nat)
  | waitGap (microseconds : Int32)
  | close (fd : Int32)
  | reply (status : Status)
  deriving DecidableEq

abbrev ServiceRes : ServiceOp → Type
  | .openDevice => Int32
  | .setCarrier _ _ => Int32
  | .write _ _ _ => Int64
  | .waitGap _ => Int32
  | .close _ => Unit
  | .reply _ => Unit

structure Request where
  carrier : Int32
  pattern : List Int32
  deriving DecidableEq

namespace ConsumerIr

abbrev Body (α : Type) := Program ServiceOp ServiceRes Empty α

abbrev Thread (α : Type) := Locks.Thread ServiceRes Unit Empty Empty α

/-- What `transmitLirc` does while the descriptor is open. -/
def transaction (carrier : Int32) (pattern : List Int32) (fd : Int32) : Body Int32 := do
  let result ← (Program.call (ServiceOp.setCarrier fd carrier) : Body Int32)
  if result < 0 then return result
  else
    let bytes := pulseCount pattern * 4
    let written ← (Program.call (ServiceOp.write fd pattern bytes) : Body Int64)
    if written < 0 then return written.toInt32
    else if written.toInt ≠ bytes then return - EIO
    else if hasTrailingSpace pattern then
      (Program.call (ServiceOp.waitGap (pattern.getLastD 0)) : Body Int32)
    else return 0

def transmitLirc (x : Request) : Body Int32 :=
  match validate x.carrier x.pattern with
  | .error result => return result
  | .ok () => do
      let fd ← (Program.call ServiceOp.openDevice : Body Int32)
      if fd < 0 then return fd
      else
        let result ← transaction x.carrier x.pattern fd
        (Program.call (ServiceOp.close fd) : Body Unit)
        return result

/-- The call returns, with the lock given up. -/
def reply (result : Int32) : Thread Unit :=
  .perform (.op (.reply (statusOf result))) fun _ => .pure ()

/-- `ConsumerIr::transmit(carrier, pattern)` -/
def transmit (x : Request) : Thread Unit :=
  withLock () (lift (transmitLirc x)) >>= reply

end ConsumerIr

/-! ## Threads -/

section Threads

variable {σ : Type u}

def Io.step (io : Io σ) : (o : ServiceOp) → Device σ → ServiceRes o × Device σ
  | .openDevice, d => d.openDevice io
  | .setCarrier fd carrier, d => d.setCarrier io fd carrier
  | .write fd data bytes, d => d.write io fd data bytes
  | .waitGap microseconds, d => d.waitGap io microseconds
  | .close fd, d => ((), d.close io fd)
  | .reply _, d => ((), d)

def Io.machine (io : Io σ) : Machine ServiceOp ServiceRes Empty (Device σ) where
  step := io.step
  holds := nofun

/-- The operations that need no lock. -/
def ServiceOp.isReply : ServiceOp → Bool
  | .reply _ => true
  | _ => false

variable {ι : Type v} [DecidableEq ι]

/-- A thread may start any call. -/
def Starts (_ : ι) (p : ConsumerIr.Thread Unit) : Prop := ∃ x : Request, p = ConsumerIr.transmit x

abbrev IrThreads (σ : Type u) (ι : Type v) := Locks.State ServiceRes Unit Empty Empty (Device σ) ι

abbrev IrEvent (ι : Type v) := Locks.Event ServiceRes Unit Empty Empty ι

/-- The device is used through the service only. -/
abbrev Interleaves (io : Io σ) : IrThreads σ ι → IrEvent ι → IrThreads σ ι → Prop :=
  Locks.Step io.machine Starts Eq

/-- The same, one call at a time. -/
abbrev InTurn (io : Io σ) := Serially (ι := ι) io.machine Starts Eq ServiceOp.isReply ()

/-! ## One after the other -/

/-- A call that was served, and what `transmitLirc` returned. -/
structure Served (ι : Type v) where
  thread : ι
  request : Request
  result : Int32

/-- From `d` to `t`, the calls are served in this order. -/
inductive Serves (io : Io σ) (d : Device σ) : List (Served ι) → Device σ → Prop where
  | none : Serves io d [] d
  | snoc {done : List (Served ι)} {t : Device σ} (i : ι) (x : Request) : Serves io d done t →
      Serves io d (done ++ [⟨i, x, (transmitLirc io x.carrier x.pattern t).1⟩])
        (transmitLirc io x.carrier x.pattern t).2

/-- The requests of a thread that were served, and the statuses that are due. -/
def requests (i : ι) (done : List (Served ι)) : List Request :=
  (done.filter fun x => x.thread = i).map Served.request

def statuses (i : ι) (done : List (Served ι)) : List Status :=
  (done.filter fun x => x.thread = i).map fun x => statusOf x.result

/-- How the calls show in a thread. -/
def calls : Calls ServiceRes Unit Empty Empty Request Status where
  program := ConsumerIr.transmit
  tell := .reply
  told := fun
    | .reply status => some status
    | _ => none
  told_tell := fun _ => rfl
  busy := fun _ => nofun

abbrev IrDeed (ι : Type v) := ι × Deed ServiceRes Unit Empty Empty

/-- The calls in a history are served one after the other. -/
structure Linearized (io : Io σ) (d : Device σ) (h : List (IrEvent ι)) (s : IrThreads σ ι)
    (done : List (Served ι)) (t : Device σ) : Prop where
  serves : Serves io d done t
  free : s.owner () = none → s.shared = t
  /-- The thread with the lock is in the middle of its command, the next one. -/
  busy : ∀ i, s.owner () = some i → ∃ x : Request,
    begun i (deeds h) = (requests i done).map ConsumerIr.transmit ++ [ConsumerIr.transmit x] ∧
      t.calls <+: s.shared.calls ∧ s.shared.calls <+: (transmitLirc io x.carrier x.pattern t).2.calls
  /-- Every thread is served in the order of its calls, and waits for one at most. -/
  inOrder : ∀ i, ∃ waiting, begun i (deeds h) = (requests i done).map ConsumerIr.transmit ++ waiting ∧
    waiting.length ≤ 1
  /-- It is told of each how its command went. -/
  answered : ∀ i, ∃ pending, statuses i done = calls.heard i (deeds h) ++ pending ∧ pending.length ≤ 1

/-! ## One command -/

section Command

variable {io : Io σ} {d d' : Device σ}

theorem transaction_run (carrier : Int32) (pattern : List Int32) (fd : Int32) (d : Device σ) :
    (ConsumerIr.transaction carrier pattern fd).run io.step d =
      (.ok (transaction io carrier pattern fd d).1, (transaction io carrier pattern fd d).2) := by
  rw [ConsumerIr.transaction, transaction, run_bind_ok rfl]
  simp only [Io.step]
  -- the early returns of the source, one by one
  by_cases hresult : (d.setCarrier io fd carrier).1 < 0
  · simp only [hresult, if_true]
    rfl
  simp only [hresult, if_false]
  rw [run_bind_ok rfl]
  simp only [Io.step]
  generalize (d.setCarrier io fd carrier).2 = d₁
  by_cases hfailed : (d₁.write io fd pattern (pulseCount pattern * 4)).1 < 0
  · simp only [hfailed, if_true]
    rfl
  by_cases hfull : (d₁.write io fd pattern (pulseCount pattern * 4)).1.toInt =
      (pulseCount pattern * 4 : Nat)
  · simp only [hfailed, hfull, ne_eq, not_true, if_false]
    cases hasTrailingSpace pattern <;> rfl
  · simp only [hfailed, hfull, ne_eq, not_false_iff, if_true, if_false]
    rfl

/-- Alone, a command is the function of the sequential model. -/
theorem transmitLirc_run (x : Request) (d : Device σ) :
    (ConsumerIr.transmitLirc x).run io.step d =
      (.ok (transmitLirc io x.carrier x.pattern d).1, (transmitLirc io x.carrier x.pattern d).2) := by
  rw [ConsumerIr.transmitLirc, transmitLirc]
  cases validate x.carrier x.pattern with
  | error result => rfl
  | ok _ =>
      simp only
      rw [run_bind_ok rfl]
      simp only [Io.step]
      by_cases hfd : (d.openDevice io).1 < 0
      · simp only [hfd, if_true]
        rfl
      · simp only [hfd, if_false]
        rw [run_bind_ok (transaction_run _ _ _ _)]
        rfl

theorem transaction_locked {carrier : Int32} {pattern : List Int32} {fd : Int32} :
    (ConsumerIr.transaction carrier pattern fd).Performs fun o => o.isReply = false := by
  refine Performs.bind (Performs.call_iff.2 rfl) fun result => Performs.ite (fun _ => trivial) fun _ => ?_
  refine Performs.bind (Performs.call_iff.2 rfl) fun written => Performs.ite (fun _ => trivial) fun _ => ?_
  refine Performs.ite (fun _ => trivial) fun _ => Performs.ite (fun _ => ?_) fun _ => trivial
  exact Performs.call_iff.2 rfl

theorem transmitLirc_locked (x : Request) :
    (ConsumerIr.transmitLirc x).Performs fun o => o.isReply = false := by
  unfold ConsumerIr.transmitLirc
  cases validate x.carrier x.pattern with
  | error result => exact trivial
  | ok _ =>
      refine Performs.bind (Performs.call_iff.2 rfl) fun fd => Performs.ite (fun _ => trivial) fun _ => ?_
      refine Performs.bind transaction_locked fun result => ?_
      exact Performs.bind (Performs.call_iff.2 rfl) fun _ => trivial

/-- The device is used under the lock, and the reply comes after it. -/
theorem transmit_sectioned (x : Request) :
    Sectioned ServiceOp.isReply () false (ConsumerIr.transmit x) false :=
  Sectioned.bind (Sectioned.withLock (Sectioned.lift (transmitLirc_locked x)))
    fun _ => ⟨rfl, fun _ => rfl⟩

theorem reply_apart (io : Io σ) : io.machine.Apart ServiceOp.isReply := by
  intro o ho s t
  cases o with
  | reply status => exact ⟨rfl, rfl⟩
  | _ => cases ho

/-- The calls that were made stay made. -/
theorem calls_step (o : ServiceOp) (d : Device σ) : d.calls <+: (io.step o d).2.calls := by
  cases o with
  | reply status => exact List.prefix_rfl
  | _ => exact List.prefix_append _ _

theorem calls_run {α : Type} (p : ConsumerIr.Body α) (d : Device σ) :
    d.calls <+: (p.run io.step d).2.calls :=
  Performs.any.invariant (fun t : Device σ => d.calls <+: t.calls)
    (fun o t _ ht => ht.trans (calls_step o t)) List.prefix_rfl

theorem calls_within {p q : ConsumerIr.Thread Unit} {ops : List (Answered ServiceOp ServiceRes)}
    (h : Within io.machine Eq p d ops q d') : d.calls <+: d'.calls := by
  induction h with
  | here => exact List.prefix_rfl
  | op h ih => exact ih.trans (calls_step _ _)
  | environment h hx ih => exact hx ▸ ih

end Command

/-! ## The calls of a thread -/

section Calls

variable {io : Io σ} {d d' : Device σ} {i j : ι} {done : List (Served ι)} {past now : List (IrDeed ι)}
  {c c' : Serial ServiceRes Unit Empty Empty (Device σ) ι} {mv : Move ServiceRes Unit Empty Empty ι}
  {s : IrThreads σ ι}

theorem requests_snoc (x : Served ι) :
    requests i (done ++ [x]) = requests i done ++ if x.thread = i then [x.request] else [] := by
  by_cases hx : x.thread = i <;> simp [requests, hx]

theorem statuses_snoc (x : Served ι) : statuses i (done ++ [x]) =
    statuses i done ++ if x.thread = i then [statusOf x.result] else [] := by
  by_cases hx : x.thread = i <;> simp [statuses, hx]

theorem calls_told (o : ServiceOp) (ho : o.isReply = false) : calls.told o = none := by
  cases o with
  | reply status => cases ho
  | _ => rfl

theorem transmit_eq (x : Request) : ConsumerIr.transmit x = .perform (.lock ()) fun _ =>
    lift (ConsumerIr.transmitLirc x) >>= fun result =>
      .perform (.unlock ()) fun _ => ConsumerIr.reply result := withLock_bind _ _ _

/-- The stretch of a command, up to where it is. -/
theorem within_transmit {x : Request} {p q : ConsumerIr.Thread Unit}
    {ops : List (Answered ServiceOp ServiceRes)} (henters : Enters io.machine () d (ConsumerIr.transmit x) p)
    (hwithin : Within io.machine Eq p d ops q d') :
    ∃ y : ConsumerIr.Body Int32, q = (lift y >>= fun result =>
        .perform (.unlock ()) fun _ => ConsumerIr.reply result) ∧
      y.run io.step d' = (.ok (transmitLirc io x.carrier x.pattern d).1,
        (transmitLirc io x.carrier x.pattern d).2) := by
  rw [transmit_eq] at henters
  cases henters
  have hk : ∀ (result : Int32) (o : ServiceOp) (next : ServiceRes o → ConsumerIr.Thread Unit),
      (Program.perform (Instr.unlock ()) fun _ => ConsumerIr.reply result) ≠ .perform (.op o) next :=
    fun _ _ _ => nofun
  rcases hwithin.run hk (fun _ _ h => Eq.symm h) with ⟨y, rfl, hrun⟩
  exact ⟨y, rfl, hrun.trans (transmitLirc_run x d)⟩

/-- The whole stretch of a command. -/
theorem stretch_transmit {x : Request} {p q q' : ConsumerIr.Thread Unit}
    {ops : List (Answered ServiceOp ServiceRes)} (henters : Enters io.machine () d (ConsumerIr.transmit x) p)
    (hwithin : Within io.machine Eq p d ops q d') (hleaves : Leaves () q q') :
    d' = (transmitLirc io x.carrier x.pattern d).2 ∧
      q' = ConsumerIr.reply (transmitLirc io x.carrier x.pattern d).1 := by
  rcases within_transmit henters hwithin with ⟨y, rfl, hrun⟩
  cases y with
  | pure result =>
      cases hleaves
      cases hrun
      exact ⟨rfl, rfl⟩
  | throw e => exact e.elim
  | perform o next => cases hleaves

/-- What was served, in a run of whole commands. -/
def Account (io : Io σ) (d : Device σ) (past : List (IrDeed ι)) (done : List (Served ι))
    (c : Serial ServiceRes Unit Empty Empty (Device σ) ι) : Prop :=
  Serves io d done c.shared ∧
    ∀ i, calls.Stage i (requests i done) (statuses i done) past (c.code i)

theorem Account.start : Account io d [] ([] : List (Served ι)) (Serial.idle d) :=
  ⟨.none, fun _ => .idle rfl rfl rfl⟩

/-- A step serves a call, or leaves what was served alone. -/
theorem Account.step (h : Account io d past done c) (hstep : InTurn io c mv c') :
    ∃ new, Account io d (past ++ mv.deeds) (done ++ new) c' := by
  rcases h with ⟨hserves, hstage⟩
  -- of the other threads, whatever one does
  have hother : ∀ {i j : ι} {p : ConsumerIr.Thread Unit} {new : List (IrDeed ι)}, j ≠ i →
      begun j new = [] → calls.heard j new = [] →
      calls.Stage j (requests j done) (statuses j done) (past ++ new) (Function.update c.code i p j) := by
    intro i j p new hj hbegun hheard
    rw [Function.update_of_ne hj]
    exact (hstage j).other hbegun hheard
  cases hstep with
  | @start i p hcode hp =>
      rcases hp with ⟨x, rfl⟩
      refine ⟨[], by rw [List.append_nil]; exact hserves, fun j => ?_⟩
      rw [List.append_nil]
      by_cases hj : j = i
      · subst hj
        change calls.Stage j _ _ _ (Function.update c.code j _ j)
        rw [Function.update_self]
        exact (hstage j).start hcode x
      · exact hother hj (by simp [Move.deeds, Ne.symm hj]) rfl
  | @stretch i p q q' ops t henters hwithin hleaves hops =>
      rcases (hstage i).of_enters henters with ⟨x, hcode, hrequests, hstatuses⟩
      rw [hcode] at henters
      rcases stretch_transmit henters hwithin hleaves with ⟨rfl, rfl⟩
      refine ⟨_, .snoc i x hserves, fun j => ?_⟩
      have hheard : calls.heard j (operations i ops : List (IrDeed ι)) = [] :=
        calls.heard_operations calls_told hops
      by_cases hj : j = i
      · subst hj
        rw [requests_snoc, if_pos rfl, statuses_snoc, if_pos rfl]
        change calls.Stage j _ _ _ (Function.update c.code j _ j)
        rw [Function.update_self]
        exact .serve hrequests hstatuses begun_operations hheard _
      · rw [requests_snoc, if_neg (Ne.symm hj), statuses_snoc, if_neg (Ne.symm hj), List.append_nil,
          List.append_nil]
        exact hother hj begun_operations hheard
  | @apart i o next hcode hfree =>
      refine ⟨[], by rw [List.append_nil]; exact hserves, fun j => ?_⟩
      rw [List.append_nil]
      by_cases hj : j = i
      · subst hj
        change calls.Stage j _ _ _ (Function.update c.code j _ j)
        rw [Function.update_self]
        cases hstage j with
        | idle hp => cases hp.symm.trans hcode
        | waiting hp => cases hp.symm.trans hcode
        | telling hp hrequests hstatuses =>
            cases hp.symm.trans hcode
            exact .tell hrequests hstatuses
      · exact hother hj rfl (by simp [Move.deeds, Ne.symm hj])
  | environment hx =>
      cases hx
      refine ⟨[], by rw [List.append_nil]; exact hserves, fun j => ?_⟩
      rw [List.append_nil]
      exact (hstage j).other rfl rfl

/-- What the run of whole commands accounts for linearizes the interleaving that it explains. -/
theorem Account.linearized {h : List (IrEvent ι)} (haccount : Account io d past done c)
    (hb : Behind io.machine Eq ServiceOp.isReply () c past s (deeds h)) :
    Linearized io d h s done c.shared := by
  rcases haccount with ⟨hserves, hstage⟩
  refine ⟨hserves, ?_, ?_, ?_, ?_⟩
  · intro hfree
    cases hb with
    | level _ hshared => exact Eq.symm hshared
    | within hown => cases hfree.symm.trans hown
  · intro i hown
    have hbegun := hb.begun_eq i
    cases hb with
    | level hfree => cases hfree.symm.trans hown
    | @within j p ops hown' hothers henters hwithin hops hnow =>
        cases Option.some.inj (hown'.symm.trans hown)
        rcases (hstage i).of_enters henters with ⟨x, hcode, hnext, _⟩
        rw [hcode] at henters
        rcases within_transmit henters hwithin with ⟨y, _, hy⟩
        have hlater : s.shared.calls <+: (y.run io.step s.shared).2.calls := calls_run y s.shared
        rw [hy] at hlater
        exact ⟨x, hbegun.trans hnext, calls_within hwithin, hlater⟩
  · intro i
    rw [hb.begun_eq i]
    exact (hstage i).inOrder
  · intro i
    rw [hb.heard_eq calls_told i]
    exact (hstage i).answered

end Calls

/-! ## Every interleaving -/

/-- However the calls are interleaved, the device is used as if they were served one after the other,
each at some time between its start and its return, and each is told how its own command went: what
was served at one time comes first in what is served later. -/
theorem transmissions_linearized {io : Io σ} {d : Device σ} {h : List (IrEvent ι)} {s : IrThreads σ ι}
    (hrun : Run (Interleaves io) (.idle d) h s) :
    ∃ done, (∃ t, Linearized io d h s done t) ∧ ∀ h₁ h₂, h = h₁ ++ h₂ →
      ∃ done₁ s₁, done₁ <+: done ∧ Run (Interleaves io) (.idle d) h₁ s₁ ∧
        Run (Interleaves io) s₁ h₂ s ∧ ∃ t₁, Linearized io d h₁ s₁ done₁ t₁ := by
  have hstarts : ∀ (i : ι) (p : ConsumerIr.Thread Unit), Starts i p →
      Sectioned ServiceOp.isReply () false p false := by
    rintro i p ⟨x, rfl⟩
    exact transmit_sectioned x
  rcases serial (Account io d) (reply_apart io) hstarts Account.start
    (fun _ _ _ _ _ h hstep => h.step hstep) hrun with ⟨done, ⟨past, c, haccount, hb⟩, hcuts⟩
  refine ⟨done, ⟨c.shared, haccount.linearized hb⟩, fun h₁ h₂ hcut => ?_⟩
  rcases hcuts h₁ h₂ hcut with ⟨done₁, s₁, hbefore, hrun₁, hrun₂, past₁, c₁, haccount₁, hb₁⟩
  exact ⟨done₁, s₁, hbefore, hrun₁, hrun₂, c₁.shared, haccount₁.linearized hb₁⟩

end Threads

/-- Two calls at the same time: one is served and not told yet, the other has to wait. -/
theorem transmissions_linearized_willing : ∃ h, ∃ s : IrThreads Unit Bool, ∃ done t,
    Run (Interleaves willingIo) (.idle ⟨(), []⟩) h s ∧ s.owner () = none ∧ s.shared.calls.length = 4 ∧
      Linearized willingIo ⟨(), []⟩ h s done t := by
  have hrun : ∃ h, ∃ s : IrThreads Unit Bool, Run (Interleaves willingIo) (.idle ⟨(), []⟩) h s ∧
      s.owner () = none ∧ s.shared.calls.length = 4 := by
    refine ⟨_, _, Run.snoc _ (Run.snoc _ (Run.snoc _ (Run.snoc _ (Run.snoc _ (Run.snoc _ (Run.snoc _
      (Run.snoc _ Run.nil (.start (i := false) rfl ⟨⟨38000, [600, 500, 600]⟩, rfl⟩))
      (.start (i := true) rfl ⟨⟨36000, [900]⟩, rfl⟩)) (.lock (i := false) rfl rfl))
      (.op (i := false) rfl)) (.op (i := false) rfl)) (.op (i := false) rfl)) (.op (i := false) rfl))
      (.unlock (i := false) rfl rfl), rfl, rfl⟩
  rcases hrun with ⟨h, s, hrun, hfree, hcalls⟩
  rcases transmissions_linearized hrun with ⟨done, ⟨t, hlinear⟩, _⟩
  exact ⟨h, s, done, t, hrun, hfree, hcalls, hlinear⟩

end Ir
end M2391Device
