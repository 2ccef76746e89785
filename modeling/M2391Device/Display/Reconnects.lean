import M2391Device.Lib.History
import M2391Device.Lib.Pool
import M2391Device.Display.BootReceiver

/-!
# Reconnects — which samples a reconnect of the display rests on

A thread reconnects the display after two mismatching samples of its own.  If another thread has
reconnected it in the meantime, the samples are out of date (`healthy_reconnected`).  That cannot
happen as long as no transaction is made past another thread that is on its way to its own
(`reconnects_fresh`), and every transaction that is made past one can be followed by such a second reconnect
(`calm_iff`).
-/

namespace M2391Device
namespace Display

open Transition

/-! ## What should hold, and when it does -/

/-- Every transaction comes after two mismatching samples of its thread, and since the first of
them no other thread has made one. -/
def Fresh (h : List Event) : Prop :=
  ∀ (k i : Nat) (answer : Option Bool), h[k]? = some (.work i (.transact answer)) →
    ∃ a b : Nat, a < b ∧ b < k ∧ h[a]? = some (.work i (.sample .first true)) ∧
      h[b]? = some (.work i (.sample .second true)) ∧
      ∀ (m j : Nat) (answer' : Option Bool), a < m → m < k → h[m]? = some (.work j (.transact answer')) → j = i

/-- After a first mismatching sample, the thread may still come to its transaction. -/
def Phase.Pending : Phase → Prop
  | .sleeping .second => True
  | .sampling .second _ next => ∃ r, (next r).CanReturn true
  | .checkService => True
  | .transact => True
  | _ => False

namespace Recovery

/-- No thread but `i` is on its way to a transaction. -/
def Alone (s : Recovery) (i : Nat) : Prop :=
  ∀ (j : Nat) (p : Phase), s.threads[j]? = some p → p.Pending → j = i

/-- A step that makes no transaction past another thread. -/
def CalmStep (s : Recovery) (e : Event) (s' : Recovery) : Prop :=
  Step s e s' ∧ ∀ i answer, e = .work i (.transact answer) → s.Alone i

end Recovery

/-! ## What a thread has seen -/

/-- A transaction of another thread than `i`. -/
def OfAnother (i : Nat) (e : Event) : Prop := ∃ j answer, j ≠ i ∧ e = .work j (.transact answer)

/-- A first mismatching sample that nothing `stale` has followed. -/
def SampledOnce (stale : Event → Prop) (h : List Event) (i : Nat) : Prop :=
  ∃ a, Latest h stale a (.work i (.sample .first true))

/-- The same, and a second one after it. -/
def SampledTwice (stale : Event → Prop) (h : List Event) (i : Nat) : Prop :=
  ∃ a b : Nat, a < b ∧ Latest h stale a (.work i (.sample .first true)) ∧
    h[b]? = some (.work i (.sample .second true))

/-- What the history holds when the thread `i` is at `p`. -/
def Evidence (stale : Event → Prop) (h : List Event) (i : Nat) : Phase → Prop
  | .sleeping .second => SampledOnce stale h i
  | .sampling .second _ next => (∃ r, (next r).CanReturn true) → SampledOnce stale h i
  | .checkService => SampledTwice stale h i
  | .transact => SampledTwice stale h i
  | _ => True

section Evidence

variable {stale : Event → Prop} {h : List Event} {i : Nat} {e : Event} {p p' : Phase} {a : Action}
  {sys : System}

theorem SampledOnce.snoc (hsampled : SampledOnce stale h i) (he : ¬ stale e) :
    SampledOnce stale (h ++ [e]) i := by
  rcases hsampled with ⟨a, ha⟩
  exact ⟨a, ha.snoc_keep he⟩

theorem SampledTwice.snoc (hsampled : SampledTwice stale h i) (he : ¬ stale e) :
    SampledTwice stale (h ++ [e]) i := by
  rcases hsampled with ⟨a, b, hab, ha, hb⟩
  refine ⟨a, b, hab, ha.snoc_keep he, ?_⟩
  rw [List.getElem?_append_left (List.getElem?_eq_some_iff.1 hb).1]
  exact hb

/-- The second sample of a thread whose first is still in force. -/
theorem SampledOnce.second (hsampled : SampledOnce stale h i)
    (he : ¬ stale (.work i (.sample .second true))) :
    SampledTwice stale (h ++ [.work i (.sample .second true)]) i := by
  rcases hsampled with ⟨a, ha⟩
  exact ⟨a, h.length, ha.lt_length, ha.snoc_keep he, by simp⟩

/-- A thread keeps its evidence over any event, except over a `stale` one while it is on its way to a
transaction. -/
theorem Evidence.others (hp : Evidence stale h i p) (he : p.Pending → ¬ stale e) :
    Evidence stale (h ++ [e]) i p := by
  cases p with
  | sleeping round =>
      cases round with
      | second => exact hp.snoc (he trivial)
      | _ => exact trivial
  | sampling round q next =>
      cases round with
      | second => exact fun hcan => (hp hcan).snoc (he hcan)
      | _ => exact trivial
  | checkService => exact hp.snoc (he trivial)
  | transact => exact hp.snoc (he trivial)
  | finished => exact trivial

/-- What a thread's own step adds to its evidence. -/
theorem Evidence.work (hp : Evidence stale h i p) (hwork : Work sys p a p')
    (hown : ¬ stale (.work i a)) : Evidence stale (h ++ [.work i a]) i p' := by
  cases hwork with
  | @sleep round q next hstart =>
      cases round with
      | second => exact fun _ => hp.snoc hown
      | _ => exact trivial
  | @read round q q' next next' hnext =>
      cases round with
      | second =>
          -- what can still end in a mismatch after the answer could before it
          intro hcan
          have hcan' : (next (sys.answer q)).CanReturn true := by
            rw [hnext]
            exact hcan
          exact (hp ⟨_, hcan'⟩).snoc hown
      | _ => exact trivial
  | @sample round q next b hnext =>
      cases b with
      | false => cases round <;> exact trivial
      | true =>
          cases round with
          | first => exact ⟨h.length, Latest.snoc_new⟩
          | second =>
              have hcan : (next (sys.answer q)).CanReturn true := by
                rw [hnext]
                exact rfl
              exact (hp ⟨_, hcan⟩).second hown
          | afterwards => exact trivial
  | null_pointer => exact trivial
  | sampling_throws => exact trivial
  | checkService =>
      generalize sys.checkService = found at hown ⊢
      cases found with
      | false => exact trivial
      | true => exact hp.snoc hown
  | checkService_throws => exact trivial
  | parcel_throws => exact trivial
  | @transact answer =>
      split
      · exact trivial
      · exact trivial

end Evidence

/-! ## Runs -/

section Runs

variable {stale : Nat → Event → Prop} {h g : List Event} {s s' t : Recovery} {e : Event} {i : Nat}
  {answer : Option Bool} {system : System}

open Recovery

/-- Every thread has the evidence of the point where it is. -/
def Founded (stale : Nat → Event → Prop) (h : List Event) (s : Recovery) : Prop :=
  Pool.Each (fun i => Evidence (stale i) h i) s.threads

/-- One step keeps it, if its own thread and the threads on their way to a transaction do not count
the step as stale. -/
theorem Founded.step (hfounded : Founded stale h s) (hstep : Step s e s')
    (hown : ∀ i a, ¬ stale i (.work i a))
    (hothers : ∀ i p, s.threads[i]? = some p → p.Pending → ¬ stale i e) :
    Founded stale (h ++ [e]) s' := by
  have hkept : Founded stale (h ++ [e]) s :=
    hfounded.imp fun i p hp hevidence => hevidence.others (hothers i p hp)
  cases hstep with
  | @onReceive action =>
      unfold Recovery.onReceive
      split
      · exact hkept
      -- a new thread is before its first sample
      · exact hkept.spawn trivial
  | change => exact hkept
  | @work i a p p' hp hwork =>
      refine Pool.Each.set (fun j q _ hq => hkept j q hq) ?_
      exact (hfounded i p hp).work hwork (hown i a)

theorem founded_initial : Founded stale [] (initial system) := Pool.Each.nil

theorem founded_run (hrun : Run Step (initial system) h s) : Founded (fun _ _ => False) h s :=
  hrun.historyInvariant _ founded_initial
    fun _ _ _ _ _ ht hstep => ht.step hstep (fun _ _ => id) fun _ _ _ _ => id

theorem founded_calm (hrun : Run CalmStep (initial system) h s) : Founded OfAnother h s := by
  refine hrun.historyInvariant _ founded_initial ?_
  intro g t e u _ ht hstep
  refine ht.step hstep.1 ?_ ?_
  -- its own transaction is not another thread's
  · rintro i a ⟨j, answer, hji, heq⟩
    cases heq
    exact hji rfl
  -- and past a thread on its way there is none
  · rintro i p hp hpending ⟨j, answer, hji, rfl⟩
    exact hji (hstep.2 j answer rfl i p hp hpending).symm

/-- A thread that makes its transaction has the evidence for it. -/
theorem Founded.transact (hfounded : Founded stale h s)
    (hstep : Step s (.work i (.transact answer)) s') : SampledTwice (stale i) h i := by
  cases hstep with
  | work hp hwork =>
      have hevidence := hfounded _ _ hp
      cases hwork
      exact hevidence

/-- In every run, a transaction comes after two mismatching samples of its own thread. -/
theorem two_samples (hrun : Run Step (initial system) h s) {k : Nat}
    (hk : h[k]? = some (.work i (.transact answer))) :
    ∃ a b : Nat, a < b ∧ b < k ∧ h[a]? = some (.work i (.sample .first true)) ∧
      h[b]? = some (.work i (.sample .second true)) := by
  rcases hrun.atIndex hk with ⟨t, t', hpre, hstep, _⟩
  rcases (founded_run hpre).transact hstep with ⟨a, b, hab, ha, hb⟩
  rcases getElem?_of_take hb with ⟨hbk, hb'⟩
  exact ⟨a, b, hab, hbk, (getElem?_of_take ha.1).2, hb'⟩

/-- The samples that are in force at position `k` of a history. -/
theorem SampledTwice.before {k : Nat} (hsampled : SampledTwice (OfAnother i) (h.take k) i) :
    ∃ a b : Nat, a < b ∧ b < k ∧ h[a]? = some (.work i (.sample .first true)) ∧
      h[b]? = some (.work i (.sample .second true)) ∧
      ∀ (m j : Nat) (answer' : Option Bool), a < m → m < k →
        h[m]? = some (.work j (.transact answer')) → j = i := by
  rcases hsampled with ⟨a, b, hab, ⟨ha, hstale⟩, hb⟩
  rcases getElem?_of_take hb with ⟨hbk, hb'⟩
  refine ⟨a, b, hab, hbk, (getElem?_of_take ha).2, hb', ?_⟩
  intro m j answer' ham hmk hm
  by_contra hji
  exact hstale m _ ham (getElem?_take_of_lt hmk hm) ⟨j, answer', hji, rfl⟩

/-- If no transaction before the last one is made past another thread, none of them is made on
samples that are out of date, and neither is the last one. -/
theorem fresh_snoc (hrun : Run CalmStep (initial system) h s) (hstep : Step s e s') :
    Fresh (h ++ [e]) := by
  intro k i answer hk
  refine SampledTwice.before ?_
  -- the transaction is one of the run, or the last step
  rcases getElem?_snoc_cases hk with hold | ⟨rfl, rfl⟩
  · rw [List.take_append_of_le_length (Nat.le_of_lt (List.getElem?_eq_some_iff.1 hold).1)]
    rcases hrun.atIndex hold with ⟨t, t', hpre, hstep', _⟩
    exact (founded_calm hpre).transact hstep'.1
  · rw [List.take_left' rfl]
    exact (founded_calm hrun).transact hstep

/-- In every run in which no transaction is made past a thread that is on its way to one, each
transaction rests on samples that are up to date. -/
theorem reconnects_fresh (hrun : Run CalmStep (initial system) h s) : Fresh h := by
  cases hrun with
  | nil =>
      intro k i answer hk
      cases hk
  | snoc e hpre hstep => exact fresh_snoc hpre hstep.1

/-- Between the transactions of two threads, the second one has taken both of its samples. -/
theorem Fresh.between (hfresh : Fresh h) {j k l : Nat} {answer' : Option Bool} (hij : i ≠ j)
    (hkl : k < l) (hk : h[k]? = some (.work i (.transact answer)))
    (hl : h[l]? = some (.work j (.transact answer'))) :
    ∃ a b : Nat, k < a ∧ a < b ∧ b < l ∧ h[a]? = some (.work j (.sample .first true)) ∧
      h[b]? = some (.work j (.sample .second true)) := by
  rcases hfresh l j answer' hl with ⟨a, b, hab, hbl, ha, hb, hsince⟩
  refine ⟨a, b, ?_, hab, hbl, ha, hb⟩
  by_contra hka
  rcases Nat.lt_or_eq_of_le (Nat.le_of_not_lt hka) with hlt | heq
  · exact hij (hsince k i answer hlt hkl hk)
  · rw [heq] at ha
    cases ha.symm.trans hk

/-- Without a new first sample, a thread's transaction after another one's is not fresh. -/
theorem not_fresh {j : Nat} {answer' : Option Bool} (hij : i ≠ j)
    (hg : ∀ e ∈ g, e ≠ .work j (.sample .first true)) :
    ¬ Fresh (h ++ .work i (.transact answer) :: (g ++ [.work j (.transact answer')])) := by
  intro hfresh
  have hk : (h ++ .work i (.transact answer) ::
      (g ++ [.work j (.transact answer')]))[h.length]? = some (.work i (.transact answer)) := by simp
  have hl : (h ++ .work i (.transact answer) :: (g ++ [.work j (.transact answer')]))[h.length +
      (g.length + 1)]? = some (.work j (.transact answer')) := by simp
  rcases hfresh.between hij (by omega) hk hl with ⟨a, b, hka, hab, hbl, ha, _⟩
  -- the sample would be in `g`
  have hmem : (g ++ [Event.work j (.transact answer')])[a - h.length - 1]? =
      some (.work j (.sample .first true)) := by
    rw [List.getElem?_append_right (Nat.le_of_lt hka)] at ha
    obtain ⟨m, hm⟩ : ∃ m, a - h.length = m + 1 := ⟨a - h.length - 1, by omega⟩
    rw [hm] at ha ⊢
    exact ha
  rw [List.getElem?_append_left (by omega)] at hmem
  exact hg _ (List.mem_of_getElem? hmem) rfl

/-! ## A thread on its way comes to its transaction -/

/-- An event on the way: the thread is past its first sample and before its transaction. -/
def Event.Onward : Event → Prop
  | .change => True
  | .work _ (.sample .first _) => False
  | .work _ (.transact _) => False
  | .work _ _ => True
  | .onReceive _ => False

def OnwardStep (s : Recovery) (e : Event) (s' : Recovery) : Prop := Step s e s' ∧ e.Onward

theorem OnwardStep.calm (hstep : OnwardStep s e s') : CalmStep s e s' := by
  refine ⟨hstep.1, ?_⟩
  rintro i answer rfl
  exact hstep.2.elim

theorem onward_events (hrun : Run OnwardStep s h s') (he : e ∈ h) : e.Onward := by
  rcases List.getElem?_of_mem he with ⟨k, hk⟩
  rcases hrun.atIndex hk with ⟨t, t', _, hstep, _⟩
  exact hstep.2

/-- The system may come to answer a call in any way. -/
theorem System.exists_answer (sys : System) (q : Query) (r : q.Answer) :
    ∃ sys' : System, sys'.answer q = r := by
  cases q with
  | getSystemService => exact ⟨{ sys with getSystemService := r }, rfl⟩
  | getDisplay => exact ⟨{ sys with getDisplay := fun _ => r }, rfl⟩
  | getAddress => exact ⟨{ sys with getAddress := r }, rfl⟩
  | getDynamicDisplayInfo => exact ⟨{ sys with getDynamicDisplayInfo := fun _ => r }, rfl⟩
  | getMode => exact ⟨{ sys with getMode := r }, rfl⟩

/-- A thread makes its next step in a system of its choice. -/
theorem onward_work {p p' : Phase} {a : Action} {sys : System} (hp : s.threads[i]? = some p)
    (hwork : Work sys p a p') (hon : Event.Onward (.work i a)) :
    ∃ u, Run OnwardStep s [.change, .work i a] u ∧ u.threads[i]? = some p' := by
  have hlt : i < s.threads.length := (List.getElem?_eq_some_iff.1 hp).1
  have hchange : OnwardStep s .change { s with system := sys } := ⟨.change, trivial⟩
  have hstep : OnwardStep { s with system := sys } (.work i a)
      { s with system := sys, threads := s.threads.set i p' } := ⟨.work hp hwork, hon⟩
  exact ⟨_, Run.cons hchange (Run.single hstep), List.getElem?_set_self hlt⟩

/-- The second sample can end with a mismatch.  The induction is on what is left of it. -/
theorem sampling_onward (rest : Sample) : ∀ (s : Recovery) (q : Query) (next : q.Answer → Sample)
    (r : q.Answer), s.threads[i]? = some (.sampling .second q next) → next r = rest →
    rest.CanReturn true →
    ∃ g u, Run OnwardStep s g u ∧ u.threads[i]? = some .checkService := by
  induction rest with
  | pure b =>
      intro s q next r hp hnext hcan
      rcases s.system.exists_answer q r with ⟨sys, rfl⟩
      have hb : b = true := hcan
      subst hb
      rcases onward_work hp (.sample hnext) trivial with ⟨u, hrun, hu⟩
      exact ⟨_, u, hrun, hu⟩
  | throw e =>
      intro s q next r hp hnext hcan
      exact hcan.elim
  | perform q' next' ih =>
      intro s q next r hp hnext hcan
      rcases s.system.exists_answer q r with ⟨sys, rfl⟩
      rcases hcan with ⟨r', hcan'⟩
      rcases onward_work hp (.read hnext) trivial with ⟨t, hrun, ht⟩
      rcases ih r' t q' next' r' ht rfl hcan' with ⟨g, u, hrest, hu⟩
      exact ⟨_, u, hrun.trans hrest, hu⟩

theorem hasResolutionMismatch_canReturn : hasResolutionMismatch.CanReturn true := by
  have hmismatch : mismatch ⟨0, 0⟩ 0 [⟨0, 1, 1⟩] = true := by decide
  exact ⟨true, true, some 0, some ⟨some [⟨0, 1, 1⟩], 0⟩, ⟨0, 0⟩, hmismatch⟩

theorem checkService_onward (hp : s.threads[i]? = some .checkService) :
    ∃ g u, Run OnwardStep s g u ∧ u.threads[i]? = some .transact := by
  have hwork : Work { s.system with checkService := true } .checkService (.checkService true)
      .transact := .checkService
  rcases onward_work hp hwork trivial with ⟨u, hrun, hu⟩
  exact ⟨_, u, hrun, hu⟩

theorem pending_onward {p : Phase} (hp : s.threads[i]? = some p) (hpending : p.Pending) :
    ∃ g u, Run OnwardStep s g u ∧ u.threads[i]? = some .transact := by
  have hsampling : ∀ {s q next}, s.threads[i]? = some (.sampling .second q next) →
      (∃ r, (next r).CanReturn true) →
      ∃ g u, Run OnwardStep s g u ∧ u.threads[i]? = some .transact := by
    rintro s q next hp ⟨r, hcan⟩
    rcases sampling_onward _ s q next r hp rfl hcan with ⟨g, t, hrun, ht⟩
    rcases checkService_onward ht with ⟨g', u, hrest, hu⟩
    exact ⟨_, u, hrun.trans hrest, hu⟩
  cases p with
  | sleeping round =>
      cases round with
      | second =>
          have hwork : Work s.system (.sleeping .second) .sleep (.sampling .second _ _) := .sleep rfl
          rcases onward_work hp hwork trivial with ⟨t, hrun, ht⟩
          rcases hsampling ht hasResolutionMismatch_canReturn with ⟨g, u, hrest, hu⟩
          exact ⟨_, u, hrun.trans hrest, hu⟩
      | _ => exact hpending.elim
  | sampling round q next =>
      cases round with
      | second => exact hsampling hp hpending
      | _ => exact hpending.elim
  | checkService => exact checkService_onward hp
  | transact => exact ⟨[], s, Run.nil, hp⟩
  | finished => exact hpending.elim

/-- After a calm run, a step is calm exactly when no transaction that may come next, with or without
other events before it, is made on samples that are out of date. -/
theorem calm_iff (hrun : Run CalmStep (initial system) h s) (hstep : Step s e s') :
    CalmStep s e s' ↔
      ∀ g t e' u, Run CalmStep s' g t → Step t e' u → Fresh (h ++ e :: (g ++ [e'])) := by
  constructor
  · intro hcalm g t e' u hrest hlast
    have hall : Run CalmStep (initial system) (h ++ e :: g) t := hrun.trans (Run.cons hcalm hrest)
    simpa using fresh_snoc hall hlast
  · intro hfresh
    refine ⟨hstep, ?_⟩
    rintro i answer rfl j p hp hpending
    by_contra hji
    -- the step of `i` leaves `j` where it is
    have hp' : s'.threads[j]? = some p := by
      cases hstep with
      | work hi hwork =>
          rw [← hp]
          exact List.getElem?_set_ne (Ne.symm hji)
    rcases pending_onward hp' hpending with ⟨g, t, hrest, ht⟩
    have hlast : Step t (.work j (.transact (some true))) _ := .work ht .transact
    refine not_fresh (Ne.symm hji) ?_ (hfresh g t _ _ (hrest.mono fun _ _ _ => OnwardStep.calm) hlast)
    rintro e he rfl
    exact onward_events hrest he

/-! ## Two broadcasts -/

/-- A system with one display in the mode `native`, which the framework has in the mode
`framework`. -/
def panel (native framework : Mode) : System where
  getSystemService := true
  getDisplay _ := true
  getAddress := some 0
  getDynamicDisplayInfo _ := some ⟨some [⟨0, native.physicalWidth, native.physicalHeight⟩], 0⟩
  getMode := framework
  checkService := true

def qhd : Mode := ⟨1440, 3200⟩

def fhd : Mode := ⟨1080, 2400⟩

/-- Both threads are started before the first of them looks. -/
def boot : List Event :=
  [.onReceive (some ACTION_LOCKED_BOOT_COMPLETED), .onReceive (some ACTION_BOOT_COMPLETED)]

/-- A sample of the thread `i` on such a display, with the sleep before it. -/
def sampling (i : Nat) (round : Round) (b : Bool) : List Event :=
  [.work i .sleep, .work i (.read .getSystemService), .work i (.read (.getDisplay DEFAULT_DISPLAY)),
    .work i (.read .getAddress), .work i (.read (.getDynamicDisplayInfo 0)),
    .work i (.sample round b)]

/-- The thread `i` up to its transaction. -/
def deciding (i : Nat) : List Event :=
  sampling i .first true ++ sampling i .second true ++ [.work i (.checkService true)]

theorem calm_work {p p' : Phase} {a : Action} (hp : s.threads[i]? = some p)
    (hwork : Work s.system p a p') (ha : ∀ answer, a ≠ .transact answer) :
    CalmStep s (.work i a) { s with threads := s.threads.set i p' } := by
  refine ⟨.work hp hwork, ?_⟩
  intro j answer heq
  cases heq
  exact absurd rfl (ha answer)

theorem sampling_run (native framework : Mode) {round : Round} {threads : List Phase} {b : Bool}
    (hb : mismatch framework 0 [⟨0, native.physicalWidth, native.physicalHeight⟩] = b)
    (hi : threads[i]? = some (.sleeping round)) :
    Run CalmStep ⟨panel native framework, threads⟩ (sampling i round b)
      ⟨panel native framework, threads.set i (.sampled round b)⟩ := by
  have hlt : i < threads.length := (List.getElem?_eq_some_iff.1 hi).1
  -- from one control point of the thread to the next
  have hnext : ∀ {p p' : Phase} {a : Action}, (∀ answer, a ≠ .transact answer) →
      Work (panel native framework) p a p' →
      CalmStep ⟨panel native framework, threads.set i p⟩ (.work i a)
        ⟨panel native framework, threads.set i p'⟩ := by
    intro p p' a ha hwork
    have hstep := calm_work (s := ⟨panel native framework, threads.set i p⟩)
      (List.getElem?_set_self hlt) hwork ha
    rwa [List.set_set] at hstep
  refine Run.cons (calm_work hi (.sleep rfl) nofun) ?_
  refine Run.cons (hnext nofun (.read rfl)) (Run.cons (hnext nofun (.read rfl)) ?_)
  refine Run.cons (hnext nofun (.read rfl)) (Run.cons (hnext nofun (.read rfl)) ?_)
  exact Run.single (hnext nofun (.sample (congrArg Program.pure hb)))

theorem deciding_run {threads : List Phase} (hi : threads[i]? = some (.sleeping .first)) :
    Run CalmStep ⟨panel qhd fhd, threads⟩ (deciding i)
      ⟨panel qhd fhd, threads.set i .transact⟩ := by
  have hlt : i < threads.length := (List.getElem?_eq_some_iff.1 hi).1
  have hself : ∀ p : Phase, (threads.set i p)[i]? = some p := fun p => List.getElem?_set_self hlt
  have hfirst := sampling_run qhd fhd (b := true) rfl hi
  have hsecond := sampling_run qhd fhd (b := true) rfl (hself (.sleeping .second))
  rw [List.set_set] at hsecond
  have hcheck := calm_work (s := ⟨panel qhd fhd, threads.set i .checkService⟩) (hself .checkService)
    .checkService nofun
  rw [List.set_set] at hcheck
  exact (hfirst.trans hsecond).trans (Run.single hcheck)

theorem boot_run {sys : System} :
    Run CalmStep (initial sys) boot ⟨sys, [.sleeping .first, .sleeping .first]⟩ :=
  Run.cons ⟨.onReceive, nofun⟩ (Run.single ⟨.onReceive, nofun⟩)

/-- The second thread first looks when the first one has repaired the display. -/
theorem reconnects_fresh_boot :
    Run CalmStep (initial (panel qhd fhd))
        (boot ++ deciding 0 ++ [.work 0 (.transact (some true)), .change] ++
          sampling 1 .first false)
        ⟨panel qhd qhd, [.sleeping .afterwards, .finished]⟩ ∧
      Fresh (boot ++ deciding 0 ++ [.work 0 (.transact (some true)), .change] ++
        sampling 1 .first false) := by
  -- the other thread has not looked yet
  have halone : Alone ⟨panel qhd fhd, [.transact, .sleeping .first]⟩ 0 := by
    intro j p hp hpending
    match j, hp with
    | 0, _ => rfl
    | 1, rfl => exact hpending.elim
  have hreconnect : Run CalmStep ⟨panel qhd fhd, [.transact, .sleeping .first]⟩
      [.work 0 (.transact (some true)), .change]
      ⟨panel qhd qhd, [.sleeping .afterwards, .sleeping .first]⟩ := by
    refine Run.cons ⟨.work rfl .transact, ?_⟩ (Run.single ⟨.change, nofun⟩)
    rintro i answer heq
    cases heq
    exact halone
  have hrun := ((boot_run.trans (deciding_run (i := 0) rfl)).trans hreconnect).trans
    (sampling_run qhd qhd (i := 1) (b := false) rfl rfl)
  exact ⟨hrun, reconnects_fresh hrun⟩

/-- Both threads have seen the mismatch twice, and the first one has repaired it. -/
def raced : Recovery := ⟨panel qhd qhd, [.sleeping .afterwards, .transact]⟩

def race : List Event :=
  boot ++ (deciding 0 ++ deciding 1) ++ [.work 0 (.transact (some true)), .change]

/-- The second thread reconnects a display whose modes agree. -/
theorem healthy_reconnected :
    (Run Step (initial (panel qhd fhd)) race raced ∧ ¬ raced.system.Mismatched) ∧
      (∃ s, Run Step (initial (panel qhd fhd)) (race ++ [.work 1 (.transact (some true))]) s) ∧
      ¬ Fresh (race ++ [.work 1 (.transact (some true))]) := by
  -- the first transaction is made past the second thread; up to there the run is calm
  have hcalm := boot_run.trans ((deciding_run (i := 0) rfl).trans (deciding_run (i := 1) rfl))
  have hrace : Run Step (initial (panel qhd fhd)) race raced :=
    (hcalm.mono fun _ _ _ h => h.1).trans (Run.cons (.work rfl .transact) (Run.single .change))
  refine ⟨⟨hrace, ?_⟩, ⟨_, Run.snoc _ hrace (.work rfl .transact)⟩, ?_⟩
  · have hmanager : raced.system.getSystemService = true := rfl
    rcases hasResolutionMismatch_run hmanager with ⟨b, hrun, hb⟩
    rw [← hb]
    have hfalse : false = b := by
      cases hrun
      rfl
    rw [← hfalse]
    exact Bool.false_ne_true
  -- the second thread's samples lie before the first transaction
  · have hstale : ¬ Fresh (boot ++ (deciding 0 ++ deciding 1) ++
        .work 0 (.transact (some true)) :: ([.change] ++ [.work 1 (.transact (some true))])) :=
      not_fresh Nat.zero_ne_one (by simp)
    simpa [race] using hstale

end Runs

end Display
end M2391Device
