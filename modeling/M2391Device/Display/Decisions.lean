import M2391Device.Display.Reconnects

/-!
# Decisions — a display is reconnected when its modes differ

Each thread of `BootReceiver` decides for itself, whatever the other threads do.  As long as the display
does not change in the middle of one of its samples, a thread that is not stopped by an exception has the
display reconnected if its modes differ, once, and leaves it alone if they agree
(`reconnected_when_mismatched`).
-/

namespace M2391Device
namespace Display

open Transition

/-! ## Decisions -/

/-- The thread has yet to decide. -/
def Phase.Deciding : Phase → Prop
  | .sleeping .first | .sleeping .second => True
  | .sampling .first _ _ | .sampling .second _ _ => True
  | .checkService => True
  | _ => False

/-- In the middle of a sample that the thread decides by. -/
def Phase.Looking : Phase → Prop
  | .sampling .first _ _ | .sampling .second _ _ => True
  | _ => False

namespace Recovery

/-- While the thread `i` decides, the modes of the display differ or agree as `b` says, and nothing changes
while it looks.  If they differ then there is somebody to reconnect the display. -/
structure Steady (i : Nat) (b : Bool) (s : Recovery) (e : Event) (s' : Recovery) : Prop where
  step : Step s e s'
  display : ∀ p, s.threads[i]? = some p → p.Deciding →
    (s.system.Mismatched ↔ b = true) ∧ (b = true → s.system.checkService = true)
  still : ∀ p, s.threads[i]? = some p → p.Looking → e ≠ .change

end Recovery

/-- A transaction of the thread `i`. -/
def Event.reconnects (i : Nat) : Event → Bool
  | .work j (.transact _) => j == i
  | _ => false

/-- How often the thread `i` has had the display reconnected. -/
def reconnections (i : Nat) (h : List Event) : Nat := h.countP (Event.reconnects i)

/-! ## One thread -/

/-- In this system the rest of a sample ends with `b`, if it ends. -/
def Tells (sys : System) (b : Bool) (rest : Sample) : Prop :=
  ∀ r, (rest.run (fun q sys => (sys.answer q, sys)) sys).1 = .ok r → r = b

/-- What the thread has done and knows at each point, after `n` transactions. -/
def Decided (sys : System) (b : Bool) (n : Nat) (threw : Prop) : Phase → Prop
  | .sleeping .first => n = 0
  | .sampling .first q next => n = 0 ∧ Tells sys b (.perform q next)
  | .sleeping .second => n = 0 ∧ b = true
  | .sampling .second q next => n = 0 ∧ b = true ∧ Tells sys b (.perform q next)
  | .checkService => n = 0 ∧ b = true
  | .transact => n = 0 ∧ b = true
  | .sleeping .afterwards => n = 1 ∧ b = true
  | .sampling .afterwards _ _ => n = 1 ∧ b = true
  | .finished => n = (if b then 1 else 0) ∨ threw ∧ n = 0

section Thread

variable {sys sys' : System} {b : Bool} {n : Nat} {threw threw' : Prop} {p p' : Phase} {a : Action}

/-- A sample of a system that stands still is right. -/
theorem hasResolutionMismatch_tells (hdisplay : sys.Mismatched ↔ b = true) :
    Tells sys b hasResolutionMismatch := by
  intro r hr
  cases hmanager : sys.getSystemService with
  | false =>
      have hthrows : (hasResolutionMismatch.run (fun q sys => (sys.answer q, sys)) sys).1 =
          .error .nullPointer := by
        simp [hasResolutionMismatch, Program.run, System.answer, hmanager]
      cases hthrows.symm.trans hr
  | true =>
      rcases hasResolutionMismatch_run hmanager with ⟨r', hrun, hmismatch⟩
      rw [hrun] at hr
      cases hr
      exact Bool.eq_iff_iff.2 (hmismatch.trans hdisplay)

/-- Where the thread is not looking, nothing depends on the system. -/
theorem Decided.change (hp : Decided sys b n threw p) (hstill : ¬ p.Looking) :
    Decided sys' b n threw p := by
  cases p with
  | sleeping round => cases round <;> exact hp
  | sampling round q next =>
      cases round with
      | first => exact absurd trivial hstill
      | second => exact absurd trivial hstill
      | afterwards => exact hp
  | _ => exact hp

theorem Decided.mono (hp : Decided sys b n threw p) (hthrew : threw → threw') :
    Decided sys b n threw' p := by
  cases p with
  | sleeping round => cases round <;> exact hp
  | sampling round q next => cases round <;> exact hp
  | finished => exact hp.imp id fun hthrown => ⟨hthrew hthrown.1, hthrown.2⟩
  | _ => exact hp

/-- At most one transaction, and one only where the modes differ. -/
theorem Decided.count (hp : Decided sys b n threw p) : n = 0 ∨ n = 1 ∧ b = true := by
  cases p with
  | sleeping round =>
      cases round with
      | first => exact Or.inl hp
      | second => exact Or.inl hp.1
      | afterwards => exact Or.inr hp
  | sampling round q next =>
      cases round with
      | first => exact Or.inl hp.1
      | second => exact Or.inl hp.1
      | afterwards => exact Or.inr hp
  | checkService => exact Or.inl hp.1
  | transact => exact Or.inl hp.1
  | finished =>
      rcases hp with hn | ⟨_, hn⟩
      · cases b with
        | true => exact Or.inr ⟨hn, rfl⟩
        | false => exact Or.inl hn
      · exact Or.inl hn

/-- An exception ends the thread. -/
theorem Decided.throw (hp : Decided sys b n threw p) (hthrew : threw) :
    Decided sys b n threw .finished := by
  rcases hp.count with hn | ⟨rfl, rfl⟩
  · exact Or.inr ⟨hthrew, hn⟩
  · exact Or.inl rfl

/-- What a step of the thread itself makes of it. -/
theorem Decided.work {i : Nat} (hp : Decided sys b n threw p) (hwork : Work sys p a p')
    (hdisplay : p.Deciding → (sys.Mismatched ↔ b = true) ∧ (b = true → sys.checkService = true))
    (hthrew : a = .throw → threw) :
    Decided sys b (n + if Event.reconnects i (.work i a) then 1 else 0) threw p' := by
  cases hwork with
  | @sleep round q next hstart =>
      cases round with
      | first =>
          -- the display is as `b` says from the first question of the sample on
          have htells := hasResolutionMismatch_tells (hdisplay trivial).1
          rw [hstart] at htells
          exact ⟨hp, htells⟩
      | second =>
          have htells := hasResolutionMismatch_tells (hdisplay trivial).1
          rw [hstart] at htells
          exact ⟨hp.1, hp.2, htells⟩
      | afterwards => exact hp
  | @read round q q' next next' hnext =>
      -- the rest of a sample ends as the sample does
      have hrest : Tells sys b (.perform q next) → Tells sys b (.perform q' next') := by
        intro htells
        rw [← hnext]
        exact htells
      cases round with
      | first => exact ⟨hp.1, hrest hp.2⟩
      | second => exact ⟨hp.1, hp.2.1, hrest hp.2.2⟩
      | afterwards => exact hp
  | @sample round q next r hend =>
      have hresult : Tells sys b (.perform q next) → r = b := by
        intro htells
        refine htells r ?_
        change ((next (sys.answer q)).run _ sys).1 = .ok r
        rw [hend]
        rfl
      cases round with
      | first =>
          rcases hp with ⟨hn, htells⟩
          cases hresult htells
          -- if the modes agree then the thread is through
          cases b with
          | true => exact ⟨hn, rfl⟩
          | false => exact Or.inl hn
      | second =>
          rcases hp with ⟨hn, rfl, htells⟩
          cases hresult htells
          exact ⟨hn, rfl⟩
      | afterwards =>
          rcases hp with ⟨hn, rfl⟩
          exact Or.inl hn
  | null_pointer => exact hp.throw (hthrew rfl)
  | sampling_throws => exact hp.throw (hthrew rfl)
  | checkService =>
      rcases hp with ⟨hn, rfl⟩
      rw [(hdisplay trivial).2 rfl]
      exact ⟨hn, rfl⟩
  | checkService_throws => exact hp.throw (hthrew rfl)
  | parcel_throws => exact hp.throw (hthrew rfl)
  | @transact answer =>
      rcases hp with ⟨rfl, rfl⟩
      have hone : (0 + if Event.reconnects i (.work i (.transact answer)) then 1 else 0) = 1 := by
        simp [Event.reconnects]
      rw [hone]
      -- the display is looked at once more if the transaction was answered well, but not decided by
      by_cases hanswer : answer = some true
      · rw [if_pos hanswer]
        exact ⟨rfl, rfl⟩
      · rw [if_neg hanswer]
        exact Or.inl rfl

theorem Decided.bounds (hp : Decided sys b n threw p) : n ≤ 1 ∧ (b = false → n = 0) := by
  rcases hp.count with rfl | ⟨rfl, rfl⟩
  · exact ⟨Nat.zero_le 1, fun _ => rfl⟩
  · exact ⟨Nat.le_refl 1, nofun⟩

end Thread

/-! ## Every run -/

namespace Recovery

variable {i : Nat} {b : Bool} {system : System} {h : List Event} {s s' : Recovery} {e : Event}

theorem reconnections_snoc :
    reconnections i (h ++ [e]) = reconnections i h + if e.reconnects i then 1 else 0 := by
  rw [reconnections, List.countP_append, List.countP_singleton]
  rfl

theorem reconnections_other (he : e.reconnects i = false) :
    reconnections i (h ++ [e]) = reconnections i h := by
  rw [reconnections_snoc, he]
  rfl

/-- The history of the thread `i`, if it has been started. -/
structure Accounted (i : Nat) (b : Bool) (h : List Event) (s : Recovery) : Prop where
  started : ∀ p, s.threads[i]? = some p →
    Decided s.system b (reconnections i h) (.work i .throw ∈ h) p
  not_started : s.threads[i]? = none → reconnections i h = 0

/-- An event that is not of the thread. -/
theorem Accounted.other (hs : Accounted i b h s) (he : e.reconnects i = false)
    (hthread : s'.threads[i]? = s.threads[i]?) (hsystem : s'.system = s.system) :
    Accounted i b (h ++ [e]) s' := by
  refine ⟨fun p hp => ?_, fun hnot => ?_⟩
  · rw [hthread] at hp
    rw [reconnections_other he, hsystem]
    exact (hs.started p hp).mono (List.mem_append_left _)
  · rw [hthread] at hnot
    rw [reconnections_other he]
    exact hs.not_started hnot

theorem Accounted.step (hs : Accounted i b h s) (hstep : Steady i b s e s') :
    Accounted i b (h ++ [e]) s' := by
  rcases hstep with ⟨hstep, hdisplay, hstill⟩
  cases hstep with
  | @onReceive action =>
      by_cases haction :
          action ≠ some ACTION_BOOT_COMPLETED ∧ action ≠ some ACTION_LOCKED_BOOT_COMPLETED
      · rw [onReceive, if_pos haction]
        exact hs.other rfl rfl rfl
      rw [onReceive, if_neg haction]
      -- the thread that is started is `i`, or another one
      by_cases hi : i = s.threads.length
      · subst hi
        have hnew : (s.threads ++ [Phase.sleeping .first])[s.threads.length]? =
            some (.sleeping .first) := List.getElem?_concat_length
        refine ⟨fun p hp => ?_, fun hnot => ?_⟩
        · rw [hnew] at hp
          cases hp
          rw [reconnections_other rfl]
          exact hs.not_started (List.getElem?_eq_none (Nat.le_refl _))
        · rw [hnew] at hnot
          cases hnot
      · refine hs.other rfl ?_ rfl
        rcases Nat.lt_or_gt_of_ne hi with hlt | hgt
        · exact List.getElem?_append_left hlt
        · rw [List.getElem?_append_right (Nat.le_of_lt hgt), List.getElem?_eq_none (Nat.le_of_lt hgt)]
          exact List.getElem?_eq_none (Nat.succ_le_of_lt (Nat.sub_pos_of_lt hgt))
  | @change system =>
      -- the thread does not look, so that what it knows is of no system
      refine ⟨fun p hp => ?_, fun hnot => ?_⟩
      · have hdecided : Decided system b (reconnections i h) (.work i .throw ∈ h) p :=
          (hs.started p hp).change fun hlooking => hstill p hp hlooking rfl
        rw [reconnections_other rfl]
        exact hdecided.mono (List.mem_append_left _)
      · rw [reconnections_other rfl]
        exact hs.not_started hnot
  | @work j a p p' hp hwork =>
      by_cases hj : j = i
      · subst hj
        have hlt : j < s.threads.length := (List.getElem?_eq_some_iff.1 hp).1
        have hself : (s.threads.set j p')[j]? = some p' := List.getElem?_set_self hlt
        refine ⟨fun q hq => ?_, fun hnot => ?_⟩
        · rw [hself] at hq
          cases hq
          rw [reconnections_snoc]
          refine ((hs.started p hp).mono (List.mem_append_left _)).work hwork (hdisplay p hp) ?_
          rintro rfl
          exact List.mem_append_right _ List.mem_cons_self
        · rw [hself] at hnot
          cases hnot
      · have hnone : Event.reconnects i (.work j a) = false := by
          cases a with
          | transact answer => exact beq_eq_false_iff_ne.2 hj
          | _ => rfl
        -- another thread moves, and no other thread's transactions are counted
        exact hs.other hnone (List.getElem?_set_ne hj) rfl

/-- However the threads are interleaved: a thread has the display reconnected at most once, and not at all
where the modes agree; and one that is through without an exception has done so if they differ. -/
theorem reconnected_when_mismatched (hrun : Run (Steady i b) (initial system) h s) :
    reconnections i h ≤ 1 ∧ (b = false → reconnections i h = 0) ∧
      (s.threads[i]? = some .finished → .work i .throw ∉ h →
        reconnections i h = if b then 1 else 0) := by
  have hstart : Accounted i b [] (initial system) := ⟨nofun, fun _ => rfl⟩
  have haccount : Accounted i b h s :=
    hrun.historyInvariant (Accounted i b) hstart fun _ _ _ _ _ hs hstep => hs.step hstep
  cases hthread : s.threads[i]? with
  | none =>
      have hn := haccount.not_started hthread
      exact ⟨hn ▸ Nat.zero_le 1, fun _ => hn, nofun⟩
  | some p =>
      have hdecided := haccount.started p hthread
      refine ⟨hdecided.bounds.1, hdecided.bounds.2, fun hfinished hthrow => ?_⟩
      cases hfinished
      rcases hdecided with hn | ⟨hthrew, _⟩
      · exact hn
      · exact absurd hthrew hthrow

/-! ### A repair -/

theorem panel_mismatched : (panel qhd fhd).Mismatched := by
  refine ⟨rfl, 0, [⟨0, 1440, 3200⟩], 0, ⟨0, 1440, 3200⟩, rfl, rfl, rfl, ?_⟩
  decide

/-- A step of the thread, on a display whose modes differ as long as it decides. -/
theorem steady_work {p p' : Phase} {a : Action} (hp : s.threads[i]? = some p)
    (hsystem : p.Deciding → s.system = panel qhd fhd) (hwork : Work s.system p a p') :
    Steady i true s (.work i a) { s with threads := s.threads.set i p' } := by
  refine ⟨.work hp hwork, fun q hq hdeciding => ?_, fun _ _ _ => nofun⟩
  cases hp.symm.trans hq
  rw [hsystem hdeciding]
  exact ⟨⟨fun _ => rfl, fun _ => panel_mismatched⟩, fun _ => rfl⟩

/-- A sample of the first thread. -/
theorem steady_sampling (native framework : Mode) (round : Round) (b : Bool)
    (hb : mismatch framework 0 [⟨0, native.physicalWidth, native.physicalHeight⟩] = b)
    (hsystem : round ≠ .afterwards → panel native framework = panel qhd fhd) :
    Run (Steady 0 true) ⟨panel native framework, [.sleeping round]⟩ (sampling 0 round b)
      ⟨panel native framework, [.sampled round b]⟩ := by
  have hfirst : Phase.Deciding (.sleeping round) → panel native framework = panel qhd fhd := by
    intro hdeciding
    refine hsystem ?_
    rintro rfl
    exact hdeciding
  have hlater : ∀ {q : Query} {next : q.Answer → Sample},
      Phase.Deciding (.sampling round q next) → panel native framework = panel qhd fhd := by
    intro q next hdeciding
    refine hsystem ?_
    rintro rfl
    exact hdeciding
  refine Run.cons (steady_work rfl hfirst (.sleep rfl)) ?_
  refine Run.cons (steady_work rfl hlater (.read rfl)) (Run.cons (steady_work rfl hlater (.read rfl)) ?_)
  refine Run.cons (steady_work rfl hlater (.read rfl)) (Run.cons (steady_work rfl hlater (.read rfl)) ?_)
  exact Run.single (steady_work rfl hlater (.sample (congrArg Program.pure hb)))

/-- One thread, from its broadcast to the sample after the repair. -/
def repair : List Event :=
  [.onReceive (some ACTION_BOOT_COMPLETED)] ++ deciding 0 ++
    [.work 0 (.transact (some true)), .change] ++ sampling 0 .afterwards false

theorem reconnected_when_mismatched_repair :
    Run (Steady 0 true) (initial (panel qhd fhd)) repair ⟨panel qhd qhd, [.finished]⟩ ∧
      reconnections 0 repair = 1 := by
  have hreceive : Steady 0 true (initial (panel qhd fhd)) (.onReceive (some ACTION_BOOT_COMPLETED))
      ⟨panel qhd fhd, [.sleeping .first]⟩ := ⟨.onReceive, nofun, nofun⟩
  have hsamples := (steady_sampling qhd fhd .first true rfl fun _ => rfl).trans
    (steady_sampling qhd fhd .second true rfl fun _ => rfl)
  have hcheck : Run (Steady 0 true) ⟨panel qhd fhd, [.checkService]⟩ [.work 0 (.checkService true)]
      ⟨panel qhd fhd, [.transact]⟩ := Run.single (steady_work rfl (fun _ => rfl) .checkService)
  have hreconnect : Run (Steady 0 true) ⟨panel qhd fhd, [.transact]⟩
      [.work 0 (.transact (some true)), .change] ⟨panel qhd qhd, [.sleeping .afterwards]⟩ := by
    refine Run.cons (steady_work rfl nofun .transact) (Run.single ⟨.change, ?_, ?_⟩)
    · rintro p hp hdeciding
      cases hp
      exact hdeciding.elim
    · rintro p hp hlooking
      cases hp
      exact hlooking.elim
  have hafterwards := steady_sampling qhd qhd .afterwards false rfl
    fun hround => absurd rfl hround
  have hrun : Run (Steady 0 true) (initial (panel qhd fhd)) repair ⟨panel qhd qhd, [.finished]⟩ :=
    (((Run.single hreceive).trans (hsamples.trans hcheck)).trans hreconnect).trans hafterwards
  have hthrow : .work 0 .throw ∉ repair := by decide
  exact ⟨hrun, (reconnected_when_mismatched hrun).2.2 rfl hthrow⟩

end Recovery

end Display
end M2391Device
