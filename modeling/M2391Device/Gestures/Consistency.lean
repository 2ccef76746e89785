import M2391Device.Gestures.Application
import M2391Device.Gestures.Debounce
import M2391Device.Gestures.Retries

/-!
# Consistency — what the application leaves when it has nothing left to do

The handler of the application runs as `Synchronizer` says (`handler_run`), so that its retries are
those of a round.  An attempt during which nothing changes leaves what the system asks for, if it
returns (`applySetting_meets`).  Together: as long as every change is followed by a notification, an
application that has nothing left to do has applied the present state, unless 31 attempts have thrown
(`settled_consistent`).
-/

namespace M2391Device
namespace Gestures

open Transition

/-! ## One attempt -/

/-- The fields and the mask are what the system asks for. -/
structure Good (w : World) (auth : Bool) (f : Fields) (m : BitVec 32) : Prop where
  unlistened : f.mLiftToWake.mListening = true → f.mLiftToWake.mRaise.isSome ∧ w.wantsLift = true
  listened : f.mLiftToWake.mRaise.isSome → w.wantsLift = true → w.registers = true →
    f.mLiftToWake.mListening = true
  manager : w.fingerprintService = true → f.mFingerprintManager = true
  registered : f.mFingerprintManager = true → f.mFingerprintListenerRegistered = true
  doubleTap : m.getLsbD 4 = w.wantsDoubleTap
  fingerprint : m.getLsbD 24 = (f.mFingerprintManager && w.wantsFingerprint auth)
  enable : m.getLsbD 31 = true ↔ ∃ i < 31, m.getLsbD i = true

section Attempt

variable {node : Node} {allowed : (o : SysOp) → o.Res → Prop} {w : World} {f : Fields}
  {t : node.State} {I : node.State → Prop}

theorem orThrow_meets {α : Type} {answers : (o : SysOp) → node.State → o.Res → node.State → Prop}
    {Q : α → node.State → Prop} {r : Except String α} (hI : I t) (hQ : ∀ a, r = .ok a → Q a t) :
    (orThrow f r).Meets answers I Q (fun _ _ => True) t := by
  cases r with
  | ok a => exact ⟨hI, hQ a rfl⟩
  | error message => exact ⟨hI, trivial⟩

/-- The condition of `update()` is what the system asks for, on a device with the sensor. -/
theorem liftRequested_meets (w : World) (f : Fields) (hI : I t) :
    (liftRequested f).Meets (Answered node w.Answers) I
      (fun b t' => t' = t ∧ b = (f.mLiftToWake.mRaise.isSome && w.wantsLift)) (fun _ _ => True) t := by
  refine Program.Meets.ite (fun hraise => ?_) fun hnone => ?_
  · refine Program.Meets.bind ⟨hI, fun r t' hr => ?_⟩
    rcases hr with ⟨hr, rfl⟩
    refine orThrow_meets hI fun b hb => ?_
    have hinteractive : b = w.interactive := hr b hb
    refine Program.Meets.ite (fun hon => ⟨hI, rfl, ?_⟩) fun hoff => ?_
    · have hon' : w.interactive = true := by rw [← hinteractive, hon]
      simp [World.wantsLift, hon']
    · refine Program.Meets.bind ⟨hI, fun r t' hr => ?_⟩
      rcases hr with ⟨hr, rfl⟩
      refine orThrow_meets hI fun user huser => ?_
      have hcurrent : user = w.currentUser := hr user huser
      refine Program.Meets.bind ⟨hI, fun r t' hr => ?_⟩
      rcases hr with ⟨hr, rfl⟩
      refine orThrow_meets hI fun value hvalue => ⟨hI, rfl, ?_⟩
      have hread : value = w.getInt .wakeGesture 0 user := hr value hvalue
      have hoff' : w.interactive = false := by
        rw [← hinteractive]
        exact Bool.eq_false_of_not_eq_true hoff
      rw [hread, hcurrent, hraise, World.wantsLift, hoff']
      rfl
  · refine ⟨hI, rfl, ?_⟩
    rw [Bool.eq_false_of_not_eq_true hnone]
    rfl

/-- The call does to the controller what `LiftToWakeController.update` says. -/
theorem updateLift_meets (w : World) (f : Fields) (hI : I t) :
    (updateLift f).Meets (Answered node w.Answers) I
      (fun f' t' => t' = t ∧ ∃ now, f' = { f with
        mLiftToWake := f.mLiftToWake.update w.interactive (w.getInt .wakeGesture 0 w.currentUser) now
          w.registers })
      (fun _ _ => True) t := by
  refine Program.Meets.seq (liftRequested_meets w f hI) fun requested t' _ hb => ?_
  rcases hb with ⟨rfl, hb⟩
  have hrequested : (f.mLiftToWake.mRaise.isSome && !w.interactive &&
      w.getInt .wakeGesture 0 w.currentUser != 0) = requested := by
    rw [hb, World.wantsLift, Bool.and_assoc]
  refine Program.Meets.ite (fun hsame => ⟨hI, rfl, 0, ?_⟩) fun hdiffers => ?_
  · rw [LiftToWakeController.update, hrequested]
    rw [if_pos hsame]
  · refine Program.Meets.ite (fun htrue => ?_) fun hfalse => ?_
    · -- the sensor is wanted, and has to be registered
      refine Program.Meets.bind ⟨hI, fun r t' hr => ?_⟩
      rcases hr with ⟨_, rfl⟩
      refine orThrow_meets hI fun now _ => ?_
      refine Program.Meets.bind ⟨hI, fun r t' hr => ?_⟩
      rcases hr with ⟨hr, rfl⟩
      refine orThrow_meets hI fun registered hregistered => ⟨hI, rfl, now, ?_⟩
      have htaken : registered = w.registers := hr registered hregistered
      rw [LiftToWakeController.update, hrequested]
      dsimp only
      rw [if_neg hdiffers, if_pos htrue, htaken]
    · refine Program.Meets.bind ⟨hI, fun r t' hr => ?_⟩
      rcases hr with ⟨_, rfl⟩
      refine orThrow_meets hI fun _ _ => ⟨hI, rfl, 0, ?_⟩
      rw [LiftToWakeController.update, hrequested]
      dsimp only
      rw [if_neg hdiffers, if_neg hfalse]

/-- What `update` leaves: a listener only where one is wanted, and one where it is taken. -/
theorem update_listening (w : World) (c : LiftToWakeController) (now : Int) {c' : LiftToWakeController}
    (hc' : c' = c.update w.interactive (w.getInt .wakeGesture 0 w.currentUser) now w.registers) :
    (c'.mListening = true → c'.mRaise.isSome ∧ w.wantsLift = true) ∧
      (c'.mRaise.isSome → w.wantsLift = true → w.registers = true → c'.mListening = true) := by
  have hrequested : (c.mRaise.isSome && !w.interactive &&
      w.getInt .wakeGesture 0 w.currentUser != 0) = (c.mRaise.isSome && w.wantsLift) := by
    rw [World.wantsLift, Bool.and_assoc]
  rw [LiftToWakeController.update, hrequested] at hc'
  by_cases hsame : (c.mRaise.isSome && w.wantsLift) = c.mListening
  · rw [if_pos hsame] at hc'
    subst hc'
    refine ⟨fun hlistening => ?_, fun hraise hwants _ => ?_⟩
    · rwa [hlistening, Bool.and_eq_true] at hsame
    · rw [← hsame, hraise, hwants]
      rfl
  · rw [if_neg hsame] at hc'
    by_cases hwanted : (c.mRaise.isSome && w.wantsLift) = true
    · rw [if_pos hwanted] at hc'
      subst hc'
      exact ⟨fun _ => (Bool.and_eq_true _ _).mp hwanted, fun _ _ htakes => htakes⟩
    · rw [if_neg hwanted] at hc'
      subst hc'
      refine ⟨fun hlistening => ?_, fun hraise hwants _ => ?_⟩
      · cases hlistening
      · exact absurd ((Bool.and_eq_true _ _).mpr ⟨hraise, hwants⟩) hwanted

/-- The manager is found if there is a service. -/
theorem findFingerprintManager_meets (w : World) (f : Fields) (hI : I t) :
    (findFingerprintManager f).Meets (Answered node w.Answers) I
      (fun f' t' => t' = t ∧ f'.mLiftToWake = f.mLiftToWake ∧
        (w.fingerprintService = true → f'.mFingerprintManager = true)) (fun _ _ => True) t := by
  refine Program.Meets.ite (fun hfound => ⟨hI, rfl, rfl, fun _ => hfound⟩) fun _ => ?_
  refine Program.Meets.bind ⟨hI, fun r t' hr => ?_⟩
  rcases hr with ⟨hr, rfl⟩
  refine orThrow_meets hI fun found hfound => ⟨hI, rfl, rfl, fun hservice => ?_⟩
  exact (hr found hfound).trans hservice

theorem registerFingerprintListener_meets (f : Fields) (hI : I t) :
    (registerFingerprintListener f).Meets (Answered node allowed) I
      (fun f' t' => t' = t ∧ f'.mLiftToWake = f.mLiftToWake ∧
        f'.mFingerprintManager = f.mFingerprintManager ∧
        (f'.mFingerprintManager = true → f'.mFingerprintListenerRegistered = true))
      (fun _ _ => True) t := by
  refine Program.Meets.ite (fun _ => ?_) fun hnot => ⟨hI, rfl, rfl, rfl, fun hmanager => ?_⟩
  · refine Program.Meets.bind ⟨hI, fun r t' hr => ?_⟩
    rcases hr with ⟨_, rfl⟩
    exact orThrow_meets hI fun _ _ => ⟨hI, rfl, rfl, rfl, fun _ => rfl⟩
  · by_contra hregistered
    rw [hmanager, Bool.eq_false_of_not_eq_true hregistered] at hnot
    exact hnot rfl

theorem fingerprintRequested_meets (w : World) (f : Fields) (auth : Bool) (hI : I t) :
    (fingerprintRequested f auth).Meets (Answered node w.Answers) I
      (fun b t' => t' = t ∧ b = (auth || !w.interactive || w.keyguardLocked)) (fun _ _ => True) t := by
  refine Program.Meets.ite (fun hauth => ⟨hI, rfl, ?_⟩) fun hauth => ?_
  · rw [hauth]
    rfl
  · rw [Bool.eq_false_of_not_eq_true hauth]
    refine Program.Meets.bind ⟨hI, fun r t' hr => ?_⟩
    rcases hr with ⟨hr, rfl⟩
    refine orThrow_meets hI fun b hb => ?_
    have hinteractive : b = w.interactive := hr b hb
    rw [← hinteractive]
    refine Program.Meets.ite (fun hon => ⟨hI, fun r t' hr => ?_⟩) fun hoff => ⟨hI, rfl, ?_⟩
    · rcases hr with ⟨hr, rfl⟩
      refine orThrow_meets hI fun locked hlocked => ⟨rfl, ?_⟩
      have hread : locked = w.keyguardLocked := hr locked hlocked
      rw [hread, hon]
      rfl
    · rw [Bool.eq_false_of_not_eq_true hoff]
      rfl

theorem fingerprintEnabled_meets (w : World) (f : Fields) (auth : Bool) (hI : I t) :
    (fingerprintEnabled f (auth || !w.interactive || w.keyguardLocked) w.currentUser).Meets
      (Answered node w.Answers) I
      (fun b t' => t' = t ∧ b = (f.mFingerprintManager && w.wantsFingerprint auth))
      (fun _ _ => True) t := by
  refine Program.Meets.ite (fun hasked => ?_) fun hnot => ⟨hI, rfl, ?_⟩
  · rw [Bool.and_eq_true] at hasked
    rcases hasked with ⟨hmanager, hrequested⟩
    refine Program.Meets.bind ⟨hI, fun r t' hr => ?_⟩
    rcases hr with ⟨hr, rfl⟩
    refine orThrow_meets hI fun enrolled henrolled => ?_
    have hread : enrolled = w.enrolled w.currentUser := hr enrolled henrolled
    rw [hmanager, World.wantsFingerprint, hrequested, ← hread]
    refine Program.Meets.ite (fun hsome => ?_) fun hnone => ⟨hI, rfl, ?_⟩
    · refine Program.Meets.bind ⟨hI, fun r t' hr => ?_⟩
      rcases hr with ⟨hr, rfl⟩
      refine orThrow_meets hI fun value hvalue => ⟨hI, rfl, ?_⟩
      have hvalue' : value = w.getInt .dozePulseOnAuth 1 w.currentUser := hr value hvalue
      rw [hvalue', hsome]
      rfl
    · rw [Bool.eq_false_of_not_eq_true hnone]
      rfl
  · rw [World.wantsFingerprint, ← Bool.and_assoc, ← Bool.and_assoc,
      Bool.eq_false_of_not_eq_true hnot]
    rfl

/-- A program of the node runs as it does alone. -/
theorem onNode_meets {α : Type} {p : Control α} {Q : α → node.State → Prop}
    (halways : p.Always node.step I t) (hQ : ∀ a t', p.run node.step t = (.ok a, t') → Q a t') :
    (onNode f p).Meets (Answered node allowed) I Q (fun _ _ => True) t := by
  induction p generalizing t with
  | pure a => exact ⟨halways, hQ a t rfl⟩
  | throw e => exact ⟨halways, trivial⟩
  | perform o next ih =>
      refine ⟨halways.1, fun r t' hr => ?_⟩
      have hstep : (r, t') = node.step o t := hr
      have hanswer : r = (node.step o t).1 := congrArg Prod.fst hstep
      have hnext : t' = (node.step o t).2 := congrArg Prod.snd hstep
      subst hanswer hnext
      exact ih _ halways.2 hQ

/-- An attempt that returns while the system stays as it is leaves what the system asks for. -/
theorem applySetting_meets (w : World) (f : Fields) (auth : Bool) (t : node.State) :
    (applySetting f auth).Meets (Answered node w.Answers) (fun _ => True)
      (fun f' t' => Good w auth f' (node.mask t')) (fun _ _ => True) t := by
  -- the registrations come first: of lift to wake, and of the fingerprint listener
  refine Program.Meets.seq (updateLift_meets w f trivial) fun f1 t1 _ h1 => ?_
  rcases h1 with ⟨rfl, now, rfl⟩
  have hlift := update_listening w f.mLiftToWake now rfl
  generalize f.mLiftToWake.update w.interactive (w.getInt .wakeGesture 0 w.currentUser) now
    w.registers = c at hlift
  refine Program.Meets.seq (findFingerprintManager_meets w _ trivial) fun f2 t2 _ h2 => ?_
  rcases h2 with ⟨rfl, hlift2, hmanager⟩
  refine Program.Meets.seq (registerFingerprintListener_meets f2 trivial) fun f3 t3 _ h3 => ?_
  rcases h3 with ⟨rfl, hlift3, hmanager3, hregistered⟩
  refine Program.Meets.bind ⟨trivial, fun r t' hr => ?_⟩
  rcases hr with ⟨hr, rfl⟩
  -- the questions to the system; the node is not touched by them
  refine orThrow_meets trivial fun user huser => ?_
  have hcurrent : user = w.currentUser := hr user huser
  refine Program.Meets.bind ⟨trivial, fun r t' hr => ?_⟩
  rcases hr with ⟨hr, rfl⟩
  refine orThrow_meets trivial fun doubleTap hdoubleTap => ?_
  have hdouble : doubleTap = w.getInt .doubleTapToWake 0 user := hr doubleTap hdoubleTap
  rw [hcurrent] at hdouble
  subst hcurrent hdouble
  refine Program.Meets.seq (fingerprintRequested_meets w f3 auth trivial) fun requested t4 _ h4 => ?_
  rcases h4 with ⟨rfl, rfl⟩
  refine Program.Meets.seq (fingerprintEnabled_meets w f3 auth trivial) fun fingerprint t5 _ h5 => ?_
  rcases h5 with ⟨rfl, rfl⟩
  -- the mask is written last, from answers that still hold
  have halways : (setGesturesEnabled (w.getInt .doubleTapToWake 0 w.currentUser != 0)
      (f3.mFingerprintManager && w.wantsFingerprint auth)).Always node.step (fun _ => True) t5 :=
    Program.Performs.any.always (fun _ => True) (fun _ _ _ _ => trivial) trivial
  refine Program.Meets.bind (onNode_meets halways fun _ t6 hrun => ⟨trivial, ?_⟩)
  have hmask := updatedMask_updated (node.mask t5) w.wantsDoubleTap
    (f3.mFingerprintManager && w.wantsFingerprint auth)
  rw [World.wantsDoubleTap, ← setGesturesEnabled_ok hrun] at hmask
  refine ⟨?_, ?_, ?_, hregistered, hmask.doubleTap, hmask.fingerprint, hmask.enable⟩
  · rw [hlift3, hlift2]
    exact hlift.1
  · rw [hlift3, hlift2]
    exact hlift.2
  · rw [hmanager3]
    exact hmanager

end Attempt

/-! ## Runs -/

/-- What the handler's part of an event is. -/
def AppEvent.handler? : AppEvent → Option Event
  | .handler e => some e
  | _ => none

def AppEvent.isStart : AppEvent → Bool
  | .handler .startRunnable => true
  | _ => false

def AppEvent.isNotification : AppEvent → Bool
  | .handler e => e.isNotification
  | _ => false

def AppEvent.isChange : AppEvent → Bool
  | .change => true
  | _ => false

/-- The part of a history that `Synchronizer` is about. -/
def handled (h : List AppEvent) : List Event := h.filterMap AppEvent.handler?

/-- What happened since the last runnable of `synchronizeSetting` started. -/
def roundOf (h : List AppEvent) : List AppEvent := h.rtakeWhile fun e => !e.isStart

/-- Nothing has changed since the last round began, and nobody says that anything has. -/
def Calm (h : List AppEvent) : Prop :=
  ∀ e ∈ roundOf h, e.isChange = false ∧ e.isNotification = false

section Histories

variable {h : List AppEvent} {e : AppEvent}

theorem handled_append (h : List AppEvent) (e : Event) : handled (h ++ [.handler e]) = handled h ++ [e] := by
  rw [handled, List.filterMap_append]
  rfl

theorem handled_append_other (hother : e.handler? = none) : handled (h ++ [e]) = handled h := by
  rw [handled, List.filterMap_append, List.filterMap_cons, hother, List.filterMap_nil, List.append_nil,
    handled]

theorem roundOf_append (he : e.isStart = false) : roundOf (h ++ [e]) = roundOf h ++ [e] :=
  List.rtakeWhile_concat_pos _ _ _ (by rw [he]; rfl)

theorem Calm.of_append (he : e.isStart = false) (hcalm : Calm (h ++ [e])) :
    Calm h ∧ e.isChange = false ∧ e.isNotification = false := by
  rw [Calm, roundOf_append he] at hcalm
  exact ⟨fun x hx => hcalm x (List.mem_append_left _ hx), hcalm e (by simp)⟩

/-- The handler's events of the last round are those of its own last round. -/
theorem mem_lastRound {e : Event} (he : .handler e ∈ roundOf h) : e ∈ lastRound (handled h) := by
  induction h using List.reverseRecOn with
  | nil => cases he
  | append_singleton h x ih =>
      cases hx : x.isStart with
      | true =>
          have hnil : roundOf (h ++ [x]) = [] := List.rtakeWhile_concat_neg _ _ _ (by rw [hx]; simp)
          rw [hnil] at he
          cases he
      | false =>
          rw [roundOf_append hx, List.mem_append, List.mem_singleton] at he
          cases x with
          | handler y =>
              have hy : y ≠ .startRunnable := by
                rintro rfl
                cases hx
              rw [handled_append, lastRound_append hy, List.mem_append, List.mem_singleton]
              rcases he with hold | hnew
              · exact Or.inl (ih hold)
              · cases hnew
                exact Or.inr rfl
          | _ =>
              rw [handled_append_other rfl]
              rcases he with hold | hnew
              · exact ih hold
              · cases hnew

end Histories

section Runs

variable {node : Node} {a a' : Application node} {h : List AppEvent} {e : AppEvent}

/-- The handler of the application runs as `Synchronizer` says. -/
theorem handler_run {a₀ : Application node} (hrun : Run (AppStep node) a₀ h a) :
    Run Step a₀.sync (handled h) a.sync := by
  induction hrun with
  | nil => exact Run.nil
  | snoc e _ hstep ih =>
      cases hstep with
      | post _ _ hsync | attempt hsync | returned _ hsync | threw _ hsync =>
          rw [handled_append]
          exact Run.snoc _ ih hsync
      | call _ _ | sensor _ | change =>
          rw [handled_append_other rfl]
          exact ih

/-- A reading of the sensor leaves the listener as it is. -/
theorem sensor_listening (c : LiftToWakeController) (event : SensorEvent) (interactive : Bool)
    (now : Int) : (c.step (.sensor event interactive now)).mListening = c.mListening ∧
      (c.step (.sensor event interactive now)).mRaise = c.mRaise := by
  rw [LiftToWakeController.step]
  rcases c.onSensorChanged_cases event interactive now with
    ⟨heq, _⟩ | ⟨value, rest, _, _, _, ⟨heq, _⟩ | ⟨heq, _⟩⟩ <;>
    · rw [heq]
      exact ⟨rfl, rfl⟩

theorem Good.sensor {w : World} {auth : Bool} {f : Fields} {m : BitVec 32} (hgood : Good w auth f m)
    (event : SensorEvent) (interactive : Bool) (now : Int) :
    Good w auth
      { f with mLiftToWake := f.mLiftToWake.step (.sensor event interactive now) } m := by
  rcases sensor_listening f.mLiftToWake event interactive now with ⟨hlistening, hraise⟩
  refine ⟨?_, ?_, hgood.manager, hgood.registered, hgood.doubleTap, hgood.fingerprint, hgood.enable⟩
  · rw [hlistening, hraise]
    exact hgood.unlistened
  · rw [hlistening, hraise]
    exact hgood.listened

/-- What is known of an application after a history. -/
structure Sound (h : List AppEvent) (a : Application node) : Prop where
  phase : a.attempt.isSome ↔ a.sync.phase = .applying
  running : ∀ p, a.attempt = some p → Calm h →
    p.Meets (Answered node a.world.Answers) (fun _ => True)
      (fun f t => Good a.world a.sync.mKeyguardAuthenticationRunning f (node.mask t))
      (fun _ _ => True) a.panel
  done : a.sync.phase = .idle → Calm h →
    (outcomes (lastRound (handled h))).getLast? = some (some .succeeded) →
    Good a.world a.sync.mKeyguardAuthenticationRunning a.fields (node.mask a.panel)

/-- The attempt that throws is the last one of its round so far. -/
theorem Progress.threw_last {s : Synchronizer} {os : List (Option Outcome)} (hp : Progress s os)
    (happlying : s.phase = .applying) :
    (os.map fun x => x.or (some .threw)).getLast? ≠ some (some .succeeded) := by
  cases hp with
  | @applying n _ _ _ _ => simp
  | created hphase _ _ | starting hphase _ | retrying hphase _ _ _ | applied hphase _ _
  | exhausted hphase _ =>
      rw [hphase] at happlying
      cases happlying

theorem Sound.step (hs : Sound h a) (hsync : Synchronized (handled h) a.sync)
    (hstep : AppStep node a e a') : Sound (h ++ [e]) a' := by
  -- between two messages no attempt is left
  have hidle_none : a.sync.phase = .idle → a.attempt = none := by
    intro hidle
    cases hattempt : a.attempt with
    | none => rfl
    | some p =>
        have happlying := hs.phase.1 (by rw [hattempt]; rfl)
        rw [hidle] at happlying
        cases happlying
  cases hstep with
  | post hattempt houtcome hposted =>
      cases hposted with
      | notify | runStateChanged _ _ =>
          -- nothing is claimed until the round that the notification asks for
          refine ⟨hs.phase, fun _ _ hcalm => ?_, fun _ hcalm _ => ?_⟩
          · exact absurd (hcalm.of_append rfl).2.2.symm Bool.false_ne_true
          · exact absurd (hcalm.of_append rfl).2.2.symm Bool.false_ne_true
      | stateChange =>
          refine ⟨hs.phase, fun p hp hcalm => hs.running p hp (hcalm.of_append rfl).1,
            fun hidle hcalm hlast => ?_⟩
          rw [handled_append, lastRound_append (by simp), outcomes_append_other _ (by simp) rfl] at hlast
          exact hs.done hidle (hcalm.of_append rfl).1 hlast
      | startRunnable hidle _ =>
          have hnone := hidle_none hidle
          refine ⟨?_, fun p hp _ => ?_, fun hphase _ _ => ?_⟩
          · rw [hnone]
            exact ⟨fun h => absurd h Bool.false_ne_true, fun h => by cases h⟩
          · rw [hnone] at hp
            cases hp
          · cases hphase
      | beginSynchronized _ => exact absurd rfl (hattempt false)
      | beginDelayed _ _ => exact absurd rfl (hattempt true)
      | finish _ => cases houtcome
  | attempt hbegin =>
      have hbegun : ∀ b s, Step a.sync (.attempt b) s → s.phase = .applying ∧
          s.mKeyguardAuthenticationRunning = a.sync.mKeyguardAuthenticationRunning := by
        intro b s hstep
        cases hstep with
        | beginSynchronized _ | beginDelayed _ _ => exact ⟨rfl, rfl⟩
      rcases hbegun _ _ hbegin with ⟨happlying, hauth⟩
      refine ⟨?_, fun p hp _ => ?_, fun hphase _ _ => ?_⟩
      · exact ⟨fun _ => happlying, fun _ => rfl⟩
      · cases hp
        rw [hauth]
        exact applySetting_meets a.world a.fields _ a.panel
      · rw [happlying] at hphase
        cases hphase
  | call hattempt hanswered =>
      have happlying := hs.phase.1 (by rw [hattempt]; rfl)
      refine ⟨⟨fun _ => happlying, fun _ => rfl⟩, fun p hp hcalm => ?_, fun hidle _ _ => ?_⟩
      · cases hp
        exact (hs.running _ hattempt (hcalm.of_append rfl).1).answered hanswered
      · rw [happlying] at hidle
        cases hidle
  | returned hattempt hfinish =>
      cases hfinish with
      | finish happlying =>
          refine ⟨⟨fun h => absurd h Bool.false_ne_true, fun h => by cases h⟩, fun p hp _ => ?_,
            fun _ hcalm _ => ?_⟩
          · cases hp
          · exact (hs.running _ hattempt (hcalm.of_append rfl).1).2
  | threw hattempt hfinish =>
      cases hfinish with
      | finish happlying =>
          refine ⟨⟨fun h => absurd h Bool.false_ne_true, fun h => by cases h⟩, fun p hp _ => ?_,
            fun _ _ hlast => ?_⟩
          · cases hp
          · rw [handled_append, lastRound_append (by simp), outcomes_append_finish] at hlast
            exact absurd hlast (hsync.progress.threw_last happlying)
  | sensor hidle =>
      have hnone := hidle_none hidle
      refine ⟨hs.phase, fun p hp _ => ?_, fun _ hcalm hlast => ?_⟩
      · have hp' : a.attempt = some p := hp
        rw [hnone] at hp'
        cases hp'
      · rw [handled_append_other rfl] at hlast
        exact (hs.done hidle (hcalm.of_append rfl).1 hlast).sensor _ _ _
  | change =>
      refine ⟨hs.phase, fun _ _ hcalm => ?_, fun _ hcalm _ => ?_⟩
      · exact absurd (hcalm.of_append rfl).2.1.symm Bool.false_ne_true
      · exact absurd (hcalm.of_append rfl).2.1.symm Bool.false_ne_true

theorem Sound.run {sensors : Option (List Sensor)} {w₀ : World} {t₀ : node.State}
    (hrun : Run (AppStep node) (.created sensors w₀ t₀) h a) : Sound h a := by
  refine hrun.historyInvariant Sound ?_ fun g b e c hprefix hs hstep =>
    hs.step (Synchronized.run (handler_run hprefix)) hstep
  refine ⟨⟨fun h => absurd h Bool.false_ne_true, fun h => by cases h⟩, fun p hp _ => ?_,
    fun _ _ hlast => ?_⟩
  · cases hp
  · cases hlast

/-- Whoever changes something that the calls are answered from says so afterwards. -/
def Announced (h : List AppEvent) : Prop :=
  ∀ g r, h = g ++ .change :: r → ∃ e ∈ r, e.isNotification = true

/-- Changes that are announced cannot hide in a round without a notification. -/
theorem calm_of_announced (hannounced : Announced h)
    (hquiet : ∀ e ∈ lastRound (handled h), e.isNotification = false) : Calm h := by
  have hquiet' : ∀ e ∈ roundOf h, e.isNotification = false := by
    intro e he
    cases e with
    | handler e => exact hquiet e (mem_lastRound he)
    | _ => rfl
  refine fun e he => ⟨?_, hquiet' e he⟩
  cases e with
  | change =>
      rcases List.append_of_mem he with ⟨x, y, hround⟩
      rcases List.rtakeWhile_suffix (fun e : AppEvent => !e.isStart) h with ⟨g, hg⟩
      have hh : h = (g ++ x) ++ .change :: y := by
        rw [List.append_assoc, ← hround]
        exact hg.symm
      rcases hannounced _ _ hh with ⟨e, hmem, hnotification⟩
      have hin : e ∈ roundOf h := by
        rw [hround]
        exact List.mem_append_right _ (List.mem_cons_of_mem _ hmem)
      rw [hquiet' e hin] at hnotification
      cases hnotification
  | _ => rfl

/-- **Eventual consistency.**  In every run in which changes are announced, an application that has
nothing left to do has the listener and the mask that the present state of the system asks for, unless
the last 31 attempts have thrown. -/
theorem settled_consistent {sensors : Option (List Sensor)} {w₀ : World} {t₀ : node.State}
    (hrun : Run (AppStep node) (.created sensors w₀ t₀) h a) (hannounced : Announced h)
    (hsettled : a.sync.Settled) :
    Good a.world a.sync.mKeyguardAuthenticationRunning a.fields (node.mask a.panel) ∨
      ∃ g r, handled h = g ++ r ∧ (∀ e ∈ r, e.isNotification = false) ∧
        outcomes r = List.replicate 31 (some .threw) := by
  rcases (Synchronized.run (handler_run hrun)).settled hsettled with ⟨hquiet, hlast | hthrew⟩
  · exact Or.inl ((Sound.run hrun).done hsettled.1 (calm_of_announced hannounced hquiet) hlast)
  · rcases lastRound_suffix (handled h) with ⟨g, hg⟩
    exact Or.inr ⟨g, lastRound (handled h), hg.symm, hquiet, hthrew⟩

end Runs

/-! ### A change, and two rounds -/

/-- Answers from the system, with a clock that stands still. -/
def World.reply (w : World) (node : Node) : (o : SysOp) → node.State → o.Res × node.State
  | .isInteractive, t => (.ok w.interactive, t)
  | .getCurrentUser, t => (.ok w.currentUser, t)
  | .getIntForUser setting fallback user, t => (.ok (w.getInt setting fallback user), t)
  | .elapsedRealtimeNanos, t => (.ok 0, t)
  | .registerListener, t => (.ok w.registers, t)
  | .unregisterListener, t => (.ok (), t)
  | .getFingerprintManager, t => (.ok w.fingerprintService, t)
  | .registerBiometricStateListener, t => (.ok (), t)
  | .isKeyguardLocked, t => (.ok w.keyguardLocked, t)
  | .hasEnrolledFingerprints user, t => (.ok (w.enrolled user), t)
  | .node o, t => node.step o t

section Replies

variable {node : Node}

theorem reply_answered (w : World) (o : SysOp) (t : node.State) :
    Answered node w.Answers o t (w.reply node o t).1 (w.reply node o t).2 := by
  cases o with
  | node o => rfl
  | elapsedRealtimeNanos | unregisterListener | registerBiometricStateListener =>
      exact ⟨trivial, rfl⟩
  | _ => exact ⟨fun _ h => (Except.ok.inj h).symm, rfl⟩

/-- An attempt that is answered from the system and never interrupted goes to its end. -/
theorem attempt_runs {p : Attempt Fields} {f : Fields} {a : Application node} {t' : node.State}
    (hattempt : a.attempt = some p) (hrun : p.run (a.world.reply node) a.panel = (.ok f, t')) :
    ∃ h, (∀ e ∈ h, ∃ o, e = .call o) ∧
      Run (AppStep node) a h { a with attempt := some (.pure f), panel := t' } := by
  induction p generalizing a with
  | pure f' =>
      cases hrun
      refine ⟨[], fun e he => absurd he List.not_mem_nil, ?_⟩
      have hsame : { a with attempt := some (.pure f), panel := a.panel } = a := by
        rw [← hattempt]
      rw [hsame]
      exact Run.nil
  | throw e => cases hrun
  | perform o next ih =>
      have hstep : AppStep node a (.call o)
          { a with
            attempt := some (next (a.world.reply node o a.panel).1)
            panel := (a.world.reply node o a.panel).2 } :=
        .call hattempt (reply_answered a.world o a.panel)
      rcases ih (a.world.reply node o a.panel).1
        (a := { a with
          attempt := some (next (a.world.reply node o a.panel).1)
          panel := (a.world.reply node o a.panel).2 }) rfl hrun with ⟨h, hcalls, hrest⟩
      exact ⟨.call o :: h, List.forall_mem_cons.2 ⟨⟨o, rfl⟩, hcalls⟩, Run.cons hstep hrest⟩

end Replies

/-- Nobody has put a setting, and there is no fingerprint service. -/
def bareWorld (interactive : Bool) : World where
  interactive := interactive
  currentUser := 0
  secure := fun _ _ => none
  registers := true
  fingerprintService := false
  keyguardLocked := true
  enrolled := fun _ => false

/-- An attempt there clears the double tap. -/
theorem bare_attempt (m : BitVec 32) (hm : m = 0x80000010 ∨ m = 0) :
    @Eq (Except (Failure × Fields) Fields × BitVec 32)
      ((applySetting ⟨.create none, false, false⟩ false).run ((bareWorld true).reply register) m)
      (.ok ⟨.create none, false, false⟩, 0) := by
  rcases hm with rfl | rfl
  · decide +kernel
  · decide +kernel

/-- A change that is followed by a notification and by no other change. -/
theorem announced_head {r : List AppEvent} (hr : ∀ e ∈ r, e ≠ .change) :
    Announced (.change :: .handler .notify :: r) := by
  intro g r' h
  cases g with
  | nil =>
      cases h
      exact ⟨_, List.mem_cons_self, rfl⟩
  | cons x g =>
      rw [List.cons_append, List.cons.injEq] at h
      have hmem : .change ∈ .handler .notify :: r := by
        rw [h.2]
        exact List.mem_append_right _ List.mem_cons_self
      rcases List.mem_cons.1 hmem with hhead | hrest
      · cases hhead
      · exact absurd rfl (hr _ hrest)

/-- The screen is turned on before the first attempt; the notification starts a second one. -/
theorem screen_run : ∃ h, ∃ a : Application register, .change ∈ h ∧
    Run (AppStep register) (.created none (bareWorld false) (0x80000010 : BitVec 32)) h a ∧
      Announced h ∧ a.sync.Settled := by
  let a₀ : Application register := .created none (bareWorld true) (0x80000010 : BitVec 32)
  let s₁ : Synchronizer := ⟨[.synchronize], 0, 0, false, .applying⟩
  let s₂ : Synchronizer := ⟨[], 0, 0, false, .applying⟩
  -- the two attempts
  rcases attempt_runs (a := { a₀ with
    sync := s₁, attempt := some (applySetting ⟨.create none, false, false⟩ false) }) rfl
    (bare_attempt _ (Or.inl rfl)) with ⟨c₁, hc₁, hfirst⟩
  rcases attempt_runs (a := { a₀ with
    sync := s₂, attempt := some (applySetting ⟨.create none, false, false⟩ false)
    panel := (0 : BitVec 32) }) rfl (bare_attempt _ (Or.inr rfl)) with ⟨c₂, hc₂, hsecond⟩
  have hrun : Run (AppStep register) (.created none (bareWorld false) (0x80000010 : BitVec 32))
      ([.change, .handler .notify, .handler .startRunnable, .handler (.attempt false)] ++ c₁ ++
        [.handler (.finish .succeeded), .handler .startRunnable, .handler (.attempt false)] ++ c₂ ++
        [.handler (.finish .succeeded)])
      { a₀ with sync := { s₂ with phase := .idle }, panel := (0 : BitVec 32) } := by
    refine Run.snoc _ (Run.trans (Run.trans (Run.trans ?_ hfirst) ?_) hsecond)
      (.returned rfl (Step.finish rfl))
    · exact Run.cons .change (Run.cons (.post nofun rfl Step.notify)
        (Run.cons (.post nofun rfl (Step.startRunnable rfl rfl))
          (Run.single (.attempt (Step.beginSynchronized rfl)))))
    · exact Run.cons (.returned rfl (Step.finish rfl))
        (Run.cons (.post nofun rfl (Step.startRunnable rfl rfl))
          (Run.single (.attempt (Step.beginSynchronized rfl))))
  refine ⟨_, _, ?_, hrun, announced_head ?_, rfl, List.not_mem_nil, rfl⟩
  · simp
  · intro e he
    have hcall : ∀ c : List AppEvent, (∀ e ∈ c, ∃ o, e = .call o) → .change ∉ c := by
      intro c hc hmem
      rcases hc _ hmem with ⟨o, ho⟩
      cases ho
    have hmem := he
    rintro rfl
    simp [hcall c₁ hc₁, hcall c₂ hc₂] at hmem

theorem settled_consistent_screen : ∃ h, ∃ a : Application register, .change ∈ h ∧
    Run (AppStep register) (.created none (bareWorld false) (0x80000010 : BitVec 32)) h a ∧
      (Good a.world a.sync.mKeyguardAuthenticationRunning a.fields (register.mask a.panel) ∨
        ∃ g r, handled h = g ++ r ∧ (∀ e ∈ r, e.isNotification = false) ∧
          outcomes r = List.replicate 31 (some .threw)) := by
  rcases screen_run with ⟨h, a, hchange, hrun, hannounced, hsettled⟩
  exact ⟨h, a, hchange, hrun, settled_consistent hrun hannounced hsettled⟩

end Gestures
end M2391Device
