import M2391Device.Gestures.Consistency

/-!
# PanelMask — the mask at every moment

On a node that stores the four bytes which are written to it, or leaves its mask alone, the
application never makes more of the mask than an update of the one that it found: also while an attempt
is running, after calls that threw, and whatever changes in between (`mask_derived`).
-/

namespace M2391Device
namespace Gestures

open Transition

/-- A node that stores a number that is written to it, or nothing. -/
structure Stores (node : Node) : Prop where
  opened : ∀ t, node.mask (node.step .openOutput t).2 = node.mask t
  closed : ∀ t, node.mask (node.step .close t).2 = node.mask t
  written : ∀ t v, node.mask (node.step (.write (putInt v)) t).2 = node.mask t ∨
    node.mask (node.step (.write (putInt v)) t).2 = v

/-- The mask is the first one, or an update of it. -/
def Derived (m₀ m : BitVec 32) : Prop := m = m₀ ∨ ∃ d f, Updated m₀ m d f

theorem Derived.updated {m₀ m : BitVec 32} (h : Derived m₀ m) (d f : Bool) :
    Derived m₀ (updatedMask m d f) := by
  have hupdated := updatedMask_updated m d f
  rcases h with rfl | ⟨d', f', hearlier⟩
  · exact Or.inr ⟨d, f, hupdated⟩
  · exact Or.inr ⟨d, f, hearlier.trans hupdated⟩

section Calls

variable {node : Node} {t : node.State} {m₀ : BitVec 32}

/-- One call, from the first operation to the last. -/
theorem setGesturesEnabled_always (hstores : Stores node) (d f : Bool) (ht : Derived m₀ (node.mask t)) :
    (setGesturesEnabled d f).Always node.step (fun t' => Derived m₀ (node.mask t')) t := by
  have hreads : ∀ t, Derived m₀ (node.mask t) →
      readMask.Always node.step (fun t' => Derived m₀ (node.mask t')) t := fun t ht =>
    readMask_performs.always _ (fun o t ho hmask => by
      subst ho
      rwa [node.read_keeps]) ht
  refine (hreads t ht).bind fun current t1 hread => ?_
  rcases readMask_ok hread with ⟨rfl, ht1⟩
  have hderived := ht.updated d f
  dsimp only
  rw [← ht1] at ht
  by_cases hsame : updatedMask (node.mask t) d f = node.mask t
  · rw [if_pos hsame]
    exact ht
  · rw [if_neg hsame]
    -- the only number that is written is an update
    have hwrites : (writeNode (putInt (updatedMask (node.mask t) d f))).Performs fun o =>
        o = .openOutput ∨ o = .write (putInt (updatedMask (node.mask t) d f)) ∨ o = .close := by
      refine ⟨Or.inl rfl, fun opened => Program.Performs.bind (ofExcept_performs _ _) fun _ => ?_⟩
      refine ⟨Or.inr (Or.inl rfl), fun written => ⟨Or.inr (Or.inr rfl), fun closed => ?_⟩⟩
      exact Program.Performs.bind (ofExcept_performs _ _) fun _ => ofExcept_performs _ _
    have hkeeps : ∀ (o : NodeOp) (t' : node.State),
        (o = .openOutput ∨ o = .write (putInt (updatedMask (node.mask t) d f)) ∨ o = .close) →
        Derived m₀ (node.mask t') → Derived m₀ (node.mask (node.step o t').2) := by
      intro o t' ho hmask
      rcases ho with rfl | rfl | rfl
      · rwa [hstores.opened]
      · rcases hstores.written t' (updatedMask (node.mask t) d f) with hkept | hnew
        · rwa [hkept]
        · rwa [hnew]
      · rwa [hstores.closed]
    have hwritten := hwrites.always (fun t' => Derived m₀ (node.mask t')) hkeeps ht
    refine hwritten.bind fun _ t2 hwrite => ?_
    have ht2 : Derived m₀ (node.mask t2) := by
      have hlast := hwritten.last
      rwa [hwrite] at hlast
    refine (hreads t2 ht2).bind fun again t3 hagain => ?_
    have ht3 : Derived m₀ (node.mask t3) := by
      rw [(readMask_ok hagain).2]
      exact ht2
    by_cases hkept : again = updatedMask (node.mask t) d f
    · rw [if_pos hkept]
      exact ht3
    · rw [if_neg hkept]
      exact ht3

end Calls

/-! ## Attempts -/

/-- The calls that are not made to the node. -/
def SysOp.Outside : SysOp → Prop
  | .node _ => False
  | _ => True

section Attempts

variable {node : Node} {allowed : (o : SysOp) → o.Res → Prop} {I : node.State → Prop}
  {t : node.State} (f : Fields)

theorem outside_keeps (o : SysOp) (t : node.State) (r : o.Res) (t' : node.State) (ho : o.Outside)
    (ht : I t) (hr : Answered node allowed o t r t') : I t' := by
  cases o with
  | node o => exact ho.elim
  | _ =>
      rw [hr.2]
      exact ht

theorem orThrow_performs {α : Type} (r : Except String α) :
    (orThrow f r).Performs SysOp.Outside := by
  cases r with
  | ok a => trivial
  | error message => trivial

theorem liftRequested_performs : (liftRequested f).Performs SysOp.Outside := by
  refine Program.Performs.ite (fun _ => ?_) fun _ => trivial
  refine Program.Performs.bind ⟨trivial, fun r => orThrow_performs f r⟩ fun interactive => ?_
  refine Program.Performs.ite (fun _ => trivial) fun _ => ?_
  refine Program.Performs.bind ⟨trivial, fun r => orThrow_performs f r⟩ fun user => ?_
  exact Program.Performs.bind ⟨trivial, fun r => orThrow_performs f r⟩ fun value => trivial

theorem updateLift_performs : (updateLift f).Performs SysOp.Outside := by
  refine Program.Performs.bind (liftRequested_performs f) fun requested => ?_
  refine Program.Performs.ite (fun _ => trivial) fun _ => ?_
  refine Program.Performs.ite (fun _ => ?_) fun _ => ?_
  · refine Program.Performs.bind ⟨trivial, fun r => orThrow_performs _ r⟩ fun now => ?_
    exact Program.Performs.bind ⟨trivial, fun r => orThrow_performs _ r⟩ fun registered => trivial
  · exact Program.Performs.bind ⟨trivial, fun r => orThrow_performs _ r⟩ fun _ => trivial

theorem findFingerprintManager_performs : (findFingerprintManager f).Performs SysOp.Outside := by
  refine Program.Performs.ite (fun _ => trivial) fun _ => ?_
  exact Program.Performs.bind ⟨trivial, fun r => orThrow_performs f r⟩ fun found => trivial

theorem registerFingerprintListener_performs :
    (registerFingerprintListener f).Performs SysOp.Outside := by
  refine Program.Performs.ite (fun _ => ?_) fun _ => trivial
  exact Program.Performs.bind ⟨trivial, fun r => orThrow_performs f r⟩ fun _ => trivial

theorem fingerprintRequested_performs (auth : Bool) :
    (fingerprintRequested f auth).Performs SysOp.Outside := by
  refine Program.Performs.ite (fun _ => trivial) fun _ => ?_
  refine Program.Performs.bind ⟨trivial, fun r => orThrow_performs f r⟩ fun interactive => ?_
  exact Program.Performs.ite (fun _ => ⟨trivial, fun r => orThrow_performs f r⟩) fun _ => trivial

theorem fingerprintEnabled_performs (requested : Bool) (user : Int) :
    (fingerprintEnabled f requested user).Performs SysOp.Outside := by
  refine Program.Performs.ite (fun _ => ?_) fun _ => trivial
  refine Program.Performs.bind ⟨trivial, fun r => orThrow_performs f r⟩ fun enrolled => ?_
  refine Program.Performs.ite (fun _ => ?_) fun _ => trivial
  exact Program.Performs.bind ⟨trivial, fun r => orThrow_performs f r⟩ fun value => trivial

/-- A part of an attempt that does not touch the node leaves what is known of it. -/
theorem then_meets {α β : Type} {x : Attempt α} {g : α → Attempt β} (hx : x.Performs SysOp.Outside)
    (ht : I t) (hg : ∀ a t', I t' →
      (g a).Meets (Answered node allowed) I (fun _ _ => True) (fun _ _ => True) t') :
    (x >>= g).Meets (Answered node allowed) I (fun _ _ => True) (fun _ _ => True) t :=
  Program.Meets.seq (hx.meets outside_keeps ht) fun a t' ht' _ => hg a t' ht'

/-- However an attempt is answered, the mask is an update of the first one all the way. -/
theorem applySetting_derived (hstores : Stores node) {m₀ : BitVec 32} (auth : Bool)
    (ht : Derived m₀ (node.mask t)) :
    (applySetting f auth).Meets (Answered node allowed) (fun t' => Derived m₀ (node.mask t'))
      (fun _ _ => True) (fun _ _ => True) t := by
  refine then_meets (updateLift_performs f) ht fun f1 t1 ht1 => ?_
  refine then_meets (findFingerprintManager_performs f1) ht1 fun f2 t2 ht2 => ?_
  refine then_meets (registerFingerprintListener_performs f2) ht2 fun f3 t3 ht3 => ?_
  refine then_meets ⟨trivial, fun r => orThrow_performs f3 r⟩ ht3 fun user t4 ht4 => ?_
  refine then_meets ⟨trivial, fun r => orThrow_performs f3 r⟩ ht4 fun doubleTap t5 ht5 => ?_
  refine then_meets (fingerprintRequested_performs f3 auth) ht5 fun requested t6 ht6 => ?_
  refine then_meets (fingerprintEnabled_performs f3 requested user) ht6 fun fingerprint t7 ht7 => ?_
  have halways := setGesturesEnabled_always hstores (doubleTap != 0) fingerprint ht7
  refine Program.Meets.bind (onNode_meets halways fun _ t8 hrun => ⟨?_, trivial⟩)
  have hlast := halways.last
  rwa [hrun] at hlast

end Attempts

/-! ## Runs -/

section Runs

variable {node : Node} {a a' : Application node} {h : List AppEvent} {e : AppEvent} {m₀ : BitVec 32}

/-- The mask, and what is left of an attempt. -/
structure Confined (m₀ : BitVec 32) (a : Application node) : Prop where
  mask : Derived m₀ (node.mask a.panel)
  rest : ∀ p, a.attempt = some p → p.Meets (Answered node fun _ _ => True)
    (fun t => Derived m₀ (node.mask t)) (fun _ _ => True) (fun _ _ => True) a.panel

theorem Confined.step (hstores : Stores node) (hc : Confined m₀ a) (hstep : AppStep node a e a') :
    Confined m₀ a' := by
  cases hstep with
  | post _ _ _ | sensor _ | change => exact ⟨hc.mask, hc.rest⟩
  | attempt _ =>
      refine ⟨hc.mask, fun p hp => ?_⟩
      cases hp
      exact applySetting_derived a.fields hstores _ hc.mask
  | @call o next r panel hattempt hanswered =>
      have hallowed : Answered node (fun _ _ => True) o a.panel r panel := by
        cases o with
        | node o => exact hanswered
        | _ => exact ⟨trivial, hanswered.2⟩
      have hnext := (hc.rest _ hattempt).answered hallowed
      refine ⟨hnext.now, fun p hp => ?_⟩
      cases hp
      exact hnext
  | returned _ _ | threw _ _ => exact ⟨hc.mask, fun p hp => by cases hp⟩

/-- At every moment of every run the mask is the one that the application found, or that one with the
two flags, the other bits as they were, and the enable bit set if there is any. -/
theorem mask_derived (hstores : Stores node) {sensors : Option (List Sensor)} {w₀ : World}
    {t₀ : node.State} (hrun : Run (AppStep node) (.created sensors w₀ t₀) h a) :
    node.mask a.panel = node.mask t₀ ∨ ∃ d f, Updated (node.mask t₀) (node.mask a.panel) d f := by
  have hstart : Confined (node.mask t₀) (.created sensors w₀ t₀ : Application node) :=
    ⟨Or.inl rfl, fun p hp => by cases hp⟩
  exact (hrun.invariant (Confined (node.mask t₀)) hstart fun _ _ _ hc hstep =>
    hc.step hstores hstep).mask

end Runs

theorem register_stores : Stores register where
  opened := fun _ => rfl
  closed := fun _ => rfl
  written := fun m v => by
    have hstored : BitVec.ofNat 32 (LittleEndian.value (putInt v)) = v := by
      rw [putInt, LittleEndian.value_pack32 v.isLt, BitVec.ofNat_toNat, BitVec.setWidth_eq]
    exact Or.inr hstored

theorem mask_derived_screen : ∃ h, ∃ a : Application register,
    Run (AppStep register) (.created none (bareWorld false) (0x80000010 : BitVec 32)) h a ∧
      (register.mask a.panel = 0x80000010 ∨
        ∃ d f, Updated 0x80000010 (register.mask a.panel) d f) := by
  rcases screen_run with ⟨h, a, _, hrun, _, _⟩
  exact ⟨h, a, hrun, mask_derived register_stores hrun⟩

end Gestures
end M2391Device
