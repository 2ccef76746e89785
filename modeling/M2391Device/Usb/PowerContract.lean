import M2391Device.Usb.UeventRuns

/-!
# PowerContract — the power attributes of the gadget while power is delivered

When power delivery begins, `handle_typec_uevent` saves two attributes and overrides them; when it
ends, it writes them back and forgets the first.  No result of these operations is looked at.  The
original values survive as long as an override comes after two reads that worked, and the writes
that restore them work too.
-/

namespace M2391Device
namespace UsbHal

open Program Transition

universe u

/-! ## Nodes -/

/-- A file that holds what was last written to it, and nothing else writes it. -/
structure IsNode {σ : Type u} (w : World σ) (path : Text) (content : σ → Text) : Prop where
  read : ∀ text x, (w.readFile path x).1 = some text → text = content x
  write : ∀ text x, content (w.writeFile text path x).2 =
    if (w.writeFile text path x).1 then text else content x
  readFile : ∀ p x, content (w.readFile p x).2 = content x
  writeFile : ∀ text p x, p ≠ path → content (w.writeFile text p x).2 = content x
  listDirectory : ∀ p x, content (w.listDirectory p x).2 = content x
  access : ∀ p writable x, content (w.access p writable x).2 = content x
  getProperty : ∀ key x, content (w.getProperty key x).2 = content x
  setProperty : ∀ key value x, content (w.setProperty key value x) = content x
  iterate : ∀ names x, content (w.iterate names x).2 = content x
  tryRoleSwitchLock : ∀ x, content (w.tryRoleSwitchLock x).2 = content x

/-- The two attributes of the gadget as nodes. -/
structure PowerNodes {σ : Type u} (w : World σ) where
  maxPower : σ → Text
  attributes : σ → Text
  isMaxPower : IsNode w MAX_POWER maxPower
  isAttributes : IsNode w BM_ATTRIBUTES attributes

theorem maxPower_ne_attributes : MAX_POWER ≠ BM_ATTRIBUTES := by decide

def USB_POWER_DELIVERY : Text := "usb_power_delivery"

/-! ## Events -/

/-- The reads in a list of operations, with what was read. -/
def reads (ops : List (Answered Op Res)) : List (Text × Option Text) :=
  ops.filterMap fun
    | ⟨.readFile path, answer⟩ => some (path, answer)
    | _ => none

/-- A type-C event that was handled, and what it did about the power attributes. -/
structure TypecHandled where
  msg : Text
  power : List (Answered Op Res)

inductive TypecEvent
  | typec (x : TypecHandled)
  /-- Between two events. -/
  | other

/-- The state after the partner was noted. -/
def World.noted {σ : Type u} (w : World σ) (s : State σ) (msg : Text) : State σ :=
  ((notePartner msg).run w.step s).2

/-- A message that is handled in a state. -/
def World.typecHandled {σ : Type u} (w : World σ) (s : State σ) (msg : Text) : TypecHandled :=
  ⟨msg, handlePowerMode.trace w.step (w.noted s msg)⟩

inductive TypecStep {σ : Type u} {w : World σ} (n : PowerNodes w) :
    State σ → TypecEvent → State σ → Prop where
  | typec {s s' : State σ} {msg : Text} :
      (handle_typec_uevent msg).run w.step s = (.ok (), s') →
      TypecStep n s (.typec (w.typecHandled s msg)) s'
  | other {s s' : State σ} :
      s'.usb.mPowerOpMode = s.usb.mPowerOpMode → s'.usb.mMaxPower = s.usb.mMaxPower →
      s'.usb.mAttributes = s.usb.mAttributes → n.maxPower s'.world = n.maxPower s.world →
      n.attributes s'.world = n.attributes s.world → TypecStep n s .other s'

/-! ## What should hold, and when it does -/

namespace PowerNodes

variable {σ : Type u} {w : World σ}

/-- Each original value is in its node or in its field. -/
def Kept (n : PowerNodes w) (maxPower attributes : Text) (s : State σ) : Prop :=
  (n.maxPower s.world = maxPower ∨ s.usb.mMaxPower = maxPower) ∧
    (n.attributes s.world = attributes ∨ s.usb.mAttributes = attributes)

/-- Both nodes hold their original values. -/
def InPlace (n : PowerNodes w) (maxPower attributes : Text) (s : State σ) : Prop :=
  n.maxPower s.world = maxPower ∧ n.attributes s.world = attributes

/-- An override is safe if both attributes were read, the first one as a text that is not empty.  It
is safe as well if the first one comes out empty and neither node changes. -/
def SafeOverride (n : PowerNodes w) (s : State σ) (maxPower attributes : Option Text)
    (overrides overrides' : Bool) : Prop :=
  (∃ text, maxPower = some text ∧ text ≠ []) ∧ attributes ≠ none ∨
    maxPower.getD [] = [] ∧ (overrides = false ∨ n.maxPower s.world = "0") ∧
      (overrides' = false ∨ n.attributes s.world = "0xc0")

/-- What an event reads and writes of the attributes is safe. -/
structure SafeExchange (n : PowerNodes w) (s : State σ) (x : TypecHandled) : Prop where
  override : ∀ mode maxPower attributes overrides overrides',
    reads x.power =
      [(POWER_OPERATION_MODE, mode), (MAX_POWER, maxPower), (BM_ATTRIBUTES, attributes)] →
    writes x.power =
      [("0".toList, MAX_POWER, overrides), ("0xc0".toList, BM_ATTRIBUTES, overrides')] →
    n.SafeOverride s maxPower attributes overrides overrides'
  /-- A node accepts what is written back to it, or holds it already. -/
  restore : ∀ mode maxPower attributes restores restores',
    reads x.power = [(POWER_OPERATION_MODE, mode)] →
    writes x.power = [(maxPower, MAX_POWER, restores), (attributes, BM_ATTRIBUTES, restores')] →
    (restores = true ∨ n.maxPower s.world = maxPower) ∧
      (restores' = true ∨ n.attributes s.world = attributes)

/-- A step whose exchange is safe. -/
def SafeStep (n : PowerNodes w) (s : State σ) (e : TypecEvent) (s' : State σ) : Prop :=
  TypecStep n s e s' ∧ ∀ x, e = .typec x → n.SafeExchange s x

end PowerNodes

/-! ## Frames -/

section Frames

variable {σ : Type u} {w : World σ} {path : Text} {content : σ → Text}

/-- A node is changed by the writes to it only. -/
theorem IsNode.keeps (hnode : IsNode w path content) {paths : Text → Prop}
    {assigned : Assignment → Prop} (hpath : ¬ paths path) (o : Op) (s : State σ)
    (ho : o.Within paths assigned) : content (w.step o s).2.world = content s.world := by
  cases o with
  | readFile p => exact hnode.readFile p s.world
  | writeFile text p =>
      refine hnode.writeFile text p s.world ?_
      rintro rfl
      exact hpath ho
  | listDirectory p => exact hnode.listDirectory p s.world
  | access p writable => exact hnode.access p writable s.world
  | getProperty key => exact hnode.getProperty key s.world
  | setProperty key value => exact hnode.setProperty key value s.world
  | iterate names => exact hnode.iterate names s.world
  | tryRoleSwitchLock => exact hnode.tryRoleSwitchLock s.world
  | fields => rfl
  | assign a => rfl
  | notify message => rfl

/-- A write that is refused, or of what is there already. -/
theorem IsNode.unchanged (hnode : IsNode w path content) {text : Text} {x : σ}
    (h : (w.writeFile text path x).1 = false ∨ content x = text) :
    content (w.writeFile text path x).2 = content x := by
  rw [hnode.write]
  rcases h with hrefused | hsame
  · rw [hrefused]
    rfl
  · rw [hsame]
    exact ite_self text

/-- A write that is accepted, or of what is there already. -/
theorem IsNode.written (hnode : IsNode w path content) {text : Text} {x : σ}
    (h : (w.writeFile text path x).1 = true ∨ content x = text) :
    content (w.writeFile text path x).2 = text := by
  rw [hnode.write]
  rcases h with haccepted | hsame
  · rw [haccepted]
    rfl
  · rw [hsame]
    exact ite_self text

/-- What an event is about: the nodes, the saved values and the mode. -/
structure SamePower (n : PowerNodes w) (s s' : State σ) : Prop where
  mPowerOpMode : s'.usb.mPowerOpMode = s.usb.mPowerOpMode
  mMaxPower : s'.usb.mMaxPower = s.usb.mMaxPower
  mAttributes : s'.usb.mAttributes = s.usb.mAttributes
  maxPower : n.maxPower s'.world = n.maxPower s.world
  attributes : n.attributes s'.world = n.attributes s.world

/-- Operations elsewhere leave all that alone. -/
theorem SamePower.step {n : PowerNodes w} {paths : Text → Prop} {assigned : Assignment → Prop}
    (hmax : ¬ paths MAX_POWER) (hattributes : ¬ paths BM_ATTRIBUTES)
    (hassigned : ∀ a, assigned a → ¬ a.OfPower) {s : State σ} (o : Op) (t : State σ)
    (ho : o.Within paths assigned) (hsame : SamePower n s t) : SamePower n s (w.step o t).2 := by
  have hfields := w.step_keeps (I := fun usb => usb.mPowerOpMode = t.usb.mPowerOpMode ∧
    usb.mMaxPower = t.usb.mMaxPower ∧ usb.mAttributes = t.usb.mAttributes) o t ho
    (by
      intro a usb ha hsame
      cases a <;> first | exact hsame | exact absurd trivial (hassigned _ ha))
    ⟨rfl, rfl, rfl⟩
  constructor
  · exact hfields.1.trans hsame.mPowerOpMode
  · exact hfields.2.1.trans hsame.mMaxPower
  · exact hfields.2.2.trans hsame.mAttributes
  · exact (n.isMaxPower.keeps hmax o t ho).trans hsame.maxPower
  · exact (n.isAttributes.keeps hattributes o t ho).trans hsame.attributes

theorem SamePower.refl (n : PowerNodes w) (s : State σ) : SamePower n s s := ⟨rfl, rfl, rfl, rfl, rfl⟩

theorem SamePower.kept {n : PowerNodes w} {s s' : State σ} {maxPower attributes : Text}
    (hsame : SamePower n s s') (hkept : n.Kept maxPower attributes s) :
    n.Kept maxPower attributes s' := by
  rcases hkept with ⟨hmax, hattributes⟩
  refine ⟨?_, ?_⟩
  · rwa [hsame.maxPower, hsame.mMaxPower]
  · rwa [hsame.attributes, hsame.mAttributes]

/-- A program that works elsewhere. -/
theorem SamePower.program {n : PowerNodes w} {s : State σ} {maxPower attributes : Text} {α : Type}
    {x : Hal α} {paths : Text → Prop} {assigned : Assignment → Prop}
    (hx : x.Performs (Op.Within paths assigned)) (hmax : ¬ paths MAX_POWER)
    (hattributes : ¬ paths BM_ATTRIBUTES) (hassigned : ∀ a, assigned a → ¬ a.OfPower)
    (hkept : n.Kept maxPower attributes s) :
    SamePower n s (x.run w.step s).2 ∧ x.Always w.step (n.Kept maxPower attributes) s := by
  have hstep := SamePower.step (n := n) (s := s) hmax hattributes hassigned
  have hall := hx.always (SamePower n s) hstep (SamePower.refl n s)
  exact ⟨hall.last, hall.mono fun t hsame => hsame.kept hkept⟩

end Frames

/-! ## Saving and overriding, restoring and forgetting -/

section Exchange

variable {σ : Type u} {w : World σ} {n : PowerNodes w} {s : State σ} {maxPower attributes : Text}

/-- What is kept while power is delivered. -/
def PowerNodes.Saved (n : PowerNodes w) (maxPower attributes : Text) (s : State σ) : Prop :=
  s.usb.mMaxPower = maxPower ∧ maxPower ≠ [] ∧ s.usb.mAttributes = attributes ∨
    s.usb.mMaxPower = [] ∧ n.InPlace maxPower attributes s

theorem overridePower_keeps (hplace : n.InPlace maxPower attributes s)
    (hsafe : ∀ read read' overrides overrides',
      reads (overridePower.trace w.step s) = [(MAX_POWER, read), (BM_ATTRIBUTES, read')] →
      writes (overridePower.trace w.step s) =
        [("0".toList, MAX_POWER, overrides), ("0xc0".toList, BM_ATTRIBUTES, overrides')] →
      n.SafeOverride s read read' overrides overrides') :
    overridePower.Always w.step (n.Kept maxPower attributes) s ∧
      n.Saved maxPower attributes (overridePower.run w.step s).2 := by
  rcases hplace with ⟨rfl, rfl⟩
  -- the system after each of the four operations on the nodes
  let x₁ := (w.readFile MAX_POWER s.world).2
  let x₂ := (w.readFile BM_ATTRIBUTES x₁).2
  let x₃ := (w.writeFile "0".toList MAX_POWER x₂).2
  let x₄ := (w.writeFile "0xc0".toList BM_ATTRIBUTES x₃).2
  have hmax₁ : n.maxPower x₁ = n.maxPower s.world := n.isMaxPower.readFile _ _
  have hattr₁ : n.attributes x₁ = n.attributes s.world := n.isAttributes.readFile _ _
  have hmax₂ : n.maxPower x₂ = n.maxPower s.world := (n.isMaxPower.readFile _ _).trans hmax₁
  have hattr₂ : n.attributes x₂ = n.attributes s.world := (n.isAttributes.readFile _ _).trans hattr₁
  have hattr₃ : n.attributes x₃ = n.attributes s.world :=
    (n.isAttributes.writeFile _ _ _ maxPower_ne_attributes).trans hattr₂
  have hmax₄ : n.maxPower x₄ = n.maxPower x₃ :=
    n.isMaxPower.writeFile _ _ _ maxPower_ne_attributes.symm
  have hsafe' : n.SafeOverride s (w.readFile MAX_POWER s.world).1 (w.readFile BM_ATTRIBUTES x₁).1
      (w.writeFile "0".toList MAX_POWER x₂).1 (w.writeFile "0xc0".toList BM_ATTRIBUTES x₃).1 :=
    hsafe _ _ _ _ rfl rfl
  rcases hsafe' with ⟨⟨text, hread, hnonempty⟩, hread'⟩ | ⟨hempty, hmax, hattr⟩
  · -- both values are saved before anything is overridden
    rcases Option.ne_none_iff_exists'.1 hread' with ⟨text', hread'⟩
    have htext : text = n.maxPower s.world := n.isMaxPower.read _ _ hread
    have htext' : text' = n.attributes s.world := (n.isAttributes.read _ _ hread').trans hattr₁
    have hsaved : (w.readFile MAX_POWER s.world).1.getD [] = n.maxPower s.world := by
      rw [hread, htext]
      rfl
    have hsaved' : (w.readFile BM_ATTRIBUTES x₁).1.getD [] = n.attributes s.world := by
      rw [hread', htext']
      rfl
    refine ⟨⟨⟨Or.inl rfl, Or.inl rfl⟩, ⟨Or.inl rfl, Or.inl rfl⟩, ⟨Or.inl hmax₁, Or.inl hattr₁⟩,
      ⟨Or.inl hmax₁, Or.inl hattr₁⟩, ⟨Or.inl hmax₁, Or.inl hattr₁⟩, ⟨Or.inl hmax₂, Or.inl hattr₂⟩,
      ⟨Or.inl hmax₂, Or.inl hattr₂⟩, ⟨Or.inr hsaved, Or.inl hattr₃⟩,
      ⟨Or.inr hsaved, Or.inr hsaved'⟩⟩, Or.inl ⟨hsaved, ?_, hsaved'⟩⟩
    rwa [← htext]
  · -- nothing is saved, and the nodes stay as they are
    rw [← hmax₂] at hmax
    rw [← hattr₃] at hattr
    have hkept₃ : n.maxPower x₃ = n.maxPower s.world := (n.isMaxPower.unchanged hmax).trans hmax₂
    have hkept₄ : n.attributes x₄ = n.attributes s.world :=
      (n.isAttributes.unchanged hattr).trans hattr₃
    exact ⟨⟨⟨Or.inl rfl, Or.inl rfl⟩, ⟨Or.inl rfl, Or.inl rfl⟩, ⟨Or.inl hmax₁, Or.inl hattr₁⟩,
      ⟨Or.inl hmax₁, Or.inl hattr₁⟩, ⟨Or.inl hmax₁, Or.inl hattr₁⟩, ⟨Or.inl hmax₂, Or.inl hattr₂⟩,
      ⟨Or.inl hmax₂, Or.inl hattr₂⟩, ⟨Or.inl hkept₃, Or.inl hattr₃⟩,
      ⟨Or.inl (hmax₄.trans hkept₃), Or.inl hkept₄⟩⟩,
      Or.inr ⟨hempty, hmax₄.trans hkept₃, hkept₄⟩⟩

theorem PowerNodes.Saved.kept (hsaved : n.Saved maxPower attributes s) :
    n.Kept maxPower attributes s := by
  rcases hsaved with ⟨hmax, _, hattr⟩ | ⟨_, hmax, hattr⟩
  · exact ⟨Or.inr hmax, Or.inr hattr⟩
  · exact ⟨Or.inl hmax, Or.inl hattr⟩

theorem PowerNodes.InPlace.kept (hplace : n.InPlace maxPower attributes s) :
    n.Kept maxPower attributes s := ⟨Or.inl hplace.1, Or.inl hplace.2⟩

theorem restorePower_keeps (hsaved : n.Saved maxPower attributes s)
    (hsafe : ∀ restores restores',
      writes ((restorePower s.usb).trace w.step s) =
        [(s.usb.mMaxPower, MAX_POWER, restores), (s.usb.mAttributes, BM_ATTRIBUTES, restores')] →
      (restores = true ∨ n.maxPower s.world = s.usb.mMaxPower) ∧
        (restores' = true ∨ n.attributes s.world = s.usb.mAttributes)) :
    (restorePower s.usb).Always w.step (n.Kept maxPower attributes) s ∧
      n.InPlace maxPower attributes ((restorePower s.usb).run w.step s).2 ∧
      ((restorePower s.usb).run w.step s).2.usb.mMaxPower = [] := by
  by_cases hempty : s.usb.mMaxPower = []
  · -- nothing was saved, so nothing was overridden
    rw [restorePower, if_pos hempty]
    rcases hsaved with ⟨hmax, hnonempty, _⟩ | ⟨_, hplace⟩
    · exact absurd (hmax.symm.trans hempty) hnonempty
    · exact ⟨hplace.kept, hplace, hempty⟩
  · rw [restorePower, if_neg hempty] at hsafe ⊢
    rcases hsaved with ⟨hmax, _, hattr⟩ | ⟨hnone, _⟩
    -- the two writes come one after the other, and neither disturbs the other's node
    · let x₁ := (w.writeFile s.usb.mMaxPower MAX_POWER s.world).2
      let x₂ := (w.writeFile s.usb.mAttributes BM_ATTRIBUTES x₁).2
      have hsafe' : ((w.writeFile s.usb.mMaxPower MAX_POWER s.world).1 = true ∨
            n.maxPower s.world = s.usb.mMaxPower) ∧
          ((w.writeFile s.usb.mAttributes BM_ATTRIBUTES x₁).1 = true ∨
            n.attributes s.world = s.usb.mAttributes) := hsafe _ _ rfl
      have hattr₁ : n.attributes x₁ = n.attributes s.world :=
        n.isAttributes.writeFile _ _ _ maxPower_ne_attributes
      have hmax₁ : n.maxPower x₁ = maxPower := (n.isMaxPower.written hsafe'.1).trans hmax
      have hmax₂ : n.maxPower x₂ = maxPower :=
        (n.isMaxPower.writeFile _ _ _ maxPower_ne_attributes.symm).trans hmax₁
      have hattr₂ : n.attributes x₂ = attributes := by
        refine (n.isAttributes.written ?_).trans hattr
        rw [hattr₁]
        exact hsafe'.2
      exact ⟨⟨⟨Or.inr hmax, Or.inr hattr⟩, ⟨Or.inr hmax, Or.inr hattr⟩, ⟨Or.inr hmax, Or.inr hattr⟩,
        ⟨Or.inl hmax₂, Or.inl hattr₂⟩⟩, ⟨hmax₂, hattr₂⟩, rfl⟩
    · exact absurd hnone hempty

/-- Between two events: out of a contract both nodes hold their values, and in a contract they are
saved. -/
structure PowerNodes.Settled (n : PowerNodes w) (maxPower attributes : Text) (s : State σ) : Prop where
  outside : s.usb.mPowerOpMode ≠ USB_POWER_DELIVERY →
    n.InPlace maxPower attributes s ∧ s.usb.mMaxPower = []
  inside : s.usb.mPowerOpMode = USB_POWER_DELIVERY → n.Saved maxPower attributes s

theorem PowerNodes.Settled.saved (h : n.Settled maxPower attributes s) :
    n.Saved maxPower attributes s := by
  by_cases hmode : s.usb.mPowerOpMode = USB_POWER_DELIVERY
  · exact h.inside hmode
  · exact Or.inr ⟨(h.outside hmode).2, (h.outside hmode).1⟩

theorem SamePower.settled {t : State σ} (hsame : SamePower n s t)
    (h : n.Settled maxPower attributes s) : n.Settled maxPower attributes t := by
  constructor
  · intro hmode
    rw [hsame.mPowerOpMode] at hmode
    rw [hsame.mMaxPower, PowerNodes.InPlace, hsame.maxPower, hsame.attributes]
    exact h.outside hmode
  · intro hmode
    rw [hsame.mPowerOpMode] at hmode
    rw [PowerNodes.Saved, PowerNodes.InPlace, hsame.mMaxPower, hsame.mAttributes, hsame.maxPower,
      hsame.attributes]
    exact h.inside hmode

theorem SamePower.safeOverride {t : State σ} (hsame : SamePower n s t) {read read' : Option Text}
    {overrides overrides' : Bool} (h : n.SafeOverride s read read' overrides overrides') :
    n.SafeOverride t read read' overrides overrides' := by
  rwa [PowerNodes.SafeOverride, hsame.maxPower, hsame.attributes]

/-- What `handlePowerMode` does about a mode that was read. -/
def changePowerMode (usb : Usb) (power_operation_mode : Text) : Hal Unit :=
  if usb.mPowerOpMode = power_operation_mode then assign (.mPowerOpMode power_operation_mode)
  else if power_operation_mode = "usb_power_delivery" then
    overridePower >>= fun _ => assign (.mPowerOpMode power_operation_mode)
  else restorePower usb >>= fun _ => assign (.mPowerOpMode power_operation_mode)

/-- The same about an answer of the read. -/
def changePowerMode? : Option Text → Hal Unit
  | none => Pure.pure ()
  | some text => fields >>= fun usb => changePowerMode usb (trim text)

theorem overridePower_ok : ∃ t, overridePower.run w.step s = (.ok (), t) := ⟨_, rfl⟩

theorem restorePower_ok : ∃ t, (restorePower s.usb).run w.step s = (.ok (), t) := by
  by_cases hempty : s.usb.mMaxPower = []
  · exact ⟨_, by rw [restorePower, if_pos hempty]; rfl⟩
  · exact ⟨_, by rw [restorePower, if_neg hempty]; rfl⟩

theorem reads_append (ops ops' : List (Answered Op Res)) :
    reads (ops ++ ops') = reads ops ++ reads ops' := List.filterMap_append

section NoteMode

variable {x : Hal Unit} {t : State σ} {mode : Text} (hrun : x.run w.step s = (.ok (), t))

include hrun

/-- The mode is noted after everything else. -/
theorem noteMode_run : (x >>= fun _ => assign (.mPowerOpMode mode)).run w.step s =
    (.ok (), { t with usb.mPowerOpMode := mode }) := by
  rw [run_bind_ok hrun]
  rfl

theorem noteMode_reads :
    reads ((x >>= fun _ => assign (.mPowerOpMode mode)).trace w.step s) = reads (x.trace w.step s) := by
  rw [trace_bind_ok hrun, reads_append]
  exact List.append_nil _

theorem noteMode_writes :
    writes ((x >>= fun _ => assign (.mPowerOpMode mode)).trace w.step s) =
      writes (x.trace w.step s) := by
  rw [trace_bind_ok hrun, writes_append]
  exact List.append_nil _

omit hrun in
theorem noteMode_always (halways : x.Always w.step (n.Kept maxPower attributes) s) :
    (x >>= fun _ => assign (.mPowerOpMode mode)).Always w.step (n.Kept maxPower attributes) s := by
  refine halways.bind fun a s' hrun' => ?_
  have hkept : n.Kept maxPower attributes s' := by
    have hlast := halways.last
    rwa [hrun'] at hlast
  exact ⟨hkept, hkept⟩

end NoteMode

theorem changePowerMode_keeps (hsettled : n.Settled maxPower attributes s) (mode : Text)
    (hoverride : ∀ read read' overrides overrides',
      reads ((changePowerMode s.usb mode).trace w.step s) =
        [(MAX_POWER, read), (BM_ATTRIBUTES, read')] →
      writes ((changePowerMode s.usb mode).trace w.step s) =
        [("0".toList, MAX_POWER, overrides), ("0xc0".toList, BM_ATTRIBUTES, overrides')] →
      n.SafeOverride s read read' overrides overrides')
    (hrestore : ∀ text text' restores restores',
      reads ((changePowerMode s.usb mode).trace w.step s) = [] →
      writes ((changePowerMode s.usb mode).trace w.step s) =
        [(text, MAX_POWER, restores), (text', BM_ATTRIBUTES, restores')] →
      (restores = true ∨ n.maxPower s.world = text) ∧
        (restores' = true ∨ n.attributes s.world = text')) :
    (changePowerMode s.usb mode).Always w.step (n.Kept maxPower attributes) s ∧
      n.Settled maxPower attributes ((changePowerMode s.usb mode).run w.step s).2 := by
  have hkept := hsettled.saved.kept
  unfold changePowerMode at hoverride hrestore ⊢
  by_cases hsame : s.usb.mPowerOpMode = mode
  · subst hsame
    rw [if_pos rfl]
    exact ⟨⟨hkept, hkept⟩, hsettled⟩
  rw [if_neg hsame] at hoverride hrestore ⊢
  by_cases hdelivery : mode = "usb_power_delivery".toList
  · -- a contract begins
    rw [if_pos hdelivery] at hoverride ⊢
    have houtside : s.usb.mPowerOpMode ≠ USB_POWER_DELIVERY := fun heq =>
      hsame (heq.trans hdelivery.symm)
    rcases overridePower_ok (w := w) (s := s) with ⟨t, hrun⟩
    rw [noteMode_reads hrun, noteMode_writes hrun] at hoverride
    rcases overridePower_keeps (hsettled.outside houtside).1 hoverride with ⟨halways, hsaved⟩
    rw [hrun] at hsaved
    refine ⟨noteMode_always halways, ?_⟩
    rw [noteMode_run hrun]
    exact ⟨fun hmode => absurd hdelivery hmode, fun _ => hsaved⟩
  · -- a contract ends, or none was there
    rw [if_neg hdelivery] at hrestore ⊢
    rcases restorePower_ok (w := w) (s := s) with ⟨t, hrun⟩
    rw [noteMode_reads hrun, noteMode_writes hrun] at hrestore
    have hnoreads : reads ((restorePower s.usb).trace w.step s) = [] := by
      unfold restorePower
      split <;> rfl
    rcases restorePower_keeps hsettled.saved (fun restores restores' => hrestore _ _ restores restores' hnoreads)
      with ⟨halways, hplace, hforgotten⟩
    rw [hrun] at hplace hforgotten
    refine ⟨noteMode_always halways, ?_⟩
    rw [noteMode_run hrun]
    exact ⟨fun _ => ⟨hplace, hforgotten⟩, fun hmode => absurd hmode hdelivery⟩

theorem changePowerMode?_keeps (hsettled : n.Settled maxPower attributes s) (answer : Option Text)
    (hoverride : ∀ read read' overrides overrides',
      reads ((changePowerMode? answer).trace w.step s) =
        [(MAX_POWER, read), (BM_ATTRIBUTES, read')] →
      writes ((changePowerMode? answer).trace w.step s) =
        [("0".toList, MAX_POWER, overrides), ("0xc0".toList, BM_ATTRIBUTES, overrides')] →
      n.SafeOverride s read read' overrides overrides')
    (hrestore : ∀ text text' restores restores',
      reads ((changePowerMode? answer).trace w.step s) = [] →
      writes ((changePowerMode? answer).trace w.step s) =
        [(text, MAX_POWER, restores), (text', BM_ATTRIBUTES, restores')] →
      (restores = true ∨ n.maxPower s.world = text) ∧
        (restores' = true ∨ n.attributes s.world = text')) :
    (changePowerMode? answer).Always w.step (n.Kept maxPower attributes) s ∧
      n.Settled maxPower attributes ((changePowerMode? answer).run w.step s).2 := by
  cases answer with
  | none => exact ⟨hsettled.saved.kept, hsettled⟩
  | some text =>
      rcases changePowerMode_keeps hsettled (trim text) hoverride hrestore with ⟨halways, hafter⟩
      exact ⟨⟨hsettled.saved.kept, halways⟩, hafter⟩

/-- One event of safe exchanges keeps both attributes all the way. -/
theorem handlePowerMode_keeps (hsettled : n.Settled maxPower attributes s) {msg : Text}
    (hsafe : n.SafeExchange s ⟨msg, handlePowerMode.trace w.step s⟩) :
    handlePowerMode.Always w.step (n.Kept maxPower attributes) s ∧
      n.Settled maxPower attributes (handlePowerMode.run w.step s).2 := by
  -- reading the mode changes neither node
  let t : State σ := { s with world := (w.readFile POWER_OPERATION_MODE s.world).2 }
  have hmax : n.maxPower t.world = n.maxPower s.world := n.isMaxPower.readFile _ _
  have hattr : n.attributes t.world = n.attributes s.world := n.isAttributes.readFile _ _
  have hread : SamePower n s t := ⟨rfl, rfl, rfl, hmax, hattr⟩
  have hafter := changePowerMode?_keeps (hread.settled hsettled)
    (w.readFile POWER_OPERATION_MODE s.world).1
    (fun read read' overrides overrides' hreads hwrites =>
      hread.safeOverride (hsafe.override _ read read' overrides overrides'
        (congrArg (_ :: ·) hreads) hwrites))
    (fun text text' restores restores' hreads hwrites => by
      rw [hmax, hattr]
      exact hsafe.restore _ text text' restores restores' (congrArg (_ :: ·) hreads) hwrites)
  exact ⟨⟨hsettled.saved.kept, hafter.1⟩, hafter.2⟩

end Exchange

/-! ## One event -/

section OneEvent

variable {σ : Type u} {w : World σ} {n : PowerNodes w} {s : State σ} {maxPower attributes : Text}

theorem not_isPortType {path : Text} (hpath : ¬ "/sys/class/typec/".toList <+: path) :
    ¬ IsPortType path := by
  rintro ⟨portName, rfl, hnonempty⟩
  unfold appendRoleNodeHelper at hnonempty hpath
  split at hnonempty
  · exact hnonempty rfl
  · rename_i hok
    rw [if_neg hok] at hpath
    exact hpath ((List.prefix_append _ portName).trans (List.prefix_append _ _))

theorem notePartner_same (msg : Text) (hkept : n.Kept maxPower attributes s) :
    SamePower n s (w.noted s msg) ∧
      (notePartner msg).Always w.step (n.Kept maxPower attributes) s := by
  refine SamePower.program ((notePartner_footprint msg).mono fun _ => Op.In.within) id id ?_ hkept
  rintro _ rfl
  exact id

theorem reportAndSwitch_same (hkept : n.Kept maxPower attributes s) :
    SamePower n s (reportAndSwitch.run w.step s).2 ∧
      reportAndSwitch.Always w.step (n.Kept maxPower attributes) s :=
  SamePower.program reportAndSwitch_within (not_isPortType (by decide)) (not_isPortType (by decide))
    (fun _ h => h.elim) hkept

theorem SamePower.safeExchange {t : State σ} (hsame : SamePower n s t) {x : TypecHandled}
    (h : n.SafeExchange s x) : n.SafeExchange t x := by
  constructor
  · intro mode read read' overrides overrides' hreads hwrites
    exact hsame.safeOverride (h.override mode read read' overrides overrides' hreads hwrites)
  · rw [hsame.maxPower, hsame.attributes]
    exact h.restore

/-- A type-C event of safe exchanges keeps both attributes all the way. -/
theorem handle_typec_uevent_keeps (hsettled : n.Settled maxPower attributes s) {msg : Text}
    (hsafe : n.SafeExchange s (w.typecHandled s msg)) :
    (handle_typec_uevent msg).Always w.step (n.Kept maxPower attributes) s ∧
      ∀ s', (handle_typec_uevent msg).run w.step s = (.ok (), s') →
        n.Settled maxPower attributes s' := by
  rcases notePartner_same msg hsettled.saved.kept with ⟨hnoted, hnote⟩
  have hsettled' := hnoted.settled hsettled
  rcases handlePowerMode_keeps hsettled' (hnoted.safeExchange hsafe) with ⟨hpower, hafter⟩
  constructor
  · refine hnote.bind fun _ t ht => ?_
    have htn : t = w.noted s msg := congrArg Prod.snd ht |>.symm
    subst htn
    refine hpower.bind fun _ t' ht' => ?_
    rw [ht'] at hafter
    exact (reportAndSwitch_same hafter.saved.kept).2
  · intro s' hrun
    rcases run_bind_ok_inv hrun with ⟨_, t, ht, hrun⟩
    have htn : t = w.noted s msg := congrArg Prod.snd ht |>.symm
    subst htn
    rcases run_bind_ok_inv hrun with ⟨_, t', ht', hrun⟩
    rw [ht'] at hafter
    have hrest : (reportAndSwitch.run w.step t').2 = s' := congrArg Prod.snd hrun
    rw [← hrest]
    exact (reportAndSwitch_same hafter.saved.kept).1.settled hafter

end OneEvent

/-! ## Runs -/

section Runs

variable {σ : Type u} {w : World σ} {n : PowerNodes w} {s₀ s s' : State σ} {h : List TypecEvent}
  {maxPower attributes : Text}

theorem PowerNodes.SafeStep.settled {e : TypecEvent} (hstep : n.SafeStep s e s')
    (hsettled : n.Settled maxPower attributes s) : n.Settled maxPower attributes s' := by
  rcases hstep with ⟨hstep, hsafe⟩
  cases hstep with
  | typec hrun => exact (handle_typec_uevent_keeps hsettled (hsafe _ rfl)).2 _ hrun
  | other hmode hmax hattr hmax' hattr' =>
      exact SamePower.settled ⟨hmode, hmax, hattr, hmax', hattr'⟩ hsettled

/-- The object of the constructor has no contract and has saved nothing. -/
theorem settled_constructed (hstart : Constructed s) :
    n.Settled (n.maxPower s.world) (n.attributes s.world) s := by
  rcases hstart with ⟨_, hmode, hmax, _⟩
  constructor
  · exact fun _ => ⟨⟨rfl, rfl⟩, hmax⟩
  · intro hdelivery
    rw [hmode] at hdelivery
    cases hdelivery

theorem settled_run (hstart : Constructed s₀) (hrun : Run n.SafeStep s₀ h s) :
    n.Settled (n.maxPower s₀.world) (n.attributes s₀.world) s :=
  hrun.invariant (n.Settled (n.maxPower s₀.world) (n.attributes s₀.world))
    (settled_constructed hstart) fun _ _ _ hsettled hstep => hstep.settled hsettled

/-- Over events whose exchanges are all safe, each original value is in its node or in its field at
every moment, and out of a contract both nodes hold their original values. -/
theorem attributes_survive (hstart : Constructed s₀) (hrun : Run n.SafeStep s₀ h s) :
    n.Kept (n.maxPower s₀.world) (n.attributes s₀.world) s ∧
      (s.usb.mPowerOpMode ≠ USB_POWER_DELIVERY →
        n.InPlace (n.maxPower s₀.world) (n.attributes s₀.world) s) ∧
      ∀ msg, n.SafeExchange s (w.typecHandled s msg) →
        (handle_typec_uevent msg).Always w.step
          (n.Kept (n.maxPower s₀.world) (n.attributes s₀.world)) s := by
  have hsettled := settled_run hstart hrun
  refine ⟨hsettled.saved.kept, fun hmode => (hsettled.outside hmode).1, fun msg hsafe => ?_⟩
  exact (handle_typec_uevent_keeps hsettled hsafe).1

end Runs

/-! ## A contract that begins and ends -/

/-- A gadget whose writes succeed, with the mode of its port. -/
structure Gadget where
  mode : Text
  /-- Whether `MaxPower` can be read. -/
  readable : Bool
  maxPower : Text
  attributes : Text
  deriving DecidableEq

def World.gadget : World Gadget where
  readFile path x :=
    (if path = MAX_POWER then if x.readable then some x.maxPower else none
      else if path = BM_ATTRIBUTES then some x.attributes
      else some x.mode, x)
  writeFile text path x :=
    (true, { x with
      maxPower := if path = MAX_POWER then text else x.maxPower
      attributes := if path = BM_ATTRIBUTES then text else x.attributes })
  listDirectory _ x := (none, x)
  access _ _ x := (.ENOENT, x)
  getProperty _ x := ([], x)
  setProperty _ _ x := x
  iterate names x := (inOrder names, x)
  tryRoleSwitchLock x := (true, x)

theorem gadget_isNode {path : Text} {content : Gadget → Text}
    (hread : ∀ text x, (World.gadget.readFile path x).1 = some text → text = content x)
    (hwrite : ∀ text p x,
      content (World.gadget.writeFile text p x).2 = if p = path then text else content x) :
    IsNode World.gadget path content where
  read := hread
  write text x := (hwrite text path x).trans ((if_pos rfl).trans (if_pos rfl).symm)
  readFile _ _ := rfl
  writeFile text p x hpath := (hwrite text p x).trans (if_neg hpath)
  listDirectory _ _ := rfl
  access _ _ _ := rfl
  getProperty _ _ := rfl
  setProperty _ _ _ := rfl
  iterate _ _ := rfl
  tryRoleSwitchLock _ := rfl

theorem gadget_maxPower (x : Gadget) :
    (World.gadget.readFile MAX_POWER x).1 = if x.readable then some x.maxPower else none := by
  simp only [World.gadget, if_true]

theorem gadget_attributes (x : Gadget) :
    (World.gadget.readFile BM_ATTRIBUTES x).1 = some x.attributes := by
  simp only [World.gadget, if_neg maxPower_ne_attributes.symm, if_true]

def gadgetNodes : PowerNodes World.gadget where
  maxPower := Gadget.maxPower
  attributes := Gadget.attributes
  isMaxPower := by
    refine gadget_isNode (fun text x hread => ?_) fun _ _ _ => rfl
    rw [gadget_maxPower] at hread
    split at hread
    · exact (Option.some.inj hread).symm
    · cases hread
  isAttributes := by
    refine gadget_isNode (fun text x hread => ?_) fun _ _ _ => rfl
    rw [gadget_attributes] at hread
    exact (Option.some.inj hread).symm

/-- The object before its first event, at a port that delivers power. -/
def delivering (readable : Bool) : State Gadget :=
  .initial ⟨"usb_power_delivery\n", readable, "500", "0x80"⟩

def portChanged : Text := "change@/devices/typec/port0"

def portEvent (s : State Gadget) : TypecEvent :=
  .typec (World.gadget.typecHandled s portChanged)

def afterPortEvent (s : State Gadget) : State Gadget :=
  ((handle_typec_uevent portChanged).run World.gadget.step s).2

/-- The same port without a contract. -/
def withdrawn (s : State Gadget) : State Gadget :=
  { s with world := { s.world with mode := "default\n" } }

theorem portEvent_step (readable : Bool) :
    TypecStep gadgetNodes (delivering readable) (portEvent (delivering readable))
      (afterPortEvent (delivering readable)) := by
  refine .typec (Prod.ext ?_ rfl)
  cases readable <;> rfl

/-- The state in which the contract has ended. -/
def ended : State Gadget := withdrawn (afterPortEvent (delivering true))

theorem delivering_safe :
    gadgetNodes.SafeStep (delivering true) (portEvent (delivering true))
      (afterPortEvent (delivering true)) := by
  refine ⟨portEvent_step true, ?_⟩
  rintro x hx
  cases hx
  constructor
  · intro mode maxPower attributes overrides overrides' hreads _
    cases hreads
    exact Or.inl ⟨⟨_, rfl, by decide⟩, by decide⟩
  · intro mode maxPower attributes restores restores' hreads _
    cases hreads

theorem ended_safe : gadgetNodes.SafeStep ended (portEvent ended) (afterPortEvent ended) := by
  refine ⟨.typec rfl, ?_⟩
  rintro x hx
  cases hx
  constructor
  · intro mode maxPower attributes overrides overrides' hreads _
    cases hreads
  · intro mode maxPower attributes restores restores' _ hwrites
    cases hwrites
    exact ⟨Or.inl rfl, Or.inl rfl⟩

theorem withdrawn_safe (s : State Gadget) : gadgetNodes.SafeStep s .other (withdrawn s) := by
  refine ⟨.other rfl rfl rfl rfl rfl, ?_⟩
  intro x hx
  cases hx

/-- A contract that begins with attributes that can be read, and ends. -/
theorem attributes_survive_contract :
    Run gadgetNodes.SafeStep (delivering true)
        [portEvent (delivering true), .other, portEvent ended] (afterPortEvent ended) ∧
      gadgetNodes.InPlace "500" "0x80" (afterPortEvent ended) := by
  have hrun : Run gadgetNodes.SafeStep (delivering true)
      [portEvent (delivering true), .other, portEvent ended] (afterPortEvent ended) :=
    Run.cons delivering_safe (Run.cons (withdrawn_safe _) (Run.single ended_safe))
  have hstart : Constructed (delivering true) := ⟨rfl, rfl, rfl, rfl⟩
  exact ⟨hrun, (attributes_survive hstart hrun).2.1 (by decide)⟩

/-- `MaxPower` cannot be read when the contract begins, and is overridden all the same. -/
theorem maxPower_lost :
    Constructed (delivering false) ∧
      Run (TypecStep gadgetNodes) (delivering false) [portEvent (delivering false)]
        (afterPortEvent (delivering false)) ∧
      ¬ gadgetNodes.Kept (gadgetNodes.maxPower (delivering false).world)
        (gadgetNodes.attributes (delivering false).world) (afterPortEvent (delivering false)) := by
  refine ⟨⟨rfl, rfl, rfl, rfl⟩, Run.single (portEvent_step false), ?_⟩
  rintro ⟨hmax | hmax, _⟩
  · cases hmax
  · cases hmax

end UsbHal
end M2391Device
