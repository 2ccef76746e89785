import M2391Device.Lib.Contracts
import M2391Device.Usb.PortStatus

/-!
# PortReports — what a report of the ports says

A report has one entry for each port that was listed, up to the first one whose role cannot be read;
the later ones are left at their defaults, and the report comes with `ERROR` (`ReportOf`).  The
entries that are filled repeat the flags of the object as they stay while the report is made
(`getPortStatusHelper_meets`).
-/

namespace M2391Device
namespace UsbHal

open Program

universe u

/-! ## Reports -/

/-- The fields that a report repeats, and a request sets. -/
inductive Flag
  | usbDataDisabled
  | limitedPower
  deriving DecidableEq

def Flag.read (usb : Usb) : Flag → Bool
  | .usbDataDisabled => usb.usbDataDisabled
  | .limitedPower => usb.limitedPower

/-- The ports of a listing of `/sys/class/typec/`; one that cannot be made has none. -/
def typeCPorts (entries : Option (List Dirent)) : List Text :=
  ((entries.getD []).foldl addEntry []).map Prod.fst

/-- The ports that the system lists. -/
def World.ports {σ : Type u} (w : World σ) (s : State σ) : List Text :=
  typeCPorts (w.listDirectory "/sys/class/typec/" s.world).1

/-- The entry repeats the flags. -/
def Repeats (flags : Flag → Bool) (p : PortStatus) : Prop :=
  p.usbDataStatus = [if flags .usbDataDisabled then .DISABLED_FORCE else .ENABLED] ∧
    p.powerTransferLimited = flags .limitedPower

/-- What a report says of the flags: every port that is listed has an entry that repeats them.  A
system without ports has one entry that stands for none. -/
def Shows (flags : Flag → Bool) (names : List Text) (statuses : List PortStatus) : Prop :=
  if names = [] then statuses = [{}]
  else (statuses.map fun p => p.portName).Perm names ∧ ∀ p ∈ statuses, Repeats flags p

/-- A report of these ports, in the order in which they were taken. -/
inductive ReportOf (names : List Text) : Status → List PortStatus → Prop where
  | hardcoded : names = [] → ReportOf names .SUCCESS [{}]
  | complete {statuses : List PortStatus} : names ≠ [] →
      (statuses.map fun p => p.portName).Perm names → (∀ p ∈ statuses, p.usbDataStatus ≠ []) →
      ReportOf names .SUCCESS statuses
  -- a role of `p` cannot be read
  | failed {filled : List PortStatus} {p : PortStatus} {later : List Text} :
      ((filled.map fun q => q.portName) ++ p.portName :: later).Perm names →
      (∀ q ∈ filled, q.usbDataStatus ≠ []) → p.usbDataStatus = [] → p.powerTransferLimited = false →
      ReportOf names .ERROR (filled ++ p :: later.map fun _ => {})

section Shows

variable {flags : Flag → Bool} {names : List Text} {status : Status} {statuses : List PortStatus}

/-- A report shows the flags on every port exactly if it succeeds. -/
theorem ReportOf.shows_iff (hreport : ReportOf names status statuses)
    (hfilled : ∀ p ∈ statuses, p.usbDataStatus ≠ [] → Repeats flags p) :
    Shows flags names statuses ↔ status = .SUCCESS := by
  cases hreport with
  | hardcoded hnone =>
      rw [Shows, if_pos hnone]
      exact ⟨fun _ => rfl, fun _ => rfl⟩
  | complete hsome hperm hall =>
      rw [Shows, if_neg hsome]
      exact ⟨fun _ => rfl, fun _ => ⟨hperm, fun p hp => hfilled p hp (hall p hp)⟩⟩
  | @failed filled p later hperm hall hempty _ =>
      have hsome : names ≠ [] := by
        rintro rfl
        simpa using hperm.length_eq
      rw [Shows, if_neg hsome]
      constructor
      · rintro ⟨_, hshows⟩
        have hp := hshows p (List.mem_append_right _ List.mem_cons_self)
        rw [Repeats, hempty] at hp
        cases hp.1
      · intro hsuccess
        cases hsuccess

end Shows

/-! ## The shape of a report -/

section Shape

variable {portName path : Text} {connected : Bool}

/-- What the roles leave of an entry. -/
theorem readRoles_returns : (readRoles portName connected).Returns fun r =>
    r.2.portName = portName ∧ r.2.usbDataStatus = [] ∧ r.2.powerTransferLimited = false := by
  refine Returns.bind Returns.any fun ⟨result, role⟩ _ => ?_
  refine Returns.ite (fun _ => ⟨rfl, rfl, rfl⟩) fun _ => ?_
  refine Returns.bind Returns.any fun power _ => ?_
  refine Returns.bind Returns.any fun ⟨result, role⟩ _ => ?_
  refine Returns.ite (fun _ => ⟨rfl, rfl, rfl⟩) fun _ => ?_
  refine Returns.bind Returns.any fun data _ => ?_
  refine Returns.bind Returns.any fun ⟨result, role⟩ _ => ?_
  refine Returns.ite (fun _ => ⟨rfl, rfl, rfl⟩) fun _ => ?_
  exact Returns.bind Returns.any fun mode _ => ⟨rfl, rfl, rfl⟩

theorem firstPortStatus_returns {status : PortStatus} :
    (firstPortStatus path status).Returns fun p => p.portName = status.portName ∧
      p.usbDataStatus = status.usbDataStatus ∧
      p.powerTransferLimited = status.powerTransferLimited := by
  refine Returns.bind Returns.any fun presence _ => ?_
  refine Returns.bind Returns.any fun brick _ => ?_
  cases presence <;> exact ⟨rfl, rfl, rfl⟩

theorem portStatus_returns : (portStatus path portName connected).Returns fun r =>
    r.2.portName = portName ∧ (r.1 = true → r.2.usbDataStatus ≠ []) ∧
      (r.1 = false → r.2.usbDataStatus = [] ∧ r.2.powerTransferLimited = false) := by
  refine Returns.bind readRoles_returns fun ⟨complete, status⟩ ⟨hname, hdata, hpower⟩ => ?_
  refine Returns.ite (fun _ => ⟨hname, nofun, fun _ => ⟨hdata, hpower⟩⟩) fun _ => ?_
  refine Returns.bind Returns.any fun writable _ => ?_
  refine Returns.bind Returns.any fun data _ => Returns.bind Returns.any fun power _ => ?_
  refine Returns.bind Returns.any fun usb _ => ?_
  refine Returns.ite (fun _ => ⟨hname, fun _ => List.cons_ne_nil _ _, nofun⟩) fun _ => ?_
  refine Returns.bind firstPortStatus_returns fun p hsame => ?_
  refine ⟨Eq.trans hsame.1 hname, fun _ => ?_, nofun⟩
  rw [hsame.2.1]
  exact List.cons_ne_nil _ _

/-- The entries of the ports, up to the first that fails. -/
theorem portStatuses_returns {names : List (Text × Bool)} : (portStatuses path names).Returns fun r =>
    (r.1 = true → (r.2.map fun p => p.portName) = names.map Prod.fst ∧
      ∀ p ∈ r.2, p.usbDataStatus ≠ []) ∧
    (r.1 = false → ∃ filled p, ∃ later : List Text,
      r.2 = filled ++ p :: (later.map fun _ => {}) ∧
      (filled.map fun q => q.portName) ++ p.portName :: later = names.map Prod.fst ∧
      (∀ q ∈ filled, q.usbDataStatus ≠ []) ∧ p.usbDataStatus = [] ∧ p.powerTransferLimited = false) := by
  induction names with
  | nil => exact ⟨fun _ => ⟨rfl, fun p hp => absurd hp List.not_mem_nil⟩, nofun⟩
  | cons name rest ih =>
      refine Returns.bind portStatus_returns fun ⟨complete, p⟩ ⟨hname, hfilled, hempty⟩ => ?_
      cases complete with
      | false =>
          refine ⟨nofun, fun _ => ⟨[], p, rest.map Prod.fst, ?_, ?_, ?_, hempty rfl⟩⟩
          · rw [List.map_map]
            rfl
          · exact congrArg (· :: _) hname
          · exact fun q hq => absurd hq List.not_mem_nil
      | true =>
          refine Returns.bind ih fun ⟨done, ps⟩ ⟨hall, hfailed⟩ => ⟨fun hdone => ?_, fun hdone => ?_⟩
          · rcases hall hdone with ⟨hnames, hps⟩
            exact ⟨congrArg₂ (· :: ·) hname hnames, List.forall_mem_cons.2 ⟨hfilled rfl, hps⟩⟩
          · rcases hfailed hdone with ⟨filled, q, later, hps, hnames, hbefore, hq⟩
            refine ⟨p :: filled, q, later, congrArg (p :: ·) hps, congrArg₂ (· :: ·) hname hnames, ?_, hq⟩
            exact List.forall_mem_cons.2 ⟨hfilled rfl, hbefore⟩

/-- `getPortStatusHelper` after the listing. -/
def reportPorts (contaminantStatusPath : Text) (names : List (Text × Bool)) :
    Hal (Status × List PortStatus) := do
  if names = [] then return (.SUCCESS, [{}])
  let order ← (Program.call (Op.iterate names) : Hal _)
  let (complete, statuses) ← portStatuses contaminantStatusPath order.1
  return (if complete then .SUCCESS else .ERROR, statuses)

theorem getPortStatusHelper_eq : getPortStatusHelper path =
    listDirectory "/sys/class/typec/" >>= fun entries =>
      reportPorts path ((entries.getD []).foldl addEntry []) := by
  refine congrArg (Program.perform (Op.listDirectory _)) (funext fun entries => ?_)
  cases entries <;> rfl

theorem reportPorts_reads {names : List (Text × Bool)} : (reportPorts path names).Performs Op.Reads := by
  refine Performs.ite (fun _ => trivial) fun _ => ?_
  refine Performs.bind (Performs.call_iff.2 trivial) fun order => ?_
  exact Performs.bind portStatuses_reads fun _ => trivial

/-- A report is one of the ports that were listed for it. -/
theorem reportPorts_returns {names : List (Text × Bool)} :
    (reportPorts path names).Returns fun r => ReportOf (names.map Prod.fst) r.1 r.2 := by
  refine Returns.ite (fun hnone => .hardcoded (by rw [hnone]; rfl)) fun hsome => ?_
  intro order
  have horder : (order.1.map Prod.fst).Perm (names.map Prod.fst) := order.2.map _
  refine Returns.bind (x := portStatuses path order.1) portStatuses_returns
    fun ⟨complete, ps⟩ ⟨hall, hfailed⟩ => ?_
  cases complete with
  | true =>
      rcases hall rfl with ⟨hnames, hfilled⟩
      refine .complete (fun hnil => hsome (List.map_eq_nil_iff.1 hnil)) ?_ hfilled
      rwa [hnames]
  | false =>
      rcases hfailed rfl with ⟨filled, p, later, rfl, hnames, hbefore, hempty, hpower⟩
      exact .failed (by rwa [hnames]) hbefore hempty hpower

end Shape

/-! ## The flags in a report -/

section Flags

variable {S : Type u} {answers : (o : Op) → S → Res o → S → Prop} {I : S → Prop} {flags : Flag → Bool}
  {s : S} {path portName : Text} {connected : Bool}

/-- While `I` holds, the flags are these, and what only asks does not end it. -/
structure Steady (answers : (o : Op) → S → Res o → S → Prop) (I : S → Prop) (flags : Flag → Bool) :
    Prop where
  kept : ∀ o s r s', Op.Quiet o → I s → answers o s r s' → I s'
  shown : ∀ s usb s', I s → answers .fields s usb s' → ∀ f : Flag, f.read usb = flags f

/-- What only asks for something, with what it returns whatever it is told. -/
theorem Steady.asks (h : Steady answers I flags) {α : Type} {Q : α → Prop} {x : Hal α}
    (hx : x.Performs Op.Reads) (hreturns : x.Returns Q) (hs : I s) :
    x.Meets answers I (fun a _ => Q a) (fun _ _ => True) s :=
  (hx.mono fun _ => Op.In.quiet).meets_returns hreturns h.kept hs

/-- An entry that is filled repeats the flags, which are read once for each port. -/
theorem portStatus_meets (h : Steady answers I flags) (hs : I s) :
    (portStatus path portName connected).Meets answers I
      (fun r _ => r.2.usbDataStatus ≠ [] → Repeats flags r.2) (fun _ _ => True) s := by
  refine Meets.seq (h.asks readRoles_reads readRoles_returns hs) fun ⟨complete, status⟩ t ht hroles => ?_
  have hdata : status.usbDataStatus = [] := hroles.2.1
  refine Meets.ite (fun _ => ⟨ht, fun hfilled => absurd hdata hfilled⟩) fun _ => ?_
  refine Meets.seq (h.asks (performs_access trivial) Returns.any ht) fun writable t₁ ht₁ _ => ?_
  have hswitch : (canSwitchRole portName connected).Performs Op.Reads :=
    canSwitchRole_footprint.mono fun _ => Op.In.reads
  refine Meets.seq (h.asks hswitch Returns.any ht₁) fun data t₂ ht₂ _ => ?_
  refine Meets.seq (h.asks hswitch Returns.any ht₂) fun power t₃ ht₃ _ => ?_
  refine ⟨ht₃, fun usb t₄ hfields => ?_⟩
  have ht₄ : I t₄ := h.kept .fields _ _ _ trivial ht₃ hfields
  have hstatus : dataStatus usb = if flags .usbDataDisabled then .DISABLED_FORCE else .ENABLED := by
    rw [← h.shown _ _ _ ht₃ hfields .usbDataDisabled]
    rfl
  have hpower : usb.limitedPower = flags .limitedPower := h.shown _ _ _ ht₃ hfields .limitedPower
  refine Meets.ite (fun _ => ⟨ht₄, fun _ => ⟨by rw [hstatus], hpower⟩⟩) fun _ => ?_
  refine Meets.seq (h.asks firstPortStatus_reads firstPortStatus_returns ht₄) fun p t₅ ht₅ hsame => ?_
  refine ⟨ht₅, fun _ => ⟨?_, ?_⟩⟩
  · rw [hsame.2.1, hstatus]
  · rw [hsame.2.2, hpower]

theorem portStatuses_meets (h : Steady answers I flags) {names : List (Text × Bool)} (hs : I s) :
    (portStatuses path names).Meets answers I
      (fun r _ => ∀ p ∈ r.2, p.usbDataStatus ≠ [] → Repeats flags p) (fun _ _ => True) s := by
  induction names generalizing s with
  | nil => exact ⟨hs, fun p hp => absurd hp List.not_mem_nil⟩
  | cons name rest ih =>
      refine Meets.seq (portStatus_meets h hs) fun ⟨complete, p⟩ t ht hport => ?_
      refine Meets.ite (fun _ => ⟨ht, List.forall_mem_cons.2 ⟨hport, ?_⟩⟩) fun _ => ?_
      · -- the later ports are left at their defaults
        intro q hq hfilled
        rcases List.mem_map.1 hq with ⟨_, _, rfl⟩
        exact absurd rfl hfilled
      · refine Meets.seq (ih ht) fun ⟨done, qs⟩ t' ht' hlater => ?_
        exact ⟨ht', List.forall_mem_cons.2 ⟨hport, hlater⟩⟩

/-- What a report has of the flags is what they stay while it is made. -/
theorem getPortStatusHelper_meets (h : Steady answers I flags) (hs : I s) :
    (getPortStatusHelper path).Meets answers I
      (fun r _ => ∀ p ∈ r.2, p.usbDataStatus ≠ [] → Repeats flags p) (fun _ _ => True) s := by
  have hnames : getTypeCPortNamesHelper.Performs Op.Quiet :=
    getTypeCPortNamesHelper_footprint.mono fun _ => Op.In.quiet
  refine Meets.seq (hnames.meets h.kept hs) fun names t ht _ => ?_
  refine Meets.ite (fun _ => ⟨ht, fun p hp hfilled => ?_⟩) fun _ => ⟨ht, fun order t' horder => ?_⟩
  · rw [List.mem_singleton.1 hp] at hfilled
    exact absurd rfl hfilled
  have ht' : I t' := h.kept (.iterate names) _ _ _ trivial ht horder
  exact Meets.seq (x := portStatuses path order.1) (portStatuses_meets h ht')
    fun _ _ ht'' hports => ⟨ht'', hports⟩

end Flags

/-! ## Roles that cannot be read -/

/-- The roles of power and data of a port. -/
def IsRole (path : Text) : Prop := ("/power_role" : Text) <:+ path ∨ ("/data_role" : Text) <:+ path

/-- The ends of the names of the files that a role is read from. -/
def roleSources : List Text := ["/power_role", "/data_role", "/accessory_mode"]

def IsRoleSource (path : Text) : Prop := ∃ file ∈ roleSources, file <:+ path

instance (path : Text) : Decidable (IsRoleSource path) :=
  inferInstanceAs (Decidable (∃ file ∈ roleSources, file <:+ path))

/-- The names of roles. -/
def roleNames : List Text := ["source", "sink", "host", "device", "none"]

/-- A role file that cannot be read, or holds the name of no role. -/
def Illegible : (o : Op) → Res o → Prop
  | .readFile path, none => IsRoleSource path
  | .readFile path, some roleName => IsRole path ∧ extractRole roleName ∉ roleNames
  | _, _ => False

section Legibility

variable {portName path : Text} {connected : Bool} {tag : RoleTag} {α : Type} {x : Hal α} {f : Footprint}

theorem IsRole.source (h : IsRole path) : IsRoleSource path := by
  rcases h with hpower | hdata
  · exact ⟨_, List.mem_cons_self, hpower⟩
  · exact ⟨_, List.mem_cons_of_mem _ List.mem_cons_self, hdata⟩

theorem Illegible.source {content : Res (.readFile path)} (h : Illegible (.readFile path) content) :
    IsRoleSource path := by
  cases content with
  | none => exact h
  | some roleName => exact h.1.source

/-- A program that reads no roles. -/
theorem stopsOn_never (hx : x.Performs (Op.In f)) (hf : ∀ path, f.reads path → ¬ IsRoleSource path) :
    x.StopsOn Illegible fun _ => False := by
  refine hx.stopsOn fun o ho r hbad => ?_
  cases o with
  | readFile path => exact hf path ho hbad.source
  | _ => exact hbad

theorem mem_roleNames {roleName : Text} :
    roleName ∈ roleNames ↔ (roleOfName tag roleName).isSome ∨ roleName = "none" := by
  by_cases h : roleName ∈ (["source", "sink", "host", "device"] : List Text)
  · simp only [List.mem_cons, List.not_mem_nil, or_false] at h
    rcases h with rfl | rfl | rfl | rfl <;> cases tag <;> decide
  · simp only [List.mem_cons, List.not_mem_nil, or_false, not_or] at h
    rcases h with ⟨hsource, hsink, hhost, hdevice⟩
    rw [roleOfName, if_neg hsource, if_neg hsink, if_neg hhost, if_neg hdevice]
    simp only [roleNames, List.mem_cons, List.not_mem_nil, hsource, hsink, hhost, hdevice, false_or,
      or_false, Option.isSome_none, Bool.false_eq_true]

theorem readCurrentRole_stops :
    (readCurrentRole portName tag).StopsOn Illegible fun r => r.1 ≠ .SUCCESS := by
  let filename : Text :=
    "/sys/class/typec/" ++ portName ++ (if tag = .powerRole then "/power_role" else "/data_role")
  have hrole : IsRole filename := by
    by_cases htag : tag = .powerRole
    · exact Or.inl ⟨"/sys/class/typec/" ++ portName, by simp only [filename, if_pos htag]⟩
    · exact Or.inr ⟨"/sys/class/typec/" ++ portName, by simp only [filename, if_neg htag]⟩
  refine StopsOn.perform ?_
  rintro (_ | roleName)
  · exact ⟨_, rfl, fun _ => nofun, fun _ => hrole.source⟩
  have hbad : Illegible (.readFile filename) (some roleName) ↔
      ¬ ((roleOfName tag (extractRole roleName)).isSome ∨ extractRole roleName = "none") := by
    rw [← mem_roleNames]
    exact and_iff_right hrole
  cases hname : roleOfName tag (extractRole roleName) with
  | some role =>
      refine ⟨(.SUCCESS, role), ?_, hbad.trans (by simp [hname])⟩
      simp only [Program.bind, hname]
      rfl
  | none =>
      refine ⟨(if extractRole roleName = "none" then .SUCCESS else .UNRECOGNIZED_ROLE, tag.noRole), ?_,
        hbad.trans ?_⟩
      · simp only [Program.bind, hname]
        rfl
      · by_cases h : extractRole roleName = "none" <;> simp [hname, h]

theorem getCurrentRoleHelper_stops :
    (getCurrentRoleHelper portName connected tag).StopsOn Illegible fun r => r.1 ≠ .SUCCESS := by
  refine StopsOn.ite (fun _ h => h rfl) fun _ => ?_
  refine StopsOn.ite (fun _ => readCurrentRole_stops) fun _ => ?_
  have haccessory : (getAccessoryConnected portName).StopsOn Illegible fun r => r = none := by
    refine StopsOn.perform ?_
    rintro (_ | accessory)
    · have hend : "/accessory_mode".toList <:+ "-partner/accessory_mode".toList := by decide
      exact ⟨none, rfl, fun _ => rfl,
        fun _ => ⟨"/accessory_mode", by decide, hend.trans (List.suffix_append _ _)⟩⟩
    · refine ⟨some (trim accessory), rfl, fun hbad => ?_, nofun⟩
      rcases hbad.1 with hpower | hdata
      · exact absurd hpower (not_suffix_append (by decide))
      · exact absurd hdata (not_suffix_append (by decide))
  refine StopsOn.bind haccessory ?_ ?_
  · rintro _ rfl
    exact ⟨_, rfl, nofun⟩
  · rintro (_ | accessory) hsome
    · exact absurd rfl hsome
    · refine StopsOn.ite (fun _ h => h rfl) fun _ => StopsOn.ite (fun _ h => h rfl) fun _ => ?_
      exact readCurrentRole_stops

theorem readRoles_stops : (readRoles portName connected).StopsOn Illegible fun r => r.1 = false := by
  have htag : ∀ {α : Type} (role : Except Terminated α),
      (orTerminate role).StopsOn Illegible fun _ => False :=
    fun role => stopsOn_never (f := {}) (performs_orTerminate role) fun _ h => h.elim
  refine StopsOn.bind getCurrentRoleHelper_stops (fun r hr => ⟨_, if_pos hr, rfl⟩) fun r hr => ?_
  refine StopsOn.ite (fun hfailed => absurd hfailed hr) fun _ => ?_
  refine StopsOn.bind_never (htag _) fun power => ?_
  refine StopsOn.bind getCurrentRoleHelper_stops (fun r hr => ⟨_, if_pos hr, rfl⟩) fun r hr => ?_
  refine StopsOn.ite (fun hfailed => absurd hfailed hr) fun _ => ?_
  refine StopsOn.bind_never (htag _) fun data => ?_
  refine StopsOn.bind getCurrentRoleHelper_stops (fun r hr => ⟨_, if_pos hr, rfl⟩) fun r hr => ?_
  refine StopsOn.ite (fun hfailed => absurd hfailed hr) fun _ => ?_
  exact StopsOn.bind_never (htag _) fun mode => nofun

/-- Apart from its roles, a port is reported from files that hold none. -/
theorem portStatus_stops (hpath : ¬ IsRoleSource path) :
    (portStatus path portName connected).StopsOn Illegible fun r => r.1 = false := by
  have hother : ∀ {α : Type} {x : Hal α} {file : Text}, x.Performs (Op.In { reads := (· = file) }) →
      ¬ IsRoleSource file → x.StopsOn Illegible fun _ => False :=
    fun hx hfile => stopsOn_never hx fun _ h => h ▸ hfile
  have hswitch : (canSwitchRole portName connected).StopsOn Illegible fun _ => False :=
    hother canSwitchRole_footprint (none_suffix_append (by decide))
  refine StopsOn.bind readRoles_stops (fun r hr => ⟨(false, r.2), ?_, rfl⟩)
    fun ⟨complete, status⟩ hr => ?_
  · exact if_pos (by simp [hr])
  refine StopsOn.ite (fun hfailed => absurd hfailed (by simpa using hr)) fun _ => ?_
  refine StopsOn.bind_never (stopsOn_never (f := {}) (performs_access trivial) fun _ h => h.elim)
    fun writable => ?_
  refine StopsOn.bind_never hswitch fun data => ?_
  refine StopsOn.bind_never hswitch fun power => ?_
  refine StopsOn.bind_never (stopsOn_never (f := {}) (performs_fields.2 trivial) fun _ h => h.elim)
    fun usb => ?_
  refine StopsOn.ite (fun _ => nofun) fun _ => ?_
  refine StopsOn.bind_never ?_ fun _ => nofun
  refine StopsOn.bind_never (hother readContaminantPresence_footprint hpath) fun _ => ?_
  exact StopsOn.bind_never (hother isConnectedToUsbPowerBrick_footprint (by decide)) fun _ => id

theorem portStatuses_stops (hpath : ¬ IsRoleSource path) {names : List (Text × Bool)} :
    (portStatuses path names).StopsOn Illegible fun r => r.1 = false := by
  induction names with
  | nil => exact nofun
  | cons name rest ih =>
      refine StopsOn.bind (portStatus_stops hpath) ?_ ?_
      · rintro ⟨_, p⟩ rfl
        exact ⟨_, rfl, rfl⟩
      rintro ⟨complete, p⟩ hr
      refine StopsOn.ite (fun hfailed => absurd hfailed (by simpa using hr)) fun _ => ?_
      exact StopsOn.bind ih (fun r hr => ⟨_, rfl, hr⟩) fun r hr => hr

/-- A role that cannot be read ends a report, and nothing else makes one fail. -/
theorem getPortStatusHelper_stops (hpath : ¬ IsRoleSource path) :
    (getPortStatusHelper path).StopsOn Illegible fun r => r.1 ≠ .SUCCESS := by
  refine StopsOn.bind_never (stopsOn_never getTypeCPortNamesHelper_footprint fun _ h => h.elim)
    fun names => ?_
  refine StopsOn.ite (fun _ h => h rfl) fun _ => ?_
  refine fun order => ⟨fun hbad => hbad.elim, fun _ => ?_⟩
  refine StopsOn.bind (x := portStatuses path order.1) (portStatuses_stops hpath) ?_ ?_
  · rintro ⟨_, ps⟩ rfl
    exact ⟨_, rfl, nofun⟩
  · rintro ⟨complete, ps⟩ hr h
    exact h (if_pos (by simpa using hr))

end Legibility

/-! ## A report as it is made -/

section Runs

variable {σ : Type u} {w : World σ} {s s' : State σ} {path : Text} {status : Status}
  {statuses : List PortStatus}

theorem reportOf_run (hrun : (getPortStatusHelper path).run w.step s = (.ok (status, statuses), s')) :
    ReportOf (w.ports s) status statuses := by
  rw [getPortStatusHelper_eq, run_listDirectory] at hrun
  exact reportPorts_returns.run hrun

theorem repeats_run (hrun : (getPortStatusHelper path).run w.step s = (.ok (status, statuses), s')) :
    ∀ p ∈ statuses, p.usbDataStatus ≠ [] → Repeats (fun f => f.read s.usb) p := by
  -- as long as the program only asks, the object is what it was
  have hsteady : Steady (fun o t r t' => r = (w.step o t).1 ∧ t' = (w.step o t).2)
      (fun t => t.usb = s.usb) fun f => f.read s.usb := by
    constructor
    · rintro o t _ _ ho ht ⟨rfl, rfl⟩
      cases o <;> first | exact ht | exact ho.elim
    · rintro t _ _ ht ⟨rfl, rfl⟩ f
      exact congrArg (fun usb => f.read usb) ht
  exact (getPortStatusHelper_meets hsteady rfl).run (fun _ _ => ⟨rfl, rfl⟩) hrun

/-- A report shows the flags on every port exactly if no role was illegible. -/
theorem legible_iff_shows (hpath : ¬ IsRoleSource path) :
    (∀ o ∈ (getPortStatusHelper path).trace w.step s, ¬ Illegible o.1 o.2) ↔
      ∀ status statuses s', (getPortStatusHelper path).run w.step s = (.ok (status, statuses), s') →
        Shows (fun f => f.read s.usb) (w.ports s) statuses := by
  have htrace : (∃ o ∈ (getPortStatusHelper path).trace w.step s, Illegible o.1 o.2) ↔
      ∃ r t, (getPortStatusHelper path).run w.step s = (.ok r, t) ∧ r.1 ≠ .SUCCESS :=
    (getPortStatusHelper_stops hpath).trace_iff
  constructor
  · intro hlegible status statuses s' hrun
    refine ((reportOf_run hrun).shows_iff (repeats_run hrun)).2 ?_
    by_contra hfailed
    rcases htrace.2 ⟨_, _, hrun, hfailed⟩ with ⟨o, ho, hbad⟩
    exact hlegible o ho hbad
  · intro hshows o ho hbad
    rcases htrace.1 ⟨o, ho, hbad⟩ with ⟨⟨status, statuses⟩, s', hrun, hfailed⟩
    exact hfailed (((reportOf_run hrun).shows_iff (repeats_run hrun)).1 (hshows _ _ _ hrun))

end Runs

end UsbHal
end M2391Device
