import M2391Device.Usb.UeventRuns
import Mathlib.Data.List.Nodup

/-!
# PortNames — which entries of `/sys/class/typec` become ports

`getTypeCPortNamesHelper` takes an entry whose name has no `-partner` for a port.  The map it builds
does not depend on the order of the entries (`mem_namesOf`), but the cables and plugs of a port are
such entries as well.
-/

namespace M2391Device
namespace UsbHal

open Program

/-! ## The map -/

/-- What the loop makes of an entry: the key, and whether it is set or only inserted. -/
def portOf (ep : Dirent) : Option (Text × Bool) :=
  if ep.d_type = .DT_LNK then
    match find? "-partner" ep.d_name with
    | none => some (ep.d_name, false)
    | some n => some (ep.d_name.take n, true)
  else none

/-- The map of a directory that is read in this order. -/
def namesOf (order : List Dirent) : List (Text × Bool) := order.foldl addEntry []

section Map

variable {names : List (Text × Bool)} {entry k : Text} {b : Bool} {ep : Dirent}
  {order order' : List Dirent}

theorem any_key : (names.any fun x => x.1 = entry) = true ↔ ∃ b, (entry, b) ∈ names := by
  rw [List.any_eq_true]
  constructor
  · rintro ⟨⟨key, b⟩, hmem, hkey⟩
    have heq : key = entry := by simpa using hkey
    subst heq
    exact ⟨b, hmem⟩
  · rintro ⟨b, hmem⟩
    exact ⟨(entry, b), hmem, by simp⟩

theorem mem_insertPort :
    (k, b) ∈ insertPort names entry ↔
      (k, b) ∈ names ∨ (k = entry ∧ b = false ∧ ∀ b', (entry, b') ∉ names) := by
  rw [insertPort]
  by_cases hkey : ∃ b', (entry, b') ∈ names
  · rw [if_pos (any_key.2 hkey)]
    constructor
    · exact Or.inl
    · rintro (hmem | ⟨_, _, hnone⟩)
      · exact hmem
      · rcases hkey with ⟨b', hmem⟩
        exact absurd hmem (hnone b')
  · rw [if_neg (fun h => hkey (any_key.1 h))]
    have hnone : ∀ b', (entry, b') ∉ names := fun b' hmem => hkey ⟨b', hmem⟩
    simp [hnone]

theorem mem_connectPort :
    (k, b) ∈ connectPort names entry ↔ (k ≠ entry ∧ (k, b) ∈ names) ∨ (k = entry ∧ b = true) := by
  rw [connectPort]
  by_cases hkey : ∃ b', (entry, b') ∈ names
  · rw [if_pos (any_key.2 hkey), List.mem_map]
    constructor
    · rintro ⟨⟨k', b'⟩, hmem, heq⟩
      by_cases hk : k' = entry
      · rw [if_pos hk] at heq
        cases heq
        exact Or.inr ⟨rfl, rfl⟩
      · rw [if_neg hk] at heq
        cases heq
        exact Or.inl ⟨hk, hmem⟩
    · rintro (⟨hk, hmem⟩ | ⟨rfl, rfl⟩)
      · exact ⟨(k, b), hmem, if_neg hk⟩
      · rcases hkey with ⟨b', hmem⟩
        exact ⟨(k, b'), hmem, if_pos rfl⟩
  · rw [if_neg (fun h => hkey (any_key.1 h))]
    simp only [List.mem_append, List.mem_singleton, Prod.mk.injEq]
    constructor
    · rintro (hmem | ⟨rfl, rfl⟩)
      · refine Or.inl ⟨?_, hmem⟩
        rintro rfl
        exact hkey ⟨b, hmem⟩
      · exact Or.inr ⟨rfl, rfl⟩
    · rintro (⟨_, hmem⟩ | ⟨rfl, rfl⟩)
      · exact Or.inl hmem
      · exact Or.inr ⟨rfl, rfl⟩

theorem keys_snoc (hkeys : (names.map Prod.fst).Nodup) (hkey : ¬ ∃ b', (entry, b') ∈ names) :
    ((names ++ [(entry, b)]).map Prod.fst).Nodup := by
  rw [List.map_append, List.nodup_append]
  refine ⟨hkeys, List.nodup_singleton _, fun k hk k' hk' heq => hkey ?_⟩
  have hentry : k' = entry := by simpa using hk'
  rcases List.mem_map.1 hk with ⟨⟨k₁, b'⟩, hmem, rfl⟩
  exact ⟨b', by rwa [← hentry, ← heq]⟩

theorem keys_insertPort (hkeys : (names.map Prod.fst).Nodup) :
    ((insertPort names entry).map Prod.fst).Nodup := by
  rw [insertPort]
  by_cases hkey : ∃ b', (entry, b') ∈ names
  · rw [if_pos (any_key.2 hkey)]
    exact hkeys
  · rw [if_neg (fun h => hkey (any_key.1 h))]
    exact keys_snoc hkeys hkey

theorem keys_connectPort (hkeys : (names.map Prod.fst).Nodup) :
    ((connectPort names entry).map Prod.fst).Nodup := by
  rw [connectPort]
  by_cases hkey : ∃ b', (entry, b') ∈ names
  · rw [if_pos (any_key.2 hkey), List.map_map]
    have hsame : names.map (Prod.fst ∘ fun x => if x.1 = entry then (entry, true) else x) =
        names.map Prod.fst := by
      refine List.map_congr_left fun x _ => ?_
      by_cases hx : x.1 = entry
      · simp [hx]
      · simp [hx]
    rw [hsame]
    exact hkeys
  · rw [if_neg (fun h => hkey (any_key.1 h))]
    exact keys_snoc hkeys hkey

theorem addEntry_eq (names : List (Text × Bool)) (ep : Dirent) : addEntry names ep =
    match portOf ep with
    | none => names
    | some (entry, false) => insertPort names entry
    | some (entry, true) => connectPort names entry := by
  rw [addEntry, portOf]
  by_cases hlink : ep.d_type = .DT_LNK
  · rw [if_pos hlink, if_pos hlink]
    cases find? "-partner" ep.d_name <;> rfl
  · rw [if_neg hlink, if_neg hlink]

theorem namesOf_snoc : namesOf (order ++ [ep]) = addEntry (namesOf order) ep := by
  simp [namesOf]

/-- Each key is there once. -/
theorem keys_namesOf (order : List Dirent) : ((namesOf order).map Prod.fst).Nodup := by
  induction order using List.reverseRecOn with
  | nil => exact List.nodup_nil
  | append_singleton order ep ih =>
      rw [namesOf_snoc, addEntry_eq]
      rcases portOf ep with _ | ⟨entry, _ | _⟩
      · exact ih
      · exact keys_insertPort ih
      · exact keys_connectPort ih

/-- Some entry has this key. -/
def HasKey (order : List Dirent) (k : Text) : Prop := ∃ ep ∈ order, ∃ b, portOf ep = some (k, b)

/-- Some entry sets this key. -/
def SetsKey (order : List Dirent) (k : Text) : Prop := ∃ ep ∈ order, portOf ep = some (k, true)

theorem hasKey_snoc :
    HasKey (order ++ [ep]) k ↔ HasKey order k ∨ ∃ b, portOf ep = some (k, b) := by
  simp [HasKey, or_and_right, exists_or]

theorem setsKey_snoc : SetsKey (order ++ [ep]) k ↔ SetsKey order k ∨ portOf ep = some (k, true) := by
  simp [SetsKey, or_and_right, exists_or]

theorem SetsKey.hasKey (h : SetsKey order k) : HasKey order k := by
  rcases h with ⟨ep, hmem, hport⟩
  exact ⟨ep, hmem, true, hport⟩

/-- The keys are those of the entries, and a key is true if some entry sets it. -/
theorem mem_namesOf : (k, b) ∈ namesOf order ↔ HasKey order k ∧ (b = true ↔ SetsKey order k) := by
  classical
  -- over the entries, the last one first: it inserts its key, or sets it
  induction order using List.reverseRecOn generalizing k b with
  | nil => simp [namesOf, HasKey]
  | append_singleton order ep ih =>
      have habsent : (∀ b', (k, b') ∉ namesOf order) ↔ ¬ HasKey order k := by
        constructor
        · intro hnone hkey
          exact hnone (decide (SetsKey order k)) (ih.2 ⟨hkey, by simp⟩)
        · intro hnone b' hmem
          exact hnone (ih.1 hmem).1
      rw [namesOf_snoc, addEntry_eq, hasKey_snoc, setsKey_snoc]
      rcases hport : portOf ep with _ | ⟨entry, _ | _⟩
      · simpa using ih
      · simp only [mem_insertPort, ih, Option.some.injEq, Prod.mk.injEq]
        by_cases hk : k = entry
        · subst hk
          have hnew : (∀ b', ¬ (HasKey order k ∧ (b' = true ↔ SetsKey order k))) ↔
              ¬ HasKey order k := (forall_congr' fun b' => not_congr ih.symm).trans habsent
          have hsub : SetsKey order k → HasKey order k := SetsKey.hasKey
          rw [hnew]
          cases b <;> simp <;> tauto
        · simp [hk, Ne.symm hk]
      · simp only [mem_connectPort, ih, Option.some.injEq, Prod.mk.injEq]
        by_cases hk : k = entry
        · subst hk
          simp
        · simp [hk, Ne.symm hk]

theorem nodup_namesOf (order : List Dirent) : (namesOf order).Nodup :=
  List.Nodup.of_map _ (keys_namesOf order)

/-- The order of the entries does not matter. -/
theorem namesOf_perm (hperm : order.Perm order') : (namesOf order).Perm (namesOf order') := by
  refine (List.perm_ext_iff_of_nodup (nodup_namesOf order) (nodup_namesOf order')).2 ?_
  rintro ⟨k, b⟩
  simp only [mem_namesOf, HasKey, SetsKey, hperm.mem_iff]

end Map

/-! ## The entries of the kernel -/

/-- The directory `/sys/class/typec`: the ports, the companions of each, and entries that are no
links, such as `.` and `..`. -/
structure TypecClass where
  ports : List Nat
  nodup : ports.Nodup
  partner : Nat → Bool
  cable : Nat → Bool
  plugs : Nat → List Nat
  others : List Dirent
  noLink : ∀ ep ∈ others, ep.d_type ≠ .DT_LNK

/-- The name of the port with this number. -/
def portName (n : Nat) : Text := "port" ++ (toString n)

def link (name : Text) : Dirent := ⟨.DT_LNK, name⟩

namespace TypecClass

def partnerEntry (n : Nat) : Dirent := link (portName n ++ "-partner")
def cableEntry (n : Nat) : Dirent := link (portName n ++ "-cable")
def plugEntry (n i : Nat) : Dirent := link (portName n ++ "-plug" ++ (toString i))

/-- The entries of one port. -/
def entriesOf (c : TypecClass) (n : Nat) : List Dirent :=
  link (portName n) :: (if c.partner n then [partnerEntry n] else []) ++
    (if c.cable n then [cableEntry n] else []) ++ (c.plugs n).map (plugEntry n)

def dirents (c : TypecClass) : List Dirent := c.ports.flatMap c.entriesOf ++ c.others

/-- No port has a cable or a plug. -/
def NoCables (c : TypecClass) : Prop := ∀ n ∈ c.ports, c.cable n = false ∧ c.plugs n = []

end TypecClass

/-- One key for each port, true if the port has a partner. -/
structure IsPortMap (c : TypecClass) (names : List (Text × Bool)) : Prop where
  keys : (names.map Prod.fst).Nodup
  ports : ∀ k, k ∈ names.map Prod.fst ↔ ∃ n ∈ c.ports, k = portName n
  connected : ∀ n ∈ c.ports, ∀ b, (portName n, b) ∈ names → b = c.partner n

/-- Whatever system holds the directory and in whatever order it is read, the map is that of the
ports, and no order gives another one. -/
structure EnumeratesPorts (c : TypecClass) : Prop where
  ports : ∀ {σ : Type} (w : World σ) (s : State σ) (order : List Dirent),
    (w.listDirectory "/sys/class/typec/" s.world).1 = some order → order.Perm c.dirents →
    ∃ names, (getTypeCPortNamesHelper.run w.step s).1 = .ok names ∧ IsPortMap c names
  sameForAll : ∀ {σ : Type} (w w' : World σ) (s s' : State σ) (order order' : List Dirent),
    (w.listDirectory "/sys/class/typec/" s.world).1 = some order →
    (w'.listDirectory "/sys/class/typec/" s'.world).1 = some order' →
    order.Perm c.dirents → order'.Perm c.dirents →
    ∃ names names', (getTypeCPortNamesHelper.run w.step s).1 = .ok names ∧
      (getTypeCPortNamesHelper.run w'.step s').1 = .ok names' ∧ names.Perm names'

section Names

variable {n i : Nat} {k : Text} {ep : Dirent} {c : TypecClass}

theorem find?_skip (part front rest : Text) {a : Char} (ha : a ∉ front) :
    find? (a :: part) (front ++ rest) = (find? (a :: part) rest).map (front.length + ·) := by
  induction front with
  | nil => simp
  | cons b front ih =>
      have hab : a ≠ b := fun heq => ha (heq ▸ List.mem_cons_self)
      have hnext := ih fun hmem => ha (List.mem_cons_of_mem b hmem)
      simp only [find?] at hnext ⊢
      rw [List.cons_append, List.tails, List.findIdx?_cons]
      simp only [List.isPrefixOf, beq_false_of_ne hab, Bool.false_and, Bool.false_eq_true, if_false,
        hnext, Option.map_map]
      congr 1
      funext m
      simp only [Function.comp_apply, List.length_cons]
      omega

theorem find?_partner {front : Text} (rest : Text) (hdash : '-' ∉ front) :
    find? "-partner" (front ++ rest) = (find? "-partner" rest).map (front.length + ·) :=
  find?_skip "partner".toList front rest hdash

theorem find?_partner_none {text : Text} (hdash : '-' ∉ text) : find? "-partner" text = none := by
  have hskip := find?_partner [] hdash
  rwa [List.append_nil] at hskip

theorem dash_toString (n : Nat) : '-' ∉ (toString n).toList := by
  intro hdash
  rw [Nat.toString_eq_repr, Nat.toList_repr] at hdash
  exact absurd (Nat.isDigit_of_mem_toDigits (by decide) (by decide) hdash) (by decide)

theorem dash_portName (n : Nat) : '-' ∉ portName n := by
  rw [portName, List.mem_append]
  rintro (hport | hdigits)
  · exact absurd hport (by decide)
  · exact dash_toString n hdigits

theorem portName_inj {m n : Nat} (h : portName m = portName n) : m = n := by
  have hdigits : (toString m).toList = (toString n).toList := List.append_cancel_left h
  rw [Nat.toString_eq_repr, Nat.toString_eq_repr, Nat.toList_repr, Nat.toList_repr] at hdigits
  rw [← Nat.ofDigitChars_ten_toDigits (n := m), hdigits, Nat.ofDigitChars_ten_toDigits]

/-- An entry without `-partner` is a key of its own. -/
theorem portOf_link {name : Text} (hname : find? "-partner" name = none) :
    portOf (link name) = some (name, false) := by
  simp only [portOf, link, if_true, hname]

theorem portOf_port (n : Nat) : portOf (link (portName n)) = some (portName n, false) :=
  portOf_link (find?_partner_none (dash_portName n))

theorem portOf_partner (n : Nat) : portOf (TypecClass.partnerEntry n) = some (portName n, true) := by
  have hfind : find? "-partner" (portName n ++ "-partner") = some (portName n).length :=
    find?_partner _ (dash_portName n)
  simp only [portOf, TypecClass.partnerEntry, link, if_true, hfind, List.take_left']

theorem portOf_cable (n : Nat) : portOf (TypecClass.cableEntry n) =
    some (portName n ++ "-cable", false) :=
  portOf_link (find?_partner _ (dash_portName n))

theorem portOf_plug (n i : Nat) : portOf (TypecClass.plugEntry n i) =
    some (portName n ++ "-plug" ++ (toString i), false) := by
  have hrest : '-' ∉ ("plug" : Text) ++ (toString i).toList := by
    rw [List.mem_append]
    rintro (hplug | hdigits)
    · exact absurd hplug (by decide)
    · exact dash_toString i hdigits
  have hplug : find? "-partner" (("-plug" : Text) ++ (toString i).toList) = none := by
    have hnone := find?_partner_none hrest
    have hstep : find? "-partner" ('-' :: (("plug" : Text) ++ (toString i).toList)) =
        (find? "-partner" (("plug" : Text) ++ (toString i).toList)).map (· + 1) := by
      rw [find?, List.tails, List.findIdx?_cons]
      exact if_neg (Bool.eq_false_iff.1 rfl)
    exact hstep.trans (by rw [hnone]; rfl)
  refine portOf_link ?_
  rw [List.append_assoc, find?_partner _ (dash_portName n), hplug]
  rfl

end Names

/-! ## The keys of such a directory -/

namespace TypecClass

variable {c : TypecClass} {n : Nat} {k : Text} {b : Bool} {order : List Dirent} {ep : Dirent}

theorem mem_entriesOf : ep ∈ c.entriesOf n ↔
    ep = link (portName n) ∨ (c.partner n = true ∧ ep = partnerEntry n) ∨
      (c.cable n = true ∧ ep = cableEntry n) ∨ ∃ i ∈ c.plugs n, ep = plugEntry n i := by
  simp only [entriesOf, List.mem_append, List.mem_cons, List.mem_map]
  cases c.partner n <;> cases c.cable n <;> simp [eq_comm, or_assoc]

/-- An entry with a key is one of a port. -/
theorem mem_dirents_of_portOf (hmem : ep ∈ c.dirents) (hport : portOf ep = some (k, b)) :
    ∃ n ∈ c.ports, ep ∈ c.entriesOf n := by
  rcases List.mem_append.1 hmem with hentry | hother
  · exact List.mem_flatMap.1 hentry
  · rw [portOf, if_neg (c.noLink ep hother)] at hport
    cases hport

theorem mem_dirents (hn : n ∈ c.ports) (hmem : ep ∈ c.entriesOf n) : ep ∈ c.dirents :=
  List.mem_append_left _ (List.mem_flatMap.2 ⟨n, hn, hmem⟩)

theorem hasKey_port (hn : n ∈ c.ports) : HasKey c.dirents (portName n) :=
  ⟨_, mem_dirents hn (mem_entriesOf.2 (Or.inl rfl)), false, portOf_port n⟩

/-- A port is set by its partner and by nothing else. -/
theorem setsKey_iff : SetsKey c.dirents k ↔ ∃ n ∈ c.ports, k = portName n ∧ c.partner n = true := by
  constructor
  · rintro ⟨ep, hmem, hport⟩
    rcases mem_dirents_of_portOf hmem hport with ⟨n, hn, hentry⟩
    rcases mem_entriesOf.1 hentry with rfl | ⟨hpartner, rfl⟩ | ⟨_, rfl⟩ | ⟨i, _, rfl⟩
    · rw [portOf_port] at hport
      cases hport
    · rw [portOf_partner] at hport
      cases hport
      exact ⟨n, hn, rfl, hpartner⟩
    · rw [portOf_cable] at hport
      cases hport
    · rw [portOf_plug] at hport
      cases hport
  · rintro ⟨n, hn, rfl, hpartner⟩
    exact ⟨_, mem_dirents hn (mem_entriesOf.2 (Or.inr (Or.inl ⟨hpartner, rfl⟩))), portOf_partner n⟩

theorem hasKey_of_noCables (hnone : c.NoCables) (hkey : HasKey c.dirents k) :
    ∃ n ∈ c.ports, k = portName n := by
  rcases hkey with ⟨ep, hmem, b, hport⟩
  rcases mem_dirents_of_portOf hmem hport with ⟨n, hn, hentry⟩
  rcases mem_entriesOf.1 hentry with rfl | ⟨_, rfl⟩ | ⟨hcable, _⟩ | ⟨i, hi, _⟩
  · rw [portOf_port] at hport
    cases hport
    exact ⟨n, hn, rfl⟩
  · rw [portOf_partner] at hport
    cases hport
    exact ⟨n, hn, rfl⟩
  · rw [(hnone n hn).1] at hcable
    cases hcable
  · rw [(hnone n hn).2] at hi
    cases hi

/-- A name that goes on after the number of a port is none of a port. -/
theorem portName_ne (m n : Nat) (rest : Text) : portName n ++ '-' :: rest ≠ portName m := by
  intro heq
  have hdash : '-' ∈ portName n ++ '-' :: rest :=
    List.mem_append_right _ List.mem_cons_self
  rw [heq] at hdash
  exact dash_portName m hdash

theorem perm_hasKey (hperm : order.Perm c.dirents) : HasKey order k ↔ HasKey c.dirents k := by
  simp only [HasKey, hperm.mem_iff]

theorem perm_setsKey (hperm : order.Perm c.dirents) : SetsKey order k ↔ SetsKey c.dirents k := by
  simp only [SetsKey, hperm.mem_iff]

theorem mem_keys_namesOf : k ∈ (namesOf order).map Prod.fst ↔ HasKey order k := by
  classical
  constructor
  · intro hmem
    rcases List.mem_map.1 hmem with ⟨⟨k', b⟩, hname, rfl⟩
    exact (mem_namesOf.1 hname).1
  · intro hkey
    exact List.mem_map.2 ⟨(k, decide (SetsKey order k)), mem_namesOf.2 ⟨hkey, by simp⟩, rfl⟩

theorem isPortMap_namesOf (hnone : c.NoCables) (hperm : order.Perm c.dirents) :
    IsPortMap c (namesOf order) := by
  refine ⟨keys_namesOf order, fun k => ?_, fun n hn b hmem => ?_⟩
  · rw [mem_keys_namesOf, perm_hasKey hperm]
    constructor
    · exact hasKey_of_noCables hnone
    · rintro ⟨n, hn, rfl⟩
      exact hasKey_port hn
  · have hset := (mem_namesOf.1 hmem).2
    rw [perm_setsKey hperm, setsKey_iff] at hset
    cases hpartner : c.partner n with
    | true => exact hset.2 ⟨n, hn, rfl, hpartner⟩
    | false =>
        cases b with
        | false => rfl
        | true =>
            rcases hset.1 rfl with ⟨m, _, heq, hm⟩
            rw [portName_inj heq, hm] at hpartner
            cases hpartner

theorem noCables_of_isPortMap (hmap : IsPortMap c (namesOf c.dirents)) : c.NoCables := by
  -- a key of a cable or of a plug would be the name of a port
  have hport : ∀ n (rest : Text), ¬ HasKey c.dirents (portName n ++ '-' :: rest) := by
    intro n rest hkey
    rcases (hmap.ports _).1 (mem_keys_namesOf.2 hkey) with ⟨m, _, heq⟩
    exact portName_ne m n rest heq
  intro n hn
  constructor
  · by_contra hcable
    have hmem : cableEntry n ∈ c.dirents :=
      mem_dirents hn (mem_entriesOf.2 (Or.inr (Or.inr (Or.inl ⟨by simpa using hcable, rfl⟩))))
    exact hport n _ ⟨_, hmem, false, portOf_cable n⟩
  · refine List.eq_nil_iff_forall_not_mem.2 fun i hi => ?_
    have hmem : plugEntry n i ∈ c.dirents :=
      mem_dirents hn (mem_entriesOf.2 (Or.inr (Or.inr (Or.inr ⟨i, hi, rfl⟩))))
    refine hport n (("plug" : Text) ++ (toString i).toList) ⟨_, hmem, false, ?_⟩
    rw [portOf_plug, List.append_assoc]
    rfl

end TypecClass

/-! ## The function -/

theorem run_getTypeCPortNamesHelper {σ : Type} {w : World σ} {s : State σ} {order : List Dirent}
    (hlist : (w.listDirectory "/sys/class/typec/" s.world).1 = some order) :
    (getTypeCPortNamesHelper.run w.step s).1 = .ok (namesOf order) := by
  rw [getTypeCPortNamesHelper, run_listDirectory, hlist]
  rfl

/-- A system that holds this directory. -/
def World.listing (order : List Dirent) : World Unit :=
  { World.idle with listDirectory := fun _ x => (some order, x) }

/-- The keys are the ports, for every order of the entries, exactly if no port has a cable or a
plug. -/
theorem enumeratesPorts_iff (c : TypecClass) : EnumeratesPorts c ↔ c.NoCables := by
  constructor
  · intro henumerates
    rcases henumerates.ports (World.listing c.dirents) (.initial ()) c.dirents rfl (.refl _) with
      ⟨names, hrun, hmap⟩
    rw [run_getTypeCPortNamesHelper rfl] at hrun
    cases hrun
    exact TypecClass.noCables_of_isPortMap hmap
  · intro hnone
    refine ⟨fun w s order hlist hperm => ?_, fun w w' s s' order order' hlist hlist' hperm hperm' => ?_⟩
    · exact ⟨_, run_getTypeCPortNamesHelper hlist, TypecClass.isPortMap_namesOf hnone hperm⟩
    · exact ⟨_, _, run_getTypeCPortNamesHelper hlist, run_getTypeCPortNamesHelper hlist',
        namesOf_perm (hperm.trans hperm'.symm)⟩

/-- One port with a cable in it and no partner. -/
def cabled : TypecClass where
  ports := [0]
  nodup := List.nodup_singleton 0
  partner _ := false
  cable _ := true
  plugs _ := []
  others := [⟨.DT_DIR, "."⟩, ⟨.DT_DIR, ".."⟩]
  noLink := by decide

/-- The cable is a port of its own. -/
theorem cable_enumerated :
    namesOf cabled.dirents = [("port0".toList, false), ("port0-cable".toList, false)] ∧
      ¬ EnumeratesPorts cabled := by
  refine ⟨by decide +kernel, fun henumerates => ?_⟩
  have hnone := (henumerates.ports (World.listing cabled.dirents) (.initial ()) cabled.dirents rfl
    (.refl _))
  rcases hnone with ⟨names, hrun, hmap⟩
  rw [run_getTypeCPortNamesHelper rfl] at hrun
  cases hrun
  exact absurd (TypecClass.noCables_of_isPortMap hmap 0 (by decide)) (by decide)

end UsbHal
end M2391Device
