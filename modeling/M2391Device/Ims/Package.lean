import M2391Device.Ims.Archive

/-!
# Package — what is in the package afterwards

`remove_ims_overlay` of `ims_fixup.py` reads a package and writes another one entry by entry.  When it
returns, the package has the entries that it had, in their order and with their data, less the signature,
and the manifest without its overlay; a second run finds nothing to remove and raises (`repackaged`).
-/

namespace M2391Device
namespace Ims

open LittleEndian Program

/-! ## Packages -/

/-- The entries of a package, by name, in the order of its directory. -/
abbrev Package := List (String × Bytes)

namespace Package

def names (p : Package) : List String := p.map Prod.fst

/-- The data that is read for a name: of entries with one name, the last one's. -/
def latest (name : String) : Package → Option Bytes
  | [] => none
  | (n, data) :: rest => (latest name rest).or (if n = name then some data else none)

variable {p : Package} {name : String} {f : String → Option Bytes}

theorem latest_eq_none (h : name ∉ p.names) : latest name p = none := by
  induction p with
  | nil => rfl
  | cons e rest ih =>
      have hhead : e.1 ≠ name := fun he => h (he ▸ List.mem_cons_self)
      have hrest : name ∉ names rest := fun hname => h (List.mem_cons_of_mem _ hname)
      rw [latest, ih hrest, if_neg hhead]
      rfl

/-- Where the data is a function of the name, it does not matter which entry is read. -/
theorem latest_of_forall (h : ∀ e ∈ p, f e.1 = some e.2) (hname : name ∈ p.names) :
    latest name p = f name := by
  induction p with
  | nil => cases hname
  | cons e rest ih =>
      rcases List.forall_mem_cons.1 h with ⟨hhead, htail⟩
      by_cases hrest : name ∈ names rest
      · -- a later entry of the name is read in place of this one
        rw [latest, ih htail hrest]
        rcases List.mem_map.1 hrest with ⟨e', he', rfl⟩
        rw [htail e' he']
        rfl
      · have hfirst : e.1 = name := by
          rcases List.mem_cons.1 hname with heq | hlater
          · exact Eq.symm heq
          · exact absurd hlater hrest
        rw [latest, latest_eq_none hrest, if_pos hfirst, ← hfirst, hhead]
        rfl

end Package

/-- The signing data of a package. -/
abbrev IsSignature (name : String) : Prop := name.startsWith "META-INF/" = true

/-- The package `p'` is `p` without its signature and with this manifest. -/
structure Rewritten (p : Package) (patched : Bytes) (p' : Package) : Prop where
  names : p'.names = p.names.filter fun name => ¬ IsSignature name
  data : ∀ name ∈ p'.names,
    Package.latest name p' = if name = "AndroidManifest.xml" then some patched else Package.latest name p

/-! ## Packages in files -/

/-- What the operations on packages do when they do not raise.  A package that is written is put
together until it is closed. -/
structure ZipFiles (Info : Type) extends FileSystem Info where
  /-- The package that is in these bytes. -/
  package : Bytes → Option Package
  /-- What is written so far to an archive that is not closed yet. -/
  underway : State → String → Option Package
  infolist_ok : ∀ path s infos, (step (.infolist path) s).1 = .ok infos →
    ∃ p, (contents s path).bind package = some p ∧ infos.map filename = p.names
  read_ok : ∀ path name s data p, (step (.read path name) s).1 = .ok data →
    (contents s path).bind package = some p → p.latest name = some data
  create_ok : ∀ path s, (step (.create path) s).1 = .ok () →
    underway (step (.create path) s).2 path = some []
  writestr_ok : ∀ path info data s p, (step (.writestr path info data) s).1 = .ok () →
    underway s path = some p →
      underway (step (.writestr path info data) s).2 path = some (p ++ [(filename info, data)])
  close_ok : ∀ path s p, (step (.close path) s).1 = .ok () → underway s path = some p →
    (contents (step (.close path) s).2 path).bind package = some p
  replace_ok : ∀ path target s, (step (.replace path target) s).1 = .ok () →
    contents (step (.replace path target) s).2 target = contents s path

section Files

variable {Info : Type} {z : ZipFiles Info} {s s' : z.State} {file_path path : String}

/-- The package in a file. -/
def ZipFiles.packageAt (z : ZipFiles Info) (s : z.State) (path : String) : Option Package :=
  (z.contents s path).bind z.package

/-- The entries that were read are those of the package. -/
structure Read (z : ZipFiles Info) (p : Package) (entries : List (Info × Bytes)) : Prop where
  names : entries.map (fun e => z.filename e.1) = p.names
  data : ∀ e ∈ entries, p.latest (z.filename e.1) = some e.2

/-! ## Runs without exception -/

theorem ofExcept_ok {α : Type} {x : Except ApkError α} {a : α}
    (hrun : (ofExcept x : Apk Info α).run z.step s = (.ok a, s')) : x = .ok a ∧ s' = s := by
  cases x with
  | ok b =>
      cases hrun
      exact ⟨rfl, rfl⟩
  | error e => cases hrun

theorem mapError_ok {ε ε' α : Type} {f : ε → ε'} {x : Except ε α} {a : α}
    (h : x.mapError f = .ok a) : x = .ok a := by
  cases x with
  | ok b =>
      cases h
      rfl
  | error e => cases h

theorem elim_ok {ε α : Type} {e : ε} {x : Option α} {a : α}
    (h : x.elim (.error e) .ok = Except.ok a) : x = some a := by
  cases x with
  | some b =>
      cases h
      rfl
  | none => cases h

theorem readAll_ok {p : Package} {infos : List Info} {entries : List (Info × Bytes)}
    (hp : z.packageAt s path = some p)
    (hrun : (readAll z.filename path infos).run z.step s = (.ok entries, s')) :
    entries.map Prod.fst = infos ∧ ∀ e ∈ entries, p.latest (z.filename e.1) = some e.2 := by
  induction infos generalizing s entries with
  | nil =>
      cases hrun
      exact ⟨rfl, fun e he => absurd he List.not_mem_nil⟩
  | cons info infos ih =>
      rcases run_bind_ok_inv hrun with ⟨data, t, hread, hrest⟩
      rcases run_bind_ok_inv hrest with ⟨rest, t', hrest, hdone⟩
      rcases ofExcept_ok hread with ⟨hanswer, rfl⟩
      cases hdone
      -- reading leaves the file as it is
      have hkept := z.frame (.read path (z.filename info)) s path List.not_mem_nil
      have hdata := z.read_ok path (z.filename info) s data p hanswer hp
      have hp' : z.packageAt (z.step (.read path (z.filename info)) s).2 path = some p := by
        rw [ZipFiles.packageAt, hkept]
        exact hp
      rcases ih hp' hrest with ⟨hinfos, hlatest⟩
      exact ⟨congrArg (info :: ·) hinfos, List.forall_mem_cons.2 ⟨hdata, hlatest⟩⟩

theorem readEntries_ok {entries : List (Info × Bytes)}
    (hrun : (readEntries z.filename path).run z.step s = (.ok entries, s')) :
    ∃ p, z.packageAt s path = some p ∧ Read z p entries := by
  rcases run_bind_ok_inv hrun with ⟨infos, t, hlist, hall⟩
  rcases ofExcept_ok hlist with ⟨hanswer, rfl⟩
  have hkept := z.frame (.infolist path) s path List.not_mem_nil
  rcases z.infolist_ok path s infos hanswer with ⟨p, hp, hnames⟩
  have hp' : z.packageAt (z.step (.infolist path) s).2 path = some p := by
    rw [ZipFiles.packageAt, hkept]
    exact hp
  rcases readAll_ok hp' hall with ⟨rfl, hlatest⟩
  refine ⟨p, hp, ?_, hlatest⟩
  rw [← hnames, List.map_map]
  rfl

theorem Read.manifest {p : Package} {entries : List (Info × Bytes)} {manifest : Bytes}
    (hread : Read z p entries) (h : manifestOf z.filename entries = some manifest) :
    p.latest "AndroidManifest.xml" = some manifest := by
  rcases Option.map_eq_some_iff.1 h with ⟨e, hfind, rfl⟩
  have hname : z.filename e.1 = "AndroidManifest.xml" := by simpa using List.find?_some hfind
  rw [← hname]
  exact hread.data e (List.mem_of_find?_eq_some hfind)

/-- What is written for the entries that were read. -/
def written (z : ZipFiles Info) (patched : Bytes) (entries : List (Info × Bytes)) : Package :=
  (entries.filter fun e => ¬ IsSignature (z.filename e.1)).map fun e =>
    (z.filename e.1, if z.filename e.1 = "AndroidManifest.xml" then patched else e.2)

theorem written_signed {patched : Bytes} {e : Info × Bytes} {entries : List (Info × Bytes)}
    (h : IsSignature (z.filename e.1)) :
    written z patched (e :: entries) = written z patched entries := by
  have hdropped : ¬ (decide ¬ IsSignature (z.filename e.1)) = true :=
    fun hkept => of_decide_eq_true hkept h
  rw [written, List.filter_cons, if_neg hdropped]
  rfl

theorem written_cons {patched : Bytes} {e : Info × Bytes} {entries : List (Info × Bytes)}
    (h : ¬ IsSignature (z.filename e.1)) : written z patched (e :: entries) =
      (z.filename e.1, if z.filename e.1 = "AndroidManifest.xml" then patched else e.2) ::
        written z patched entries := by
  have hkept : (decide ¬ IsSignature (z.filename e.1)) = true := decide_eq_true h
  rw [written, List.filter_cons, if_pos hkept]
  rfl

theorem writeEntries_ok {patched : Bytes} {p : Package} {entries : List (Info × Bytes)}
    (hp : z.underway s path = some p)
    (hrun : (writeEntries z.filename path patched entries).run z.step s = (.ok (), s')) :
    z.underway s' path = some (p ++ written z patched entries) := by
  induction entries generalizing s p with
  | nil =>
      cases hrun
      rw [hp, written, List.filter_nil, List.map_nil, List.append_nil]
  | cons e entries ih =>
      rcases e with ⟨info, data⟩
      by_cases hsigned : IsSignature (z.filename info)
      · rw [writeEntries, if_pos hsigned] at hrun
        rw [written_signed hsigned]
        exact ih hp hrun
      · rw [writeEntries, if_neg hsigned] at hrun
        -- the entry is at the end of what is underway, and the rest comes after it
        rcases run_bind_ok_inv hrun with ⟨_, t, hwrite, hrest⟩
        rcases ofExcept_ok hwrite with ⟨hanswer, rfl⟩
        have hnext := ih (z.writestr_ok _ _ _ _ _ hanswer hp) hrest
        rw [hnext, List.append_assoc, written_cons hsigned]
        rfl

theorem written_rewritten {p : Package} {entries : List (Info × Bytes)} (hread : Read z p entries)
    (patched : Bytes) : Rewritten p patched (written z patched entries) := by
  constructor
  · calc
      (written z patched entries).names =
          (entries.filter fun e => ¬ IsSignature (z.filename e.1)).map fun e => z.filename e.1 := by
            rw [written, Package.names, List.map_map]
            rfl
      _ = (entries.map fun e => z.filename e.1).filter fun name => ¬ IsSignature name := by
            rw [List.filter_map]
            rfl
      _ = p.names.filter fun name => ¬ IsSignature name := by rw [hread.names]
  · -- the data that is written is a function of the name: what was read for it, or the patched manifest
    intro name hname
    refine Package.latest_of_forall
      (f := fun name => if name = "AndroidManifest.xml" then some patched else p.latest name) ?_ hname
    intro e he
    rcases List.mem_map.1 he with ⟨e', he', rfl⟩
    have hdata := hread.data e' (List.mem_filter.1 he').1
    by_cases hmanifest : z.filename e'.1 = "AndroidManifest.xml"
    · simp [hmanifest]
    · simp [hmanifest, hdata]

/-- All of the run that can raise, and the replacement. -/
theorem writePatched_ok
    (hrun : (writePatched z.filename file_path).run z.step s = (.ok (), s')) :
    ∃ p manifest patched p', z.packageAt s file_path = some p ∧
      p.latest "AndroidManifest.xml" = some manifest ∧ removeImsOverlay manifest = .ok patched ∧
      z.packageAt s' (temporary file_path) = some p' ∧ Rewritten p patched p' := by
  -- a run that returns has not raised anywhere
  rcases run_bind_ok_inv hrun with ⟨entries, t₁, hentries, hrun⟩
  rcases run_bind_ok_inv hrun with ⟨manifest, t₂, hmanifest, hrun⟩
  rcases run_bind_ok_inv hrun with ⟨patched, t₃, hpatched, hrun⟩
  rcases run_bind_ok_inv hrun with ⟨_, t₄, hcreate, hrun⟩
  rcases run_bind_ok_inv hrun with ⟨_, t₅, hwrite, hclose⟩
  rcases readEntries_ok hentries with ⟨p, hp, hread⟩
  have hfound : manifestOf z.filename entries = some manifest := elim_ok (ofExcept_ok hmanifest).1
  have haccepted : removeImsOverlay manifest = .ok patched := mapError_ok (ofExcept_ok hpatched).1
  rcases ofExcept_ok hcreate with ⟨hcreated, rfl⟩
  rcases ofExcept_ok hclose with ⟨hclosed, rfl⟩
  have hunderway := writeEntries_ok (z.create_ok _ _ hcreated) hwrite
  rw [List.nil_append] at hunderway
  exact ⟨p, manifest, patched, written z patched entries, hp, hread.manifest hfound, haccepted,
    z.close_ok _ _ _ hclosed hunderway, written_rewritten hread patched⟩

/-- Nothing is written but the package and the temporary file. -/
theorem remove_ims_overlay_spares {filename : Info → String} (hpath : path ≠ file_path)
    (htemporary : path ≠ temporary file_path) :
    (remove_ims_overlay filename file_path).Performs (Spares path) := by
  have hspares : ∀ {o : FileOp Info}, o.written = [temporary file_path] → Spares path o := by
    intro o ho
    rw [Spares, ho, List.mem_singleton]
    exact htemporary
  have hentries : ∀ patched entries,
      (writeEntries filename (temporary file_path) patched entries).Performs (Spares path) := by
    intro patched entries
    induction entries with
    | nil => exact trivial
    | cons e entries ih =>
        rcases e with ⟨info, data⟩
        refine Performs.ite (fun _ => ih) fun _ => ?_
        exact Performs.bind ⟨hspares rfl, ofExcept_performs _⟩ fun _ => ih
  refine Performs.bind (Performs.bind (Performs.bind ⟨List.not_mem_nil, ofExcept_performs _⟩
    readAll_spares) fun entries => ?_) fun _ => ⟨?_, ofExcept_performs _⟩
  · refine Performs.bind (ofExcept_performs _ _) fun manifest => ?_
    refine Performs.bind (ofExcept_performs _ _) fun patched => ?_
    refine Performs.bind ⟨hspares rfl, ofExcept_performs _⟩ fun _ => ?_
    exact Performs.bind (hentries patched entries) fun _ => ⟨hspares rfl, ofExcept_performs _⟩
  · rintro hmem
    rcases List.mem_pair.1 hmem with h | h
    · exact htemporary h
    · exact hpath h

theorem remove_ims_overlay_rewritten
    (hrun : (remove_ims_overlay z.filename file_path).run z.step s = (.ok (), s')) :
    ∃ p manifest patched p', z.packageAt s file_path = some p ∧
      p.latest "AndroidManifest.xml" = some manifest ∧ removeImsOverlay manifest = .ok patched ∧
      z.packageAt s' file_path = some p' ∧ Rewritten p patched p' := by
  rcases run_bind_ok_inv hrun with ⟨_, t, hwritten, hreplace⟩
  rcases ofExcept_ok hreplace with ⟨hreplaced, rfl⟩
  rcases writePatched_ok hwritten with ⟨p, manifest, patched, p', hp, hmanifest, hpatched, hp', hrewritten⟩
  refine ⟨p, manifest, patched, p', hp, hmanifest, hpatched, ?_, hrewritten⟩
  rw [ZipFiles.packageAt, z.replace_ok _ _ _ hreplaced]
  exact hp'

end Files

/-! ## A store of packages

An implementation of the operations, with a format that is simpler than that of a package. -/

/-- Entries one behind the other, with the length of the name in one byte and of the data in two. -/
def storeEntries : Package → Bytes
  | [] => []
  | (name, data) :: rest =>
      UInt8.ofNat name.length :: name.toList.map (fun c => UInt8.ofNat c.toNat) ++
        pack16 data.length ++ data ++ storeEntries rest

def storedEntries : Nat → Bytes → Option Package
  | _, [] => some []
  | 0, _ => none
  | fuel + 1, n :: rest =>
      let name := String.ofList ((rest.take n.toNat).map fun b => Char.ofNat b.toNat)
      (u16At rest n.toNat).bind fun length =>
        let data := rest.drop (n.toNat + 2)
        (storedEntries fuel (data.drop length)).map ((name, data.take length) :: ·)

def stored : Bytes → Option Package
  | 0x50 :: 0x4B :: entries => storedEntries entries.length entries
  | _ => none

theorem stored_name {name : String} (hascii : ∀ c ∈ name.toList, c.toNat < 256) :
    String.ofList ((name.toList.map fun c => UInt8.ofNat c.toNat).map fun b => Char.ofNat b.toNat) =
      name := by
  have hchars : ∀ c ∈ name.toList, Char.ofNat (UInt8.ofNat c.toNat).toNat = c := by
    intro c hc
    have hlt := hascii c hc
    rw [UInt8.toNat_ofNat_of_lt' (by simpa using hlt), Char.ofNat_toNat]
  calc
    String.ofList ((name.toList.map fun c => UInt8.ofNat c.toNat).map fun b => Char.ofNat b.toNat) =
        String.ofList (name.toList.map id) := by
          rw [List.map_map]
          exact congrArg String.ofList (List.map_congr_left hchars)
    _ = name := by rw [List.map_id, String.ofList_toList]

/-- The lengths and the characters of the name fit their fields. -/
def FitsFields (e : String × Bytes) : Prop :=
  e.1.length < 256 ∧ (∀ c ∈ e.1.toList, c.toNat < 256) ∧ e.2.length < 65536

/-- What is stored is read again. -/
theorem storedEntries_store {p : Package} (hfits : ∀ e ∈ p, FitsFields e) {fuel : Nat}
    (hfuel : p.length ≤ fuel) : storedEntries fuel (storeEntries p) = some p := by
  induction p generalizing fuel with
  | nil => cases fuel <;> rfl
  | cons e rest ih =>
      rcases e with ⟨name, data⟩
      rcases List.forall_mem_cons.1 hfits with ⟨⟨hname, hascii, hdata⟩, hrest⟩
      cases fuel with
      | zero => simp at hfuel
      | succ fuel =>
          have hn : (UInt8.ofNat name.length).toNat = name.length := UInt8.toNat_ofNat_of_lt' hname
          -- what stands before the rest is a byte, the name, two bytes and the data
          let chars := name.toList.map fun c => UInt8.ofNat c.toNat
          have hchars : chars.length = name.length := by
            rw [List.length_map, String.length_toList]
          have hstore : storeEntries ((name, data) :: rest) =
              UInt8.ofNat name.length :: (chars ++ (pack16 data.length ++ (data ++ storeEntries rest))) := by
            simp [storeEntries, chars]
          have hlength : u16At (chars ++ (pack16 data.length ++ (data ++ storeEntries rest))) name.length =
              some data.length := by
            rw [u16At, ← hchars, List.drop_left]
            exact u16?_pack16 hdata _
          have hrest' : (chars ++ (pack16 data.length ++ (data ++ storeEntries rest))).drop
              (name.length + 2) = data ++ storeEntries rest := by
            rw [← List.drop_drop, ← hchars, List.drop_left]
            rfl
          rw [hstore, storedEntries]
          simp only [hn, hlength, hrest', Option.bind_some, List.drop_left, List.take_left]
          rw [ih hrest (Nat.le_of_succ_le_succ hfuel), ← hchars, List.take_left, stored_name hascii]
          rfl

theorem stored_store {p : Package} (hfits : ∀ e ∈ p, FitsFields e) :
    stored (0x50 :: 0x4B :: storeEntries p) = some p := by
  have hfuel : p.length ≤ (storeEntries p).length := by
    clear hfits
    induction p with
    | nil => exact Nat.le_refl 0
    | cons e rest ih =>
        rw [storeEntries, List.length_append, List.length_cons]
        simp only [List.cons_append, List.length_cons]
        omega
  exact storedEntries_store hfits hfuel

structure Stores where
  files : String → Option Bytes
  underway : String → Option Package

namespace Stores

def step : (o : FileOp String) → Stores → o.Res × Stores
  | .infolist path, s =>
      match (s.files path).bind stored with
      | some p => (.ok p.names, s)
      | none => (.error (.badZipFile "File is not a zip file"), s)
  | .read path name, s =>
      match ((s.files path).bind stored).bind (Package.latest name) with
      | some data => (.ok data, s)
      | none => (.error (.keyError name), s)
  | .create path, s =>
      (.ok (), ⟨Function.update s.files path (some []), Function.update s.underway path (some [])⟩)
  | .writestr path info data, s =>
      match s.underway path with
      | some p =>
          (.ok (), { s with underway := Function.update s.underway path (some (p ++ [(info, data)])) })
      | none => (.error (.osError "closed"), s)
  | .close path, s =>
      match s.underway path with
      | some p =>
          -- the lengths may be too large for their fields
          if stored (0x50 :: 0x4B :: storeEntries p) = some p then
            (.ok (), { s with
              files := Function.update s.files path (some (0x50 :: 0x4B :: storeEntries p)) })
          else (.error (.osError "too large"), s)
      | none => (.error (.osError "closed"), s)
  | .replace path target, s =>
      match s.files path with
      | some data =>
          (.ok (), { s with
            files := Function.update (Function.update s.files path none) target (some data) })
      | none => (.error (.osError "no such file"), s)

theorem step_frame (o : FileOp String) (s : Stores) {path : String} (hpath : path ∉ o.written) :
    (step o s).2.files path = s.files path := by
  cases o with
  | infolist path' =>
      rw [step]
      split
      · rfl
      · rfl
  | read path' name =>
      rw [step]
      split
      · rfl
      · rfl
  | create path' => exact Function.update_of_ne (List.ne_of_not_mem_cons hpath) _ _
  | writestr path' info data =>
      rw [step]
      split
      · rfl
      · rfl
  | close path' =>
      rw [step]
      split
      · split
        · exact Function.update_of_ne (List.ne_of_not_mem_cons hpath) _ _
        · rfl
      · rfl
  | replace path' target =>
      have hsource : path ≠ path' := List.ne_of_not_mem_cons hpath
      have htarget : path ≠ target :=
        List.ne_of_not_mem_cons (List.not_mem_of_not_mem_cons hpath)
      rw [step]
      split
      · exact (Function.update_of_ne htarget _ _).trans (Function.update_of_ne hsource _ _)
      · rfl

end Stores

def stores : ZipFiles String where
  State := Stores
  filename := id
  contents := Stores.files
  step := Stores.step
  frame := fun o s _ hpath => Stores.step_frame o s hpath
  atomic := by
    intro path target s e herror
    simp only [Stores.step] at herror ⊢
    cases hfile : s.files path with
    | some data =>
        rw [hfile] at herror
        cases herror
    | none => rfl
  package := stored
  underway := Stores.underway
  infolist_ok := by
    intro path s infos hok
    simp only [Stores.step] at hok
    cases hp : (s.files path).bind stored with
    | some p =>
        rw [hp] at hok
        cases hok
        exact ⟨p, rfl, List.map_id _⟩
    | none =>
        rw [hp] at hok
        cases hok
  read_ok := by
    intro path name s data p hok hp
    simp only [Stores.step, hp, Option.bind_some] at hok
    cases hdata : Package.latest name p with
    | some data' =>
        rw [hdata] at hok
        cases hok
        rfl
    | none =>
        rw [hdata] at hok
        cases hok
  create_ok := fun path s _ => Function.update_self _ _ _
  writestr_ok := by
    intro path info data s p _ hp
    simp only [Stores.step, hp]
    exact Function.update_self _ _ _
  close_ok := by
    intro path s p hok hp
    simp only [Stores.step, hp] at hok ⊢
    by_cases hstored : stored (0x50 :: 0x4B :: storeEntries p) = some p
    · rw [if_pos hstored]
      change (Function.update s.files path _ path).bind stored = some p
      rw [Function.update_self]
      exact hstored
    · rw [if_neg hstored] at hok
      cases hok
  replace_ok := by
    intro path target s hok
    simp only [Stores.step] at hok ⊢
    cases hfile : s.files path with
    | some data => exact Function.update_self _ _ _
    | none =>
        rw [hfile] at hok
        cases hok

def signedPackage : Package :=
  [("META-INF/CERT.SF", [1]), ("AndroidManifest.xml", smallManifest.bytes), ("classes.dex", [100, 101])]

def signedFiles : Stores where
  files := Function.update (fun _ => none) "Ims.apk" (some (0x50 :: 0x4B :: storeEntries signedPackage))
  underway := fun _ => none

def repackedFiles : Package :=
  [("AndroidManifest.xml", smallManifest.withoutOverlays.bytes), ("classes.dex", [100, 101])]

theorem Document.length_eq {d : Document} {n : Nat} (h : u32At d.header 4 = some n) :
    d.bytes.length = n := by
  have hsize := d.size_field
  rw [h] at hsize
  rw [Document.bytes, Document.chunks, List.length_append]
  exact Eq.symm (Option.some.inj hsize)

theorem smallManifest_length : smallManifest.bytes.length = 188 :=
  Document.length_eq (by decide)

theorem repackedManifest_length : smallManifest.withoutOverlays.bytes.length ≤ 188 := by
  have hkept := tiles_length_le smallManifest.keptChunks_sublist
  have hlength := smallManifest_length
  rw [Document.bytes, List.length_append] at hlength
  rw [smallManifest.withoutOverlays_length]
  omega

theorem signedPackage_fits : ∀ e ∈ signedPackage, FitsFields e := by
  have hmanifest : FitsFields ("AndroidManifest.xml", smallManifest.bytes) := by
    refine ⟨by decide, by simp, ?_⟩
    rw [smallManifest_length]
    decide
  intro e he
  rcases List.mem_cons.1 he with rfl | he
  · exact ⟨by decide, by simp, by decide⟩
  · rcases List.mem_pair.1 he with rfl | rfl
    · exact hmanifest
    · exact ⟨by decide, by simp, by decide⟩

theorem repackedFiles_fits : ∀ e ∈ repackedFiles, FitsFields e := by
  intro e he
  rcases List.mem_pair.1 he with rfl | rfl
  · exact ⟨by decide, by simp, Nat.lt_of_le_of_lt repackedManifest_length (by decide)⟩
  · exact ⟨by decide, by simp, by decide⟩

theorem signedFiles_package : (signedFiles.files "Ims.apk").bind stored = some signedPackage := by
  have hfile : signedFiles.files "Ims.apk" = some (0x50 :: 0x4B :: storeEntries signedPackage) := by
    simp [signedFiles]
  rw [hfile, Option.bind_some, stored_store signedPackage_fits]

namespace Stores

variable {s : Stores} {path : String} {p : Package}

theorem infolist_run (h : (s.files path).bind stored = some p) :
    (infolist path).run step s = (.ok p.names, s) := by
  change (ofExcept (step (.infolist path) s).1 : Apk String (List String)).run step
    (step (.infolist path) s).2 = _
  simp only [step, h]
  rfl

theorem readAll_run {f : String → Bytes} {names : List String}
    (h : ∀ name ∈ names, step (.read path name) s = (.ok (f name), s)) :
    (readAll stores.filename path names).run step s = (.ok (names.map fun name => (name, f name)), s) := by
  induction names with
  | nil => rfl
  | cons name names ih =>
      rcases List.forall_mem_cons.1 h with ⟨hname, hnames⟩
      have hread : (read path (stores.filename name)).run step s = (.ok (f name), s) := by
        change (ofExcept (step (.read path name) s).1 : Apk String Bytes).run step
          (step (.read path name) s).2 = _
        rw [hname]
        rfl
      rw [readAll, run_bind_ok hread, run_bind_ok (ih hnames)]
      rfl

theorem writeEntries_run {patched : Bytes} {entries : List (String × Bytes)}
    (hp : s.underway path = some p) :
    ∃ s', (writeEntries stores.filename path patched entries).run step s = (.ok (), s') ∧
      s'.underway path = some (p ++ written stores patched entries) := by
  induction entries generalizing s p with
  | nil => exact ⟨s, rfl, by rw [hp, written, List.filter_nil, List.map_nil, List.append_nil]⟩
  | cons e entries ih =>
      rcases e with ⟨name, data⟩
      by_cases hsigned : IsSignature (stores.filename name)
      · rw [writeEntries, if_pos hsigned, written_signed hsigned]
        exact ih hp
      · let new := if stores.filename name = "AndroidManifest.xml" then patched else data
        let t : Stores := { s with underway := Function.update s.underway path (some (p ++ [(name, new)])) }
        have hwrite : (writestr path name new).run step s = (.ok (), t) := by
          change (ofExcept (step (.writestr path name new) s).1 : Apk String Unit).run step
            (step (.writestr path name new) s).2 = _
          simp only [step, hp]
          rfl
        have ht : t.underway path = some (p ++ [(name, new)]) := Function.update_self _ _ _
        rcases ih ht with ⟨s', hrun, hunderway⟩
        refine ⟨s', ?_, ?_⟩
        · rw [writeEntries, if_neg hsigned]
          exact (run_bind_ok hwrite).trans hrun
        · rw [hunderway, written_cons hsigned, List.append_assoc]
          rfl

end Stores

theorem written_signedPackage :
    written stores smallManifest.withoutOverlays.bytes signedPackage = repackedFiles := by
  have hsignature : IsSignature (stores.filename "META-INF/CERT.SF") := by simp [stores]
  have hmanifest : ¬ IsSignature (stores.filename "AndroidManifest.xml") := by simp [stores]
  have hclasses : ¬ IsSignature (stores.filename "classes.dex") := by simp [stores]
  rw [signedPackage, written_signed hsignature, written_cons hmanifest, written_cons hclasses]
  rfl

theorem readEntries_signedFiles : (readEntries stores.filename "Ims.apk").run Stores.step signedFiles =
    (.ok signedPackage, signedFiles) := by
  let f : String → Bytes := fun name => (signedPackage.latest name).getD []
  have hlatest : ∀ name ∈ signedPackage.names, signedPackage.latest name = some (f name) := by
    simp [signedPackage, Package.names, Package.latest, f]
  have hlist : (infolist "Ims.apk").run Stores.step signedFiles =
      (.ok signedPackage.names, signedFiles) := Stores.infolist_run signedFiles_package
  have hread : ∀ name ∈ signedPackage.names,
      Stores.step (.read "Ims.apk" name) signedFiles = (.ok (f name), signedFiles) := by
    intro name hname
    simp only [Stores.step, signedFiles_package, Option.bind_some, hlatest name hname]
  have hentries : signedPackage.names.map (fun name => (name, f name)) = signedPackage := by
    simp [signedPackage, Package.names, Package.latest, f]
  rw [readEntries, run_bind_ok hlist, Stores.readAll_run hread, hentries]

/-- Nothing raises. -/
theorem signedFiles_run :
    ∃ s', (remove_ims_overlay stores.filename "Ims.apk").run Stores.step signedFiles = (.ok (), s') := by
  have hone : smallManifest.outermostOverlays = 1 := by decide
  have hpatched : (ofExcept ((removeImsOverlay smallManifest.bytes).mapError .python) :
      Apk String Bytes).run Stores.step signedFiles =
        (.ok smallManifest.withoutOverlays.bytes, signedFiles) := by
    rw [smallManifest.removeImsOverlay_document hone]
    rfl
  have hmanifest : (ofExcept
      ((manifestOf stores.filename signedPackage).elim (.error .stopIteration) .ok) :
        Apk String Bytes).run Stores.step signedFiles = (.ok smallManifest.bytes, signedFiles) := by
    simp [manifestOf, signedPackage, stores]
    rfl
  -- the temporary file is created, filled and closed, and then takes the place of the package
  let path := temporary "Ims.apk"
  let created : Stores :=
    ⟨Function.update signedFiles.files path (some []), Function.update signedFiles.underway path (some [])⟩
  have hcreated : created.underway path = some [] := by simp [created]
  have hcreate : (create path).run Stores.step signedFiles = (.ok (), created) := rfl
  have hentries : ∃ t, (writeEntries stores.filename path smallManifest.withoutOverlays.bytes
      signedPackage).run Stores.step created = (.ok (), t) ∧
        t.underway path = some ([] ++ written stores smallManifest.withoutOverlays.bytes signedPackage) :=
    Stores.writeEntries_run hcreated
  rcases hentries with ⟨t, hwrite, hunderway⟩
  rw [written_signedPackage, List.nil_append] at hunderway
  let closed : Stores :=
    { t with files := Function.update t.files path (some (0x50 :: 0x4B :: storeEntries repackedFiles)) }
  have hclose : (close path).run Stores.step t = (.ok (), closed) := by
    change (ofExcept (Stores.step (.close path) t).1 : Apk String Unit).run Stores.step
      (Stores.step (.close path) t).2 = _
    simp only [Stores.step, hunderway, if_pos (stored_store repackedFiles_fits)]
    rfl
  have hwritten : (writePatched stores.filename "Ims.apk").run Stores.step signedFiles =
      (.ok (), closed) := by
    rw [writePatched, run_bind_ok readEntries_signedFiles]
    rw [run_bind_ok hmanifest, run_bind_ok hpatched, run_bind_ok hcreate, run_bind_ok hwrite]
    exact hclose
  have hfile : closed.files path = some (0x50 :: 0x4B :: storeEntries repackedFiles) := by simp [closed]
  refine ⟨(Stores.step (.replace path "Ims.apk") closed).2, ?_⟩
  rw [remove_ims_overlay, run_bind_ok hwritten]
  change (ofExcept (Stores.step (.replace path "Ims.apk") closed).1 : Apk String Unit).run Stores.step
    (Stores.step (.replace path "Ims.apk") closed).2 = _
  simp only [Stores.step, hfile]
  rfl

/-! ## Once and no more -/

/-- A document that is accepted has one outermost overlay element, and is left without it. -/
theorem Document.accepted {d : Document} {patched : Bytes} (h : removeImsOverlay d.bytes = .ok patched) :
    d.outermostOverlays = 1 ∧ patched = d.withoutOverlays.bytes := by
  have hheader : headerSize d.bytes = d.header.length := by
    rw [headerSize, Document.bytes, u16At_append_left d.header_size]
    rfl
  have hone : d.outermostOverlays = 1 := by
    -- the walk over a document finds each of its outermost elements, and one is asked for
    rcases removeImsOverlay_ok h with ⟨w, hwalk, hremoved, _⟩
    rw [hheader, d.walk_document] at hwalk
    cases hwalk
    exact hremoved
  rw [d.removeImsOverlay_document hone] at h
  cases h
  exact ⟨hone, rfl⟩

/-- Without its overlay elements a document is not accepted again. -/
theorem Document.withoutOverlays_rejected (d : Document) {patched : Bytes} :
    removeImsOverlay d.withoutOverlays.bytes ≠ .ok patched := by
  intro h
  have hone := (Document.accepted h).1
  have hnone : d.withoutOverlays.outermostOverlays = 0 := d.body.strip_outermost
  omega

section Repackaged

variable {Info : Type} {z : ZipFiles Info} {s s' : z.State} {file_path : String}

/-- Whenever it returns, the package holds what it held but the signature, in the same order, with the
patched manifest, and no other file but the temporary one is another.  Of a well-formed manifest that is
the document without its overlay, and then a second run raises and leaves the package as it is. -/
theorem repackaged
    (hrun : (remove_ims_overlay z.filename file_path).run z.step s = (.ok (), s')) :
    ∃ p manifest patched p', z.packageAt s file_path = some p ∧
      p.latest "AndroidManifest.xml" = some manifest ∧ removeImsOverlay manifest = .ok patched ∧
      z.packageAt s' file_path = some p' ∧ Rewritten p patched p' ∧
      (∀ path, path ≠ file_path → path ≠ temporary file_path →
        z.contents s' path = z.contents s path) ∧
      ∀ d : Document, manifest = d.bytes → patched = d.withoutOverlays.bytes ∧
        ∀ t, z.contents t file_path = z.contents s' file_path →
          ∃ e t', (remove_ims_overlay z.filename file_path).run z.step t = (.error e, t') ∧
            z.contents t' file_path = z.contents s' file_path := by
  rcases remove_ims_overlay_rewritten hrun with
    ⟨p, manifest, patched, p', hp, hmanifest, hpatched, hp', hrewritten⟩
  refine ⟨p, manifest, patched, p', hp, hmanifest, hpatched, hp', hrewritten, ?_, ?_⟩
  · intro path hpath htemporary
    have hkept : z.contents ((remove_ims_overlay z.filename file_path).run z.step s).2 path =
        z.contents s path :=
      Performs.invariant (fun t => z.contents t path = z.contents s path)
        (fun o t ho ht => (z.frame o t path ho).trans ht)
        (remove_ims_overlay_spares hpath htemporary) rfl
    rwa [hrun] at hkept
  · rintro d rfl
    rcases Document.accepted hpatched with ⟨_, rfl⟩
    refine ⟨rfl, fun t ht => ?_⟩
    cases hagain : (remove_ims_overlay z.filename file_path).run z.step t with
    | mk r t' =>
        cases r with
        | error e => exact ⟨e, t', rfl, (remove_ims_overlay_error hagain).trans ht⟩
        | ok u =>
            -- the second run would have read the manifest that the first one wrote
            rcases remove_ims_overlay_rewritten hagain with
              ⟨q, manifest', patched', q', hq, hmanifest', hpatched', _⟩
            have hsame : z.packageAt t file_path = z.packageAt s' file_path :=
              congrArg (Option.bind · z.package) ht
            cases hq.symm.trans (hsame.trans hp')
            have hname : "AndroidManifest.xml" ∈ p'.names := by
              by_contra hname
              cases hmanifest'.symm.trans (Package.latest_eq_none hname)
            have hlatest := hrewritten.data _ hname
            rw [if_pos rfl] at hlatest
            cases hmanifest'.symm.trans hlatest
            exact absurd hpatched' d.withoutOverlays_rejected

end Repackaged

theorem repackaged_small : ∃ s',
    (remove_ims_overlay stores.filename "Ims.apk").run stores.step signedFiles = (.ok (), s') ∧
    ∃ p', stores.packageAt s' "Ims.apk" = some p' ∧
      p'.names = ["AndroidManifest.xml", "classes.dex"] ∧
      p'.latest "AndroidManifest.xml" = some smallManifest.withoutOverlays.bytes ∧
      ∃ e t', (remove_ims_overlay stores.filename "Ims.apk").run stores.step s' = (.error e, t') := by
  rcases signedFiles_run with ⟨s', hrun⟩
  rcases repackaged (z := stores) hrun with
    ⟨p, manifest, patched, p', hp, hmanifest, _, hp', hrewritten, _, hdocument⟩
  cases signedFiles_package.symm.trans hp
  have hsmall : manifest = smallManifest.bytes := by
    cases hmanifest
    rfl
  rcases hdocument smallManifest hsmall with ⟨rfl, hagain⟩
  rcases hagain s' rfl with ⟨e, t', herror, _⟩
  have hnames : p'.names = ["AndroidManifest.xml", "classes.dex"] := by
    rw [hrewritten.names]
    simp [signedPackage, Package.names]
  refine ⟨s', hrun, p', hp', hnames, ?_, e, t', herror⟩
  rw [hrewritten.data _ (by rw [hnames]; exact List.mem_cons_self), if_pos rfl]

end Ims
end M2391Device
