import M2391Device.Ims.Malformed
import M2391Device.Lib.Program

/-!
# Archive — the package around the manifest

`remove_ims_overlay` of `ims_fixup.py` with its operations on files.  The patched package is written
next to the original and replaces it in one step at the end, so that an exception on the way leaves
the original as it was.  A manifest that is not rejected is cut as intended if and only if its header
has room for its own size field (`remove_ims_overlay_iff`).
-/

namespace M2391Device
namespace Ims

open LittleEndian Nesting

/-! ## The operations -/

/-- The exceptions that leave `remove_ims_overlay`. -/
inductive ApkError
  | python (e : PyError)
  | stopIteration
  | badZipFile (message : String)
  | keyError (name : String)
  | osError (message : String)
  deriving DecidableEq

/-- What is done to files.  An archive is written to its file entry by entry. -/
inductive FileOp (Info : Type)
  | infolist (path : String)
  | read (path name : String)
  | create (path : String)
  | writestr (path : String) (info : Info) (data : Bytes)
  | close (path : String)
  | replace (path target : String)

namespace FileOp

variable {Info : Type}

def Res : FileOp Info → Type
  | .infolist _ => Except ApkError (List Info)
  | .read _ _ => Except ApkError Bytes
  | .create _ | .writestr _ _ _ | .close _ | .replace _ _ => Except ApkError Unit

/-- The files that an operation may change. -/
def written : FileOp Info → List String
  | .infolist _ | .read _ _ => []
  | .create path | .writestr path _ _ | .close path => [path]
  | .replace path target => [path, target]

end FileOp

/-- Files, and an implementation of the operations.  A file is changed by the operations on it alone;
an operation that raises may leave anything in the file that it writes, but a file that is not replaced
is kept. -/
structure FileSystem (Info : Type) where
  State : Type
  filename : Info → String
  contents : State → String → Option Bytes
  step : (o : FileOp Info) → State → o.Res × State
  frame : ∀ o s path, path ∉ o.written → contents (step o s).2 path = contents s path
  atomic : ∀ path target s e, (step (.replace path target) s).1 = .error e →
    contents (step (.replace path target) s).2 target = contents s target

/-! ## The function -/

section Function

variable {Info : Type}

abbrev Apk (Info α : Type) := Program (FileOp Info) FileOp.Res ApkError α

/-- The value of a call that may raise. -/
def ofExcept {α : Type} : Except ApkError α → Apk Info α
  | .ok a => .pure a
  | .error e => .throw e

def infolist (path : String) : Apk Info (List Info) := Program.perform (.infolist path) ofExcept

def read (path name : String) : Apk Info Bytes := Program.perform (.read path name) ofExcept

def create (path : String) : Apk Info Unit := Program.perform (.create path) ofExcept

def writestr (path : String) (info : Info) (data : Bytes) : Apk Info Unit :=
  Program.perform (.writestr path info data) ofExcept

def close (path : String) : Apk Info Unit := Program.perform (.close path) ofExcept

def replace (path target : String) : Apk Info Unit := Program.perform (.replace path target) ofExcept

variable (filename : Info → String)

def readAll (path : String) : List Info → Apk Info (List (Info × Bytes))
  | [] => pure []
  | info :: infos => do
      let data ← read path (filename info)
      let rest ← readAll path infos
      return (info, data) :: rest

/-- `[(info, archive.read(info.filename)) for info in archive.infolist()]` -/
def readEntries (path : String) : Apk Info (List (Info × Bytes)) := do
  let infos ← infolist path
  readAll filename path infos

/-- `next(data for info, data in entries if info.filename == 'AndroidManifest.xml')` -/
def manifestOf (entries : List (Info × Bytes)) : Option Bytes :=
  (entries.find? fun e => filename e.1 = "AndroidManifest.xml").map Prod.snd

/-- The loop over the entries that are kept. -/
def writeEntries (path : String) (patched : Bytes) : List (Info × Bytes) → Apk Info Unit
  | [] => pure ()
  | (info, data) :: entries =>
      if (filename info).startsWith "META-INF/" then writeEntries path patched entries
      else do
        writestr path info (if filename info = "AndroidManifest.xml" then patched else data)
        writeEntries path patched entries

/-- `file_path + '.ims-tmp'` -/
def temporary (file_path : String) : String := file_path ++ ".ims-tmp"

/-- `remove_ims_overlay` up to the replacement. -/
def writePatched (file_path : String) : Apk Info Unit := do
  let entries ← readEntries filename file_path
  let manifest ← ofExcept ((manifestOf filename entries).elim (.error .stopIteration) .ok)
  let patched ← ofExcept ((removeImsOverlay manifest).mapError .python)
  create (temporary file_path)
  writeEntries filename (temporary file_path) patched entries
  close (temporary file_path)

def remove_ims_overlay (file_path : String) : Apk Info Unit := do
  writePatched filename file_path
  replace (temporary file_path) file_path

end Function

/-! ## The original is kept -/

section Kept

variable {Info α : Type} {filename : Info → String} {file_path path : String}

/-- An operation that does not write the original. -/
def Spares (file_path : String) (o : FileOp Info) : Prop := file_path ∉ o.written

theorem temporary_ne (file_path : String) : temporary file_path ≠ file_path := by
  intro h
  have hlength := congrArg String.length h
  rw [temporary, String.length_append] at hlength
  have hsuffix : ".ims-tmp".length = 8 := rfl
  omega

theorem spares_temporary {o : FileOp Info} (ho : o.written = [temporary file_path]) :
    Spares file_path o := by
  rw [Spares, ho, List.mem_singleton]
  exact (temporary_ne file_path).symm

theorem ofExcept_performs (P : FileOp Info → Prop) (x : Except ApkError α) :
    (ofExcept x : Apk Info α).Performs P := by
  cases x with
  | ok a => trivial
  | error e => trivial

theorem readAll_spares (infos : List Info) :
    (readAll filename path infos).Performs (Spares file_path) := by
  induction infos with
  | nil => trivial
  | cons info infos ih =>
      refine Program.Performs.bind ⟨List.not_mem_nil, ofExcept_performs _⟩ fun data => ?_
      exact Program.Performs.bind ih fun rest => trivial

theorem writeEntries_spares (patched : Bytes) (entries : List (Info × Bytes)) :
    (writeEntries filename (temporary file_path) patched entries).Performs (Spares file_path) := by
  induction entries with
  | nil => trivial
  | cons entry entries ih =>
      rcases entry with ⟨info, data⟩
      refine Program.Performs.ite (fun _ => ih) fun _ => ?_
      exact Program.Performs.bind ⟨spares_temporary rfl, ofExcept_performs _⟩ fun _ => ih

/-- Before the replacement nothing is done to the original. -/
theorem writePatched_spares (file_path : String) :
    (writePatched filename file_path).Performs (Spares file_path) := by
  refine Program.Performs.bind (Program.Performs.bind ⟨List.not_mem_nil, ofExcept_performs _⟩
    readAll_spares) fun entries => ?_
  refine Program.Performs.bind (ofExcept_performs _ _) fun manifest => ?_
  refine Program.Performs.bind (ofExcept_performs _ _) fun patched => ?_
  refine Program.Performs.bind ⟨spares_temporary rfl, ofExcept_performs _⟩ fun _ => ?_
  refine Program.Performs.bind (writeEntries_spares patched entries) fun _ => ?_
  exact ⟨spares_temporary rfl, ofExcept_performs _⟩

variable {fs : FileSystem Info} {s s' : fs.State}

theorem writePatched_kept {r : Except ApkError Unit}
    (hrun : (writePatched fs.filename file_path).run fs.step s = (r, s')) :
    fs.contents s' file_path = fs.contents s file_path := by
  have hkept : fs.contents ((writePatched fs.filename file_path).run fs.step s).2 file_path =
      fs.contents s file_path :=
    Program.Performs.invariant (fun t => fs.contents t file_path = fs.contents s file_path)
      (fun o t ho ht => (fs.frame o t file_path ho).trans ht) (writePatched_spares file_path) rfl
  rwa [hrun] at hkept

/-- An exception leaves the original as it was. -/
theorem remove_ims_overlay_error {e : ApkError}
    (hrun : (remove_ims_overlay fs.filename file_path).run fs.step s = (.error e, s')) :
    fs.contents s' file_path = fs.contents s file_path := by
  cases hwrite : (writePatched fs.filename file_path).run fs.step s with
  | mk r t =>
      have hkept := writePatched_kept hwrite
      cases r with
      | error e' =>
          rw [remove_ims_overlay, Program.run_bind_error hwrite] at hrun
          cases hrun
          exact hkept
      | ok u =>
          rw [remove_ims_overlay, Program.run_bind_ok hwrite] at hrun
          have hrun : (ofExcept (fs.step (.replace (temporary file_path) file_path) t).1 :
              Apk Info Unit).run fs.step (fs.step (.replace (temporary file_path) file_path) t).2 =
              (.error e, s') := hrun
          cases hanswer : (fs.step (.replace (temporary file_path) file_path) t).1 with
          | error e' =>
              rw [hanswer] at hrun
              cases hrun
              rw [fs.atomic _ _ t _ hanswer]
              exact hkept
          | ok u =>
              rw [hanswer] at hrun
              cases hrun

/-- A run without exception read a manifest that is not rejected. -/
theorem remove_ims_overlay_ok
    (hrun : (remove_ims_overlay fs.filename file_path).run fs.step s = (.ok (), s')) :
    ∃ entries t manifest new, (readEntries fs.filename file_path).run fs.step s = (.ok entries, t) ∧
      manifestOf fs.filename entries = some manifest ∧ removeImsOverlay manifest = .ok new := by
  rcases Program.run_bind_ok_inv hrun with ⟨_, _, hwrite, _⟩
  rcases Program.run_bind_ok_inv hwrite with ⟨entries, t, hentries, hrest⟩
  cases hmanifest : manifestOf fs.filename entries with
  | none =>
      rw [hmanifest] at hrest
      cases hrest
  | some manifest =>
      rw [hmanifest] at hrest
      cases hnew : removeImsOverlay manifest with
      | error e =>
          have hraise : (ofExcept ((removeImsOverlay manifest).mapError .python) :
              Apk Info Bytes) = .throw (.python e) := by
            rw [hnew]
            rfl
          rcases Program.run_bind_ok_inv hrest with ⟨m, t', hm, hpatch⟩
          cases hm
          rw [hraise] at hpatch
          cases hpatch
      | ok new => exact ⟨entries, t, manifest, new, hentries, hmanifest, hnew⟩

end Kept

/-! ## Any manifest -/

/-- The chunks taken lie one behind the other from the end of the header on, each as long as its own
field says. -/
structure Tiled (manifest : Bytes) : Prop where
  inside : bytesOf (takenChunks manifest) <+: manifest.drop (headerSize manifest)
  lengths : ∀ t ∈ takenChunks manifest, 8 ≤ t.bytes.length ∧ u32At t.bytes 4 = some t.bytes.length

theorem tiled (manifest : Bytes) : Tiled manifest :=
  ⟨(taken_spec manifest _ _).1, (taken_spec manifest _ _).2.1⟩

/-- A run that raises leaves the original as it was; in a run that does not, the chunks fill the manifest
and one closed overlay is cut out, if and only if the header has room for its size field. -/
theorem remove_ims_overlay_iff {Info : Type} (fs : FileSystem Info) (file_path : String)
    (s : fs.State) :
    (∀ manifest, Tiled manifest) ∧
      match (remove_ims_overlay fs.filename file_path).run fs.step s with
      | (.error _, s') => fs.contents s' file_path = fs.contents s file_path
      | (.ok (), _) =>
          ∃ entries t manifest new,
            (readEntries fs.filename file_path).run fs.step s = (.ok entries, t) ∧
            manifestOf fs.filename entries = some manifest ∧ removeImsOverlay manifest = .ok new ∧
            bytesOf (takenChunks manifest) = manifest.drop (headerSize manifest) ∧
            (Removed manifest new ↔ 8 ≤ headerSize manifest) := by
  refine ⟨tiled, ?_⟩
  cases hrun : (remove_ims_overlay fs.filename file_path).run fs.step s with
  | mk r s' =>
      cases r with
      | error e => exact remove_ims_overlay_error hrun
      | ok u =>
          rcases remove_ims_overlay_ok hrun with ⟨entries, t, manifest, new, hentries, hmanifest, hnew⟩
          rcases removeImsOverlay_ok hnew with ⟨w, hwalk, _⟩
          exact ⟨entries, t, manifest, new, hentries, hmanifest, hnew,
            (taken_spec manifest _ _).2.2 w hwalk, removed_iff hnew⟩

/-! ### A header without room for its size -/

/-- The chunk that begins at the size field of a header of four bytes. -/
def sizeChunk : Chunk where
  bytes := pack32 132 ++ [8, 0, 0, 0]
  kind := 132
  headerSize := 0
  kind_field := by decide
  header_field := by decide
  length_field := by decide
  header_fits := by decide

def shortChunks : List Chunk := [sizeChunk, smallManifest.pool, startChunk 1, endChunk 1]

/-- `<overlay/>` behind a header of four bytes. -/
def shortHeader : Bytes := [3, 0, 4, 0] ++ tiles shortChunks

def shortPatched : Bytes := [3, 0, 4, 0] ++ pack32 72 ++ [8, 0, 0, 0] ++ smallPool

theorem walk_shortHeader : walk shortHeader 4 Walk.start =
    .ok (ofPruned ["manifest", "overlay"] ⟨[sizeChunk, smallManifest.pool], 1, 0⟩) := by
  have hfirst : visitAll Walk.start [sizeChunk] = .ok (ofPruned [] ⟨[sizeChunk], 0, 0⟩) := rfl
  have hpool := visitChunk_pool smallManifest [sizeChunk] 0
  have hbody : visitAll (ofPruned ["manifest", "overlay"] ⟨[sizeChunk, smallManifest.pool], 0, 0⟩)
      [startChunk 1, endChunk 1] =
        .ok (ofPruned ["manifest", "overlay"] ⟨[sizeChunk, smallManifest.pool], 1, 0⟩) := by
    have hno : ∀ c ∈ [startChunk 1, endChunk 1], c.kind ≠ RES_STRING_POOL_TYPE := by decide
    have htags : tag ["manifest", "overlay"] (startChunk 1) = .start true ∧
        tag ["manifest", "overlay"] (endChunk 1) = .stop := by decide
    rw [visitAll_ofPruned _ _ hno]
    · rw [prune_cons, prune_cons, pruneStep_target _ _ htags.1, pruneStep, htags.2]
      rfl
    · intro c hc hkind
      rcases List.mem_pair.1 hc with rfl | rfl
      · exact ⟨"overlay", by decide⟩
      · cases hkind
  have hall : visitAll Walk.start ([sizeChunk] ++ smallManifest.pool :: [startChunk 1, endChunk 1]) =
      .ok (ofPruned ["manifest", "overlay"] ⟨[sizeChunk, smallManifest.pool], 1, 0⟩) := by
    rw [visitAll_append, hfirst]
    simp only [visitAll, hpool]
    exact hbody
  exact (walk_tiles shortChunks [3, 0, 4, 0] Walk.start).trans hall

/-- The manifest is not rejected, and the new size is written over the first chunk: behind the header
is no selection of the chunks. -/
theorem shortHeader_damaged :
    removeImsOverlay shortHeader = .ok shortPatched ∧ ¬ Removed shortHeader shortPatched ∧
      ∀ kept, kept.Sublist shortChunks → shortPatched.drop 4 ≠ tiles kept := by
  have hresult : removeImsOverlay shortHeader = .ok shortPatched := by
    have hfields : unpackHHI shortHeader 0 = .ok (3, 4, 132) := by decide +kernel
    have hlength : shortHeader.length = 132 := by decide +kernel
    have hpack : packLength (shortHeader.take 4 ++ [sizeChunk.bytes, smallPool].flatten) =
        .ok shortPatched := by decide +kernel
    have hchunks : [sizeChunk, smallManifest.pool].map Chunk.bytes = [sizeChunk.bytes, smallPool] := rfl
    rw [removeImsOverlay, hfields, ok_bind]
    simp only [hlength, walk_shortHeader, ofPruned, hchunks]
    rw [if_neg (by decide), ok_bind, if_neg (by decide)]
    exact hpack
  refine ⟨hresult, fun hremoved => ?_, fun kept hkept hsame => ?_⟩
  · have hheader : headerSize shortHeader = 4 := by decide +kernel
    have height := (removed_iff hresult).1 hremoved
    rw [hheader] at height
    exact absurd height (by decide)
  · cases kept with
    | nil => exact absurd hsame (by decide)
    | cons c kept =>
        have hfirst : ∀ c ∈ shortChunks, c.bytes[0]? ≠ (shortPatched.drop 4)[0]? := by
          decide +kernel
        have height := c.eight_le
        refine hfirst c (hkept.subset List.mem_cons_self) ?_
        rw [hsame, tiles_cons, List.getElem?_append_left (by omega)]

end Ims
end M2391Device
