import M2391Device.Ims.Document

/-!
# Overlay — removing the overlay element is exact

The walk over the chunks of a document refines the single pass `prune` of `Nesting`, which cuts the
target elements out of the nested chunks.  What `removeImsOverlay` returns for a document with one
outermost overlay element is then the document without it, byte for byte.
-/

namespace M2391Device
namespace Ims

open LittleEndian Nesting

/-! ## The walk refines the pass -/

/-- The local variables of the walk after a pass over chunks of any kind, under the names read so far. -/
def ofPass {α : Type} (bytes : α → Bytes) (strings : List String) (s : Pruned α) : Walk :=
  ⟨strings, s.kept.map bytes, s.removed, s.depth⟩

section Pass

variable {α : Type} {bytes : α → Bytes} {tag : α → Tag} {strings : List String} {x : α} {kind : Nat}

/-- A start element whose name is found. -/
theorem startElement_ofPass (s : Pruned α) {index : Nat} {name : String}
    (hindex : u32At (bytes x) 20 = some index) (hname : strings[index]? = some name)
    (htag : tag x = .start (decide (name = "overlay"))) :
    (ofPass bytes strings s).startElement kind (bytes x) =
      .ok (ofPass bytes strings (pruneStep tag s x)) := by
  have hread : unpackI (bytes x) 20 = .ok index := by
    rw [unpackI, hindex]
    rfl
  have hlookup : orRaise .indexError strings[index]? = .ok name := by
    rw [hname]
    rfl
  -- outside of a target the name decides; inside of one every start is counted
  by_cases hdepth : s.depth = 0
  · by_cases htarget : name = "overlay"
    · simp [Walk.startElement, hread, hlookup, pruneStep, htag, hdepth, htarget, ofPass]
    · simp [Walk.startElement, Walk.keepOrSkip, hread, hlookup, pruneStep, htag, hdepth, htarget,
        ofPass]
  · simp [Walk.startElement, hread, hlookup, pruneStep, htag, hdepth, ofPass]

/-- The end of the loop body, for a chunk that starts no element. -/
theorem keepOrSkip_ofPass (s : Pruned α) (htag : tag x = if kind = 0x103 then .stop else .other) :
    (ofPass bytes strings s).keepOrSkip kind (bytes x) =
      ofPass bytes strings (pruneStep tag s x) := by
  by_cases hstop : kind = 0x103
  · rw [if_pos hstop] at htag
    by_cases hdepth : s.depth = 0
    · simp [Walk.keepOrSkip, pruneStep, htag, hdepth, ofPass]
    · simp [Walk.keepOrSkip, pruneStep, htag, hdepth, hstop, ofPass]
  · rw [if_neg hstop] at htag
    by_cases hdepth : s.depth = 0
    · simp [Walk.keepOrSkip, pruneStep, htag, hdepth, ofPass]
    · simp [Walk.keepOrSkip, pruneStep, htag, hdepth, hstop, ofPass]

end Pass

/-- The local variables of the walk after the pass `s` under the names read so far. -/
def ofPruned (names : List String) (s : Pruned Chunk) : Walk :=
  ⟨names, s.kept.map Chunk.bytes, s.removed, s.depth⟩

theorem startElement_ofPruned {names : List String} (s : Pruned Chunk) {c : Chunk} {name : String}
    (hkind : c.kind = RES_XML_START_ELEMENT_TYPE) (hname : elementName names c = some name) :
    (ofPruned names s).startElement c.kind c.bytes = .ok (ofPruned names (pruneStep (tag names) s c)) := by
  have htag : tag names c = .start (decide (name = "overlay")) := by simp [tag, hkind, hname]
  rcases Option.bind_eq_some_iff.1 hname with ⟨index, hindex, hget⟩
  exact startElement_ofPass s hindex hget htag

theorem keepOrSkip_ofPruned {names : List String} (s : Pruned Chunk) {c : Chunk}
    (hkind : c.kind ≠ RES_XML_START_ELEMENT_TYPE) :
    (ofPruned names s).keepOrSkip c.kind c.bytes = ofPruned names (pruneStep (tag names) s c) :=
  keepOrSkip_ofPass s (if_neg hkind)

/-- One chunk that is not a pool. -/
theorem visitChunk_ofPruned {names : List String} (s : Pruned Chunk) {c : Chunk}
    (hpool : c.kind ≠ RES_STRING_POOL_TYPE)
    (hnamed : c.kind = RES_XML_START_ELEMENT_TYPE → ∃ name, elementName names c = some name) :
    visitChunk (ofPruned names s) c = .ok (ofPruned names (pruneStep (tag names) s c)) := by
  have hone : ¬c.kind = 1 := hpool
  by_cases hstart : c.kind = RES_XML_START_ELEMENT_TYPE
  · rcases hnamed hstart with ⟨name, hname⟩
    have hcode : c.kind = 0x102 := hstart
    have helement := startElement_ofPruned s hstart hname
    rw [visitChunk, Walk.visit, if_neg hone]
    simpa [hcode] using helement
  · have hcode : ¬c.kind = 0x102 := hstart
    rw [visitChunk, Walk.visit, if_neg hone, ← keepOrSkip_ofPruned s hstart]
    simp [hcode]

theorem visitAll_ofPruned {names : List String} (cs : List Chunk) (s : Pruned Chunk)
    (hpool : ∀ c ∈ cs, c.kind ≠ RES_STRING_POOL_TYPE)
    (hnamed : ∀ c ∈ cs, c.kind = RES_XML_START_ELEMENT_TYPE →
      ∃ name, elementName names c = some name) :
    visitAll (ofPruned names s) cs = .ok (ofPruned names (prune (tag names) s cs)) := by
  induction cs generalizing s with
  | nil => rfl
  | cons c cs ih =>
      have hc : c ∈ c :: cs := List.mem_cons_self ..
      rw [visitAll, visitChunk_ofPruned s (hpool c hc) (hnamed c hc), prune_cons]
      exact ih _ (fun e he => hpool e (List.mem_cons_of_mem c he))
        fun e he => hnamed e (List.mem_cons_of_mem c he)

/-- The pool is kept, and its names are the first that the walk knows. -/
theorem visitChunk_pool (d : Document) (kept : List Chunk) (removed : Nat) :
    visitChunk (ofPruned [] ⟨kept, removed, 0⟩) d.pool =
      .ok (ofPruned d.names ⟨kept ++ [d.pool], removed, 0⟩) := by
  have hone : d.pool.kind = 1 := d.pool_kind
  have hnames := d.pool_layout.poolStrings
  rw [visitChunk, Walk.visit, if_pos hone, hone, hnames]
  simp [ofPruned, Walk.keepOrSkip]

namespace Document

/-- The walk over a document keeps the chunks outside of its overlay elements. -/
theorem walk_document (d : Document) :
    walk d.bytes d.header.length Walk.start =
      .ok (ofPruned d.names ⟨d.keptChunks, d.outermostOverlays, 0⟩) := by
  -- before the pool the names are empty, but no chunk there asks for one
  have hlead : visitAll Walk.start d.lead = .ok (ofPruned [] ⟨d.lead, 0, 0⟩) := by
    have hnamed : ∀ c ∈ d.lead, c.kind = RES_XML_START_ELEMENT_TYPE →
        ∃ name, elementName [] c = some name := by
      intro c hc hkind
      have hother := (d.lead_other c hc).2
      simp [tag, hkind] at hother
    have hvisit := visitAll_ofPruned d.lead ⟨[], 0, 0⟩ (fun c hc => (d.lead_other c hc).1) hnamed
    rwa [prune_others d.lead fun c hc => (d.lead_other c hc).2] at hvisit
  have hbody : visitAll (ofPruned d.names ⟨d.lead ++ [d.pool], 0, 0⟩) d.body.flatten =
      .ok (ofPruned d.names ⟨d.keptChunks, d.outermostOverlays, 0⟩) := by
    rw [visitAll_ofPruned d.body.flatten _ d.body_no_pool d.body_named,
      prune_flatten d.body d.body_nested]
    simp [keptChunks, outermostOverlays]
  rw [bytes, walk_tiles, chunks, visitAll_append, hlead]
  simp only [visitAll, visitChunk_pool]
  exact hbody

theorem removeImsOverlay_document (d : Document) (hone : d.outermostOverlays = 1) :
    removeImsOverlay d.bytes = .ok d.withoutOverlays.bytes := by
  have hsize : d.header.length + (tiles d.chunks).length = d.bytes.length := by simp [bytes]
  have hheader : unpackHHI d.bytes 0 = .ok (3, d.header.length, d.bytes.length) := by
    apply unpackHHI_of_fields
    · exact u16At_append_left d.header_kind _
    · exact u16At_append_left d.header_size _
    · rw [← hsize]
      exact u32At_append_left d.size_field _
  have htake : d.bytes.take d.header.length = d.header := List.take_left
  have hchunks : (d.keptChunks.map Chunk.bytes).flatten = tiles d.keptChunks := by
    rw [tiles, List.flatMap_def]
  have hlength : (d.header ++ tiles d.keptChunks).length =
      d.header.length + (tiles d.keptChunks).length := List.length_append
  -- the length is written over the header, in front of the chunks
  have hpack : packLength (d.header ++ tiles d.keptChunks) = .ok d.withoutOverlays.bytes := by
    have height := d.eight_le
    have hlt := d.kept_size_lt
    rw [packLength, if_neg (by rw [hlength]; omega), hlength,
      overwrite_append _ _ (by rw [length_pack32]; exact height)]
    rfl
  simp [removeImsOverlay, hheader, d.walk_document, hone, ofPruned, htake, hchunks, hpack]

theorem withoutOverlays_chunks (d : Document) : d.withoutOverlays.chunks = d.keptChunks := rfl

theorem withoutOverlays_length (d : Document) :
    d.withoutOverlays.bytes.length = d.header.length + (tiles d.keptChunks).length := by
  have hheader : d.withoutOverlays.header.length = d.header.length :=
    length_overwrite _ (by rw [length_pack32]; exact d.eight_le)
  rw [bytes, List.length_append, hheader, d.withoutOverlays_chunks]

end Document

/-! ## Exactness -/

/-- For a document with one outermost overlay element the result is again a document: the same
header but for the size field, and exactly the chunks outside that element. -/
theorem overlay_removed_exactly (d : Document) (hone : d.outermostOverlays = 1) :
    ∃ (before : List Chunk) (start : Chunk) (inside : Forest Chunk) (stop : Chunk)
      (after : List Chunk) (result : Document),
      d.chunks = before ++ (start :: (inside.flatten ++ [stop])) ++ after ∧
        start.kind = RES_XML_START_ELEMENT_TYPE ∧ elementName d.names start = some "overlay" ∧
        inside.Tagged (tag d.names) ∧ stop.kind = RES_XML_END_ELEMENT_TYPE ∧
        removeImsOverlay d.bytes = .ok result.bytes ∧
        result.header = overwrite d.header 4 (pack32 result.bytes.length) ∧
        result.chunks = before ++ after ∧ result.names = d.names ∧
        ∀ c ∈ result.chunks, c.kind = RES_XML_START_ELEMENT_TYPE →
          elementName result.names c ≠ some "overlay" := by
  rcases d.body.strip_one d.body_nested hone with
    ⟨before, start, inside, stop, after, htarget, hinside, hstop, hflat, hstrip⟩
  rcases tag_start_iff.1 htarget with ⟨hstart, hname⟩
  refine ⟨d.lead ++ d.pool :: before, start, inside, stop, after, d.withoutOverlays, ?_, hstart,
    hname, hinside, tag_stop hstop, d.removeImsOverlay_document hone, ?_, ?_, rfl, ?_⟩
  · simp [Document.chunks, hflat]
  · rw [d.withoutOverlays_length]
    rfl
  · rw [d.withoutOverlays_chunks]
    simp [Document.keptChunks, hstrip]
  · intro c hc hkind hoverlay
    rcases List.mem_append.1 hc with hc | hc
    · have hother := (d.lead_other c hc).2
      simp [tag, hkind] at hother
    · rcases List.mem_cons.1 hc with rfl | hc
      -- the pool is no element
      · have hpool := d.pool_kind.symm.trans hkind
        cases hpool
      · exact d.body.strip_free d.body_nested c hc (tag_start_iff.2 ⟨hkind, hoverlay⟩)

/-- A start element without attributes, whose name is the string at `name`. -/
def startBytes (name : Nat) : Bytes :=
  [2, 1, 16, 0] ++ pack32 36 ++ pack32 1 ++ pack32 0xFFFFFFFF ++ pack32 0xFFFFFFFF ++ pack32 name ++
    pack32 0x140014 ++ pack32 0 ++ pack32 0

def endBytes (name : Nat) : Bytes :=
  [3, 1, 16, 0] ++ pack32 24 ++ pack32 1 ++ pack32 0xFFFFFFFF ++ pack32 0xFFFFFFFF ++ pack32 name

def startChunk (name : Nat) : Chunk where
  bytes := startBytes name
  kind := RES_XML_START_ELEMENT_TYPE
  headerSize := 16
  kind_field := rfl
  header_field := rfl
  length_field := rfl
  header_fits := show 16 ≤ 36 by decide

def endChunk (name : Nat) : Chunk where
  bytes := endBytes name
  kind := RES_XML_END_ELEMENT_TYPE
  headerSize := 16
  kind_field := rfl
  header_field := rfl
  length_field := rfl
  header_fits := show 16 ≤ 24 by decide

/-- The names `manifest` and `overlay` in a UTF-8 pool. -/
def smallPool : Bytes :=
  [1, 0, 28, 0] ++ pack32 60 ++ pack32 2 ++ pack32 0 ++ pack32 0x100 ++ pack32 36 ++ pack32 0 ++
    pack32 0 ++ pack32 11 ++ [8, 8, 109, 97, 110, 105, 102, 101, 115, 116, 0] ++
    [7, 7, 111, 118, 101, 114, 108, 97, 121, 0] ++ [0, 0, 0]

/-- `<manifest><overlay/></manifest>` -/
def smallManifest : Document where
  header := [3, 0, 8, 0] ++ pack32 188
  names := ["manifest", "overlay"]
  lead := []
  pool :=
    { bytes := smallPool
      kind := 1
      headerSize := 28
      kind_field := by decide
      header_field := by decide
      length_field := by decide
      header_fits := by decide }
  body := .element (startChunk 0) (.element (startChunk 1) .nil (endChunk 1) .nil) (endChunk 0) .nil
  header_kind := by decide
  header_size := by decide
  size_field := by decide +kernel
  lead_other := by simp
  pool_kind := rfl
  pool_layout :=
    { flags := 0x100
      start := 36
      count_field := by decide
      flags_field := by decide
      start_field := by decide
      fits := by
        intro name hname
        rcases List.mem_pair.1 hname with rfl | rfl
        · exact ⟨by decide, by decide⟩
        · exact ⟨by decide, by decide⟩
      entries := by
        intro i hi
        match i, hi with
        | 0, _ => exact ⟨0, by decide, show Encoding.utf8.entry "manifest" <+: smallPool.drop 36 by decide⟩
        | 1, _ => exact ⟨11, by decide, show Encoding.utf8.entry "overlay" <+: smallPool.drop 47 by decide⟩ }
  body_nested := ⟨⟨false, by decide⟩, ⟨⟨true, by decide⟩, trivial, by decide, trivial⟩, by decide,
    trivial⟩
  body_no_pool := by decide
  body_named := by
    intro c hc hkind
    simp only [Forest.flatten, List.nil_append, List.cons_append, List.mem_cons, List.not_mem_nil,
      or_false] at hc
    rcases hc with rfl | rfl | rfl | rfl
    · exact ⟨"manifest", by decide⟩
    · exact ⟨"overlay", by decide⟩
    · cases hkind
    · cases hkind

theorem smallManifest_overlay_removed :
    smallManifest.outermostOverlays = 1 ∧
      ∃ result : Document, removeImsOverlay smallManifest.bytes = .ok result.bytes ∧
        ∀ c ∈ result.chunks, c.kind = RES_XML_START_ELEMENT_TYPE →
          elementName result.names c ≠ some "overlay" := by
  have hone : smallManifest.outermostOverlays = 1 := by decide
  rcases overlay_removed_exactly smallManifest hone with
    ⟨_, _, _, _, _, result, _, _, _, _, _, hpatched, _, _, _, hfree⟩
  exact ⟨hone, result, hpatched, hfree⟩

end Ims
end M2391Device
