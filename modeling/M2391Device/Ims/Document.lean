import M2391Device.Ims.StringPool
import M2391Device.Lib.Nesting

/-!
# Document — well-formed binary XML

A `Document` is an Android binary XML document together with its well-formedness: a header whose
size field is the length of the whole, chunks that tile the rest, one string pool before every
element chunk, and start and end element chunks that are properly nested.  Chunks of other kinds
are arbitrary, and an element name is an index into the pool.
-/

namespace M2391Device
namespace Ims

open LittleEndian Nesting

/-! ## Chunks -/

/-- The bytes of a chunk, whose own header gives its kind, its header size and its length. -/
structure Chunk where
  bytes : Bytes
  kind : Nat
  headerSize : Nat
  kind_field : u16At bytes 0 = some kind
  header_field : u16At bytes 2 = some headerSize
  length_field : u32At bytes 4 = some bytes.length
  header_fits : headerSize ≤ bytes.length

def RES_STRING_POOL_TYPE : Nat := 1
def RES_XML_TYPE : Nat := 3
def RES_XML_START_ELEMENT_TYPE : Nat := 0x102
def RES_XML_END_ELEMENT_TYPE : Nat := 0x103

def tiles (chunks : List Chunk) : Bytes := chunks.flatMap Chunk.bytes

/-- The name of a start element: its field at 20 indexes the pool. -/
def elementName (names : List String) (c : Chunk) : Option String :=
  (u32At c.bytes 20).bind (names[·]?)

/-- What a chunk is to the nesting; the elements named `overlay` are the targets. -/
def tag (names : List String) (c : Chunk) : Tag :=
  if c.kind = RES_XML_START_ELEMENT_TYPE then .start (decide (elementName names c = some "overlay"))
  else if c.kind = RES_XML_END_ELEMENT_TYPE then .stop
  else .other

theorem Chunk.eight_le (c : Chunk) : 8 ≤ c.bytes.length := u32At_bound c.length_field

@[simp] theorem tiles_nil : tiles [] = [] := rfl

@[simp] theorem tiles_cons (c : Chunk) (cs : List Chunk) : tiles (c :: cs) = c.bytes ++ tiles cs := rfl

theorem tiles_length_le {cs ds : List Chunk} (h : cs.Sublist ds) :
    (tiles cs).length ≤ (tiles ds).length := by
  induction h with
  | slnil => exact Nat.le_refl _
  | cons c _ ih =>
      rw [tiles_cons, List.length_append]
      omega
  | cons_cons c _ ih =>
      rw [tiles_cons, tiles_cons, List.length_append, List.length_append]
      omega

theorem tag_start_iff {names : List String} {c : Chunk} :
    tag names c = .start true ↔
      c.kind = RES_XML_START_ELEMENT_TYPE ∧ elementName names c = some "overlay" := by
  unfold tag
  split_ifs <;> simp_all

theorem tag_stop {names : List String} {c : Chunk} (h : tag names c = .stop) :
    c.kind = RES_XML_END_ELEMENT_TYPE := by
  unfold tag at h
  split_ifs at h with _ hkind
  exact hkind

/-! ## Documents -/

structure Document where
  header : Bytes
  names : List String
  /-- The chunks before the string pool. -/
  lead : List Chunk
  pool : Chunk
  /-- The chunks after it. -/
  body : Forest Chunk
  header_kind : u16At header 0 = some RES_XML_TYPE
  header_size : u16At header 2 = some header.length
  size_field : u32At header 4 =
    some (header.length + (tiles (lead ++ pool :: body.flatten)).length)
  lead_other : ∀ c ∈ lead, c.kind ≠ RES_STRING_POOL_TYPE ∧ tag [] c = .other
  pool_kind : pool.kind = RES_STRING_POOL_TYPE
  pool_layout : PoolLayout pool.bytes pool.headerSize names
  body_nested : body.Tagged (tag names)
  body_no_pool : ∀ c ∈ body.flatten, c.kind ≠ RES_STRING_POOL_TYPE
  body_named : ∀ c ∈ body.flatten, c.kind = RES_XML_START_ELEMENT_TYPE →
    ∃ name, elementName names c = some name

namespace Document

def chunks (d : Document) : List Chunk := d.lead ++ d.pool :: d.body.flatten

def bytes (d : Document) : Bytes := d.header ++ tiles d.chunks

/-- The number of elements named `overlay` that lie in no other element of that name. -/
def outermostOverlays (d : Document) : Nat := d.body.outermost (tag d.names)

theorem eight_le (d : Document) : 8 ≤ d.header.length := u32At_bound d.size_field

theorem size_lt (d : Document) : d.bytes.length < 2 ^ 32 := by
  have hsize := u32At_lt d.size_field
  simpa [bytes, chunks] using hsize

/-- The chunks that stay when the overlay elements go. -/
def keptChunks (d : Document) : List Chunk :=
  d.lead ++ d.pool :: (d.body.strip (tag d.names)).flatten

theorem keptChunks_sublist (d : Document) : d.keptChunks.Sublist d.chunks :=
  (List.Sublist.refl d.lead).append ((d.body.strip_sublist).cons_cons d.pool)

theorem kept_size_lt (d : Document) : d.header.length + (tiles d.keptChunks).length < 2 ^ 32 := by
  have hsize := d.size_lt
  have hkept := tiles_length_le d.keptChunks_sublist
  rw [bytes, List.length_append] at hsize
  omega

/-- The document without its overlay elements: the size field is that of the kept chunks, all other
bytes are as before. -/
def withoutOverlays (d : Document) : Document where
  header := overwrite d.header 4 (pack32 (d.header.length + (tiles d.keptChunks).length))
  names := d.names
  lead := d.lead
  pool := d.pool
  body := d.body.strip (tag d.names)
  header_kind := u16At_overwrite d.header_kind _ (by decide)
  header_size := by
    have hlength : (overwrite d.header 4
        (pack32 (d.header.length + (tiles d.keptChunks).length))).length = d.header.length :=
      length_overwrite _ (by rw [length_pack32]; exact d.eight_le)
    rw [hlength]
    exact u16At_overwrite d.header_size _ (by decide)
  size_field := by
    have hlength : (overwrite d.header 4
        (pack32 (d.header.length + (tiles d.keptChunks).length))).length = d.header.length :=
      length_overwrite _ (by rw [length_pack32]; exact d.eight_le)
    rw [hlength]
    exact u32At_overwrite d.kept_size_lt (Nat.le_trans (by decide) d.eight_le)
  lead_other := d.lead_other
  pool_kind := d.pool_kind
  pool_layout := d.pool_layout
  body_nested := d.body.strip_tagged d.body_nested
  body_no_pool := fun c hc => d.body_no_pool c (d.body.strip_sublist.subset hc)
  body_named := fun c hc => d.body_named c (d.body.strip_sublist.subset hc)

end Document

/-! ## A tiled manifest is walked chunk by chunk -/

def visitChunk (w : Walk) (c : Chunk) : Except PyError Walk := w.visit c.kind c.headerSize c.bytes

def visitAll (w : Walk) : List Chunk → Except PyError Walk
  | [] => .ok w
  | c :: cs =>
      match visitChunk w c with
      | .error e => .error e
      | .ok w => visitAll w cs

theorem visitAll_append (w : Walk) (cs ds : List Chunk) :
    visitAll w (cs ++ ds) =
      match visitAll w cs with
      | .error e => .error e
      | .ok w => visitAll w ds := by
  induction cs generalizing w with
  | nil => rfl
  | cons c cs ih =>
      rw [List.cons_append, visitAll, visitAll]
      cases visitChunk w c with
      | error e => rfl
      | ok w => exact ih w

theorem unpackHHI_of_fields {data : Bytes} {offset kind header length : Nat}
    (hkind : u16At data offset = some kind) (hheader : u16At data (offset + 2) = some header)
    (hlength : u32At data (offset + 4) = some length) :
    unpackHHI data offset = .ok (kind, header, length) := by
  simp [unpackHHI, unpackH, unpackI, hkind, hheader, hlength]

theorem unpackHHI_chunk (front : Bytes) (c : Chunk) (rest : Bytes) :
    unpackHHI (front ++ (c.bytes ++ rest)) front.length =
      .ok (c.kind, c.headerSize, c.bytes.length) := by
  apply unpackHHI_of_fields
  · exact (u16At_append_right front (c.bytes ++ rest) 0).trans (u16At_append_left c.kind_field rest)
  · exact (u16At_append_right front (c.bytes ++ rest) 2).trans
      (u16At_append_left c.header_field rest)
  · exact (u32At_append_right front (c.bytes ++ rest) 4).trans
      (u32At_append_left c.length_field rest)

theorem walk_tiles (cs : List Chunk) (front : Bytes) (w : Walk) :
    walk (front ++ tiles cs) front.length w = visitAll w cs := by
  induction cs generalizing front w with
  | nil =>
      rw [walk, if_neg (by simp)]
      rfl
  | cons c cs ih =>
      have height := c.eight_le
      have hinside : front.length < (front ++ tiles (c :: cs)).length := by
        simp
        omega
      have hfits : ¬(c.bytes.length < c.headerSize ∨ c.bytes.length < 8 ∨
          front.length + c.bytes.length > (front ++ tiles (c :: cs)).length) := by
        have hheader := c.header_fits
        simp
        omega
      have hdrop : (front ++ tiles (c :: cs)).drop front.length = c.bytes ++ tiles cs := by simp
      have hslice : slice (front ++ tiles (c :: cs)) front.length c.bytes.length = c.bytes :=
        slice_drop hdrop
      -- the next chunk begins where this one ends
      have hnext : ∀ w, walk (front ++ tiles (c :: cs)) (front.length + c.bytes.length) w =
          visitAll w cs := by
        intro w
        have hrest := ih (front ++ c.bytes) w
        rwa [List.length_append, List.append_assoc] at hrest
      rw [walk, if_pos hinside, tiles_cons, unpackHHI_chunk, ← tiles_cons]
      simp only [if_neg hfits, hslice, hnext]
      rfl

end Ims
end M2391Device
