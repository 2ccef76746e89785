import M2391Device.Ims.Overlay

/-!
# Malformed — the walk over any bytes

What `removeImsOverlay` does when nothing is known of the manifest.  The chunks that the loop takes
tile the bytes behind the header (`taken_spec`), and when it comes to an end they were one closed
range of an overlay between two stretches that are kept (`walk_taken`).
-/

namespace M2391Device
namespace Ims

open LittleEndian Nesting

/-! ## The chunks that are taken -/

/-- A chunk that the loop took, and what it was to the nesting then. -/
structure Taken where
  bytes : Bytes
  tag : Tag
  deriving DecidableEq

/-- The names of start elements are looked up in the strings read so far. -/
def tagIn (strings : List String) (kind : Nat) (chunk : Bytes) : Tag :=
  if kind = 0x102 then .start (decide ((u32At chunk 20).bind (strings[·]?) = some "overlay"))
  else if kind = 0x103 then .stop
  else .other

/-- The chunks that `walk` takes, up to the one that raises if there is one. -/
def taken (manifest : Bytes) (offset : Nat) (w : Walk) : List Taken :=
  if offset < manifest.length then
    match unpackHHI manifest offset with
    | .error _ => []
    | .ok (kind, chunkHeader, length) =>
        if length < chunkHeader ∨ length < 8 ∨ offset + length > manifest.length then []
        else
          ⟨slice manifest offset length, tagIn w.strings kind (slice manifest offset length)⟩ ::
            match w.visit kind chunkHeader (slice manifest offset length) with
            | .error _ => []
            | .ok w => taken manifest (offset + length) w
  else []
termination_by manifest.length - offset
decreasing_by omega

def bytesOf (chunks : List Taken) : Bytes := chunks.flatMap Taken.bytes

@[simp] theorem bytesOf_nil : bytesOf [] = [] := rfl

@[simp] theorem bytesOf_cons (t : Taken) (chunks : List Taken) :
    bytesOf (t :: chunks) = t.bytes ++ bytesOf chunks := rfl

section Tiles

variable {manifest : Bytes} {offset kind header length : Nat} {w w' : Walk}

/-- What stands behind an offset is a chunk and what stands behind the chunk. -/
theorem slice_append_drop (manifest : Bytes) (offset length : Nat) :
    slice manifest offset length ++ manifest.drop (offset + length) = manifest.drop offset := by
  rw [slice, ← List.drop_drop, List.take_append_drop]

theorem length_slice_of_fits (hfits : ¬ offset + length > manifest.length) :
    (slice manifest offset length).length = length := by
  rw [slice, List.length_take, List.length_drop]
  omega

theorem unpackHHI_ok (h : unpackHHI manifest offset = .ok (kind, header, length)) :
    u16At manifest offset = some kind ∧ u16At manifest (offset + 2) = some header ∧
      u32At manifest (offset + 4) = some length := by
  rw [unpackHHI, unpackH, unpackH, unpackI] at h
  cases hkind : u16At manifest offset with
  | none =>
      rw [hkind] at h
      cases h
  | some k =>
      cases hheader : u16At manifest (offset + 2) with
      | none =>
          rw [hkind, hheader] at h
          cases h
      | some n =>
          cases hlength : u32At manifest (offset + 4) with
          | none =>
              rw [hkind, hheader, hlength] at h
              cases h
          | some l =>
              rw [hkind, hheader, hlength] at h
              cases h
              exact ⟨rfl, rfl, rfl⟩

/-- The length field of a chunk that is taken is its length. -/
theorem slice_length_field (hread : unpackHHI manifest offset = .ok (kind, header, length))
    (hgood : ¬(length < header ∨ length < 8 ∨ offset + length > manifest.length)) :
    u32At (slice manifest offset length) 4 = some length := by
  have hlength : (slice manifest offset length).length = length := length_slice_of_fits (by omega)
  have hfield : ∃ n, u32At (slice manifest offset length) 4 = some n := exists_u32At (by omega)
  rcases hfield with ⟨n, hn⟩
  have hwhole := u32At_append_left hn (manifest.drop (offset + length))
  rw [slice_append_drop, u32At, List.drop_drop, ← u32At, (unpackHHI_ok hread).2.2] at hwhole
  rw [hn, hwhole]

/-- The chunks taken are the front of what follows the offset, each as long as its own length field
says; a walk that comes to an end has taken all of it. -/
theorem taken_spec (manifest : Bytes) (offset : Nat) (w : Walk) :
    bytesOf (taken manifest offset w) <+: manifest.drop offset ∧
      (∀ t ∈ taken manifest offset w, 8 ≤ t.bytes.length ∧ u32At t.bytes 4 = some t.bytes.length) ∧
      ∀ w', walk manifest offset w = .ok w' →
        bytesOf (taken manifest offset w) = manifest.drop offset := by
  have hnil : ∀ offset, bytesOf [] <+: manifest.drop offset ∧
      ∀ t ∈ ([] : List Taken), 8 ≤ t.bytes.length ∧ u32At t.bytes 4 = some t.bytes.length :=
    fun offset => ⟨List.nil_prefix, fun t ht => by cases ht⟩
  induction offset, w using walk.induct manifest with
  | case1 offset w hinside e hread =>
      -- a header that cannot be read
      rw [taken, walk, if_pos hinside, if_pos hinside, hread]
      exact ⟨(hnil offset).1, (hnil offset).2, fun w' h => by cases h⟩
  | case2 offset w hinside kind header length hread hbad =>
      -- a length that does not fit
      rw [taken, walk, if_pos hinside, if_pos hinside, hread]
      simp only [if_pos hbad]
      exact ⟨(hnil offset).1, (hnil offset).2, fun w' h => by cases h⟩
  | case3 offset w hinside kind header length hread hgood e hvisit =>
      -- a chunk at which the walk raises: it was taken, and is the last one
      have hlength : (slice manifest offset length).length = length := length_slice_of_fits (by omega)
      rw [taken, walk, if_pos hinside, if_pos hinside, hread]
      simp only [if_neg hgood, hvisit, bytesOf_cons, bytesOf_nil, List.append_nil,
        List.mem_singleton]
      refine ⟨List.take_prefix _ _, ?_, fun w' h => by cases h⟩
      rintro t rfl
      rw [hlength]
      exact ⟨by omega, slice_length_field hread hgood⟩
  | case4 offset w hinside kind header length hread hgood w1 hvisit ih =>
      have hlength : (slice manifest offset length).length = length := length_slice_of_fits (by omega)
      rcases ih with ⟨hfront, hlengths, hall⟩
      rw [taken, walk, if_pos hinside, if_pos hinside, hread,
        ← slice_append_drop manifest offset length]
      simp only [if_neg hgood, hvisit, bytesOf_cons, List.mem_cons]
      refine ⟨(List.prefix_append_right_inj _).2 hfront, ?_, fun w' h => by rw [hall w' h]⟩
      rintro t (rfl | ht)
      · rw [hlength]
        exact ⟨by omega, slice_length_field hread hgood⟩
      · exact hlengths t ht
  | case5 offset w hinside =>
      rw [taken, if_neg hinside, List.drop_eq_nil_of_le (Nat.not_lt.1 hinside)]
      exact ⟨List.nil_prefix, (hnil offset).2, fun w' h => rfl⟩

end Tiles

/-! ## The walk is a pass over them -/

/-- The local variables of the walk after the pass `s` over the chunks taken. -/
abbrev ofTaken (strings : List String) (s : Pruned Taken) : Walk := ofPass Taken.bytes strings s

section Pass

variable {strings : List String} {kind header : Nat} {chunk : Bytes} {w' : Walk}

/-- The end of the loop body, for a chunk that starts no element. -/
theorem keepOrSkip_taken (s : Pruned Taken) (names : List String) (hkind : kind ≠ 0x102) :
    (ofTaken strings s).keepOrSkip kind chunk =
      ofTaken strings (pruneStep Taken.tag s ⟨chunk, tagIn names kind chunk⟩) := by
  let t : Taken := ⟨chunk, tagIn names kind chunk⟩
  have htag : t.tag = if kind = 0x103 then .stop else .other := if_neg hkind
  exact keepOrSkip_ofPass s htag

theorem startElement_taken (s : Pruned Taken)
    (h : (ofTaken strings s).startElement 0x102 chunk = .ok w') :
    w' = ofTaken strings (pruneStep Taken.tag s ⟨chunk, tagIn strings 0x102 chunk⟩) := by
  cases hindex : u32At chunk 20 with
  | none =>
      rw [Walk.startElement, unpackI, hindex] at h
      cases h
  | some index =>
      cases hname : strings[index]? with
      | none =>
          have hlookup : (ofTaken strings s).strings[index]? = none := hname
          rw [Walk.startElement, unpackI, hindex, orRaise_some, ok_bind, hlookup] at h
          cases h
      | some name =>
          let t : Taken := ⟨chunk, tagIn strings 0x102 chunk⟩
          have htag : t.tag = .start (decide (name = "overlay")) := by
            simp [t, tagIn, hindex, hname]
          have helement : (ofPass Taken.bytes strings s).startElement 0x102 t.bytes =
              .ok (ofPass Taken.bytes strings (pruneStep Taken.tag s t)) :=
            startElement_ofPass s hindex hname htag
          exact (Except.ok.inj (helement.symm.trans h)).symm

/-- One chunk: a string pool adds names, and any chunk is a step of the pass. -/
theorem visit_taken (s : Pruned Taken) (h : (ofTaken strings s).visit kind header chunk = .ok w') :
    ∃ names, w' = ofTaken names (pruneStep Taken.tag s ⟨chunk, tagIn strings kind chunk⟩) := by
  by_cases hpool : kind = 1
  · subst hpool
    rw [Walk.visit, if_pos rfl] at h
    cases hstrings : poolStrings chunk header with
    | error e =>
        rw [hstrings] at h
        cases h
    | ok names =>
        rw [hstrings] at h
        refine ⟨strings ++ names, ?_⟩
        rw [← keepOrSkip_taken s strings (by decide)]
        cases h
        rfl
  · rw [Walk.visit, if_neg hpool] at h
    simp only [pure_eq_ok, ok_bind] at h
    by_cases hstart : kind = 0x102
    · subst hstart
      exact ⟨strings, startElement_taken s h⟩
    · rw [if_neg hstart] at h
      cases h
      exact ⟨strings, keepOrSkip_taken s strings hstart⟩

theorem walk_taken {manifest : Bytes} {offset : Nat} {w w' : Walk} (s : Pruned Taken)
    (strings : List String) (hw : w = ofTaken strings s) (h : walk manifest offset w = .ok w') :
    ∃ names, w' = ofTaken names (prune Taken.tag s (taken manifest offset w)) := by
  induction offset, w using walk.induct manifest generalizing s strings with
  | case1 offset w hinside e hread =>
      rw [walk, if_pos hinside, hread] at h
      cases h
  | case2 offset w hinside kind header length hread hbad =>
      rw [walk, if_pos hinside, hread] at h
      simp only [if_pos hbad] at h
      cases h
  | case3 offset w hinside kind header length hread hgood e hvisit =>
      rw [walk, if_pos hinside, hread] at h
      simp only [if_neg hgood, hvisit] at h
      cases h
  | case4 offset w hinside kind header length hread hgood w1 hvisit ih =>
      rw [walk, if_pos hinside, hread] at h
      simp only [if_neg hgood, hvisit] at h
      rw [taken, if_pos hinside, hread]
      simp only [if_neg hgood, hvisit, prune_cons]
      have hstep := hvisit
      rw [hw] at hstep ⊢
      rcases visit_taken s hstep with ⟨names, hw1⟩
      exact ih _ names hw1 h
  | case5 offset w hinside =>
      rw [walk, if_neg hinside] at h
      cases h
      rw [taken, if_neg hinside]
      exact ⟨strings, hw⟩

end Pass

/-! ## The result -/

/-- The header size that the header of the manifest gives. -/
def headerSize (manifest : Bytes) : Nat := (u16At manifest 2).getD 0

def takenChunks (manifest : Bytes) : List Taken := taken manifest (headerSize manifest) Walk.start

/-- One closed range of an overlay was cut out between `front` and `back`, which name no other; `head`
is the header with its size field for the new length.  The size is asked of the header, so that a
header too short to hold the field has none, whatever the bytes behind it say. -/
structure Cut (manifest new : Bytes) (front range back : List Taken) (head : Bytes) : Prop where
  chunks : takenChunks manifest = front ++ range ++ back
  closed : Closed Taken.tag range
  others : ∀ t ∈ front ++ back, t.tag ≠ .start true
  result : new = head ++ bytesOf (front ++ back)
  header : head.length = headerSize manifest
  fields : ∀ i, i < 4 ∨ 8 ≤ i → head[i]? = (manifest.take (headerSize manifest))[i]?
  size : u32At head 4 = some new.length

def Removed (manifest new : Bytes) : Prop := ∃ front range back head, Cut manifest new front range back head

section Result

variable {manifest new : Bytes}

/-- What holds when nothing is raised. -/
theorem removeImsOverlay_ok (h : removeImsOverlay manifest = .ok new) :
    ∃ w, walk manifest (headerSize manifest) Walk.start = .ok w ∧ w.removed = 1 ∧ w.depth = 0 ∧
      packLength (manifest.take (headerSize manifest) ++ w.chunks.flatten) = .ok new := by
  rw [removeImsOverlay] at h
  cases hread : unpackHHI manifest 0 with
  | error e =>
      rw [hread] at h
      cases h
  | ok fields =>
      rcases fields with ⟨kind, header, size⟩
      rw [hread, ok_bind] at h
      have hheader : headerSize manifest = header := by
        rw [headerSize, (unpackHHI_ok hread).2.1]
        rfl
      rw [hheader]
      by_cases hbad : kind ≠ 3 ∨ size ≠ manifest.length
      · simp only [if_pos hbad] at h
        cases h
      · simp only [if_neg hbad] at h
        cases hwalk : walk manifest header Walk.start with
        | error e =>
            rw [hwalk] at h
            cases h
        | ok w =>
            rw [hwalk, ok_bind] at h
            by_cases hcount : w.removed ≠ 1 ∨ w.depth ≠ 0
            · simp only [if_pos hcount] at h
              cases h
            · simp only [if_neg hcount] at h
              exact ⟨w, rfl, by omega, by omega, h⟩

theorem packLength_ok {patched : Bytes} (h : packLength patched = .ok new) :
    8 ≤ patched.length ∧ patched.length < 2 ^ 32 ∧
      new = overwrite patched 4 (pack32 patched.length) := by
  rw [packLength] at h
  by_cases hbad : patched.length < 8 ∨ 2 ^ 32 ≤ patched.length
  · rw [if_pos hbad] at h
    cases h
  · rw [if_neg hbad] at h
    cases h
    exact ⟨by omega, by omega, rfl⟩

/-- The chunks of a manifest that is not rejected. -/
theorem takenChunks_cut (h : removeImsOverlay manifest = .ok new) :
    ∃ front range back, takenChunks manifest = front ++ range ++ back ∧ Closed Taken.tag range ∧
      (∀ t ∈ front ++ back, t.tag ≠ .start true) ∧
      packLength (manifest.take (headerSize manifest) ++ bytesOf (front ++ back)) = .ok new := by
  rcases removeImsOverlay_ok h with ⟨w, hwalk, hremoved, hdepth, hpack⟩
  rcases walk_taken ⟨[], 0, 0⟩ [] rfl hwalk with ⟨names, hw⟩
  have hw : w = ofTaken names (prune Taken.tag ⟨[], 0, 0⟩ (takenChunks manifest)) := hw
  have hpass : ∃ kept, prune Taken.tag ⟨[], 0, 0⟩ (takenChunks manifest) = ⟨kept, 1, 0⟩ ∧
      w.chunks = kept.map Taken.bytes := by
    rw [hw] at hremoved hdepth ⊢
    generalize prune Taken.tag ⟨[], 0, 0⟩ (takenChunks manifest) = s at *
    rcases s with ⟨kept, removed, depth⟩
    cases hremoved
    cases hdepth
    exact ⟨kept, rfl, rfl⟩
  rcases hpass with ⟨kept, hprune, hkeptOf⟩
  rcases prune_one hprune with ⟨front, range, back, hchunks, hclosed, hkept, hothers⟩
  have hflatten : w.chunks.flatten = bytesOf (front ++ back) := by
    rw [hkeptOf, hkept, List.nil_append, bytesOf, List.flatMap_def]
  rw [hflatten] at hpack
  exact ⟨front, range, back, hchunks, hclosed, hothers, hpack⟩

/-- The walk that took a chunk began inside the manifest. -/
theorem headerSize_lt (h : takenChunks manifest ≠ []) : headerSize manifest < manifest.length := by
  by_contra hout
  rw [takenChunks, taken, if_neg hout] at h
  exact h rfl

/-- A manifest that is not rejected is cut when its header has a size field. -/
theorem removed_iff (h : removeImsOverlay manifest = .ok new) :
    Removed manifest new ↔ 8 ≤ headerSize manifest := by
  constructor
  · rintro ⟨front, range, back, head, hcut⟩
    have hbound := u32At_bound hcut.size
    rw [hcut.header] at hbound
    omega
  · intro height
    rcases takenChunks_cut h with ⟨front, range, back, hchunks, hclosed, hothers, hpack⟩
    have hinside : headerSize manifest < manifest.length := by
      refine headerSize_lt fun hnil => ?_
      rcases hclosed.opens with ⟨x, rest, rfl, _⟩
      rw [hchunks] at hnil
      simp at hnil
    have hlength : (manifest.take (headerSize manifest)).length = headerSize manifest := by
      rw [List.length_take]
      omega
    rcases packLength_ok hpack with ⟨_, hlt, hnew⟩
    generalize hsize : (manifest.take (headerSize manifest) ++ bytesOf (front ++ back)).length = size at *
    have hfield : (pack32 size).length = 4 := rfl
    rw [overwrite_append _ _ (by rw [hfield, hlength]; exact height)] at hnew
    have hhead : (overwrite (manifest.take (headerSize manifest)) 4 (pack32 size)).length =
        headerSize manifest := by
      rw [length_overwrite _ (by rw [hfield, hlength]; exact height), hlength]
    refine ⟨front, range, back, _, hchunks, hclosed, hothers, hnew, hhead, fun i hi => ?_, ?_⟩
    · rw [getElem?_overwrite (by rw [hfield, hlength]; exact height), hfield, if_neg (by omega)]
    · have hnewLength : new.length = size := by
        rw [hnew, List.length_append, hhead, ← hsize, List.length_append, hlength]
      rw [hnewLength, u32At_overwrite hlt (by omega)]

end Result

end Ims
end M2391Device
