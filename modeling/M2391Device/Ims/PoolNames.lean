import M2391Device.Ims.Overlay

/-!
# PoolNames — the names that a string pool gives to elements

The pool branch of the loop appends the names of any layout (`pool_inverts`), and every list of names
that fits the format has one, with styles behind it (`layOut_layout`).
-/

namespace M2391Device
namespace Ims

open LittleEndian Text

/-! ## A layout -/

def Encoding.flags : Encoding → Nat
  | .utf8 => 0x100
  | .utf16 => 0

variable (enc : Encoding)

def dataOf (names : List String) : Bytes := names.flatMap enc.entry

/-- The places of the strings, when the first stands at `place`. -/
def offsetsFrom : Nat → List String → List Nat
  | _, [] => []
  | place, name :: names => place :: offsetsFrom (place + (enc.entry name).length) names

def tableOf (names : List String) : Bytes := (offsetsFrom enc 0 names).flatMap pack32

/-- The header of a pool of `size` bytes. -/
def poolHeader (count size : Nat) : Bytes :=
  [1, 0, 28, 0] ++ pack32 size ++ pack32 count ++ pack32 0 ++ pack32 enc.flags ++
    pack32 (28 + 4 * count) ++ pack32 0

/-- A pool with the strings one behind the other, and styles at the end. -/
def layOut (names : List String) (styles : Bytes) : Bytes :=
  poolHeader enc names.length
      (28 + 4 * names.length + (dataOf enc names).length + styles.length) ++
    (tableOf enc names ++ (dataOf enc names ++ styles))

section Layout

variable {enc} {names : List String} {styles : Bytes}

/-- An entry of a table of numbers. -/
theorem u32At_table {numbers : List Nat} (hnumbers : ∀ n ∈ numbers, n < 2 ^ 32) {i n : Nat}
    (hn : numbers[i]? = some n) (rest : Bytes) :
    u32At (numbers.flatMap pack32 ++ rest) (4 * i) = some n := by
  induction numbers generalizing i with
  | nil => cases hn
  | cons first numbers ih =>
      rw [List.flatMap_cons, List.append_assoc]
      cases i with
      | zero =>
          cases hn
          exact u32?_pack32 (hnumbers _ List.mem_cons_self) _
      | succ i =>
          have hread := u32At_append_right (pack32 first) (numbers.flatMap pack32 ++ rest) (4 * i)
          have hplace : (pack32 first).length + 4 * i = 4 * (i + 1) := by
            rw [length_pack32]
            omega
          rw [hplace] at hread
          rw [hread]
          exact ih (fun m hm => hnumbers m (List.mem_cons_of_mem first hm)) hn

theorem length_offsetsFrom (place : Nat) (names : List String) :
    (offsetsFrom enc place names).length = names.length := by
  induction names generalizing place with
  | nil => rfl
  | cons name names ih => rw [offsetsFrom, List.length_cons, ih, List.length_cons]

theorem length_table (names : List String) : (tableOf enc names).length = 4 * names.length := by
  have hoffsets : (offsetsFrom enc 0 names).length = names.length := length_offsetsFrom 0 names
  rw [← hoffsets, tableOf]
  induction offsetsFrom enc 0 names with
  | nil => rfl
  | cons n numbers ih =>
      rw [List.flatMap_cons, List.length_append, ih, length_pack32, List.length_cons]
      omega

/-- A string stands where its entry in the table says. -/
theorem entry_at {i : Nat} {name : String} (hname : names[i]? = some name) (place : Nat)
    (rest : Bytes) :
    ∃ k ≤ (dataOf enc names).length, (offsetsFrom enc place names)[i]? = some (place + k) ∧
      enc.entry name <+: (dataOf enc names ++ rest).drop k := by
  induction names generalizing i place with
  | nil => cases hname
  | cons first names ih =>
      have hdata : dataOf enc (first :: names) = enc.entry first ++ dataOf enc names :=
        List.flatMap_cons
      rw [hdata]
      cases i with
      | zero =>
          cases hname
          refine ⟨0, Nat.zero_le _, rfl, ?_⟩
          rw [List.append_assoc]
          exact List.prefix_append _ _
      | succ i =>
          rcases ih hname (place + (enc.entry first).length) with ⟨k, hk, hoffset, hentry⟩
          refine ⟨(enc.entry first).length + k, ?_, ?_, ?_⟩
          · rw [List.length_append]
            omega
          · rw [← Nat.add_assoc]
            exact hoffset
          · rw [List.append_assoc, ← List.drop_drop, List.drop_left]
            exact hentry

theorem offsets_le (place : Nat) (names : List String) :
    ∀ n ∈ offsetsFrom enc place names, n ≤ place + (dataOf enc names).length := by
  intro n hn
  rcases List.mem_iff_getElem?.1 hn with ⟨i, hi⟩
  have hoffsets : (offsetsFrom enc place names).length = names.length := length_offsetsFrom place names
  have hbound : i < names.length := by
    rw [← hoffsets]
    exact (List.getElem?_eq_some_iff.1 hi).1
  rcases entry_at (List.getElem?_eq_getElem hbound) place [] with ⟨k, hk, hoffset, _⟩
  rw [hoffset] at hi
  cases hi
  omega

theorem poolHeader_fields {count : Nat} (size : Nat) (hcount : 28 + 4 * count < 2 ^ 32) :
    u32At (poolHeader enc count size) 8 = some count ∧
      u32At (poolHeader enc count size) 16 = some enc.flags ∧
      u32At (poolHeader enc count size) 20 = some (28 + 4 * count) := by
  have hflags : enc.flags < 2 ^ 32 := by cases enc <;> decide
  exact ⟨u32?_pack32 (by omega) _, u32?_pack32 hflags _, u32?_pack32 hcount _⟩

theorem length_layOut : (layOut enc names styles).length =
    28 + 4 * names.length + (dataOf enc names).length + styles.length := by
  have hheader : ∀ count size, (poolHeader enc count size).length = 28 := fun _ _ => rfl
  rw [layOut, List.length_append, List.length_append, List.length_append, hheader, length_table]
  omega

/-- Every list of names whose lengths fit has a layout. -/
def layOut_layout (hfits : ∀ name ∈ names, enc.Fits name)
    (hsize : (layOut enc names styles).length < 2 ^ 32) :
    PoolLayout (layOut enc names styles) 28 names where
  flags := enc.flags
  start := 28 + 4 * names.length
  count_field := by
    rw [length_layOut] at hsize
    exact u32At_append_left (poolHeader_fields _ (by omega)).1 _
  flags_field := by
    rw [length_layOut] at hsize
    exact u32At_append_left (poolHeader_fields _ (by omega)).2.1 _
  start_field := by
    rw [length_layOut] at hsize
    exact u32At_append_left (poolHeader_fields _ (by omega)).2.2 _
  fits := by
    have henc : Encoding.ofFlags enc.flags = enc := by cases enc <;> rfl
    rw [henc]
    exact hfits
  entries := by
    intro i hi
    have henc : Encoding.ofFlags enc.flags = enc := by cases enc <;> rfl
    rw [length_layOut] at hsize
    have hplace : ∃ k ≤ (dataOf enc names).length, (offsetsFrom enc 0 names)[i]? = some (0 + k) ∧
        enc.entry names[i] <+: (dataOf enc names ++ styles).drop k :=
      entry_at (List.getElem?_eq_getElem hi) 0 styles
    rcases hplace with ⟨k, hk, hoffset, hentry⟩
    rw [Nat.zero_add] at hoffset
    have hlt : ∀ n ∈ offsetsFrom enc 0 names, n < 2 ^ 32 := fun n hn => by
      have hle : n ≤ 0 + (dataOf enc names).length := offsets_le 0 names n hn
      omega
    refine ⟨k, ?_, ?_⟩
    · have hread := u32At_append_right (poolHeader enc names.length
        (28 + 4 * names.length + (dataOf enc names).length + styles.length))
        (tableOf enc names ++ (dataOf enc names ++ styles)) (4 * i)
      exact hread.trans (u32At_table hlt hoffset _)
    · have hfront : (poolHeader enc names.length
          (28 + 4 * names.length + (dataOf enc names).length + styles.length) ++
          tableOf enc names).length = 28 + 4 * names.length := by
        rw [List.length_append, length_table]
        rfl
      have hdrop : (layOut enc names styles).drop (28 + 4 * names.length) = dataOf enc names ++ styles := by
        rw [layOut, ← List.append_assoc]
        exact List.drop_left' hfront
      rw [henc, ← List.drop_drop, hdrop]
      exact hentry

/-- Decoding what was laid out gives it back. -/
theorem poolStrings_layOut (hfits : ∀ name ∈ names, enc.Fits name)
    (hsize : (layOut enc names styles).length < 2 ^ 32) :
    poolStrings (layOut enc names styles) 28 = .ok names :=
  (layOut_layout hfits hsize).poolStrings

end Layout

/-! ## Names -/

/-- The name of a start element: `strings[struct.unpack_from('<I', chunk, 20)[0]]`. -/
def elementNameIn (strings : List String) (element : Bytes) : Except PyError String := do
  let index ← unpackI element 20
  orRaise .indexError strings[index]?

/-- The branch for a start element looks its name up so, and then decides. -/
theorem startElement_eq (w : Walk) (kind : Nat) (element : Bytes) :
    w.startElement kind element = do
      let name ← elementNameIn w.strings element
      if w.depth ≠ 0 ∨ name = "overlay" then
        return { w with
          removed := if w.depth = 0 then w.removed + 1 else w.removed
          depth := w.depth + 1 }
      else return w.keepOrSkip kind element := by
  rw [Walk.startElement, elementNameIn]
  cases unpackI element 20 <;> rfl

/-- The pool branch appends the names of any layout in their order, and from then on the index of a
name is resolved to it. -/
theorem pool_inverts {chunk : Bytes} {headerSize : Nat} {names : List String}
    (pool : PoolLayout chunk headerSize names) (w : Walk) :
    ∃ w', w.visit 1 headerSize chunk = .ok w' ∧ w'.strings = w.strings ++ names ∧
      w'.removed = w.removed ∧ w'.depth = w.depth ∧
      ∀ (i : Nat) (name : String) (element : Bytes), names[i]? = some name →
        u32At element 20 = some (w.strings.length + i) →
          elementNameIn w'.strings element = .ok name := by
  have hstrings := pool.poolStrings
  have hvisit : w.visit 1 headerSize chunk =
      .ok (Walk.keepOrSkip { w with strings := w.strings ++ names } 1 chunk) := by
    rw [Walk.visit, if_pos rfl, hstrings]
    rfl
  have hkept : ∀ v : Walk, (v.keepOrSkip 1 chunk).strings = v.strings ∧
      (v.keepOrSkip 1 chunk).removed = v.removed ∧ (v.keepOrSkip 1 chunk).depth = v.depth := by
    intro v
    by_cases hdepth : v.depth = 0
    · simp [Walk.keepOrSkip, hdepth]
    · simp [Walk.keepOrSkip, hdepth]
  rcases hkept { w with strings := w.strings ++ names } with ⟨hnames, hremoved, hdepth⟩
  refine ⟨_, hvisit, hnames, hremoved, hdepth, fun i name element hname hindex => ?_⟩
  have hread : unpackI element 20 = .ok (w.strings.length + i) := by
    rw [unpackI, hindex]
    rfl
  rw [elementNameIn, hread, ok_bind, hnames, List.getElem?_append_right (by omega),
    Nat.add_sub_cancel_left, hname]
  rfl

/-- A name of 100 characters, so of one length byte, in 200 bytes, so of two. -/
def accents : String := String.ofList (List.replicate 100 'é')

theorem accents_lengths : (units accents).length = 100 ∧ (encodeUtf8 accents).length = 200 := by
  have hlist : accents.toList = List.replicate 100 'é' := String.toList_ofList
  have hunits : (unitsOf 'é').length = 1 := by decide
  have hbytes : (String.utf8EncodeChar 'é').length = 2 := by decide
  rw [units, encodeUtf8, hlist, List.length_flatMap, List.length_flatMap, List.map_replicate,
    List.map_replicate, hunits, hbytes, List.sum_replicate_nat, List.sum_replicate_nat]
  exact ⟨rfl, rfl⟩

theorem pool_inverts_accents :
    (length8 (units accents).length).length = 1 ∧ (length8 (encodeUtf8 accents).length).length = 2 ∧
      ∃ w', Walk.start.visit 1 28 (layOut .utf8 ["manifest", accents] [0xff, 0xff, 0xff, 0xff]) = .ok w' ∧
        elementNameIn w'.strings (startBytes 1) = .ok accents := by
  rcases accents_lengths with ⟨hunits, hbytes⟩
  have hfits : ∀ name ∈ ["manifest", accents], Encoding.utf8.Fits name := by
    intro name hname
    rcases List.mem_pair.1 hname with rfl | rfl
    · exact ⟨by decide, by decide⟩
    · rw [Encoding.Fits, hunits, hbytes]
      decide
  have hentry : (Encoding.utf8.entry accents).length = 203 := by
    rw [Encoding.entry, List.length_append, List.length_append, hunits, hbytes]
    rfl
  have hentry' : (Encoding.utf8.entry "manifest").length = 10 := by decide
  have hsize : (layOut .utf8 ["manifest", accents] [0xff, 0xff, 0xff, 0xff]).length < 2 ^ 32 := by
    have hdata : (dataOf .utf8 ["manifest", accents]).length = 213 := by
      rw [dataOf, List.flatMap_cons, List.flatMap_cons, List.length_append, List.length_append, hentry,
        hentry']
      rfl
    rw [length_layOut, hdata]
    decide
  rcases pool_inverts (layOut_layout hfits hsize) Walk.start with ⟨w', hvisit, _, _, _, hnames⟩
  refine ⟨?_, ?_, w', hvisit, hnames 1 accents _ rfl (by decide)⟩
  · rw [hunits]
    rfl
  · rw [hbytes]
    rfl

end Ims
end M2391Device
