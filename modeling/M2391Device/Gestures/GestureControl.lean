import Mathlib.Data.BitVec
import Mathlib.Data.List.DropRight
import M2391Device.Lib.Hex
import M2391Device.Lib.LittleEndian
import M2391Device.Lib.Program

/-!
# GestureControl — the mask of the touch panel node

`GestureControl.java`: `readMask` and `setGesturesEnabled` as programs over the operations on the node.
The node prints its mask in hexadecimal and may do anything with what is written to it.  Calls that
return leave the mask that the last of them asked for (`setGesturesEnabled_last`).
-/

namespace M2391Device
namespace Gestures

open LittleEndian

abbrev Bytes := List UInt8

/-! ## The node -/

/-- The exceptions that leave `setGesturesEnabled`. -/
inductive Thrown
  | device (message : String)
  | invalidMask (hex : List Char)
  | notPersisted
  deriving DecidableEq

/-- What is done to `NODE`. -/
inductive NodeOp
  | readAllBytes
  | openOutput
  | write (bytes : Bytes)
  | close
  deriving DecidableEq

def NodeOp.Res : NodeOp → Type
  | .readAllBytes => Except Thrown Bytes
  | .openOutput | .write _ | .close => Except Thrown Unit

/-- The text is the number in hexadecimal, of either case and any width, with blanks around it. -/
def Prints (text : Bytes) (n : Nat) : Prop :=
  ∃ before after upper width, (∀ b ∈ before ++ after, b ≤ 0x20) ∧
    text = before ++ (Hex.print upper width n).map (fun c => UInt8.ofNat c.toNat) ++ after

/-- A register of 32 bits whose reads print it.  A write may store anything, or nothing, and every
operation may fail; nobody else writes. -/
structure Node where
  State : Type
  mask : State → BitVec 32
  step : (o : NodeOp) → State → o.Res × State
  read_keeps : ∀ s, mask (step .readAllBytes s).2 = mask s
  read_prints : ∀ s text, (step .readAllBytes s).1 = .ok text → Prints text (mask s).toNat

/-! ## The functions -/

def ENABLE : BitVec 32 := 1 <<< 31
def DOUBLE_TAP : BitVec 32 := 1 <<< 4
def FINGERPRINT : BitVec 32 := 1 <<< 24

abbrev Control (α : Type) := Program NodeOp NodeOp.Res Thrown α

def ofExcept {α : Type} : Except Thrown α → Control α
  | .ok a => .pure a
  | .error e => .throw e

/-- `new String(bytes, StandardCharsets.US_ASCII)` -/
def decodeAscii (bytes : Bytes) : List Char :=
  bytes.map fun b => if b < 0x80 then Char.ofNat b.toNat else Char.ofNat 0xFFFD

/-- `trim()` -/
def trim (cs : List Char) : List Char :=
  (cs.dropWhile fun c => c.toNat ≤ 0x20).rdropWhile fun c => c.toNat ≤ 0x20

/-- `Integer.parseUnsignedInt(hex, 16)`, with nothing for a `NumberFormatException`. -/
def parseUnsignedInt (hex : List Char) : Option (BitVec 32) :=
  let parseDigits (digits : List Char) :=
    if digits = [] then none
    else (Hex.value? digits).bind fun n => if n < 2 ^ 32 then some (BitVec.ofNat 32 n) else none
  match hex with
  | '-' :: _ => none
  | '+' :: digits => parseDigits digits
  | digits => parseDigits digits

def readMask : Control (BitVec 32) :=
  .perform .readAllBytes fun answer => do
    let bytes ← ofExcept answer
    let hex := trim (decodeAscii bytes)
    match parseUnsignedInt hex with
    | none => .throw (.invalidMask hex)
    | some mask => .pure mask

/-- The mask that `setGesturesEnabled` computes from the current one. -/
def updatedMask (current : BitVec 32) (doubleTapEnabled fingerprintEnabled : Bool) : BitVec 32 :=
  let updated := current &&& ~~~(DOUBLE_TAP ||| FINGERPRINT)
  let updated := if doubleTapEnabled then updated ||| DOUBLE_TAP else updated
  let updated := if fingerprintEnabled then updated ||| FINGERPRINT else updated
  if updated &&& ~~~ENABLE = 0 then 0 else updated ||| ENABLE

/-- `ByteBuffer.allocate(4).order(ByteOrder.LITTLE_ENDIAN).putInt(v).array()` -/
def putInt (v : BitVec 32) : Bytes := pack32 v.toNat

/-- The `try` statement with the output stream, which is closed in any case. -/
def writeNode (bytes : Bytes) : Control Unit :=
  .perform .openOutput fun opened => do
    ofExcept opened
    .perform (.write bytes) fun written =>
      .perform .close fun closed => do
        ofExcept written
        ofExcept closed

def setGesturesEnabled (doubleTapEnabled fingerprintEnabled : Bool) : Control Unit := do
  let current ← readMask
  let updated := updatedMask current doubleTapEnabled fingerprintEnabled
  if updated = current then pure ()
  else do
    writeNode (putInt updated)
    let again ← readMask
    if again = updated then pure () else .throw .notPersisted

/-! ## The text of a mask -/

section Text

theorem decodeAscii_append (front back : Bytes) :
    decodeAscii (front ++ back) = decodeAscii front ++ decodeAscii back := List.map_append

/-- A digit is an ASCII character, and neither a blank nor a sign. -/
theorem digit_ascii {c : Char} (hc : (Hex.ofDigit c).isSome) :
    c.toNat < 0x80 ∧ ¬ c.toNat ≤ 0x20 ∧ c ≠ '-' ∧ c ≠ '+' := by
  have hrange : ∀ {a b : Char}, a ≤ c ∧ c ≤ b → a.toNat ≤ c.toNat ∧ c.toNat ≤ b.toNat := fun h => h
  have hcase : ∃ a b : Char, a.toNat ≤ c.toNat ∧ c.toNat ≤ b.toNat ∧ 0x30 ≤ a.toNat ∧ b.toNat < 0x80 := by
    rw [Hex.ofDigit] at hc
    by_cases h1 : '0' ≤ c ∧ c ≤ '9'
    · exact ⟨'0', '9', (hrange h1).1, (hrange h1).2, by decide, by decide⟩
    · by_cases h2 : 'a' ≤ c ∧ c ≤ 'f'
      · exact ⟨'a', 'f', (hrange h2).1, (hrange h2).2, by decide, by decide⟩
      · by_cases h3 : 'A' ≤ c ∧ c ≤ 'F'
        · exact ⟨'A', 'F', (hrange h3).1, (hrange h3).2, by decide, by decide⟩
        · rw [if_neg h1, if_neg h2, if_neg h3] at hc
          cases hc
  rcases hcase with ⟨a, b, hlow, hhigh, ha, hb⟩
  have hminus : '-'.toNat = 0x2d := rfl
  have hplus : '+'.toNat = 0x2b := rfl
  refine ⟨by omega, by omega, ?_, ?_⟩
  · rintro rfl
    omega
  · rintro rfl
    omega

theorem decodeAscii_digits {digits : List Char} (h : ∀ c ∈ digits, (Hex.ofDigit c).isSome) :
    decodeAscii (digits.map fun c => UInt8.ofNat c.toNat) = digits := by
  rw [decodeAscii, List.map_map]
  refine (List.map_congr_left fun c hc => ?_).trans (List.map_id digits)
  have hascii := (digit_ascii (h c hc)).1
  have hbyte : (UInt8.ofNat c.toNat).toNat = c.toNat := by
    rw [UInt8.toNat_ofNat']
    omega
  have hlt : UInt8.ofNat c.toNat < 0x80 := by
    rw [UInt8.lt_iff_toNat_lt, hbyte]
    exact hascii
  rw [Function.comp_apply, if_pos hlt, hbyte, Char.ofNat_toNat]
  rfl

theorem decodeAscii_blank {blanks : Bytes} (h : ∀ b ∈ blanks, b ≤ 0x20) :
    ∀ c ∈ decodeAscii blanks, c.toNat ≤ 0x20 := by
  intro c hc
  rcases List.mem_map.1 hc with ⟨b, hb, rfl⟩
  have hall : ∀ n ≤ 0x20, (Char.ofNat n).toNat ≤ 0x20 := by decide
  have hle : b.toNat ≤ 0x20 := h b hb
  have hlt : b < 0x80 := Nat.lt_of_le_of_lt hle (by decide)
  rw [if_pos hlt]
  exact hall b.toNat hle

/-- Blanks around digits are cut off. -/
theorem trim_digits {before digits after : List Char} (hbefore : ∀ c ∈ before, c.toNat ≤ 0x20)
    (hafter : ∀ c ∈ after, c.toNat ≤ 0x20) (hdigits : ∀ c ∈ digits, (Hex.ofDigit c).isSome)
    (hsome : digits ≠ []) : trim (before ++ digits ++ after) = digits := by
  -- a list that begins with a digit is not shortened from the front
  have hstop : ∀ front back : List Char, front ≠ [] → (∀ c ∈ front, (Hex.ofDigit c).isSome) →
      (front ++ back).dropWhile (fun c => c.toNat ≤ 0x20) = front ++ back := by
    intro front back hne hfront
    cases front with
    | nil => exact absurd rfl hne
    | cons c front =>
        have hc := (digit_ascii (hfront c List.mem_cons_self)).2.1
        exact List.dropWhile_cons_of_neg (by simpa using hc)
  have hleft : (before ++ digits ++ after).dropWhile (fun c => c.toNat ≤ 0x20) = digits ++ after := by
    rw [List.append_assoc, List.dropWhile_append_of_pos (by simpa using hbefore)]
    exact hstop digits after hsome hdigits
  have hright := hstop digits.reverse [] (by simpa using hsome) (by simpa using hdigits)
  rw [List.append_nil] at hright
  rw [trim, hleft, List.rdropWhile, List.reverse_append,
    List.dropWhile_append_of_pos (by simpa using hafter), hright, List.reverse_reverse]

theorem parseUnsignedInt_digits {digits : List Char} (hsome : digits ≠ [])
    (hdigits : ∀ c ∈ digits, (Hex.ofDigit c).isSome) {n : Nat} (hvalue : Hex.value? digits = some n)
    (hn : n < 2 ^ 32) : parseUnsignedInt digits = some (BitVec.ofNat 32 n) := by
  have hparse : (if digits = [] then none
      else (Hex.value? digits).bind fun n =>
        if n < 2 ^ 32 then some (BitVec.ofNat 32 n) else none) = some (BitVec.ofNat 32 n) := by
    rw [if_neg hsome, hvalue, Option.bind_some, if_pos hn]
  cases digits with
  | nil => exact absurd rfl hsome
  | cons c digits =>
      have hsign := (digit_ascii (hdigits c List.mem_cons_self)).2.2
      rw [parseUnsignedInt]
      · exact hparse
      · intro rest h
        cases h
        exact hsign.1 rfl
      · intro rest h
        cases h
        exact hsign.2 rfl

/-- The decoder reads what the node prints. -/
theorem parse_prints {text : Bytes} {m : BitVec 32} (h : Prints text m.toNat) :
    parseUnsignedInt (trim (decodeAscii text)) = some m := by
  rcases h with ⟨before, after, upper, width, hblank, rfl⟩
  have hdigits : ∀ c ∈ Hex.print upper width m.toNat, (Hex.ofDigit c).isSome :=
    fun c hc => Hex.isSome_of_mem_print hc
  have hsome := Hex.print_ne_nil upper width m.toNat
  rw [decodeAscii_append, decodeAscii_append, decodeAscii_digits hdigits,
    trim_digits (decodeAscii_blank fun b hb => hblank b (List.mem_append_left _ hb))
      (decodeAscii_blank fun b hb => hblank b (List.mem_append_right _ hb)) hdigits hsome,
    parseUnsignedInt_digits hsome hdigits (Hex.value?_print upper width m.toNat) m.isLt,
    BitVec.ofNat_toNat, BitVec.setWidth_eq]

end Text

/-! ## The new mask -/

/-- `m'` has the bits of the flags, the others of `m`, and is enabled if it has any. -/
structure Updated (m m' : BitVec 32) (doubleTapEnabled fingerprintEnabled : Bool) : Prop where
  doubleTap : m'.getLsbD 4 = doubleTapEnabled
  fingerprint : m'.getLsbD 24 = fingerprintEnabled
  others : ∀ i < 32, i ≠ 4 → i ≠ 24 → i ≠ 31 → m'.getLsbD i = m.getLsbD i
  enable : m'.getLsbD 31 = true ↔ ∃ i < 31, m'.getLsbD i = true

section Bits

variable {m m' : BitVec 32} {d f : Bool}

/-- The bits that are kept and the flags, before the mask is enabled. -/
def flagged (m : BitVec 32) (d f : Bool) : BitVec 32 :=
  let updated := m &&& ~~~(DOUBLE_TAP ||| FINGERPRINT)
  let updated := if d then updated ||| DOUBLE_TAP else updated
  if f then updated ||| FINGERPRINT else updated

theorem updatedMask_eq (m : BitVec 32) (d f : Bool) : updatedMask m d f =
    if flagged m d f &&& ~~~ENABLE = 0 then 0 else flagged m d f ||| ENABLE := rfl

theorem getLsbD_orIf (c : Bool) (v w : BitVec 32) (i : Nat) :
    (if c then v ||| w else v).getLsbD i = (v.getLsbD i || (c && w.getLsbD i)) := by
  cases c with
  | false => simp
  | true => simp

theorem getLsbD_flagged (m : BitVec 32) (d f : Bool) {i : Nat} (hi : i < 32) :
    (flagged m d f).getLsbD i = if i = 4 then d else if i = 24 then f else m.getLsbD i := by
  have hdouble : ∀ i < 32, DOUBLE_TAP.getLsbD i = decide (i = 4) := by decide
  have hfinger : ∀ i < 32, FINGERPRINT.getLsbD i = decide (i = 24) := by decide
  have hbits : (flagged m d f).getLsbD i =
      ((m.getLsbD i && !(decide (i = 4) || decide (i = 24))) || (d && decide (i = 4)) ||
        (f && decide (i = 24))) := by
    rw [flagged, getLsbD_orIf, getLsbD_orIf, BitVec.getLsbD_and, BitVec.getLsbD_not,
      BitVec.getLsbD_or, hdouble i hi, hfinger i hi]
    simp [hi]
  rw [hbits]
  by_cases h4 : i = 4
  · simp [h4]
  · by_cases h24 : i = 24
    · simp [h24]
    · simp [h4, h24]

theorem getLsbD_enable : ∀ i < 32, ENABLE.getLsbD i = decide (i = 31) := by decide

/-- Nothing but the enable bit is set. -/
theorem and_not_enable_eq_zero (v : BitVec 32) :
    v &&& ~~~ENABLE = 0 ↔ ∀ i < 31, v.getLsbD i = false := by
  constructor
  · intro h i hi
    have hbit : (v &&& ~~~ENABLE).getLsbD i = false := by
      rw [h]
      exact BitVec.getLsbD_zero
    have hi32 : decide (i < 32) = true := decide_eq_true (by omega)
    have h31 : decide (i = 31) = false := decide_eq_false (by omega)
    rw [BitVec.getLsbD_and, BitVec.getLsbD_not, getLsbD_enable i (by omega), hi32, h31] at hbit
    simpa only [Bool.not_false, Bool.and_true] using hbit
  · intro h
    refine BitVec.eq_of_getLsbD_eq fun i hi => ?_
    rw [BitVec.getLsbD_and, BitVec.getLsbD_not, getLsbD_enable i hi]
    by_cases h31 : i = 31
    · simp [h31]
    · rw [h i (by omega)]
      simp

theorem updatedMask_updated (m : BitVec 32) (d f : Bool) : Updated m (updatedMask m d f) d f := by
  -- below the enable bit the flags and the kept bits stay
  have hlow : ∀ i < 31, (updatedMask m d f).getLsbD i = (flagged m d f).getLsbD i := by
    intro i hi
    rw [updatedMask_eq]
    by_cases hzero : flagged m d f &&& ~~~ENABLE = 0
    · rw [if_pos hzero, (and_not_enable_eq_zero _).1 hzero i hi]
      simp
    · rw [if_neg hzero, BitVec.getLsbD_or, getLsbD_enable i (by omega)]
      simp [Nat.ne_of_lt hi]
  refine ⟨?_, ?_, fun i hi h4 h24 h31 => ?_, ?_⟩
  · rw [hlow 4 (by decide), getLsbD_flagged m d f (by decide), if_pos rfl]
  · rw [hlow 24 (by decide), getLsbD_flagged m d f (by decide), if_neg (by decide), if_pos rfl]
  · rw [hlow i (by omega), getLsbD_flagged m d f hi, if_neg h4, if_neg h24]
  · have hany : (∃ i < 31, (updatedMask m d f).getLsbD i = true) ↔
        ¬ flagged m d f &&& ~~~ENABLE = 0 := by
      rw [and_not_enable_eq_zero]
      constructor
      · rintro ⟨i, hi, hset⟩ hclear
        rw [hlow i hi, hclear i hi] at hset
        cases hset
      · intro hnot
        by_contra hnone
        refine hnot fun i hi => ?_
        rw [← hlow i hi]
        by_contra hset
        exact hnone ⟨i, hi, Bool.eq_true_of_not_eq_false hset⟩
    rw [hany, updatedMask_eq]
    by_cases hzero : flagged m d f &&& ~~~ENABLE = 0
    · rw [if_pos hzero]
      simp [hzero]
    · rw [if_neg hzero, BitVec.getLsbD_or, getLsbD_enable 31 (by decide), decide_eq_true rfl,
        Bool.or_true]
      exact iff_of_true rfl hzero

/-- The old mask and the flags determine the new one. -/
theorem Updated.unique (h : Updated m m' d f) : m' = updatedMask m d f := by
  have hcode := updatedMask_updated m d f
  have hlow : ∀ i < 31, m'.getLsbD i = (updatedMask m d f).getLsbD i := by
    intro i hi
    by_cases h4 : i = 4
    · rw [h4, h.doubleTap, hcode.doubleTap]
    · by_cases h24 : i = 24
      · rw [h24, h.fingerprint, hcode.fingerprint]
      · rw [h.others i (by omega) h4 h24 (by omega), hcode.others i (by omega) h4 h24 (by omega)]
  refine BitVec.eq_of_getLsbD_eq fun i hi => ?_
  by_cases h31 : i = 31
  · subst h31
    rw [Bool.eq_iff_iff, h.enable, hcode.enable]
    constructor
    · rintro ⟨i, hi, hset⟩
      exact ⟨i, hi, (hlow i hi).symm.trans hset⟩
    · rintro ⟨i, hi, hset⟩
      exact ⟨i, hi, (hlow i hi).trans hset⟩
  · exact hlow i (by omega)

/-- A later update forgets the flags of an earlier one. -/
theorem Updated.trans {m1 m2 : BitVec 32} {d' f' : Bool} (h1 : Updated m m1 d f)
    (h2 : Updated m1 m2 d' f') : Updated m m2 d' f' :=
  ⟨h2.doubleTap, h2.fingerprint, fun i hi h4 h24 h31 =>
    (h2.others i hi h4 h24 h31).trans (h1.others i hi h4 h24 h31), h2.enable⟩

end Bits

/-! ## One call -/

section Call

variable {node : Node} {s s' : node.State} {d f : Bool}

theorem ofExcept_performs {α : Type} (P : NodeOp → Prop) (x : Except Thrown α) :
    (ofExcept x).Performs P := by
  cases x with
  | ok a => trivial
  | error e => trivial

/-- A text that the node prints is read as its mask. -/
theorem readMask_answer {text : Bytes} (hanswer : (node.step .readAllBytes s).1 = .ok text) :
    readMask.run node.step s = (.ok (node.mask s), (node.step .readAllBytes s).2) := by
  have hparse := parse_prints (node.read_prints s text hanswer)
  have hrun : readMask.run node.step s =
      Program.run node.step (match parseUnsignedInt (trim (decodeAscii text)) with
        | none => .throw (.invalidMask (trim (decodeAscii text)))
        | some mask => .pure mask) (node.step .readAllBytes s).2 := by
    rw [readMask, Program.run, hanswer]
    rfl
  rw [hrun, hparse]
  rfl

/-- A read that succeeds gives the mask, and no read changes it. -/
theorem readMask_run (node : Node) (s : node.State) :
    ∃ t, node.mask t = node.mask s ∧
      (readMask.run node.step s = (.ok (node.mask s), t) ∨
        ∃ e, readMask.run node.step s = (.error e, t)) := by
  refine ⟨(node.step .readAllBytes s).2, node.read_keeps s, ?_⟩
  cases hanswer : (node.step .readAllBytes s).1 with
  | error e =>
      refine Or.inr ⟨e, ?_⟩
      rw [readMask, Program.run, hanswer]
      rfl
  | ok text => exact Or.inl (readMask_answer hanswer)

theorem readMask_ok {m : BitVec 32} (h : readMask.run node.step s = (.ok m, s')) :
    m = node.mask s ∧ node.mask s' = node.mask s := by
  rcases readMask_run node s with ⟨t, ht, hok | ⟨e, herror⟩⟩
  · rw [hok] at h
    cases h
    exact ⟨rfl, ht⟩
  · rw [herror] at h
    cases h

theorem readMask_performs : readMask.Performs (· = .readAllBytes) := by
  refine ⟨rfl, fun answer => Program.Performs.bind (ofExcept_performs _ _) fun text => ?_⟩
  dsimp only
  cases parseUnsignedInt (trim (decodeAscii text)) with
  | none => trivial
  | some mask => trivial

/-- A call that returns leaves the mask that it computed. -/
theorem setGesturesEnabled_ok (h : (setGesturesEnabled d f).run node.step s = (.ok (), s')) :
    node.mask s' = updatedMask (node.mask s) d f := by
  rcases Program.run_bind_ok_inv h with ⟨current, t, hread, hrest⟩
  rcases readMask_ok hread with ⟨rfl, ht⟩
  dsimp only at hrest
  by_cases hsame : updatedMask (node.mask s) d f = node.mask s
  · rw [if_pos hsame] at hrest
    cases hrest
    rw [ht, hsame]
  · rw [if_neg hsame] at hrest
    rcases Program.run_bind_ok_inv hrest with ⟨_, t1, _, hback⟩
    rcases Program.run_bind_ok_inv hback with ⟨again, t2, hagain, hcheck⟩
    rcases readMask_ok hagain with ⟨rfl, ht2⟩
    by_cases hkept : node.mask t1 = updatedMask (node.mask s) d f
    · rw [if_pos hkept] at hcheck
      cases hcheck
      rw [ht2, hkept]
    · rw [if_neg hkept] at hcheck
      cases hcheck

/-- What a call does to the node, besides reading it. -/
def Intended (current updated : BitVec 32) (o : NodeOp) : Prop :=
  o = .readAllBytes ∨ (updated ≠ current ∧ ∀ bytes, o = .write bytes → bytes = putInt updated)

theorem setGesturesEnabled_trace (node : Node) (s : node.State) (d f : Bool) :
    ∀ o ∈ (setGesturesEnabled d f).trace node.step s,
      Intended (node.mask s) (updatedMask (node.mask s) d f) o.1 := by
  have hreads : ∀ o ∈ readMask.trace node.step s,
      Intended (node.mask s) (updatedMask (node.mask s) d f) o.1 :=
    fun o ho => Or.inl (Program.Performs.trace readMask_performs o ho)
  rcases readMask_run node s with ⟨t, ht, hok | ⟨e, herror⟩⟩
  · rw [setGesturesEnabled, Program.trace_bind_ok hok]
    intro o ho
    rcases List.mem_append.1 ho with ho | ho
    · exact hreads o ho
    · by_cases hsame : updatedMask (node.mask s) d f = node.mask s
      · rw [if_pos hsame] at ho
        cases ho
      · rw [if_neg hsame] at ho
        refine Program.Performs.trace (P := Intended (node.mask s) (updatedMask (node.mask s) d f))
          ?_ o ho
        have hwrites : (writeNode (putInt (updatedMask (node.mask s) d f))).Performs
            (Intended (node.mask s) (updatedMask (node.mask s) d f)) := by
          refine ⟨Or.inr ⟨hsame, fun bytes h => by cases h⟩, fun opened =>
            Program.Performs.bind (ofExcept_performs _ _) fun _ => ?_⟩
          refine ⟨Or.inr ⟨hsame, fun bytes h => by cases h; rfl⟩, fun written => ?_⟩
          refine ⟨Or.inr ⟨hsame, fun bytes h => by cases h⟩, fun closed => ?_⟩
          exact Program.Performs.bind (ofExcept_performs _ _) fun _ => ofExcept_performs _ _
        refine Program.Performs.bind hwrites fun _ =>
          Program.Performs.bind (readMask_performs.mono fun o ho => Or.inl ho) fun again => ?_
        exact Program.Performs.ite (fun _ => trivial) fun _ => trivial
  · rw [setGesturesEnabled, Program.trace_bind_error herror]
    exact hreads

end Call

/-! ## Sequences of calls -/

def calls (flags : List (Bool × Bool)) : Control Unit :=
  Program.each (fun flag => setGesturesEnabled flag.1 flag.2) flags

section Calls

variable {node : Node} {s s' : node.State}

theorem calls_ok {flags : List (Bool × Bool)} {last : Bool × Bool}
    (h : (calls (flags ++ [last])).run node.step s = (.ok (), s')) :
    Updated (node.mask s) (node.mask s') last.1 last.2 := by
  induction flags generalizing s with
  | nil =>
      rcases Program.run_bind_ok_inv h with ⟨_, t, hcall, hrest⟩
      cases hrest
      rw [setGesturesEnabled_ok hcall]
      exact updatedMask_updated _ _ _
  | cons flag flags ih =>
      rcases Program.run_bind_ok_inv h with ⟨_, t, hcall, hrest⟩
      have hfirst := updatedMask_updated (node.mask s) flag.1 flag.2
      rw [← setGesturesEnabled_ok hcall] at hfirst
      exact hfirst.trans (ih hrest)

/-- After calls that all return the mask is determined by the first mask and the flags of the last call;
a call that would change nothing writes nothing, one that writes passes the four bytes of the new mask,
and one after which the node has another mask throws. -/
theorem setGesturesEnabled_last (node : Node) (s : node.State) :
    (∀ flags last s', (calls (flags ++ [last])).run node.step s = (.ok (), s') →
      Updated (node.mask s) (node.mask s') last.1 last.2 ∧
        node.mask s' = updatedMask (node.mask s) last.1 last.2) ∧
    (∀ d f, updatedMask (node.mask s) d f = node.mask s →
      ∀ o ∈ (setGesturesEnabled d f).trace node.step s, o.1 = .readAllBytes) ∧
    (∀ d f, ∀ o ∈ (setGesturesEnabled d f).trace node.step s, ∀ bytes, o.1 = .write bytes →
      bytes = putInt (updatedMask (node.mask s) d f)) ∧
    ∀ d f r s', (setGesturesEnabled d f).run node.step s = (r, s') →
      node.mask s' ≠ updatedMask (node.mask s) d f → ∃ e, r = .error e := by
  refine ⟨fun flags last s' h => ?_, fun d f hsame o ho => ?_, fun d f o ho bytes hbytes => ?_,
    fun d f r s' h hdiffers => ?_⟩
  · have hupdated := calls_ok h
    exact ⟨hupdated, hupdated.unique⟩
  · rcases setGesturesEnabled_trace node s d f o ho with hread | ⟨hchanges, _⟩
    · exact hread
    · exact absurd hsame hchanges
  · rcases setGesturesEnabled_trace node s d f o ho with hread | ⟨_, hintended⟩
    · rw [hread] at hbytes
      cases hbytes
    · exact hintended bytes hbytes
  · cases r with
    | error e => exact ⟨e, rfl⟩
    | ok u => exact absurd (setGesturesEnabled_ok h) hdiffers

end Calls

/-! ## A node that stores what is written -/

/-- It prints as `%x` does, and takes four bytes. -/
def register : Node where
  State := BitVec 32
  mask := id
  step
    | .readAllBytes, m =>
        (.ok ((Hex.print false 0 m.toNat).map (fun c => UInt8.ofNat c.toNat) ++ [0x0a]), m)
    | .write bytes, m =>
        if bytes.length = 4 then (.ok (), BitVec.ofNat 32 (value bytes))
        else (.error (.device "Invalid argument"), m)
    | .openOutput, m | .close, m => (.ok (), m)
  read_keeps := fun _ => rfl
  read_prints := by
    intro m text h
    cases h
    refine ⟨[], [0x0a], false, 0, ?_, rfl⟩
    intro b hb
    rw [List.mem_singleton.1 hb]
    decide

section Register

variable {m : BitVec 32}

theorem register_readMask (m : BitVec 32) : readMask.run register.step m = (.ok m, m) := by
  have hanswer : (register.step .readAllBytes m).1 =
      .ok ((Hex.print false 0 m.toNat).map (fun c => UInt8.ofNat c.toNat) ++ [0x0a]) := rfl
  exact readMask_answer hanswer

theorem register_writeNode (v m : BitVec 32) :
    (writeNode (putInt v)).run register.step m = (.ok (), v) := by
  have hstored : BitVec.ofNat 32 (value (putInt v)) = v := by
    rw [putInt, value_pack32 v.isLt, BitVec.ofNat_toNat, BitVec.setWidth_eq]
  have hrun : (writeNode (putInt v)).run register.step m =
      (.ok (), BitVec.ofNat 32 (value (putInt v))) := rfl
  rw [hrun, hstored]

/-- On such a node every call returns, whatever the mask is. -/
theorem register_call (m : BitVec 32) (d f : Bool) :
    ∃ m', (setGesturesEnabled d f).run register.step m = (.ok (), m') := by
  by_cases hsame : updatedMask m d f = m
  · refine ⟨m, ?_⟩
    rw [setGesturesEnabled, Program.run_bind_ok (register_readMask m)]
    dsimp only
    rw [if_pos hsame]
    rfl
  · refine ⟨updatedMask m d f, ?_⟩
    rw [setGesturesEnabled, Program.run_bind_ok (register_readMask m)]
    dsimp only
    rw [if_neg hsame, Program.run_bind_ok (register_writeNode _ m),
      Program.run_bind_ok (register_readMask _), if_pos rfl]
    rfl

theorem register_calls (flags : List (Bool × Bool)) (m : BitVec 32) :
    ∃ m', (calls flags).run register.step m = (.ok (), m') := by
  induction flags generalizing m with
  | nil => exact ⟨m, rfl⟩
  | cons flag flags ih =>
      rcases register_call m flag.1 flag.2 with ⟨m1, hcall⟩
      rcases ih m1 with ⟨m', hrest⟩
      exact ⟨m', (Program.run_bind_ok hcall).trans hrest⟩

theorem setGesturesEnabled_last_register :
    (calls ([(true, true)] ++ [(false, true)])).run register.step (0x80000050 : BitVec 32) =
      (.ok (), (0x81000040 : BitVec 32)) := by
  rcases register_calls ([(true, true)] ++ [(false, true)]) 0x80000050 with ⟨m', hrun⟩
  have hlast := ((setGesturesEnabled_last register (0x80000050 : BitVec 32)).1 _ _ m' hrun).2
  have hmask : updatedMask 0x80000050 false true = 0x81000040 := by decide
  rw [hrun]
  exact congrArg (Prod.mk (Except.ok ())) (hlast.trans hmask)

end Register

end Gestures
end M2391Device
