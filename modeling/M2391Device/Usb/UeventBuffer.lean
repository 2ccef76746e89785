import M2391Device.Lib.CStrings
import M2391Device.Usb.UeventRuns
import Mathlib.Data.List.GetD
import Mathlib.Data.List.TakeWhile

/-!
# UeventBuffer — the positions that are read of a received datagram

`uevent_event` appends two NULs to the bytes it has received and then works on C strings.  Here its
conditions, the suffix test of `handle_typec_uevent` and the key scan of `handle_psy_uevent` are
written on the buffer itself.  They come to the same result as `dispatch`, `isPartnerAdded` and
`supplyName?`, and read nothing outside the bytes and the two terminators (`reads_datagram`).
-/

namespace M2391Device
namespace UsbHal

open CStrings (Reader Scans StringAt startsWith equals strlen strstr chars byte look)

/-! ## The functions on the buffer -/

/-- `std::regex_match(msg, match, pattern)` -/
def regexMatch (rounds : Nat) (pattern : Regex Char) (msg : Int) :
    Reader (Option (Regex.Captures Char)) := do
  let length ← strlen rounds msg
  let text ← chars length msg
  return pattern.fullMatch text

/-- `!usb->mIgnoreWakeup && std::regex_match(msg, match, bind_regex)` -/
def matchBind (rounds : Nat) (mIgnoreWakeup : Bool) (msg : Int) :
    Reader (Option (Regex.Captures Char)) :=
  if mIgnoreWakeup then return none else regexMatch rounds bind_regex msg

/-- `std::regex_match(msg, match, udc_regex) && strstr(msg, gadgetName.c_str())` -/
def matchUdc (rounds : Nat) (gadgetName : Text) (msg : Int) : Reader Bool := do
  let found ← regexMatch rounds udc_regex msg
  if found.isSome then strstr rounds (c_str gadgetName) msg else return false

/-- The conditions of `uevent_event`, in order. -/
def dispatchBuffer (rounds : Nat) (mIgnoreWakeup : Bool) (gadgetName : Text) (msg : Int) :
    Reader Branch := do
  let typec ← strstr rounds "typec/port".toList msg
  if typec then return .typec
  else
    let powerSupply ← strstr rounds "power_supply/usb".toList msg
    if powerSupply then return .powerSupply
    else
      match ← regexMatch rounds add_regex msg with
      | some m => return .add (m.str 1)
      | none =>
      match ← matchBind rounds mIgnoreWakeup msg with
      | some m => return .bind (m.str 1) (m.str 2)
      | none =>
      let udc ← matchUdc rounds gadgetName msg
      if udc then return .udc
      else
        match ← regexMatch rounds offline_regex msg with
        | some m => return .offline (m.str 1) (m.str 2)
        | none =>
        match ← regexMatch rounds bus_reset_regex msg with
        | some m => return .busReset (m.str 1) (m.str 2)
        | none =>
        match ← regexMatch rounds remove_regex msg with
        | some m => return .remove (m.str 1) (m.str 2)
        | none =>
        let backlight ← regexMatch rounds backlight_regex msg
        return if backlight.isSome then .backlight else .ignored

/-- `!strncmp(msg, "add@", 4) && !strncmp(msg + strlen(msg) - 8, "-partner", 8)` -/
def partnerSuffix (rounds : Nat) (msg : Int) : Reader Bool := do
  let added ← startsWith "add@".toList msg
  if added then
    let length ← strlen rounds msg
    startsWith "-partner".toList (msg + length - 8)
  else return false

/-- `while (*msg++);` -/
def skipKey : Nat → Int → Reader Int
  | 0, _ => .throw .unfinished
  | rounds + 1, msg => do
      let c ← byte msg
      if c = CStrings.NUL then return msg + 1 else skipKey rounds (msg + 1)

/-- The key scan of `handle_psy_uevent`: whether the function goes on after it. -/
def keyScan : Nat → Int → Reader Bool
  | 0, _ => .throw .unfinished
  | rounds + 1, msg => do
      let c ← byte msg
      if c = CStrings.NUL then return true
      else
        let name ← startsWith "POWER_SUPPLY_NAME=".toList msg
        if name then equals "usb".toList (msg + 18)
        else
          let next ← skipKey (rounds + 1) msg
          keyScan rounds next

/-- What is read of a datagram in `msg` by the conditions and by the branch that is taken. -/
def readDatagram (rounds : Nat) (mIgnoreWakeup : Bool) (gadgetName : Text) (msg : Int) :
    Reader Branch := do
  let branch ← dispatchBuffer rounds mIgnoreWakeup gadgetName msg
  match branch with
  | .typec =>
      let _ ← partnerSuffix rounds msg
      return branch
  | .powerSupply =>
      let length ← strlen rounds msg
      let _ ← keyScan rounds (msg + length + 1)
      return branch
  | .udc =>
      let added ← startsWith "add".toList msg
      if added then return branch
      else
        let _ ← startsWith "remove".toList msg
        return branch
  | _ => return branch

/-! ## The text they work on -/

section Texts

variable {mem : Int → Char} {P : Int → Prop} {msg : Int} {text : Text} {rounds : Nat}

theorem contains_iff (part text : Text) : contains part text = true ↔ part <:+: text := by
  rw [contains, List.any_eq_true]
  constructor
  · rintro ⟨tail, htail, hbegins⟩
    exact (List.isPrefixOf_iff_prefix.1 hbegins).isInfix.trans ((List.mem_tails _ _).1 htail).isInfix
  · rintro ⟨before, after, rfl⟩
    refine ⟨part ++ after, (List.mem_tails _ _).2 ⟨before, by simp⟩, ?_⟩
    exact List.isPrefixOf_iff_prefix.2 (List.prefix_append _ _)

theorem nul_c_str (name : Text) : CStrings.NUL ∉ c_str name := by
  intro hmem
  have hne := List.mem_takeWhile_imp hmem
  simp [CStrings.NUL] at hne

theorem strstr_contains {part : Text} (h : StringAt mem msg text) (hrounds : text.length < rounds)
    (hpart : CStrings.NUL ∉ part) (hP : ∀ q, msg ≤ q → q ≤ msg + text.length → P q) :
    Scans mem P (strstr rounds part msg) fun b => b = contains part text := by
  refine (CStrings.strstr_scans h hrounds hpart hP).mono (fun _ => id) fun b hb => ?_
  rw [Bool.eq_iff_iff, contains_iff]
  exact hb

theorem regexMatch_scans {pattern : Regex Char} (h : StringAt mem msg text)
    (hrounds : text.length < rounds) (hP : ∀ q, msg ≤ q → q ≤ msg + text.length → P q) :
    Scans mem P (regexMatch rounds pattern msg) fun m => m = pattern.fullMatch text := by
  refine .bind (CStrings.strlen_scans h hrounds hP) fun length hlength => ?_
  subst hlength
  refine .bind (CStrings.chars_scans h hP) fun cs hcs => ?_
  exact .pure (by rw [hcs])

/-- The conditions take the branch that `dispatch` says. -/
theorem dispatchBuffer_scans {mIgnoreWakeup : Bool} {gadgetName : Text} (h : StringAt mem msg text)
    (hrounds : text.length < rounds) (hP : ∀ q, msg ≤ q → q ≤ msg + text.length → P q) :
    Scans mem P (dispatchBuffer rounds mIgnoreWakeup gadgetName msg) fun branch =>
      branch = dispatch mIgnoreWakeup (c_str gadgetName) text := by
  have hmatch : ∀ pattern, Scans mem P (regexMatch rounds pattern msg) fun m =>
      m = pattern.fullMatch text := fun pattern => regexMatch_scans h hrounds hP
  refine .bind (strstr_contains h hrounds (by decide) hP) fun typec htypec => ?_
  subst htypec
  rw [dispatch]
  refine .ite (fun hc => .pure (if_pos hc).symm) fun hc => ?_
  rw [if_neg hc]
  refine .bind (strstr_contains h hrounds (by decide) hP) fun powerSupply hpower => ?_
  subst hpower
  refine .ite (fun hc => .pure (if_pos hc).symm) fun hc => ?_
  rw [if_neg hc]
  refine .bind (hmatch _) fun m hm => ?_
  rw [← hm]
  rcases m with _ | m
  swap
  · exact .pure rfl
  -- the flag is looked at before the expression, and the name of the gadget after it
  have hbind : Scans mem P (matchBind rounds mIgnoreWakeup msg) fun m =>
      m = if mIgnoreWakeup then none else bind_regex.fullMatch text :=
    .ite (fun hc => .pure (by rw [if_pos hc])) fun hc => by
      rw [if_neg hc]
      exact hmatch _
  refine .bind hbind fun m hm => ?_
  rw [← hm]
  rcases m with _ | m
  swap
  · exact .pure rfl
  have hudc : Scans mem P (matchUdc rounds gadgetName msg) fun b =>
      b = true ↔ (udc_regex.fullMatch text).isSome ∧ contains (c_str gadgetName) text := by
    refine .bind (hmatch _) fun m hm => ?_
    subst hm
    refine .ite (fun hsome => ?_) fun hnone => .pure (by simp [hnone])
    refine (strstr_contains h hrounds (nul_c_str _) hP).mono (fun _ => id) fun b hb => ?_
    simp [hb, hsome]
  refine .bind hudc fun udc hiff => ?_
  refine .ite (fun hc => .pure (if_pos (hiff.1 hc)).symm) fun hc => ?_
  -- the other expressions are tried one after the other, whatever the flag and the name are
  have hno : ¬ ((udc_regex.fullMatch text).isSome = true ∧
      contains (c_str gadgetName) text = true) := fun hboth => hc (hiff.2 hboth)
  simp only [if_neg hno]
  refine .bind (hmatch _) fun m hm => ?_
  rw [← hm]
  rcases m with _ | m
  swap
  · exact .pure rfl
  refine .bind (hmatch _) fun m hm => ?_
  rw [← hm]
  rcases m with _ | m
  swap
  · exact .pure rfl
  refine .bind (hmatch _) fun m hm => ?_
  rw [← hm]
  rcases m with _ | m
  swap
  · exact .pure rfl
  refine .bind (hmatch _) fun m hm => ?_
  exact .pure (by rw [hm])

theorem contains_of_typec {mIgnoreWakeup : Bool} {gadgetName : Text}
    (h : dispatch mIgnoreWakeup gadgetName text = .typec) : contains "typec/port" text = true := by
  by_contra hno
  rw [dispatch, if_neg hno] at h
  generalize contains "power_supply/usb" text = powerSupply at h
  generalize add_regex.fullMatch text = m at h
  repeat' split at h
  all_goals cases h

/-- The suffix test stays in the text, since a text with `typec/port` in it is long enough. -/
theorem partnerSuffix_scans (h : StringAt mem msg text) (hrounds : text.length < rounds)
    (htypec : contains "typec/port".toList text = true)
    (hP : ∀ q, msg ≤ q → q ≤ msg + text.length → P q) :
    Scans mem P (partnerSuffix rounds msg) fun b => b = isPartnerAdded text := by
  have hlong : 10 ≤ text.length := ((contains_iff _ _).1 htypec).length_le
  refine .bind (CStrings.startsWith_scans h (by decide) hP) fun added hadded => ?_
  rw [isPartnerAdded, ← hadded]
  refine .ite (fun hc => ?_) fun hc => .pure (by simp [hc])
  refine .bind (CStrings.strlen_scans h hrounds hP) fun length hlength => ?_
  subst hlength
  have hlast := h.drop (Nat.sub_le text.length 8)
  have hpos : msg + (text.length : Int) - 8 = msg + ((text.length - 8 : Nat) : Int) := by omega
  rw [hpos]
  have hdrop : (text.drop (text.length - 8)).length = 8 := by rw [List.length_drop]; omega
  refine (CStrings.startsWith_scans hlast (by decide) fun q hq hq' => ?_).mono (fun _ => id)
    fun b hb => ?_
  · rw [hdrop] at hq'
    exact hP q (by omega) (by omega)
  · rw [hb, hc, Bool.true_and, Bool.eq_iff_iff, List.isPrefixOf_iff_prefix,
      List.isSuffixOf_iff_suffix]
    -- both are of length 8
    constructor
    · intro hbegins
      rw [hbegins.eq_of_length hdrop.symm]
      exact List.drop_suffix _ _
    · intro hsuffix
      rw [List.suffix_iff_eq_drop.1 hsuffix]
      exact List.prefix_rfl

theorem skipKey_scans (h : StringAt mem msg text) (hrounds : text.length < rounds)
    (hP : ∀ q, msg ≤ q → q ≤ msg + text.length → P q) :
    Scans mem P (skipKey rounds msg) fun next => next = msg + text.length + 1 := by
  induction rounds generalizing msg text with
  | zero => omega
  | succ rounds ih =>
      refine .bind (.byte (hP msg (by omega) (by omega))) fun c hc => ?_
      subst hc
      cases text with
      | nil => exact .ite (fun _ => .pure (by simp)) fun hne => absurd h hne
      | cons c text =>
          rcases h with ⟨hc, hne, hrest⟩
          refine .ite (fun heq => absurd (hc.symm.trans heq) hne) fun _ => ?_
          refine (ih hrest (by simpa using hrounds) fun q hq hq' => ?_).mono (fun _ => id) ?_
          · exact hP q (by omega) (by simp only [List.length_cons]; omega)
          · rintro next rfl
            rw [List.length_cons]
            omega

end Texts

/-! ## The received bytes -/

/-- The buffer after the two terminators are stored: the bytes, the terminators, and whatever is
around them. -/
def datagram (bytes : Text) (beyond : Int → Char) (p : Int) : Char :=
  if 0 ≤ p ∧ p ≤ bytes.length + 1 then bytes.getD p.toNat CStrings.NUL else beyond p

/-- The positions of the bytes and the two terminators. -/
def InDatagram (bytes : Text) (p : Int) : Prop := 0 ≤ p ∧ p ≤ bytes.length + 1

section Datagrams

variable {bytes : Text} {beyond : Int → Char} {rounds : Nat}

theorem datagram_string (beyond : Int → Char) {p : Nat} (hp : p ≤ bytes.length + 1) :
    StringAt (datagram bytes beyond) p (header (bytes.drop p)) := by
  refine CStrings.stringAt_takeWhile (fun i hi => ?_) ?_
  · rw [List.length_drop] at hi
    rw [datagram, if_pos (by omega), ← Int.natCast_add, Int.toNat_natCast, List.getElem_drop,
      List.getD_eq_getElem _ _ (by omega)]
  · rw [List.length_drop, datagram, if_pos (by omega), ← Int.natCast_add, Int.toNat_natCast,
      List.getD_eq_default _ _ (by omega)]

theorem header_length (p : Nat) : (header (bytes.drop p)).length ≤ bytes.length - p := by
  rw [← List.length_drop]
  exact (List.takeWhile_prefix _).length_le

/-- The string at a position of the datagram ends in it. -/
theorem within {p : Nat} (hp : p ≤ bytes.length + 1) (q : Int) (hq : (p : Int) ≤ q)
    (hq' : q ≤ p + (header (bytes.drop p)).length) : InDatagram bytes q := by
  have hlength : (header (bytes.drop p)).length ≤ bytes.length - p := header_length p
  constructor <;> omega

/-- The strings up to an empty one, one string at a time. -/
theorem keyStrings_eq (rest : Text) :
    keyStrings rest =
      if header rest = [] then []
      else header rest :: keyStrings (rest.drop ((header rest).length + 1)) := by
  by_cases hmem : NUL ∈ rest
  · rcases List.eq_append_cons_of_mem hmem with ⟨first, more, rfl, hfirst⟩
    have hheader : header (first ++ NUL :: more) = first := by
      rw [header, List.takeWhile_append_of_pos fun c hc => ?_, List.takeWhile_cons_of_neg (by simp),
        List.append_nil]
      simpa using fun heq : c = NUL => hfirst (heq ▸ hc)
    have hdrop : (first ++ NUL :: more).drop (first.length + 1) = more := by
      rw [List.drop_append, List.drop_eq_nil_of_le (Nat.le_succ _)]
      simp
    rw [hheader, hdrop, keyStrings, keyStrings, List.splitOn_append_cons_self_of_not_mem hfirst]
    by_cases hnil : first = []
    · rw [if_pos hnil, List.takeWhile_cons_of_neg (by simpa using hnil)]
    · rw [if_neg hnil, List.takeWhile_cons_of_pos (by simpa using hnil)]
  · -- no terminator is left
    have hheader : header rest = rest :=
      List.takeWhile_eq_self_iff.2 fun c hc => by simpa using fun heq : c = NUL => hmem (heq ▸ hc)
    have hall : rest.splitOn NUL = [rest] := List.splitOn_eq_singleton hmem
    rw [hheader, List.drop_eq_nil_of_le (Nat.le_succ _)]
    by_cases hrest : rest = []
    · simp [hrest, keyStrings]
    · simp [hrest, keyStrings, hall]

/-- What the key scan decides: the value of a name that it has found is that of the usb supply. -/
def psyGoesOn (rest : Text) : Bool := !(supplyName? rest).any (· ≠ "usb".toList)

theorem psyGoesOn_nil {rest : Text} (h : header rest = []) : psyGoesOn rest = true := by
  rw [psyGoesOn, supplyName?, keyStrings_eq, if_pos h]
  rfl

theorem psyGoesOn_found {rest : Text} (h : header rest ≠ [])
    (hname : "POWER_SUPPLY_NAME=".toList.isPrefixOf (header rest) = true) :
    psyGoesOn rest = decide ("usb".toList = (header rest).drop 18) := by
  rw [psyGoesOn, supplyName?, keyStrings_eq, if_neg h, List.find?_cons_of_pos hname]
  simp [eq_comm]

theorem psyGoesOn_next {rest : Text} (h : header rest ≠ [])
    (hname : ¬ "POWER_SUPPLY_NAME=".toList.isPrefixOf (header rest) = true) :
    psyGoesOn rest = psyGoesOn (rest.drop ((header rest).length + 1)) := by
  rw [psyGoesOn, supplyName?, keyStrings_eq, if_neg h, List.find?_cons_of_neg hname]
  rfl

/-- The scan comes to an end in the datagram, and decides as the model of the handler does. -/
theorem keyScan_scans (p : Nat) (hp : p ≤ bytes.length + 1)
    (hrounds : bytes.length + 1 - p < rounds) :
    Scans (datagram bytes beyond) (InDatagram bytes) (keyScan rounds p) fun b =>
      b = psyGoesOn (bytes.drop p) := by
  induction rounds generalizing p with
  | zero => omega
  | succ rounds ih =>
      have hstring := datagram_string beyond hp
      have hlength : (header (bytes.drop p)).length ≤ bytes.length - p := header_length p
      refine .bind (.byte (within hp p le_rfl (by omega))) fun c hc => ?_
      subst hc
      by_cases hnil : header (bytes.drop p) = []
      · rw [hnil] at hstring
        -- the header ends at the empty string
        have hnul : datagram bytes beyond p = CStrings.NUL := hstring
        exact .ite (fun _ => .pure (psyGoesOn_nil hnil).symm) fun hne => absurd hnul hne
      have hpos : 0 < (header (bytes.drop p)).length := List.length_pos_iff.2 hnil
      refine .ite (fun heq => absurd (hstring.eq_nil heq) hnil) fun _ => ?_
      refine .bind (CStrings.startsWith_scans hstring (by decide) (within hp)) fun name hname => ?_
      subst hname
      refine .ite (fun hname => ?_) fun hname => ?_
      · -- the value begins inside the string
        have h18 : 18 ≤ (header (bytes.drop p)).length :=
          (List.isPrefixOf_iff_prefix.1 hname).length_le
        rw [psyGoesOn_found hnil hname]
        refine CStrings.equals_scans (hstring.drop h18) (by decide) fun q hq hq' => ?_
        rw [List.length_drop] at hq'
        exact within hp q (by omega) (by omega)
      -- another key: the scan goes on behind its terminator
      · refine .bind (skipKey_scans hstring (by omega) (within hp)) fun next hnext => ?_
        rw [psyGoesOn_next hnil hname, List.drop_drop]
        have hcast : next = ((p + ((header (bytes.drop p)).length + 1) : Nat) : Int) := by
          rw [hnext]
          push_cast
          ring
        rw [hcast]
        exact ih _ (by omega) (by omega)

theorem readDatagram_scans (mIgnoreWakeup : Bool) (gadgetName : Text)
    (hrounds : bytes.length + 1 < rounds) :
    Scans (datagram bytes beyond) (InDatagram bytes)
      (readDatagram rounds mIgnoreWakeup gadgetName 0) fun branch =>
      branch = dispatch mIgnoreWakeup (c_str gadgetName) (header bytes) := by
  have hstring : StringAt (datagram bytes beyond) 0 (header bytes) := datagram_string beyond
    (Nat.zero_le _)
  have hlength : (header bytes).length ≤ bytes.length := header_length 0
  have hP : ∀ q : Int, 0 ≤ q → q ≤ 0 + ((header bytes).length : Int) → InDatagram bytes q :=
    within (Nat.zero_le _)
  refine .bind (dispatchBuffer_scans hstring (by omega) hP) fun branch hbranch => ?_
  have hdone : Scans (datagram bytes beyond) (InDatagram bytes) (return branch) fun branch =>
      branch = dispatch mIgnoreWakeup (c_str gadgetName) (header bytes) := .pure hbranch
  cases branch with
  | typec =>
      have htypec : contains "typec/port".toList (header bytes) = true :=
        contains_of_typec hbranch.symm
      exact .bind (partnerSuffix_scans hstring (by omega) htypec hP) fun _ _ => hdone
  | powerSupply =>
      refine .bind (CStrings.strlen_scans hstring (by omega) hP) fun length hlen => ?_
      have hstart : (0 : Int) + length + 1 = ((length + 1 : Nat) : Int) := by omega
      rw [hstart]
      exact .bind (keyScan_scans (length + 1) (by omega) (by omega)) fun _ _ => hdone
  | udc =>
      refine .bind (CStrings.startsWith_scans hstring (by decide) hP) fun added _ => ?_
      refine .ite (fun _ => hdone) fun _ => ?_
      exact .bind (CStrings.startsWith_scans hstring (by decide) hP) fun _ _ => hdone
  | add | bind | offline | busReset | remove | backlight | ignored => exact hdone

/-- Parsing a datagram comes to an end with the branch of the model, and reads nothing but the bytes
and the two terminators, whatever the bytes are. -/
theorem reads_datagram (bytes : Text) (beyond : Int → Char) (mIgnoreWakeup : Bool)
    (gadgetName : Text) (rounds : Nat) (hrounds : bytes.length + 1 < rounds) :
    ((readDatagram rounds mIgnoreWakeup gadgetName 0).run
        (CStrings.look (datagram bytes beyond)) ()).1 =
      .ok (dispatch mIgnoreWakeup (c_str gadgetName) (header bytes)) ∧
    ∀ o ∈ (readDatagram rounds mIgnoreWakeup gadgetName 0).trace
        (CStrings.look (datagram bytes beyond)) (),
      0 ≤ o.1 ∧ o.1 ≤ bytes.length + 1 := by
  have hscans : Scans (datagram bytes beyond) (InDatagram bytes)
      (readDatagram rounds mIgnoreWakeup gadgetName 0) fun branch =>
      branch = dispatch mIgnoreWakeup (c_str gadgetName) (header bytes) :=
    readDatagram_scans mIgnoreWakeup gadgetName hrounds
  rcases hscans.result with ⟨branch, hrun, rfl⟩
  exact ⟨hrun, hscans.reads⟩

/-- The last bytes are a key without its value. -/
def unfinishedKey : Text := "power_supply/usb".toList ++ NUL :: "POWER_SUPPLY_NAME=".toList

theorem reads_unfinishedKey :
    ((readDatagram 37 false [] 0).run
        (CStrings.look (datagram unfinishedKey fun _ => 'u')) ()).1 = .ok .powerSupply ∧
    ∀ o ∈ (readDatagram 37 false [] 0).trace
        (CStrings.look (datagram unfinishedKey fun _ => 'u')) (), 0 ≤ o.1 ∧ o.1 ≤ 36 := by
  have hbranch : dispatch false (c_str []) (header unfinishedKey) = .powerSupply := by decide
  have hreads := reads_datagram unfinishedKey (fun _ => 'u') false [] 37 (by decide)
  rwa [hbranch] at hreads

end Datagrams

end UsbHal
end M2391Device
