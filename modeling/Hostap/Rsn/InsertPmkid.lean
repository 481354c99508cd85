import Hostap.Lib.Tlv
import Hostap.Rsn.IeRoundTrip

/-!
# A PMKID in the RSNE of a list of elements

`wpa_insert_pmkid()` (`src/common/wpa_common.c`) edits a buffer of elements in place: it looks for the first
RSNE, adds the capabilities if the element ends before them, takes out the PMKIDs the element has, and puts
the new one in. Every octet that follows has to move with it.

Where old PMKIDs are taken out, only the rest of the element is moved over them; what follows the element
stays, and then too few octets are moved back. So the elements that follow come out right if and only if
`RsnBody.FollowingKept` holds of them (`wpa_insert_pmkid_iff`), which it does when there is no old PMKID or
no element behind the RSNE.

The buffer is given with the octets behind the elements. The pointers of the function are offsets into it.
-/

namespace Hostap

open Octets List

/-! ## The function -/

/-- The loop that looks for the RSNE. A step takes at least two octets, so that `iesLen + 1` steps are enough.
-/
def rsnStart (ies : Bytes) (iesLen : Nat) : Nat → Nat → Option Nat
  | 0, _ => none
  | steps + 1, start =>
    if iesLen ≤ start then none
    else if ies.getD start 0 = 48 then some start
    else rsnStart ies iesLen steps (start + (2 + (ies.getD (start + 1) 0).toNat))

/-- `start[1]` is changed. -/
def modifyLen (start : Nat) (f : UInt8 → UInt8) (ies : Bytes) : Bytes := ies.modify (start + 1) f

/-- The last part of `wpa_insert_pmkid()`, on elements that end at `endPos`: room is made at `rpos` for `data`.
-/
def insertAt (start rpos endPos : Nat) (data ies : Bytes) : Bytes :=
  modifyLen start (· + UInt8.ofNat data.length)
    (overwrite rpos data (move (rpos + data.length) rpos (endPos - rpos) ies))

/-- The part of `wpa_insert_pmkid()` where the element has a PMKID count. -/
def replacePmkids (ies : Bytes) (start rpos rend endPos : Nat) (pmkid : Bytes) : Option (Bytes × Nat) :=
  let numPmkid := getLe16 (ies.drop rpos)
  if rend < rpos + 2 then none
  else if numPmkid = 0 then
    some (insertAt start (rpos + 2) endPos pmkid (overwrite rpos (le16 1) ies), endPos + pmkid.length)
  else if rend - rpos - 2 < numPmkid * pmkidLen then none
  else
    let after := rpos + 2 + numPmkid * pmkidLen
    -- the part of the element behind the list is moved, and nothing else
    let ies := move (rpos + 2) after (rend - after) ies
    let ies := modifyLen start (· - UInt8.ofNat (numPmkid * pmkidLen)) ies
    let endPos := endPos - numPmkid * pmkidLen
    some (insertAt start (rpos + 2) endPos pmkid (overwrite rpos (le16 1) ies), endPos + pmkid.length)

/-- `wpa_insert_pmkid()` from behind the AKM list on. -/
def insertPmkidAt (ies : Bytes) (start rpos rend endPos : Nat) (pmkid : Bytes) : Option (Bytes × Nat) :=
  if rpos = rend then
    let ies := insertAt start rpos endPos [0, 0] ies
    some (insertAt start (rpos + 2) (endPos + 2) (le16 1 ++ pmkid) ies, endPos + 2 + (2 + pmkid.length))
  else if rend < rpos + 2 then none
  else if rpos + 2 = rend then
    some (insertAt start (rpos + 2) endPos (le16 1 ++ pmkid) ies, endPos + (2 + pmkid.length))
  else replacePmkids ies start (rpos + 2) rend endPos pmkid

def skipSuites (ies : Bytes) (rpos : Nat) : Nat := rpos + (2 + getLe16 (ies.drop rpos) * rsnSelectorLen)

/-- `wpa_insert_pmkid()`: the buffer and the length of the elements in it. -/
def wpaInsertPmkid (ies : Bytes) (iesLen : Nat) (pmkid : Bytes) : Option (Bytes × Nat) := do
  let start ← rsnStart ies iesLen (iesLen + 1) 0
  let rend := start + 2 + (ies.getD (start + 1) 0).toNat
  insertPmkidAt ies start (skipSuites ies (skipSuites ies (start + 2 + (2 + 4)))) rend iesLen pmkid

/-! ## Elements -/

/-- What follows the AKM list. `rest` is what follows the PMKIDs. -/
inductive RsnOptional
  | absent
  | capabilities (capab : Nat)
  | pmkidList (capab : Nat) (pmkids : List Bytes) (rest : Bytes)

def RsnOptional.octets : RsnOptional → Bytes
  | .absent => []
  | .capabilities capab => le16 capab
  | .pmkidList capab pmkids rest => le16 capab ++ (le16 pmkids.length ++ (pmkids.flatten ++ rest))

/-- The body of an RSNE with both lists. -/
structure RsnBody where
  versionAndGroup : Bytes
  versionAndGroup_length : versionAndGroup.length = 6
  pairwise : List Nat
  akm : List Nat
  optional : RsnOptional

def RsnBody.lists (rsn : RsnBody) : Bytes :=
  rsn.versionAndGroup ++ (le16 rsn.pairwise.length ++ (suitesOctets rsn.pairwise ++
    (le16 rsn.akm.length ++ suitesOctets rsn.akm)))

def RsnBody.octets (rsn : RsnBody) : Bytes := rsn.lists ++ rsn.optional.octets

def RsnOptional.pmkids : RsnOptional → List Bytes
  | .pmkidList _ pmkids _ => pmkids
  | _ => []

def RsnOptional.rest : RsnOptional → Bytes
  | .pmkidList _ _ rest => rest
  | _ => []

def RsnOptional.withPmkid (pmkid : Bytes) : RsnOptional → RsnOptional
  | .absent => .pmkidList 0 [pmkid] []
  | .capabilities capab => .pmkidList capab [pmkid] []
  | .pmkidList capab _ rest => .pmkidList capab [pmkid] rest

/-- The element with `[pmkid]` for its PMKID list. -/
def RsnBody.withPmkid (rsn : RsnBody) (pmkid : Bytes) : RsnBody :=
  { rsn with optional := rsn.optional.withPmkid pmkid }

/-- The octets behind the element are kept: there is no PMKID to take out, or they happen to be what moves
into their place, which is the end of the old element followed by them. -/
def RsnBody.FollowingKept (rsn : RsnBody) (following : Bytes) : Prop :=
  rsn.optional.pmkids = [] ∨
    following = ((rsn.optional.pmkids.flatten ++ rsn.optional.rest).drop rsn.optional.rest.length ++ following).take
      following.length

/-! ## Steps -/

def elements (l : List (UInt8 × Bytes)) : Bytes := l.flatMap fun e => element e.1 e.2

def NoRsne (l : List (UInt8 × Bytes)) : Prop := ∀ e ∈ l, e.1 ≠ 48 ∧ e.2.length < 256

theorem getD_length_append (a : Bytes) (b : UInt8) (rest : Bytes) : (a ++ b :: rest).getD a.length 0 = b := by
  simp

theorem getD_length_succ_append (a : Bytes) (b c : UInt8) (rest : Bytes) :
    (a ++ b :: c :: rest).getD (a.length + 1) 0 = c := by
  simp

theorem rsnStart_elements {before : List (UInt8 × Bytes)} (hbefore : NoRsne before) (a rest : Bytes)
    {iesLen : Nat}
    (hlen : (a ++ elements before).length < iesLen) {steps : Nat} (hsteps : before.length < steps) :
    rsnStart (a ++ (elements before ++ 48 :: rest)) iesLen steps a.length = some
    (a ++ elements before).length := by
  induction before generalizing a steps with
  | nil =>
    cases steps with
    | zero => cases hsteps
    | succ steps =>
      simp only [elements, flatMap_nil, append_nil, nil_append] at hlen ⊢
      rw [rsnStart, if_neg (by omega), if_pos (getD_length_append a 48 rest)]
  | cons e before ih =>
    cases steps with
    | zero => cases hsteps
    | succ steps =>
      obtain ⟨hid, hbody⟩ := hbefore e (mem_cons_self ..)
      have hcons : a ++ elements (e :: before) = (a ++ element e.1 e.2) ++ elements before :=
        (append_assoc ..).symm
      have hbuf : a ++ (elements (e :: before) ++ 48 :: rest) =
          a ++ e.1 :: UInt8.ofNat e.2.length :: (e.2 ++ (elements before ++ 48 :: rest)) := by
        simp [elements, element]
      have hrest : a ++ (elements (e :: before) ++ 48 :: rest) =
          (a ++ element e.1 e.2) ++ (elements before ++ 48 :: rest) := by
        rw [← append_assoc, hcons, append_assoc]
      have hnext : a.length + (2 + (UInt8.ofNat e.2.length).toNat) = (a ++ element e.1 e.2).length := by
        rw [length_append, element, length_append, UInt8.toNat_ofNat_of_lt' hbody]
        rfl
      have hlt : a.length < iesLen := by
        rw [length_append] at hlen
        omega
      rw [rsnStart, if_neg (by omega), hbuf, getD_length_append, if_neg hid, getD_length_succ_append, hnext,
        ← hbuf, hrest, hcons]
      rw [hcons] at hlen
      exact ih (fun e' he' => hbefore e' (mem_cons_of_mem _ he')) (a ++ element e.1 e.2) hlen
        (Nat.lt_of_succ_lt_succ hsteps)

theorem modifyLen_element (a : Bytes) (l : UInt8) (f : UInt8 → UInt8) (rest : Bytes) :
    modifyLen a.length f (a ++ 48 :: l :: rest) = a ++ 48 :: f l :: rest := by
  unfold modifyLen
  induction a with
  | nil => rfl
  | cons b a ih =>
    show b :: (a ++ 48 :: l :: rest).modify (a.length + 1) f = _
    rw [ih]
    rfl

theorem insertAt_element {ies a hd b c data : Bytes} {l : UInt8} {rpos endPos : Nat}
    (hies : ies = a ++ 48 :: l :: (hd ++ (b ++ c))) (hrpos : rpos = a.length + 2 + hd.length)
    (hend : endPos = rpos + b.length) (hc : data.length ≤ c.length) :
    insertAt a.length rpos endPos data ies =
      a ++ 48 :: (l + UInt8.ofNat data.length) :: (hd ++ (data ++ (b ++ c.drop data.length))) := by
  have hbuf : ies = (a ++ 48 :: l :: hd) ++ (b ++ c) := by
    rw [hies]
    simp
  have ha : (a ++ 48 :: l :: hd).length = rpos := by
    simp only [length_append, length_cons]
    omega
  have hb : b.length = endPos - rpos := by omega
  unfold insertAt
  rw [hbuf, overwrite_move ha hb hc, append_assoc]
  exact modifyLen_element a l _ _

theorem skipSuites_list (a : Bytes) {suites : List Nat} (hcount : suites.length ≤ 0xffff) (rest : Bytes) :
    skipSuites (a ++ (le16 suites.length ++ (suitesOctets suites ++ rest))) a.length =
      (a ++ (le16 suites.length ++ suitesOctets suites)).length := by
  unfold skipSuites
  rw [drop_left, Tlv.getLe16_le16_append hcount, length_append, length_append, le16_length,
    suitesOctets_length]
  show _ + (2 + _ * 4) = _
  omega

theorem length_le_elements (l : List (UInt8 × Bytes)) : l.length ≤ (elements l).length := by
  induction l with
  | nil => exact Nat.zero_le _
  | cons e l ih =>
    have hcons : elements (e :: l) = element e.1 e.2 ++ elements l := rfl
    have helement : (element e.1 e.2).length = 2 + e.2.length := length_append
    rw [hcons, length_append, helement, length_cons]
    omega

theorem RsnBody.lists_length (rsn : RsnBody) :
    rsn.lists.length = 10 + 4 * rsn.pairwise.length + 4 * rsn.akm.length := by
  unfold RsnBody.lists
  simp only [length_append, le16_length, suitesOctets_length, rsn.versionAndGroup_length]
  omega

theorem wpaInsertPmkid_of_start {ies pmkid : Bytes} {iesLen start : Nat}
    (h : rsnStart ies iesLen (iesLen + 1) 0 = some start) :
    wpaInsertPmkid ies iesLen pmkid =
      insertPmkidAt ies start (skipSuites ies (skipSuites ies (start + 2 + (2 + 4))))
        (start + 2 + (ies.getD (start + 1) 0).toNat) iesLen pmkid := by
  simp only [wpaInsertPmkid, h, bind, Option.bind_some]

theorem wpaInsertPmkid_at {before : List (UInt8 × Bytes)} (hbefore : NoRsne before) (rsn : RsnBody)
    (hlen : rsn.octets.length < 256) (following room pmkid : Bytes) {iesLen : Nat}
    (hies : iesLen = (elements before ++ (element 48 rsn.octets ++ following)).length) :
    wpaInsertPmkid (elements before ++ (element 48 rsn.octets ++ (following ++ room))) iesLen pmkid =
      insertPmkidAt (elements before ++ (element 48 rsn.octets ++ (following ++ room))) (elements before).length
        ((elements before).length + 2 + rsn.lists.length)
        ((elements before).length + 2 + rsn.octets.length) iesLen
        pmkid := by
  have hbody : rsn.octets.length = rsn.lists.length + rsn.optional.octets.length := length_append
  have hlists := rsn.lists_length
  let tail : Bytes := rsn.optional.octets ++ (following ++ room)
  let hdr : Bytes := 48 :: UInt8.ofNat rsn.octets.length :: rsn.versionAndGroup
  have hhdr : hdr.length = 2 + 6 := by
    show rsn.versionAndGroup.length + 1 + 1 = _
    rw [rsn.versionAndGroup_length]
  have hbuf : elements before ++ (element 48 rsn.octets ++ (following ++ room)) =
      elements before ++ 48 :: UInt8.ofNat rsn.octets.length :: (rsn.lists ++ tail) := by
    simp [element, RsnBody.octets, tail]
  have hpairwise : elements before ++ 48 :: UInt8.ofNat rsn.octets.length :: (rsn.lists ++ tail) =
      (elements before ++ hdr) ++ (le16 rsn.pairwise.length ++ (suitesOctets rsn.pairwise ++
        ((le16 rsn.akm.length ++ suitesOctets rsn.akm) ++ tail))) := by
    simp [RsnBody.lists, hdr]
  have hakm : elements before ++ 48 :: UInt8.ofNat rsn.octets.length :: (rsn.lists ++ tail) =
      ((elements before ++ hdr) ++ (le16 rsn.pairwise.length ++ suitesOctets rsn.pairwise)) ++
        (le16 rsn.akm.length ++ (suitesOctets rsn.akm ++ tail)) := by
    simp [RsnBody.lists, hdr]
  have hstart : rsnStart (elements before ++ 48 :: UInt8.ofNat rsn.octets.length :: (rsn.lists ++ tail)) iesLen
      (iesLen + 1) 0 = some (elements before).length := by
    have hle := length_le_elements before
    have helement : (element 48 rsn.octets).length = 2 + rsn.octets.length := length_append
    rw [length_append, length_append, helement] at hies
    exact rsnStart_elements hbefore [] _ (show (elements before).length < iesLen by omega) (by omega)
  have hskip : ∀ ies, ies = elements before ++ 48 :: UInt8.ofNat rsn.octets.length :: (rsn.lists ++ tail) →
      skipSuites ies (skipSuites ies ((elements before).length + 2 + (2 + 4))) =
        (elements before).length + 2 + rsn.lists.length := by
    intro ies hies
    have hfirst : skipSuites ies ((elements before).length + 2 + (2 + 4)) =
        ((elements before ++ hdr) ++ (le16 rsn.pairwise.length ++ suitesOctets rsn.pairwise)).length := by
      have hpos : (elements before).length + 2 + (2 + 4) = (elements before ++ hdr).length := by
        rw [length_append, hhdr]
      rw [hpos, hies, hpairwise]
      exact skipSuites_list _ (by omega) _
    rw [hfirst, hies, hakm, skipSuites_list _ (by omega), length_append, length_append,
      length_append,
      length_append, length_append, hhdr, le16_length, le16_length, suitesOctets_length,
      suitesOctets_length, hlists]
    omega
  have hrend : (elements before).length + 2 + (UInt8.ofNat rsn.octets.length).toNat =
      (elements before).length + 2 + rsn.octets.length := by
    rw [UInt8.toNat_ofNat_of_lt' hlen]
  rw [hbuf, wpaInsertPmkid_of_start hstart, hskip _ rfl, getD_length_succ_append, hrend]

/-! ## The element afterwards -/

def RsnOptional.moved (opt : RsnOptional) (following : Bytes) : Bytes :=
  if opt.pmkids = [] then following
  else ((opt.pmkids.flatten ++ opt.rest).drop opt.rest.length ++ following).take following.length

/-- The buffer with an element whose body is `hd` and the optional part, and what follows. -/
def elementBuffer (a hd : Bytes) (opt : RsnOptional) (tail : Bytes) : Bytes :=
  a ++ 48 :: UInt8.ofNat (hd.length + opt.octets.length) :: (hd ++ (opt.octets ++ tail))

section Afterwards

variable {a hd following room pmkid : Bytes} {rpos endPos : Nat}

theorem insertAt_capabilities (hrpos : rpos = a.length + 2 + hd.length)
    (hend : endPos = rpos + following.length) (hroom : 2 ≤ room.length) :
    insertAt a.length rpos endPos [0, 0] (elementBuffer a hd .absent (following ++ room)) =
      elementBuffer a hd (.capabilities 0) (following ++ room.drop 2) := by
  have hlen : UInt8.ofNat (hd.length + 0) + UInt8.ofNat 2 = UInt8.ofNat (hd.length + 2) :=
    (UInt8.ofNat_add ..).symm
  have h : insertAt a.length rpos endPos [0, 0] (elementBuffer a hd .absent (following ++ room)) =
      a ++ 48 :: (UInt8.ofNat (hd.length + 0) + UInt8.ofNat 2) ::
      (hd ++ ([0, 0] ++ (following ++ room.drop 2))) :=
    insertAt_element rfl hrpos hend hroom
  rw [h, hlen]
  rfl

theorem insertAt_pmkidList {capab : Nat} (hpmkid : pmkid.length = 16)
    (hrpos : rpos = a.length + 2 + hd.length + 2)
    (hend : endPos = rpos + following.length) (hroom : 18 ≤ room.length) :
    insertAt a.length rpos endPos (le16 1 ++ pmkid)
    (elementBuffer a hd (.capabilities capab) (following ++ room)) =
      elementBuffer a hd (.pmkidList capab [pmkid] []) (following ++ room.drop 18) := by
  have hdata : (le16 1 ++ pmkid).length = 18 := by
    rw [length_append, hpmkid]
    rfl
  have hies : elementBuffer a hd (.capabilities capab) (following ++ room) =
      a ++ 48 :: UInt8.ofNat (hd.length + 2) :: ((hd ++ le16 capab) ++ (following ++ room)) := by
    rw [append_assoc]
    rfl
  have hpos : rpos = a.length + 2 + (hd ++ le16 capab).length := by
    rw [length_append, le16_length]
    omega
  have hlen : UInt8.ofNat (hd.length + 2) + UInt8.ofNat 18 =
      UInt8.ofNat (hd.length + (RsnOptional.pmkidList capab [pmkid] []).octets.length) := by
    have hoctets : (RsnOptional.pmkidList capab [pmkid] []).octets.length = 2 + 18 := by
      simp [RsnOptional.octets, hpmkid]
    rw [hoctets, ← Nat.add_assoc, UInt8.ofNat_add (hd.length + 2) 18]
  rw [insertAt_element hies hpos hend (by omega), hdata, hlen]
  simp [elementBuffer, RsnOptional.octets]

theorem insertAt_pmkid {ies rest : Bytes} {capab n : Nat} {l : UInt8} (hpmkid : pmkid.length = 16)
    (hies : ies = a ++ 48 :: l :: (hd ++ (le16 capab ++ (le16 n ++ (rest ++ (following ++ room))))))
    (hrpos : rpos = a.length + 2 + hd.length + 2) (hend : endPos = rpos + 2 + (rest.length + following.length))
    (hl : l + UInt8.ofNat 16 = UInt8.ofNat (hd.length + (RsnOptional.pmkidList capab [pmkid] rest).octets.length))
    (hroom : 16 ≤ room.length) :
    insertAt a.length (rpos + 2) endPos pmkid (overwrite rpos (le16 1) ies) =
      elementBuffer a hd (.pmkidList capab [pmkid] rest) (following ++ room.drop 16) := by
  have hcount : overwrite rpos (le16 1) ies =
      a ++ 48 :: l :: ((hd ++ le16 capab ++ le16 1) ++ ((rest ++ following) ++ room)) := by
    have hsplit : ies = (a ++ 48 :: l :: (hd ++ le16 capab)) ++ (le16 n ++ (rest ++ (following ++ room))) := by
      rw [hies]
      simp
    have hbefore : (a ++ 48 :: l :: (hd ++ le16 capab)).length = rpos := by
      simp only [length_append, length_cons, le16_length]
      omega
    have hone : (le16 n).length = (le16 1).length := rfl
    rw [hsplit, overwrite_middle hbefore hone]
    simp
  have hpos : rpos + 2 = a.length + 2 + (hd ++ le16 capab ++ le16 1).length := by
    rw [length_append, length_append, le16_length, le16_length]
    omega
  have hbehind : endPos = rpos + 2 + (rest ++ following).length := by
    rw [length_append]
    exact hend
  rw [insertAt_element hcount hpos hbehind (by omega), hpmkid, hl]
  simp [elementBuffer, RsnOptional.octets]

theorem flatten_pmkids_length {pmkids : List Bytes} (h : ∀ p ∈ pmkids, p.length = 16) :
    pmkids.flatten.length = pmkids.length * 16 := by
  induction pmkids with
  | nil => rfl
  | cons p pmkids ih =>
    have hp := h p (mem_cons_self ..)
    have hrest := ih fun q hq => h q (mem_cons_of_mem _ hq)
    rw [flatten_cons, length_append, hp, hrest, length_cons]
    omega

theorem pmkidList_octets_length (capab : Nat) (pmkids : List Bytes) (rest : Bytes) :
    (RsnOptional.pmkidList capab pmkids rest).octets.length = 4 + (pmkids.flatten.length + rest.length) := by
  simp only [RsnOptional.octets, length_append, le16_length]
  omega

theorem replacePmkids_eq {rest : Bytes} {capab : Nat} {pmkids : List Bytes} {rend : Nat}
    (hpmkid : pmkid.length = 16) (hpmkids : ∀ p ∈ pmkids, p.length = 16)
    (hsize : hd.length + (RsnOptional.pmkidList capab pmkids rest).octets.length < 256)
    (hrpos : rpos = a.length + 2 + hd.length + 2) (hrend : rend = rpos + 2 + (pmkids.length * 16 + rest.length))
    (hend : endPos = rend + following.length) (hroom : 16 ≤ room.length) :
    ∃ room', replacePmkids (elementBuffer a hd (.pmkidList capab pmkids rest) (following ++ room)) a.length rpos rend
        endPos pmkid =
      some (elementBuffer a hd (.pmkidList capab [pmkid] rest)
        ((RsnOptional.pmkidList capab pmkids rest).moved following ++ room'),
        rpos + 2 + 16 + rest.length + following.length) := by
  have hflat := flatten_pmkids_length hpmkids
  have hold := pmkidList_octets_length capab pmkids rest
  have hnew := pmkidList_octets_length capab [pmkid] rest
  have hone : [pmkid].flatten.length = 16 := by simpa using hpmkid
  let l : UInt8 := UInt8.ofNat (hd.length + (RsnOptional.pmkidList capab pmkids rest).octets.length)
  have hies : elementBuffer a hd (.pmkidList capab pmkids rest) (following ++ room) =
      a ++ 48 :: l :: (hd ++ (le16 capab ++ (le16 pmkids.length ++ (pmkids.flatten ++ (rest ++ (following ++ room)))))) := by
    simp [elementBuffer, RsnOptional.octets, l]
  have hcount : getLe16 ((elementBuffer a hd (.pmkidList capab pmkids rest) (following ++ room)).drop rpos) =
      pmkids.length := by
    have hsplit : elementBuffer a hd (.pmkidList capab pmkids rest) (following ++ room) =
        (a ++ 48 :: l :: (hd ++ le16 capab)) ++
          (le16 pmkids.length ++ (pmkids.flatten ++ (rest ++ (following ++ room)))) := by
      rw [hies]
      simp
    have hbefore : (a ++ 48 :: l :: (hd ++ le16 capab)).length = rpos := by
      simp only [length_append, length_cons, le16_length]
      omega
    rw [hsplit, ← hbefore, drop_left, Tlv.getLe16_le16_append (by omega)]
  unfold replacePmkids
  dsimp only
  rw [hcount, if_neg (show ¬ rend < rpos + 2 by omega)]
  by_cases hnone : pmkids.length = 0
  · -- the count is zero: everything behind it moves
    obtain rfl : pmkids = [] := length_eq_zero_iff.1 hnone
    have hl : l + UInt8.ofNat 16 =
        UInt8.ofNat (hd.length + (RsnOptional.pmkidList capab [pmkid] rest).octets.length) := by
      have hsum : hd.length + (RsnOptional.pmkidList capab [pmkid] rest).octets.length =
          hd.length + (RsnOptional.pmkidList capab [] rest).octets.length + 16 := by
        rw [hold, hnew, hone, hflat]
        omega
      rw [hsum]
      exact (UInt8.ofNat_add _ 16).symm
    have hies₀ : elementBuffer a hd (.pmkidList capab [] rest) (following ++ room) =
        a ++ 48 :: l :: (hd ++ (le16 capab ++ (le16 0 ++ (rest ++ (following ++ room))))) := hies
    have hendPos : endPos = rpos + 2 + (rest.length + following.length) := by
      rw [length_nil] at hrend
      omega
    rw [if_pos hnone, insertAt_pmkid hpmkid hies₀ hrpos hendPos hl hroom]
    refine ⟨room.drop 16, ?_⟩
    have hlen : endPos + pmkid.length = rpos + 2 + 16 + rest.length + following.length := by omega
    rw [hlen]
    rfl
  · have hne : ¬ (RsnOptional.pmkidList capab pmkids rest).pmkids = [] := fun h => hnone
      (congrArg List.length h)
    let behind : Bytes := (pmkids.flatten ++ rest).drop rest.length ++ following
    -- the rest of the element is moved over the PMKIDs, and the octets in between stay
    have hmoved : move (rpos + 2) (rpos + 2 + pmkids.length * pmkidLen)
      (rend - (rpos + 2 + pmkids.length * pmkidLen))
        (elementBuffer a hd (.pmkidList capab pmkids rest) (following ++ room)) =
          a ++ 48 :: l :: (hd ++ (le16 capab ++ (le16 pmkids.length ++ (rest ++ (behind ++ room))))) := by
      have hsplit : elementBuffer a hd (.pmkidList capab pmkids rest) (following ++ room) =
          (a ++ 48 :: l :: (hd ++ (le16 capab ++ le16 pmkids.length))) ++
            (pmkids.flatten ++ (rest ++ (following ++ room))) := by
        rw [hies]
        simp
      have hbefore : (a ++ 48 :: l :: (hd ++ (le16 capab ++ le16 pmkids.length))).length = rpos + 2 := by
        simp only [length_append, length_cons, le16_length]
        omega
      have hafter : rpos + 2 + pmkids.flatten.length = rpos + 2 + pmkids.length * pmkidLen :=
        congrArg (rpos + 2 + ·) hflat
      have hrest : rest.length = rend - (rpos + 2 + pmkids.length * pmkidLen) := by
        rw [show pmkidLen = 16 from rfl]
        omega
      rw [hsplit, move_back hbefore hafter hrest]
      simp [behind]
    have hsplit : behind ++ room = behind.take following.length ++ (behind.drop following.length ++ room) := by
      rw [← append_assoc, take_append_drop]
    have hkept : (behind.take following.length).length = following.length := by
      rw [length_take, length_append]
      omega
    have hl : l - UInt8.ofNat (pmkids.length * pmkidLen) + UInt8.ofNat 16 =
        UInt8.ofNat (hd.length + (RsnOptional.pmkidList capab [pmkid] rest).octets.length) := by
      have hsum : hd.length + (RsnOptional.pmkidList capab pmkids rest).octets.length =
          (hd.length + 4 + rest.length) + pmkids.length * pmkidLen := by
        rw [hold, hflat, show pmkidLen = 16 from rfl]
        omega
      have hsum' : hd.length + (RsnOptional.pmkidList capab [pmkid] rest).octets.length =
          (hd.length + 4 + rest.length) + 16 := by
        rw [hnew, hone]
        omega
      show UInt8.ofNat _ - _ + _ = _
      rw [hsum, hsum', UInt8.ofNat_add _ (pmkids.length * pmkidLen), UInt8.add_sub_cancel]
      exact (UInt8.ofNat_add _ 16).symm
    rw [if_neg hnone, if_neg (show ¬ rend - rpos - 2 < pmkids.length * pmkidLen by
      rw [show pmkidLen = 16 from rfl]; omega), hmoved, modifyLen_element, hsplit]
    have hendPos : endPos - pmkids.length * pmkidLen =
        rpos + 2 + (rest.length + (behind.take following.length).length) := by
      rw [hkept, show pmkidLen = 16 from rfl]
      omega
    rw [insertAt_pmkid hpmkid rfl hrpos hendPos hl (by rw [length_append]; omega)]
    refine ⟨(behind.drop following.length ++ room).drop 16, ?_⟩
    have hlen : endPos - pmkids.length * pmkidLen + pmkid.length =
        rpos + 2 + 16 + rest.length + following.length := by omega
    rw [hlen, RsnOptional.moved, if_neg hne]
    rfl

theorem insertPmkidAt_eq {opt : RsnOptional} (hpmkid : pmkid.length = 16) (hpmkids : ∀ p ∈ opt.pmkids,
    p.length = 16)
    (hsize : hd.length + opt.octets.length < 256) (hroom : 20 ≤ room.length)
    (hrpos : rpos = a.length + 2 + hd.length) (hend : endPos = rpos + opt.octets.length + following.length) :
    ∃ room', insertPmkidAt (elementBuffer a hd opt (following ++ room)) a.length rpos
        (a.length + 2 + (hd.length + opt.octets.length)) endPos pmkid =
      some (elementBuffer a hd (opt.withPmkid pmkid) (opt.moved following ++ room'),
        rpos + (opt.withPmkid pmkid).octets.length + following.length) := by
  have hnew := fun capab rest => pmkidList_octets_length capab [pmkid] rest
  have hone : [pmkid].flatten.length = 16 := by simpa using hpmkid
  unfold insertPmkidAt
  cases opt with
  | absent =>
    have hoctets : RsnOptional.absent.octets.length = 0 := rfl
    refine ⟨(room.drop 2).drop 18, ?_⟩
    rw [hoctets] at hend ⊢
    have hlen : endPos + 2 + (2 + pmkid.length) =
        rpos + (RsnOptional.absent.withPmkid pmkid).octets.length + following.length := by
      show _ = rpos + (RsnOptional.pmkidList 0 [pmkid] []).octets.length + following.length
      rw [hnew, hone, length_nil]
      omega
    rw [if_pos (by omega)]
    dsimp only
    rw [insertAt_capabilities hrpos (by omega) (by omega), insertAt_pmkidList hpmkid (by omega) (by omega)
      (by rw [length_drop]; omega), hlen]
    rfl
  | capabilities capab =>
    have hoctets : (RsnOptional.capabilities capab).octets.length = 2 := rfl
    refine ⟨room.drop 18, ?_⟩
    rw [hoctets] at hend ⊢
    have hlen : endPos + (2 + pmkid.length) =
        rpos + ((RsnOptional.capabilities capab).withPmkid pmkid).octets.length + following.length := by
      show _ = rpos + (RsnOptional.pmkidList capab [pmkid] []).octets.length + following.length
      rw [hnew, hone, length_nil]
      omega
    rw [if_neg (by omega), if_neg (by omega), if_pos (by omega), insertAt_pmkidList hpmkid (by omega) (by omega)
      (by omega), hlen]
    rfl
  | pmkidList capab pmkids rest =>
    have hlist : ∀ p ∈ pmkids, p.length = 16 := hpmkids
    have hflat := flatten_pmkids_length hlist
    have hoctets := pmkidList_octets_length capab pmkids rest
    rw [hoctets] at hend ⊢
    have hreplace : ∃ room', replacePmkids
      (elementBuffer a hd (.pmkidList capab pmkids rest) (following ++ room))
        a.length (rpos + 2) (a.length + 2 + (hd.length + (4 + (pmkids.flatten.length + rest.length)))) endPos pmkid =
          some (elementBuffer a hd (.pmkidList capab [pmkid] rest)
            ((RsnOptional.pmkidList capab pmkids rest).moved following ++ room'),
            rpos + 2 + 2 + 16 + rest.length + following.length) :=
      replacePmkids_eq hpmkid hlist hsize (by omega) (by omega) (by omega) (by omega)
    obtain ⟨room', h⟩ := hreplace
    refine ⟨room', ?_⟩
    have hlen : rpos + 2 + 2 + 16 + rest.length + following.length =
        rpos + ((RsnOptional.pmkidList capab pmkids rest).withPmkid pmkid).octets.length + following.length := by
      show _ = rpos + (RsnOptional.pmkidList capab [pmkid] rest).octets.length + following.length
      rw [hnew, hone]
      omega
    rw [if_neg (by omega), if_neg (by omega), if_neg (by omega), h, hlen]
    rfl

end Afterwards

/-! ## The list of elements -/

/-- `wpa_insert_pmkid()` on a list of elements with an RSNE: success, and the list with `[pmkid]` for the
PMKIDs of the RSNE, in a buffer that goes on with `room`. -/
def InsertsPmkid (before : List (UInt8 × Bytes)) (rsn : RsnBody) (following room pmkid : Bytes) : Prop :=
  let ies := elements before ++ (element 48 rsn.octets ++ following)
  let iesAfter := elements before ++ (element 48 (rsn.withPmkid pmkid).octets ++ following)
  ∃ buf, wpaInsertPmkid (ies ++ room) ies.length pmkid = some (buf, iesAfter.length) ∧
    buf.take iesAfter.length = iesAfter

theorem moved_length (opt : RsnOptional) (following : Bytes) : (opt.moved following).length =
    following.length := by
  unfold RsnOptional.moved
  split
  · rfl
  · rw [length_take, length_append]
    omega

theorem moved_eq_iff (rsn : RsnBody) (following : Bytes) :
    rsn.optional.moved following = following ↔ rsn.FollowingKept following := by
  unfold RsnOptional.moved RsnBody.FollowingKept
  by_cases hnone : rsn.optional.pmkids = []
  · rw [if_pos hnone]
    exact iff_of_true rfl (Or.inl hnone)
  · rw [if_neg hnone, or_iff_right hnone]
    exact eq_comm

/-- An RSNE with both lists and PMKIDs of 16 octets, and room for capabilities and a PMKID behind the
buffer: the elements afterwards are the ones before with the new PMKID list exactly where the octets behind
the RSNE are kept. -/
theorem wpa_insert_pmkid_iff (before : List (UInt8 × Bytes)) (rsn : RsnBody) (following room pmkid : Bytes)
    (hbefore : NoRsne before) (hpmkids : ∀ p ∈ rsn.optional.pmkids, p.length = 16) (hpmkid : pmkid.length = 16)
    (hold : rsn.octets.length < 256) (hroom : 20 ≤ room.length) :
    InsertsPmkid before rsn following room pmkid ↔ rsn.FollowingKept following := by
  rw [← moved_eq_iff]
  have hbuffer : ∀ (rsn : RsnBody) (tail : Bytes), elements before ++ (element 48 rsn.octets ++ tail) =
      elementBuffer (elements before) rsn.lists rsn.optional tail := by
    intro rsn tail
    simp [elementBuffer, element, RsnBody.octets]
  have hoctets : rsn.octets.length = rsn.lists.length + rsn.optional.octets.length := length_append
  have hafter : (rsn.withPmkid pmkid).octets.length =
      rsn.lists.length + (rsn.optional.withPmkid pmkid).octets.length := length_append
  have helement : ∀ body : Bytes, (element 48 body).length = 2 + body.length := fun _ => length_append
  have hies : (elements before ++ (element 48 rsn.octets ++ following)).length =
      (elements before).length + 2 + rsn.lists.length + rsn.optional.octets.length + following.length := by
    rw [length_append, length_append, helement, hoctets]
    omega
  have hnewlen : (elements before ++ (element 48 (rsn.withPmkid pmkid).octets ++ following)).length =
      (elements before).length + 2 + rsn.lists.length + (rsn.optional.withPmkid pmkid).octets.length +
        following.length := by
    rw [length_append, length_append, helement, hafter]
    omega
  have hsize : rsn.lists.length + rsn.optional.octets.length < 256 := by omega
  have hrun : ∀ iesLen, iesLen = (elements before ++ (element 48 rsn.octets ++ following)).length →
      ∃ room', wpaInsertPmkid (elements before ++ (element 48 rsn.octets ++ (following ++ room))) iesLen pmkid =
        some (elementBuffer (elements before) rsn.lists (rsn.optional.withPmkid pmkid)
          (rsn.optional.moved following ++ room'),
          (elements before).length + 2 + rsn.lists.length + (rsn.optional.withPmkid pmkid).octets.length +
            following.length) := by
    intro iesLen hlen
    rw [wpaInsertPmkid_at hbefore rsn hold following room pmkid hlen, hbuffer, hoctets]
    exact insertPmkidAt_eq hpmkid hpmkids hsize hroom rfl (hlen.trans hies)
  obtain ⟨room', h⟩ := hrun _ rfl
  rw [← hnewlen] at h
  -- the elements that come out, up to the new length
  have hresult : wpaInsertPmkid ((elements before ++ (element 48 rsn.octets ++ following)) ++ room)
      (elements before ++ (element 48 rsn.octets ++ following)).length pmkid =
        some (elements before ++ (element 48 (rsn.withPmkid pmkid).octets ++
          (rsn.optional.moved following ++ room')),
          (elements before ++ (element 48 (rsn.withPmkid pmkid).octets ++ following)).length) := by
    have hassoc : (elements before ++ (element 48 rsn.octets ++ following)) ++ room =
        elements before ++ (element 48 rsn.octets ++ (following ++ room)) := by
      rw [append_assoc, append_assoc]
    rw [hassoc, h, hbuffer (rsn.withPmkid pmkid) (rsn.optional.moved following ++ room')]
    rfl
  have htake : (elements before ++ (element 48 (rsn.withPmkid pmkid).octets ++
      (rsn.optional.moved following ++ room'))).take
        (elements before ++ (element 48 (rsn.withPmkid pmkid).octets ++ following)).length =
      elements before ++ (element 48 (rsn.withPmkid pmkid).octets ++ rsn.optional.moved following) := by
    have hassoc : elements before ++ (element 48 (rsn.withPmkid pmkid).octets ++
        (rsn.optional.moved following ++ room')) =
          (elements before ++ (element 48 (rsn.withPmkid pmkid).octets ++ rsn.optional.moved following)) ++ room' := by
      simp only [append_assoc]
    have hlen : (elements before ++ (element 48 (rsn.withPmkid pmkid).octets ++ rsn.optional.moved following)).length =
        (elements before ++ (element 48 (rsn.withPmkid pmkid).octets ++ following)).length := by
      simp only [length_append, moved_length]
    rw [hassoc, ← hlen, take_left]
  constructor
  · rintro ⟨buf, heq, hbuf⟩
    obtain ⟨rfl, -⟩ := Prod.mk.inj (Option.some.inj (hresult.symm.trans heq))
    rw [htake] at hbuf
    exact append_cancel_left (append_cancel_left hbuf)
  · intro hkept
    refine ⟨_, hresult, ?_⟩
    rw [htake, hkept]

def smallRsnBody : RsnBody where
  versionAndGroup := [1, 0, 0, 0x0f, 0xac, 4]
  versionAndGroup_length := rfl
  pairwise := [0x000fac04]
  akm := [0x000fac04]
  optional := .pmkidList 0 [zeros 16] []

/-- An RSNE without a PMKID, and an MDE behind it. -/
theorem wpa_insert_pmkid_small :
    InsertsPmkid [(0, [0x61])] { smallRsnBody with optional := .capabilities 0 } (element 54 [0xa1, 0xb2, 0])
      (zeros 20) (zeros 16) :=
  (wpa_insert_pmkid_iff [(0, [0x61])] { smallRsnBody with optional := .capabilities 0 } (element 54 [0xa1, 0xb2, 0])
    (zeros 20) (zeros 16) (by intro e he; rw [mem_singleton] at he; subst he; decide)
    (by intro p hp; cases hp)
    rfl (by decide) (by decide)).2 (Or.inl rfl)

/-- An old PMKID, and an MDE behind it: zeros stand where the MDE was. -/
theorem wpa_insert_pmkid_loses_following :
    ¬ ∀ before rsn following room pmkid, NoRsne before → (∀ p ∈ rsn.optional.pmkids, p.length = 16) →
      pmkid.length = 16 → rsn.octets.length < 256 → (rsn.withPmkid pmkid).octets.length < 256 →
      20 ≤ room.length →
        InsertsPmkid before rsn following room pmkid := by
  intro h
  obtain ⟨buf, heq, hbuf⟩ := h [] smallRsnBody (element 54 [0xa1, 0xb2, 0]) (zeros 20) (zeros 16)
    (by intro e he; cases he) (by decide) rfl (by decide) (by decide) (by decide)
  have hrun : (wpaInsertPmkid ((elements [] ++ (element 48 smallRsnBody.octets ++ element 54 [0xa1, 0xb2, 0])) ++
      zeros 20) (elements [] ++ (element 48 smallRsnBody.octets ++ element 54 [0xa1, 0xb2, 0])).length
        (zeros 16)).map (fun r => r.1.getD 40 0) = some 0 := by decide +kernel
  rw [heq] at hrun
  have hmde : buf.getD 40 0 = 54 := by
    have hget := congrArg (·.getD 40 0) hbuf
    rw [getD_eq_getElem?_getD, getElem?_take_of_lt (by decide), ← getD_eq_getElem?_getD] at hget
    exact hget
  rw [Option.map_some, hmde] at hrun
  exact absurd hrun (by decide)

end Hostap
