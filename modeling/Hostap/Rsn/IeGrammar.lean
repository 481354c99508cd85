import Hostap.Rsn.IeRoundTrip

/-!
# The grammar of the RSN element

`wpa_parse_wpa_ie_rsn()` goes through the element with a pointer and the number of octets left, and reads
two or four octets at a time. The first part of this module is the function with these: `readAt` stops
where it would read outside of the element, which never happens, and `wpaParseWpaIeRsnAt_data` says that it
otherwise returns what `wpaParseWpaIeRsnData` does.

The second part is the language it accepts, as octets put one after the other (`RsnElement`). Every field
may be the last one. What is too short for the next field is an error up to the AKM suites, and is
ignored behind them.
-/

namespace Hostap

open Octets List

/-! ## Reading through a pointer -/

/-- How the parser stops before its end. -/
inductive RsnIeStop
  /-- Octets that are not in the element would be read. -/
  | outside (off len : Nat)
  /-- The element is refused with this code. -/
  | malformed (code : Int)
  deriving DecidableEq, Repr

def readAt (ie : Bytes) (off len : Nat) : Except RsnIeStop Bytes :=
  if off + len ≤ ie.length then .ok (slice ie off len) else .error (.outside off len)

/-- `pos` and `left`. -/
structure IeCursor where
  pos : Nat
  left : Nat
  deriving DecidableEq, Repr

def IeCursor.skip (c : IeCursor) (n : Nat) : IeCursor := ⟨c.pos + n, c.left - n⟩

/-- `struct wpa_ie_data`, with `pmkid` as an offset in the element. -/
structure WpaIeAt where
  proto : Proto
  pairwiseCipher : List Cipher
  groupCipher : Option Cipher
  keyMgmt : List Akm
  capabilities : Nat
  pmkid : Option Nat
  numPmkid : Nat
  mgmtGroupCipher : Option Cipher
  deriving DecidableEq

/-- The same with what stands where `pmkid` points. -/
def WpaIeAt.data (ie : Bytes) (d : WpaIeAt) : WpaIe :=
  ⟨d.proto, d.pairwiseCipher, d.groupCipher, d.keyMgmt, d.capabilities, d.pmkid.map (ie.drop ·), d.numPmkid,
    d.mgmtGroupCipher⟩

/-- Whether this is an OSEN element. Its id is not looked at. -/
def isOsenAt (ie : Bytes) : Except RsnIeStop Bool :=
  if 6 ≤ ie.length then do
    let len ← readAt ie 1 1
    let type ← readAt ie 2 4
    pure (decide (4 ≤ beNat len ∧ beNat len = ie.length - 2 ∧ rsnSelectorGet type = 0x506f9a12))
  else
    pure false

def rsnIeHeaderAt (ie : Bytes) : Except RsnIeStop (WpaIeAt × IeCursor) :=
  if ie.length = 0 then
    .error (.malformed (-1))
  else if ie.length < 4 then
    .error (.malformed (-1))
  else do
    let osen ← isOsenAt ie
    if osen then
      pure (⟨.osen, [.ccmp], some .gtkNotUsed, [.osen], 0, none, 0, some .aes128Cmac⟩, ⟨6, ie.length - 6⟩)
    else do
      let id ← readAt ie 0 1
      let len ← readAt ie 1 1
      let version ← readAt ie 2 2
      if beNat id ≠ 48 ∨ beNat len ≠ ie.length - 2 ∨ getLe16 version ≠ 1 then
        .error (.malformed (-2))
      else
        pure (⟨.rsn, [.ccmp], some .ccmp, [.ieee8021x], 0, none, 0, some .aes128Cmac⟩, ⟨4, ie.length - 4⟩)

def rsnIeGroupAt (ie : Bytes) (c : IeCursor) : Except RsnIeStop (Option (Option Cipher) × IeCursor) :=
  if rsnSelectorLen ≤ c.left then do
    let s ← readAt ie c.pos rsnSelectorLen
    if (rsnSelectorToBitfield s).any wpaCipherValidGroup then
      pure (some (rsnSelectorToBitfield s), c.skip rsnSelectorLen)
    else
      .error (.malformed (-1))
  else if 0 < c.left then
    .error (.malformed (-3))
  else
    pure (none, c)

def rsnSuitesAt {α : Type} (ie : Bytes) (toBitfield : Bytes → Option α) :
    (count : Nat) → IeCursor → Except RsnIeStop (List α × IeCursor)
  | 0, c => pure ([], c)
  | count + 1, c => do
    let s ← readAt ie c.pos rsnSelectorLen
    let rest ← rsnSuitesAt ie toBitfield count (c.skip rsnSelectorLen)
    pure ((toBitfield s).toList ++ rest.1, rest.2)

/-- A list of suites with its count, if there is one; with the codes for a wrong count and for a single
octet. -/
def rsnIeSuitesAt {α : Type} (ie : Bytes) (toBitfield : Bytes → Option α) (botch short : Int)
    (c : IeCursor) : Except RsnIeStop (Option (List α) × IeCursor) :=
  if 2 ≤ c.left then do
    let count ← readAt ie c.pos 2
    if getLe16 count = 0 ∨ (c.skip 2).left / rsnSelectorLen < getLe16 count then
      .error (.malformed botch)
    else do
      let suites ← rsnSuitesAt ie toBitfield (getLe16 count) (c.skip 2)
      pure (some suites.1, suites.2)
  else if c.left = 1 then
    .error (.malformed short)
  else
    pure (none, c)

def rsnIeCapabAt (ie : Bytes) (c : IeCursor) : Except RsnIeStop (Nat × IeCursor) :=
  if 2 ≤ c.left then do
    let capab ← readAt ie c.pos 2
    pure (getLe16 capab, c.skip 2)
  else
    pure (0, c)

def rsnIePmkidsAt (ie : Bytes) (c : IeCursor) : Except RsnIeStop ((Option Nat × Nat) × IeCursor) :=
  if 2 ≤ c.left then do
    let num ← readAt ie c.pos 2
    if (c.skip 2).left / pmkidLen < getLe16 num then
      .error (.malformed (-9))
    else
      pure ((some (c.skip 2).pos, getLe16 num), (c.skip 2).skip (getLe16 num * pmkidLen))
  else
    pure ((none, 0), c)

def rsnIeMgmtGroupAt (ie : Bytes) (dflt : Option Cipher) (c : IeCursor) :
    Except RsnIeStop (Option Cipher) :=
  if 4 ≤ c.left then do
    let s ← readAt ie c.pos rsnSelectorLen
    if (rsnSelectorToBitfield s).any wpaCipherValidMgmtGroup then
      pure (rsnSelectorToBitfield s)
    else
      .error (.malformed (-10))
  else
    pure dflt

/-- `wpa_parse_wpa_ie_rsn()`. -/
def wpaParseWpaIeRsnAt (ie : Bytes) : Except RsnIeStop WpaIeAt := do
  let (data, c) ← rsnIeHeaderAt ie
  let (group, c) ← rsnIeGroupAt ie c
  let (pairwise, c) ← rsnIeSuitesAt ie rsnSelectorToBitfield (-4) (-5) c
  if pairwise.any (·.contains .aes128Cmac) then
    .error (.malformed (-1))
  else do
    let (keyMgmt, c) ← rsnIeSuitesAt ie rsnKeyMgmtToBitfield (-6) (-7) c
    let (capabilities, c) ← rsnIeCapabAt ie c
    let ((pmkid, numPmkid), c) ← rsnIePmkidsAt ie c
    let mgmtGroupCipher ← rsnIeMgmtGroupAt ie data.mgmtGroupCipher c
    pure { data with
      groupCipher := group.getD data.groupCipher
      pairwiseCipher := pairwise.getD data.pairwiseCipher
      keyMgmt := keyMgmt.getD data.keyMgmt
      capabilities, pmkid, numPmkid, mgmtGroupCipher }

/-! ## The same without a pointer -/

def IeCursor.In (c : IeCursor) (ie : Bytes) : Prop := c.pos + c.left = ie.length

/-- Reading through the pointer does what `o` says about the octets from it on, and stays inside. -/
inductive Follows {α : Type} (ie : Bytes) :
    Except RsnIeStop (α × IeCursor) → Option (α × Bytes) → Prop
  | refused (code : Int) : Follows ie (.error (.malformed code)) none
  | read (a : α) (c : IeCursor) (hin : c.In ie) : Follows ie (.ok (a, c)) (some (a, ie.drop c.pos))

theorem Follows.split {α : Type} {ie : Bytes} {r : Except RsnIeStop (α × IeCursor)}
    {o : Option (α × Bytes)} (h : Follows ie r o) :
    (∃ code, r = .error (.malformed code) ∧ o = none) ∨
      ∃ a c, r = .ok (a, c) ∧ c.In ie ∧ o = some (a, ie.drop c.pos) := by
  cases h with
  | refused code => exact .inl ⟨code, rfl, rfl⟩
  | read a c hin => exact .inr ⟨a, c, rfl, hin, rfl⟩

section Follows

variable {ie : Bytes} {c : IeCursor}

theorem IeCursor.In.left_eq (h : c.In ie) : c.left = (ie.drop c.pos).length := by
  have hsum : c.pos + c.left = ie.length := h
  rw [length_drop]
  omega

theorem IeCursor.In.skip (h : c.In ie) {n : Nat} (hn : n ≤ c.left) : (c.skip n).In ie := by
  have hsum : c.pos + c.left = ie.length := h
  show c.pos + n + (c.left - n) = ie.length
  omega

theorem IeCursor.In.readAt (h : c.In ie) {n : Nat} (hn : n ≤ c.left) :
    readAt ie c.pos n = .ok ((ie.drop c.pos).take n) := by
  have hsum : c.pos + c.left = ie.length := h
  exact if_pos (by omega)

theorem getLe16_take (bs : Bytes) : getLe16 (bs.take 2) = getLe16 bs := by
  match bs with
  | [] => rfl
  | [_] => rfl
  | _ :: _ :: _ => rfl

theorem rsnSelectorToBitfield_take (bs : Bytes) :
    rsnSelectorToBitfield (bs.take rsnSelectorLen) = rsnSelectorToBitfield bs := by
  unfold rsnSelectorToBitfield rsnSelectorGet
  rw [take_take]
  rfl

theorem rsnKeyMgmtToBitfield_take (bs : Bytes) :
    rsnKeyMgmtToBitfield (bs.take rsnSelectorLen) = rsnKeyMgmtToBitfield bs := by
  unfold rsnKeyMgmtToBitfield rsnSelectorGet
  rw [take_take]
  rfl

theorem rsnIeGroupAt_follows (h : c.In ie) :
    Follows ie (rsnIeGroupAt ie c)
      (ieGroupSuite rsnSelectorToBitfield (·.any wpaCipherValidGroup) (ie.drop c.pos)) := by
  have hleft := h.left_eq
  unfold rsnIeGroupAt ieGroupSuite
  rw [← hleft]
  split
  · rename_i hlen
    rw [h.readAt hlen]
    show Follows ie (if _ then _ else _) _
    rw [rsnSelectorToBitfield_take]
    split
    · rw [drop_drop]
      exact .read _ (c.skip rsnSelectorLen) (h.skip hlen)
    · exact .refused _
  · split
    · exact .refused _
    · exact .read none c h

theorem rsnSuitesAt_run {α : Type} {toBitfield : Bytes → Option α}
    (htake : ∀ bs : Bytes, toBitfield (bs.take rsnSelectorLen) = toBitfield bs) (h : c.In ie) {count : Nat}
    (hcount : count * rsnSelectorLen ≤ c.left) :
    rsnSuitesAt ie toBitfield count c =
      .ok ((List.range count).filterMap fun i => toBitfield ((ie.drop c.pos).drop (i * rsnSelectorLen)),
        c.skip (count * rsnSelectorLen)) := by
  induction count generalizing c with
  | zero =>
    have hskip : c.skip (0 * rsnSelectorLen) = c := by
      unfold IeCursor.skip
      rw [Nat.zero_mul]
      rfl
    rw [hskip]
    rfl
  | succ count ih =>
    have hmul : (count + 1) * rsnSelectorLen = rsnSelectorLen + count * rsnSelectorLen := by
      rw [Nat.add_mul, Nat.one_mul, Nat.add_comm]
    rw [hmul] at hcount
    have hleft : (c.skip rsnSelectorLen).left = c.left - rsnSelectorLen := rfl
    have hrest := ih (h.skip (by omega : rsnSelectorLen ≤ c.left)) (by rw [hleft]; omega)
    have hskip : (c.skip rsnSelectorLen).skip (count * rsnSelectorLen) =
        c.skip ((count + 1) * rsnSelectorLen) := by
      unfold IeCursor.skip
      rw [hmul, Nat.add_assoc, Nat.sub_sub]
    unfold rsnSuitesAt
    rw [h.readAt (by omega : rsnSelectorLen ≤ c.left)]
    show (rsnSuitesAt ie toBitfield count (c.skip rsnSelectorLen) >>= fun rest => _) = _
    rw [hrest, hskip]
    show Except.ok ((toBitfield ((ie.drop c.pos).take rsnSelectorLen)).toList ++ _, _) = _
    rw [htake, range_succ_eq_map, filterMap_cons, filterMap_map]
    have hnext : ((fun i => toBitfield ((ie.drop c.pos).drop (i * rsnSelectorLen))) ∘ Nat.succ) =
        fun i => toBitfield ((ie.drop (c.skip rsnSelectorLen).pos).drop (i * rsnSelectorLen)) := by
      funext i
      show toBitfield ((ie.drop c.pos).drop ((i + 1) * rsnSelectorLen)) =
        toBitfield ((ie.drop (c.pos + rsnSelectorLen)).drop (i * rsnSelectorLen))
      rw [drop_drop, drop_drop, Nat.add_mul, Nat.one_mul, Nat.add_assoc,
        Nat.add_comm rsnSelectorLen]
    rw [hnext, Nat.zero_mul, drop_zero]
    cases toBitfield (ie.drop c.pos) <;> rfl

theorem rsnIeSuitesAt_follows {α : Type} {toBitfield : Bytes → Option α}
    (htake : ∀ bs : Bytes, toBitfield (bs.take rsnSelectorLen) = toBitfield bs) (botch short : Int)
    (h : c.In ie) :
    Follows ie (rsnIeSuitesAt ie toBitfield botch short c) (rsnIeSuites toBitfield (ie.drop c.pos)) := by
  have hleft := h.left_eq
  unfold rsnIeSuitesAt rsnIeSuites
  dsimp only
  rw [← hleft]
  split
  · rename_i hlen
    have hskip := h.skip hlen
    rw [h.readAt hlen]
    show Follows ie (if _ then _ else _) _
    rw [getLe16_take, drop_drop, hskip.left_eq]
    show Follows ie (if getLe16 (ie.drop c.pos) = 0 ∨
      (ie.drop (c.pos + 2)).length / rsnSelectorLen < getLe16 (ie.drop c.pos) then _ else _) _
    split
    · exact .refused _
    · rename_i hcount
      have hroom : getLe16 (ie.drop c.pos) * rsnSelectorLen ≤ (c.skip 2).left := by
        rw [hskip.left_eq]
        show _ * 4 ≤ (ie.drop (c.pos + 2)).length
        have hle : ¬ (ie.drop (c.pos + 2)).length / 4 < getLe16 (ie.drop c.pos) := fun hlt =>
          hcount (.inr hlt)
        omega
      rw [rsnSuitesAt_run htake hskip hroom, drop_drop]
      exact .read _ ((c.skip 2).skip _) (hskip.skip hroom)
  · split
    · exact .refused _
    · exact .read none c h

theorem rsnIeCapabAt_follows (h : c.In ie) :
    Follows ie (rsnIeCapabAt ie c) (some (ieCapabilities (ie.drop c.pos))) := by
  have hleft := h.left_eq
  unfold rsnIeCapabAt ieCapabilities
  rw [← hleft]
  split
  · rename_i hlen
    rw [h.readAt hlen, drop_drop, ← getLe16_take]
    exact .read _ (c.skip 2) (h.skip hlen)
  · exact .read 0 c h

theorem rsnIePmkidsAt_eq (h : c.In ie) :
    rsnIePmkidsAt ie c =
      if 2 ≤ c.left then
        if (ie.drop (c.pos + 2)).length / pmkidLen < getLe16 (ie.drop c.pos) then
          .error (.malformed (-9))
        else
          .ok ((some (c.pos + 2), getLe16 (ie.drop c.pos)),
            (c.skip 2).skip (getLe16 (ie.drop c.pos) * pmkidLen))
      else
        .ok ((none, 0), c) := by
  unfold rsnIePmkidsAt
  split
  · rename_i hlen
    rw [h.readAt hlen]
    show (if (c.skip 2).left / pmkidLen < getLe16 ((ie.drop c.pos).take 2) then _ else _) = _
    rw [getLe16_take, (h.skip hlen).left_eq]
    rfl
  · rfl

theorem rsnIePmkidsAt_follows (h : c.In ie) :
    (∃ code, rsnIePmkidsAt ie c = .error (.malformed code) ∧ iePmkidList (ie.drop c.pos) = none) ∨
      ∃ pmkid num c', rsnIePmkidsAt ie c = .ok ((pmkid, num), c') ∧ c'.In ie ∧
        iePmkidList (ie.drop c.pos) = some (pmkid.map (ie.drop ·), num, ie.drop c'.pos) ∧
        (∀ p ∈ pmkid, p + num * pmkidLen ≤ ie.length) ∧ (pmkid = none → num = 0) := by
  have hleft := h.left_eq
  rw [rsnIePmkidsAt_eq h]
  unfold iePmkidList
  rw [← hleft, drop_drop]
  by_cases hlen : 2 ≤ c.left
  · rw [if_pos hlen, if_pos hlen]
    by_cases hcount : (ie.drop (c.pos + 2)).length / pmkidLen < getLe16 (ie.drop c.pos)
    · rw [if_pos hcount, if_pos hcount]
      exact .inl ⟨-9, rfl, rfl⟩
    · have hskip := h.skip hlen
      have hroom : getLe16 (ie.drop c.pos) * pmkidLen ≤ (c.skip 2).left := by
        have hle : ¬ (ie.drop (c.pos + 2)).length / 16 < getLe16 (ie.drop c.pos) := hcount
        rw [hskip.left_eq]
        show _ * 16 ≤ (ie.drop (c.pos + 2)).length
        omega
      have hsum : (c.pos + 2) + (c.skip 2).left = ie.length := hskip
      rw [if_neg hcount, if_neg hcount, drop_drop]
      refine .inr ⟨some (c.pos + 2), getLe16 (ie.drop c.pos), _, rfl, hskip.skip hroom, rfl, ?_,
        nofun⟩
      intro p hp
      cases hp
      omega
  · rw [if_neg hlen, if_neg hlen]
    refine .inr ⟨none, 0, c, rfl, h, rfl, ?_, fun _ => rfl⟩
    intro p hp
    cases hp

theorem rsnIeMgmtGroupAt_eq (dflt : Option Cipher) (h : c.In ie) :
    (∃ code, rsnIeMgmtGroupAt ie dflt c = .error (.malformed code) ∧
        ieMgmtGroup dflt (ie.drop c.pos) = none) ∨
      ∃ cipher, rsnIeMgmtGroupAt ie dflt c = .ok cipher ∧ ieMgmtGroup dflt (ie.drop c.pos) = some cipher := by
  have hleft := h.left_eq
  unfold rsnIeMgmtGroupAt ieMgmtGroup
  rw [← hleft]
  by_cases hlen : 4 ≤ c.left
  · have hread : readAt ie c.pos rsnSelectorLen = _ := h.readAt hlen
    rw [if_pos hlen, if_pos hlen, hread, ← rsnSelectorToBitfield_take]
    by_cases hvalid : (rsnSelectorToBitfield ((ie.drop c.pos).take rsnSelectorLen)).any
        wpaCipherValidMgmtGroup = true
    · exact .inr ⟨_, if_pos hvalid, if_pos hvalid⟩
    · exact .inl ⟨-10, if_neg hvalid, if_neg hvalid⟩
  · rw [if_neg hlen, if_neg hlen]
    exact .inr ⟨dflt, rfl, rfl⟩

end Follows

/-! ## The header -/

theorem beNat_slice_one {ie : Bytes} {k : Nat} (h : k < ie.length) :
    beNat (slice ie k 1) = (ie.getD k 0).toNat := by
  unfold slice
  rw [drop_eq_getElem_cons h, take_succ_cons, take_zero, beNat_cons,
    getD_eq_getElem?_getD, getElem?_eq_getElem h, length_nil, pow_zero, Nat.mul_one]
  rfl

theorem isOsenAt_eq (ie : Bytes) :
    isOsenAt ie = .ok (decide (6 ≤ ie.length ∧ 4 ≤ (ie.getD 1 0).toNat ∧
      (ie.getD 1 0).toNat = ie.length - 2 ∧ rsnSelectorGet (ie.drop 2) = 0x506f9a12)) := by
  unfold isOsenAt
  by_cases h6 : 6 ≤ ie.length
  · have hread₁ : readAt ie 1 1 = .ok (slice ie 1 1) := if_pos (by omega)
    have hread₂ : readAt ie 2 4 = .ok (slice ie 2 4) := if_pos h6
    have htype : rsnSelectorGet (slice ie 2 4) = rsnSelectorGet (ie.drop 2) := by
      unfold rsnSelectorGet slice
      rw [take_take]
      rfl
    rw [if_pos h6, hread₁, hread₂]
    show Except.ok (decide (4 ≤ beNat (slice ie 1 1) ∧ beNat (slice ie 1 1) = ie.length - 2 ∧
      rsnSelectorGet (slice ie 2 4) = 0x506f9a12)) = _
    rw [beNat_slice_one (by omega), htype]
    simp only [h6, true_and]
  · rw [if_neg h6]
    simp only [h6, false_and, decide_false]
    rfl

theorem rsnIeHeaderAt_follows (ie : Bytes) :
    (∃ code, rsnIeHeaderAt ie = .error (.malformed code) ∧ rsnIeDefaults ie = none) ∨
      ∃ d c, rsnIeHeaderAt ie = .ok (d, c) ∧ c.In ie ∧
        rsnIeDefaults ie = some (d.data ie, ie.drop c.pos) := by
  unfold rsnIeHeaderAt rsnIeDefaults
  by_cases hzero : ie.length = 0
  · rw [if_pos hzero, if_pos (by omega)]
    exact .inl ⟨-1, rfl, rfl⟩
  by_cases hshort : ie.length < 4
  · rw [if_neg hzero, if_pos hshort, if_pos hshort]
    exact .inl ⟨-1, rfl, rfl⟩
  rw [if_neg hzero, if_neg hshort, if_neg hshort, isOsenAt_eq]
  by_cases hosen : 6 ≤ ie.length ∧ 4 ≤ (ie.getD 1 0).toNat ∧ (ie.getD 1 0).toNat = ie.length - 2 ∧
      rsnSelectorGet (ie.drop 2) = 0x506f9a12
  · rw [if_pos hosen, decide_eq_true hosen]
    have hin : (⟨6, ie.length - 6⟩ : IeCursor).In ie := by
      show 6 + (ie.length - 6) = ie.length
      omega
    exact .inr ⟨_, ⟨6, ie.length - 6⟩, rfl, hin, rfl⟩
  · have hread₀ : readAt ie 0 1 = .ok (slice ie 0 1) := if_pos (by omega)
    have hread₁ : readAt ie 1 1 = .ok (slice ie 1 1) := if_pos (by omega)
    have hread₂ : readAt ie 2 2 = .ok (slice ie 2 2) := if_pos (by omega)
    have hid : beNat (slice ie 0 1) ≠ 48 ↔ ie.getD 0 0 ≠ 48 := by
      rw [beNat_slice_one (by omega)]
      exact not_congr ⟨fun h => UInt8.toNat_inj.mp h, fun h => congrArg UInt8.toNat h⟩
    have hversion : getLe16 (slice ie 2 2) = getLe16 (ie.drop 2) := getLe16_take _
    rw [if_neg hosen, decide_eq_false hosen, hread₀, hread₁, hread₂]
    show (∃ code, (if beNat (slice ie 0 1) ≠ 48 ∨ beNat (slice ie 1 1) ≠ ie.length - 2 ∨
      getLe16 (slice ie 2 2) ≠ 1 then _ else _) = _ ∧ _) ∨ ∃ d c, (if beNat (slice ie 0 1) ≠ 48 ∨
      beNat (slice ie 1 1) ≠ ie.length - 2 ∨ getLe16 (slice ie 2 2) ≠ 1 then _ else _) = _ ∧ _
    rw [beNat_slice_one (k := 1) (by omega), hversion]
    by_cases hbad : ie.getD 0 0 ≠ 48 ∨ (ie.getD 1 0).toNat ≠ ie.length - 2 ∨ getLe16 (ie.drop 2) ≠ 1
    · exact .inl ⟨-2, if_pos (hbad.imp hid.mpr id), if_pos hbad⟩
    · have hin : (⟨4, ie.length - 4⟩ : IeCursor).In ie := by
        show 4 + (ie.length - 4) = ie.length
        omega
      exact .inr ⟨_, ⟨4, ie.length - 4⟩, if_neg fun h => hbad (h.imp hid.mp id), hin, if_neg hbad⟩

/-! ## The whole parser -/

/-- What the parser returns has the PMKID list inside the element. -/
structure WpaIeAt.PmkidsInside (d : WpaIeAt) (ie : Bytes) : Prop where
  list : ∀ p ∈ d.pmkid, p + d.numPmkid * pmkidLen ≤ ie.length
  none : d.pmkid = none → d.numPmkid = 0

/-- **Reading through the pointer** gives what `wpaParseWpaIeRsnData` says, and never leaves the element. -/
theorem wpaParseWpaIeRsnAt_data (ie : Bytes) :
    (∃ code, wpaParseWpaIeRsnAt ie = .error (.malformed code) ∧ wpaParseWpaIeRsnData ie = none) ∨
      ∃ d, wpaParseWpaIeRsnAt ie = .ok d ∧ wpaParseWpaIeRsnData ie = some (d.data ie) ∧
        d.PmkidsInside ie := by
  unfold wpaParseWpaIeRsnAt wpaParseWpaIeRsnData
  rcases rsnIeHeaderAt_follows ie with ⟨code, hat, hdata⟩ | ⟨d, c, hat, hc, hdata⟩ <;> rw [hat, hdata]
  · exact .inl ⟨code, rfl, rfl⟩
  simp only [bind, Except.bind, Option.bind_some]
  rcases (rsnIeGroupAt_follows hc).split with ⟨code, hat, hdata⟩ | ⟨group, c, hat, hc, hdata⟩ <;>
    rw [hat, hdata]
  · exact .inl ⟨code, rfl, rfl⟩
  simp only [Option.bind_some]
  rcases (rsnIeSuitesAt_follows rsnSelectorToBitfield_take (-4) (-5) hc).split with
    ⟨code, hat, hdata⟩ | ⟨pairwise, c, hat, hc, hdata⟩ <;> rw [hat, hdata]
  · exact .inl ⟨code, rfl, rfl⟩
  simp only [Option.bind_some]
  by_cases hcmac : pairwise.any (·.contains .aes128Cmac) = true
  · rw [if_pos hcmac, if_pos hcmac]
    exact .inl ⟨-1, rfl, rfl⟩
  rw [if_neg hcmac, if_neg hcmac]
  simp only [pure]
  rcases (rsnIeSuitesAt_follows rsnKeyMgmtToBitfield_take (-6) (-7) hc).split with
    ⟨code, hat, hdata⟩ | ⟨keyMgmt, c, hat, hc, hdata⟩ <;> rw [hat, hdata]
  · exact .inl ⟨code, rfl, rfl⟩
  simp only [Option.bind_some]
  rcases (rsnIeCapabAt_follows hc).split with ⟨code, hat, hdata⟩ | ⟨capab, c, hat, hc, hdata⟩
  · cases hdata
  rw [hat, Option.some.inj hdata]
  simp only
  rcases rsnIePmkidsAt_follows hc with ⟨code, hat, hdata⟩ | ⟨pmkid, num, c, hat, hc, hdata, hin, hzero⟩ <;>
    rw [hat, hdata]
  · exact .inl ⟨code, rfl, rfl⟩
  simp only [Option.bind_some]
  rcases rsnIeMgmtGroupAt_eq d.mgmtGroupCipher hc with ⟨code, hat, hdata⟩ | ⟨cipher, hat, hdata⟩
  · refine .inl ⟨code, ?_, ?_⟩
    · rw [hat]
    · exact Option.bind_eq_none_iff.mpr fun a ha => by cases hdata.symm.trans ha
  · refine .inr ⟨⟨d.proto, pairwise.getD d.pairwiseCipher, group.getD d.groupCipher,
      keyMgmt.getD d.keyMgmt, capab, pmkid, num, cipher⟩, ?_,
      Option.bind_eq_some_iff.mpr ⟨cipher, hdata, rfl⟩, ⟨hin, hzero⟩⟩
    rw [hat]
    rfl

/-! ## The language of the parser -/

def suiteField (suites : List Nat) : Bytes := le16 suites.length ++ suitesOctets suites

/-- A list of suites an element can carry. -/
structure SuiteList (suites : List Nat) : Prop where
  ne_nil : suites ≠ []
  count : suites.length < 65536
  selectors : ∀ s ∈ suites, s < 2 ^ 32

/-- What may stand behind the PMKIDs. -/
inductive BehindPmkids : Bytes → Prop
  | trailing (rest : Bytes) (hrest : rest.length < 4) : BehindPmkids rest
  | mgmtGroup (suite : Nat) (rest : Bytes) (hsuite : suite < 2 ^ 32)
    (hvalid : (rsnSelectorToBitfield (natBe 4 suite)).any wpaCipherValidMgmtGroup = true) :
    BehindPmkids (natBe 4 suite ++ rest)

/-- What may stand behind the capabilities. -/
inductive BehindCapab : Bytes → Prop
  | trailing (rest : Bytes) (hrest : rest.length < 2) : BehindCapab rest
  | pmkids (num : Nat) (list rest : Bytes) (hnum : num < 65536) (hlist : list.length = num * pmkidLen)
    (hrest : BehindPmkids rest) : BehindCapab (le16 num ++ (list ++ rest))

/-- What may stand behind the AKM suites. -/
inductive BehindAkms : Bytes → Prop
  | trailing (rest : Bytes) (hrest : rest.length < 2) : BehindAkms rest
  | capab (capab rest : Bytes) (hcapab : capab.length = 2) (hrest : BehindCapab rest) :
    BehindAkms (capab ++ rest)

/-- What may stand behind the pairwise suites. -/
inductive BehindPairwise : Bytes → Prop
  | end : BehindPairwise []
  | akms (suites : List Nat) (rest : Bytes) (hsuites : SuiteList suites) (hrest : BehindAkms rest) :
    BehindPairwise (suiteField suites ++ rest)

/-- What may stand behind the group suite, with pairwise ciphers `ok` admits. -/
inductive BehindGroup (ok : List Cipher → Prop) : Bytes → Prop
  | end : BehindGroup ok []
  | pairwise (suites : List Nat) (rest : Bytes) (hsuites : SuiteList suites)
    (hok : ok (suites.filterMap fun s => rsnSelectorToBitfield (natBe 4 s)))
    (hrest : BehindPairwise rest) : BehindGroup ok (suiteField suites ++ rest)

/-- What may stand behind the header. -/
inductive BehindHeader (ok : List Cipher → Prop) : Bytes → Prop
  | end : BehindHeader ok []
  | group (suite : Nat) (rest : Bytes) (hsuite : suite < 2 ^ 32)
    (hvalid : (rsnSelectorToBitfield (natBe 4 suite)).any wpaCipherValidGroup = true)
    (hrest : BehindGroup ok rest) : BehindHeader ok (natBe 4 suite ++ rest)

/-- An RSN element or an OSEN element. Any id goes with the type of the latter. -/
inductive RsnElement (ok : List Cipher → Prop) : Bytes → Prop
  | rsn (rest : Bytes) (hlen : rest.length + 2 < 256) (hrest : BehindHeader ok rest) :
    RsnElement ok (48 :: UInt8.ofNat (rest.length + 2) :: (le16 1 ++ rest))
  | osen (id : UInt8) (rest : Bytes) (hlen : rest.length + 4 < 256) (hrest : BehindHeader ok rest) :
    RsnElement ok (id :: UInt8.ofNat (rest.length + 4) :: (natBe 4 0x506f9a12 ++ rest))

/-! ## Cutting an element into fields -/

theorem exists_selector {left : Bytes} (h : 4 ≤ left.length) :
    ∃ suite, left = natBe 4 suite ++ left.drop 4 ∧ suite < 2 ^ 32 := by
  have htake : (left.take 4).length = 4 := length_take_of_le h
  have hoctets := natBe_beNat htake
  have hlt := beNat_lt (left.take 4)
  rw [htake] at hlt
  refine ⟨beNat (left.take 4), ?_, hlt⟩
  rw [hoctets, take_append_drop]

theorem exists_selectors {left : Bytes} {n : Nat} (h : n * rsnSelectorLen ≤ left.length) :
    ∃ suites, suites.length = n ∧ (∀ s ∈ suites, s < 2 ^ 32) ∧
      left = suitesOctets suites ++ left.drop (n * rsnSelectorLen) := by
  induction n generalizing left with
  | zero =>
    refine ⟨[], rfl, fun s hs => absurd hs not_mem_nil, ?_⟩
    rw [Nat.zero_mul]
    rfl
  | succ n ih =>
    have hmul : (n + 1) * rsnSelectorLen = 4 + n * rsnSelectorLen := by
      rw [Nat.add_mul, Nat.one_mul, Nat.add_comm]
      rfl
    rw [hmul] at h ⊢
    obtain ⟨suite, hleft, hlt⟩ := exists_selector (show 4 ≤ left.length by omega)
    obtain ⟨suites, hlen, hall, hrest⟩ := ih (show n * rsnSelectorLen ≤ (left.drop 4).length by
      rw [length_drop]
      omega)
    refine ⟨suite :: suites, by rw [length_cons, hlen], ?_, ?_⟩
    · intro s hs
      rcases mem_cons.mp hs with rfl | hs
      · exact hlt
      · exact hall s hs
    · rw [drop_drop] at hrest
      rw [suitesOctets_cons, append_assoc, ← hrest]
      exact hleft

theorem exists_le16 {left : Bytes} (h : 2 ≤ left.length) :
    left = le16 (getLe16 left) ++ left.drop 2 ∧ getLe16 left < 65536 := by
  match left with
  | a :: b :: rest =>
    have ha := a.toNat_lt
    have hb := b.toNat_lt
    have hvalue : getLe16 (a :: b :: rest) = a.toNat + 256 * b.toNat := rfl
    have hlow : UInt8.ofNat (a.toNat + 256 * b.toNat) = a := by
      apply UInt8.toNat_inj.mp
      rw [UInt8.toNat_ofNat']
      omega
    have hhigh : UInt8.ofNat ((a.toNat + 256 * b.toNat) / 256) = b := by
      apply UInt8.toNat_inj.mp
      rw [UInt8.toNat_ofNat']
      omega
    refine ⟨?_, by omega⟩
    rw [hvalue]
    show a :: b :: rest = UInt8.ofNat _ :: UInt8.ofNat _ :: rest
    rw [hlow, hhigh]

/-! ## Field by field -/

theorem ieMgmtGroup_iff (dflt : Option Cipher) (left : Bytes) :
    (ieMgmtGroup dflt left).isSome ↔ BehindPmkids left := by
  constructor
  · intro h
    by_cases hlen : 4 ≤ left.length
    · obtain ⟨suite, hleft, hlt⟩ := exists_selector hlen
      unfold ieMgmtGroup at h
      rw [if_pos hlen] at h
      by_cases hvalid : (rsnSelectorToBitfield left).any wpaCipherValidMgmtGroup = true
      · rw [hleft] at hvalid ⊢
        rw [rsnSelectorToBitfield_append (natBe_length 4 suite)] at hvalid
        exact .mgmtGroup suite _ hlt hvalid
      · rw [if_neg hvalid] at h
        cases h
    · exact .trailing left (by omega)
  · intro h
    unfold ieMgmtGroup
    cases h with
    | trailing _ hrest =>
      rw [if_neg (by omega)]
      rfl
    | mgmtGroup suite rest hsuite hvalid =>
      have hlen : (natBe 4 suite).length = 4 := natBe_length 4 suite
      rw [if_pos (by rw [length_append]; omega), rsnSelectorToBitfield_append hlen, if_pos hvalid]
      cases hcipher : rsnSelectorToBitfield (natBe 4 suite) with
      | none =>
        rw [hcipher] at hvalid
        cases hvalid
      | some cipher => rfl

theorem iePmkidList_iff (dflt : Option Cipher) (left : Bytes) :
    (∃ pmkid num rest, iePmkidList left = some (pmkid, num, rest) ∧ (ieMgmtGroup dflt rest).isSome) ↔
      BehindCapab left := by
  constructor
  · rintro ⟨pmkid, num, rest, h, hrest⟩
    rw [ieMgmtGroup_iff] at hrest
    unfold iePmkidList at h
    split at h
    · rename_i hlen
      split at h
      · cases h
      · rename_i hcount
        cases h
        obtain ⟨hleft, hnum⟩ := exists_le16 hlen
        have hroom : getLe16 left * pmkidLen ≤ (left.drop 2).length := by
          have hle : ¬ (left.drop 2).length / 16 < getLe16 left := hcount
          show _ * 16 ≤ _
          omega
        rw [hleft, ← take_append_drop (getLe16 left * pmkidLen) (left.drop 2)]
        exact .pmkids (getLe16 left) _ _ hnum (length_take_of_le hroom) hrest
    · rename_i hlen
      exact .trailing left (by omega)
  · intro h
    unfold iePmkidList
    cases h with
    | trailing _ hrest =>
      refine ⟨none, 0, left, if_neg (by omega), ?_⟩
      rw [ieMgmtGroup_iff]
      exact .trailing left (by omega)
    | pmkids num list rest hnum hlist hrest =>
      have hdrop : (le16 num ++ (list ++ rest)).drop 2 = list ++ rest := rfl
      have hvalue : getLe16 (le16 num ++ (list ++ rest)) = num :=
        Tlv.getLe16_le16_append (by omega) _
      have hskip : (list ++ rest).drop (num * pmkidLen) = rest := by
        rw [← hlist, drop_left]
      have hroom : ¬ (list ++ rest).length / pmkidLen < num := by
        rw [length_append, hlist]
        show ¬ (num * 16 + rest.length) / 16 < num
        omega
      refine ⟨some (list ++ rest), num, rest, ?_, (ieMgmtGroup_iff dflt rest).mpr hrest⟩
      rw [if_pos (by rw [length_append, le16_length]; omega), hdrop, hvalue, if_neg hroom, hskip]

theorem ieCapabilities_iff (left : Bytes) :
    BehindCapab (ieCapabilities left).2 ↔ BehindAkms left := by
  constructor
  · intro h
    unfold ieCapabilities at h
    by_cases hlen : 2 ≤ left.length
    · rw [if_pos hlen] at h
      rw [← take_append_drop 2 left]
      exact .capab _ _ (length_take_of_le hlen) h
    · exact .trailing left (by omega)
  · intro h
    unfold ieCapabilities
    cases h with
    | trailing _ hrest =>
      rw [if_neg (by omega)]
      exact .trailing left hrest
    | capab capab rest hcapab hrest =>
      rw [if_pos (by rw [length_append]; omega), drop_left' hcapab]
      exact hrest

theorem rsnIeSuites_cases {α : Type} {toBitfield : Bytes → Option α}
    (happend : ∀ s : Bytes, s.length = 4 → ∀ rest, toBitfield (s ++ rest) = toBitfield s)
    {left rest : Bytes} {l : Option (List α)} (h : rsnIeSuites toBitfield left = some (l, rest)) :
    (left = [] ∧ l = none ∧ rest = []) ∨
      ∃ suites, SuiteList suites ∧ left = suiteField suites ++ rest ∧
        l = some (suites.filterMap fun s => toBitfield (natBe 4 s)) := by
  have hread := h
  unfold rsnIeSuites at h
  split at h
  · rename_i hlen
    dsimp only at h
    split at h
    · cases h
    · rename_i hcount
      obtain ⟨hleft, hnum⟩ := exists_le16 hlen
      have hroom : getLe16 left * rsnSelectorLen ≤ (left.drop 2).length := by
        have hle : ¬ (left.drop 2).length / 4 < getLe16 left := fun hlt => hcount (.inr hlt)
        show _ * 4 ≤ _
        omega
      obtain ⟨suites, hsuites, hall, hrest⟩ := exists_selectors hroom
      have hne : suites ≠ [] := by
        intro hnil
        rw [hnil] at hsuites
        exact hcount (.inl hsuites.symm)
      cases h
      have hfield : left = suiteField suites ++ (left.drop 2).drop (getLe16 left * rsnSelectorLen) := by
        unfold suiteField
        rw [hsuites, append_assoc, ← hrest]
        exact hleft
      have hagain := rsnIeSuites_suites happend hne (by omega)
        ((left.drop 2).drop (getLe16 left * rsnSelectorLen))
      refine .inr ⟨suites, ⟨hne, by omega, hall⟩, hfield, ?_⟩
      have hsame : rsnIeSuites toBitfield left = some (some (suites.filterMap fun s => toBitfield
          (natBe 4 s)), (left.drop 2).drop (getLe16 left * rsnSelectorLen)) := by
        conv_lhs => rw [hfield]
        exact hagain
      exact (Prod.mk.inj (Option.some.inj (hread.symm.trans hsame))).1
  · split at h
    · cases h
    · rename_i hlen hone
      cases h
      have hnil : left = [] := eq_nil_of_length_eq_zero (by omega)
      exact .inl ⟨hnil, rfl, hnil⟩

theorem rsnIeSuites_field {α : Type} {toBitfield : Bytes → Option α}
    (happend : ∀ s : Bytes, s.length = 4 → ∀ rest, toBitfield (s ++ rest) = toBitfield s)
    {suites : List Nat} (h : SuiteList suites) (rest : Bytes) :
    rsnIeSuites toBitfield (suiteField suites ++ rest) =
      some (some (suites.filterMap fun s => toBitfield (natBe 4 s)), rest) :=
  rsnIeSuites_suites happend h.ne_nil h.count rest

theorem rsnKeyMgmt_iff (left : Bytes) :
    (∃ keyMgmt rest, rsnIeSuites rsnKeyMgmtToBitfield left = some (keyMgmt, rest) ∧ BehindAkms rest) ↔
      BehindPairwise left := by
  constructor
  · rintro ⟨keyMgmt, rest, h, hrest⟩
    rcases rsnIeSuites_cases (fun _ => rsnKeyMgmtToBitfield_append) h with
      ⟨rfl, -, -⟩ | ⟨suites, hsuites, rfl, -⟩
    · exact .end
    · exact .akms suites rest hsuites hrest
  · intro h
    cases h with
    | «end» => exact ⟨none, [], rfl, .trailing [] (by decide)⟩
    | akms suites rest hsuites hrest =>
      exact ⟨_, rest, rsnIeSuites_field (fun _ => rsnKeyMgmtToBitfield_append) hsuites rest, hrest⟩

theorem rsnPairwise_iff (left : Bytes) :
    (∃ pairwise rest, rsnIeSuites rsnSelectorToBitfield left = some (pairwise, rest) ∧
        ¬ pairwise.any (·.contains .aes128Cmac) = true ∧ BehindPairwise rest) ↔
      BehindGroup (.aes128Cmac ∉ ·) left := by
  constructor
  · rintro ⟨pairwise, rest, h, hcmac, hrest⟩
    rcases rsnIeSuites_cases (fun _ => rsnSelectorToBitfield_append) h with
      ⟨rfl, -, -⟩ | ⟨suites, hsuites, rfl, rfl⟩
    · exact .end
    · exact .pairwise suites rest hsuites (fun hmem => hcmac (contains_iff_mem.mpr hmem)) hrest
  · intro h
    cases h with
    | «end» => exact ⟨none, [], rfl, Bool.false_ne_true, .end⟩
    | pairwise suites rest hsuites hok hrest =>
      exact ⟨_, rest, rsnIeSuites_field (fun _ => rsnSelectorToBitfield_append) hsuites rest,
        fun hany => hok (contains_iff_mem.mp hany), hrest⟩

theorem ieGroupSuite_iff (ok : List Cipher → Prop) (left : Bytes) :
    (∃ group rest, ieGroupSuite rsnSelectorToBitfield (·.any wpaCipherValidGroup) left =
        some (group, rest) ∧ BehindGroup ok rest) ↔ BehindHeader ok left := by
  constructor
  · rintro ⟨group, rest, h, hrest⟩
    unfold ieGroupSuite at h
    split at h
    · rename_i hlen
      split at h
      · rename_i hvalid
        cases h
        obtain ⟨suite, hleft, hlt⟩ := exists_selector hlen
        rw [hleft, rsnSelectorToBitfield_append (natBe_length 4 suite)] at hvalid
        rw [hleft]
        exact .group suite _ hlt hvalid hrest
      · cases h
    · split at h
      · cases h
      · cases h
        have hnil : left = [] := eq_nil_of_length_eq_zero (by omega)
        rw [hnil]
        exact .end
  · intro h
    unfold ieGroupSuite
    cases h with
    | «end» => exact ⟨none, [], rfl, .end⟩
    | group suite rest hsuite hvalid hrest =>
      have hlen : (natBe 4 suite).length = 4 := natBe_length 4 suite
      have hdrop : (natBe 4 suite ++ rest).drop rsnSelectorLen = rest := drop_left' hlen
      refine ⟨some (rsnSelectorToBitfield (natBe 4 suite)), rest, ?_, hrest⟩
      rw [if_pos (by rw [length_append, hlen]; exact Nat.le_add_right 4 _),
        rsnSelectorToBitfield_append hlen, if_pos hvalid, hdrop]

theorem take_of_selector {bs : Bytes} {suite : Nat} (hlen : 4 ≤ bs.length)
    (h : rsnSelectorGet bs = suite) : bs.take 4 = natBe 4 suite := by
  rw [← h]
  exact (natBe_beNat (length_take_of_le hlen)).symm

theorem octet_ofNat {n : Nat} (h : n < 256) : (UInt8.ofNat n).toNat = n := by
  rw [UInt8.toNat_ofNat']
  omega

theorem rsnElement_of_defaults {ok : List Cipher → Prop} {ie left : Bytes} {data : WpaIe}
    (h : rsnIeDefaults ie = some (data, left)) (hleft : BehindHeader ok left) : RsnElement ok ie := by
  unfold rsnIeDefaults at h
  split at h
  · cases h
  rename_i hlen
  obtain ⟨id, len, body, rfl⟩ : ∃ id len body, ie = id :: len :: body := by
    cases ie with
    | nil => exact absurd (show 0 < 4 by decide) hlen
    | cons id tail =>
      cases tail with
      | nil => exact absurd (show 1 < 4 by decide) hlen
      | cons len body => exact ⟨id, len, body, rfl⟩
  have hlength : (id :: len :: body).length = body.length + 2 := rfl
  have hoctet := len.toNat_lt
  split at h
  · rename_i hosen
    obtain ⟨h6, -, hl, htype⟩ := hosen
    cases h
    have hl' : len.toNat = body.length := hl
    have hfour : 4 ≤ body.length := by omega
    have hbody : body = natBe 4 0x506f9a12 ++ body.drop 4 := by
      rw [← take_of_selector hfour htype, take_append_drop]
    have hdrop : (body.drop 4).length + 4 = body.length := by
      rw [length_drop]
      omega
    have hlenOctet : len = UInt8.ofNat ((body.drop 4).length + 4) := by
      apply UInt8.toNat_inj.mp
      rw [hdrop, octet_ofNat (by omega), hl']
    have hwhole : id :: len :: body =
        id :: UInt8.ofNat ((body.drop 4).length + 4) :: (natBe 4 0x506f9a12 ++ body.drop 4) := by
      rw [← hlenOctet, ← hbody]
    rw [hwhole]
    exact .osen id (body.drop 4) (by omega) hleft
  · split at h
    · cases h
    · rename_i hgood
      cases h
      have hid : id = 48 := by
        by_contra hne
        exact hgood (.inl hne)
      have hl : len.toNat = body.length := by
        by_contra hne
        exact hgood (.inr (.inl hne))
      have hversion : getLe16 body = 1 := by
        by_contra hne
        exact hgood (.inr (.inr hne))
      obtain ⟨hbody, -⟩ := exists_le16 (show 2 ≤ body.length by omega)
      rw [hversion] at hbody
      have hdrop : (body.drop 2).length + 2 = body.length := by
        rw [length_drop]
        omega
      have hlenOctet : len = UInt8.ofNat ((body.drop 2).length + 2) := by
        apply UInt8.toNat_inj.mp
        rw [hdrop, octet_ofNat (by omega), hl]
      have hwhole : id :: len :: body =
          48 :: UInt8.ofNat ((body.drop 2).length + 2) :: (le16 1 ++ body.drop 2) := by
        rw [← hlenOctet, ← hbody, hid]
      rw [hwhole]
      exact .rsn (body.drop 2) (by omega) hleft

theorem rsnIeDefaults_iff (ok : List Cipher → Prop) (ie : Bytes) :
    (∃ data left, rsnIeDefaults ie = some (data, left) ∧ BehindHeader ok left) ↔ RsnElement ok ie := by
  constructor
  · rintro ⟨data, left, h, hleft⟩
    exact rsnElement_of_defaults h hleft
  · intro h
    unfold rsnIeDefaults
    cases h with
    | rsn rest hlen hrest =>
      have hlength : (48 :: UInt8.ofNat (rest.length + 2) :: (le16 1 ++ rest) : Bytes).length =
          rest.length + 4 := by
        simp only [length_cons, length_append, le16_length]
        omega
      have hoctet := octet_ofNat hlen
      have hversion : getLe16 (le16 1 ++ rest) = 1 := Tlv.getLe16_le16_append (by decide) rest
      rw [hlength, if_neg (by omega), if_neg, if_neg]
      · exact ⟨_, rest, rfl, hrest⟩
      · rintro (h | h | h)
        · exact h rfl
        · exact h (by show (UInt8.ofNat (rest.length + 2)).toNat = _; omega)
        · exact h hversion
      · -- the version is not the type of an OSEN element
        rintro ⟨h6, -, -, htype⟩
        have hfour : 4 ≤ (le16 1 ++ rest).length := by
          rw [length_append, le16_length]
          omega
        have htake := take_of_selector hfour htype
        exact absurd (List.cons.inj htake).1 (by decide)
    | osen id rest hlen hrest =>
      have hfour : (natBe 4 0x506f9a12).length = 4 := natBe_length 4 _
      have hlength : (id :: UInt8.ofNat (rest.length + 4) :: (natBe 4 0x506f9a12 ++ rest) : Bytes).length =
          rest.length + 6 := by
        simp only [length_cons, length_append, hfour]
        omega
      have hoctet := octet_ofNat hlen
      have htype : rsnSelectorGet (natBe 4 0x506f9a12 ++ rest) = 0x506f9a12 := by
        rw [rsnSelectorGet_append hfour]
        rfl
      rw [hlength, if_neg (by omega), if_pos]
      · exact ⟨_, rest, rfl, hrest⟩
      · refine ⟨by omega, ?_, ?_, htype⟩
        · show 4 ≤ (UInt8.ofNat (rest.length + 4)).toNat
          omega
        · show (UInt8.ofNat (rest.length + 4)).toNat = _
          omega

/-- **The parser without a pointer accepts the language.** -/
theorem wpaParseWpaIeRsnData_iff (ie : Bytes) :
    (∃ data, wpaParseWpaIeRsnData ie = some data) ↔ RsnElement (.aes128Cmac ∉ ·) ie := by
  rw [← rsnIeDefaults_iff]
  constructor
  · rintro ⟨data, h⟩
    simp only [wpaParseWpaIeRsnData, bind, Option.bind_eq_some_iff] at h
    obtain ⟨⟨dflt, left₁⟩, hhdr, ⟨group, left₂⟩, hgroup, ⟨pairwise, left₃⟩, hpairwise, h⟩ := h
    by_cases hcmac : pairwise.any (·.contains .aes128Cmac) = true
    · rw [if_pos hcmac] at h
      cases h
    rw [if_neg hcmac] at h
    simp only [pure, Option.bind_eq_some_iff] at h
    obtain ⟨⟨keyMgmt, left₄⟩, hkeyMgmt, ⟨list, numPmkid, left₅⟩, hpmkids, mgmt, hmgmt, -⟩ := h
    have hcapab := (iePmkidList_iff dflt.mgmtGroupCipher _).mp
      ⟨list, numPmkid, left₅, hpmkids, Option.isSome_of_eq_some hmgmt⟩
    have hakms := (rsnKeyMgmt_iff left₃).mp ⟨keyMgmt, left₄, hkeyMgmt, (ieCapabilities_iff left₄).mp hcapab⟩
    exact ⟨dflt, left₁, hhdr, (ieGroupSuite_iff _ left₁).mp ⟨group, left₂, hgroup,
      (rsnPairwise_iff left₂).mp ⟨pairwise, left₃, hpairwise, hcmac, hakms⟩⟩⟩
  · rintro ⟨dflt, left₁, hhdr, hleft₁⟩
    obtain ⟨group, left₂, hgroup, hleft₂⟩ := (ieGroupSuite_iff _ left₁).mpr hleft₁
    obtain ⟨pairwise, left₃, hpairwise, hcmac, hleft₃⟩ := (rsnPairwise_iff left₂).mpr hleft₂
    obtain ⟨keyMgmt, left₄, hkeyMgmt, hleft₄⟩ := (rsnKeyMgmt_iff left₃).mpr hleft₃
    obtain ⟨list, numPmkid, left₅, hpmkids, hmgmt⟩ :=
      (iePmkidList_iff dflt.mgmtGroupCipher _).mpr ((ieCapabilities_iff left₄).mpr hleft₄)
    obtain ⟨mgmt, hmgmt⟩ := Option.isSome_iff_exists.mp hmgmt
    suffices h : (wpaParseWpaIeRsnData ie).isSome from Option.isSome_iff_exists.mp h
    unfold wpaParseWpaIeRsnData
    rw [hhdr]
    simp only [bind, Option.bind_some]
    rw [hgroup]
    simp only [Option.bind_some]
    rw [hpairwise]
    simp only [Option.bind_some]
    rw [if_neg hcmac]
    simp only [pure]
    rw [hkeyMgmt]
    simp only [Option.bind_some]
    rw [hpmkids]
    simp only [Option.bind_some]
    rw [hmgmt]
    rfl

/-- **The language of `wpa_parse_wpa_ie_rsn()`**, which reads nothing outside the element, and where it
points to PMKIDs has them inside. -/
theorem wpa_parse_rsn_grammar (ie : Bytes) :
    (∀ off len, wpaParseWpaIeRsnAt ie ≠ .error (.outside off len)) ∧
    ((∃ d, wpaParseWpaIeRsnAt ie = .ok d) ↔ RsnElement (.aes128Cmac ∉ ·) ie) ∧
    ∀ d, wpaParseWpaIeRsnAt ie = .ok d → d.PmkidsInside ie := by
  have hiff := wpaParseWpaIeRsnData_iff ie
  rcases wpaParseWpaIeRsnAt_data ie with ⟨code, hat, hdata⟩ | ⟨d, hat, hdata, hin⟩ <;> rw [hat]
  · -- a refusal, of an element that is not in the language
    refine ⟨fun off len h => (by cases h), ⟨?_, ?_⟩, fun d h => (by cases h)⟩
    · rintro ⟨d, h⟩
      cases h
    · intro h
      obtain ⟨data, h⟩ := hiff.mpr h
      cases hdata.symm.trans h
  · refine ⟨fun off len h => (by cases h), ⟨fun _ => hiff.mp ⟨_, hdata⟩, fun _ => ⟨d, rfl⟩⟩, ?_⟩
    intro d' h
    cases h
    exact hin

/-- AES-128-CMAC as a pairwise cipher is refused, in an element that is otherwise complete. -/
theorem wpa_parse_rsn_pairwise_cmac :
    RsnElement (fun _ => True) [48, 12, 1, 0, 0, 0x0f, 0xac, 4, 1, 0, 0, 0x0f, 0xac, 6] ∧
      wpaParseWpaIeRsnAt [48, 12, 1, 0, 0, 0x0f, 0xac, 4, 1, 0, 0, 0x0f, 0xac, 6] =
        .error (.malformed (-1)) := by
  refine ⟨?_, by decide⟩
  have hsuites : SuiteList [0x000fac06] := ⟨by decide, by decide, by decide⟩
  exact .rsn [0, 0x0f, 0xac, 4, 1, 0, 0, 0x0f, 0xac, 6] (by decide)
    (.group 0x000fac04 _ (by decide) (by decide) (.pairwise [0x000fac06] [] hsuites trivial .end))

end Hostap
