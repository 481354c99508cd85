import Hostap.Lib.Except
import Hostap.Lib.Reads
import Hostap.Sae.CommitFormat

/-!
# Where a Commit is read

`sae_parse_commit()` on the octets it is given. The functions of Sae.Frames take the octets from a cursor on as
a list, so that nothing can be read outside them; here the cursor is an offset, every octet is read at its
place, and the differences of pointers and lengths are those of unsigned numbers. An access outside the body or
a difference that wraps is an error.

* every function does what its counterpart on lists does, from any cursor within the body, without an error;
* a token that is read has 32 octets or more, since the element behind it lies in what is left of them.
-/

namespace Hostap

open Octets Buffer List

variable {P : Type}

/-- `sae_is_password_id_elem()`. -/
def saeIsPasswordIdElemAt (data : Bytes) (pos : Nat) : Except OutOfBounds Bool := do
  let left ← diff data.length pos
  if left < 3 then .ok false
  else do
    let id ← octetAt data pos
    if id ≠ 255 then .ok false
    else do
      let len ← octetAt data (pos + 1)
      if len.toNat < 1 then .ok false
      else do
        let room ← diff left 2
        if room < len.toNat then .ok false
        else do
          let ext ← octetAt data (pos + 2)
          .ok (ext == 33)

/-- The length of the token: a Password Identifier element in the end is removed from it. -/
def saeTokenLenAt (data : Bytes) (elem tlen : Nat) : Except OutOfBounds Nat := do
  let isElem ← saeIsPasswordIdElemAt data elem
  if isElem then do
    let len ← octetAt data (elem + 1)
    diff tlen (2 + len.toNat)
  else .ok tlen

/-- `sae_parse_commit_token()`: where the token is and how long, and the cursor after it. -/
def saeParseCommitTokenAt (g : SaeGroup P) (data : Bytes) (pos : Nat) :
    Except OutOfBounds (Option (Nat × Nat) × Nat) := do
  let left ← diff data.length pos
  if g.scalarElemLen ≥ left then .ok (none, pos)
  else do
    let tlen ← diff data.length (pos + g.scalarElemLen)
    if tlen < sha256MacLen then .ok (none, pos)
    else do
      let isElem ← saeIsPasswordIdElemAt data (pos + g.scalarElemLen)
      if isElem then .ok (none, pos)
      else do
        let tlen ← saeTokenLenAt data (pos + g.scalarElemLen + sha256MacLen) tlen
        -- the token is printed
        let _ ← part data pos tlen
        .ok (some (pos, tlen), pos + tlen)

/-- `sae_parse_commit_scalar()`. -/
def saeParseCommitScalarAt (g : SaeGroup P) (sae : SaeData P) (data : Bytes) (pos : Nat) :
    Except OutOfBounds (Nat × SaeData P × Nat) := do
  let left ← diff data.length pos
  if g.primeLen > left then .ok (wlanStatusUnspecifiedFailure, sae, pos)
  else do
    let scalar ← part data pos g.primeLen
    if sae.state = .accepted ∧ sae.peerCommitScalar = some (beNat scalar) then
      .ok (wlanStatusUnspecifiedFailure, sae, pos)
    else if beNat scalar = 0 ∨ beNat scalar = 1 ∨ g.order ≤ beNat scalar then
      .ok (wlanStatusUnspecifiedFailure, sae, pos)
    else
      .ok (wlanStatusSuccess, { sae with peerCommitScalar := some (beNat scalar) }, pos + g.primeLen)

/-- `sae_parse_commit_element_ecc()`. -/
def saeParseCommitElementEccAt (ec : CryptoEc P) (t : SaeTemporaryData P) (data : Bytes) (pos : Nat) :
    Except OutOfBounds (Nat × SaeTemporaryData P × Nat) := do
  let left ← diff data.length pos
  if 2 * ec.primeLen > left then .ok (wlanStatusUnspecifiedFailure, t, pos)
  else
    match cryptoBignumToBin ec.prime saeMaxEccPrimeLen ec.primeLen with
    | none => .ok (wlanStatusUnspecifiedFailure, t, pos)
    | some prime => do
      let x ← part data pos ec.primeLen
      if memcmp x prime ≠ .lt then .ok (wlanStatusUnspecifiedFailure, t, pos)
      else do
        let y ← part data (pos + ec.primeLen) ec.primeLen
        if memcmp y prime ≠ .lt then .ok (wlanStatusUnspecifiedFailure, t, pos)
        else do
          let element ← part data pos (2 * ec.primeLen)
          match ec.pointFromBin element with
          | none => .ok (wlanStatusUnspecifiedFailure, { t with peerCommitElementEcc := none }, pos)
          | some e =>
            if ec.pointIsOnCurve e then
              .ok (wlanStatusSuccess, { t with peerCommitElementEcc := some e }, pos + 2 * ec.primeLen)
            else .ok (wlanStatusUnspecifiedFailure, { t with peerCommitElementEcc := some e }, pos)

/-- `sae_parse_commit_element_ffc()`. -/
def saeParseCommitElementFfcAt (dh : DhGroup) (t : SaeTemporaryData P) (data : Bytes) (pos : Nat) :
    Except OutOfBounds (Nat × SaeTemporaryData P × Nat) := do
  let left ← diff data.length pos
  if dh.prime.length > left then .ok (wlanStatusUnspecifiedFailure, t, pos)
  else do
    let element ← part data pos dh.prime.length
    let t := { t with peerCommitElementFfc := some (beNat element) }
    if beNat element = 0 ∨ beNat element = 1 ∨ beNat dh.prime - 1 ≤ beNat element then
      .ok (wlanStatusUnspecifiedFailure, t, pos)
    else if cryptoBignumExptmod (beNat element) (beNat dh.order) (beNat dh.prime) ≠ 1 then
      .ok (wlanStatusUnspecifiedFailure, t, pos)
    else
      .ok (wlanStatusSuccess, t, pos + dh.prime.length)

/-- `sae_parse_commit_element()`. -/
def saeParseCommitElementAt (t : SaeTemporaryData P) (data : Bytes) (pos : Nat) :
    Except OutOfBounds (Nat × SaeTemporaryData P × Nat) :=
  match t.group with
  | .unset => .ok (wlanStatusUnspecifiedFailure, t, pos)
  | .ecc ec => saeParseCommitElementEccAt ec t data pos
  | .ffc dh => saeParseCommitElementFfcAt dh t data pos

/-- `sae_parse_password_identifier()`. -/
def saeParsePasswordIdentifierAt (t : SaeTemporaryData P) (data : Bytes) (pos : Nat) :
    Except OutOfBounds (Nat × SaeTemporaryData P) := do
  let left ← diff data.length pos
  -- what is left is printed
  let _ ← part data pos left
  let isElem ← saeIsPasswordIdElemAt data pos
  if !isElem then
    if t.pwId.isSome then .ok (wlanStatusUnknownPasswordIdentifier, t)
    else .ok (wlanStatusSuccess, { t with pwId := none })
  else do
    let len ← octetAt data (pos + 1)
    let idLen ← diff len.toNat 1
    let id ← part data (pos + 3) idLen
    if t.pwId.any fun pwId => id ≠ cString pwId then .ok (wlanStatusUnknownPasswordIdentifier, t)
    else .ok (wlanStatusSuccess, { t with pwId := some id })

/-- What `sae_parse_commit()` hands back: the status, the instance, and where the token is and how long. -/
structure CommitRead (P : Type) where
  status : Nat
  sae : SaeData P
  token : Option (Nat × Nat) := none

/-- `sae_parse_commit()` from the password identifier on. -/
def saeParseCommitTailAt (sae : SaeData P) (t : SaeTemporaryData P) (token : Option (Nat × Nat)) (data : Bytes)
    (pos : Nat) : Except OutOfBounds (CommitRead P) := do
  let (status, t) ← saeParsePasswordIdentifierAt t data pos
  if status ≠ wlanStatusSuccess then .ok ⟨status, { sae with tmp := some t }, token⟩
  else if saeIsReflection t sae.peerCommitScalar then
    .ok ⟨saeSilentlyDiscard, { sae with tmp := some t }, token⟩
  else .ok ⟨wlanStatusSuccess, { sae with tmp := some t }, token⟩

/-- `sae_parse_commit()` once the group is settled. -/
def saeParseCommitBodyAt (sae : SaeData P) (t : SaeTemporaryData P) (data : Bytes) (pos : Nat) :
    Except OutOfBounds (CommitRead P) := do
  let (token, pos) ← saeParseCommitTokenAt t.group data pos
  let (status, sae, pos) ← saeParseCommitScalarAt t.group sae data pos
  if status ≠ wlanStatusSuccess then .ok ⟨status, sae, token⟩
  else do
    let (status, t, pos) ← saeParseCommitElementAt t data pos
    if status ≠ wlanStatusSuccess then .ok ⟨status, { sae with tmp := some t }, token⟩
    else saeParseCommitTailAt sae t token data pos

/-- `sae_parse_commit()`. -/
def saeParseCommitAt (c : CryptoLib P) (allowedGroups : Option (List Int)) (data : Bytes) (sae : SaeData P) :
    Except OutOfBounds (CommitRead P) :=
  if data.length < 2 then .ok { status := wlanStatusUnspecifiedFailure, sae }
  else do
    let group ← part data 0 2
    let (status, sae) := saeGroupAllowed c allowedGroups (getLe16 group) sae
    match sae.tmp with
    | none => .ok { status, sae }
    | some t => if status ≠ wlanStatusSuccess then .ok { status, sae } else saeParseCommitBodyAt sae t data 2

variable {data : Bytes} {pos : Nat}

/-! ## The header of an element -/

theorem saeIsPasswordIdElem_bounds {elem : Bytes} (h : saeIsPasswordIdElem elem = true) :
    3 ≤ elem.length ∧ 1 ≤ (elem.getD 1 0).toNat ∧ 2 + (elem.getD 1 0).toNat ≤ elem.length := by
  simp only [saeIsPasswordIdElem, Bool.and_eq_true, decide_eq_true_eq] at h
  omega

theorem saeIsPasswordIdElemAt_eq (hpos : pos ≤ data.length) :
    saeIsPasswordIdElemAt data pos = .ok (saeIsPasswordIdElem (data.drop pos)) := by
  have hleft : (data.drop pos).length = data.length - pos := length_drop
  unfold saeIsPasswordIdElemAt saeIsPasswordIdElem
  rw [diff_ok hpos, bind_of_ok rfl, hleft]
  by_cases hthree : data.length - pos < 3
  · rw [if_pos hthree, decide_eq_false (by omega)]
    rfl
  · have hid := octetAt_add (show pos + 0 < data.length by omega)
    have hlen := octetAt_add (show pos + 1 < data.length by omega)
    have hext := octetAt_add (show pos + 2 < data.length by omega)
    rw [Nat.add_zero] at hid
    rw [if_neg hthree, hid, hlen, bind_of_ok rfl, decide_eq_true (by omega : 3 ≤ data.length - pos)]
    generalize (data.drop pos).getD 0 0 = id
    generalize (data.drop pos).getD 1 0 = len
    -- the tests in the order in which they are made
    by_cases h255 : id = 255
    · rw [if_neg (not_not_intro h255), bind_of_ok rfl]
      subst h255
      by_cases hone : len.toNat < 1
      · rw [if_pos hone, decide_eq_false (by omega)]
        rfl
      · rw [if_neg hone, diff_ok (by omega), bind_of_ok rfl, decide_eq_true (by omega : 1 ≤ len.toNat)]
        by_cases hroom : data.length - pos - 2 < len.toNat
        · rw [if_pos hroom, decide_eq_false (by omega)]
          rfl
        · rw [if_neg hroom, hext, decide_eq_true (by omega : len.toNat ≤ data.length - pos - 2)]
          rfl
    · rw [if_pos h255]
      simp [h255]

/-! ## The token -/

def tokenOctets (data : Bytes) (token : Option (Nat × Nat)) : Option Bytes :=
  token.map fun t => slice data t.1 t.2

/-- The token, if any, lies between the cursors, and has 32 octets or more. -/
def TokenBetween (token : Option (Nat × Nat)) (pos pos' : Nat) : Prop :=
  match token with
  | none => pos' = pos
  | some (off, len) => off = pos ∧ pos' = pos + len ∧ sha256MacLen ≤ len

theorem saeParseCommitTokenAt_eq (g : SaeGroup P) (hpos : pos ≤ data.length) :
    ∃ token pos', saeParseCommitTokenAt g data pos = .ok (token, pos') ∧
      saeParseCommitToken g (data.drop pos) = (tokenOctets data token, data.drop pos') ∧
      pos' ≤ data.length ∧ TokenBetween token pos pos' := by
  have hleft : (data.drop pos).length = data.length - pos := length_drop
  have hmac : sha256MacLen = 32 := rfl
  unfold saeParseCommitTokenAt
  rw [saeParseCommitToken_len, diff_ok hpos, bind_of_ok rfl, hleft]
  by_cases hextra : g.scalarElemLen ≥ data.length - pos
  · rw [if_pos hextra, if_pos hextra]
    exact ⟨none, pos, rfl, rfl, hpos, rfl⟩
  have htlen : data.length - (pos + g.scalarElemLen) = data.length - pos - g.scalarElemLen := by omega
  rw [if_neg hextra, if_neg hextra, diff_ok (by omega), bind_of_ok rfl, htlen]
  by_cases hshort : data.length - pos - g.scalarElemLen < sha256MacLen
  · rw [if_pos hshort, if_pos hshort]
    exact ⟨none, pos, rfl, rfl, hpos, rfl⟩
  rw [if_neg hshort, if_neg hshort, saeIsPasswordIdElemAt_eq (by omega), bind_of_ok rfl, drop_drop]
  by_cases hfirst : saeIsPasswordIdElem (data.drop (pos + g.scalarElemLen)) = true
  · rw [if_pos hfirst, if_pos hfirst]
    exact ⟨none, pos, rfl, rfl, hpos, rfl⟩
  rw [if_neg hfirst, if_neg hfirst, drop_drop]
  have hbound : pos + g.scalarElemLen + sha256MacLen ≤ data.length := by omega
  have hrest : (data.drop (pos + g.scalarElemLen + sha256MacLen)).length =
      data.length - (pos + g.scalarElemLen + sha256MacLen) := length_drop
  -- the element that is removed lies behind the first 32 octets of what is left
  obtain ⟨tlen, hat, hlen, hge, hle⟩ : ∃ tlen,
      saeTokenLenAt data (pos + g.scalarElemLen + sha256MacLen) (data.length - pos - g.scalarElemLen) =
        .ok tlen ∧
      (if saeIsPasswordIdElem (data.drop (pos + g.scalarElemLen + sha256MacLen)) = true then
          data.length - pos - g.scalarElemLen -
            (2 + ((data.drop (pos + g.scalarElemLen + sha256MacLen)).getD 1 0).toNat)
        else data.length - pos - g.scalarElemLen) = tlen ∧
      sha256MacLen ≤ tlen ∧ tlen ≤ data.length - pos - g.scalarElemLen := by
    unfold saeTokenLenAt
    rw [saeIsPasswordIdElemAt_eq hbound, bind_of_ok rfl]
    by_cases hlast : saeIsPasswordIdElem (data.drop (pos + g.scalarElemLen + sha256MacLen)) = true
    · obtain ⟨hthree, -, hin⟩ := saeIsPasswordIdElem_bounds hlast
      rw [hrest] at hthree hin
      rw [if_pos hlast, if_pos hlast, octetAt_add (by omega), bind_of_ok rfl, diff_ok (by omega)]
      exact ⟨_, rfl, rfl, by omega, by omega⟩
    · rw [if_neg hlast, if_neg hlast]
      exact ⟨_, rfl, rfl, by omega, Nat.le_refl _⟩
  rw [hat, bind_of_ok rfl, hlen, part_ok (by omega)]
  refine ⟨some (pos, tlen), pos + tlen, rfl, ?_, by omega, rfl, rfl, hge⟩
  rw [drop_drop]
  rfl

/-! ## The fields -/

/-- A function on the body does what its counterpart on lists does; where it succeeds it takes `len` octets. -/
def TakesField {σ : Type} (data : Bytes) (pos len : Nat) (r : Except OutOfBounds (Nat × σ × Nat))
    (spec : Nat × σ × Bytes) : Prop :=
  ∃ pos', r = .ok (spec.1, spec.2.1, pos') ∧ spec.2.2 = data.drop pos' ∧ pos' ≤ data.length ∧
    (spec.1 = wlanStatusSuccess → pos' = pos + len)

theorem TakesField.refused {σ : Type} {s : σ} {len : Nat} (hpos : pos ≤ data.length) :
    TakesField data pos len (.ok (wlanStatusUnspecifiedFailure, s, pos))
      (wlanStatusUnspecifiedFailure, s, data.drop pos) :=
  ⟨pos, rfl, rfl, hpos, fun h => absurd h (show ¬ wlanStatusUnspecifiedFailure = wlanStatusSuccess by decide)⟩

theorem TakesField.taken {σ : Type} {s : σ} {len : Nat} (hlen : pos + len ≤ data.length) :
    TakesField data pos len (.ok (wlanStatusSuccess, s, pos + len))
      (wlanStatusSuccess, s, (data.drop pos).drop len) :=
  ⟨pos + len, rfl, drop_drop, hlen, fun _ => rfl⟩

theorem saeParseCommitScalarAt_eq (g : SaeGroup P) (sae : SaeData P) (hpos : pos ≤ data.length) :
    TakesField data pos g.primeLen (saeParseCommitScalarAt g sae data pos)
      (saeParseCommitScalar g sae (data.drop pos)) := by
  unfold saeParseCommitScalarAt saeParseCommitScalar
  rw [diff_ok hpos, bind_of_ok rfl, length_drop]
  by_cases hshort : g.primeLen > data.length - pos
  · rw [if_pos hshort, if_pos hshort]
    exact .refused hpos
  · have hread : part data pos g.primeLen = .ok ((data.drop pos).take g.primeLen) := part_ok (by omega)
    rw [if_neg hshort, if_neg hshort, hread, bind_of_ok rfl]
    dsimp only
    split_ifs
    · exact .refused hpos
    · exact .refused hpos
    · exact .taken (by omega)

theorem pointFromBin_take (ec : CryptoEc P) (bs : Bytes) :
    ec.pointFromBin (bs.take (2 * ec.primeLen)) = ec.pointFromBin bs := by
  unfold CryptoEc.pointFromBin slice
  rw [take_take, drop_take, take_take, Nat.min_eq_left (by omega), Nat.min_eq_left (by omega)]

theorem saeParseCommitElementEccAt_eq (ec : CryptoEc P) (t : SaeTemporaryData P) (hpos : pos ≤ data.length) :
    TakesField data pos (2 * ec.primeLen) (saeParseCommitElementEccAt ec t data pos)
      (saeParseCommitElementEcc ec t (data.drop pos)) := by
  unfold saeParseCommitElementEccAt saeParseCommitElementEcc
  rw [diff_ok hpos, bind_of_ok rfl, length_drop]
  by_cases hshort : 2 * ec.primeLen > data.length - pos
  · rw [if_pos hshort, if_pos hshort]
    exact .refused hpos
  rw [if_neg hshort, if_neg hshort]
  cases cryptoBignumToBin ec.prime saeMaxEccPrimeLen ec.primeLen with
  | none => exact .refused hpos
  | some prime =>
    have hx : part data pos ec.primeLen = .ok ((data.drop pos).take ec.primeLen) := part_ok (by omega)
    have hy : part data (pos + ec.primeLen) ec.primeLen =
        .ok (slice (data.drop pos) ec.primeLen ec.primeLen) := by
      rw [part_ok (by omega)]
      unfold slice
      rw [drop_drop]
    have hpoint : part data pos (2 * ec.primeLen) = .ok ((data.drop pos).take (2 * ec.primeLen)) :=
      part_ok (by omega)
    dsimp only
    rw [hx, bind_of_ok rfl]
    by_cases hltx : memcmp ((data.drop pos).take ec.primeLen) prime = .lt
    · rw [if_neg (not_not_intro hltx), hy, bind_of_ok rfl]
      by_cases hlty : memcmp (slice (data.drop pos) ec.primeLen ec.primeLen) prime = .lt
      · rw [if_neg (not_not_intro hlty), hpoint, bind_of_ok rfl, pointFromBin_take,
          if_neg (by simp [hltx, hlty])]
        cases ec.pointFromBin (data.drop pos) with
        | none => exact .refused hpos
        | some e =>
          dsimp only
          split_ifs
          · exact .taken (by omega)
          · exact .refused hpos
      · rw [if_pos hlty, if_pos (.inr hlty)]
        exact .refused hpos
    · rw [if_pos hltx, if_pos (.inl hltx)]
      exact .refused hpos

theorem saeParseCommitElementFfcAt_eq (dh : DhGroup) (t : SaeTemporaryData P) (hpos : pos ≤ data.length) :
    TakesField data pos dh.prime.length (saeParseCommitElementFfcAt dh t data pos)
      (saeParseCommitElementFfc dh t (data.drop pos)) := by
  unfold saeParseCommitElementFfcAt saeParseCommitElementFfc
  rw [diff_ok hpos, bind_of_ok rfl, length_drop]
  by_cases hshort : dh.prime.length > data.length - pos
  · rw [if_pos hshort, if_pos hshort]
    exact .refused hpos
  · have hread : part data pos dh.prime.length = .ok ((data.drop pos).take dh.prime.length) :=
      part_ok (by omega)
    rw [if_neg hshort, if_neg hshort, hread, bind_of_ok rfl]
    dsimp only
    split_ifs
    · exact .refused hpos
    · exact .refused hpos
    · exact .taken (by omega)

def SaeGroup.elementLen : SaeGroup P → Nat
  | .ecc ec => 2 * ec.primeLen
  | g => g.primeLen

theorem saeParseCommitElementAt_eq (t : SaeTemporaryData P) (hpos : pos ≤ data.length) :
    TakesField data pos t.group.elementLen (saeParseCommitElementAt t data pos)
      (saeParseCommitElement t (data.drop pos)) := by
  unfold saeParseCommitElementAt saeParseCommitElement
  cases t.group with
  | unset => exact .refused hpos
  | ecc ec => exact saeParseCommitElementEccAt_eq ec t hpos
  | ffc dh => exact saeParseCommitElementFfcAt_eq dh t hpos

theorem saeParsePasswordIdentifierAt_eq (t : SaeTemporaryData P) (hpos : pos ≤ data.length) :
    saeParsePasswordIdentifierAt t data pos = .ok (saeParsePasswordIdentifier t (data.drop pos)) := by
  unfold saeParsePasswordIdentifierAt saeParsePasswordIdentifier
  rw [diff_ok hpos, bind_of_ok rfl, part_ok (by omega), bind_of_ok rfl, saeIsPasswordIdElemAt_eq hpos,
    bind_of_ok rfl]
  cases helem : saeIsPasswordIdElem (data.drop pos) with
  | false => cases t.pwId <;> rfl
  | true =>
    obtain ⟨hthree, hone, hin⟩ := saeIsPasswordIdElem_bounds helem
    rw [length_drop] at hthree hin
    have hid : part data (pos + 3) (((data.drop pos).getD 1 0).toNat - 1) =
        .ok (slice (data.drop pos) 3 (((data.drop pos).getD 1 0).toNat - 1)) := by
      rw [part_ok (by omega)]
      unfold slice
      rw [drop_drop]
    rw [if_neg (by decide), if_neg (by decide), octetAt_add (by omega), bind_of_ok rfl, diff_ok hone,
      bind_of_ok rfl, hid, bind_of_ok rfl]
    dsimp only
    split_ifs <;> rfl

/-! ## The whole body -/

/-- The same result as that of the parser on lists, with the token at its place. -/
structure CommitRead.Agrees (r : CommitRead P) (data : Bytes) (p : ParsedCommit P) : Prop where
  status : r.status = p.status
  sae : r.sae = p.sae
  token : tokenOctets data r.token = p.token

/-- A token that is handed back begins behind the group, has 32 octets or more and lies within the body. -/
def CommitRead.TokenOk (r : CommitRead P) (data : Bytes) : Prop :=
  ∀ off len, r.token = some (off, len) → off = 2 ∧ sha256MacLen ≤ len ∧ off + len ≤ data.length

/-- The body is the group, the token, the scalar, the element and a rest, and the scalar is the one that was
taken. -/
def CommitRead.Framed (r : CommitRead P) (data : Bytes) : Prop :=
  ∃ (t : SaeTemporaryData P) (group token scalar element rest : Bytes), r.sae.tmp = some t ∧
    data = group ++ (token ++ (scalar ++ (element ++ rest))) ∧ group.length = 2 ∧
    (r.token = none ∧ token = [] ∨ r.token = some (2, token.length)) ∧
    scalar.length = t.group.primeLen ∧ element.length = t.group.elementLen ∧
    r.sae.peerCommitScalar = some (beNat scalar)

theorem drop_eq_slice_append (data : Bytes) (pos n : Nat) :
    data.drop pos = slice data pos n ++ data.drop (pos + n) := by
  unfold slice
  rw [← drop_drop, take_append_drop]

theorem saeParseCommitScalar_value {g : SaeGroup P} {sae sae' : SaeData P} {bs bs' : Bytes}
    (h : saeParseCommitScalar g sae bs = (wlanStatusSuccess, sae', bs')) :
    sae'.peerCommitScalar = some (beNat (bs.take g.primeLen)) := by
  have hne : ¬ wlanStatusUnspecifiedFailure = wlanStatusSuccess := by decide
  unfold saeParseCommitScalar at h
  dsimp only at h
  split_ifs at h
  · exact absurd (congrArg Prod.fst h) hne
  · exact absurd (congrArg Prod.fst h) hne
  · exact absurd (congrArg Prod.fst h) hne
  · rw [← (Prod.mk.inj (Prod.mk.inj h).2).1]

theorem saeParseCommitTailAt_eq (sae : SaeData P) (t : SaeTemporaryData P) (token : Option (Nat × Nat))
    (hpos : pos ≤ data.length) :
    ∃ r, saeParseCommitTailAt sae t token data pos = .ok r ∧ r.token = token ∧
      r.Agrees data (saeParseCommitTail sae t (tokenOctets data token) (data.drop pos)) := by
  unfold saeParseCommitTailAt saeParseCommitTail
  rw [saeParsePasswordIdentifierAt_eq t hpos, bind_of_ok rfl]
  dsimp only
  split_ifs
  · exact ⟨_, rfl, rfl, rfl, rfl, rfl⟩
  · exact ⟨_, rfl, rfl, rfl, rfl, rfl⟩
  · exact ⟨_, rfl, rfl, rfl, rfl, rfl⟩

theorem saeParseCommitTail_tmp (sae : SaeData P) (t : SaeTemporaryData P) (token : Option Bytes) (bs : Bytes) :
    ∃ t', (saeParseCommitTail sae t token bs).sae.tmp = some t' ∧ t'.group = t.group ∧
      (saeParseCommitTail sae t token bs).sae.peerCommitScalar = sae.peerCommitScalar := by
  obtain ⟨t', hu, -, hsae⟩ := saeParseCommitTail_peer sae t token bs
  rw [hsae]
  exact ⟨t', rfl, hu.group, rfl⟩

theorem framed_of_cursors {r : CommitRead P} {t : SaeTemporaryData P} (hbetween : TokenBetween r.token 2 pos)
    (hin : pos + t.group.primeLen + t.group.elementLen ≤ data.length) (htmp : r.sae.tmp = some t)
    (hpeer : r.sae.peerCommitScalar = some (beNat (slice data pos t.group.primeLen))) : r.Framed data := by
  have htwo : 2 ≤ pos := by
    unfold TokenBetween at hbetween
    split at hbetween <;> omega
  have hbody : data = slice data 0 2 ++ (slice data 2 (pos - 2) ++ (slice data pos t.group.primeLen ++
      (slice data (pos + t.group.primeLen) t.group.elementLen ++
        data.drop (pos + t.group.primeLen + t.group.elementLen)))) := by
    rw [← drop_eq_slice_append, ← drop_eq_slice_append]
    conv_lhs => rw [← drop_zero (l := data), drop_eq_slice_append data 0 2,
      drop_eq_slice_append data (0 + 2) (pos - 2)]
    rw [show 0 + 2 + (pos - 2) = pos by omega]
  have htoken : (slice data 2 (pos - 2)).length = pos - 2 := slice_length (by omega)
  refine ⟨t, _, _, _, _, _, htmp, hbody, slice_length (by omega), ?_, slice_length (by omega),
    slice_length (by omega), hpeer⟩
  rw [htoken]
  cases htok : r.token with
  | none =>
    rw [htok] at hbetween
    have hpos : pos = 2 := hbetween
    subst hpos
    exact .inl ⟨rfl, rfl⟩
  | some tk =>
    obtain ⟨off, len⟩ := tk
    rw [htok] at hbetween
    obtain ⟨rfl, rfl, -⟩ : off = 2 ∧ pos = 2 + len ∧ sha256MacLen ≤ len := hbetween
    rw [Nat.add_sub_cancel_left]
    exact .inr rfl

theorem saeParseCommitBodyAt_eq (sae : SaeData P) (t : SaeTemporaryData P) (hlen : 2 ≤ data.length) :
    ∃ r, saeParseCommitBodyAt sae t data 2 = .ok r ∧ r.Agrees data (saeParseCommitBody sae t (data.drop 2)) ∧
      r.TokenOk data ∧ (r.status = wlanStatusSuccess → r.Framed data) := by
  obtain ⟨token, pos₁, htoken, htoken', hpos₁, hbetween⟩ := saeParseCommitTokenAt_eq t.group hlen
  obtain ⟨pos₂, hscalar, hrest₂, hpos₂, htaken₂⟩ := saeParseCommitScalarAt_eq t.group sae hpos₁
  unfold saeParseCommitBodyAt saeParseCommitBody
  rw [htoken, bind_of_ok rfl, htoken']
  dsimp only
  rw [hscalar, bind_of_ok rfl]
  have htokenOk : ∀ off len, token = some (off, len) →
      off = 2 ∧ sha256MacLen ≤ len ∧ off + len ≤ data.length := by
    rintro off len rfl
    obtain ⟨rfl, rfl, hge⟩ : off = 2 ∧ pos₁ = 2 + len ∧ sha256MacLen ≤ len := hbetween
    exact ⟨rfl, hge, hpos₁⟩
  generalize hsc : saeParseCommitScalar t.group sae (data.drop pos₁) = sc at hrest₂ htaken₂
  obtain ⟨status, sae', bs⟩ := sc
  dsimp only at hrest₂ htaken₂ ⊢
  subst hrest₂
  by_cases hok : status = wlanStatusSuccess
  · have hpos₂eq := htaken₂ hok
    subst hok
    rw [if_neg (not_not_intro rfl), if_neg (not_not_intro rfl)]
    obtain ⟨pos₃, helement, hrest₃, hpos₃, htaken₃⟩ := saeParseCommitElementAt_eq t hpos₂
    rw [helement, bind_of_ok rfl]
    generalize hel : saeParseCommitElement t (data.drop pos₂) = el at hrest₃ htaken₃
    obtain ⟨status, t', bs⟩ := el
    obtain ⟨hu, -⟩ := saeParseCommitElement_peer hel
    dsimp only at hrest₃ htaken₃ ⊢
    subst hrest₃
    by_cases hok : status = wlanStatusSuccess
    · have hpos₃eq := htaken₃ hok
      rw [if_neg (not_not_intro hok), if_neg (not_not_intro hok)]
      obtain ⟨r, hr, hrtoken, hagrees⟩ := saeParseCommitTailAt_eq sae' t' token hpos₃
      refine ⟨r, hr, hagrees, ?_, fun _ => ?_⟩
      · rw [CommitRead.TokenOk, hrtoken]
        exact htokenOk
      · obtain ⟨t'', htmp, hgroup, hpeer⟩ :=
          saeParseCommitTail_tmp sae' t' (tokenOctets data token) (data.drop pos₃)
        have hgroup' : t''.group = t.group := hgroup.trans hu.group
        subst hpos₂eq
        subst hpos₃eq
        refine framed_of_cursors (by rw [hrtoken]; exact hbetween) ?_ (by rw [hagrees.sae]; exact htmp) ?_
        · rw [hgroup']
          exact hpos₃
        · rw [hagrees.sae, hpeer, hgroup']
          exact saeParseCommitScalar_value hsc
    · rw [if_pos hok, if_pos hok]
      exact ⟨_, rfl, ⟨rfl, rfl, rfl⟩, htokenOk, fun h => absurd h hok⟩
  · rw [if_pos hok, if_pos hok]
    exact ⟨_, rfl, ⟨rfl, rfl, rfl⟩, htokenOk, fun h => absurd h hok⟩

/-- Whatever the body and the instance are, `sae_parse_commit()` reads the octets of the body only, no length
wraps, and it does what the parser on lists does. A body that is taken is the group, the token, the scalar, the
element and a rest, each with its length, and a token that is handed back has 32 octets or more. -/
theorem sae_parse_commit_within (c : CryptoLib P) (allowedGroups : Option (List Int)) (data : Bytes)
    (sae : SaeData P) :
    ∃ r, saeParseCommitAt c allowedGroups data sae = .ok r ∧
      r.Agrees data (saeParseCommit c allowedGroups data sae) ∧ r.TokenOk data ∧
      (r.status = wlanStatusSuccess → r.Framed data) := by
  have hfail : ¬ wlanStatusUnspecifiedFailure = wlanStatusSuccess := by decide
  have hnone (status : Nat) (sae : SaeData P) : CommitRead.TokenOk { status, sae } data := by
    intro off len h
    cases h
  unfold saeParseCommitAt saeParseCommit
  by_cases hshort : data.length < 2
  · rw [if_pos hshort, if_pos hshort]
    exact ⟨_, rfl, ⟨rfl, rfl, rfl⟩, hnone _ _, fun h => absurd h hfail⟩
  · have hgroup : getLe16 (slice data 0 2) = getLe16 data := by
      cases data with
      | nil => exact absurd (show 0 < 2 by decide) hshort
      | cons a data =>
        cases data with
        | nil => exact absurd (show 1 < 2 by decide) hshort
        | cons b data => rfl
    rw [if_neg hshort, if_neg hshort, part_ok (by omega), bind_of_ok rfl, hgroup]
    generalize hallowed : saeGroupAllowed c allowedGroups (getLe16 data) sae = allowed
    obtain ⟨status, sae'⟩ := allowed
    dsimp only
    cases htmp : sae'.tmp with
    | none =>
      refine ⟨_, rfl, ⟨rfl, rfl, rfl⟩, hnone _ _, fun h => ?_⟩
      -- without temporary data the group is refused
      have hsome := saeGroupAllowed_tmp hallowed h
      rw [htmp] at hsome
      cases hsome
    | some t =>
      by_cases hok : status = wlanStatusSuccess
      · dsimp only
        rw [if_neg (not_not_intro hok), if_neg (not_not_intro hok)]
        exact saeParseCommitBodyAt_eq sae' t (by omega)
      · dsimp only
        rw [if_pos hok, if_pos hok]
        exact ⟨_, rfl, ⟨rfl, rfl, rfl⟩, hnone _ _, fun h => absurd h hok⟩

end Hostap
