import Hostap.Sae.Data

/-!
# SAE commit and confirm bodies

The second half of `src/common/sae.c`: writing and parsing the body of a Commit, the check of
the group it names, and the confirm values.

A cursor `pos` into the received body is the list of octets from `pos` to `end`.
-/

namespace Hostap

open Octets

variable {P : Type}

/-! ## Status codes -/

/-- `WLAN_STATUS_SUCCESS`. -/
def wlanStatusSuccess : Nat := 0

/-- `WLAN_STATUS_UNSPECIFIED_FAILURE`. -/
def wlanStatusUnspecifiedFailure : Nat := 1

/-- `WLAN_STATUS_UNKNOWN_AUTH_TRANSACTION`. -/
def wlanStatusUnknownAuthTransaction : Nat := 14

/-- `WLAN_STATUS_ANTI_CLOGGING_TOKEN_REQ`. -/
def wlanStatusAntiCloggingTokenReq : Nat := 76

/-- `WLAN_STATUS_FINITE_CYCLIC_GROUP_NOT_SUPPORTED`. -/
def wlanStatusFiniteCyclicGroupNotSupported : Nat := 77

/-- `WLAN_STATUS_UNKNOWN_PASSWORD_IDENTIFIER`. -/
def wlanStatusUnknownPasswordIdentifier : Nat := 123

/-- `SAE_SILENTLY_DISCARD`, the special value of `sae_parse_commit()`. -/
def saeSilentlyDiscard : Nat := 65535

/-! ## Commit -/

/-- The element part of `sae_write_commit()`. The output buffer starts zeroed, so a value that
does not fit leaves zero octets. -/
def saeWriteCommitElement (t : SaeTemporaryData P) : Except Fault Bytes :=
  let len := t.group.primeLen
  match t.group with
  | .ecc ec => do
    let e ← deref .saeWriteCommit t.ownCommitElementEcc
    pure (((ec.pointToBin e).map fun (x, y) => x ++ y).getD (zeros (2 * len)))
  | _ => do
    let e ← deref .saeWriteCommit t.ownCommitElementFfc
    pure ((cryptoBignumToBin e len len).getD (zeros len))

def saePasswordIdElem (identifier : Option Bytes) : Bytes :=
  match identifier with
  | none => []
  | some id => [255, UInt8.ofNat (1 + (cString id).length), 33] ++ cString id

/-- `sae_write_commit()`. -/
def saeWriteCommit (sae : SaeData P) (token identifier : Option Bytes) : Except Fault Bytes :=
  match sae.tmp with
  | none => .ok []
  | some t => do
    let len := t.group.primeLen
    let scalar ← deref .saeWriteCommit t.ownCommitScalar
    let element ← saeWriteCommitElement t
    pure (le16 sae.group.toNat ++ token.getD [] ++
      (cryptoBignumToBin scalar len len).getD (zeros len) ++ element ++
      saePasswordIdElem identifier)

/-- The search of `sae_group_allowed()` through the list: it stops at the group or at the first
entry that is not positive, and the entry it stopped at has to be the group. -/
def allowedGroupsHave (group : Nat) : List Int → Bool
  | [] => group == 0
  | g :: gs => if 0 < g ∧ g ≠ group then allowedGroupsHave group gs else g == group

/-- `sae_group_allowed()`. -/
def saeGroupAllowed (c : CryptoLib P) (allowedGroups : Option (List Int)) (group : Nat)
    (sae : SaeData P) : Nat × SaeData P :=
  if allowedGroups.any fun gs => !allowedGroupsHave group gs then
    (wlanStatusFiniteCyclicGroupNotSupported, sae)
  else if sae.state = .committed ∧ (group : Int) ≠ sae.group then
    (wlanStatusFiniteCyclicGroupNotSupported, sae)
  else
    let (supported, sae) := if (group : Int) ≠ sae.group then saeSetGroup c group sae else (true, sae)
    if !supported then
      (wlanStatusFiniteCyclicGroupNotSupported, sae)
    else
      match sae.tmp with
      | none => (wlanStatusUnspecifiedFailure, sae)
      | some t =>
        match t.group, allowedGroups with
        | .ffc _, none => (wlanStatusFiniteCyclicGroupNotSupported, sae)
        | _, _ => (wlanStatusSuccess, sae)

/-- `sae_is_password_id_elem()`. -/
def saeIsPasswordIdElem (pos : Bytes) : Bool :=
  3 ≤ pos.length && pos.getD 0 0 == 255 && 1 ≤ (pos.getD 1 0).toNat &&
    (pos.getD 1 0).toNat ≤ pos.length - 2 && pos.getD 2 0 == 33

/-- `sae_parse_commit_token()`: the token, if any, and the cursor after it. -/
def saeParseCommitToken (g : SaeGroup P) (pos : Bytes) : Option Bytes × Bytes :=
  let scalarElemLen := (match g with | .ecc _ => 3 | _ => 2) * g.primeLen
  if pos.length ≤ scalarElemLen then
    (none, pos)
  else
    let tlen := pos.length - scalarElemLen
    let elem := pos.drop scalarElemLen
    if tlen < sha256MacLen then
      (none, pos)
    else if saeIsPasswordIdElem elem then
      (none, pos)
    else
      let elem := elem.drop sha256MacLen
      let tlen := if saeIsPasswordIdElem elem then tlen - (2 + (elem.getD 1 0).toNat) else tlen
      (some (pos.take tlen), pos.drop tlen)

/-- `sae_parse_commit_scalar()`. A re-used scalar is refused in Accepted state. -/
def saeParseCommitScalar (g : SaeGroup P) (sae : SaeData P) (pos : Bytes) :
    Nat × SaeData P × Bytes :=
  if pos.length < g.primeLen then
    (wlanStatusUnspecifiedFailure, sae, pos)
  else
    let peerScalar := beNat (pos.take g.primeLen)
    if sae.state = .accepted ∧ sae.peerCommitScalar = some peerScalar then
      (wlanStatusUnspecifiedFailure, sae, pos)
    else if peerScalar = 0 ∨ peerScalar = 1 ∨ g.order ≤ peerScalar then
      (wlanStatusUnspecifiedFailure, sae, pos)
    else
      (wlanStatusSuccess, { sae with peerCommitScalar := some peerScalar }, pos.drop g.primeLen)

/-- `sae_parse_commit_element_ecc()`. The old element is freed before the new one is decoded,
so coordinates the library refuses leave no element at all. -/
def saeParseCommitElementEcc (ec : CryptoEc P) (t : SaeTemporaryData P) (pos : Bytes) :
    Nat × SaeTemporaryData P × Bytes :=
  if pos.length < 2 * ec.primeLen then
    (wlanStatusUnspecifiedFailure, t, pos)
  else
    match cryptoBignumToBin ec.prime saeMaxEccPrimeLen ec.primeLen with
    | none => (wlanStatusUnspecifiedFailure, t, pos)
    | some prime =>
      if memcmp (pos.take ec.primeLen) prime ≠ .lt ∨
          memcmp (slice pos ec.primeLen ec.primeLen) prime ≠ .lt then
        (wlanStatusUnspecifiedFailure, t, pos)
      else
        match ec.pointFromBin pos with
        | none => (wlanStatusUnspecifiedFailure, { t with peerCommitElementEcc := none }, pos)
        | some e =>
          if ec.pointIsOnCurve e then
            (wlanStatusSuccess, { t with peerCommitElementEcc := some e },
              pos.drop (2 * ec.primeLen))
          else
            (wlanStatusUnspecifiedFailure, { t with peerCommitElementEcc := some e }, pos)

/-- `sae_parse_commit_element_ffc()`. -/
def saeParseCommitElementFfc (dh : DhGroup) (t : SaeTemporaryData P) (pos : Bytes) :
    Nat × SaeTemporaryData P × Bytes :=
  if pos.length < dh.prime.length then
    (wlanStatusUnspecifiedFailure, t, pos)
  else
    let e := beNat (pos.take dh.prime.length)
    let t := { t with peerCommitElementFfc := some e }
    if e = 0 ∨ e = 1 ∨ beNat dh.prime - 1 ≤ e then
      (wlanStatusUnspecifiedFailure, t, pos)
    else if cryptoBignumExptmod e (beNat dh.order) (beNat dh.prime) ≠ 1 then
      (wlanStatusUnspecifiedFailure, t, pos)
    else
      (wlanStatusSuccess, t, pos.drop dh.prime.length)

/-- `sae_parse_commit_element()`. Without a group there is no scalar that gets this far. -/
def saeParseCommitElement (t : SaeTemporaryData P) (pos : Bytes) :
    Nat × SaeTemporaryData P × Bytes :=
  match t.group with
  | .unset => (wlanStatusUnspecifiedFailure, t, pos)
  | .ecc ec => saeParseCommitElementEcc ec t pos
  | .ffc dh => saeParseCommitElementFfc dh t pos

/-- `sae_parse_password_identifier()`. -/
def saeParsePasswordIdentifier (t : SaeTemporaryData P) (pos : Bytes) :
    Nat × SaeTemporaryData P :=
  if !saeIsPasswordIdElem pos then
    if t.pwId.isSome then
      (wlanStatusUnknownPasswordIdentifier, t)
    else
      (wlanStatusSuccess, { t with pwId := none })
  else
    let id := slice pos 3 ((pos.getD 1 0).toNat - 1)
    if t.pwId.any fun pwId => id ≠ cString pwId then
      (wlanStatusUnknownPasswordIdentifier, t)
    else
      (wlanStatusSuccess, { t with pwId := some id })

/-- The values a Commit repeats from the own one: the evidence of a reflection attack. -/
def saeIsReflection (t : SaeTemporaryData P) (peerScalar : Option Nat) : Bool :=
  match t.ownCommitScalar, peerScalar with
  | some own, some peer =>
    own == peer &&
      match t.group with
      | .unset => true
      | .ffc _ =>
        match t.ownCommitElementFfc, t.peerCommitElementFfc with
        | some e, some f => e == f
        | _, _ => false
      | .ecc ec =>
        match t.ownCommitElementEcc, t.peerCommitElementEcc with
        | some e, some f => ec.pointCmpEq e f
        | _, _ => false
  | _, _ => false

/-- What `sae_parse_commit()` hands back: the status, the instance and the token. -/
structure ParsedCommit (P : Type) where
  status : Nat
  sae : SaeData P
  token : Option Bytes := none

/-- `sae_parse_commit()` from the password identifier on. -/
def saeParseCommitTail (sae : SaeData P) (t : SaeTemporaryData P) (token : Option Bytes)
    (pos : Bytes) : ParsedCommit P :=
  let (status, t) := saeParsePasswordIdentifier t pos
  if status ≠ wlanStatusSuccess then
    ⟨status, { sae with tmp := some t }, token⟩
  else if saeIsReflection t sae.peerCommitScalar then
    ⟨saeSilentlyDiscard, { sae with tmp := some t }, token⟩
  else
    ⟨wlanStatusSuccess, { sae with tmp := some t }, token⟩

/-- `sae_parse_commit()` once the group is settled. -/
def saeParseCommitBody (sae : SaeData P) (t : SaeTemporaryData P) (pos : Bytes) :
    ParsedCommit P :=
  let (token, pos) := saeParseCommitToken t.group pos
  let (status, sae, pos) := saeParseCommitScalar t.group sae pos
  if status ≠ wlanStatusSuccess then
    ⟨status, sae, token⟩
  else
    let (status, t, pos) := saeParseCommitElement t pos
    if status ≠ wlanStatusSuccess then
      ⟨status, { sae with tmp := some t }, token⟩
    else
      saeParseCommitTail sae t token pos

/-- `sae_parse_commit()`. -/
def saeParseCommit (c : CryptoLib P) (allowedGroups : Option (List Int)) (data : Bytes)
    (sae : SaeData P) : ParsedCommit P :=
  if data.length < 2 then
    { status := wlanStatusUnspecifiedFailure, sae }
  else
    let (status, sae) := saeGroupAllowed c allowedGroups (getLe16 data) sae
    match sae.tmp with
    | none => { status, sae }
    | some t =>
      if status ≠ wlanStatusSuccess then
        { status, sae }
      else
        saeParseCommitBody sae t (data.drop 2)

/-! ## Confirm -/

/-- A commit element in either kind of group. -/
inductive SaeElement (P : Type)
  | point (p : P)
  | number (n : Nat)
  deriving DecidableEq

/-- The values both sides have committed to in one exchange. -/
structure SaeExchange (P : Type) where
  ownScalar : Nat
  ownElement : SaeElement P
  peerScalar : Nat
  peerElement : SaeElement P
  deriving DecidableEq

/-- The element of the group in use, out of the two fields the source keeps for it. -/
def SaeGroup.element (g : SaeGroup P) (ecc : Option P) (ffc : Option Nat) :
    Option (SaeElement P) :=
  match g with
  | .ecc _ => ecc.map .point
  | _ => ffc.map .number

def SaeTemporaryData.ownElement (t : SaeTemporaryData P) : Option (SaeElement P) :=
  t.group.element t.ownCommitElementEcc t.ownCommitElementFfc

def SaeTemporaryData.peerElement (t : SaeTemporaryData P) : Option (SaeElement P) :=
  t.group.element t.peerCommitElementEcc t.peerCommitElementFfc

def SaeTemporaryData.exchange (t : SaeTemporaryData P) (peerScalar : Option Nat) :
    Option (SaeExchange P) :=
  match t.ownCommitScalar, t.ownElement, peerScalar, t.peerElement with
  | some os, some oe, some ps, some pe => some ⟨os, oe, ps, pe⟩
  | _, _, _, _ => none

/-- An element as the octets that go into the confirm. The buffers are not initialised, and the
result of the conversion is not looked at. -/
def saeElementBuf (g : SaeGroup P) : SaeElement P → Except Fault Bytes
  | .point p =>
    match g with
    | .ecc ec => do
      let (x, y) ← deref .uninitialisedBuffer (ec.pointToBin p)
      pure (x ++ y)
    | _ => .error .uninitialisedBuffer
  | .number n => saeBignumBuf n g.primeLen

/-- `sae_cn_confirm()` with its two wrappers for curves and finite fields:
`HMAC-SHA256(KCK, sc || scalar1 || element1 || scalar2 || element2)`. -/
def saeCnConfirm (c : CryptoLib P) (g : SaeGroup P) (kck sc : Bytes) (scalar1 : Nat)
    (element1 : SaeElement P) (scalar2 : Nat) (element2 : SaeElement P) :
    Except Fault Bytes := do
  let e1 ← saeElementBuf g element1
  let e2 ← saeElementBuf g element2
  let s1 ← saeBignumBuf scalar1 g.primeLen
  let s2 ← saeBignumBuf scalar2 g.primeLen
  pure (c.hmacSha256 kck (sc ++ s1 ++ e1 ++ s2 ++ e2))

/-- `sae_write_confirm()`: the body, and the instance with `send_confirm` counted up. -/
def saeWriteConfirm (c : CryptoLib P) (sae : SaeData P) : Except Fault (Bytes × SaeData P) :=
  match sae.tmp with
  | none => .ok ([], sae)
  | some t => do
    let sc := le16 sae.sendConfirm
    let x ← deref .saeWriteConfirm (t.exchange sae.peerCommitScalar)
    let confirm ← saeCnConfirm c t.group t.kck sc x.ownScalar x.ownElement x.peerScalar x.peerElement
    let sendConfirm := if sae.sendConfirm < 0xffff then sae.sendConfirm + 1 else sae.sendConfirm
    pure (sc ++ confirm, { sae with sendConfirm })

/-- The value a peer's confirm has to have: `CN(KCK, peer-send-confirm, peer-commit-scalar,
PEER-COMMIT-ELEMENT, commit-scalar, COMMIT-ELEMENT)`. -/
def saeVerifier (c : CryptoLib P) (g : SaeGroup P) (kck sc : Bytes) (x : SaeExchange P) :
    Except Fault Bytes :=
  saeCnConfirm c g kck sc x.peerScalar x.peerElement x.ownScalar x.ownElement

/-- `sae_check_confirm()`. -/
def saeCheckConfirm (c : CryptoLib P) (data : Bytes) (sae : SaeData P) : Except Fault Bool :=
  if data.length < 2 + sha256MacLen then
    .ok false
  else
    match sae.tmp with
    | none => .ok false
    | some t => do
      let x ← deref .saeCheckConfirm (t.exchange sae.peerCommitScalar)
      let verifier ← saeVerifier c t.group t.kck (data.take 2) x
      pure (verifier = slice data 2 sha256MacLen)

end Hostap
