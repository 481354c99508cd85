import Hostap.Dpp.Channel
import Hostap.Dpp.Common
import Hostap.Lib.Attempt

/-!
# DPP authentication

The exchange of `src/common/dpp.c`: `dpp_auth_init()` makes the Authentication Request, `dpp_auth_req_rx()`
answers it, `dpp_auth_resp_rx()` answers the response with the Confirm, and `dpp_auth_conf_rx()` is the end.
A responder that must know the bootstrapping key of the initiator first may ask for more time, and
`dpp_notify_new_qr_code()` makes the response once that key was scanned.

`DppAuth` is `struct dpp_authentication`. A secret without octets stands for one whose length is zero. The
functions write to the structure before their checks are through, and leave behind what they have written when
they give up (`Attempt`). What the random number generator returns is a parameter of each function that asks
it (`DppRandom`). Events of the control interface are left out, and so are the test cases that break a frame
on purpose.

What a hash or a key is made from is a function on its own (`dppKe`, `dppRAuth`, `dppIAuth`). The functions
named after the source call it with what the structure has at that time.
-/

namespace Hostap

open Octets Attempt

variable {P : Type}

/-- `struct dpp_authentication`. -/
structure DppAuth (P : Type) where
  curve : DppCurve
  peerBi : Option (DppBootstrap P)
  ownBi : Option (DppBootstrap P)
  tmpOwnBi : Option (DppBootstrap P)
  waitingPubkeyHash : Bytes
  responsePending : Bool
  authRespStatus : UInt8
  iNonce : Bytes
  rNonce : Bytes
  iCapab : UInt8
  rCapab : UInt8
  ownProtocolKey : Option (DppPkey P)
  peerProtocolKey : Option (DppPkey P)
  reqMsg : Option Bytes
  respMsg : Option Bytes
  freq : List Nat
  currFreq : Nat
  secretLen : Nat
  mx : Bytes
  nx : Bytes
  lx : Bytes
  k1 : Bytes
  k2 : Bytes
  ke : Bytes
  initiator : Bool
  waitingAuthResp : Bool
  waitingAuthConf : Bool
  authRespTries : Nat
  allowedRoles : UInt8
  configurator : Bool
  removeOnTxStatus : Bool
  authSuccess : Bool

/-- `os_zalloc()` of the structure, for a curve. -/
def DppAuth.zalloc (curve : DppCurve) : DppAuth P where
  curve := curve
  peerBi := none
  ownBi := none
  tmpOwnBi := none
  waitingPubkeyHash := zeros 32
  responsePending := false
  authRespStatus := 0
  iNonce := zeros curve.nonceLen
  rNonce := zeros curve.nonceLen
  iCapab := 0
  rCapab := 0
  ownProtocolKey := none
  peerProtocolKey := none
  reqMsg := none
  respMsg := none
  freq := []
  currFreq := 0
  secretLen := 0
  mx := []
  nx := []
  lx := []
  k1 := zeros curve.hashLen
  k2 := zeros curve.hashLen
  ke := zeros curve.hashLen
  initiator := false
  waitingAuthResp := false
  waitingAuthConf := false
  authRespTries := 0
  allowedRoles := 0
  configurator := false
  removeOnTxStatus := false
  authSuccess := false

def DppAuth.mutual (auth : DppAuth P) : Bool := auth.ownBi.isSome && auth.peerBi.isSome

/-- What the random number generator returns to one function. -/
structure DppRandom where
  /-- `random_get_bytes()`. -/
  bytes : Nat → Bytes
  bytes_length : ∀ n, (bytes n).length = n
  /-- The private key that `dpp_gen_keypair()` draws. -/
  protocolKey : Nat
  /-- The private key that `dpp_keygen()` draws. -/
  bootstrapKey : Nat

/-! ## Keys and tags -/

def dppPointX (point : Bytes) : Bytes := point.take (point.length / 2)

/-- `HKDF(I-nonce | R-nonce, "DPP Key", M.x | N.x [| L.x])`. -/
def dppKe (lib : DppLib P) (curve : DppCurve) (iNonce rNonce mx nx lx : Bytes) : Option Bytes :=
  (dppHmac lib curve.hashLen (iNonce ++ rNonce) (mx ++ nx ++ lx)).bind fun prk =>
    dppHkdfExpand lib curve.hashLen prk "DPP Key" curve.hashLen

/-- `dpp_derive_ke()`. -/
def dppDeriveKe (lib : DppLib P) (auth : DppAuth P) : Option Bytes :=
  if auth.mx = [] ∨ auth.nx = [] then none
  else if auth.mutual then
    if auth.lx = [] then none else dppKe lib auth.curve auth.iNonce auth.rNonce auth.mx auth.nx auth.lx
  else dppKe lib auth.curve auth.iNonce auth.rNonce auth.mx auth.nx []

/-- The x coordinate of the bootstrapping key of the initiator, where there is one. -/
def dppBix (lib : DppLib P) (bi : Option (DppBootstrap P)) : Bytes :=
  match bi.bind fun bi => dppGetPubkeyPoint lib bi.pubkey with
  | some point => dppPointX point
  | none => []

/-- `H(I-nonce | R-nonce | PI.x | PR.x | [BI.x |] BR.x | 0)`. -/
def dppRAuth (lib : DppLib P) (curve : DppCurve) (iNonce rNonce : Bytes) (pi pr : DppPkey P)
    (bi : Option (DppBootstrap P)) (br : DppBootstrap P) : Option Bytes := do
  let pix ← dppGetPubkeyPoint lib pi
  let prx ← dppGetPubkeyPoint lib pr
  let brx ← dppGetPubkeyPoint lib br.pubkey
  dppHashVector lib curve
    (iNonce ++ rNonce ++ dppPointX pix ++ dppPointX prx ++ dppBix lib bi ++ dppPointX brx ++ [0])

/-- `H(R-nonce | I-nonce | PR.x | PI.x | BR.x | [BI.x |] 1)`. -/
def dppIAuth (lib : DppLib P) (curve : DppCurve) (iNonce rNonce : Bytes) (pi pr : DppPkey P)
    (bi : Option (DppBootstrap P)) (br : DppBootstrap P) : Option Bytes := do
  let pix ← dppGetPubkeyPoint lib pi
  let prx ← dppGetPubkeyPoint lib pr
  let brx ← dppGetPubkeyPoint lib br.pubkey
  dppHashVector lib curve
    (rNonce ++ iNonce ++ dppPointX prx ++ dppPointX pix ++ dppPointX brx ++ dppBix lib bi ++ [1])

/-- `dpp_gen_r_auth()`. A key that is missing has no point. -/
def dppGenRAuth (lib : DppLib P) (auth : DppAuth P) : Option Bytes := do
  let own ← auth.ownProtocolKey
  let peer ← auth.peerProtocolKey
  if auth.initiator then
    let br ← auth.peerBi
    dppRAuth lib auth.curve auth.iNonce auth.rNonce own peer auth.ownBi br
  else
    let br ← auth.ownBi
    dppRAuth lib auth.curve auth.iNonce auth.rNonce peer own auth.peerBi br

/-- `dpp_gen_i_auth()`. -/
def dppGenIAuth (lib : DppLib P) (auth : DppAuth P) : Option Bytes := do
  let own ← auth.ownProtocolKey
  let peer ← auth.peerProtocolKey
  if auth.initiator then
    let br ← auth.peerBi
    dppIAuth lib auth.curve auth.iNonce auth.rNonce own peer auth.ownBi br
  else
    let br ← auth.ownBi
    dppIAuth lib auth.curve auth.iNonce auth.rNonce peer own auth.peerBi br

/-- `L = ((bR + pR) modulo q) * BI`. -/
def dppLResponder (lib : DppLib P) (br pr bi : DppPkey P) (secretLen : Nat) : Option Bytes := do
  let ec := lib.ec bi.curve
  let bR ← br.priv
  let pR ← pr.priv
  let l ← ec.affineCoordinates (ec.pointMul ((bR + pR) % ec.order) bi.pub)
  dppBn2binPad l.1 secretLen

/-- `L = bI * (BR + PR)`. Points of another curve cannot be added. -/
def dppLInitiator (lib : DppLib P) (bi br pr : DppPkey P) (secretLen : Nat) : Option Bytes := do
  let ec := lib.ec bi.curve
  let bI ← bi.priv
  guard (br.curve = bi.curve ∧ pr.curve = bi.curve)
  let l ← ec.affineCoordinates (ec.pointMul bI (ec.pointAdd br.pub pr.pub))
  dppBn2binPad l.1 secretLen

/-- `dpp_auth_derive_l_responder()`. -/
def dppAuthDeriveLResponder (lib : DppLib P) (auth : DppAuth P) : Option Bytes := do
  let bi ← auth.peerBi
  let br ← auth.ownBi
  let pr ← auth.ownProtocolKey
  dppLResponder lib br.pubkey pr bi.pubkey auth.secretLen

/-- `dpp_auth_derive_l_initiator()`. -/
def dppAuthDeriveLInitiator (lib : DppLib P) (auth : DppAuth P) : Option Bytes := do
  let br ← auth.peerBi
  let pr ← auth.peerProtocolKey
  let bi ← auth.ownBi
  dppLInitiator lib bi.pubkey br.pubkey pr auth.secretLen

/-- L of one of the two sides, where the authentication is mutual. -/
def dppAuthDeriveL (deriveL : DppAuth P → Option Bytes) : Attempt (DppAuth P) Unit := do
  let auth ← look
  if auth.mutual then
    let lx ← give (deriveL auth)
    write fun auth => { auth with lx := lx }
  else
    pure ()

/-- `dpp_auth_success()`. -/
def dppAuthSuccess (auth : DppAuth P) : DppAuth P :=
  { auth with
    mx := [], nx := [], lx := []
    k1 := zeros auth.curve.hashLen, k2 := zeros auth.curve.hashLen
    authSuccess := true }

/-! ## Frames -/

/-- An attribute with the hash of a bootstrapping key, where there is one. -/
def dppBuildAttrBootstrapKeyHash (id : UInt16) (hash : Option Bytes) : List (UInt16 × Bytes) :=
  hash.toList.map fun hash => (id, hash)

def dppWrappedMsg (type : DppFrameType) (attrs : List (UInt16 × Bytes)) (wrapped : Bytes) : Bytes :=
  dppAllocMsg type ++ Tlv.encodeAll dppAttrFormat (attrs ++ [(dppAttrWrappedData, wrapped)])

/-- AES-SIV of attributes, with the header and the attributes before the Wrapped Data as associated data. -/
def dppWrap (lib : DppLib P) (type : DppFrameType) (sivKey : Bytes) (attrs clear : List (UInt16 × Bytes)) :
    Option Bytes :=
  lib.aesSivEncrypt sivKey (Tlv.encodeAll dppAttrFormat clear)
    [dppHdr type, Tlv.encodeAll dppAttrFormat attrs]

def dppBuildChannel (negFreq : Nat) : Option (List (UInt16 × Bytes)) :=
  if 0 < negFreq then
    (ieee80211FreqToChannelExt negFreq 0 .useHt).map fun c =>
      [(dppAttrChannel, [UInt8.ofNat c.1, UInt8.ofNat c.2])]
  else some []

def dppReqAttrs (rPubkeyHash iPubkeyHash pi : Bytes) (channel : List (UInt16 × Bytes)) :
    List (UInt16 × Bytes) :=
  dppBuildAttrBootstrapKeyHash dppAttrRBootstrapKeyHash (some rPubkeyHash) ++
    dppBuildAttrBootstrapKeyHash dppAttrIBootstrapKeyHash (some iPubkeyHash) ++
    [(dppAttrIProtocolKey, pi)] ++ channel

def dppReqClear (iNonce : Bytes) (iCapab : UInt8) : List (UInt16 × Bytes) :=
  [(dppAttrINonce, iNonce), (dppAttrICapabilities, [iCapab])]

/-- `dpp_auth_build_req()`, after `i_capab` was set. -/
def dppAuthBuildReq (lib : DppLib P) (auth : DppAuth P) (pi rPubkeyHash iPubkeyHash : Bytes) (negFreq : Nat) :
    Option Bytes := do
  let channel ← dppBuildChannel negFreq
  let wrapped ← dppWrap lib .authenticationReq auth.k1 (dppReqAttrs rPubkeyHash iPubkeyHash pi channel)
    (dppReqClear auth.iNonce auth.iCapab)
  some (dppWrappedMsg .authenticationReq (dppReqAttrs rPubkeyHash iPubkeyHash pi channel) wrapped)

def dppRespAttrs (status : UInt8) (rPubkeyHash : Bytes) (iPubkeyHash pr : Option Bytes) :
    List (UInt16 × Bytes) :=
  [(dppAttrStatus, [status])] ++
    dppBuildAttrBootstrapKeyHash dppAttrRBootstrapKeyHash (some rPubkeyHash) ++
    dppBuildAttrBootstrapKeyHash dppAttrIBootstrapKeyHash iPubkeyHash ++
    pr.toList.map fun pr => (dppAttrRProtocolKey, pr)

def dppRespClear (rNonce : Option Bytes) (iNonce : Bytes) (rCapab : UInt8) (wrappedRAuth : Option Bytes) :
    List (UInt16 × Bytes) :=
  (rNonce.toList.map fun rNonce => (dppAttrRNonce, rNonce)) ++
    [(dppAttrINonce, iNonce), (dppAttrRCapabilities, [rCapab])] ++
    wrappedRAuth.toList.map fun wrapped => (dppAttrWrappedData, wrapped)

/-- `dpp_auth_build_resp()`. -/
def dppAuthBuildResp (lib : DppLib P) (status : UInt8) (pr : Option Bytes) (rPubkeyHash : Bytes)
    (iPubkeyHash rNonce : Option Bytes) (iNonce : Bytes) (wrappedRAuth : Option Bytes) (sivKey : Bytes) :
    Attempt (DppAuth P) Bytes := do
  write fun auth => { auth with waitingAuthConf := true, authRespTries := 0 }
  write fun auth =>
    { auth with rCapab := if auth.configurator then dppCapabConfigurator else dppCapabEnrollee }
  let auth ← look
  let wrapped ← give (dppWrap lib .authenticationResp sivKey
    (dppRespAttrs status rPubkeyHash iPubkeyHash pr) (dppRespClear rNonce iNonce auth.rCapab wrappedRAuth))
  pure (dppWrappedMsg .authenticationResp (dppRespAttrs status rPubkeyHash iPubkeyHash pr) wrapped)

/-- The start of `dpp_auth_build_resp_ok()`: the R-nonce, the protocol key, with its point, and the keys that
follow. -/
def dppAuthBuildRespKeys (lib : DppLib P) (rnd : DppRandom) : Attempt (DppAuth P) Bytes := do
  write fun auth => { auth with rNonce := rnd.bytes auth.curve.nonceLen }
  write fun auth => { auth with ownProtocolKey := some (dppGenKeypair lib auth.curve rnd.protocolKey) }
  let auth ← look
  let own ← give auth.ownProtocolKey
  let pr ← give (dppGetPubkeyPoint lib own)
  let peer ← give auth.peerProtocolKey
  let nx ← give (dppDerive lib own peer)
  write fun auth => { auth with nx := nx }
  let k2 ← give (dppDeriveK2 lib nx auth.curve.hashLen)
  write fun auth => { auth with k2 := k2 }
  dppAuthDeriveL (dppAuthDeriveLResponder lib)
  let auth ← look
  let ke ← give (dppDeriveKe lib auth)
  write fun auth => { auth with ke := ke }
  pure pr

/-- The end of `dpp_auth_build_resp_ok()`: the message. -/
def dppAuthBuildRespMsg (lib : DppLib P) (pr : Bytes) : Attempt (DppAuth P) Unit := do
  let auth ← look
  let ownBi ← give auth.ownBi
  let rAuth ← give (dppGenRAuth lib auth)
  let wrappedRAuth ← give (lib.aesSivEncrypt auth.ke (Tlv.encodeAll dppAttrFormat [(dppAttrRAuthTag, rAuth)]) [])
  let msg ← dppAuthBuildResp lib dppStatusOk (some pr) ownBi.pubkeyHash (auth.peerBi.map (·.pubkeyHash))
    (some auth.rNonce) auth.iNonce (some wrappedRAuth) auth.k2
  write fun auth => { auth with respMsg := some msg }

/-- `dpp_auth_build_resp_ok()`. -/
def dppAuthBuildRespOk (lib : DppLib P) (rnd : DppRandom) : Attempt (DppAuth P) Unit := do
  let auth ← look
  require (auth.ownBi.isSome = true)
  let pr ← dppAuthBuildRespKeys lib rnd
  dppAuthBuildRespMsg lib pr

/-- `dpp_auth_build_resp_status()`. -/
def dppAuthBuildRespStatus (lib : DppLib P) (status : UInt8) : Attempt (DppAuth P) Unit := do
  let auth ← look
  let ownBi ← give auth.ownBi
  let msg ← dppAuthBuildResp lib status none ownBi.pubkeyHash (auth.peerBi.map (·.pubkeyHash)) none
    auth.iNonce none auth.k1
  write fun auth => { auth with respMsg := some msg }

def dppConfAttrs (status : UInt8) (rPubkeyHash : Bytes) (iPubkeyHash : Option Bytes) :
    List (UInt16 × Bytes) :=
  [(dppAttrStatus, [status])] ++
    dppBuildAttrBootstrapKeyHash dppAttrRBootstrapKeyHash (some rPubkeyHash) ++
    dppBuildAttrBootstrapKeyHash dppAttrIBootstrapKeyHash iPubkeyHash

/-- `dpp_auth_build_conf()`. -/
def dppAuthBuildConf (lib : DppLib P) (status : UInt8) : Attempt (DppAuth P) Bytes := do
  let auth ← look
  let peerBi ← give auth.peerBi
  let attrs := dppConfAttrs status peerBi.pubkeyHash (auth.ownBi.map (·.pubkeyHash))
  if status = dppStatusOk then
    let iAuth ← give (dppGenIAuth lib auth)
    let wrapped ← give (dppWrap lib .authenticationConf auth.ke attrs [(dppAttrIAuthTag, iAuth)])
    write dppAuthSuccess
    pure (dppWrappedMsg .authenticationConf attrs wrapped)
  else
    let wrapped ← give (dppWrap lib .authenticationConf auth.k2 attrs [(dppAttrRNonce, auth.rNonce)])
    pure (dppWrappedMsg .authenticationConf attrs wrapped)

/-- The attributes before the Wrapped Data, and the Wrapped Data if it is long enough. -/
def dppGetWrappedData (attrs : Bytes) : Option (Bytes × Bytes) :=
  (dppGetAttr attrs dppAttrWrappedData).bind fun a =>
    if a.2.length < 16 then none else some (attrs.take a.1, a.2)

def dppGetAttrExact (attrs : Bytes) (id : UInt16) (len : Nat) : Option Bytes :=
  (dppGetAttr attrs id).bind fun a => if a.2.length ≠ len then none else some a.2

def dppGetAttrOctet (attrs : Bytes) (id : UInt16) : Option UInt8 :=
    (dppGetAttr attrs id).bind fun a => a.2.head?

/-- AES-SIV decryption of the Wrapped Data, with `dpp_check_attrs()` of what comes out. -/
def dppUnwrap (lib : DppLib P) (key wrapped : Bytes) (ad : List Bytes) : Option Bytes :=
  (lib.aesSivDecrypt key wrapped ad).bind fun clear => if dppCheckAttrs clear then some clear else none

/-! ## The initiator starts -/

/-- `dpp_auth_init()`. -/
def dppAuthInit (lib : DppLib P) (rnd : DppRandom) (peerBi : DppBootstrap P) (ownBi : Option (DppBootstrap P))
    (allowedRoles : UInt8) (negFreq : Nat) (ownModes : List (List HostapdChannel)) : Option (DppAuth P) := do
  let curve := peerBi.curve
  -- dpp_autogen_bootstrap_key()
  let bi := ownBi.getD (dppKeygen lib curve rnd.bootstrapKey)
  let freq ← dppPrepareChannelList peerBi.freq ownModes
  let own := dppGenKeypair lib curve rnd.protocolKey
  let pi ← dppGetPubkeyPoint lib own
  let mx ← dppDerive lib own peerBi.pubkey
  let k1 ← dppDeriveK1 lib mx curve.hashLen
  let auth : DppAuth P :=
    { DppAuth.zalloc curve with
      initiator := true, waitingAuthResp := true
      allowedRoles := allowedRoles
      configurator := allowedRoles &&& dppCapabConfigurator ≠ 0
      peerBi := some peerBi
      ownBi := some bi
      tmpOwnBi := if ownBi.isSome then none else some bi
      freq := freq
      iNonce := rnd.bytes curve.nonceLen
      ownProtocolKey := some own
      secretLen := mx.length, mx := mx, k1 := k1
      iCapab := allowedRoles }
  let msg ← dppAuthBuildReq lib auth pi peerBi.pubkeyHash bi.pubkeyHash negFreq
  some { auth with reqMsg := some msg }

/-! ## The responder gets the request -/

def dppNegFreq (freq : Nat) (channel : Option (Nat × Bytes)) : Option Nat :=
  match channel with
  | none => some freq
  | some (_, value) =>
    if value.length < 2 then none
    else ieee80211ChanToFreq (value.getD 0 0).toNat (value.getD 1 0).toNat

/-- What a responder decides on by the roles of the initiator. -/
inductive DppRole
  | actAs (configurator : Bool)
  | notCompatible
  | unexpected
  deriving DecidableEq

/-- The `switch` over the I-capabilities. -/
def dppRespRole (iCapab allowedRoles : UInt8) : DppRole :=
  let configuratorAllowed : Bool := allowedRoles &&& dppCapabConfigurator ≠ 0
  let enrolleeAllowed : Bool := allowedRoles &&& dppCapabEnrollee ≠ 0
  if iCapab &&& dppCapabRoleMask = dppCapabEnrollee then
    if configuratorAllowed then .actAs true else .notCompatible
  else if iCapab &&& dppCapabRoleMask = dppCapabConfigurator then
    if enrolleeAllowed then .actAs false else .notCompatible
  else if iCapab &&& dppCapabRoleMask = (dppCapabConfigurator ||| dppCapabEnrollee) then
    if enrolleeAllowed then .actAs false
    else if configuratorAllowed then .actAs true
    else .notCompatible
  else .unexpected

def dppWaitForPeer (iBootstrap : Option (Nat × Bytes)) (auth : DppAuth P) : DppAuth P :=
  match iBootstrap with
  | some (_, hash) =>
    if hash.length = 32 then { auth with responsePending := true, waitingPubkeyHash := hash } else auth
  | none => auth

/-- The start of `dpp_auth_req_rx()`: what the request says and the keys that follow. -/
def dppAuthReqRxKeys (lib : DppLib P) (freq : Nat) (ownBi : DppBootstrap P) (hdr before wrapped : Bytes) :
    Attempt (DppAuth P) (DppPkey P) := do
  let currFreq ← give (dppNegFreq freq (dppGetAttr before dppAttrChannel))
  write fun auth => { auth with currFreq := currFreq }
  let iProto ← give (dppGetAttr before dppAttrIProtocolKey)
  let pi ← give (dppSetPubkeyPoint lib ownBi.pubkey iProto.2)
  let mx ← give (dppDerive lib ownBi.pubkey pi)
  write fun auth => { auth with secretLen := mx.length, mx := mx }
  let k1 ← give (dppDeriveK1 lib mx ownBi.curve.hashLen)
  write fun auth => { auth with k1 := k1 }
  let clear ← give (dppUnwrap lib k1 wrapped [hdr, before])
  let iNonce ← give (dppGetAttrExact clear dppAttrINonce ownBi.curve.nonceLen)
  write fun auth => { auth with iNonce := iNonce }
  let iCapab ← give (dppGetAttrOctet clear dppAttrICapabilities)
  write fun auth => { auth with iCapab := iCapab }
  pure pi

/-- The end of `dpp_auth_req_rx()`: the response. -/
def dppAuthReqRxAnswer (lib : DppLib P) (rnd : DppRandom) (allowedRoles : UInt8) (qrMutual : Bool)
    (before : Bytes) (pi : DppPkey P) : Attempt (DppAuth P) Unit := do
  let auth ← look
  match dppRespRole auth.iCapab allowedRoles with
  | .unexpected => give none
  | .notCompatible =>
    write fun auth =>
      { auth with configurator := allowedRoles &&& dppCapabConfigurator ≠ 0, peerProtocolKey := some pi }
    dppAuthBuildRespStatus lib dppStatusNotCompatible
    write fun auth => { auth with removeOnTxStatus := true }
  | .actAs configurator =>
    write fun auth => { auth with configurator := configurator, peerProtocolKey := some pi }
    if qrMutual ∧ auth.peerBi.isNone ∧ auth.ownBi.any (fun bi => bi.type = .qrCode) then
      dppAuthBuildRespStatus lib dppStatusResponsePending
      write (dppWaitForPeer (dppGetAttr before dppAttrIBootstrapKeyHash))
    else
      dppAuthBuildRespOk lib rnd

/-- `dpp_auth_req_rx()` on the structure it allocates. -/
def dppAuthReqRxIn (lib : DppLib P) (rnd : DppRandom) (allowedRoles : UInt8) (qrMutual : Bool)
    (ownBi : DppBootstrap P) (freq : Nat) (hdr attrs : Bytes) : Attempt (DppAuth P) Unit := do
  let w ← give (dppGetWrappedData attrs)
  let pi ← dppAuthReqRxKeys lib freq ownBi hdr w.1 w.2
  dppAuthReqRxAnswer lib rnd allowedRoles qrMutual w.1 pi

/-- `dpp_auth_req_rx()`. -/
def dppAuthReqRx (lib : DppLib P) (rnd : DppRandom) (allowedRoles : UInt8) (qrMutual : Bool)
    (peerBi : Option (DppBootstrap P)) (ownBi : DppBootstrap P) (freq : Nat) (hdr attrs : Bytes) :
    Option (DppAuth P) :=
  completed (dppAuthReqRxIn lib rnd allowedRoles qrMutual ownBi freq hdr attrs)
    { DppAuth.zalloc ownBi.curve with peerBi := peerBi, ownBi := some ownBi, currFreq := freq }

/-- `dpp_notify_new_qr_code()`, with whether it made a response. -/
def dppNotifyNewQrCode (lib : DppLib P) (rnd : DppRandom) (peerBi : DppBootstrap P) :
    Attempt (DppAuth P) Bool := do
  let auth ← look
  if auth.responsePending ∧ auth.waitingPubkeyHash = peerBi.pubkeyHash then
    write fun auth => { auth with peerBi := some peerBi }
    dppAuthBuildRespOk lib rnd
    pure true
  else
    pure false

/-! ## The initiator gets a response -/

/-- The Initiator Bootstrapping Key Hash of a response: it is ours, or it may be absent. -/
def dppRespIHashOk (ownBi : Option (DppBootstrap P)) (iBootstrap : Option (Nat × Bytes)) : Bool :=
  match iBootstrap with
  | some (_, hash) => hash.length = 32 && ownBi.any fun bi => hash = bi.pubkeyHash
  | none => !ownBi.any fun bi => bi.type = .pkex

/-- `dpp_auth_resp_rx_status()`. -/
def dppAuthRespRxStatus (lib : DppLib P) (hdr before wrapped : Bytes) (status : UInt8) :
    Attempt (DppAuth P) Unit := do
  require (status = dppStatusNotCompatible ∨ status = dppStatusResponsePending)
  let auth ← look
  let clear ← give (dppUnwrap lib auth.k1 wrapped [hdr, before])
  let iNonce ← give (dppGetAttrExact clear dppAttrINonce auth.curve.nonceLen)
  require (iNonce = auth.iNonce)
  let rCapab ← give (dppGetAttrOctet clear dppAttrRCapabilities)
  write fun auth => { auth with rCapab := rCapab }

def dppAuthRespRxKeys (lib : DppLib P) (before : Bytes) : Attempt (DppAuth P) Unit := do
  let auth ← look
  let rProto ← give (dppGetAttr before dppAttrRProtocolKey)
  let own ← give auth.ownProtocolKey
  let pr ← give (dppSetPubkeyPoint lib own rProto.2)
  let nx ← give (dppDerive lib own pr)
  write fun auth => { auth with peerProtocolKey := some pr, nx := nx }
  let k2 ← give (dppDeriveK2 lib nx auth.curve.hashLen)
  write fun auth => { auth with k2 := k2 }

def dppAuthRespRxNonces (lib : DppLib P) (hdr before wrapped : Bytes) : Attempt (DppAuth P) Bytes := do
  let auth ← look
  let clear ← give (dppUnwrap lib auth.k2 wrapped [hdr, before])
  let rNonce ← give (dppGetAttrExact clear dppAttrRNonce auth.curve.nonceLen)
  write fun auth => { auth with rNonce := rNonce }
  let iNonce ← give (dppGetAttrExact clear dppAttrINonce auth.curve.nonceLen)
  require (iNonce = auth.iNonce)
  dppAuthDeriveL (dppAuthDeriveLInitiator lib)
  pure clear

/-- The role of the peer of a Configurator, or of an Enrollee. -/
def dppPeerRole (configurator : Bool) : UInt8 :=
  if configurator then dppCapabEnrollee else dppCapabConfigurator

/-- The role that the responder takes, with whether ours goes with it. -/
def dppAuthRespRxRole (clear : Bytes) : Attempt (DppAuth P) Bool := do
  let rCapab ← give (dppGetAttrOctet clear dppAttrRCapabilities)
  write fun auth => { auth with rCapab := rCapab }
  let auth ← look
  let role := rCapab &&& dppCapabRoleMask
  if auth.allowedRoles = (dppCapabConfigurator ||| dppCapabEnrollee) ∧
      (role = dppCapabConfigurator ∨ role = dppCapabEnrollee) then
    write fun auth => { auth with configurator := role = dppCapabEnrollee }
    pure true
  else if role ≠ dppPeerRole auth.configurator then
    require (role = dppCapabEnrollee ∨ role = dppCapabConfigurator)
    write fun auth => { auth with removeOnTxStatus := true }
    pure false
  else
    pure true

/-- The data wrapped with ke, with the status that goes into the Confirm. -/
def dppAuthRespRxTag (lib : DppLib P) (clear : Bytes) : Attempt (DppAuth P) UInt8 := do
  let w ← give (dppGetWrappedData clear)
  let auth ← look
  let ke ← give (dppDeriveKe lib auth)
  write fun auth => { auth with ke := ke }
  let clear2 ← give (dppUnwrap lib ke w.2 [])
  let rAuth ← give (dppGetAttrExact clear2 dppAttrRAuthTag auth.curve.hashLen)
  let rAuth2 ← give (dppGenRAuth lib auth)
  if rAuth ≠ rAuth2 then
    write fun auth => { auth with removeOnTxStatus := true }
    pure dppStatusAuthFailure
  else
    pure dppStatusOk

/-- A response with the status OK, with the status that goes into the Confirm. -/
def dppAuthRespRxOk (lib : DppLib P) (hdr before wrapped : Bytes) : Attempt (DppAuth P) UInt8 := do
  -- without our hash the responder has decided against mutual authentication
  write fun auth =>
    { auth with ownBi := if (dppGetAttr before dppAttrIBootstrapKeyHash).isSome then auth.ownBi else none }
  dppAuthRespRxKeys lib before
  let clear ← dppAuthRespRxNonces lib hdr before wrapped
  let compatible ← dppAuthRespRxRole clear
  if compatible then dppAuthRespRxTag lib clear else pure dppStatusNotCompatible

/-- `dpp_auth_resp_rx()` up to the Confirm, with the status that goes into it. -/
def dppAuthRespRxCheck (lib : DppLib P) (hdr attrs : Bytes) : Attempt (DppAuth P) UInt8 := do
  let auth ← look
  require (auth.initiator = true)
  write fun auth => { auth with waitingAuthResp := false }
  let w ← give (dppGetWrappedData attrs)
  let peerBi ← give auth.peerBi
  let rBootstrap ← give (dppGetAttrExact w.1 dppAttrRBootstrapKeyHash 32)
  require (rBootstrap = peerBi.pubkeyHash)
  require (dppRespIHashOk auth.ownBi (dppGetAttr w.1 dppAttrIBootstrapKeyHash) = true)
  let status ← give (dppGetAttrOctet w.1 dppAttrStatus)
  write fun auth => { auth with authRespStatus := status }
  if status ≠ dppStatusOk then
    dppAuthRespRxStatus lib hdr w.1 w.2 status
    give none
  else
    dppAuthRespRxOk lib hdr w.1 w.2

/-- `dpp_auth_resp_rx()`. -/
def dppAuthRespRx (lib : DppLib P) (hdr attrs : Bytes) : Attempt (DppAuth P) Bytes := do
  let status ← dppAuthRespRxCheck lib hdr attrs
  dppAuthBuildConf lib status

/-! ## The responder gets the Confirm -/

/-- The Initiator Bootstrapping Key Hash of a Confirm: it is the one of the initiator, or the authentication
is not mutual. -/
def dppConfIHashOk (auth : DppAuth P) (iBootstrap : Option (Nat × Bytes)) : Bool :=
  match iBootstrap with
  | some (_, hash) => hash.length = 32 && auth.peerBi.any fun bi => hash = bi.pubkeyHash
  | none => !auth.mutual

/-- `dpp_auth_conf_rx_failure()`: it says what went wrong, and fails. -/
def dppAuthConfRxFailure (lib : DppLib P) (hdr before wrapped : Bytes) : Attempt (DppAuth P) Unit := do
  let auth ← look
  let clear ← give (dppUnwrap lib auth.k2 wrapped [hdr, before])
  let rNonce ← give (dppGetAttrExact clear dppAttrRNonce auth.curve.nonceLen)
  require (rNonce = auth.rNonce)
  give none

def dppAuthConfRxTag (lib : DppLib P) (hdr before wrapped : Bytes) : Attempt (DppAuth P) Unit := do
  let auth ← look
  let clear ← give (dppUnwrap lib auth.ke wrapped [hdr, before])
  let iAuth ← give (dppGetAttrExact clear dppAttrIAuthTag auth.curve.hashLen)
  let iAuth2 ← give (dppGenIAuth lib auth)
  require (iAuth = iAuth2)

/-- `dpp_auth_conf_rx()` up to its success. -/
def dppAuthConfRxCheck (lib : DppLib P) (hdr attrs : Bytes) : Attempt (DppAuth P) Unit := do
  let auth ← look
  require (auth.initiator = false)
  write fun auth => { auth with waitingAuthConf := false }
  let w ← give (dppGetWrappedData attrs)
  let ownBi ← give auth.ownBi
  let rBootstrap ← give (dppGetAttrExact w.1 dppAttrRBootstrapKeyHash 32)
  require (rBootstrap = ownBi.pubkeyHash)
  require (dppConfIHashOk auth (dppGetAttr w.1 dppAttrIBootstrapKeyHash) = true)
  let status ← give (dppGetAttrOctet w.1 dppAttrStatus)
  if status = dppStatusNotCompatible ∨ status = dppStatusAuthFailure then
    dppAuthConfRxFailure lib hdr w.1 w.2
  else
    require (status = dppStatusOk)
    dppAuthConfRxTag lib hdr w.1 w.2

/-- `dpp_auth_conf_rx()`. -/
def dppAuthConfRx (lib : DppLib P) (hdr attrs : Bytes) : Attempt (DppAuth P) Unit := do
  dppAuthConfRxCheck lib hdr attrs
  write dppAuthSuccess

end Hostap
