import Hostap.Dpp.Soundness
import Hostap.Lib.Access

/-!
# What the DPP frames dereference

The functions of `src/common/dpp.c` once more, with the places where they dereference one of the four pointers
that may be absent: the two bootstrapping keys and the two protocol keys. Between these places they are the
functions of the model of the authentication, and where nothing absent is dereferenced they do what those do
(`dppAuthRespRx_follows` and the like).
-/

namespace Hostap

namespace Deref

open Octets Attempt Access

variable {P : Type} (lib : DppLib P)

/-- `dpp_gen_r_auth()`: all keys are read before one is checked. -/
def dppGenRAuth : Access (DppAuth P) Bytes := do
  let auth ← lift look
  let own ← pointee auth.ownProtocolKey
  let peer ← pointee auth.peerProtocolKey
  if auth.initiator then
    let br ← pointee auth.peerBi
    lift (give (dppRAuth lib auth.curve auth.iNonce auth.rNonce own peer auth.ownBi br))
  else
    let br ← pointee auth.ownBi
    lift (give (dppRAuth lib auth.curve auth.iNonce auth.rNonce peer own auth.peerBi br))

/-- `dpp_gen_i_auth()`, which checks the bootstrapping key of the responder. -/
def dppGenIAuth : Access (DppAuth P) Bytes := do
  let auth ← lift look
  let own ← pointee auth.ownProtocolKey
  let peer ← pointee auth.peerProtocolKey
  if auth.initiator then
    let br ← lift (give auth.peerBi)
    lift (give (dppIAuth lib auth.curve auth.iNonce auth.rNonce own peer auth.ownBi br))
  else
    let br ← lift (give auth.ownBi)
    lift (give (dppIAuth lib auth.curve auth.iNonce auth.rNonce peer own auth.peerBi br))

/-- `dpp_auth_derive_l_responder()`. -/
def dppAuthDeriveLResponder : Access (DppAuth P) Bytes := do
  let auth ← lift look
  let bi ← pointee auth.peerBi
  let br ← pointee auth.ownBi
  let pr ← pointee auth.ownProtocolKey
  lift (give (dppLResponder lib br.pubkey pr bi.pubkey auth.secretLen))

/-- `dpp_auth_derive_l_initiator()`. -/
def dppAuthDeriveLInitiator : Access (DppAuth P) Bytes := do
  let auth ← lift look
  let br ← pointee auth.peerBi
  let pr ← pointee auth.peerProtocolKey
  let bi ← pointee auth.ownBi
  lift (give (dppLInitiator lib bi.pubkey br.pubkey pr auth.secretLen))

/-- L of one of the two sides, where the authentication is mutual. -/
def dppAuthDeriveL (deriveL : Access (DppAuth P) Bytes) : Access (DppAuth P) Unit := do
  let auth ← lift look
  if auth.mutual then
    let lx ← deriveL
    lift (write fun auth => { auth with lx := lx })
  else
    pure ()

/-- The start of `dpp_auth_build_resp_ok()`. -/
def dppAuthBuildRespKeys (rnd : DppRandom) : Access (DppAuth P) Bytes := do
  lift (write fun auth => { auth with rNonce := rnd.bytes auth.curve.nonceLen })
  lift (write fun auth => { auth with ownProtocolKey := some (dppGenKeypair lib auth.curve rnd.protocolKey) })
  let auth ← lift look
  let own ← lift (give auth.ownProtocolKey)
  let pr ← lift (give (dppGetPubkeyPoint lib own))
  let peer ← pointee auth.peerProtocolKey
  let nx ← lift (give (dppDerive lib own peer))
  lift (write fun auth => { auth with nx := nx })
  let k2 ← lift (give (dppDeriveK2 lib nx auth.curve.hashLen))
  lift (write fun auth => { auth with k2 := k2 })
  dppAuthDeriveL (dppAuthDeriveLResponder lib)
  let auth ← lift look
  let ke ← lift (give (dppDeriveKe lib auth))
  lift (write fun auth => { auth with ke := ke })
  pure pr

/-- The end of `dpp_auth_build_resp_ok()`. -/
def dppAuthBuildRespMsg (pr : Bytes) : Access (DppAuth P) Unit := do
  let auth ← lift look
  let rAuth ← dppGenRAuth lib
  let wrappedRAuth ← lift (give (lib.aesSivEncrypt auth.ke
    (Tlv.encodeAll dppAttrFormat [(dppAttrRAuthTag, rAuth)]) []))
  let ownBi ← pointee auth.ownBi
  let msg ← lift (dppAuthBuildResp lib dppStatusOk (some pr) ownBi.pubkeyHash
    (auth.peerBi.map (·.pubkeyHash)) (some auth.rNonce) auth.iNonce (some wrappedRAuth) auth.k2)
  lift (write fun auth => { auth with respMsg := some msg })

/-- `dpp_auth_build_resp_ok()`. -/
def dppAuthBuildRespOk (rnd : DppRandom) : Access (DppAuth P) Unit := do
  let auth ← lift look
  lift (require (auth.ownBi.isSome = true))
  let pr ← dppAuthBuildRespKeys lib rnd
  dppAuthBuildRespMsg lib pr

/-- `dpp_notify_new_qr_code()`. -/
def dppNotifyNewQrCode (rnd : DppRandom) (peerBi : DppBootstrap P) : Access (DppAuth P) Bool := do
  let auth ← lift look
  if auth.responsePending ∧ auth.waitingPubkeyHash = peerBi.pubkeyHash then
    lift (write fun auth => { auth with peerBi := some peerBi })
    dppAuthBuildRespOk lib rnd
    pure true
  else
    pure false

/-- `dpp_auth_build_conf()`. -/
def dppAuthBuildConf (status : UInt8) : Access (DppAuth P) Bytes := do
  let auth ← lift look
  let peerBi ← pointee auth.peerBi
  let attrs := dppConfAttrs status peerBi.pubkeyHash (auth.ownBi.map (·.pubkeyHash))
  if status = dppStatusOk then
    let iAuth ← dppGenIAuth lib
    let wrapped ← lift (give (dppWrap lib .authenticationConf auth.ke attrs [(dppAttrIAuthTag, iAuth)]))
    lift (write dppAuthSuccess)
    pure (dppWrappedMsg .authenticationConf attrs wrapped)
  else
    let wrapped ← lift (give (dppWrap lib .authenticationConf auth.k2 attrs [(dppAttrRNonce, auth.rNonce)]))
    pure (dppWrappedMsg .authenticationConf attrs wrapped)

def dppAuthRespRxKeys (before : Bytes) : Access (DppAuth P) Unit := do
  let auth ← lift look
  let rProto ← lift (give (dppGetAttr before dppAttrRProtocolKey))
  let own ← pointee auth.ownProtocolKey
  let pr ← lift (give (dppSetPubkeyPoint lib own rProto.2))
  let nx ← lift (give (dppDerive lib own pr))
  lift (write fun auth => { auth with peerProtocolKey := some pr, nx := nx })
  let k2 ← lift (give (dppDeriveK2 lib nx auth.curve.hashLen))
  lift (write fun auth => { auth with k2 := k2 })

def dppAuthRespRxNonces (hdr before wrapped : Bytes) : Access (DppAuth P) Bytes := do
  let auth ← lift look
  let clear ← lift (give (dppUnwrap lib auth.k2 wrapped [hdr, before]))
  let rNonce ← lift (give (dppGetAttrExact clear dppAttrRNonce auth.curve.nonceLen))
  lift (write fun auth => { auth with rNonce := rNonce })
  let iNonce ← lift (give (dppGetAttrExact clear dppAttrINonce auth.curve.nonceLen))
  lift (require (iNonce = auth.iNonce))
  dppAuthDeriveL (dppAuthDeriveLInitiator lib)
  pure clear

/-- The data wrapped with ke, with the status that goes into the Confirm. -/
def dppAuthRespRxTag (clear : Bytes) : Access (DppAuth P) UInt8 := do
  let w ← lift (give (dppGetWrappedData clear))
  let auth ← lift look
  let ke ← lift (give (dppDeriveKe lib auth))
  lift (write fun auth => { auth with ke := ke })
  let clear2 ← lift (give (dppUnwrap lib ke w.2 []))
  let rAuth ← lift (give (dppGetAttrExact clear2 dppAttrRAuthTag auth.curve.hashLen))
  let rAuth2 ← dppGenRAuth lib
  if rAuth ≠ rAuth2 then
    lift (write fun auth => { auth with removeOnTxStatus := true })
    pure dppStatusAuthFailure
  else
    pure dppStatusOk

/-- A response with the status OK, with the status that goes into the Confirm. -/
def dppAuthRespRxOk (hdr before wrapped : Bytes) : Access (DppAuth P) UInt8 := do
  lift (write fun auth =>
    { auth with ownBi := if (dppGetAttr before dppAttrIBootstrapKeyHash).isSome then auth.ownBi else none })
  dppAuthRespRxKeys lib before
  let clear ← dppAuthRespRxNonces lib hdr before wrapped
  let compatible ← lift (dppAuthRespRxRole clear)
  if compatible then dppAuthRespRxTag lib clear else pure dppStatusNotCompatible

/-- `dpp_auth_resp_rx()` up to the Confirm, with the status that goes into it. -/
def dppAuthRespRxCheck (hdr attrs : Bytes) : Access (DppAuth P) UInt8 := do
  let auth ← lift look
  lift (require (auth.initiator = true))
  lift (write fun auth => { auth with waitingAuthResp := false })
  let w ← lift (give (dppGetWrappedData attrs))
  let rBootstrap ← lift (give (dppGetAttrExact w.1 dppAttrRBootstrapKeyHash 32))
  let peerBi ← pointee auth.peerBi
  lift (require (rBootstrap = peerBi.pubkeyHash))
  lift (require (dppRespIHashOk auth.ownBi (dppGetAttr w.1 dppAttrIBootstrapKeyHash) = true))
  let status ← lift (give (dppGetAttrOctet w.1 dppAttrStatus))
  lift (write fun auth => { auth with authRespStatus := status })
  if status ≠ dppStatusOk then
    lift (dppAuthRespRxStatus lib hdr w.1 w.2 status)
    lift (give none)
  else
    dppAuthRespRxOk lib hdr w.1 w.2

/-- `dpp_auth_resp_rx()`. -/
def dppAuthRespRx (hdr attrs : Bytes) : Access (DppAuth P) Bytes := do
  let status ← dppAuthRespRxCheck lib hdr attrs
  dppAuthBuildConf lib status

def dppAuthConfRxTag (hdr before wrapped : Bytes) : Access (DppAuth P) Unit := do
  let auth ← lift look
  let clear ← lift (give (dppUnwrap lib auth.ke wrapped [hdr, before]))
  let iAuth ← lift (give (dppGetAttrExact clear dppAttrIAuthTag auth.curve.hashLen))
  let iAuth2 ← dppGenIAuth lib
  lift (require (iAuth = iAuth2))

/-- The Responder Bootstrapping Key Hash of a Confirm. On a mismatch the one of the initiator is printed as the
expected one. -/
def dppConfRHash (rBootstrap : Bytes) : Access (DppAuth P) Unit := do
  let auth ← lift look
  let ownBi ← pointee auth.ownBi
  if rBootstrap ≠ ownBi.pubkeyHash then
    let _ ← pointee auth.peerBi
    lift (give none)
  else
    pure ()

/-- `dpp_auth_conf_rx()` up to its success. -/
def dppAuthConfRxCheck (hdr attrs : Bytes) : Access (DppAuth P) Unit := do
  let auth ← lift look
  lift (require (auth.initiator = false))
  lift (write fun auth => { auth with waitingAuthConf := false })
  let w ← lift (give (dppGetWrappedData attrs))
  let rBootstrap ← lift (give (dppGetAttrExact w.1 dppAttrRBootstrapKeyHash 32))
  dppConfRHash rBootstrap
  lift (require (dppConfIHashOk auth (dppGetAttr w.1 dppAttrIBootstrapKeyHash) = true))
  let status ← lift (give (dppGetAttrOctet w.1 dppAttrStatus))
  if status = dppStatusNotCompatible ∨ status = dppStatusAuthFailure then
    lift (dppAuthConfRxFailure lib hdr w.1 w.2)
  else
    lift (require (status = dppStatusOk))
    dppAuthConfRxTag lib hdr w.1 w.2

/-- `dpp_auth_conf_rx()`. -/
def dppAuthConfRx (hdr attrs : Bytes) : Access (DppAuth P) Unit := do
  dppAuthConfRxCheck lib hdr attrs
  lift (write dppAuthSuccess)

/-! ## What the functions do where nothing absent is dereferenced -/

variable {lib} {s : DppAuth P}

theorem dppGenRAuth_follows (s : DppAuth P) :
    Access.Follows (dppGenRAuth lib) (give (Hostap.dppGenRAuth lib s)) s := by
  unfold Hostap.dppGenRAuth
  simp only [give_bind, give_ite]
  refine .look_left (.pointee fun own _ => .pointee fun peer _ => .ite (fun _ => ?_) fun _ => ?_)
  · exact .pointee fun br _ => follows_lift _ _
  · exact .pointee fun br _ => follows_lift _ _

theorem dppGenIAuth_follows (s : DppAuth P) :
    Access.Follows (dppGenIAuth lib) (give (Hostap.dppGenIAuth lib s)) s := by
  unfold Hostap.dppGenIAuth
  simp only [give_bind, give_ite]
  refine .look_left (.pointee fun own _ => .pointee fun peer _ => .ite (fun _ => ?_) fun _ => ?_)
  · exact .give fun br _ => follows_lift _ _
  · exact .give fun br _ => follows_lift _ _

theorem dppAuthDeriveLResponder_follows (s : DppAuth P) :
    Access.Follows (dppAuthDeriveLResponder lib) (give (Hostap.dppAuthDeriveLResponder lib s)) s := by
  unfold Hostap.dppAuthDeriveLResponder
  simp only [give_bind]
  exact .look_left (.pointee fun bi _ => .pointee fun br _ => .pointee fun pr _ => follows_lift _ _)

theorem dppAuthDeriveLInitiator_follows (s : DppAuth P) :
    Access.Follows (dppAuthDeriveLInitiator lib) (give (Hostap.dppAuthDeriveLInitiator lib s)) s := by
  unfold Hostap.dppAuthDeriveLInitiator
  simp only [give_bind]
  exact .look_left (.pointee fun br _ => .pointee fun pr _ => .pointee fun bi _ => follows_lift _ _)

theorem follows_give_bind {α β : Type} {m : Access (DppAuth P) α} {o : Option α} {f : α → Access (DppAuth P) β}
    {g : α → Attempt (DppAuth P) β} (hm : Access.Follows m (give o) s)
    (h : ∀ a, o = some a → Access.Follows (f a) (g a) s) :
    Access.Follows (m >>= f) (give o >>= g) s := by
  refine hm.bind fun a s' ha => ?_
  obtain ⟨ho, rfl⟩ := ha.give_inv
  exact h a ho

theorem dppAuthDeriveL_follows {deriveL : Access (DppAuth P) Bytes} {deriveL' : DppAuth P → Option Bytes}
    (h : ∀ s, Access.Follows deriveL (give (deriveL' s)) s) (s : DppAuth P) :
    Access.Follows (dppAuthDeriveL deriveL) (Hostap.dppAuthDeriveL deriveL') s := by
  refine .look (.ite (fun _ => ?_) fun _ => follows_pure _ _)
  exact follows_give_bind (h s) fun lx _ => follows_lift _ _

theorem dppAuthBuildRespKeys_follows (rnd : DppRandom) (s : DppAuth P) :
    Access.Follows (dppAuthBuildRespKeys lib rnd) (Hostap.dppAuthBuildRespKeys lib rnd) s := by
  refine .write (.write (.look (.give fun own _ => .give fun pr _ => .pointee fun peer _ => ?_)))
  refine .give fun nx _ => .write (.give fun k2 _ => .write ?_)
  refine (dppAuthDeriveL_follows dppAuthDeriveLResponder_follows _).bind fun _ s' _ => ?_
  exact .look (.give fun ke _ => .write (follows_pure _ _))

theorem dppAuthBuildRespMsg_follows (pr : Bytes) (s : DppAuth P) :
    Access.Follows (dppAuthBuildRespMsg lib pr) (Hostap.dppAuthBuildRespMsg lib pr) s := by
  have hlate : Hostap.dppAuthBuildRespMsg lib pr = (do
      let auth ← look
      let rAuth ← give (Hostap.dppGenRAuth lib auth)
      let wrappedRAuth ← give (lib.aesSivEncrypt auth.ke
        (Tlv.encodeAll dppAttrFormat [(dppAttrRAuthTag, rAuth)]) [])
      let ownBi ← give auth.ownBi
      let msg ← dppAuthBuildResp lib dppStatusOk (some pr) ownBi.pubkeyHash
        (auth.peerBi.map (·.pubkeyHash)) (some auth.rNonce) auth.iNonce (some wrappedRAuth) auth.k2
      write fun auth => { auth with respMsg := some msg }) := by
    unfold Hostap.dppAuthBuildRespMsg
    refine congrArg _ (funext fun auth => ?_)
    rw [give_comm]
    refine congrArg _ (funext fun rAuth => ?_)
    rw [give_comm]
  rw [hlate]
  refine .look (follows_give_bind (dppGenRAuth_follows s) fun rAuth _ => .give fun wrapped _ => ?_)
  refine .pointee fun ownBi _ => (follows_lift _ _).bind fun msg s' _ => ?_
  exact follows_lift _ _

theorem dppAuthBuildRespOk_follows (rnd : DppRandom) (s : DppAuth P) :
    Access.Follows (dppAuthBuildRespOk lib rnd) (Hostap.dppAuthBuildRespOk lib rnd) s := by
  refine .look (.require fun _ => ?_)
  exact (dppAuthBuildRespKeys_follows rnd s).bind fun pr s' _ => dppAuthBuildRespMsg_follows pr s'

theorem dppNotifyNewQrCode_follows (rnd : DppRandom) (peerBi : DppBootstrap P) (s : DppAuth P) :
    Access.Follows (dppNotifyNewQrCode lib rnd peerBi) (Hostap.dppNotifyNewQrCode lib rnd peerBi) s := by
  refine .look (.ite (fun _ => .write ?_) fun _ => follows_pure _ _)
  exact (dppAuthBuildRespOk_follows rnd _).bind fun _ s' _ => follows_pure _ _

theorem dppAuthBuildConf_follows (status : UInt8) (s : DppAuth P) :
    Access.Follows (dppAuthBuildConf lib status) (Hostap.dppAuthBuildConf lib status) s := by
  refine .look (.pointee fun peerBi _ => .ite (fun _ => ?_) fun _ => ?_)
  · refine follows_give_bind (dppGenIAuth_follows s) fun iAuth _ => .give fun wrapped _ => ?_
    exact .write (follows_pure _ _)
  · exact .give fun wrapped _ => follows_pure _ _

theorem dppAuthRespRxKeys_follows (before : Bytes) (s : DppAuth P) :
    Access.Follows (dppAuthRespRxKeys lib before) (Hostap.dppAuthRespRxKeys lib before) s := by
  refine .look (.give fun rProto _ => .pointee fun own _ => .give fun pr _ => .give fun nx _ => ?_)
  exact .write (.give fun k2 _ => follows_lift _ _)

theorem dppAuthRespRxNonces_follows (hdr before wrapped : Bytes) (s : DppAuth P) :
    Access.Follows (dppAuthRespRxNonces lib hdr before wrapped)
      (Hostap.dppAuthRespRxNonces lib hdr before wrapped) s := by
  refine .look (.give fun clear _ => .give fun rNonce _ => .write (.give fun iNonce _ => .require fun _ => ?_))
  refine (dppAuthDeriveL_follows dppAuthDeriveLInitiator_follows _).bind fun _ s' _ => ?_
  exact follows_pure _ _

theorem dppAuthRespRxTag_follows (clear : Bytes) (s : DppAuth P) :
    Access.Follows (dppAuthRespRxTag lib clear) (Hostap.dppAuthRespRxTag lib clear) s := by
  refine .give fun w _ => .look (.give fun ke _ => .write (.give fun clear2 _ => .give fun rAuth _ => ?_))
  -- ke is no part of the tag
  have htag : Hostap.dppGenRAuth lib s = Hostap.dppGenRAuth lib { s with ke := ke } := rfl
  rw [htag]
  refine follows_give_bind (dppGenRAuth_follows _) fun rAuth2 _ => .ite (fun _ => ?_) fun _ => ?_
  · exact .write (follows_pure _ _)
  · exact follows_pure _ _

theorem dppAuthRespRxOk_follows (hdr before wrapped : Bytes) (s : DppAuth P) :
    Access.Follows (dppAuthRespRxOk lib hdr before wrapped) (Hostap.dppAuthRespRxOk lib hdr before wrapped)
      s := by
  refine .write ((dppAuthRespRxKeys_follows before _).bind fun _ s₁ _ => ?_)
  refine (dppAuthRespRxNonces_follows hdr before wrapped s₁).bind fun clear s₂ _ => ?_
  refine (follows_lift _ s₂).bind fun compatible s₃ _ => .ite (fun _ => ?_) fun _ => follows_pure _ _
  exact dppAuthRespRxTag_follows clear s₃

theorem dppAuthRespRxCheck_follows (hdr attrs : Bytes) (s : DppAuth P) :
    Access.Follows (dppAuthRespRxCheck lib hdr attrs) (Hostap.dppAuthRespRxCheck lib hdr attrs) s := by
  refine .look (.require fun _ => .write (.give fun w _ => ?_))
  rw [give_comm]
  refine .give fun rBootstrap _ => .pointee fun peerBi _ => .require fun _ => .require fun _ => ?_
  refine .give fun status _ => .write (.ite (fun _ => ?_) fun _ => dppAuthRespRxOk_follows _ _ _ _)
  exact (follows_lift _ _).bind fun _ s' _ => follows_lift _ s'

theorem dppAuthRespRx_follows (hdr attrs : Bytes) (s : DppAuth P) :
    Access.Follows (dppAuthRespRx lib hdr attrs) (Hostap.dppAuthRespRx lib hdr attrs) s :=
  (dppAuthRespRxCheck_follows hdr attrs s).bind fun status s' _ => dppAuthBuildConf_follows status s'

theorem dppAuthConfRxTag_follows (hdr before wrapped : Bytes) (s : DppAuth P) :
    Access.Follows (dppAuthConfRxTag lib hdr before wrapped)
      (Hostap.dppAuthConfRxTag lib hdr before wrapped) s := by
  refine .look (.give fun clear _ => .give fun iAuth _ => ?_)
  exact follows_give_bind (dppGenIAuth_follows s) fun iAuth2 _ => follows_lift _ _

theorem dppConfRHash_follows (rBootstrap : Bytes) (s : DppAuth P) :
    Access.Follows (dppConfRHash rBootstrap)
      (give s.ownBi >>= fun ownBi => require (rBootstrap = ownBi.pubkeyHash)) s := by
  refine .look_left (.pointee fun ownBi _ => ?_)
  by_cases hhash : rBootstrap = ownBi.pubkeyHash
  · rw [if_neg (not_not_intro hhash)]
    exact fun r hr => (Returns.require hhash s).trans (Except.ok.inj hr)
  · rw [if_pos hhash]
    intro r hr
    have hfails : Fails (require (rBootstrap = ownBi.pubkeyHash)) s s := Fails.require hhash s
    cases hpeer : s.peerBi with
    | none =>
      rw [hpeer] at hr
      cases hr
    | some peerBi =>
      rw [hpeer] at hr
      exact (show _ = _ from hfails).trans (Except.ok.inj hr)

theorem dppAuthConfRxCheck_follows (hdr attrs : Bytes) (s : DppAuth P) :
    Access.Follows (dppAuthConfRxCheck lib hdr attrs) (Hostap.dppAuthConfRxCheck lib hdr attrs) s := by
  refine .look (.require fun _ => .write (.give fun w _ => ?_))
  rw [give_comm]
  refine .give fun rBootstrap _ => ?_
  rw [← give_bind_assoc]
  refine (dppConfRHash_follows rBootstrap _).bind fun _ s' hs => ?_
  obtain ⟨ownBi, _, hs⟩ := hs.of_give
  obtain ⟨_, rfl⟩ := hs.require_inv
  refine .require fun _ => .give fun status _ => .ite (fun _ => follows_lift _ _) fun _ => .require fun _ => ?_
  exact dppAuthConfRxTag_follows _ _ _ _

theorem dppAuthConfRx_follows (hdr attrs : Bytes) (s : DppAuth P) :
    Access.Follows (dppAuthConfRx lib hdr attrs) (Hostap.dppAuthConfRx lib hdr attrs) s :=
  (dppAuthConfRxCheck_follows hdr attrs s).bind fun _ s' _ => follows_lift _ s'

end Deref

end Hostap
