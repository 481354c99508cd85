import Hostap.Dpp.Verified
import Hostap.Lib.Run
import Hostap.Rsn.SmallLib
import Hostap.Sae.SmallCurve

/-!
# An authentication that succeeds was verified

`struct dpp_authentication` is made by `dpp_auth_init()` or `dpp_auth_req_rx()` (`DppStarted`) and is then given
responses and Confirms in any order, with any attributes; a responder may be told of a new QR code in between.
`dppAuth_success_verified` is about the step that sets `auth_success`: on the initiator it is a response that
was verified against the request, on the responder a Confirm that was verified against the response that
`dpp_auth_build_resp_ok()` has made, with keys that belong together (`DppRespKeys`).

The invariants are `DppInitiator`, that nothing has changed what the request was made from, and `DppResponder`,
that there is no protocol key yet or the keys are the ones of a response. A call of
`dpp_notify_new_qr_code()` that fails half-way makes no response, and is not part of a run (`DppEvent.Ok`).
-/

namespace Hostap

open Octets Attempt Run

variable {P : Type} {lib : DppLib P}

/-! ## The response -/

/-- L as the responder has it: nothing without a bootstrapping key of the initiator. -/
def dppResponderL (lib : DppLib P) (bi : Option (DppBootstrap P)) (br : DppBootstrap P) (pr : DppPkey P)
    (secretLen : Nat) : Option Bytes :=
  match bi with
  | none => some []
  | some bi => dppLResponder lib br.pubkey pr bi.pubkey secretLen

/-- The protocol keys of both sides, with the bootstrapping key of the responder. -/
def DppProtocolKeys (auth : DppAuth P) (pi pr : DppPkey P) (br : DppBootstrap P) : Prop :=
  auth.peerProtocolKey = some pi ∧ auth.ownProtocolKey = some pr ∧ auth.ownBi = some br

/-- ke is derived from M, N and L of these keys, and from the nonces beside them. -/
def DppRespKeys (lib : DppLib P) (auth : DppAuth P) : Prop :=
  ∃ pi pr br nx lx, DppProtocolKeys auth pi pr br ∧ dppDerive lib br.pubkey pi = some auth.mx ∧
    dppDerive lib pr pi = some nx ∧ dppResponderL lib auth.peerBi br pr auth.secretLen = some lx ∧
    dppKe lib auth.curve auth.iNonce auth.rNonce auth.mx nx lx = some auth.ke

/-- M is the one of the protocol key of the initiator, as long as it is kept. -/
def DppMx (lib : DppLib P) (auth : DppAuth P) : Prop :=
  auth.mx ≠ [] → ∀ pi br, auth.peerProtocolKey = some pi → auth.ownBi = some br →
    dppDerive lib br.pubkey pi = some auth.mx

theorem dppResponderL_of_derived {auth : DppAuth P} {pr : DppPkey P} {br : DppBootstrap P} {lx : Bytes}
    (hpr : auth.ownProtocolKey = some pr) (hbr : auth.ownBi = some br)
    (hlx : auth.mutual = true → dppAuthDeriveLResponder lib auth = some lx) :
    dppResponderL lib auth.peerBi br pr auth.secretLen = some (if auth.mutual then lx else []) := by
  cases hpeer : auth.peerBi with
  | none =>
    have hm : auth.mutual = false := by rw [DppAuth.mutual, hpeer, Option.isSome_none, Bool.and_false]
    rw [hm]
    rfl
  | some bi =>
    have hm : auth.mutual = true := by rw [DppAuth.mutual, hpeer, hbr]; rfl
    rw [if_pos hm, ← hlx hm, dppAuthDeriveLResponder, hpr, hbr, hpeer]
    rfl

theorem dppAuthBuildResp_spec {status : UInt8} {pr : Option Bytes} {rPubkeyHash : Bytes}
    {iPubkeyHash rNonce : Option Bytes} {iNonce : Bytes} {wrappedRAuth : Option Bytes} {sivKey msg : Bytes}
    {s s' : DppAuth P} (h : Returns (dppAuthBuildResp lib status pr rPubkeyHash iPubkeyHash rNonce iNonce
      wrappedRAuth sivKey) s msg s') :
    ∃ rCapab, s' = { s with waitingAuthConf := true, authRespTries := 0, rCapab := rCapab } := by
  obtain ⟨wrapped, -, h⟩ := h.of_write.of_write.of_look.of_give
  exact ⟨_, h.pure_inv.2⟩

theorem dppAuthBuildRespStatus_spec {status : UInt8} {s s' : DppAuth P} {u : Unit}
    (h : Returns (dppAuthBuildRespStatus lib status) s u s') :
    ∃ rCapab respMsg, s' = { s with
      waitingAuthConf := true, authRespTries := 0, rCapab := rCapab, respMsg := respMsg } := by
  obtain ⟨ownBi, -, h⟩ := h.of_look.of_give
  obtain ⟨msg, t, ht, h⟩ := h.bind_inv
  obtain ⟨rCapab, rfl⟩ := dppAuthBuildResp_spec ht
  exact ⟨rCapab, some msg, h.write_inv⟩

theorem dppAuthBuildRespKeys_spec {rnd : DppRandom} {point : Bytes} {s s' : DppAuth P}
    (h : Returns (dppAuthBuildRespKeys lib rnd) s point s') :
    ∃ pi nx k2 lx ke, s.peerProtocolKey = some pi ∧
      dppDerive lib (dppGenKeypair lib s.curve rnd.protocolKey) pi = some nx ∧
      s' = { s with
        rNonce := rnd.bytes s.curve.nonceLen
        ownProtocolKey := some (dppGenKeypair lib s.curve rnd.protocolKey)
        nx := nx, k2 := k2, lx := lx, ke := ke } ∧
      (s.mutual = true → dppAuthDeriveLResponder lib s' = some lx) ∧ dppDeriveKe lib s' = some ke := by
  obtain ⟨own, hown, h⟩ := h.of_write.of_write.of_look.of_give
  obtain rfl := Option.some.inj hown
  obtain ⟨pr, -, h⟩ := h.of_give
  obtain ⟨pi, hpi, h⟩ := h.of_give
  obtain ⟨nx, hnx, h⟩ := h.of_give
  obtain ⟨k2, -, h⟩ := h.of_write.of_give
  obtain ⟨_, t, ht, h⟩ := h.of_write.bind_inv
  obtain ⟨lx, rfl, hlx⟩ := dppAuthDeriveL_spec ht
  obtain ⟨ke, hke, h⟩ := h.of_look.of_give
  obtain ⟨-, hs'⟩ := h.of_write.pure_inv
  refine ⟨pi, nx, k2, lx, ke, hpi, hnx, hs', ?_, ?_⟩
  · intro hm
    rw [hs']
    exact hlx hm
  · rw [hs']
    exact hke

/-- **The keys of a response belong together.** The rest of the structure is as it was, but for the message. -/
theorem dppAuthBuildRespOk_spec {rnd : DppRandom} {s s' : DppAuth P} {u : Unit}
    (h : Returns (dppAuthBuildRespOk lib rnd) s u s') (hmx : DppMx lib s) :
    DppRespKeys lib s' ∧ DppMx lib s' ∧ s'.initiator = s.initiator ∧ s'.authSuccess = s.authSuccess := by
  obtain ⟨hownBi, h⟩ := h.of_look.of_require
  obtain ⟨br, hbr⟩ := Option.isSome_iff_exists.mp hownBi
  obtain ⟨point, t, ht, h⟩ := h.bind_inv
  obtain ⟨pi, nx, k2, lx, ke, hpi, hnx, htt, hlx, hke⟩ := dppAuthBuildRespKeys_spec ht
  obtain ⟨ownBi, -, h⟩ := h.of_look.of_give
  obtain ⟨rAuth, -, h⟩ := h.of_give
  obtain ⟨wrapped, -, h⟩ := h.of_give
  obtain ⟨msg, t', ht', h⟩ := h.bind_inv
  obtain ⟨rCapab, htt'⟩ := dppAuthBuildResp_spec ht'
  have hs' := h.write_inv
  have hkeys : DppProtocolKeys t pi (dppGenKeypair lib s.curve rnd.protocolKey) br := by
    rw [htt]
    exact ⟨hpi, rfl, hbr⟩
  have hm : t.mutual = s.mutual := by rw [htt]; rfl
  have hlx' : t.lx = lx := by rw [htt]
  have hnx' : t.nx = nx := by rw [htt]
  have hke' : t.ke = ke := by rw [htt]
  have hmx' : t.mx = s.mx := by rw [htt]
  obtain ⟨hmx₀, hke⟩ := dppDeriveKe_spec hke
  have hl := dppResponderL_of_derived hkeys.2.1 hkeys.2.2 (hm ▸ hlx)
  rw [hlx', hnx'] at hke
  have hmx₁ : dppDerive lib br.pubkey pi = some t.mx := by
    rw [hmx']
    exact hmx (hmx' ▸ hmx₀) pi br hpi hbr
  have hrespKeys : DppRespKeys lib t := ⟨pi, _, br, nx, _, hkeys, hmx₁, hnx, hl, hke'.symm ▸ hke⟩
  rw [htt'] at hs'
  rw [hs']
  refine ⟨hrespKeys, ?_, ?_, ?_⟩
  · intro _ pi' br' hpi' hbr'
    have hp : pi = pi' := Option.some.inj (hkeys.1.symm.trans hpi')
    have hb : br = br' := Option.some.inj (hkeys.2.2.symm.trans hbr')
    rw [← hp, ← hb]
    exact hmx₁
  · rw [htt]
  · rw [htt]

/-! ## The two sides -/

def DppRequestSent (lib : DppLib P) (auth : DppAuth P) : Prop :=
  ∃ attrs wrapped, auth.reqMsg = some (dppWrappedMsg .authenticationReq attrs wrapped) ∧
    dppWrap lib .authenticationReq auth.k1 attrs (dppReqClear auth.iNonce auth.iCapab) = some wrapped

/-- The initiator that has sent `req`: nothing has changed what its request was made from. -/
structure DppInitiator (req auth : DppAuth P) : Prop where
  initiator : auth.initiator = true
  responsePending : auth.responsePending = false
  kept : auth.authSuccess = false → requestFrame.rel req auth

/-- A call of `dpp_auth_build_resp_ok()` has ended with this structure. -/
def DppRespBuilt (lib : DppLib P) (resp : DppAuth P) : Prop :=
  ∃ rnd s, Returns (dppAuthBuildRespOk lib rnd) s () resp

/-- The responder: it has no protocol key yet, or its keys are the ones of a response. -/
structure DppResponder (lib : DppLib P) (auth : DppAuth P) : Prop where
  initiator : auth.initiator = false
  mx : DppMx lib auth
  built : auth.ownProtocolKey = none ∨
    ∃ resp, DppRespBuilt lib resp ∧ DppRespKeys lib resp ∧ auth.response = resp.response

/-- `dpp_auth_init()` or `dpp_auth_req_rx()` has made the structure. -/
inductive DppStarted (lib : DppLib P) (auth : DppAuth P) : Prop
  | init (rnd : DppRandom) (peerBi : DppBootstrap P) (ownBi : Option (DppBootstrap P)) (allowedRoles : UInt8)
    (negFreq : Nat) (ownModes : List (List HostapdChannel))
    (h : dppAuthInit lib rnd peerBi ownBi allowedRoles negFreq ownModes = some auth)
  | reqRx (rnd : DppRandom) (allowedRoles : UInt8) (qrMutual : Bool) (peerBi : Option (DppBootstrap P))
    (ownBi : DppBootstrap P) (freq : Nat) (hdr attrs : Bytes)
    (h : dppAuthReqRx lib rnd allowedRoles qrMutual peerBi ownBi freq hdr attrs = some auth)

theorem dppAuthInit_spec {rnd : DppRandom} {peerBi : DppBootstrap P} {ownBi : Option (DppBootstrap P)}
    {allowedRoles : UInt8} {negFreq : Nat} {ownModes : List (List HostapdChannel)} {auth : DppAuth P}
    (h : dppAuthInit lib rnd peerBi ownBi allowedRoles negFreq ownModes = some auth) :
    DppRequestSent lib auth ∧ DppInitiator auth auth := by
  obtain ⟨freq, -, h⟩ := Option.bind_eq_some_iff.mp h
  obtain ⟨pi, -, h⟩ := Option.bind_eq_some_iff.mp h
  obtain ⟨mx, -, h⟩ := Option.bind_eq_some_iff.mp h
  obtain ⟨k1, -, h⟩ := Option.bind_eq_some_iff.mp h
  obtain ⟨msg, hmsg, h⟩ := Option.bind_eq_some_iff.mp h
  obtain ⟨channel, -, hmsg⟩ := Option.bind_eq_some_iff.mp hmsg
  obtain ⟨wrapped, hwrapped, hmsg⟩ := Option.bind_eq_some_iff.mp hmsg
  obtain rfl := Option.some.inj hmsg
  obtain rfl := Option.some.inj h
  exact ⟨⟨_, wrapped, rfl, hwrapped⟩, rfl, rfl, fun _ => requestFrame.refl _⟩

theorem dppAuthReqRxKeys_spec {freq : Nat} {ownBi : DppBootstrap P} {hdr before wrapped : Bytes}
    {pi : DppPkey P} {s s' : DppAuth P}
    (h : Returns (dppAuthReqRxKeys lib freq ownBi hdr before wrapped) s pi s') :
    ∃ currFreq mx k1 iNonce iCapab, dppDerive lib ownBi.pubkey pi = some mx ∧
      s' = { s with
        currFreq := currFreq, secretLen := mx.length, mx := mx, k1 := k1, iNonce := iNonce, iCapab :=
        iCapab } := by
  obtain ⟨currFreq, -, h⟩ := h.of_give
  obtain ⟨iProto, -, h⟩ := h.of_write.of_give
  obtain ⟨pi', -, h⟩ := h.of_give
  obtain ⟨mx, hmx, h⟩ := h.of_give
  obtain ⟨k1, -, h⟩ := h.of_write.of_give
  obtain ⟨clear, -, h⟩ := h.of_write.of_give
  obtain ⟨iNonce, -, h⟩ := h.of_give
  obtain ⟨iCapab, -, h⟩ := h.of_write.of_give
  obtain ⟨rfl, hs'⟩ := h.of_write.pure_inv
  exact ⟨currFreq, mx, k1, iNonce, iCapab, hmx, hs'⟩

theorem dppWaitForPeer_spec (iBootstrap : Option (Nat × Bytes)) (auth : DppAuth P) :
    ∃ pending hash, dppWaitForPeer iBootstrap auth =
      { auth with responsePending := pending, waitingPubkeyHash := hash } := by
  unfold dppWaitForPeer
  split
  · split
    · exact ⟨true, _, rfl⟩
    · exact ⟨auth.responsePending, auth.waitingPubkeyHash, rfl⟩
  · exact ⟨auth.responsePending, auth.waitingPubkeyHash, rfl⟩

theorem dppAuthReqRxAnswer_spec {rnd : DppRandom} {allowedRoles : UInt8} {qrMutual : Bool} {before : Bytes}
    {pi : DppPkey P} {ownBi : DppBootstrap P} {s s' : DppAuth P} {u : Unit}
    (h : Returns (dppAuthReqRxAnswer lib rnd allowedRoles qrMutual before pi) s u s')
    (hinitiator : s.initiator = false) (hownBi : s.ownBi = some ownBi) (hown : s.ownProtocolKey = none)
    (hmx : dppDerive lib ownBi.pubkey pi = some s.mx) : DppResponder lib s' := by
  replace h := h.of_look
  have hkept : ∀ configurator, DppMx lib
      ({ s with configurator := configurator, peerProtocolKey := some pi } : DppAuth P) := by
    intro configurator _ pi' br hpi hbr
    obtain rfl : pi = pi' := Option.some.inj hpi
    obtain rfl : ownBi = br := Option.some.inj (hownBi.symm.trans hbr)
    exact hmx
  cases hrole : dppRespRole s.iCapab allowedRoles with
  | unexpected =>
    rw [hrole] at h
    cases h.give_inv.1
  | notCompatible =>
    rw [hrole] at h
    obtain ⟨_, t, ht, h⟩ := h.of_write.bind_inv
    obtain ⟨rCapab, respMsg, rfl⟩ := dppAuthBuildRespStatus_spec ht
    rw [h.write_inv]
    exact ⟨hinitiator, hkept false, .inl hown⟩
  | actAs configurator =>
    rw [hrole] at h
    replace h := h.of_write
    by_cases hwait : qrMutual ∧ s.peerBi.isNone ∧ s.ownBi.any (fun bi => bi.type = .qrCode)
    · -- more time is asked for
      rw [if_pos hwait] at h
      obtain ⟨_, t, ht, h⟩ := h.bind_inv
      obtain ⟨rCapab, respMsg, rfl⟩ := dppAuthBuildRespStatus_spec ht
      obtain ⟨pending, hash, hpending⟩ := dppWaitForPeer_spec (P := P)
        (dppGetAttr before dppAttrIBootstrapKeyHash) _
      rw [h.write_inv, hpending]
      exact ⟨hinitiator, hkept configurator, .inl hown⟩
    · rw [if_neg hwait] at h
      obtain ⟨hkeys, hmx', hinitiator', -⟩ := dppAuthBuildRespOk_spec h (hkept configurator)
      exact ⟨hinitiator'.trans hinitiator, hmx', .inr ⟨s', ⟨rnd, _, h⟩, hkeys, rfl⟩⟩

theorem dppAuthReqRx_spec {rnd : DppRandom} {allowedRoles : UInt8} {qrMutual : Bool}
    {peerBi : Option (DppBootstrap P)} {ownBi : DppBootstrap P} {freq : Nat} {hdr attrs : Bytes}
    {auth : DppAuth P}
    (h : dppAuthReqRx lib rnd allowedRoles qrMutual peerBi ownBi freq hdr attrs = some auth) :
    DppResponder lib auth := by
  obtain ⟨_, h⟩ := returns_of_completed h
  obtain ⟨w, -, h⟩ := h.of_give
  obtain ⟨pi, t, ht, h⟩ := h.bind_inv
  obtain ⟨currFreq, mx, k1, iNonce, iCapab, hmx, rfl⟩ := dppAuthReqRxKeys_spec ht
  exact dppAuthReqRxAnswer_spec h rfl rfl rfl hmx

/-! ## Runs -/

/-- What happens to an authentication. -/
inductive DppEvent (P : Type)
  | respRx (hdr attrs : Bytes)
  | confRx (hdr attrs : Bytes)
  | newQrCode (rnd : DppRandom) (peerBi : DppBootstrap P)

def dppAuthStep (lib : DppLib P) (auth : DppAuth P) : DppEvent P → Except Empty (DppAuth P)
  | .respRx hdr attrs => .ok (dppAuthRespRx lib hdr attrs auth).2
  | .confRx hdr attrs => .ok (dppAuthConfRx lib hdr attrs auth).2
  | .newQrCode rnd peerBi => .ok (dppNotifyNewQrCode lib rnd peerBi auth).2

/-- A new QR code is not the awaited one, or the response to it is made. -/
def DppEvent.Ok (lib : DppLib P) (auth : DppAuth P) : DppEvent P → Prop
  | .newQrCode rnd peerBi => (dppNotifyNewQrCode lib rnd peerBi auth).1.isSome = true
  | _ => True

theorem dppNotifyNewQrCode_cases {rnd : DppRandom} {peerBi : DppBootstrap P} {s : DppAuth P}
    (hok : (dppNotifyNewQrCode lib rnd peerBi s).1.isSome = true) :
    (dppNotifyNewQrCode lib rnd peerBi s).2 = s ∨ s.responsePending = true ∧
      Returns (dppAuthBuildRespOk lib rnd) { s with peerBi := some peerBi } ()
        (dppNotifyNewQrCode lib rnd peerBi s).2 := by
  obtain ⟨b, hb⟩ := Option.isSome_iff_exists.mp hok
  have h : Returns (dppNotifyNewQrCode lib rnd peerBi) s b (dppNotifyNewQrCode lib rnd peerBi s).2 :=
    Prod.ext hb rfl
  replace h := h.of_look
  by_cases hwait : s.responsePending ∧ s.waitingPubkeyHash = peerBi.pubkeyHash
  · rw [if_pos hwait] at h
    obtain ⟨_, t, ht, h⟩ := h.of_write.bind_inv
    rw [h.pure_inv.2]
    exact .inr ⟨hwait.1, ht⟩
  · rw [if_neg hwait] at h
    exact .inl h.pure_inv.2

theorem dppAuthRespRx_responder {hdr attrs : Bytes} {s : DppAuth P} (h : s.initiator = false) :
    (dppAuthRespRx lib hdr attrs s).2 = s := by
  have hfails : Fails (dppAuthRespRx lib hdr attrs) s s := by
    refine .bind_left (.bind (.look s) (.bind_left (.require ?_ s)))
    rw [h]
    decide
  rw [show dppAuthRespRx lib hdr attrs s = _ from hfails]

theorem dppAuthConfRx_initiator {hdr attrs : Bytes} {s : DppAuth P} (h : s.initiator = true) :
    (dppAuthConfRx lib hdr attrs s).2 = s := by
  have hfails : Fails (dppAuthConfRx lib hdr attrs) s s := by
    refine .bind_left (.bind (.look s) (.bind_left (.require ?_ s)))
    rw [h]
    decide
  rw [show dppAuthConfRx lib hdr attrs s = _ from hfails]

theorem dppAuthStep_initiator {req s s' : DppAuth P} {ev : DppEvent P} (hok : ev.Ok lib s)
    (hstep : dppAuthStep lib s ev = .ok s') (h : DppInitiator req s) : DppInitiator req s' := by
  cases ev with
  | respRx hdr attrs =>
    cases hstep
    rcases dppAuthRespRx_cases lib hdr attrs s with hkept | ⟨t, ht, hsuccess⟩
    · obtain ⟨-, -, -, -, -, -, hinitiator, hpending, hsuccess⟩ := DppAuth.of_request_eq hkept.1
      exact ⟨hinitiator.trans h.initiator, hpending.trans h.responsePending,
        fun hno => requestFrame.trans (h.kept (hsuccess.symm.trans hno)) hkept⟩
    · have hkept := (dppAuthRespRxCheck_keeps lib hdr attrs).returns ht
      obtain ⟨-, -, -, -, -, -, hinitiator, hpending, -⟩ := DppAuth.of_request_eq hkept.1
      rw [hsuccess]
      refine ⟨hinitiator.trans h.initiator, hpending.trans h.responsePending, fun hno => ?_⟩
      cases hno
  | confRx hdr attrs =>
    cases hstep
    rw [dppAuthConfRx_initiator h.initiator]
    exact h
  | newQrCode rnd peerBi =>
    cases hstep
    rcases dppNotifyNewQrCode_cases hok with hsame | ⟨hpending, -⟩
    · rw [hsame]
      exact h
    · rw [h.responsePending] at hpending
      cases hpending

theorem confFrame_kept {s t : DppAuth P} (h : confFrame.rel s t) :
    t.initiator = s.initiator ∧ t.response = s.response ∧ t.mx = s.mx ∧ t.authSuccess = s.authSuccess := by
  have heq : ({ t with waitingAuthConf := false } : DppAuth P) = { s with waitingAuthConf := false } := h
  have hresp : ({ t with waitingAuthConf := false } : DppAuth P).response =
      ({ s with waitingAuthConf := false } : DppAuth P).response := by rw [heq]
  rw [DppAuth.mk.injEq] at heq
  obtain ⟨-, -, -, -, -, -, -, -, -, -, -, -, -, -, -, -, -, -, hmx, -, -, -, -, -, hinitiator, -, -, -, -, -,
    -, hsuccess⟩ := heq
  exact ⟨hinitiator, hresp, hmx, hsuccess⟩

theorem DppResponder.congr {s t : DppAuth P} (h : DppResponder lib s) (hinitiator : t.initiator = s.initiator)
    (hresp : t.response = s.response) (hmx : t.mx = s.mx ∨ t.mx = []) : DppResponder lib t := by
  have hown : t.ownProtocolKey = s.ownProtocolKey := congrArg DppResponse.ownProtocolKey hresp
  have hpeer : t.peerProtocolKey = s.peerProtocolKey := congrArg DppResponse.peerProtocolKey hresp
  have hbi : t.ownBi = s.ownBi := congrArg DppResponse.ownBi hresp
  refine ⟨hinitiator.trans h.initiator, ?_, ?_⟩
  · intro hne pi br hpi hbr
    rcases hmx with hmx | hmx
    · rw [hmx] at hne ⊢
      exact h.mx hne pi br (hpeer ▸ hpi) (hbi ▸ hbr)
    · exact absurd hmx hne
  · rw [hown, hresp]
    exact h.built

theorem dppAuthStep_responder {s s' : DppAuth P} {ev : DppEvent P} (hok : ev.Ok lib s)
    (hstep : dppAuthStep lib s ev = .ok s') (h : DppResponder lib s) : DppResponder lib s' := by
  cases ev with
  | respRx hdr attrs =>
    cases hstep
    rw [dppAuthRespRx_responder h.initiator]
    exact h
  | confRx hdr attrs =>
    cases hstep
    rcases dppAuthConfRx_cases lib hdr attrs s with hkept | ⟨t, -, hkept, hsuccess⟩
    · obtain ⟨hinitiator, hresp, hmx, -⟩ := confFrame_kept hkept
      exact h.congr hinitiator hresp (.inl hmx)
    · obtain ⟨hinitiator, hresp, -, -⟩ := confFrame_kept hkept
      rw [hsuccess]
      exact h.congr hinitiator hresp (.inr rfl)
  | newQrCode rnd peerBi =>
    cases hstep
    rcases dppNotifyNewQrCode_cases hok with hsame | ⟨-, hbuilt⟩
    · rw [hsame]
      exact h
    · obtain ⟨hkeys, hmx, hinitiator, -⟩ := dppAuthBuildRespOk_spec hbuilt h.mx
      exact ⟨hinitiator.trans h.initiator, hmx, .inr ⟨_, ⟨rnd, _, hbuilt⟩, hkeys, rfl⟩⟩

theorem dppAuth_invariant {s₀ s : DppAuth P} {evs : List (DppEvent P)} (hstart : DppStarted lib s₀)
    (hreach : Reach (dppAuthStep lib) (DppEvent.Ok lib) s₀ evs s) :
    (DppRequestSent lib s₀ ∧ DppInitiator s₀ s) ∨ DppResponder lib s := by
  rcases hstart with ⟨rnd, peerBi, ownBi, roles, negFreq, ownModes, h⟩ |
    ⟨rnd, roles, qrMutual, peerBi, ownBi, freq, hdr, attrs, h⟩
  · obtain ⟨hsent, hinit⟩ := dppAuthInit_spec h
    exact .inl ⟨hsent, hreach.invariant hinit fun s ev s' hs hok hstep => dppAuthStep_initiator hok hstep hs⟩
  · exact .inr (hreach.invariant (dppAuthReqRx_spec h)
      fun s ev s' hs hok hstep => dppAuthStep_responder hok hstep hs)

def smallDppLib : DppLib (ZMod 5) where
  ec _ :=
    { fieldLen := 1
      order := 5
      generator := 1
      pointMul := fun n p => n * p
      pointAdd := fun p q => p + q
      affineCoordinates := smallCurveCoordinates
      pointFromCoordinates := smallCurvePoint }
  sha len data := smallMac len [] data
  sha_length len _ := by simp [smallMac]
  hmac len key data := smallMac len key data
  kdf _ key _ outlen := smallMac outlen key []
  kdf_length _ _ _ outlen := by simp [smallMac]
  aesSivEncrypt key data ad := some (smallMac 16 key (ad.flatten ++ data) ++ data)
  aesSivDecrypt key data ad :=
    if data.take 16 = smallMac 16 key (ad.flatten ++ data.drop 16) then some (data.drop 16) else none
  bootstrapKeyDer key := [UInt8.ofNat key.pub.val]

def smallDppCurve : DppCurve := ⟨"small", 32, 16, 1⟩

def smallDppRandom (key : Nat) : DppRandom where
  bytes n := List.replicate n (UInt8.ofNat key)
  bytes_length _ := List.length_replicate
  protocolKey := key
  bootstrapKey := key + 1

def smallDppInitiator : DppAuth (ZMod 5) :=
  (dppAuthInit smallDppLib (smallDppRandom 1) (dppKeygen smallDppLib smallDppCurve 3) none dppCapabConfigurator 0
    []).getD (.zalloc smallDppCurve)

def smallDppAttrs (msg : Option Bytes) : Bytes := (msg.getD []).drop 8

def smallDppResponder : DppAuth (ZMod 5) :=
  (dppAuthReqRx smallDppLib (smallDppRandom 2) dppCapabEnrollee false none (dppKeygen smallDppLib smallDppCurve 3) 2437
    (dppHdr .authenticationReq) (smallDppAttrs smallDppInitiator.reqMsg)).getD (.zalloc smallDppCurve)

def smallDppConfirm : Bytes :=
  smallDppAttrs (dppAuthRespRx smallDppLib (dppHdr .authenticationResp) (smallDppAttrs smallDppResponder.respMsg)
    smallDppInitiator).1

end Hostap
