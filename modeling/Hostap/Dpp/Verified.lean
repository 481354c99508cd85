import Hostap.Dpp.Auth

/-!
# What is checked before an authentication succeeds

The functions that receive a response or a Confirm write to the structure before their checks are through.
What they write when they give up is only what the next frame sets again: `requestFrame` is the part of the
structure that a response does not touch, and a Confirm touches nothing that counts (`confFrame`).

* `dppAuthRespRxCheck_verified`: a response that is answered with the status OK is one to the request.
  `DppRespVerified` reads nothing but the structure the request was made with and the response itself, so
  that what earlier responses have left behind has no part in it;
* `dppAuthConfRxCheck_verified`: a Confirm that is accepted is one to the response (`DppConfVerified`);
* `dppAuthRespRx_cases` and `dppAuthConfRx_cases`: `auth_success` is set after these checks, and nowhere else.
-/

namespace Hostap

open Octets Attempt

variable {P : Type} {lib : DppLib P}

/-! ## What a response does not touch -/

/-- What the request was made from, and whether the authentication has succeeded. -/
structure DppRequest (P : Type) where
  curve : DppCurve
  peerBi : Option (DppBootstrap P)
  iNonce : Bytes
  ownProtocolKey : Option (DppPkey P)
  secretLen : Nat
  mx : Bytes
  initiator : Bool
  responsePending : Bool
  authSuccess : Bool

/-- The part of the structure that a response does not touch. -/
def DppAuth.request (auth : DppAuth P) : DppRequest P where
  curve := auth.curve
  peerBi := auth.peerBi
  iNonce := auth.iNonce
  ownProtocolKey := auth.ownProtocolKey
  secretLen := auth.secretLen
  mx := auth.mx
  initiator := auth.initiator
  responsePending := auth.responsePending
  authSuccess := auth.authSuccess

/-- The request stays, and our bootstrapping key is at most given up. -/
def requestFrame : Frame (DppAuth P) where
  rel s s' := s'.request = s.request ∧ (s'.ownBi = s.ownBi ∨ s'.ownBi = none)
  refl _ := ⟨rfl, .inl rfl⟩
  trans := by
    rintro s t u ⟨h₁, h₂⟩ ⟨h₃, h₄⟩
    refine ⟨h₃.trans h₁, ?_⟩
    rcases h₄ with h₄ | h₄
    · rw [h₄]
      exact h₂
    · exact .inr h₄

theorem dppAuthDeriveL_keeps {F : Frame (DppAuth P)} (hF : ∀ s lx, F.rel s { s with lx := lx })
    (deriveL : DppAuth P → Option Bytes) : Keeps F (dppAuthDeriveL deriveL) := by
  refine .bind .look fun auth => .ite ?_ (.pure _)
  exact .bind (.give _) fun lx => .write fun s => hF s lx

theorem dppAuthRespRxStatus_keeps (hdr before wrapped : Bytes) (status : UInt8) :
    Keeps requestFrame (dppAuthRespRxStatus lib hdr before wrapped status) := by
  refine .bind (.require _) fun _ => .bind .look fun auth => ?_
  refine .bind (.give _) fun clear => .bind (.give _) fun iNonce => .bind (.require _) fun _ => ?_
  exact .bind (.give _) fun rCapab => .write fun s => ⟨rfl, .inl rfl⟩

theorem dppAuthRespRxKeys_keeps (before : Bytes) : Keeps requestFrame (dppAuthRespRxKeys lib before) := by
  refine .bind .look fun auth => .bind (.give _) fun rProto => .bind (.give _) fun own => ?_
  refine .bind (.give _) fun pr => .bind (.give _) fun nx => ?_
  refine .bind (.write fun s => ⟨rfl, .inl rfl⟩) fun _ => ?_
  exact .bind (.give _) fun k2 => .write fun s => ⟨rfl, .inl rfl⟩

theorem dppAuthRespRxNonces_keeps (hdr before wrapped : Bytes) :
    Keeps requestFrame (dppAuthRespRxNonces lib hdr before wrapped) := by
  refine .bind .look fun auth => .bind (.give _) fun clear => .bind (.give _) fun rNonce => ?_
  refine .bind (.write fun s => ⟨rfl, .inl rfl⟩) fun _ => ?_
  refine .bind (.give _) fun iNonce => .bind (.require _) fun _ => ?_
  exact .bind (dppAuthDeriveL_keeps (F := requestFrame) (fun s lx => ⟨rfl, .inl rfl⟩) _) fun _ => .pure _

theorem dppAuthRespRxRole_keeps (clear : Bytes) :
    Keeps (requestFrame (P := P)) (dppAuthRespRxRole clear) := by
  refine .bind (.give _) fun rCapab => .bind (.write fun s => ⟨rfl, .inl rfl⟩) fun _ => ?_
  refine .bind .look fun auth => .ite ?_ (.ite ?_ (.pure _))
  · exact .bind (.write fun s => ⟨rfl, .inl rfl⟩) fun _ => .pure _
  · exact .bind (.require _) fun _ => .bind (.write fun s => ⟨rfl, .inl rfl⟩) fun _ => .pure _

theorem dppAuthRespRxTag_keeps (clear : Bytes) : Keeps requestFrame (dppAuthRespRxTag lib clear) := by
  refine .bind (.give _) fun w => .bind .look fun auth => .bind (.give _) fun ke => ?_
  refine .bind (.write fun s => ⟨rfl, .inl rfl⟩) fun _ => ?_
  refine .bind (.give _) fun clear2 => .bind (.give _) fun rAuth => .bind (.give _) fun rAuth2 => ?_
  refine .ite ?_ (.pure _)
  exact .bind (.write fun s => ⟨rfl, .inl rfl⟩) fun _ => .pure _

theorem dppAuthRespRxOk_keeps (hdr before wrapped : Bytes) :
    Keeps requestFrame (dppAuthRespRxOk lib hdr before wrapped) := by
  refine .bind (.write fun s => ⟨rfl, ?_⟩) fun _ => ?_
  · show (if _ then s.ownBi else none) = s.ownBi ∨ (if _ then s.ownBi else none) = none
    split
    · exact .inl rfl
    · exact .inr rfl
  refine .bind (dppAuthRespRxKeys_keeps _) fun _ => ?_
  refine .bind (dppAuthRespRxNonces_keeps _ _ _) fun clear => ?_
  refine .bind (dppAuthRespRxRole_keeps _) fun compatible => ?_
  exact .ite (dppAuthRespRxTag_keeps _) (.pure _)

theorem dppAuthRespRxCheck_keeps (lib : DppLib P) (hdr attrs : Bytes) :
    Keeps requestFrame (dppAuthRespRxCheck lib hdr attrs) := by
  refine .bind .look fun auth => .bind (.require _) fun _ => ?_
  refine .bind (.write fun s => ⟨rfl, .inl rfl⟩) fun _ => ?_
  refine .bind (.give _) fun w => .bind (.give _) fun peerBi => .bind (.give _) fun rBootstrap => ?_
  refine .bind (.require _) fun _ => .bind (.require _) fun _ => .bind (.give _) fun status => ?_
  refine .bind (.write fun s => ⟨rfl, .inl rfl⟩) fun _ => .ite ?_ (dppAuthRespRxOk_keeps _ _ _)
  exact .bind (dppAuthRespRxStatus_keeps _ _ _ _) fun _ => .give _

/-! ## What was checked of a response -/

/-- L as the initiator has it: nothing without a bootstrapping key of its own. -/
def dppInitiatorL (lib : DppLib P) (bi : Option (DppBootstrap P)) (br : DppBootstrap P) (pr : DppPkey P)
    (secretLen : Nat) : Option Bytes :=
  match bi with
  | none => some []
  | some bi => dppLInitiator lib bi.pubkey br.pubkey pr secretLen

/-- What a response says, with the keys it leads to. -/
structure DppRespView (P : Type) where
  own : DppPkey P
  br : DppBootstrap P
  before : Bytes
  wrapped : Bytes
  pr : DppPkey P
  nx : Bytes
  k2 : Bytes
  clear : Bytes
  rNonce : Bytes
  lx : Bytes
  ke : Bytes
  wrapped2 : Bytes
  clear2 : Bytes
  rAuth : Bytes

/-- The keys and the tag of a response, with `bi` as the bootstrapping key of the initiator. -/
structure DppRespOk (lib : DppLib P) (req : DppAuth P) (bi : Option (DppBootstrap P)) (hdr : Bytes)
    (v : DppRespView P) : Prop where
  own : req.ownProtocolKey = some v.own
  br : req.peerBi = some v.br
  pr : (dppGetAttr v.before dppAttrRProtocolKey).bind (fun a => dppSetPubkeyPoint lib v.own a.2) = some v.pr
  nx : dppDerive lib v.own v.pr = some v.nx
  k2 : dppDeriveK2 lib v.nx req.curve.hashLen = some v.k2
  clear : dppUnwrap lib v.k2 v.wrapped [hdr, v.before] = some v.clear
  iNonce : dppGetAttrExact v.clear dppAttrINonce req.curve.nonceLen = some req.iNonce
  rNonce : dppGetAttrExact v.clear dppAttrRNonce req.curve.nonceLen = some v.rNonce
  lx : dppInitiatorL lib bi v.br v.pr req.secretLen = some v.lx
  ke : dppKe lib req.curve req.iNonce v.rNonce req.mx v.nx v.lx = some v.ke
  wrapped2 : (dppGetWrappedData v.clear).map (·.2) = some v.wrapped2
  clear2 : dppUnwrap lib v.ke v.wrapped2 [] = some v.clear2
  rAuth : dppRAuth lib req.curve req.iNonce v.rNonce v.own v.pr bi v.br = some v.rAuth
  tag : dppGetAttrExact v.clear2 dppAttrRAuthTag req.curve.hashLen = some v.rAuth

/-- The bootstrapping key that the initiator goes on with: a response without its hash is one without mutual
authentication. -/
def DppRespView.bi (v : DppRespView P) (req : DppAuth P) : Option (DppBootstrap P) :=
  if (dppGetAttr v.before dppAttrIBootstrapKeyHash).isSome then req.ownBi else none

/-- The response is one to the request that `req` was made with. -/
structure DppRespVerified (lib : DppLib P) (req : DppAuth P) (hdr attrs : Bytes) (v : DppRespView P) :
    Prop where
  wrapped : dppGetWrappedData attrs = some (v.before, v.wrapped)
  status : dppGetAttrOctet v.before dppAttrStatus = some dppStatusOk
  rBootstrap : dppGetAttrExact v.before dppAttrRBootstrapKeyHash 32 = some v.br.pubkeyHash
  ok : DppRespOk lib req (v.bi req) hdr v

theorem dppAuthDeriveL_spec {deriveL : DppAuth P → Option Bytes} {s s' : DppAuth P} {u : Unit}
    (h : Returns (dppAuthDeriveL deriveL) s u s') :
    ∃ lx, s' = { s with lx := lx } ∧ (s.mutual = true → deriveL s = some lx) := by
  replace h := h.of_look
  by_cases hm : s.mutual = true
  · rw [if_pos hm] at h
    obtain ⟨lx, hlx, h⟩ := h.of_give
    exact ⟨lx, h.write_inv, fun _ => hlx⟩
  · rw [if_neg hm] at h
    exact ⟨s.lx, h.pure_inv.2, fun hm' => absurd hm' hm⟩

theorem dppDeriveKe_spec {auth : DppAuth P} {ke : Bytes} (h : dppDeriveKe lib auth = some ke) :
    auth.mx ≠ [] ∧ dppKe lib auth.curve auth.iNonce auth.rNonce auth.mx auth.nx
      (if auth.mutual then auth.lx else []) = some ke := by
  unfold dppDeriveKe at h
  by_cases hempty : auth.mx = [] ∨ auth.nx = []
  · rw [if_pos hempty] at h
    cases h
  rw [if_neg hempty] at h
  refine ⟨fun hmx => hempty (.inl hmx), ?_⟩
  by_cases hm : auth.mutual = true
  · rw [if_pos hm] at h ⊢
    by_cases hlx : auth.lx = []
    · rw [if_pos hlx] at h
      cases h
    · rw [if_neg hlx] at h
      exact h
  · rw [if_neg hm] at h ⊢
    exact h

theorem dppAuthRespRxKeys_spec {before : Bytes} {s s' : DppAuth P} {u : Unit}
    (h : Returns (dppAuthRespRxKeys lib before) s u s') :
    ∃ own pr nx k2, s.ownProtocolKey = some own ∧
      (dppGetAttr before dppAttrRProtocolKey).bind (fun a => dppSetPubkeyPoint lib own a.2) = some pr ∧
      dppDerive lib own pr = some nx ∧ dppDeriveK2 lib nx s.curve.hashLen = some k2 ∧
      s' = { s with peerProtocolKey := some pr, nx := nx, k2 := k2 } := by
  replace h := h.of_look
  obtain ⟨rProto, hrProto, h⟩ := h.of_give
  obtain ⟨own, hown, h⟩ := h.of_give
  obtain ⟨pr, hpr, h⟩ := h.of_give
  obtain ⟨nx, hnx, h⟩ := h.of_give
  obtain ⟨k2, hk2, h⟩ := h.of_write.of_give
  refine ⟨own, pr, nx, k2, hown, ?_, hnx, hk2, h.write_inv⟩
  rw [hrProto]
  exact hpr

theorem dppAuthRespRxNonces_spec {hdr before wrapped clear : Bytes} {s s' : DppAuth P}
    (h : Returns (dppAuthRespRxNonces lib hdr before wrapped) s clear s') :
    ∃ rNonce lx, dppUnwrap lib s.k2 wrapped [hdr, before] = some clear ∧
      dppGetAttrExact clear dppAttrRNonce s.curve.nonceLen = some rNonce ∧
      dppGetAttrExact clear dppAttrINonce s.curve.nonceLen = some s.iNonce ∧
      (s.mutual = true → dppAuthDeriveLInitiator lib s = some lx) ∧
      s' = { s with rNonce := rNonce, lx := lx } := by
  replace h := h.of_look
  obtain ⟨clear', hclear, h⟩ := h.of_give
  obtain ⟨rNonce, hrNonce, h⟩ := h.of_give
  obtain ⟨iNonce, hiNonce, h⟩ := h.of_write.of_give
  obtain ⟨heq, h⟩ := h.of_require
  rw [heq] at hiNonce
  obtain ⟨_, t, ht, h⟩ := h.bind_inv
  obtain ⟨rfl, rfl⟩ := h.pure_inv
  obtain ⟨lx, hs', hlx⟩ := dppAuthDeriveL_spec ht
  exact ⟨rNonce, lx, hclear, hrNonce, hiNonce, hlx, hs'⟩

theorem dppAuthRespRxRole_spec {clear : Bytes} {s s' : DppAuth P}
    (h : Returns (dppAuthRespRxRole clear) s true s') :
    ∃ rCapab configurator, s' = { s with rCapab := rCapab, configurator := configurator } := by
  obtain ⟨rCapab, hrCapab, h⟩ := h.of_give
  replace h := h.of_write.of_look
  dsimp only at h
  split at h
  · exact ⟨rCapab, _, h.of_write.pure_inv.2⟩
  · split at h
    · obtain ⟨-, h⟩ := h.of_require
      cases h.of_write.pure_inv.1
    · exact ⟨rCapab, s.configurator, h.pure_inv.2⟩

theorem dppAuthRespRxTag_spec {clear : Bytes} {s s' : DppAuth P}
    (h : Returns (dppAuthRespRxTag lib clear) s dppStatusOk s') :
    ∃ wrapped2 ke clear2 rAuth, (dppGetWrappedData clear).map (·.2) = some wrapped2 ∧
      dppDeriveKe lib s = some ke ∧ dppUnwrap lib ke wrapped2 [] = some clear2 ∧
      dppGetAttrExact clear2 dppAttrRAuthTag s.curve.hashLen = some rAuth ∧
      dppGenRAuth lib s = some rAuth ∧ s' = { s with ke := ke } := by
  obtain ⟨w, hw, h⟩ := h.of_give
  obtain ⟨ke, hke, h⟩ := h.of_look.of_give
  obtain ⟨clear2, hclear2, h⟩ := h.of_write.of_give
  obtain ⟨rAuth, hrAuth, h⟩ := h.of_give
  obtain ⟨rAuth2, hrAuth2, h⟩ := h.of_give
  by_cases heq : rAuth ≠ rAuth2
  · rw [if_pos heq] at h
    cases h.of_write.pure_inv.1
  rw [if_neg heq] at h
  obtain rfl : rAuth = rAuth2 := not_not.mp heq
  refine ⟨w.2, ke, clear2, rAuth, ?_, hke, hclear2, hrAuth, hrAuth2, h.pure_inv.2⟩
  rw [hw]
  rfl

theorem dppGenRAuth_initiator {auth : DppAuth P} {own pr : DppPkey P} {br : DppBootstrap P}
    (hinitiator : auth.initiator = true) (hown : auth.ownProtocolKey = some own)
    (hpr : auth.peerProtocolKey = some pr) (hbr : auth.peerBi = some br) :
    dppGenRAuth lib auth = dppRAuth lib auth.curve auth.iNonce auth.rNonce own pr auth.ownBi br := by
  simp only [dppGenRAuth, hown, hpr, hbr, hinitiator, bind, Option.bind_some, if_true]

theorem dppInitiatorL_of_derived {auth : DppAuth P} {pr : DppPkey P} {br : DppBootstrap P} {lx : Bytes}
    (hpr : auth.peerProtocolKey = some pr) (hbr : auth.peerBi = some br)
    (hlx : auth.mutual = true → dppAuthDeriveLInitiator lib auth = some lx) :
    dppInitiatorL lib auth.ownBi br pr auth.secretLen = some (if auth.mutual then lx else []) := by
  cases hown : auth.ownBi with
  | none =>
    have hm : auth.mutual = false := by rw [DppAuth.mutual, hown]; rfl
    rw [hm]
    rfl
  | some bi =>
    have hm : auth.mutual = true := by rw [DppAuth.mutual, hown, hbr]; rfl
    rw [if_pos hm, ← hlx hm, dppAuthDeriveLInitiator, hpr, hbr, hown]
    rfl

theorem dppRespIHashOk_isSome {bi : Option (DppBootstrap P)} {iBootstrap : Option (Nat × Bytes)}
    (h : dppRespIHashOk bi iBootstrap = true) (hsome : iBootstrap.isSome = true) : bi ≠ none := by
  rintro rfl
  obtain ⟨⟨off, hash⟩, rfl⟩ := Option.isSome_iff_exists.mp hsome
  simp [dppRespIHashOk] at h

theorem DppAuth.of_request_eq {s t : DppAuth P} (h : s.request = t.request) :
    s.curve = t.curve ∧ s.peerBi = t.peerBi ∧ s.iNonce = t.iNonce ∧ s.ownProtocolKey = t.ownProtocolKey ∧
      s.secretLen = t.secretLen ∧ s.mx = t.mx ∧ s.initiator = t.initiator ∧
      s.responsePending = t.responsePending ∧ s.authSuccess = t.authSuccess := by
  simpa only [DppAuth.request, DppRequest.mk.injEq] using h

theorem dppAuthRespRxOk_spec {hdr before wrapped : Bytes} {req s s' : DppAuth P} {br : DppBootstrap P}
    (h : Returns (dppAuthRespRxOk lib hdr before wrapped) s dppStatusOk s')
    (hreq : s.request = req.request) (hinitiator : s.initiator = true) (hbr : s.peerBi = some br) :
    ∃ v : DppRespView P, v.before = before ∧ v.wrapped = wrapped ∧ v.br = br ∧
      s'.ke = v.ke ∧ s'.rNonce = v.rNonce ∧
      s'.ownBi = (if (dppGetAttr before dppAttrIBootstrapKeyHash).isSome then s.ownBi else none) ∧
      DppRespOk lib req s'.ownBi hdr v := by
  replace h := h.of_write
  obtain ⟨_, s₁, hkeys, h⟩ := h.bind_inv
  obtain ⟨clear, s₂, hnonces, h⟩ := h.bind_inv
  obtain ⟨compatible, s₃, hrole, h⟩ := h.bind_inv
  cases compatible with
  | false =>
    rw [if_neg (by decide)] at h
    cases h.pure_inv.1
  | true =>
  rw [if_pos rfl] at h
  obtain ⟨own, pr, nx, k2, hown, hpr, hnx, hk2, hs₁⟩ := dppAuthRespRxKeys_spec hkeys
  obtain ⟨rNonce, lx, hclear, hrNonce, hiNonce, hlx, hs₂⟩ := dppAuthRespRxNonces_spec hnonces
  obtain ⟨rCapab, configurator, hs₃⟩ := dppAuthRespRxRole_spec hrole
  obtain ⟨wrapped2, ke, clear2, rAuth, hwrapped2, hke, hclear2, htag, hrAuth, hs'⟩ := dppAuthRespRxTag_spec h
  -- the request is the same before and after each part
  have hreq₁ : s₁.request = req.request := ((dppAuthRespRxKeys_keeps _).returns hkeys).1.trans hreq
  have hreq₂ : s₂.request = req.request := ((dppAuthRespRxNonces_keeps _ _ _).returns hnonces).1.trans hreq₁
  have hreq₃ : s₃.request = req.request := ((dppAuthRespRxRole_keeps _).returns hrole).1.trans hreq₂
  obtain ⟨hcurve, hpeerBi, -, hown₀, -⟩ := DppAuth.of_request_eq hreq
  obtain ⟨hcurve₁, hpeerBi₁, hiNonce₁, -, hsecret₁, -⟩ := DppAuth.of_request_eq hreq₁
  obtain ⟨hcurve₃, hpeerBi₃, hiNonce₃, hown₃, -, hmx₃, -⟩ := DppAuth.of_request_eq hreq₃
  have hbr' : req.peerBi = some br := hpeerBi.symm.trans hbr
  have hown' : req.ownProtocolKey = some own := hown₀.symm.trans hown
  have hinitiator₃ : s₃.initiator = true := by rw [hs₃, hs₂, hs₁]; exact hinitiator
  -- what the parts have set
  have hpr₁ : s₁.peerProtocolKey = some pr := by rw [hs₁]
  have hpr₃ : s₃.peerProtocolKey = some pr := by rw [hs₃, hs₂, hs₁]
  have hk2₁ : s₁.k2 = k2 := by rw [hs₁]
  have hrNonce₃ : s₃.rNonce = rNonce := by rw [hs₃, hs₂]
  have hnx₃ : s₃.nx = nx := by rw [hs₃, hs₂, hs₁]
  have hlx₃ : s₃.lx = lx := by rw [hs₃, hs₂]
  have hm₃ : s₃.mutual = s₁.mutual := by rw [hs₃, hs₂]; rfl
  have hbi₁ : s₁.ownBi = s'.ownBi := by rw [hs', hs₃, hs₂]
  have hbi₃ : s₃.ownBi = s'.ownBi := by rw [hs']
  have hl := dppInitiatorL_of_derived hpr₁ (hpeerBi₁.trans hbr') hlx
  have hke' := (dppDeriveKe_spec hke).2
  rw [hbi₁, hsecret₁] at hl
  rw [hk2₁] at hclear
  rw [hcurve₁] at hrNonce hiNonce
  rw [hiNonce₁] at hiNonce
  rw [hcurve] at hk2
  rw [hcurve₃] at htag
  rw [hcurve₃, hiNonce₃, hrNonce₃, hmx₃, hnx₃, hm₃, hlx₃] at hke'
  rw [dppGenRAuth_initiator hinitiator₃ (hown₃.trans hown') hpr₃ (hpeerBi₃.trans hbr'), hcurve₃, hiNonce₃,
    hrNonce₃, hbi₃] at hrAuth
  refine ⟨⟨own, br, before, wrapped, pr, nx, k2, clear, rNonce, if s₁.mutual then lx else [], ke, wrapped2, clear2,
    rAuth⟩, rfl, rfl, rfl, by rw [hs'], by rw [hs']; exact hrNonce₃, by rw [← hbi₁, hs₁], ?_⟩
  exact ⟨hown', hbr', hpr, hnx, hk2, hclear, hiNonce, hrNonce, hl, hke', hwrapped2, hclear2, hrAuth, htag⟩

theorem DppRespView.bi_eq {req s : DppAuth P} (hreq : requestFrame.rel req s) {v : DppRespView P}
    (hok : dppRespIHashOk s.ownBi (dppGetAttr v.before dppAttrIBootstrapKeyHash) = true) :
    (if (dppGetAttr v.before dppAttrIBootstrapKeyHash).isSome then s.ownBi else none) = v.bi req := by
  unfold DppRespView.bi
  by_cases hsome : (dppGetAttr v.before dppAttrIBootstrapKeyHash).isSome = true
  · rw [if_pos hsome, if_pos hsome]
    rcases hreq.2 with heq | heq
    · exact heq
    · exact absurd heq (dppRespIHashOk_isSome hok hsome)
  · rw [if_neg hsome, if_neg hsome]

/-- **A response that is answered with the status OK was verified.** -/
theorem dppAuthRespRxCheck_verified {hdr attrs : Bytes} {req s s' : DppAuth P}
    (hreq : requestFrame.rel req s) (h : Returns (dppAuthRespRxCheck lib hdr attrs) s dppStatusOk s') :
    ∃ v, DppRespVerified lib req hdr attrs v ∧ s'.ke = v.ke ∧ s'.rNonce = v.rNonce ∧
      s'.ownBi = v.bi req := by
  obtain ⟨hinitiator, h⟩ := h.of_look.of_require
  obtain ⟨⟨before, wrapped⟩, hwrapped, h⟩ := h.of_write.of_give
  obtain ⟨br, hbr, h⟩ := h.of_give
  obtain ⟨rBootstrap, hrBootstrap, h⟩ := h.of_give
  obtain ⟨hhash, h⟩ := h.of_require
  obtain ⟨hiHash, h⟩ := h.of_require
  obtain ⟨status, hstatus, h⟩ := h.of_give
  replace h := h.of_write
  by_cases hok : status ≠ dppStatusOk
  · -- whatever the responder says, no Confirm follows
    rw [if_pos hok] at h
    obtain ⟨_, _, _, h⟩ := h.bind_inv
    cases h.give_inv.1
  rw [if_neg hok] at h
  obtain rfl : status = dppStatusOk := not_not.mp hok
  have hrequest : s.request = req.request := hreq.1
  obtain ⟨v, rfl, rfl, rfl, hke, hrNonce, hbi, hv⟩ := dppAuthRespRxOk_spec h hrequest hinitiator hbr
  have hbi' : s'.ownBi = v.bi req := hbi.trans (DppRespView.bi_eq hreq hiHash)
  rw [hbi'] at hv
  refine ⟨v, ⟨hwrapped, hstatus, ?_, hv⟩, hke, hrNonce, hbi'⟩
  rw [hrBootstrap, hhash]

/-! ## The step that sets `auth_success` -/

def successFrame : Frame (DppAuth P) where
  rel s s' := s' = s ∨ s' = dppAuthSuccess s
  refl _ := .inl rfl
  trans := by
    rintro s t u h (rfl | rfl)
    · exact h
    · rcases h with rfl | rfl
      · exact .inr rfl
      · exact .inr rfl

theorem dppAuthBuildConf_keeps (lib : DppLib P) (status : UInt8) : Keeps successFrame
    (dppAuthBuildConf lib status) := by
  refine .bind .look fun auth => .bind (.give _) fun peerBi => .ite ?_ ?_
  · refine .bind (.give _) fun iAuth => .bind (.give _) fun wrapped => ?_
    exact .bind (.write fun s => .inr rfl) fun _ => .pure _
  · exact .bind (.give _) fun wrapped => .pure _

theorem dppAuthBuildConf_failure {status : UInt8} (h : status ≠ dppStatusOk) :
    Keeps (Frame.same id) (dppAuthBuildConf lib status) := by
  refine .bind .look fun auth => .bind (.give _) fun peerBi => ?_
  rw [if_neg h]
  exact .bind (.give _) fun wrapped => .pure _

theorem dppAuthRespRx_cases (lib : DppLib P) (hdr attrs : Bytes) (s : DppAuth P) :
    requestFrame.rel s (dppAuthRespRx lib hdr attrs s).2 ∨
      ∃ t, Returns (dppAuthRespRxCheck lib hdr attrs) s dppStatusOk t ∧
        (dppAuthRespRx lib hdr attrs s).2 = dppAuthSuccess t := by
  have hkeeps := dppAuthRespRxCheck_keeps lib hdr attrs s
  have hrun : dppAuthRespRx lib hdr attrs s =
      andThen (dppAuthRespRxCheck lib hdr attrs s) (dppAuthBuildConf lib) := rfl
  rw [hrun]
  rcases hcheck : dppAuthRespRxCheck lib hdr attrs s with ⟨_ | status, t⟩
  · rw [hcheck] at hkeeps
    exact .inl hkeeps
  rw [hcheck] at hkeeps
  show _ ∨ ∃ t', _ ∧ (dppAuthBuildConf lib status t).2 = _
  by_cases hok : status = dppStatusOk
  · subst hok
    rcases dppAuthBuildConf_keeps lib dppStatusOk t with hsame | hsuccess
    · left
      show requestFrame.rel s (dppAuthBuildConf lib dppStatusOk t).2
      rw [hsame]
      exact hkeeps
    · exact .inr ⟨t, hcheck, hsuccess⟩
  · left
    have hsame : (dppAuthBuildConf lib status t).2 = t := dppAuthBuildConf_failure hok t
    show requestFrame.rel s (dppAuthBuildConf lib status t).2
    rw [hsame]
    exact hkeeps

def confFrame : Frame (DppAuth P) := Frame.same fun s => { s with waitingAuthConf := false }

theorem dppAuthConfRxCheck_keeps (lib : DppLib P) (hdr attrs : Bytes) : Keeps confFrame
    (dppAuthConfRxCheck lib hdr attrs) := by
  refine .bind .look fun auth => .bind (.require _) fun _ => .bind (.write fun s => rfl) fun _ => ?_
  refine .bind (.give _) fun w => .bind (.give _) fun ownBi => .bind (.give _) fun rBootstrap => ?_
  refine .bind (.require _) fun _ => .bind (.require _) fun _ => .bind (.give _) fun status => .ite ?_ ?_
  · refine .bind .look fun auth => .bind (.give _) fun clear => .bind (.give _) fun rNonce => ?_
    exact .bind (.require _) fun _ => .give _
  · refine .bind (.require _) fun _ => .bind .look fun auth => .bind (.give _) fun clear => ?_
    exact .bind (.give _) fun iAuth => .bind (.give _) fun iAuth2 => .require _

theorem dppAuthConfRx_cases (lib : DppLib P) (hdr attrs : Bytes) (s : DppAuth P) :
    confFrame.rel s (dppAuthConfRx lib hdr attrs s).2 ∨
      ∃ t, Returns (dppAuthConfRxCheck lib hdr attrs) s () t ∧ confFrame.rel s t ∧
        (dppAuthConfRx lib hdr attrs s).2 = dppAuthSuccess t := by
  have hkeeps := dppAuthConfRxCheck_keeps lib hdr attrs s
  have hrun : dppAuthConfRx lib hdr attrs s =
      andThen (dppAuthConfRxCheck lib hdr attrs s) fun _ => write dppAuthSuccess := rfl
  rw [hrun]
  rcases hcheck : dppAuthConfRxCheck lib hdr attrs s with ⟨_ | u, t⟩
  · rw [hcheck] at hkeeps
    exact .inl hkeeps
  · rw [hcheck] at hkeeps
    exact .inr ⟨t, hcheck, hkeeps, rfl⟩

/-! ## What was checked of a Confirm -/

/-- What a response was made from, with the key that protects the Confirm. -/
structure DppResponse (P : Type) where
  curve : DppCurve
  peerBi : Option (DppBootstrap P)
  ownBi : Option (DppBootstrap P)
  iNonce : Bytes
  rNonce : Bytes
  ownProtocolKey : Option (DppPkey P)
  peerProtocolKey : Option (DppPkey P)
  ke : Bytes

/-- The part of the structure that a Confirm does not touch. -/
def DppAuth.response (auth : DppAuth P) : DppResponse P where
  curve := auth.curve
  peerBi := auth.peerBi
  ownBi := auth.ownBi
  iNonce := auth.iNonce
  rNonce := auth.rNonce
  ownProtocolKey := auth.ownProtocolKey
  peerProtocolKey := auth.peerProtocolKey
  ke := auth.ke

/-- What a Confirm says, with the keys of the response it is for. -/
structure DppConfView (P : Type) where
  pi : DppPkey P
  pr : DppPkey P
  br : DppBootstrap P
  before : Bytes
  wrapped : Bytes
  clear : Bytes
  iAuth : Bytes

/-- The Confirm is one to the response. -/
structure DppConfVerified (lib : DppLib P) (resp : DppResponse P) (hdr attrs : Bytes) (v : DppConfView P) :
    Prop where
  pi : resp.peerProtocolKey = some v.pi
  pr : resp.ownProtocolKey = some v.pr
  br : resp.ownBi = some v.br
  wrapped : dppGetWrappedData attrs = some (v.before, v.wrapped)
  status : dppGetAttrOctet v.before dppAttrStatus = some dppStatusOk
  rBootstrap : dppGetAttrExact v.before dppAttrRBootstrapKeyHash 32 = some v.br.pubkeyHash
  clear : dppUnwrap lib resp.ke v.wrapped [hdr, v.before] = some v.clear
  iAuth : dppIAuth lib resp.curve resp.iNonce resp.rNonce v.pi v.pr resp.peerBi v.br = some v.iAuth
  tag : dppGetAttrExact v.clear dppAttrIAuthTag resp.curve.hashLen = some v.iAuth

theorem dppGenIAuth_responder {auth : DppAuth P} {iAuth : Bytes} (hinitiator : auth.initiator = false)
    (h : dppGenIAuth lib auth = some iAuth) :
    ∃ pi pr br, auth.peerProtocolKey = some pi ∧ auth.ownProtocolKey = some pr ∧ auth.ownBi = some br ∧
      dppIAuth lib auth.curve auth.iNonce auth.rNonce pi pr auth.peerBi br = some iAuth := by
  obtain ⟨pr, hpr, h⟩ := Option.bind_eq_some_iff.mp h
  obtain ⟨pi, hpi, h⟩ := Option.bind_eq_some_iff.mp h
  rw [hinitiator, if_neg (by decide)] at h
  obtain ⟨br, hbr, h⟩ := Option.bind_eq_some_iff.mp h
  exact ⟨pi, pr, br, hpi, hpr, hbr, h⟩

/-- **A Confirm that is accepted was verified.** -/
theorem dppAuthConfRxCheck_verified {hdr attrs : Bytes} {s s' : DppAuth P} {u : Unit}
    (h : Returns (dppAuthConfRxCheck lib hdr attrs) s u s') :
    ∃ v, DppConfVerified lib s.response hdr attrs v := by
  obtain ⟨hinitiator, h⟩ := h.of_look.of_require
  obtain ⟨⟨before, wrapped⟩, hwrapped, h⟩ := h.of_write.of_give
  obtain ⟨ownBi, hownBi, h⟩ := h.of_give
  obtain ⟨rBootstrap, hrBootstrap, h⟩ := h.of_give
  obtain ⟨hhash, h⟩ := h.of_require
  obtain ⟨-, h⟩ := h.of_require
  obtain ⟨status, hstatus, h⟩ := h.of_give
  by_cases hfail : status = dppStatusNotCompatible ∨ status = dppStatusAuthFailure
  · -- the responder gives up in any case
    rw [if_pos hfail] at h
    obtain ⟨clear, -, h⟩ := h.of_look.of_give
    obtain ⟨rNonce, -, h⟩ := h.of_give
    obtain ⟨-, h⟩ := h.of_require
    cases h.give_inv.1
  rw [if_neg hfail] at h
  obtain ⟨hok, h⟩ := h.of_require
  obtain ⟨clear, hclear, h⟩ := h.of_look.of_give
  obtain ⟨iAuth, htag, h⟩ := h.of_give
  obtain ⟨iAuth2, hiAuth, h⟩ := h.of_give
  have heq : iAuth = iAuth2 := h.require_inv.1
  obtain ⟨pi, pr, br, hpi, hpr, hbr, hiAuth⟩ := dppGenIAuth_responder hinitiator hiAuth
  have hown : ownBi = br := Option.some.inj (hownBi.symm.trans hbr)
  refine ⟨⟨pi, pr, br, before, wrapped, clear, iAuth⟩, hpi, hpr, hbr, hwrapped, ?_, ?_, hclear, ?_, htag⟩
  · rw [hstatus, hok]
  · rw [hrBootstrap, hhash, hown]
  · rw [heq]
    exact hiAuth

end Hostap
