import Hostap.Dpp.Deref
import Hostap.Lib.Except

/-!
# What is there when a DPP frame is received

The initiator has what it dereferences from `dpp_auth_init()` on. The responder has its bootstrapping key and
the protocol key of the initiator, but its own protocol key only once it has made a response with the status OK,
and the bootstrapping key of the initiator only in a mutual authentication: the Confirm is received without
either being there, and two places of `dpp_auth_conf_rx()` do not ask (`DppConfPresent`). That is all that can
be missing in any run, with any frames (`dppAuth_present_iff`).
-/

namespace Hostap

namespace Deref

open Octets Attempt Access

variable {P : Type} {lib : DppLib P} {s : DppAuth P}

/-! ## The initiator -/

/-- What the initiator has from `dpp_auth_init()` on. -/
structure InitiatorHas (s : DppAuth P) : Prop where
  initiator : s.initiator = true
  responsePending : s.responsePending = false
  peerBi : s.peerBi.isSome = true
  ownProtocolKey : s.ownProtocolKey.isSome = true

theorem InitiatorHas.congr {t : DppAuth P} (h : InitiatorHas s) (hinitiator : t.initiator = s.initiator)
    (hpending : t.responsePending = s.responsePending) (hpeer : t.peerBi = s.peerBi)
    (hown : t.ownProtocolKey = s.ownProtocolKey) : InitiatorHas t :=
  ⟨hinitiator.trans h.initiator, hpending.trans h.responsePending, hpeer ▸ h.peerBi, hown ▸ h.ownProtocolKey⟩

theorem InitiatorHas.kept {t : DppAuth P} (h : InitiatorHas s) (hkept : requestFrame.rel s t) :
    InitiatorHas t := by
  obtain ⟨-, hpeer, -, hown, -, -, hinitiator, hpending, -⟩ := DppAuth.of_request_eq hkept.1
  exact h.congr hinitiator hpending hpeer hown

theorem InitiatorHas.genRAuth_safe (h : InitiatorHas s) (hpeer : s.peerProtocolKey.isSome = true) :
    Safe (dppGenRAuth lib) s := by
  obtain ⟨own, hown⟩ := Option.isSome_iff_exists.mp h.ownProtocolKey
  obtain ⟨peer, hpeer⟩ := Option.isSome_iff_exists.mp hpeer
  obtain ⟨br, hbr⟩ := Option.isSome_iff_exists.mp h.peerBi
  refine safe_look.mpr ((safe_pointee_some hown).mpr ((safe_pointee_some hpeer).mpr ?_))
  rw [if_pos h.initiator]
  exact (safe_pointee_some hbr).mpr (safe_lift _)

theorem InitiatorHas.buildConf_safe (h : InitiatorHas s) {status : UInt8}
    (hpeer : status = dppStatusOk → s.peerProtocolKey.isSome = true) :
    Safe (dppAuthBuildConf lib status) s := by
  obtain ⟨own, hown⟩ := Option.isSome_iff_exists.mp h.ownProtocolKey
  obtain ⟨br, hbr⟩ := Option.isSome_iff_exists.mp h.peerBi
  refine safe_look.mpr ((safe_pointee_some hbr).mpr (safe_ite.mpr ⟨fun hok => ?_, fun _ => ?_⟩))
  · obtain ⟨peer, hpeer⟩ := Option.isSome_iff_exists.mp (hpeer hok)
    have hgen : Safe (dppGenIAuth lib) s := by
      refine safe_look.mpr ((safe_pointee_some hown).mpr ((safe_pointee_some hpeer).mpr ?_))
      rw [if_pos h.initiator]
      exact safe_give.mpr fun _ _ => safe_lift _
    exact safe_bind.mpr ⟨hgen, fun _ _ _ => safe_give.mpr fun _ _ => safe_write.mpr (safe_pure _)⟩
  · exact safe_give.mpr fun _ _ => safe_pure _

theorem InitiatorHas.respRxKeys_safe (h : InitiatorHas s) (before : Bytes) :
    Safe (dppAuthRespRxKeys lib before) s := by
  obtain ⟨own, hown⟩ := Option.isSome_iff_exists.mp h.ownProtocolKey
  refine safe_look.mpr (safe_give.mpr fun _ _ => (safe_pointee_some hown).mpr ?_)
  exact safe_give.mpr fun _ _ => safe_give.mpr fun _ _ => safe_write.mpr (safe_give.mpr fun _ _ => safe_lift _)

theorem respRxNonces_safe (hpeer : s.peerProtocolKey.isSome = true) (hdr before wrapped : Bytes) :
    Safe (dppAuthRespRxNonces lib hdr before wrapped) s := by
  obtain ⟨peer, hpeer⟩ := Option.isSome_iff_exists.mp hpeer
  refine safe_look.mpr (safe_give.mpr fun _ _ => safe_give.mpr fun rNonce _ => safe_write.mpr ?_)
  refine safe_give.mpr fun _ _ => safe_require.mpr fun _ => safe_bind.mpr ⟨?_, fun _ _ _ => safe_pure _⟩
  refine safe_look.mpr (safe_ite.mpr ⟨fun hm => ?_, fun _ => safe_pure _⟩)
  obtain ⟨hown, hbr⟩ := Bool.and_eq_true_iff.mp (show s.mutual = true from hm)
  obtain ⟨bi, hbi⟩ := Option.isSome_iff_exists.mp hown
  obtain ⟨br, hbr⟩ := Option.isSome_iff_exists.mp hbr
  refine safe_bind.mpr ⟨safe_look.mpr ?_, fun _ _ _ => safe_lift _⟩
  refine (safe_pointee_some hbr).mpr ((safe_pointee_some hpeer).mpr ?_)
  exact (safe_pointee_some hbi).mpr (safe_lift _)

theorem InitiatorHas.respRxTag_safe (h : InitiatorHas s) (hpeer : s.peerProtocolKey.isSome = true)
    (clear : Bytes) : Safe (dppAuthRespRxTag lib clear) s := by
  refine safe_give.mpr fun _ _ => safe_look.mpr (safe_give.mpr fun ke _ => safe_write.mpr ?_)
  refine safe_give.mpr fun _ _ => safe_give.mpr fun _ _ => safe_bind.mpr ⟨?_, fun _ _ _ => ?_⟩
  · refine InitiatorHas.genRAuth_safe ?_ hpeer
    exact h.congr rfl rfl rfl rfl
  · exact safe_ite.mpr ⟨fun _ => safe_write.mpr (safe_pure _), fun _ => safe_pure _⟩

theorem respRxKeys_peer {before : Bytes} {s' : DppAuth P} {u : Unit}
    (h : Returns (Hostap.dppAuthRespRxKeys lib before) s u s') : s'.peerProtocolKey.isSome = true := by
  obtain ⟨own, pr, nx, k2, -, -, -, -, rfl⟩ := dppAuthRespRxKeys_spec h
  rfl

theorem respRxNonces_peer {hdr before wrapped clear : Bytes} {s' : DppAuth P}
    (h : Returns (Hostap.dppAuthRespRxNonces lib hdr before wrapped) s clear s') :
    s'.peerProtocolKey = s.peerProtocolKey := by
  obtain ⟨rNonce, lx, -, -, -, -, rfl⟩ := dppAuthRespRxNonces_spec h
  rfl

theorem respRxRole_peer {clear : Bytes} {s' : DppAuth P}
    (h : Returns (dppAuthRespRxRole clear) s true s') : s'.peerProtocolKey = s.peerProtocolKey := by
  obtain ⟨rCapab, configurator, rfl⟩ := dppAuthRespRxRole_spec h
  rfl

theorem InitiatorHas.respRxOk_safe (h : InitiatorHas s) (hdr before wrapped : Bytes) :
    Safe (dppAuthRespRxOk lib hdr before wrapped) s := by
  refine safe_write.mpr (safe_bind.mpr ⟨?_, fun _ s₁ h₁ => safe_bind.mpr ⟨?_, fun clear s₂ h₂ => ?_⟩⟩)
  · refine InitiatorHas.respRxKeys_safe ?_ before
    exact h.congr rfl rfl rfl rfl
  · exact respRxNonces_safe (respRxKeys_peer ((dppAuthRespRxKeys_follows _ _).returns h₁)) _ _ _
  have h₁ := (dppAuthRespRxKeys_follows _ _).returns h₁
  have h₂ := (dppAuthRespRxNonces_follows _ _ _ _).returns h₂
  refine safe_lift_bind.mpr fun compatible s₃ h₃ => safe_ite.mpr ⟨fun hc => ?_, fun _ => safe_pure _⟩
  subst hc
  have hinit : InitiatorHas s₁ := by
    refine InitiatorHas.kept ?_ ((dppAuthRespRxKeys_keeps before).returns h₁)
    exact h.congr rfl rfl rfl rfl
  have hkept := requestFrame.trans ((dppAuthRespRxNonces_keeps hdr before wrapped).returns h₂)
    ((dppAuthRespRxRole_keeps clear).returns h₃)
  refine (hinit.kept hkept).respRxTag_safe ?_ clear
  rw [respRxRole_peer h₃, respRxNonces_peer h₂]
  exact respRxKeys_peer h₁

theorem respRxOk_peer {hdr before wrapped : Bytes} {s' : DppAuth P}
    (h : Returns (Hostap.dppAuthRespRxOk lib hdr before wrapped) s dppStatusOk s') :
    s'.peerProtocolKey.isSome = true := by
  obtain ⟨_, s₁, h₁, h⟩ := h.of_write.bind_inv
  obtain ⟨clear, s₂, h₂, h⟩ := h.bind_inv
  obtain ⟨compatible, s₃, h₃, h⟩ := h.bind_inv
  cases compatible with
  | false => cases h.pure_inv.1
  | true =>
    obtain ⟨wrapped2, ke, clear2, rAuth, -, -, -, -, -, rfl⟩ := dppAuthRespRxTag_spec h
    show s₃.peerProtocolKey.isSome = true
    rw [respRxRole_peer h₃, respRxNonces_peer h₂]
    exact respRxKeys_peer h₁

theorem InitiatorHas.respRx_safe (h : InitiatorHas s) (hdr attrs : Bytes) :
    Safe (dppAuthRespRx lib hdr attrs) s := by
  obtain ⟨br, hbr⟩ := Option.isSome_iff_exists.mp h.peerBi
  refine safe_bind.mpr ⟨?_, fun status t ht => ?_⟩
  · refine safe_look.mpr (safe_require.mpr fun _ => safe_write.mpr (safe_give.mpr fun w _ => ?_))
    refine safe_give.mpr fun _ _ => (safe_pointee_some hbr).mpr (safe_require.mpr fun _ => ?_)
    refine safe_require.mpr fun _ => safe_give.mpr fun status _ => safe_write.mpr ?_
    refine safe_ite.mpr ⟨fun _ => ?_, fun _ => ?_⟩
    · exact safe_lift_bind.mpr fun _ _ _ => safe_lift _
    · refine InitiatorHas.respRxOk_safe ?_ _ _ _
      exact h.congr rfl rfl rfl rfl
  · have ht := (dppAuthRespRxCheck_follows hdr attrs s).returns ht
    refine (h.kept ((dppAuthRespRxCheck_keeps lib hdr attrs).returns ht)).buildConf_safe fun hok => ?_
    subst hok
    obtain ⟨_, ht⟩ := ht.of_look.of_require
    obtain ⟨w, _, ht⟩ := ht.of_write.of_give
    obtain ⟨peerBi, _, ht⟩ := ht.of_give
    obtain ⟨rBootstrap, _, ht⟩ := ht.of_give
    obtain ⟨_, ht⟩ := ht.of_require
    obtain ⟨_, ht⟩ := ht.of_require
    obtain ⟨status, _, ht⟩ := ht.of_give
    replace ht := ht.of_write
    by_cases hst : status ≠ dppStatusOk
    · rw [if_pos hst] at ht
      obtain ⟨_, _, _, ht⟩ := ht.bind_inv
      cases ht.give_inv.1
    · rw [if_neg hst] at ht
      exact respRxOk_peer ht

/-! ## The responder -/

/-- What the responder has from `dpp_auth_req_rx()` on. -/
structure ResponderHas (s : DppAuth P) : Prop where
  initiator : s.initiator = false
  ownBi : s.ownBi.isSome = true
  peerProtocolKey : s.peerProtocolKey.isSome = true

theorem ResponderHas.congr {t : DppAuth P} (h : ResponderHas s) (hinitiator : t.initiator = s.initiator)
    (hown : t.ownBi = s.ownBi) (hpeer : t.peerProtocolKey = s.peerProtocolKey) : ResponderHas t :=
  ⟨hinitiator.trans h.initiator, hown ▸ h.ownBi, hpeer ▸ h.peerProtocolKey⟩

/-- The Responder Bootstrapping Key Hash of a Confirm is another one. -/
def dppConfForeign (s : DppAuth P) (attrs : Bytes) : Bool :=
  (dppGetWrappedData attrs).any fun w =>
    (dppGetAttrExact w.1 dppAttrRBootstrapKeyHash 32).any fun rBootstrap =>
      s.ownBi.any fun ownBi => decide (rBootstrap ≠ ownBi.pubkeyHash)

/-- The Initiator Authenticating Tag of a Confirm with the status OK, unwrapped with ke. -/
def dppConfTag (lib : DppLib P) (s : DppAuth P) (hdr attrs : Bytes) : Option Bytes := do
  let w ← dppGetWrappedData attrs
  let rBootstrap ← dppGetAttrExact w.1 dppAttrRBootstrapKeyHash 32
  let ownBi ← s.ownBi
  guard (rBootstrap = ownBi.pubkeyHash)
  guard (dppConfIHashOk s (dppGetAttr w.1 dppAttrIBootstrapKeyHash) = true)
  let status ← dppGetAttrOctet w.1 dppAttrStatus
  guard (status = dppStatusOk)
  let clear ← dppUnwrap lib s.ke w.2 [hdr, w.1]
  dppGetAttrExact clear dppAttrIAuthTag s.curve.hashLen

/-- Where a Confirm asks for the bootstrapping key of the initiator or for our protocol key, it is there. -/
structure DppConfPresent (lib : DppLib P) (s : DppAuth P) (hdr attrs : Bytes) : Prop where
  peerBi : dppConfForeign s attrs = true → s.peerBi.isSome = true
  ownProtocolKey : (dppConfTag lib s hdr attrs).isSome = true → s.ownProtocolKey.isSome = true

theorem ResponderHas.genIAuth_safe (h : ResponderHas s) :
    Safe (dppGenIAuth lib) s ↔ s.ownProtocolKey.isSome = true := by
  obtain ⟨peer, hpeer⟩ := Option.isSome_iff_exists.mp h.peerProtocolKey
  refine safe_look.trans (safe_pointee_bind.trans ?_)
  rw [Option.isSome_iff_exists]
  refine exists_congr fun own => and_iff_left ?_
  refine (safe_pointee_some hpeer).mpr ?_
  rw [if_neg (by rw [h.initiator]; decide)]
  exact safe_give.mpr fun _ _ => safe_lift _

theorem ResponderHas.confRxTag_safe (h : ResponderHas s) (hdr before wrapped : Bytes) :
    Safe (dppAuthConfRxTag lib hdr before wrapped) s ↔
      ∀ clear, dppUnwrap lib s.ke wrapped [hdr, before] = some clear →
        ∀ iAuth, dppGetAttrExact clear dppAttrIAuthTag s.curve.hashLen = some iAuth →
          s.ownProtocolKey.isSome = true := by
  refine safe_look.trans (safe_give.trans (forall₂_congr fun clear _ => safe_give.trans ?_))
  refine forall₂_congr fun iAuth _ => safe_bind.trans (and_iff_left_iff_imp.mpr ?_ |>.trans h.genIAuth_safe)
  exact fun _ _ _ _ => safe_lift _

theorem confRHash_safe {rBootstrap : Bytes} {ownBi : DppBootstrap P} (hown : s.ownBi = some ownBi) {β : Type}
    {f : Unit → Access (DppAuth P) β} :
    Safe (dppConfRHash rBootstrap >>= f) s ↔
      (rBootstrap ≠ ownBi.pubkeyHash → s.peerBi.isSome = true) ∧
        (rBootstrap = ownBi.pubkeyHash → Safe (f ()) s) := by
  by_cases hhash : rBootstrap = ownBi.pubkeyHash
  · have hrun : dppConfRHash rBootstrap s = .ok (some (), s) := by
      show andThen (pointee s.ownBi s) _ = _
      rw [hown]
      show (if rBootstrap ≠ ownBi.pubkeyHash then _ else _ : Access (DppAuth P) Unit) s = _
      rw [if_neg (not_not_intro hhash)]
      rfl
    refine safe_bind.trans ⟨fun h => ⟨fun hne => absurd hhash hne, fun _ => h.2 () s hrun⟩, fun h => ?_⟩
    refine ⟨⟨_, hrun⟩, fun _ s' hs => ?_⟩
    rw [hrun] at hs
    cases hs
    exact h.2 hhash
  · have hsafe : Safe (dppConfRHash rBootstrap) s ↔ s.peerBi.isSome = true := by
      refine safe_look.trans ((safe_pointee_some hown).trans ?_)
      rw [if_pos hhash]
      refine safe_pointee_bind.trans ?_
      rw [Option.isSome_iff_exists]
      exact exists_congr fun peerBi => and_iff_left (safe_lift _)
    refine safe_bind.trans ⟨fun h => ⟨fun _ => hsafe.mp h.1, fun heq => absurd heq hhash⟩, fun h => ?_⟩
    refine ⟨hsafe.mpr (h.1 hhash), fun _ s' hs => ?_⟩
    -- a mismatch is the end
    obtain ⟨ownBi', hown', hreturns⟩ := ((dppConfRHash_follows rBootstrap s).returns hs).of_give
    rw [hown] at hown'
    cases hown'
    exact absurd hreturns.require_inv.1 hhash

theorem ResponderHas.confRxCheck_safe (h : ResponderHas s) {ownBi : DppBootstrap P}
    (hown : s.ownBi = some ownBi) (hdr attrs : Bytes) :
    Safe (dppAuthConfRxCheck lib hdr attrs) s ↔
      ∀ w, dppGetWrappedData attrs = some w →
        ∀ rBootstrap, dppGetAttrExact w.1 dppAttrRBootstrapKeyHash 32 = some rBootstrap →
          (rBootstrap ≠ ownBi.pubkeyHash → s.peerBi.isSome = true) ∧
          (rBootstrap = ownBi.pubkeyHash →
            dppConfIHashOk s (dppGetAttr w.1 dppAttrIBootstrapKeyHash) = true →
            ∀ status, dppGetAttrOctet w.1 dppAttrStatus = some status → status = dppStatusOk →
            ∀ clear, dppUnwrap lib s.ke w.2 [hdr, w.1] = some clear →
            ∀ iAuth, dppGetAttrExact clear dppAttrIAuthTag s.curve.hashLen = some iAuth →
              s.ownProtocolKey.isSome = true) := by
  have hown' : ({ s with waitingAuthConf := false } : DppAuth P).ownBi = some ownBi := hown
  refine safe_look.trans (safe_require.trans ((forall_prop_of_true h.initiator).trans (safe_write.trans ?_)))
  refine safe_give.trans (forall₂_congr fun w _ => safe_give.trans (forall₂_congr fun rBootstrap _ => ?_))
  refine (confRHash_safe hown').trans (and_congr_right fun _ => forall_congr' fun _ => ?_)
  refine safe_require.trans (forall_congr' fun _ => safe_give.trans (forall₂_congr fun status _ => ?_))
  have hnow : ResponderHas ({ s with waitingAuthConf := false } : DppAuth P) := h.congr rfl rfl rfl
  have htag : Safe (dppAuthConfRxTag lib hdr w.1 w.2) { s with waitingAuthConf := false } ↔ _ :=
    hnow.confRxTag_safe hdr w.1 w.2
  refine safe_ite.trans ⟨fun hsafe hok => htag.mp (safe_require.mp (hsafe.2 ?_) hok), fun hsafe => ?_⟩
  · rw [hok]
    decide
  · exact ⟨fun _ => safe_lift _, fun _ => safe_require.mpr fun hok => htag.mpr (hsafe hok)⟩

theorem dppConfTag_isSome {hdr attrs : Bytes} : (dppConfTag lib s hdr attrs).isSome = true ↔
    ∃ w rBootstrap ownBi, dppGetWrappedData attrs = some w ∧
      dppGetAttrExact w.1 dppAttrRBootstrapKeyHash 32 = some rBootstrap ∧ s.ownBi = some ownBi ∧
      rBootstrap = ownBi.pubkeyHash ∧ dppConfIHashOk s (dppGetAttr w.1 dppAttrIBootstrapKeyHash) = true ∧
      dppGetAttrOctet w.1 dppAttrStatus = some dppStatusOk ∧
      ∃ clear iAuth, dppUnwrap lib s.ke w.2 [hdr, w.1] = some clear ∧
        dppGetAttrExact clear dppAttrIAuthTag s.curve.hashLen = some iAuth := by
  rw [Option.isSome_iff_exists]
  unfold dppConfTag
  simp only [Option.bind_eq_bind, Option.bind_eq_some_iff, Option.guard_eq_some']
  constructor
  · rintro ⟨iAuth, w, hw, rBootstrap, hr, ownBi, hown, _, hhash, _, hi, status, hstatus, _, hok, clear, hclear,
      ha⟩
    rw [hok] at hstatus
    exact ⟨w, rBootstrap, ownBi, hw, hr, hown, hhash, hi, hstatus, clear, iAuth, hclear, ha⟩
  · rintro ⟨w, rBootstrap, ownBi, hw, hr, hown, hhash, hi, hstatus, clear, iAuth, hclear, ha⟩
    exact ⟨iAuth, w, hw, rBootstrap, hr, ownBi, hown, (), hhash, (), hi, _, hstatus, (), rfl, clear, hclear, ha⟩

theorem dppConfForeign_iff {ownBi : DppBootstrap P} (hown : s.ownBi = some ownBi) {attrs : Bytes} :
    dppConfForeign s attrs = true ↔ ∃ w rBootstrap, dppGetWrappedData attrs = some w ∧
      dppGetAttrExact w.1 dppAttrRBootstrapKeyHash 32 = some rBootstrap ∧ rBootstrap ≠ ownBi.pubkeyHash := by
  unfold dppConfForeign
  rw [hown]
  simp only [Option.any_eq_true, Option.any_some, decide_eq_true_eq]
  constructor
  · rintro ⟨w, hw, rBootstrap, hr, hne⟩
    exact ⟨w, rBootstrap, hw, hr, hne⟩
  · rintro ⟨w, rBootstrap, hw, hr, hne⟩
    exact ⟨w, hw, rBootstrap, hr, hne⟩

/-- **When a Confirm dereferences nothing absent.** -/
theorem ResponderHas.confRx_safe (h : ResponderHas s) (hdr attrs : Bytes) :
    Safe (dppAuthConfRx lib hdr attrs) s ↔ DppConfPresent lib s hdr attrs := by
  obtain ⟨ownBi, hown⟩ := Option.isSome_iff_exists.mp h.ownBi
  have hcheck : Safe (dppAuthConfRx lib hdr attrs) s ↔ Safe (dppAuthConfRxCheck lib hdr attrs) s :=
    safe_bind.trans (and_iff_left fun _ _ _ => safe_lift _)
  rw [hcheck, h.confRxCheck_safe hown]
  constructor
  · intro hsafe
    refine ⟨fun hforeign => ?_, fun htag => ?_⟩
    · obtain ⟨w, rBootstrap, hw, hr, hne⟩ := (dppConfForeign_iff hown).mp hforeign
      exact (hsafe w hw rBootstrap hr).1 hne
    · obtain ⟨w, rBootstrap, ownBi', hw, hr, hown', hhash, hi, hstatus, clear, iAuth, hclear, ha⟩ :=
        dppConfTag_isSome.mp htag
      rw [hown] at hown'
      cases hown'
      exact (hsafe w hw rBootstrap hr).2 hhash hi _ hstatus rfl clear hclear iAuth ha
  · intro hpresent w hw rBootstrap hr
    refine ⟨fun hne => hpresent.peerBi ((dppConfForeign_iff hown).mpr ⟨w, rBootstrap, hw, hr, hne⟩), ?_⟩
    intro hhash hi status hstatus hok clear hclear iAuth ha
    rw [hok] at hstatus
    exact hpresent.ownProtocolKey
      (dppConfTag_isSome.mpr ⟨w, rBootstrap, ownBi, hw, hr, hown, hhash, hi, hstatus, clear, iAuth, hclear, ha⟩)

/-! The response is made with what the responder has. -/

theorem ResponderHas.buildRespOk_safe (h : ResponderHas s) (rnd : DppRandom) :
    Safe (dppAuthBuildRespOk lib rnd) s := by
  obtain ⟨peer, hpeer⟩ := Option.isSome_iff_exists.mp h.peerProtocolKey
  obtain ⟨br, hbr⟩ := Option.isSome_iff_exists.mp h.ownBi
  refine safe_look.mpr (safe_require.mpr fun _ => safe_bind.mpr ⟨?_, fun pr t ht => ?_⟩)
  · refine safe_write.mpr (safe_write.mpr (safe_look.mpr (safe_give.mpr fun own _ => ?_)))
    refine safe_give.mpr fun pr _ => (safe_pointee_some hpeer).mpr (safe_give.mpr fun nx _ => ?_)
    refine safe_write.mpr (safe_give.mpr fun k2 _ => safe_write.mpr (safe_bind.mpr ⟨safe_look.mpr ?_, ?_⟩))
    refine safe_ite.mpr ⟨fun hm => ?_, fun _ => safe_pure _⟩
    · obtain ⟨_, hbi⟩ := Bool.and_eq_true_iff.mp hm
      obtain ⟨bi, hbi⟩ := Option.isSome_iff_exists.mp hbi
      refine safe_bind.mpr ⟨safe_look.mpr ?_, fun _ _ _ => safe_lift _⟩
      refine (safe_pointee_some hbi).mpr ((safe_pointee_some hbr).mpr ?_)
      exact (safe_pointee_some rfl).mpr (safe_lift _)
    · exact fun _ _ _ => safe_look.mpr (safe_give.mpr fun ke _ => safe_write.mpr (safe_pure _))
  · obtain ⟨pi, nx, k2, lx, ke, -, -, ht, -, -⟩ :=
      dppAuthBuildRespKeys_spec ((dppAuthBuildRespKeys_follows rnd s).returns ht)
    have hown : t.ownProtocolKey = some (dppGenKeypair lib s.curve rnd.protocolKey) := by rw [ht]
    have hpeer : t.peerProtocolKey = some peer := by rw [ht]; exact hpeer
    have hbr : t.ownBi = some br := by rw [ht]; exact hbr
    have hinitiator : t.initiator = false := by rw [ht]; exact h.initiator
    refine safe_look.mpr (safe_bind.mpr ⟨?_, fun rAuth u hu => ?_⟩)
    · refine safe_look.mpr ((safe_pointee_some hown).mpr ((safe_pointee_some hpeer).mpr ?_))
      rw [if_neg (by rw [hinitiator]; decide)]
      exact (safe_pointee_some hbr).mpr (safe_lift _)
    · refine safe_give.mpr fun _ _ => (safe_pointee_some hbr).mpr (safe_lift_bind.mpr fun _ _ _ => safe_lift _)

theorem ResponderHas.notify_safe (h : ResponderHas s) (rnd : DppRandom) (peerBi : DppBootstrap P) :
    Safe (dppNotifyNewQrCode lib rnd peerBi) s := by
  refine safe_look.mpr (safe_ite.mpr ⟨fun _ => safe_write.mpr (safe_bind.mpr ⟨?_, ?_⟩), fun _ => safe_pure _⟩)
  · refine ResponderHas.buildRespOk_safe ?_ rnd
    exact h.congr rfl rfl rfl
  · exact fun _ _ _ => safe_pure _

/-! ## From the start on -/

theorem dppAuthInit_has {rnd : DppRandom} {peerBi : DppBootstrap P} {ownBi : Option (DppBootstrap P)}
    {allowedRoles : UInt8} {negFreq : Nat} {ownModes : List (List HostapdChannel)}
    (h : dppAuthInit lib rnd peerBi ownBi allowedRoles negFreq ownModes = some s) : InitiatorHas s := by
  obtain ⟨freq, -, h⟩ := Option.bind_eq_some_iff.mp h
  obtain ⟨pi, -, h⟩ := Option.bind_eq_some_iff.mp h
  obtain ⟨mx, -, h⟩ := Option.bind_eq_some_iff.mp h
  obtain ⟨k1, -, h⟩ := Option.bind_eq_some_iff.mp h
  obtain ⟨msg, -, h⟩ := Option.bind_eq_some_iff.mp h
  obtain rfl := Option.some.inj h
  exact ⟨rfl, rfl, rfl, rfl⟩

def responderFrame : Frame (DppAuth P) := Frame.same fun s => (s.initiator, s.ownBi, s.peerProtocolKey)

theorem ResponderHas.kept {t : DppAuth P} (h : ResponderHas s) (hkept : responderFrame.rel s t) :
    ResponderHas t := by
  have heq : (t.initiator, t.ownBi, t.peerProtocolKey) = (s.initiator, s.ownBi, s.peerProtocolKey) := hkept
  rw [Prod.mk.injEq, Prod.mk.injEq] at heq
  exact h.congr heq.1 heq.2.1 heq.2.2

theorem dppAuthBuildResp_keeps {status : UInt8} {pr : Option Bytes} {rPubkeyHash : Bytes}
    {iPubkeyHash rNonce : Option Bytes} {iNonce : Bytes} {wrappedRAuth : Option Bytes} {sivKey : Bytes} :
    Keeps responderFrame (dppAuthBuildResp lib status pr rPubkeyHash iPubkeyHash rNonce iNonce wrappedRAuth
      sivKey) := by
  refine .bind (.write fun s => rfl) fun _ => .bind (.write fun s => rfl) fun _ => .bind .look fun auth => ?_
  exact .bind (.give _) fun wrapped => .pure _

theorem dppAuthBuildRespOk_keeps (rnd : DppRandom) :
    Keeps responderFrame (Hostap.dppAuthBuildRespOk lib rnd) := by
  refine .bind .look fun auth => .bind (.require _) fun _ => .bind ?_ fun pr => ?_
  · refine .bind (.write fun s => rfl) fun _ => .bind (.write fun s => rfl) fun _ => .bind .look fun auth => ?_
    refine .bind (.give _) fun own => .bind (.give _) fun pr => .bind (.give _) fun peer => ?_
    refine .bind (.give _) fun nx => .bind (.write fun s => rfl) fun _ => .bind (.give _) fun k2 => ?_
    refine .bind (.write fun s => rfl) fun _ => ?_
    refine .bind (dppAuthDeriveL_keeps (F := responderFrame) (fun s lx => rfl) _) fun _ => ?_
    refine .bind .look fun auth => ?_
    exact .bind (.give _) fun ke => .bind (.write fun s => rfl) fun _ => .pure _
  · refine .bind .look fun auth => .bind (.give _) fun ownBi => .bind (.give _) fun rAuth => ?_
    refine .bind (.give _) fun wrapped => .bind dppAuthBuildResp_keeps fun msg => ?_
    exact .write fun s => rfl

theorem dppNotifyNewQrCode_keeps (rnd : DppRandom) (peerBi : DppBootstrap P) :
    Keeps responderFrame (Hostap.dppNotifyNewQrCode lib rnd peerBi) := by
  refine .bind .look fun auth => .ite (.bind (.write fun s => rfl) fun _ => ?_) (.pure _)
  exact .bind (dppAuthBuildRespOk_keeps rnd) fun _ => .pure _

theorem dppAuthReqRxAnswer_has {rnd : DppRandom} {allowedRoles : UInt8} {qrMutual : Bool} {before : Bytes}
    {pi : DppPkey P} {s' : DppAuth P} {u : Unit}
    (h : Returns (Hostap.dppAuthReqRxAnswer lib rnd allowedRoles qrMutual before pi) s u s')
    (hinitiator : s.initiator = false) (hown : s.ownBi.isSome = true) : ResponderHas s' := by
  replace h := h.of_look
  cases hrole : dppRespRole s.iCapab allowedRoles with
  | unexpected =>
    rw [hrole] at h
    cases h.give_inv.1
  | notCompatible =>
    rw [hrole] at h
    obtain ⟨_, t, ht, h⟩ := h.of_write.bind_inv
    obtain ⟨rCapab, respMsg, rfl⟩ := dppAuthBuildRespStatus_spec ht
    rw [h.write_inv]
    exact ⟨hinitiator, hown, rfl⟩
  | actAs configurator =>
    rw [hrole] at h
    replace h := h.of_write
    have hnow :
        ResponderHas ({ s with configurator := configurator, peerProtocolKey := some pi } : DppAuth P) :=
      ⟨hinitiator, hown, rfl⟩
    by_cases hwait : qrMutual ∧ s.peerBi.isNone ∧ s.ownBi.any (fun bi => bi.type = .qrCode)
    · rw [if_pos hwait] at h
      obtain ⟨_, t, ht, h⟩ := h.bind_inv
      obtain ⟨rCapab, respMsg, rfl⟩ := dppAuthBuildRespStatus_spec ht
      obtain ⟨pending, hash, hpending⟩ := dppWaitForPeer_spec (P := P)
        (dppGetAttr before dppAttrIBootstrapKeyHash) _
      rw [h.write_inv, hpending]
      exact ⟨hinitiator, hown, rfl⟩
    · rw [if_neg hwait] at h
      exact hnow.kept ((dppAuthBuildRespOk_keeps rnd).returns h)

theorem dppAuthReqRx_has {rnd : DppRandom} {allowedRoles : UInt8} {qrMutual : Bool}
    {peerBi : Option (DppBootstrap P)} {ownBi : DppBootstrap P} {freq : Nat} {hdr attrs : Bytes}
    (h : dppAuthReqRx lib rnd allowedRoles qrMutual peerBi ownBi freq hdr attrs = some s) : ResponderHas s := by
  obtain ⟨_, h⟩ := returns_of_completed h
  obtain ⟨w, -, h⟩ := h.of_give
  obtain ⟨pi, t, ht, h⟩ := h.bind_inv
  obtain ⟨currFreq, mx, k1, iNonce, iCapab, -, rfl⟩ := dppAuthReqRxKeys_spec ht
  exact dppAuthReqRxAnswer_has h rfl rfl

/-! ## Runs -/

/-- What an event leaves behind, if it dereferences nothing absent. -/
def dppAuthStep (lib : DppLib P) (auth : DppAuth P) : DppEvent P → Except NullPointer (DppAuth P)
  | .respRx hdr attrs => (dppAuthRespRx lib hdr attrs auth).map Prod.snd
  | .confRx hdr attrs => (dppAuthConfRx lib hdr attrs auth).map Prod.snd
  | .newQrCode rnd peerBi => (dppNotifyNewQrCode lib rnd peerBi auth).map Prod.snd

def DppPresent (lib : DppLib P) (auth : DppAuth P) : DppEvent P → Prop
  | .confRx hdr attrs => auth.initiator = false → DppConfPresent lib auth hdr attrs
  | _ => True

theorem exists_map_ok {α : Type} {m : Access (DppAuth P) α} :
    (∃ s', (m s).map Prod.snd = .ok s') ↔ Safe m s := by
  constructor
  · rintro ⟨s', h⟩
    obtain ⟨r, hr, -⟩ := except_map_ok h
    exact ⟨r, hr⟩
  · rintro ⟨r, hr⟩
    rw [hr]
    exact ⟨r.2, rfl⟩

theorem dppAuthStep_follows {s' : DppAuth P} {ev : DppEvent P} (h : dppAuthStep lib s ev = .ok s') :
    Hostap.dppAuthStep lib s ev = .ok s' := by
  cases ev with
  | respRx hdr attrs =>
    obtain ⟨r, hr, rfl⟩ := except_map_ok h
    exact congrArg (fun r => Except.ok r.2) (dppAuthRespRx_follows hdr attrs s r hr)
  | confRx hdr attrs =>
    obtain ⟨r, hr, rfl⟩ := except_map_ok h
    exact congrArg (fun r => Except.ok r.2) (dppAuthConfRx_follows hdr attrs s r hr)
  | newQrCode rnd peerBi =>
    obtain ⟨r, hr, rfl⟩ := except_map_ok h
    exact congrArg (fun r => Except.ok r.2) (dppNotifyNewQrCode_follows rnd peerBi s r hr)

theorem dppAuthStep_initiatorHas {s' : DppAuth P} {ev : DppEvent P} (h : InitiatorHas s)
    (hstep : dppAuthStep lib s ev = .ok s') : InitiatorHas s' := by
  have hstep := dppAuthStep_follows hstep
  cases ev with
  | respRx hdr attrs =>
    cases hstep
    rcases dppAuthRespRx_cases lib hdr attrs s with hkept | ⟨t, ht, hsuccess⟩
    · exact h.kept hkept
    · rw [hsuccess]
      exact (h.kept ((dppAuthRespRxCheck_keeps lib hdr attrs).returns ht)).congr rfl rfl rfl rfl
  | confRx hdr attrs =>
    cases hstep
    rw [dppAuthConfRx_initiator h.initiator]
    exact h
  | newQrCode rnd peerBi =>
    cases hstep
    have hsame : (Hostap.dppNotifyNewQrCode lib rnd peerBi s).2 = s := by
      have hnot : ¬ (s.responsePending = true ∧ s.waitingPubkeyHash = peerBi.pubkeyHash) := by
        rw [h.responsePending]
        exact fun hw => by cases hw.1
      show ((if _ then _ else _ : Attempt (DppAuth P) Bool) s).2 = s
      rw [if_neg hnot]
      rfl
    rw [hsame]
    exact h

theorem dppAuthStep_responderHas {s' : DppAuth P} {ev : DppEvent P} (h : ResponderHas s)
    (hstep : dppAuthStep lib s ev = .ok s') : ResponderHas s' := by
  have hstep := dppAuthStep_follows hstep
  cases ev with
  | respRx hdr attrs =>
    cases hstep
    rw [dppAuthRespRx_responder h.initiator]
    exact h
  | confRx hdr attrs =>
    cases hstep
    have hkept : ∀ {t}, confFrame.rel s t → ResponderHas t := by
      intro t ht
      obtain ⟨hinitiator, hresp, -, -⟩ := confFrame_kept ht
      exact h.congr hinitiator (congrArg DppResponse.ownBi hresp) (congrArg DppResponse.peerProtocolKey hresp)
    rcases dppAuthConfRx_cases lib hdr attrs s with hsame | ⟨t, -, hsame, hsuccess⟩
    · exact hkept hsame
    · rw [hsuccess]
      exact (hkept hsame).congr rfl rfl rfl
  | newQrCode rnd peerBi =>
    cases hstep
    exact h.kept (dppNotifyNewQrCode_keeps rnd peerBi s)

theorem dppAuth_has {s₀ : DppAuth P} {evs : List (DppEvent P)} (hstart : DppStarted lib s₀)
    (hreach : Run.Reach (dppAuthStep lib) Run.always s₀ evs s) : InitiatorHas s ∨ ResponderHas s := by
  rcases hstart with ⟨rnd, peerBi, ownBi, roles, negFreq, ownModes, h⟩ |
    ⟨rnd, roles, qrMutual, peerBi, ownBi, freq, hdr, attrs, h⟩
  · exact .inl (hreach.invariant (dppAuthInit_has h) fun _ _ _ hs _ hstep => dppAuthStep_initiatorHas hs hstep)
  · exact .inr (hreach.invariant (dppAuthReqRx_has h) fun _ _ _ hs _ hstep => dppAuthStep_responderHas hs hstep)

/-- **What can be absent in a run.** In every state that a run comes to, the next frame or QR code dereferences
nothing absent if and only if it is no Confirm that asks for something absent. -/
theorem dppAuth_present_iff {s₀ s : DppAuth P} {evs : List (DppEvent P)} (hstart : DppStarted lib s₀)
    (hreach : Run.Reach (dppAuthStep lib) Run.always s₀ evs s) (ev : DppEvent P) :
    (∃ s', dppAuthStep lib s ev = .ok s') ↔ DppPresent lib s ev := by
  rcases dppAuth_has hstart hreach with h | h
  · cases ev with
    | respRx hdr attrs => exact iff_of_true (exists_map_ok.mpr (h.respRx_safe hdr attrs)) trivial
    | confRx hdr attrs =>
      refine iff_of_true (exists_map_ok.mpr ?_) fun hno => ?_
      · refine safe_bind.mpr ⟨safe_look.mpr (safe_require.mpr fun hno => ?_), fun _ _ _ => safe_lift _⟩
        rw [h.initiator] at hno
        cases hno
      · rw [h.initiator] at hno
        cases hno
    | newQrCode rnd peerBi =>
      refine iff_of_true (exists_map_ok.mpr (safe_look.mpr (safe_ite.mpr ⟨fun hw => ?_, ?_⟩))) trivial
      · rw [h.responsePending] at hw
        cases hw.1
      · exact fun _ => safe_pure _
  · cases ev with
    | respRx hdr attrs =>
      refine iff_of_true (exists_map_ok.mpr ?_) trivial
      refine safe_bind.mpr ⟨safe_look.mpr (safe_require.mpr fun hyes => ?_), fun status t ht => ?_⟩
      · rw [h.initiator] at hyes
        cases hyes
      · have ht := (dppAuthRespRxCheck_follows hdr attrs s).returns ht
        have hyes := ht.of_look.of_require.1
        rw [h.initiator] at hyes
        cases hyes
    | confRx hdr attrs =>
      refine exists_map_ok.trans ((h.confRx_safe hdr attrs).trans ?_)
      exact ⟨fun hpresent _ => hpresent, fun hpresent => hpresent h.initiator⟩
    | newQrCode rnd peerBi => exact iff_of_true (exists_map_ok.mpr (h.notify_safe rnd peerBi)) trivial

/-! ## A small exchange -/

theorem smallDppResponder_started : DppStarted smallDppLib smallDppResponder := by
  refine .reqRx (smallDppRandom 2) dppCapabEnrollee false none (dppKeygen smallDppLib smallDppCurve 3) 2437
    (dppHdr .authenticationReq) (smallDppAttrs smallDppInitiator.reqMsg) ?_
  refine (Option.getD_of_ne_none ?_ _).symm
  exact Option.isSome_iff_ne_none.mp (by decide +kernel)

theorem dppAuth_present_iff_small :
    (∃ s', dppAuthStep smallDppLib smallDppResponder (.confRx (dppHdr .authenticationConf) smallDppConfirm) =
        .ok s') ↔
      DppPresent smallDppLib smallDppResponder (.confRx (dppHdr .authenticationConf) smallDppConfirm) :=
  dppAuth_present_iff smallDppResponder_started .start _

def smallDppPending : DppAuth (ZMod 5) :=
  (dppAuthReqRx smallDppLib (smallDppRandom 2) dppCapabEnrollee true none
    (dppKeygen smallDppLib smallDppCurve 3) 2437 (dppHdr .authenticationReq)
    (smallDppAttrs smallDppInitiator.reqMsg)).getD (.zalloc smallDppCurve)

def foreignConfirm : Bytes :=
  Tlv.encodeAll dppAttrFormat [(dppAttrRBootstrapKeyHash, zeros 32), (dppAttrWrappedData, zeros 16)]

/-- A Confirm that is wrapped with the ke that is there before a response. -/
def earlyConfirm : Bytes :=
  let attrs := dppConfAttrs dppStatusOk (dppKeygen smallDppLib smallDppCurve 3).pubkeyHash none
  smallDppAttrs ((dppWrap smallDppLib .authenticationConf (zeros 32) attrs [(dppAttrIAuthTag, zeros 32)]).map
    (dppWrappedMsg .authenticationConf attrs))

theorem confRx_absent : ∃ s₁ s₂ : DppAuth (ZMod 5),
    DppStarted smallDppLib s₁ ∧
      (s₁.peerBi.isSome = false ∧
        ¬ ∃ s', dppAuthStep smallDppLib s₁ (.confRx (dppHdr .authenticationConf) foreignConfirm) = .ok s') ∧
    DppStarted smallDppLib s₂ ∧
      (s₂.ownProtocolKey.isSome = false ∧
        ¬ ∃ s', dppAuthStep smallDppLib s₂ (.confRx (dppHdr .authenticationConf) earlyConfirm) = .ok s') := by
  have hpending : DppStarted smallDppLib smallDppPending := by
    refine .reqRx (smallDppRandom 2) dppCapabEnrollee true none (dppKeygen smallDppLib smallDppCurve 3) 2437
      (dppHdr .authenticationReq) (smallDppAttrs smallDppInitiator.reqMsg) ?_
    refine (Option.getD_of_ne_none ?_ _).symm
    exact Option.isSome_iff_ne_none.mp (by decide +kernel)
  have hforeign : ¬ Safe (dppAuthConfRx smallDppLib (dppHdr .authenticationConf) foreignConfirm)
      smallDppResponder := by decide +kernel
  have hearly : ¬ Safe (dppAuthConfRx smallDppLib (dppHdr .authenticationConf) earlyConfirm)
      smallDppPending := by decide +kernel
  refine ⟨_, _, smallDppResponder_started, ⟨by decide +kernel, ?_⟩, hpending, by decide +kernel, ?_⟩
  · exact fun h => hforeign (exists_map_ok.mp h)
  · exact fun h => hearly (exists_map_ok.mp h)

end Deref

end Hostap
