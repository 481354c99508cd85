import Hostap.Eap.PeerInv

/-!
# The states of the EAP peer

What each `SM_STATE` of the machine does to what is known of a session. `Good` is what a step comes to: the
invariants hold after it, and if it raised `eapSuccess` or came to `SUCCESS` there is a `Reason`.
-/

namespace Hostap

namespace EapPeer

open Octets Erp

variable {π : Type} {lib : EapPeerLib π} {sm sm' : Sm π}

/-- What a step starts from. -/
structure Known (lib : EapPeerLib π) (sm : Sm π) : Prop where
  inv : sm.view.Inv lib.erp
  flow : sm.flow.Ok
  rounds : sm.numRounds ≤ eapMaxAuthRounds + 1 ∨ sm.state = .failure

/-- What is known of every state: a packet that is read again is read in the same run of `eap_peer_sm_step()`.
-/
structure Wf (lib : EapPeerLib π) (sm : Sm π) : Prop extends Known lib sm where
  settled : sm.state.parsing = true → sm.changed = true

/-- What allows to raise `eapSuccess`. -/
def Reason (sm : Sm π) : Prop := sm.decision ≠ .fail ∨
    ∃ stored erp frame, Obs.finished stored erp frame ∈ sm.log

structure Good (lib : EapPeerLib π) (sm sm' : Sm π) : Prop where
  wf : Wf lib sm'
  raised : sm'.eapSuccess = true → sm.eapSuccess = true ∨ Reason sm'
  entered : sm'.state = .success → sm.state = .success ∨ Reason sm'

/-- With `allow_canned_success` the invariants hold as well, but there need not be a reason. -/
structure Sound (lib : EapPeerLib π) (sm sm' : Sm π) : Prop where
  wf : Wf lib sm'
  good : allowCanned sm.config = false → Good lib sm sm'

theorem Good.sound (h : Good lib sm sm') : Sound lib sm sm' := ⟨h.wf, fun _ => h⟩

/-- The machine is at a point where a packet may be received, and has received few enough. -/
structure Ready (sm : Sm π) : Prop where
  sent : sm.flow.SeqSent
  reauthInit : sm.reauthInit = false
  rounds : sm.numRounds ≤ eapMaxAuthRounds

theorem Known.ready (h : Known lib sm) (hrounds : sm.numRounds ≤ eapMaxAuthRounds)
    (hsends : sm.state.sends = true) :
    Ready sm where
  sent := h.flow.sent hsends
  reauthInit := h.flow.not_reauthInit hsends
  rounds := hrounds

theorem Known.ready_of_used (h : Known lib sm) (hrounds : sm.numRounds ≤ eapMaxAuthRounds)
    (hstate : sm.state = .received)
    (hused : sm.rxReq = true ∨ sm.rxResp = true ∨ sm.rxSuccess = true ∨ sm.rxFailure = true) : Ready sm :=
  have hparsed := h.flow.received hstate
  have hreauth := hparsed.used hused
  ⟨hparsed.sent hreauth, hreauth, hrounds⟩

theorem Good.of_flow (hinv : sm'.view.Inv lib.erp) (hflow : sm'.flow.Ok) (hparsing : sm'.state.parsing = false)
    (hne : sm'.state ≠ .success) (hsucc : sm'.eapSuccess = true → sm.eapSuccess = true)
    (hrounds : sm'.numRounds ≤ eapMaxAuthRounds + 1 ∨ sm'.state = .failure) : Good lib sm sm' where
  wf :=
    { inv := hinv
      flow := hflow
      rounds := hrounds
      settled := fun hp => by
        rw [hparsing] at hp
        cases hp }
  raised := fun hs => Or.inl (hsucc hs)
  entered := fun hs => absurd hs hne

theorem Good.of_ready (hr : Ready sm) (hinv : sm'.view.Inv lib.erp) (hparsing : sm'.state.parsing = false)
    (hne : sm'.state ≠ .success) (hsucc : sm'.eapSuccess = true → sm.eapSuccess = true)
    (hreauth : sm'.reauthInit = sm.reauthInit) (hseq : sm'.erpSeq = sm.erpSeq)
    (hkeys : sm'.erpKeys = sm.erpKeys)
    (hlog : lastInitiated sm'.log = lastInitiated sm.log)
    (hrounds : sm'.numRounds = sm.numRounds) : Good lib sm sm' := by
  refine Good.of_flow hinv (Flow.Ok.of_sent hparsing (fun _ => ?_) (fun ht => ?_)) hparsing hne hsucc
    (Or.inl (hrounds ▸ Nat.le_succ_of_le hr.rounds))
  · refine hr.sent.congr ?_ hseq hlog
    show sm'.erpKeys.isEmpty = sm.erpKeys.isEmpty
    rw [hkeys]
  · have ht : sm'.reauthInit = true := ht
    rw [hreauth, hr.reauthInit] at ht
    cases ht

theorem Good.halt (hinv : sm'.view.Inv lib.erp)
    (hstate : sm'.state = .disabled ∧ sm'.numRounds = 0 ∨ sm'.state = .failure)
    (hsucc : sm'.eapSuccess = sm.eapSuccess) : Good lib sm sm' := by
  have hparsing : sm'.state.parsing = false := by rcases hstate with ⟨hst, _⟩ | hst <;> (rw [hst]; rfl)
  have hunsent : sm'.state.unsent = true := by rcases hstate with ⟨hst, _⟩ | hst <;> (rw [hst]; rfl)
  have hsends : sm'.state.sends = false := by rcases hstate with ⟨hst, _⟩ | hst <;> (rw [hst]; rfl)
  have hne : sm'.state ≠ .success := by rcases hstate with ⟨hst, _⟩ | hst <;> (rw [hst]; decide)
  have hrounds : sm'.numRounds ≤ eapMaxAuthRounds + 1 ∨ sm'.state = .failure := by
    rcases hstate with ⟨_, hzero⟩ | hst
    · exact Or.inl (by omega)
    · exact Or.inr hst
  refine Good.of_flow hinv (Flow.Ok.of_sent hparsing (fun hs => ?_) fun _ => hunsent) hparsing hne
    (fun hs => hsucc ▸ hs) hrounds
  have hs : sm'.state.sends = true := hs
  rw [hsends] at hs
  cases hs

theorem Good.refl (h : Known lib sm) (hparsing : sm.state.parsing = false) : Good lib sm sm where
  wf :=
    { h with
      settled := fun hp => by
        rw [hparsing] at hp
        cases hp }
  raised := Or.inl
  entered := Or.inl

/-! ## `INITIALIZE`, `DISABLED` and `FAILURE` -/

theorem park_parked {m : Option (Selected π)} (h : m.any Sm.hasReauthData = true) (s : Selected π)
    (hs : m.map Sm.park = some s) : s.method.parked s.priv = true := by
  cases m with
  | none => cases hs
  | some t =>
    cases hs
    obtain ⟨r, hr, _⟩ := (Option.any_eq_true _ _).mp (show t.method.reauth.any _ = true from h)
    show t.method.parked (t.method.reauth.elim t.priv fun r => r.deinitForReauth t.priv) = true
    rw [hr]
    exact t.method.parks r t.priv hr

theorem initialise_good (sm : Sm π) (changed : Bool) :
    Good lib sm ({ sm with state := .initialise, changed } : Sm π).initialise := by
  refine Good.of_flow (View.Inv.fresh fun s hs => ?_) ?_ rfl nofun nofun
    (Or.inl (Nat.zero_le _))
  · unfold Sm.initialise at hs
    dsimp only at hs
    split at hs
    · rename_i hkeeps
      have hany : sm.m.any Sm.hasReauthData = true := by
        simp only [Bool.and_eq_true] at hkeeps
        exact hkeeps.1.1.2
      exact park_parked hany s hs
    · cases hs
  · exact Flow.Ok.of_sent rfl (fun _ => Or.inr (Or.inl rfl)) nofun

theorem failure_good (h : Known lib sm) (changed : Bool) (numRounds : Nat) :
    Good lib sm ({ sm with state := .failure, changed, numRounds } : Sm π).failure :=
  Good.halt h.inv (Or.inr rfl) rfl

theorem disabled_good (h : Known lib sm) (changed : Bool) : Good lib sm
    ({ sm with state := .disabled, changed } : Sm π).disabled :=
  Good.halt h.inv (Or.inl ⟨rfl, rfl⟩) rfl

/-! ## `RECEIVED` -/

theorem finishKey_spec {frame after : Bytes} {erp : ErpKey} (h : sm.finishKey frame = some (erp, after)) :
    (8 ≤ frame.length ∧ frame.getD 4 0 = typeReauth) ∧ reauthSeq frame = sm.erpSeq ∧ erp ∈ sm.erpKeys ∧
      after.length ≤ frame.length := by
  unfold Sm.finishKey at h
  simp only [Option.bind_eq_bind, Option.bind_eq_some_iff] at h
  obtain ⟨_, hguard, _, hseq, parse, hparse, keyname, _, _, _, key, hkey, h⟩ := h
  cases h
  refine ⟨(Option.guard_eq_some' _).mp hguard, (Option.guard_eq_some' _).mp hseq,
    List.mem_of_find?_eq_some hkey, ?_⟩
  refine erpParseTlvs_room hparse ?_ (Nat.zero_le _)
  rw [List.length_drop]
  exact Nat.sub_le _ _

theorem finishTag_spec {lib : ErpLib} {erp : ErpKey} {frame after : Bytes} (hroom : after.length ≤ frame.length)
    (h : Sm.finishTag lib erp frame after = some true) : Tagged lib erp.rIK csHmacSha256128 16 frame := by
  unfold Sm.finishTag at h
  split at h
  · split at h <;> cases h
  · rename_i hplace
    split at h
    · rename_i htag
      have hlen : ¬ after.length < 1 + 16 := fun hl => hplace (Or.inl hl)
      have hsuite : suiteAt 16 frame = csHmacSha256128 := by
        by_contra hs
        exact hplace (Or.inr hs)
      exact tagged_iff.mpr ⟨by omega, hsuite, htag⟩
    · cases h

theorem finish_good (h : sm.view.Inv lib.erp) (hsent : sm.flow.SeqSent) {frame : Bytes}
    (hcode : 8 ≤ frame.length → frame.getD 0 0 = codeFinish) :
    (sm.finish lib.erp frame).view.Inv lib.erp ∧
      ((sm.finish lib.erp frame).eapSuccess = true →
        sm.eapSuccess = true ∨ ∃ stored erp frame', Obs.finished stored erp frame' ∈
        (sm.finish lib.erp frame).log) ∧
      (∃ noKeys, (sm.finish lib.erp frame).flow = { sm.flow with noKeys } ∧
      (sm.flow.noKeys = true → noKeys = true)) ∧
      (sm.finish lib.erp frame).changed = sm.changed ∧ (sm.finish lib.erp frame).numRounds = sm.numRounds := by
  unfold Sm.finish
  split
  · exact ⟨h, Or.inl, ⟨_, rfl, fun hn => hn⟩, rfl, rfl⟩
  · rename_i erp after hkey
    obtain ⟨⟨hlen, htype⟩, hseq, hmem, hroom⟩ := finishKey_spec hkey
    split
    · exact ⟨h, Or.inl, ⟨_, rfl, fun hn => hn⟩, rfl, rfl⟩
    · rename_i authTagOk htag
      dsimp only
      split
      · exact ⟨h, Or.inl, ⟨_, rfl, fun hn => hn⟩, rfl, rfl⟩
      · split
        · refine ⟨h, Or.inl, ⟨(sm.erpKeys.erase erp).isEmpty, rfl, fun hn => ?_⟩, rfl, rfl⟩
          have hnil : sm.erpKeys = [] := List.isEmpty_iff.mp hn
          rw [hnil]
          rfl
        · rename_i hok
          have hauth : authTagOk = true := by
            by_contra ha
            exact hok (Or.inr (by simpa using ha))
          have hflag : Sm.rFlag frame = false := by
            by_contra hf
            exact hok (Or.inl (Bool.eq_true_of_not_eq_false hf))
          subst hauth
          have hinitiated : ∃ msg, lastInitiated sm.log = some msg ∧ reauthSeq frame = reauthSeq msg := by
            rcases hsent with hnone | hreset | ⟨msg, hmsg, hs⟩
            · -- there are no keys
              have hnil : sm.erpKeys = [] := List.isEmpty_iff.mp hnone
              rw [hnil] at hmem
              cases hmem
            · -- no EAP-Initiate/Re-auth was built, and a SEQ has two octets
              have hlt : reauthSeq frame < 65536 := by
                unfold reauthSeq getBe16
                have h1 := UInt8.toNat_lt ((frame.drop 6).getD 0 0)
                have h2 := UInt8.toNat_lt ((frame.drop 6).getD 1 0)
                omega
              have hreset : sm.erpSeq = 4294967295 := hreset
              rw [hseq, hreset] at hlt
              omega
            · exact ⟨msg, hmsg, hseq.trans hs.symm⟩
          have hverified : FinishVerified lib.erp sm.erpKeys erp frame sm.log :=
            ⟨⟨hcode hlen, htype⟩, hmem, hflag, hinitiated, finishTag_spec hroom htag⟩
          exact ⟨h.finish hverified, fun _ => Or.inr ⟨_, _, _, List.mem_cons_self⟩, ⟨_, rfl, fun hn => hn⟩, rfl,
            rfl⟩

/-- What `eap_peer_initiate()` does: nothing to what is known, and an EAP-Initiate/Re-auth is there to be
sent, if anything changes. -/
structure Initiates (sm sm' : Sm π) : Prop where
  view : sm'.view = sm.view
  eapSuccess : sm'.eapSuccess = sm.eapSuccess
  changed : sm'.changed = sm.changed
  rounds : sm'.numRounds = sm.numRounds
  rx : sm'.flow = { sm.flow with
    reauthInit := sm'.reauthInit, erpSeq := sm'.erpSeq, eapRespData := sm'.eapRespData, noKeys :=
    sm'.erpKeys.isEmpty }
  pending : sm'.reauthInit = false ∧ sm'.erpSeq = sm.erpSeq ∧ sm'.erpKeys = sm.erpKeys ∨
    sm'.reauthInit = true ∧ ∃ msg, sm'.eapRespData = some msg ∧ reauthSeq msg = sm'.erpSeq

theorem reauthSeq_reauthMessage (lib : ErpLib) {erp : ErpKey} (id : UInt8) (h : erp.nextSeq < 65536) :
    reauthSeq (reauthMessage lib erp id) = erp.nextSeq := by
  unfold reauthSeq
  exact getBe16_natBe (Nat.le_of_lt_succ h) _

theorem erpReauthStart_initiates {lib : ErpLib} {id : UInt8} (h : sm.erpReauthStart lib id = some sm') :
    Initiates sm sm' := by
  unfold Sm.erpReauthStart at h
  simp only [Option.bind_eq_bind, Option.bind_eq_some_iff] at h
  obtain ⟨realm, _, erp, _, _, hseq, h⟩ := h
  cases h
  exact ⟨rfl, rfl, rfl, rfl, rfl,
    Or.inr ⟨rfl, _, rfl, reauthSeq_reauthMessage lib id ((Option.guard_eq_some' _).mp hseq)⟩⟩

theorem initiate_initiates (lib : ErpLib) (hreauth : sm.reauthInit = false) (frame : Bytes) :
    Initiates sm (sm.initiate lib frame) := by
  unfold Sm.initiate
  split
  · exact ⟨rfl, rfl, rfl, rfl, rfl, Or.inl ⟨hreauth, rfl, rfl⟩⟩
  · split
    · exact ⟨rfl, rfl, rfl, rfl, rfl, Or.inl ⟨hreauth, rfl, rfl⟩⟩
    · cases hstart : sm.erpReauthStart lib (frame.getD 1 0) with
      | none => exact ⟨rfl, rfl, rfl, rfl, rfl, Or.inl ⟨hreauth, rfl, rfl⟩⟩
      | some sm' => exact erpReauthStart_initiates hstart

theorem getD_take {req : Bytes} {n k : Nat} (h : k < (req.take n).length) : (req.take n).getD k 0 =
    req.getD k 0 := by
  rw [List.length_take] at h
  rw [List.getD_eq_getElem?_getD, List.getD_eq_getElem?_getD, List.getElem?_take_of_lt (by omega)]

/-- What the parser has done, from a machine without what was parsed before. -/
structure Receives (lib : EapPeerLib π) (sm sm' : Sm π) : Prop where
  inv : sm'.view.Inv lib.erp
  parsed : sm'.flow.Parsed
  eapSuccess : sm'.eapSuccess = true → sm.eapSuccess = true ∨ Reason sm'
  state : sm'.state = sm.state
  changed : sm'.changed = sm.changed
  rounds : sm'.numRounds = sm.numRounds

/-- Nothing was parsed yet. -/
structure Cleared (sm : Sm π) : Prop where
  rxReq : sm.rxReq = false
  rxResp : sm.rxResp = false
  rxSuccess : sm.rxSuccess = false
  rxFailure : sm.rxFailure = false
  reqMethod : sm.reqMethod = typeNone
  reqVendor : sm.reqVendor = vendorIetf

theorem Receives.of_rx (h : sm.view.Inv lib.erp) (hr : Ready sm) (hview : sm'.view = sm.view)
    (hsucc : sm'.eapSuccess = sm.eapSuccess) (hstate : sm'.state = sm.state)
    (hchanged : sm'.changed = sm.changed)
    (hrounds : sm'.numRounds = sm.numRounds) (hreauth : sm'.reauthInit = sm.reauthInit)
    (hsent : sm'.flow.SeqSent) (hvendor : sm'.reqMethod = typeNone → sm'.reqVendor = vendorIetf)
    (htype : sm'.rxReq = true → sm'.reqMethod = typeNone → sm'.flow.ReqTypeNone) : Receives lib sm sm' where
  inv := hview ▸ h
  parsed :=
    { sent := fun _ => hsent
      pending := fun ht => by
        have ht : sm'.reauthInit = true := ht
        rw [hreauth, hr.reauthInit] at ht
        cases ht
      vendor := hvendor
      typeNone := htype }
  eapSuccess := fun hs => Or.inl (hsucc ▸ hs)
  state := hstate
  changed := hchanged
  rounds := hrounds

theorem parseRequest_receives (h : sm.view.Inv lib.erp) (hr : Ready sm) (hc : Cleared sm) {req : Bytes}
    {n : Nat} (hreq : sm.eapReqData = some req) : Receives lib sm (sm.parseRequest (req.take n)) := by
  unfold Sm.parseRequest
  split
  · exact Receives.of_rx h hr rfl rfl rfl rfl rfl rfl hr.sent (fun _ => hc.reqVendor) fun ht => by
      rw [hc.rxReq] at ht
      cases ht
  · rename_i hlen
    have htype : ((req.take n).getD 4 0).toNat = typeNone → (sm.eapReqData.getD []).getD 4 0 = 0 := by
      intro ht
      rw [hreq, Option.getD_some, ← getD_take (n := n) (by omega)]
      exact UInt8.toNat_inj.mp ht
    dsimp only
    split
    · exact Receives.of_rx h hr rfl rfl rfl rfl rfl rfl hr.sent (fun _ => hc.reqVendor) fun _ => htype
    · rename_i hexpanded
      refine Receives.of_rx h hr rfl rfl rfl rfl rfl rfl hr.sent (fun ht => ?_) fun _ => htype
      -- an expanded type is not `EAP_TYPE_NONE`
      have ht : ((req.take n).getD 4 0).toNat = typeNone := ht
      refine absurd (Or.inl ?_) hexpanded
      rw [ht]
      decide

theorem parsePacket_receives (h : sm.view.Inv lib.erp) (hr : Ready sm) (hc : Cleared sm) {req : Bytes} {n : Nat}
    (hreq : sm.eapReqData = some req) : Receives lib sm (sm.parsePacket lib (req.getD 0 0) (req.take n)) := by
  have hnot : sm.rxReq = true → sm.reqMethod = typeNone → sm.flow.ReqTypeNone := fun ht => by
    rw [hc.rxReq] at ht
    cases ht
  have hvendor : sm.reqMethod = typeNone → sm.reqVendor = vendorIetf := fun _ => hc.reqVendor
  unfold Sm.parsePacket
  split
  · exact parseRequest_receives h hr hc hreq
  split
  · unfold Sm.parseResponse
    split
    · exact Receives.of_rx h hr rfl rfl rfl rfl rfl rfl hr.sent hvendor hnot
    · exact Receives.of_rx h hr rfl rfl rfl rfl rfl rfl hr.sent (fun _ => hc.reqVendor) fun ht => by
        have ht : sm.rxReq = true := ht
        rw [hc.rxReq] at ht
        cases ht
  split
  · exact Receives.of_rx h hr rfl rfl rfl rfl rfl rfl hr.sent hvendor hnot
  split
  · exact Receives.of_rx h hr rfl rfl rfl rfl rfl rfl hr.sent hvendor hnot
  split
  · have hi := initiate_initiates lib.erp hr.reauthInit (req.take n)
    have hstate : (sm.initiate lib.erp (req.take n)).state = sm.state := congrArg Flow.state hi.rx
    refine ⟨hi.view ▸ h, ?_, fun hs => Or.inl (hi.eapSuccess ▸ hs), hstate, hi.changed, hi.rounds⟩
    have hrx := hi.rx
    rcases hi.pending with ⟨hreauth, hseq, hkeys⟩ | ⟨hreauth, msg, hresp, hseq⟩
    · rw [hrx, hreauth, hseq, hkeys]
      exact {
        sent := fun _ => hr.sent
        pending := nofun
        vendor := hvendor
        typeNone := hnot }
    · rw [hrx, hreauth]
      exact {
        sent := nofun
        pending := fun _ => ⟨hc.rxReq, hc.rxResp, hc.rxSuccess, hc.rxFailure, msg, hresp, hseq⟩
        vendor := hvendor
        typeNone := hnot }
  split
  · rename_i hfinish
    have hcode : 8 ≤ (req.take n).length → (req.take n).getD 0 0 = codeFinish := fun hlen => by
      rw [getD_take (by omega)]
      exact hfinish
    obtain ⟨hinv, hsucc, ⟨noKeys, hflow, hkeys⟩, hchanged, hrounds⟩ := finish_good h hr.sent hcode
    refine ⟨hinv, ?_, fun hs => ?_, congrArg Flow.state hflow, hchanged, hrounds⟩
    · rw [hflow]
      exact {
        sent := fun _ => by
          rcases hr.sent with hnone | hsent
          · exact Or.inl (hkeys hnone)
          · exact Or.inr hsent
        pending := fun ht => by
          have ht : sm.reauthInit = true := ht
          rw [hr.reauthInit] at ht
          cases ht
        vendor := hvendor
        typeNone := hnot }
    · exact (hsucc hs).imp_right Or.inr
  · exact Receives.of_rx h hr rfl rfl rfl rfl rfl rfl hr.sent hvendor hnot

theorem received_good (h : Known lib sm) (hr : Ready sm) : Good lib sm ((sm.enter .received).received lib) := by
  have hparsed : Receives lib (sm.enter .received) ((sm.enter .received).parseEapReq lib) := by
    have hr' : Ready (sm.enter .received) := ⟨hr.sent, hr.reauthInit, hr.rounds⟩
    unfold Sm.parseEapReq
    dsimp only
    split
    · exact Receives.of_rx h.inv hr' rfl rfl rfl rfl rfl rfl hr.sent (fun _ => rfl) nofun
    · rename_i req hreq
      split
      · exact Receives.of_rx h.inv hr' rfl rfl rfl rfl rfl rfl hr.sent (fun _ => rfl) nofun
      · let received : Sm π :=
          { sm.enter .received with
            rxReq := false
            rxResp := false
            rxSuccess := false
            rxFailure := false
            reqId := req.getD 1 0
            reqMethod := typeNone
            reqVendor := vendorIetf
            reqVendorMethod := typeNone
            reqSha1 := if sm.workaround then lib.sha1 (req.take (eapHdrLen req)) else sm.reqSha1 }
        have hinv : received.view.Inv lib.erp := h.inv
        have hp : Receives lib received (received.parsePacket lib (req.getD 0 0) (req.take (eapHdrLen req))) :=
          parsePacket_receives hinv ⟨hr.sent, hr.reauthInit, hr.rounds⟩ ⟨rfl, rfl, rfl, rfl, rfl, rfl⟩ hreq
        exact ⟨hp.inv, hp.parsed, hp.eapSuccess, hp.state, hp.changed, hp.rounds⟩
  have hstate : ((sm.enter .received).parseEapReq lib).state = .received := hparsed.state
  have hrounds : ((sm.enter .received).parseEapReq lib).numRounds = sm.numRounds := hparsed.rounds
  have hfew : ((sm.enter .received).parseEapReq lib).numRounds + 1 ≤ eapMaxAuthRounds + 1 := by
    rw [hrounds]
    exact Nat.succ_le_succ hr.rounds
  refine ⟨⟨⟨hparsed.inv, ?_, Or.inl hfew⟩, fun _ => hparsed.changed⟩, hparsed.eapSuccess, fun hs => ?_⟩
  · exact {
      sent := fun hs => by
        have hs : ((sm.enter .received).parseEapReq lib).state.sends = true := hs
        rw [hstate] at hs
        cases hs
      reauthInit := fun _ => by
        show ((sm.enter .received).parseEapReq lib).state.unsent = true
        rw [hstate]
        rfl
      received := fun _ =>
        ⟨hparsed.parsed.sent,
          fun ht =>
            have hp := hparsed.parsed.pending ht
            ⟨hp.rxReq, hp.rxResp, hp.rxSuccess, hp.rxFailure, hp.resp⟩,
          hparsed.parsed.vendor, hparsed.parsed.typeNone⟩
      got := fun hs => by
        have hs : ((sm.enter .received).parseEapReq lib).state = .getMethod := hs
        rw [hstate] at hs
        cases hs }
  · have hs : ((sm.enter .received).parseEapReq lib).state = .success := hs
    rw [hstate] at hs
    cases hs

/-! ## Responses -/

theorem sendResponse_good (h : Known lib sm) (hrounds : sm.numRounds ≤ eapMaxAuthRounds)
    (hsent : sm.reauthInit = false → sm.flow.SeqSent)
    (hpending : sm.reauthInit = true → ∃ msg, sm.eapRespData = some msg ∧ reauthSeq msg = sm.erpSeq) :
    Good lib sm (sm.enter .sendResponse).sendResponse := by
  cases hreauth : sm.reauthInit with
  | false =>
    have hr : Ready sm := ⟨hsent hreauth, hreauth, hrounds⟩
    have hsame : (sm.enter .sendResponse).sendResponse.view = sm.view ∧
        (sm.enter .sendResponse).sendResponse.eapSuccess = sm.eapSuccess ∧
        (sm.enter .sendResponse).sendResponse.state = .sendResponse ∧
        (sm.enter .sendResponse).sendResponse.reauthInit = false ∧
        (sm.enter .sendResponse).sendResponse.erpSeq = sm.erpSeq ∧
        (sm.enter .sendResponse).sendResponse.erpKeys = sm.erpKeys ∧
        (sm.enter .sendResponse).sendResponse.log = sm.log ∧
        (sm.enter .sendResponse).sendResponse.numRounds = sm.numRounds := by
      unfold Sm.sendResponse Sm.enter
      dsimp only
      rw [hreauth]
      split <;> exact ⟨rfl, rfl, rfl, rfl, rfl, rfl, rfl, rfl⟩
    obtain ⟨hview, hsucc, hstate, hre, hseq, hkeys, hlog, hnum⟩ := hsame
    refine Good.of_ready hr (hview ▸ h.inv) (by rw [hstate]; rfl) (by rw [hstate]; decide)
      (fun hs => hsucc ▸ hs) (hre.trans hreauth.symm) hseq hkeys ?_ hnum
    rw [hlog]
  | true =>
    obtain ⟨msg, hresp, hseq⟩ := hpending hreauth
    have hsame : ∃ sha1, (sm.enter .sendResponse).sendResponse =
        { sm.enter .sendResponse with
          lastSha1 := sha1, lastId := some sm.reqId, lastRespData := some msg, eapResp := true
          log := .initiated msg :: sm.log, eapReq := false, idleWhile := sm.clientTimeout, reauthInit :=
          false } := by
      refine ⟨if sm.workaround then sm.reqSha1 else sm.lastSha1, ?_⟩
      unfold Sm.sendResponse Sm.enter
      dsimp only
      rw [hreauth, hresp]
      rfl
    obtain ⟨sha1, hsame⟩ := hsame
    rw [hsame]
    refine Good.of_flow (h.inv.initiate msg) (Flow.Ok.of_sent rfl (fun _ => ?_) nofun) rfl
      nofun (fun hs => hs) (Or.inl (Nat.le_succ_of_le hrounds))
    exact Or.inr (Or.inr ⟨msg, rfl, hseq⟩)

theorem discard_good (h : Known lib sm) (hr : Ready sm) : Good lib sm (sm.enter .discard).discard :=
  Good.of_ready hr h.inv rfl nofun (fun hs => hs) rfl rfl rfl rfl rfl

theorem retransmit_good (h : Known lib sm) (hr : Ready sm) : Good lib sm (sm.enter .retransmit).retransmit :=
  Good.of_ready hr h.inv rfl nofun (fun hs => hs) rfl rfl rfl rfl rfl

theorem identity_good (h : Known lib sm) (hr : Ready sm) (outside : Bytes) :
    Good lib sm ((sm.enter .identity).identity lib outside) := by
  unfold Sm.identity
  split
  · exact Good.of_ready hr h.inv rfl nofun (fun hs => hs) rfl rfl rfl rfl rfl
  · exact Good.of_ready hr h.inv rfl nofun (fun hs => hs) rfl rfl rfl rfl rfl

theorem notification_good (h : Known lib sm) (hr : Ready sm) : Good lib sm
    (sm.enter .notification).notification := by
  unfold Sm.notification
  split
  · exact Good.of_ready hr h.inv rfl nofun (fun hs => hs) rfl rfl rfl rfl rfl
  · exact Good.of_ready hr h.inv rfl nofun (fun hs => hs) rfl rfl rfl rfl rfl

/-! ## Methods -/

theorem MethodTable.get_id {t : MethodTable π} {id : MethodId} {m : EapMethod π}
    (h : t.get id = some m) : m.id = id := by
  have hm := List.find?_some h
  exact beq_iff_eq.mp hm

theorem MethodTable.get_typed {t : MethodTable π} {id : MethodId} {m : EapMethod π} (h : t.get id = some m) :
    id ≠ (vendorIetf, typeNone) := by
  rw [← MethodTable.get_id h]
  exact t.typed m (List.mem_of_find?_eq_some h)

theorem method_good (h : Known lib sm) (hr : Ready sm)
    (hsel : sm.selectedMethod = typeNone → sm.flow.ReqTypeNone)
    (outside : Bytes) : Good lib sm ((sm.enter .method).method outside) := by
  unfold Sm.method
  split
  · exact Good.of_ready hr h.inv rfl nofun (fun hs => hs) rfl rfl rfl rfl rfl
  · rename_i s hs
    have hs : sm.view.m = some s := hs
    split
    · exact Good.of_ready hr h.inv rfl nofun (fun hs => hs) rfl rfl rfl rfl rfl
    · generalize hret : s.method.process ((sm.enter .method).shared outside) s.priv (sm.enter .method).methodRet
        ((sm.enter .method).eapReqData.getD []) = r
      have hignores : sm.selectedMethod = typeNone → r.2.1.ignore = true ∧ s.method.parked r.1 = true := by
        intro hnone
        rw [← hret]
        exact s.method.ignores ((sm.enter .method).shared outside) s.priv (sm.enter .method).methodRet _
          (h.inv.parked hnone s hs) (hsel hnone)
      obtain ⟨priv, ret, resp, effect⟩ := r
      dsimp only at hignores ⊢
      split
      · exact Good.of_ready hr (h.inv.ignore hs fun hnone => (hignores hnone).2) rfl nofun
          (fun hs => hs) rfl rfl rfl rfl rfl
      · rename_i hignore
        have hselected : sm.view.selectedMethod ≠ typeNone := fun hnone => hignore (hignores hnone).1
        have hinv := h.inv.process hselected hs priv ret.decision
        unfold Sm.takeKey
        split
        · rename_i havailable
          have hkey : (s.method.getKey.bind fun getKey => getKey priv).isSome = true := by
            unfold Sm.keyAvailable at havailable
            obtain ⟨hget, hany⟩ := Bool.and_eq_true_iff.mp havailable
            obtain ⟨get, hget⟩ := Option.isSome_iff_exists.mp hget
            obtain ⟨available, hav, hok⟩ := (Option.any_eq_true _ _).mp hany
            have hget : s.method.getKey = some get := hget
            rw [hget]
            exact s.method.keyed available get priv hav hget hok
          exact Good.of_ready hr (hinv.takeKey hselected (s := ⟨s.method, priv⟩) rfl hkey) rfl
            nofun (fun hs => hs) rfl rfl rfl rfl rfl
        · exact Good.of_ready hr hinv rfl nofun (fun hs => hs) rfl rfl rfl rfl rfl

theorem gotMethod_good (h : Known lib sm) (hr : Ready sm) (hnone : sm.selectedMethod = typeNone)
    (htype : sm.reqMethod ≠ typeNone) (method : EapMethod π) (priv : Option π) (effect : MethodEffect) :
    Good lib sm (({ sm.enter .getMethod with selectedMethod := sm.reqMethod } : Sm π).gotMethod lib method priv effect) := by
  have hgot : ∀ sm' : Sm π, sm'.view.Inv lib.erp → sm'.state = .getMethod → sm'.changed = true →
      sm'.eapSuccess = sm.eapSuccess → sm'.reauthInit = sm.reauthInit → sm'.erpSeq = sm.erpSeq →
      sm'.erpKeys = sm.erpKeys → lastInitiated sm'.log = lastInitiated sm.log → sm'.reqMethod = sm.reqMethod →
      sm'.numRounds = sm.numRounds → Good lib sm sm' := by
    intro sm' hinv hstate hchanged hsucc hreauth hseq hkeys hlog hreq hnum
    refine ⟨⟨⟨hinv, ?_, Or.inl (hnum ▸ Nat.le_succ_of_le hr.rounds)⟩, fun _ => hchanged⟩,
      fun hs => Or.inl (hsucc ▸ hs), fun hs => ?_⟩
    · exact {
        sent := fun _ => hr.sent.congr (congrArg List.isEmpty hkeys) hseq hlog
        reauthInit := fun ht => by
          have ht : sm'.reauthInit = true := ht
          rw [hreauth, hr.reauthInit] at ht
          cases ht
        received := fun hs => by
          have hs : sm'.state = .received := hs
          rw [hstate] at hs
          cases hs
        got := fun _ _ hs => absurd (hreq.symm.trans hs) htype }
    · rw [hstate] at hs
      cases hs
  unfold Sm.gotMethod
  dsimp only
  split
  · split
    · exact hgot _ (h.inv.deselect hnone) rfl rfl rfl rfl rfl rfl rfl rfl rfl
    · exact hgot _ (h.inv.deselect hnone) rfl rfl rfl rfl rfl rfl rfl rfl rfl
  · exact hgot _ (h.inv.select hnone _ htype) rfl rfl rfl rfl rfl rfl rfl rfl rfl

theorem getMethod_good (h : Known lib sm) (hr : Ready sm) (hstate : sm.state = .received)
    (hrx : sm.rxReq = true) (hnone : sm.selectedMethod = typeNone) (outside : Bytes) :
    Good lib sm ((sm.enter .getMethod).getMethod lib outside) := by
  have hparsed := h.flow.received hstate
  have hnak : Good lib sm ((sm.enter .getMethod).nak lib) := by
    refine ⟨⟨⟨h.inv, ?_, Or.inl (Nat.le_succ_of_le hr.rounds)⟩, fun _ => rfl⟩, Or.inl, nofun⟩
    exact {
      sent := fun _ => hr.sent
      reauthInit := fun ht => by
        have ht : sm.reauthInit = true := ht
        rw [hr.reauthInit] at ht
        cases ht
      received := nofun
      got := fun _ _ ht => hparsed.typeNone hrx ht }
  unfold Sm.getMethod
  dsimp only
  split
  · exact hnak
  · rename_i eapMethod hget
    have htype : sm.reqMethod ≠ typeNone := by
      intro ht
      have hreq : (sm.enter .getMethod).requested = (vendorIetf, typeNone) := by
        show (sm.reqVendor, if sm.reqMethod = typeExpanded then sm.reqVendorMethod else sm.reqMethod) = _
        rw [show sm.reqVendor = vendorIetf from hparsed.vendor ht, ht]
        rfl
      exact MethodTable.get_typed hget hreq
    split
    · exact hnak
    · split
      · exact gotMethod_good h hr hnone htype _ _ _
      · exact gotMethod_good h hr hnone htype _ _ _

/-! ## `SUCCESS` -/

theorem success_view (hstep : (sm.enter .success).success lib = .ok sm') :
    sm'.view = { sm.view with eapKeyAvailable := sm.eapKeyAvailable || sm.eapKeyData.isSome } ∧
      sm'.state = .success ∧ sm'.reauthInit = sm.reauthInit ∧ sm'.numRounds = sm.numRounds := by
  unfold Sm.success at hstep
  dsimp only at hstep
  split at hstep
  · cases hstep
  · split at hstep
    · split at hstep
      · cases hstep
      · cases hstep
        exact ⟨rfl, rfl, rfl, rfl⟩
    · cases hstep
      exact ⟨rfl, rfl, rfl, rfl⟩

theorem success_wf (h : Known lib sm) (hr : Ready sm) (hstep : (sm.enter .success).success lib = .ok sm') :
    Wf lib sm' := by
  obtain ⟨hview, hstate, hreauth, hnum⟩ := success_view hstep
  refine ⟨⟨hview ▸ h.inv.publish, ?_, Or.inl (hnum ▸ Nat.le_succ_of_le hr.rounds)⟩, fun hp => ?_⟩
  · refine Flow.Ok.of_sent (by show sm'.state.parsing = false; rw [hstate]; rfl) (fun hs => ?_) fun ht => ?_
    · have hs : sm'.state.sends = true := hs
      rw [hstate] at hs
      cases hs
    · have ht : sm'.reauthInit = true := ht
      rw [hreauth, hr.reauthInit] at ht
      cases ht
  · rw [hstate] at hp
    cases hp

theorem success_good (h : Known lib sm) (hr : Ready sm) (hdec : sm.decision ≠ .fail)
    (hstep : (sm.enter .success).success lib = .ok sm') : Good lib sm sm' := by
  have hreason : Reason sm' := Or.inl (by
    have hd : sm'.decision = sm.decision := congrArg View.decision (success_view hstep).1
    rw [hd]
    exact hdec)
  exact ⟨success_wf h hr hstep, fun _ => Or.inr hreason, fun _ => Or.inr hreason⟩

end EapPeer

end Hostap
