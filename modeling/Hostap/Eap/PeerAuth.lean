import Hostap.Eap.PeerSteps
import Hostap.Lib.Run

/-!
# When the EAP peer takes an authentication for successful

The rules of the states, the step of the machine and its runs. `eapSuccess_authenticated` is the result:
whatever packets, signals and results of methods there are, without `allow_canned_success` a step raises
`eapSuccess` only after the selected method has decided for it or an EAP-Finish/Re-auth was verified since
`INITIALIZE`, and an available key is one that this brought. An EAP-Success is no such thing.
-/

namespace Hostap

namespace EapPeer

open Octets Erp

variable {π : Type} {lib : EapPeerLib π} {sm sm' : Sm π} {outside : Bytes}

/-! ## Rules -/

theorem stepIdle_good (h : Known lib sm) (hrounds : sm.numRounds ≤ eapMaxAuthRounds) (hstate : sm.state = .idle)
    (hstep : stepIdle lib sm = .ok sm') : Good lib sm sm' := by
  have hr := h.ready hrounds (by rw [hstate]; rfl)
  unfold stepIdle at hstep
  split at hstep
  · cases hstep
    exact received_good h hr
  split at hstep
  · rename_i hsucc
    refine success_good h hr ?_ hstep
    rcases hsucc with ⟨_, hdec⟩ | ⟨_, hdec⟩
    · exact hdec
    · rw [hdec]
      decide
  split at hstep
  · cases hstep
    exact failure_good h true sm.numRounds
  split at hstep
  · rename_i hleap
    exact success_good h hr hleap.2.2.1 hstep
  split at hstep
  · rename_i hpeap
    exact success_good h hr hpeap.2.2.1 hstep
  · cases hstep
    exact Good.refl h (by rw [hstate]; rfl)

theorem stepReceived_sound (h : Known lib sm) (hrounds : sm.numRounds ≤ eapMaxAuthRounds)
    (hstate : sm.state = .received)
    (hstep : stepReceived lib outside sm = .ok sm') : Sound lib sm sm' := by
  have hparsed := h.flow.received hstate
  have hused : sm.rxReq = true → Ready sm := fun hrx => h.ready_of_used hrounds hstate (Or.inl hrx)
  unfold stepReceived at hstep
  rcases ite_eq_iff.mp hstep with ⟨hsucc, hstep⟩ | ⟨_, hstep⟩
  · have hr := h.ready_of_used hrounds hstate (Or.inr (Or.inr (Or.inl hsucc.1)))
    exact (success_good h hr hsucc.2.1 hstep).sound
  -- the rules for an EAP-Success or an EAP-Failure before any method
  have hcanned : ∀ {sm'}, allowCanned sm.config = true → Wf lib sm' → Sound lib sm sm' := fun hc hwf =>
    ⟨hwf, fun hnot => by rw [hc] at hnot; cases hnot⟩
  rcases ite_eq_iff.mp hstep with ⟨hrule, hstep⟩ | ⟨_, hstep⟩
  · have hr := h.ready_of_used hrounds hstate (Or.inr (Or.inr (Or.inl hrule.2.2.1)))
    exact hcanned hrule.2.2.2.2.2 (success_wf h hr hstep)
  rcases ite_eq_iff.mp hstep with ⟨_, hstep⟩ | ⟨_, hstep⟩
  · cases hstep
    exact (failure_good h true sm.numRounds).sound
  rcases ite_eq_iff.mp hstep with ⟨hrule, hstep⟩ | ⟨_, hstep⟩
  · have hr := h.ready_of_used hrounds hstate (Or.inr (Or.inr (Or.inl hrule.2.1)))
    exact hcanned hrule.2.2.2.2.2 (success_wf h hr hstep)
  refine Good.sound ?_
  rcases ite_eq_iff.mp hstep with ⟨_, hstep⟩ | ⟨_, hstep⟩
  · cases hstep
    exact failure_good h true sm.numRounds
  rcases ite_eq_iff.mp hstep with ⟨hdup, hstep⟩ | ⟨_, hstep⟩
  · cases hstep
    exact retransmit_good h (hused hdup.1)
  rcases ite_eq_iff.mp hstep with ⟨hnotification, hstep⟩ | ⟨_, hstep⟩
  · cases hstep
    exact notification_good h (hused hnotification.1)
  rcases ite_eq_iff.mp hstep with ⟨hidentity, hstep⟩ | ⟨_, hstep⟩
  · cases hstep
    exact identity_good h (hused hidentity.1) outside
  rcases ite_eq_iff.mp hstep with ⟨hget, hstep⟩ | ⟨hget, hstep⟩
  · cases hstep
    exact getMethod_good h (hused hget.1) hstate hget.1 hget.2.2.1 outside
  rcases ite_eq_iff.mp hstep with ⟨hmethod, hstep⟩ | ⟨_, hstep⟩
  · cases hstep
    refine method_good h (hused hmethod.1) (fun hnone => ?_) outside
    -- a request without a type is one for `GET_METHOD`
    have hreq : sm.reqMethod = typeNone := hmethod.2.2.1.trans hnone
    refine absurd ⟨hmethod.1, hmethod.2.1, hnone, ?_, ?_⟩ hget
    · rw [hreq]
      decide
    · rw [hreq]
      decide
  rcases ite_eq_iff.mp hstep with ⟨hleap, hstep⟩ | ⟨_, hstep⟩
  · cases hstep
    refine method_good h (h.ready_of_used hrounds hstate ?_) (fun hnone => ?_) outside
    · rcases hleap.2 with hrx | hrx
      · exact Or.inr (Or.inr (Or.inl hrx))
      · exact Or.inr (Or.inl hrx)
    · rw [hleap.1] at hnone
      cases hnone
  rcases ite_eq_iff.mp hstep with ⟨_, hstep⟩ | ⟨hreauth, hstep⟩
  · cases hstep
    exact sendResponse_good h hrounds hparsed.sent fun ht => (hparsed.pending ht).resp
  · cases hstep
    have hfalse : sm.reauthInit = false := Bool.eq_false_of_not_eq_true hreauth
    exact discard_good h ⟨hparsed.sent hfalse, hfalse, hrounds⟩

theorem sendResponse_ready (h : Known lib sm) (hr : Ready sm) : Good lib sm
    (sm.enter .sendResponse).sendResponse :=
  sendResponse_good h hr.rounds (fun _ => hr.sent) fun ht => by
    rw [hr.reauthInit] at ht
    cases ht

theorem idle_good (h : Known lib sm) (hr : Ready sm) : Good lib sm (sm.enter .idle) :=
  Good.of_ready hr h.inv rfl nofun (fun hs => hs) rfl rfl rfl rfl rfl

theorem stepLocal_sound (h : Known lib sm) (hrounds : sm.numRounds ≤ eapMaxAuthRounds)
    (hstep : stepLocal lib outside sm = .ok sm') : Sound lib sm sm' := by
  cases hstate : sm.state with
  | initialise | sendResponse | discard =>
    simp only [stepLocal, hstate] at hstep
    cases hstep
    exact (idle_good h (h.ready hrounds (by rw [hstate]; rfl))).sound
  | disabled =>
    simp only [stepLocal, hstate] at hstep
    split at hstep
    · cases hstep
      exact (initialise_good sm true).sound
    · cases hstep
      exact (Good.refl h (by rw [hstate]; rfl)).sound
  | idle =>
    simp only [stepLocal, hstate] at hstep
    exact (stepIdle_good h hrounds hstate hstep).sound
  | received =>
    simp only [stepLocal, hstate] at hstep
    exact stepReceived_sound h hrounds hstate hstep
  | getMethod =>
    have hr := h.ready hrounds (by rw [hstate]; rfl)
    simp only [stepLocal, hstate] at hstep
    split at hstep
    · rename_i hselected
      cases hstep
      exact (method_good h hr (fun hnone => h.flow.got hstate hselected (hselected.symm.trans hnone)) outside).sound
    · cases hstep
      exact (sendResponse_ready h hr).sound
  | method =>
    have hr := h.ready hrounds (by rw [hstate]; rfl)
    simp only [stepLocal, hstate] at hstep
    split at hstep
    · cases hstep
      exact (discard_good h hr).sound
    split at hstep
    · cases hstep
      exact (failure_good h true sm.numRounds).sound
    · cases hstep
      exact (sendResponse_ready h hr).sound
  | identity | notification | retransmit =>
    simp only [stepLocal, hstate] at hstep
    cases hstep
    exact (sendResponse_ready h (h.ready hrounds (by rw [hstate]; rfl))).sound
  | success | failure =>
    simp only [stepLocal, hstate] at hstep
    cases hstep
    exact (Good.refl h (by rw [hstate]; rfl)).sound

theorem smStep_sound (h : Known lib sm) (hstep : smStep lib outside sm = .ok sm') : Sound lib sm sm' := by
  unfold smStep at hstep
  rcases ite_eq_iff.mp hstep with ⟨_, hstep⟩ | ⟨_, hstep⟩
  · cases hstep
    exact (initialise_good sm _).sound
  rcases ite_eq_iff.mp hstep with ⟨_, hstep⟩ | ⟨_, hstep⟩
  · cases hstep
    exact (disabled_good h _).sound
  rcases ite_eq_iff.mp hstep with ⟨hmany, hstep⟩ | ⟨hfew, hstep⟩
  · rcases ite_eq_iff.mp hstep with ⟨_, hstep⟩ | ⟨hmore, hstep⟩
    · cases hstep
      exact (failure_good h _ _).sound
    · -- the rounds have been used up before
      cases hstep
      have hmany : sm.numRounds > eapMaxAuthRounds := hmany
      have hmore : sm.numRounds ≠ eapMaxAuthRounds + 1 := hmore
      have hstate : sm.state = .failure := by
        rcases h.rounds with hle | hst
        · omega
        · exact hst
      refine Good.sound ⟨⟨⟨h.inv, h.flow, Or.inr hstate⟩, fun hp => ?_⟩, Or.inl, Or.inl⟩
      have hp : sm.state.parsing = true := hp
      rw [hstate] at hp
      cases hp
  · -- the mark that the rounds are counted from is not looked at
    have hknown : Known lib ({ sm with changed := false } : Sm π) := ⟨h.inv, h.flow, h.rounds⟩
    have hsound := stepLocal_sound hknown (Nat.not_lt.mp hfew) hstep
    refine ⟨hsound.wf, fun hcanned => ?_⟩
    have hgood := hsound.good hcanned
    exact ⟨hgood.wf, hgood.raised, hgood.entered⟩

/-! ## Runs -/

abbrev Plainly (sm : Sm π) (e : Event) : Prop := taken sm e = true ∧ allowCanned sm.config = false

theorem initSm_wf (lib : EapPeerLib π) : Wf lib (initSm : Sm π) where
  inv := View.Inv.fresh nofun
  flow := Flow.Ok.of_sent rfl (fun _ => Or.inl rfl) nofun
  rounds := Or.inl (Nat.zero_le _)
  settled := nofun

theorem Wf.not_parsing (h : Wf lib sm) (hchanged : (!sm.changed) = true) : sm.state.parsing = false := by
  by_contra hp
  have hc := h.settled (Bool.eq_true_of_not_eq_false hp)
  rw [hc] at hchanged
  cases hchanged

theorem Wf.same (h : Wf lib sm) (hview : sm'.view = sm.view) (hflow : sm'.flow = sm.flow)
    (hchanged : sm'.changed = sm.changed) (hrounds : sm'.numRounds = sm.numRounds) : Wf lib sm' where
  inv := hview ▸ h.inv
  flow := hflow ▸ h.flow
  rounds := by
    have hstate : sm'.state = sm.state := congrArg Flow.state hflow
    rw [hstate, hrounds]
    exact h.rounds
  settled := fun hp => by
    have hstate : sm'.state = sm.state := congrArg Flow.state hflow
    rw [hstate] at hp
    rw [hchanged]
    exact h.settled hp

theorem Wf.between (h : Wf lib sm) (hchanged : (!sm.changed) = true) (hinv : sm'.view.Inv lib.erp)
    (hstate : sm'.state = sm.state) (hreauth : sm'.reauthInit = sm.reauthInit) (hseq : sm'.erpSeq = sm.erpSeq)
    (hkeys : sm'.erpKeys = sm.erpKeys) (hlog : sm'.log = sm.log)
    (hrounds : sm'.numRounds = sm.numRounds) : Wf lib sm' where
  inv := hinv
  flow := by
    refine Flow.Ok.of_sent ?_ (fun hs => ?_) fun ht => ?_
    · show sm'.state.parsing = false
      rw [hstate]
      exact h.not_parsing hchanged
    · have hs : sm'.state.sends = true := hs
      rw [hstate] at hs
      exact (h.flow.sent hs).congr (congrArg List.isEmpty hkeys) hseq (congrArg lastInitiated hlog)
    · show sm'.state.unsent = true
      rw [hstate]
      exact h.flow.reauthInit (hreauth.symm.trans ht)
  rounds := by
    rw [hstate, hrounds]
    exact h.rounds
  settled := fun hp => by
    rw [hstate, h.not_parsing hchanged] at hp
    cases hp

theorem notifyLowerLayerSuccess_good (h : Wf lib sm) : Wf lib (notifyLowerLayerSuccess sm) ∧
    (notifyLowerLayerSuccess sm).state = sm.state ∧
    ((notifyLowerLayerSuccess sm).eapSuccess = true → sm.eapSuccess = true ∨
    Reason (notifyLowerLayerSuccess sm)) := by
  unfold notifyLowerLayerSuccess
  split
  · exact ⟨h, rfl, Or.inl⟩
  · rename_i hnot
    refine ⟨⟨⟨h.inv.publish, h.flow, h.rounds⟩, h.settled⟩, rfl, fun _ => Or.inr (Or.inl fun hdec => ?_)⟩
    exact hnot (Or.inr (Or.inl hdec))

theorem step_sound (h : Wf lib sm) {e : Event} (htaken : taken sm e = true)
    (hstep : step lib sm e = .ok sm') : Sound lib sm sm' := by
  cases e with
  | smStep outside => exact smStep_sound h.toKnown hstep
  | receive req =>
    cases hstep
    exact Good.sound ⟨h.between htaken h.inv rfl rfl rfl rfl rfl rfl, Or.inl, Or.inl⟩
  | takeResp =>
    cases hstep
    exact Good.sound ⟨h.between htaken h.inv rfl rfl rfl rfl rfl rfl, Or.inl, Or.inl⟩
  | invalidateCachedSession =>
    cases hstep
    exact Good.sound ⟨h.between htaken h.inv.invalidate rfl rfl rfl rfl rfl rfl, Or.inl, Or.inl⟩
  | lowerLayerSuccess =>
    cases hstep
    obtain ⟨hwf, hstate, hraised⟩ := notifyLowerLayerSuccess_good h
    exact Good.sound ⟨hwf, hraised, fun hs => Or.inl (hstate ▸ hs)⟩
  | eapRestart =>
    cases hstep
    refine Good.sound ⟨h.same rfl rfl rfl rfl, fun hs => Or.inl ?_, Or.inl⟩
    exact (Bool.and_eq_true_iff.mp hs).1
  | eapReq | clearNoResp | clearTriggerStart | altAccept | altReject | tick | portEnabled | forceDisabled |
      config
  | fastReauth | workaround =>
    cases hstep
    exact Good.sound ⟨h.same rfl rfl rfl rfl, Or.inl, Or.inl⟩

theorem reach_wf {C : Sm π → Event → Prop} (htaken : ∀ sm e, C sm e → taken sm e = true) {evs : List Event}
    (hreach : Run.Reach (step lib) C initSm evs sm) : Wf lib sm :=
  hreach.invariant (I := Wf lib) (initSm_wf lib) fun _ _ _ h hc hs => (step_sound h (htaken _ _ hc) hs).wf

/-! ## The result -/

/-- An EAP-Finish/Re-auth was accepted since `INITIALIZE`, and was verified then. -/
structure Reauthenticated (lib : ErpLib) (log : List Obs) (erp : ErpKey) (frame : Bytes) : Prop where
  verified : ∃ newer stored older, log = newer ++ .finished stored erp frame :: older ∧
    FinishVerified lib stored erp frame older

/-- What authenticates the server since `INITIALIZE`. -/
inductive Authenticated (lib : ErpLib) (sm : Sm π) : Prop
  /-- `process()` of the selected method returned the current decision, which is not `FAIL`, when it last
  processed a packet
  that it did not ignore. -/
  | method (method : MethodId) (hdecision : sm.decision ≠ .fail)
    (hlast : lastProcessed sm.log = some (method, sm.decision))
  | reauth (erp : ErpKey) (frame : Bytes) (h : Reauthenticated lib sm.log erp frame)

/-- The key is one that the selected method returned, or the session key of an EAP-Finish/Re-auth that was
verified. -/
def KeyBrought (lib : ErpLib) (sm : Sm π) : Prop :=
  ∃ key, sm.eapKeyData = some key ∧
    ((∃ method, .keyed method (some key) ∈ sm.log ∧ ∀ id decision, .processed id decision ∈ sm.log → id = method) ∨
      ∃ erp frame, Reauthenticated lib sm.log erp frame ∧ key = Erp.rMSK lib erp.rRK (reauthSeq frame))

/-- A step raises `eapSuccess`: it was not set before, or `SUCCESS` sets it again. -/
def Raises (sm sm' : Sm π) : Prop :=
  sm'.eapSuccess = true ∧ (sm.eapSuccess = false ∨ sm'.state = .success ∧ sm.state ≠ .success)

theorem reauthenticated_of_mem {lib : ErpLib} (h : sm.view.Inv lib) {stored : List ErpKey} {erp : ErpKey}
    {frame : Bytes} (hmem : .finished stored erp frame ∈ sm.log) : Reauthenticated lib sm.log erp frame := by
  obtain ⟨newer, older, hlog⟩ := List.append_of_mem hmem
  exact ⟨newer, stored, older, hlog, h.finished newer stored erp frame older hlog⟩

theorem authenticated_of_reason {lib : ErpLib} (h : sm.view.Inv lib)
    (hreason : Reason sm) : Authenticated lib sm := by
  rcases hreason with hdec | ⟨stored, erp, frame, hmem⟩
  · obtain ⟨method, hlast⟩ := h.decided hdec
    exact .method method hdec hlast
  · exact .reauth erp frame (reauthenticated_of_mem h hmem)

theorem keyBrought_of_available {lib : ErpLib} (h : sm.view.Inv lib) (havailable : sm.eapKeyAvailable = true) :
    KeyBrought lib sm := by
  obtain ⟨key, hkey⟩ := Option.isSome_iff_exists.mp (h.available havailable)
  have hlast : lastKey lib sm.log = some key := h.key.symm.trans hkey
  refine ⟨key, hkey, ?_⟩
  unfold lastKey at hlast
  cases hfind : sm.log.findSome? (Obs.key lib) with
  | none =>
    rw [hfind] at hlast
    cases hlast
  | some found =>
    rw [hfind] at hlast
    have hfound : found = some key := hlast
    subst hfound
    obtain ⟨o, hmem, ho⟩ := List.exists_of_findSome?_eq_some hfind
    cases o with
    | processed method decision => cases ho
    | initiated msg => cases ho
    | keyed method k =>
      cases ho
      refine Or.inl ⟨method, hmem, fun id decision hprocessed => ?_⟩
      obtain ⟨one, hone, _⟩ := h.one
      rw [hone _ hprocessed id rfl, hone _ hmem method rfl]
    | finished stored erp frame =>
      have hk : key = Erp.rMSK lib erp.rRK (reauthSeq frame) := (Option.some.inj (Option.some.inj ho)).symm
      exact Or.inr ⟨erp, frame, reauthenticated_of_mem h hmem, hk⟩

/-- Whatever packets, signals and results of methods there are, without `allow_canned_success` a step raises
`eapSuccess` only after the selected method or an EAP-Finish/Re-auth has authenticated the server since
`INITIALIZE`, and a key that is available then is one that this brought. -/
theorem eapSuccess_authenticated {evs : List Event} {e : Event}
    (hreach : Run.Reach (step lib) Plainly initSm evs sm)
    (hc : Plainly sm e) (hstep : step lib sm e = .ok sm') (hraises : Raises sm sm') :
    Authenticated lib.erp sm' ∧ (sm'.eapKeyAvailable = true → KeyBrought lib.erp sm') := by
  have hgood := (step_sound (reach_wf (fun _ _ hc => hc.1) hreach) hc.1 hstep).good hc.2
  refine ⟨authenticated_of_reason hgood.wf.inv ?_, keyBrought_of_available hgood.wf.inv⟩
  obtain ⟨hafter, hbefore | ⟨hstate, hne⟩⟩ := hraises
  · rcases hgood.raised hafter with hs | hreason
    · rw [hbefore] at hs
      cases hs
    · exact hreason
  · rcases hgood.entered hstate with hs | hreason
    · exact absurd hs hne
    · exact hreason

/-! ## A small peer -/

def smallPeerKey (priv : Nat) : Option Bytes := if priv = 1 then some [0x4b] else none

def smallPeerProcess (ret : EapMethodRet) (req : Bytes) : Nat × EapMethodRet × Option Bytes × MethodEffect :=
  if req.getD 5 0 = 7 then
    (1, ⟨false, .done, .uncondSucc, true⟩, some (eapMsg 13 codeResponse (req.getD 1 0) []), {})
  else
    (0, { ret with ignore := true }, none, {})

theorem smallPeerMethod_keyed (available : Nat → Bool) (get : Nat → Option Bytes) (priv : Nat)
    (ha : some (fun priv => priv == 1) = some available) (hg : some smallPeerKey = some get)
    (h : available priv = true) : (get priv).isSome = true := by
  cases ha
  cases hg
  have hpriv : priv = 1 := beq_iff_eq.mp h
  subst hpriv
  rfl

theorem smallPeerMethod_parks (r : EapReauth Nat) (priv : Nat) (h : none = some r) :
    (fun _ => false) (r.deinitForReauth priv) = true := by
  cases h

theorem smallPeerMethod_ignores (_ : EapShared) (priv : Nat) (ret : EapMethodRet) (req : Bytes)
    (h : (fun _ => false) priv = true) : req.getD 4 0 = 0 →
    (smallPeerProcess ret req).2.1.ignore = true ∧ (fun _ => false) (smallPeerProcess ret req).1 = true := by
  cases h

def smallPeerMethod : EapMethod Nat where
  id := (vendorIetf, typeTls)
  init := fun _ => (some 0, {})
  process := fun _ _ ret req => smallPeerProcess ret req
  isKeyAvailable := some fun priv => priv == 1
  getKey := some smallPeerKey
  getEmsk := some fun _ => some [0x45]
  getSessionId := some fun _ => some [0x53]
  parked := fun _ => false
  keyed := smallPeerMethod_keyed
  parks := smallPeerMethod_parks
  ignores := smallPeerMethod_ignores

theorem smallPeerMethods_typed : ∀ m ∈ [smallPeerMethod], m.id ≠ (vendorIetf, typeNone) := by
  intro m hm
  rcases List.mem_cons.mp hm with rfl | hm
  · decide
  · cases hm

def smallPeerLib : EapPeerLib Nat where
  erp := smallErpLib
  sha1 := fun frame => frame.take 20
  methods := ⟨[smallPeerMethod], smallPeerMethods_typed⟩
  buildIdentity := fun _ _ id => some (eapMsg 1 codeResponse id [])

def smallPeerConfig : EapPeerConfig := { identity := some [0x61, 0x40, 0x62], erp := true }

def rounds (n : Nat) : List Event := List.replicate n (.smStep [])

def packet (req : Bytes) : List Event := [.receive (some req), .eapReq]

def smallFinish : Bytes :=
  let nai := keynameNai smallErpLib [0x53] [0x62]
  let payload := [0x00] ++ natBe 2 0 ++ [1, UInt8.ofNat nai.length] ++ nai
  let msg := [codeFinish, 2] ++ natBe 2
    (5 + payload.length + 1 + 16) ++ [typeReauth] ++ payload ++ [csHmacSha256128]
  msg ++ (smallErpLib.hmacSha256 (rIK smallErpLib (rRK smallErpLib [0x45])) msg).take 16

def smallPeerRun : List Event :=
  .config (some smallPeerConfig) :: rounds 2 ++ .portEnabled true :: rounds 3 ++ packet [1, 1, 0, 6, 13,
  7] ++ rounds 6 ++
    packet [3, 1, 0, 4] ++ rounds 3 ++ .eapRestart :: rounds 3 ++ packet [5, 2, 0, 6, 1, 0] ++ rounds 4 ++
    packet smallFinish

def stepShows (lib : EapPeerLib Nat) (e : Event) (p : Sm Nat → Sm Nat → Bool) (sm : Sm Nat) : Bool :=
  match step lib sm e with
  | .ok sm' => p sm sm'
  | .error _ => false

theorem exists_of_stepShows {lib : EapPeerLib Nat} {e : Event} {p : Sm Nat → Sm Nat → Bool} {sm : Sm Nat}
    (h : stepShows lib e p sm = true) : ∃ sm', step lib sm e = .ok sm' ∧ p sm sm' = true := by
  unfold stepShows at h
  split at h
  · exact ⟨_, by assumption, h⟩
  · cases h

theorem eapSuccess_authenticated_small : ∃ (sm sm' : Sm Nat),
    Run.Reach (step smallPeerLib) Plainly initSm smallPeerRun sm ∧ step smallPeerLib sm (.smStep []) = .ok sm' ∧
      sm'.decision = .fail ∧ Authenticated smallPeerLib.erp sm' ∧
      (sm'.eapKeyAvailable = true → KeyBrought smallPeerLib.erp sm') := by
  obtain ⟨sm, hreach, hsm⟩ := Run.reach_of_runWhile_any (step smallPeerLib) Plainly initSm smallPeerRun
    (stepShows smallPeerLib (.smStep []) fun sm sm' =>
      decide (Plainly sm (.smStep []) ∧ sm.eapSuccess = false ∧ sm'.eapSuccess = true ∧ sm'.decision = .fail))
    (by decide +kernel)
  obtain ⟨sm', hstep, hshows⟩ := exists_of_stepShows hsm
  obtain ⟨hclean, hbefore, hafter, hdec⟩ := of_decide_eq_true hshows
  exact ⟨sm, sm', hreach, hstep, hdec, eapSuccess_authenticated hreach hclean hstep ⟨hafter, Or.inl hbefore⟩⟩

end EapPeer

end Hostap
