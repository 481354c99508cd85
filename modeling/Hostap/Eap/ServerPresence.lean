import Hostap.Eap.ServerAuth

/-!
# The method behind a response

`INTEGRITY_CHECK` and `METHOD_RESPONSE` call the functions of `sm->m` without a test; what leads there is a
response whose type is `currentMethod`. `View.Present` says in each state what is known of a machine that has
no method. Such a machine waits for a response only when `INITIATE_REAUTH_START` has sent a request without a
method, and a response to that request, of the type that `currentMethod` was left with, is the one way to a
call without a method.
-/

namespace Hostap

namespace EapServer

open Erp

variable {π : Type}

namespace View

def Missing (v : View π) : Prop :=
  match v.state with
  | .initialise => v.conf.backendAuth = true → v.currentMethod = typeNone
  | .pickUpMethod => v.currentMethod = typeNone
  | .initiateReauthStart | .sendRequest | .idle | .retransmit | .received | .discard =>
    v.tryInitiateReauth = true
  | .integrityCheck => v.tryInitiateReauth = true ∧ v.ignore = true
  | .methodResponse => False
  | _ => True

theorem Missing.initialise {v : View π} (hstate : v.state = .initialise)
    (h : v.conf.backendAuth = true → v.currentMethod = typeNone) : v.Missing := by
  unfold Missing
  rw [hstate]
  exact h

/-- The invariant: a method is the one of `currentMethod`. -/
structure Present (v : View π) : Prop where
  selected : ∀ s, v.m = some s → v.currentMethod = methodType s.method.id
  missing : v.m = none → v.Missing

theorem Present.keep {v w : View π} (h : v.Present) (hm : w.m = v.m) (htype : w.currentMethod = v.currentMethod)
    (hmissing : v.m = none → w.Missing) : w.Present where
  selected := fun s hs => htype ▸ h.selected s (hm ▸ hs)
  missing := fun hw => hmissing (hm ▸ hw)

theorem Present.of_none {v : View π} (hm : v.m = none) (hmissing : v.Missing) : v.Present where
  selected := fun s hs => by
    rw [hm] at hs
    cases hs
  missing := fun _ => hmissing

theorem Present.of_some {v : View π} {s : Selected π} (hm : v.m = some s)
    (htype : v.currentMethod = methodType s.method.id) : v.Present where
  selected := fun t ht => by
    rw [hm] at ht
    cases ht
    exact htype
  missing := fun hn => by
    rw [hm] at hn
    cases hn

end View

/-- What a step comes to: no function of a method is called without one. -/
def Provided : Except EapFault (Sm π) → Prop
  | .ok sm => sm.view.Present
  | .error fault => fault ≠ .noMethod

variable {lib : EapServerLib π} {sm : Sm π}

/-! ## The states one by one -/

theorem initialise_present (hstate : sm.state = .initialise) : sm.initialise.view.Present := by
  unfold Sm.initialise
  dsimp only
  split
  · have hparsed := Sm.parseEapResp_parsed { sm.resetVars with currentMethod := typeNone }
    generalize Sm.parseEapResp { sm.resetVars with currentMethod := typeNone } = sm₁ at hparsed
    have hview := hparsed.view
    have hm : sm₁.m = none := congrArg View.m hview
    have hinit : sm₁.state = .initialise := (congrArg View.state hview).trans hstate
    have htype : sm₁.currentMethod = typeNone := congrArg View.currentMethod hview
    exact View.Present.of_none hm (View.Missing.initialise hinit fun _ => htype)
  · rename_i hback
    exact View.Present.of_none rfl (View.Missing.initialise hstate fun hb => absurd hb hback)

theorem pickUpMethod_present (h : sm.view.Present) (hmissing : sm.m = none → sm.currentMethod = typeNone) :
    ((sm.enter .pickUpMethod).pickUpMethod lib).view.Present := by
  unfold Sm.pickUpMethod
  split
  · split
    · exact View.Present.of_none rfl rfl
    · rename_i method hget
      split
      · exact View.Present.of_none rfl rfl
      · dsimp only
        split
        · exact View.Present.of_none rfl rfl
        · refine View.Present.of_some rfl ?_
          rw [MethodTable.get_id hget]
          rfl
  · exact h.keep rfl rfl hmissing

theorem selectAction_present (h : sm.view.Present) (tryInitiateReauth : Bool) :
    (({ sm with tryInitiateReauth }.enter .selectAction).selectAction lib).view.Present := by
  unfold Sm.selectAction
  have hview := (Sm.getDecision_decides lib ({ sm with tryInitiateReauth }.enter .selectAction)).view
  generalize Sm.getDecision lib ({ sm with tryInitiateReauth }.enter .selectAction) = r at hview
  obtain ⟨decision, sm₁⟩ := r
  dsimp only at hview ⊢
  show ({ sm₁.view with decision } : View π).Present
  rw [hview]
  exact h.keep rfl rfl fun _ => trivial

theorem nak_present (sm : Sm π) : (sm.enter .nak).nak.view.Present := by
  unfold Sm.nak Sm.policyUpdate
  dsimp only
  split
  · exact View.Present.of_none rfl trivial
  · split
    · split <;> exact View.Present.of_none rfl trivial
    · exact View.Present.of_none rfl trivial

theorem received_present (h : sm.view.Present) (htry : sm.m = none → sm.tryInitiateReauth = true) :
    (sm.enter .received).received.view.Present := by
  unfold Sm.received
  have hview := (Sm.parseEapResp_parsed (sm.enter .received)).view
  generalize Sm.parseEapResp (sm.enter .received) = sm₁ at hview ⊢
  show ({ sm₁.view with numRounds := sm₁.numRounds + 1 } : View π).Present
  rw [hview]
  exact h.keep rfl rfl htry

theorem received2_present (h : sm.view.Present) : (sm.enter .received2).received2.view.Present := by
  unfold Sm.received2
  rw [(Sm.parseEapResp_parsed (sm.enter .received2)).view]
  exact h.keep rfl rfl fun _ => trivial

theorem enter_present (h : sm.view.Present) (state : EapState) {f : Sm π → Sm π}
    (hf : ∀ sm : Sm π, (f sm).view = sm.view ∧ (f sm).eapSuccess = sm.eapSuccess)
    (hmissing : sm.m = none → ({ sm.view with state } : View π).Missing) :
    (f (sm.enter state)).view.Present := by
  rw [(hf _).1]
  exact h.keep rfl rfl hmissing

theorem methodRequest_present (h : sm.view.Present) (rand : UInt8) :
    ((sm.enter .methodRequest).methodRequest rand).view.Present := by
  unfold Sm.methodRequest
  split
  · exact h.keep rfl rfl fun _ => trivial
  · rename_i s hs
    exact View.Present.of_some (s := ⟨s.method, _⟩) rfl (h.selected s hs)

theorem proposeLoop_ne_noMethod (lib : EapServerLib π) (fuel : Nat) (sm : Sm π) :
    sm.proposeLoop lib fuel ≠ .error .noMethod := by
  induction fuel generalizing sm with
  | zero =>
    intro h
    cases h
  | succ fuel ih =>
    rw [Sm.proposeLoop]
    generalize sm.getNextMethod = r
    obtain ⟨id, sm₁⟩ := r
    dsimp only
    split
    · intro h
      cases h
    · split
      · exact ih _
      · intro h
        cases h

theorem proposeMethod_provided (lib : EapServerLib π) (hstate : sm.state = .proposeMethod) :
    Provided (sm.proposeMethod lib) := by
  cases hstep : sm.proposeMethod lib with
  | error fault =>
    rintro rfl
    exact proposeLoop_ne_noMethod lib _ _ hstep
  | ok sm' =>
    have hp := Sm.proposeLoop_proposes lib hstep
    have hstate' : sm'.state = .proposeMethod := (congrArg View.state hp.view).trans hstate
    refine ⟨fun s hs => (hp.selected s hs).1, fun _ => ?_⟩
    unfold View.Missing
    rw [show sm'.view.state = .proposeMethod from hstate']
    trivial

theorem methodResponse_provided (h : sm.view.Present) (hm : sm.m ≠ none) :
    Provided (sm.methodResponse lib) := by
  unfold Sm.methodResponse
  split
  · exact h
  · split
    · rename_i hnone
      exact absurd hnone hm
    · rename_i s hs
      have htype : sm.currentMethod = methodType s.method.id := h.selected s hs
      dsimp only
      split
      · exact View.Present.of_some (s := ⟨s.method, _⟩) rfl htype
      · exact View.Present.of_some (s := ⟨s.method, _⟩) rfl htype

theorem enterMethodResponse_provided (h : sm.view.Present) (hm : sm.m ≠ none) (methodPending : MethodPending) :
    Provided ({ sm.enter .methodResponse with methodPending }.methodResponse lib) :=
  methodResponse_provided (h.keep rfl rfl fun hnone => absurd hnone hm) hm

theorem initiateReceived_present (h : sm.view.Present) (lib : ErpLib) :
    ((sm.enter .initiateReceived).initiateReceived lib).view.Present := by
  unfold Sm.initiateReceived
  dsimp only
  split
  · exact h.keep rfl rfl fun _ => trivial
  · rename_i r hparse
    split
    · exact h.keep rfl rfl fun _ => trivial
    · rw [(Sm.initiateServe_serves lib { sm.enter .initiateReceived with rxInitiate := false }
        (parseReauth_room hparse)).view]
      exact h.keep rfl rfl fun _ => trivial

/-! ## The rules -/

namespace Sm

/-- A response to the request of `INITIATE_REAUTH_START`, which no method has sent, of the type of
`currentMethod`. -/
def reauthStartAnswered (sm : Sm π) : Bool :=
  sm.tryInitiateReauth && sm.m.isNone && sm.rxResp && decide (sm.respId = sm.currentId) &&
    sm.respIs sm.currentMethod && !(sm.respIs typeNak && decide (sm.methodState = .proposed)) &&
    eapHdrLenValid sm.eapRespData 1

def runsLocal (sm : Sm π) : Bool :=
  sm.portEnabled && !sm.eapRestart && decide (sm.numRounds ≤ eapMaxAuthRounds)

end Sm

theorem stepReceived_answered (h : sm.reauthStartAnswered = true) :
    stepReceived lib sm = .error .noMethod := by
  unfold Sm.reauthStartAnswered at h
  simp only [Bool.and_eq_true, decide_eq_true_eq, Bool.not_eq_true', Option.isNone_iff_eq_none] at h
  obtain ⟨⟨⟨⟨⟨⟨-, hm⟩, hrx⟩, hid⟩, htype⟩, hnak⟩, hvalid⟩ := h
  unfold stepReceived
  rw [if_neg, if_pos ⟨hrx, hid, htype⟩]
  · unfold Sm.integrityCheck
    rw [if_neg]
    · rw [show (sm.enter .integrityCheck).m = none from hm]
    · show ¬ (!eapHdrLenValid sm.eapRespData 1) = true
      rw [hvalid]
      decide
  · rintro ⟨-, -, hn, hp⟩
    rw [hn, hp] at hnak
    cases hnak

theorem stepReceived_provided (h : sm.view.Present) (hstate : sm.state = .received)
    (hans : sm.reauthStartAnswered = false) : Provided (stepReceived lib sm) := by
  have htry : sm.m = none → sm.tryInitiateReauth = true := by
    intro hm
    have hmissing := h.missing hm
    unfold View.Missing at hmissing
    rw [show sm.view.state = .received from hstate] at hmissing
    exact hmissing
  unfold stepReceived
  split
  · exact nak_present sm
  rename_i hnak
  split
  · rename_i htype
    unfold Sm.integrityCheck
    split
    · exact h.keep rfl rfl fun hm => ⟨htry hm, rfl⟩
    · rename_i hvalid
      split
      · rename_i hm
        have hm : sm.m = none := hm
        have hvalid : eapHdrLenValid sm.eapRespData 1 = true := by simpa [Sm.enter] using hvalid
        -- all that `reauthStartAnswered` asks for is there
        exfalso
        apply Bool.false_ne_true
        rw [← hans]
        unfold Sm.reauthStartAnswered
        simp only [Bool.and_eq_true, decide_eq_true_eq, Bool.not_eq_true', Option.isNone_iff_eq_none]
        refine ⟨⟨⟨⟨⟨⟨htry hm, hm⟩, htype.1⟩, htype.2.1⟩, htype.2.2⟩, ?_⟩, hvalid⟩
        rw [Bool.eq_false_iff]
        intro hn
        rw [Bool.and_eq_true, decide_eq_true_eq] at hn
        exact hnak ⟨htype.1, htype.2.1, hn.1, hn.2⟩
      · rename_i s hs
        exact View.Present.of_some hs (h.selected s hs)
  · split
    · exact initiateReceived_present h lib.erp
    · exact h.keep rfl rfl htry

theorem stepMethodRequest_present (h : sm.view.Present) : (stepMethodRequest sm).view.Present := by
  unfold stepMethodRequest
  split
  · exact h.keep rfl rfl fun _ => trivial
  · rename_i hm
    have hsome : sm.m ≠ none := fun hnone => hm (Option.isNone_iff_eq_none.mpr hnone)
    dsimp only
    split
    · show ({ (Sm.sendRequest (sm.enter .sendRequest)).view with state := .failure } : View π).Present
      rw [(sendRequest_view _).1]
      exact h.keep rfl rfl fun _ => trivial
    · exact enter_present h .sendRequest sendRequest_view fun hnone => absurd hnone hsome

theorem stepAaaIdle_present (h : sm.view.Present) : (stepAaaIdle sm).view.Present := by
  unfold stepAaaIdle
  split
  · exact h.keep rfl rfl fun _ => trivial
  · split
    · exact h.keep rfl rfl fun _ => trivial
    · split
      · exact h.keep rfl rfl fun _ => trivial
      · split
        · exact h.keep rfl rfl fun _ => trivial
        · exact h

theorem stepLocal_provided (h : sm.view.Present) (rand : UInt8)
    (hans : sm.state = .received → sm.reauthStartAnswered = false) : Provided (stepLocal lib rand sm) := by
  have hmissing := h.missing
  unfold View.Missing at hmissing
  have hview : sm.view.state = sm.state := rfl
  cases hstate : sm.state with
  | received =>
    simp only [stepLocal, hstate]
    exact stepReceived_provided h hstate (hans hstate)
  | initialise =>
    simp only [hview, hstate] at hmissing
    simp only [stepLocal, hstate]
    split
    · exact selectAction_present h _
    · rename_i hback
      split
      · exact nak_present sm
      · refine pickUpMethod_present h fun hm => hmissing hm ?_
        by_contra hb
        have hb : sm.conf.backendAuth = false := Bool.eq_false_of_not_eq_true hb
        exact hback (Or.inl (by rw [hb]; rfl))
  | pickUpMethod =>
    simp only [hview, hstate] at hmissing
    simp only [stepLocal, hstate]
    split
    · exact selectAction_present h _
    · rename_i htype
      exact enterMethodResponse_provided h (fun hm => htype (hmissing hm)) _
  | disabled =>
    simp only [stepLocal, hstate]
    split
    · exact initialise_present rfl
    · exact h
  | idle =>
    simp only [hview, hstate] at hmissing
    simp only [stepLocal, hstate]
    split
    · split
      · exact selectAction_present h _
      · exact enter_present h .retransmit retransmit_view hmissing
    · split
      · exact received_present h hmissing
      · exact h
  | retransmit =>
    simp only [hview, hstate] at hmissing
    simp only [stepLocal, hstate]
    split
    · exact h.keep rfl rfl fun _ => trivial
    · exact h.keep rfl rfl hmissing
  | discard | sendRequest =>
    simp only [hview, hstate] at hmissing
    simp only [stepLocal, hstate]
    exact h.keep rfl rfl hmissing
  | initiateReauthStart =>
    simp only [hview, hstate] at hmissing
    simp only [stepLocal, hstate]
    exact enter_present h .sendRequest sendRequest_view hmissing
  | integrityCheck =>
    simp only [hview, hstate] at hmissing
    simp only [stepLocal, hstate]
    split
    · exact h.keep rfl rfl fun hm => (hmissing hm).1
    · rename_i hignore
      exact enterMethodResponse_provided h (fun hm => hignore (hmissing hm).2) _
  | methodRequest =>
    simp only [stepLocal, hstate]
    exact stepMethodRequest_present h
  | methodResponse =>
    simp only [hview, hstate] at hmissing
    simp only [stepLocal, hstate]
    unfold stepMethodResponse
    split
    · exact selectAction_present h _
    · split
      · exact h
      · exact enterMethodResponse_provided h hmissing _
      · exact methodRequest_present h rand
  | proposeMethod =>
    simp only [stepLocal, hstate]
    unfold stepProposeMethod
    split
    · exact h
    · exact proposeMethod_provided lib rfl
    · exact methodRequest_present h rand
  | nak =>
    simp only [stepLocal, hstate]
    exact selectAction_present h _
  | selectAction =>
    simp only [stepLocal, hstate]
    unfold stepSelectAction
    split
    · exact h.keep rfl rfl fun _ => trivial
    · exact h.keep rfl rfl fun _ => trivial
    · exact h.keep rfl rfl fun _ => trivial
    · exact h.keep rfl rfl fun _ => rfl
    · split
      · exact initiateReceived_present h lib.erp
      · exact proposeMethod_provided lib rfl
  | initiateReceived =>
    simp only [stepLocal, hstate]
    split
    · exact selectAction_present h _
    · exact h
  | idle2 =>
    simp only [stepLocal, hstate]
    split
    · exact received2_present h
    · split
      · exact enter_present h .retransmit2 retransmit_view fun _ => trivial
      · exact h
  | initializePassthrough | retransmit2 | received2 =>
    simp only [stepLocal, hstate]
    split
    · exact h.keep rfl rfl fun _ => trivial
    · exact h.keep rfl rfl fun _ => trivial
  | discard2 | sendRequest2 | aaaRequest =>
    simp only [stepLocal, hstate]
    exact h.keep rfl rfl fun _ => trivial
  | aaaResponse =>
    simp only [stepLocal, hstate]
    exact enter_present h .sendRequest2 sendRequest_view fun _ => trivial
  | aaaIdle =>
    simp only [stepLocal, hstate]
    exact stepAaaIdle_present h
  | timeoutFailure | failure | success | timeoutFailure2 | failure2 | success2 =>
    simp only [stepLocal, hstate]
    exact h

theorem smStep_provided (h : sm.view.Present) (rand : UInt8)
    (hans : sm.runsLocal = true → sm.state = .received → sm.reauthStartAnswered = false) :
    Provided (smStep lib rand sm) := by
  have h₀ : ({ sm with changed := false } : Sm π).view.Present := h
  unfold smStep
  dsimp only
  split
  · exact initialise_present rfl
  · rename_i hrestart
    split
    · exact h.keep rfl rfl fun _ => trivial
    · rename_i hport
      split
      · split
        · exact h.keep rfl rfl fun _ => trivial
        · exact h
      · rename_i hrounds
        refine stepLocal_provided h₀ rand (hans ?_)
        have hport : sm.portEnabled = true := by simpa using hport
        have hrestart : sm.eapRestart = false := by
          by_contra hr
          exact hrestart ⟨Bool.eq_true_of_not_eq_false hr, hport⟩
        unfold Sm.runsLocal
        rw [hport, hrestart]
        exact decide_eq_true (Nat.not_lt.mp hrounds)

theorem smStep_answered (hlocal : sm.runsLocal = true) (hstate : sm.state = .received)
    (hans : sm.reauthStartAnswered = true) (rand : UInt8) : smStep lib rand sm = .error .noMethod := by
  unfold Sm.runsLocal at hlocal
  simp only [Bool.and_eq_true, decide_eq_true_eq, Bool.not_eq_true'] at hlocal
  obtain ⟨⟨hport, hrestart⟩, hrounds⟩ := hlocal
  unfold smStep
  dsimp only
  rw [if_neg, if_neg, if_neg]
  · simp only [stepLocal, hstate]
    exact stepReceived_answered hans
  · exact Nat.not_lt.mpr hrounds
  · rw [hport]
    decide
  · rintro ⟨hr, -⟩
    rw [hrestart] at hr
    cases hr

/-! ## Runs -/

/-- The event has a response to the request of `INITIATE_REAUTH_START` processed. -/
def answersReauthStart (sm : Sm π) : Event → Bool
  | .smStep _ => sm.runsLocal && sm.state == .received && sm.reauthStartAnswered
  | _ => false

/-- A step calls no function of a method without one, and a method is the one of `currentMethod`. -/
def MethodPresent (lib : EapServerLib π) (sm : Sm π) (e : Event) : Prop :=
  step lib sm e ≠ .error .noMethod ∧ ∀ s, sm.m = some s → sm.currentMethod = methodType s.method.id

theorem step_provided (h : sm.view.Present) {e : Event} (hans : answersReauthStart sm e = false) :
    Provided (step lib sm e) := by
  cases e with
  | smStep rand =>
    refine smStep_provided h rand fun hlocal hstate => ?_
    by_contra hne
    have hans : (sm.runsLocal && sm.state == .received && sm.reauthStartAnswered) = false := hans
    rw [hlocal, hstate, Bool.eq_true_of_not_eq_false hne] at hans
    cases hans
  | clearResult =>
    show Provided (.ok (if sm.eapFail then _ else _))
    split <;> exact h
  | pendingCb =>
    show Provided (.ok (if sm.methodPending = .wait then _ else _))
    split <;> exact h
  | notifyCached => exact h.keep rfl rfl fun _ => trivial
  | erpAccept keyname seq cryptosuite =>
    show (sm.erpAccept keyname seq cryptosuite).view.Present
    rw [erpAccept_view]
    exact h.keep rfl rfl h.missing
  | receive | clearKeyAvailable | clearIdentity | aaaSuccess | aaaSend | erpAdd | erpRemove | eapResp
  | clearEapReq | clearEapNoReq | tick | eapRestart | portEnabled | aaaEapReq | aaaFail | aaaTimeout =>
    exact h.keep rfl rfl h.missing

theorem step_answered {e : Event} (hans : answersReauthStart sm e = true) :
    step lib sm e = .error .noMethod := by
  cases e with
  | smStep rand =>
    simp only [answersReauthStart, Bool.and_eq_true, beq_iff_eq] at hans
    exact smStep_answered hans.1.1 hans.1.2 hans.2 rand
  | _ => cases hans

theorem reach_present {C : Sm π → Event → Prop} {conf : EapConf} {evs : List Event}
    (hreach : Run.Reach (step lib) C (initSm conf) evs sm) : sm.view.Present := by
  refine hreach.invariant (I := fun sm => sm.view.Present) ?_ fun sm e sm' h _ hstep => ?_
  · exact View.Present.of_none rfl trivial
  · cases hans : answersReauthStart sm e with
    | true =>
      rw [step_answered hans] at hstep
      cases hstep
    | false =>
      have hprov : Provided (step lib sm e) := step_provided h hans
      rw [hstep] at hprov
      exact hprov

/-- Whatever packets and signals there are, a step calls a function of a method without one exactly when it
processes a response of the type of `currentMethod` to the EAP-Initiate/Re-auth-Start of a machine without a
method, and a method is always the one of `currentMethod`. -/
theorem method_present {conf : EapConf} {evs : List Event} {e : Event}
    (hreach : Run.Reach (step lib) (fun sm e => taken sm e = true) (initSm conf) evs sm) :
    MethodPresent lib sm e ↔ answersReauthStart sm e = false := by
  have hpresent := reach_present hreach
  constructor
  · intro h
    by_contra hans
    exact h.1 (step_answered (Bool.eq_true_of_not_eq_false hans))
  · intro hans
    refine ⟨fun herr => ?_, hpresent.selected⟩
    have hprov : Provided (step lib sm e) := step_provided hpresent hans
    rw [herr] at hprov
    exact hprov rfl

theorem method_present_small : ∃ sm : Sm Nat,
    Run.Reach (step smallEapLib) (fun sm e => taken sm e = true) (initSm smallServerConf) smallServerRun sm ∧
      sm.m.isSome = true ∧ MethodPresent smallEapLib sm (.smStep 0) := by
  obtain ⟨sm, hreach, hsm⟩ := Run.reach_of_runWhile_any (step smallEapLib) (fun sm e => taken sm e = true)
    (initSm smallServerConf) smallServerRun
    (fun sm => sm.m.isSome && !answersReauthStart sm (.smStep 0)) (by decide +kernel)
  rw [Bool.and_eq_true, Bool.not_eq_true'] at hsm
  exact ⟨sm, hreach, hsm.1, (method_present hreach).mpr hsm.2⟩

def smallReauthStartConf : EapConf := { smallServerConf with erpSendReauthStart := true }

def smallReauthStartRun : List Event :=
  .portEnabled true :: rounds 6 ++ .clearEapReq :: packet [2, 1, 0, 5, 0] ++ rounds 1

/-- A response of type 0 to the Re-auth-Start leads to a call without a method. -/
theorem method_missing : ∃ sm : Sm Nat,
    Run.Reach (step smallEapLib) (fun sm e => taken sm e = true) (initSm smallReauthStartConf)
        smallReauthStartRun sm ∧
      sm.m = none ∧ sm.currentMethod = typeNone ∧ step smallEapLib sm (.smStep 0) = .error .noMethod ∧
      ¬ MethodPresent smallEapLib sm (.smStep 0) := by
  obtain ⟨sm, hreach, hsm⟩ := Run.reach_of_runWhile_any (step smallEapLib) (fun sm e => taken sm e = true)
    (initSm smallReauthStartConf) smallReauthStartRun
    (fun sm => decide (sm.m.isNone = true ∧ sm.currentMethod = typeNone ∧
      answersReauthStart sm (.smStep 0) = true))
    (by decide +kernel)
  obtain ⟨hm, htype, hans⟩ := of_decide_eq_true hsm
  have hstep : step smallEapLib sm (.smStep 0) = .error .noMethod := step_answered hans
  exact ⟨sm, hreach, Option.isNone_iff_eq_none.mp hm, htype, hstep, fun h => h.1 hstep⟩

end EapServer

end Hostap
