import Hostap.Eap.ServerSteps
import Hostap.Lib.Run

/-!
# What the EAP server takes for an authentication

`eapSuccess` is raised in three places: in `SUCCESS`, in `SUCCESS2` and when a re-authentication is finished.
`eapSuccess_raised` goes over all runs of the machine and says what each of them stands for.

Two variables are not reset between sessions. `aaaEapKeyData` of an earlier result of the AAA server stays
when the next result has no key, which `eapSuccess_old_key` shows; and `rxInitiate` stays when the last
round that is allowed is an EAP-Initiate, whatever packet comes after it. The runs of the result are those
in which neither matters.
-/

namespace Hostap

namespace EapServer

open Octets Erp

variable {π : Type} {lib : EapServerLib π} {sm sm' : Sm π}

/-! ## A step -/

theorem Good.refl (h : sm.view.Inv) (hstate : sm.state.parsing = false) : Good lib sm sm :=
  Good.of_inv h hstate rfl

theorem stepInitialise_good (h : sm.view.Inv) (hrounds : sm.numRounds ≤ eapMaxAuthRounds)
    (hstate : sm.state = .initialise) {rand : UInt8}
    (hstep : stepLocal lib rand sm = .ok sm') : Good lib sm sm' := by
  obtain ⟨hm, hid⟩ := h.initialised hstate
  have hm : sm.m = none := hm
  have hkey : sm.eapKeyAvailable = false := by
    by_contra hk
    have hh := h.keyAvailable (Bool.eq_true_of_not_eq_false hk)
    simp [View.halted, Sm.view, hstate] at hh
  simp only [stepLocal, hstate] at hstep
  split at hstep
  · cases hstep
    refine selectAction_good h hkey (Nat.le_succ_of_le hrounds) (fun s hs => ?_)
      (fun hserver _ => ⟨hm, hid ?_⟩) fun ht => ht
    · have hs : sm.m = some s := hs.1
      rw [hm] at hs
      cases hs
    · by_contra hback
      have hs := sm.conf.served (Bool.eq_true_of_not_eq_false hback)
      rw [hserver] at hs
      cases hs
  · rename_i hback
    have hserver : sm.conf.eapServer = true := by
      apply sm.conf.served
      by_contra hb
      exact hback (Or.inl (by simp [Bool.eq_false_of_not_eq_true hb]))
    have hcalm : sm.view.Calm :=
      { key := hkey
        start := fun hs => by
          have hs : sm.conf.eapServer = false := hs
          rw [hserver] at hs
          cases hs
        rounds := Nat.le_succ_of_le hrounds }
    split at hstep
    · cases hstep
      exact nak_good h hcalm
    · cases hstep
      exact pickUpMethod_good h hcalm hstate

theorem stepMethodResponse_good (h : sm.view.Inv) (hcalm : sm.view.Calm) (hstate : sm.state = .methodResponse)
    {rand : UInt8} (hstep : stepMethodResponse lib rand sm = .ok sm') : Good lib sm sm' := by
  unfold stepMethodResponse at hstep
  split at hstep
  · rename_i hended
    cases hstep
    exact selectAction_good h hcalm.key hcalm.rounds (fun s hs => (h.works s hs).ended hstate hended)
      (fun hserver hstart => absurd hstart (hcalm.not_start hserver)) fun ht => ht
  · rename_i hended
    split at hstep
    · cases hstep
      refine Good.refl h ?_
      rw [hstate]
      rfl
    · exact methodResponse_good h hcalm _ (fun s hs => Or.inr ⟨(h.works s hs).answered hstate, hended⟩) hstep
    · cases hstep
      exact methodRequest_good h hcalm rand

theorem stepProposeMethod_good (h : sm.view.Inv) (hcalm : sm.view.Calm) (hstate : sm.state = .proposeMethod)
    {rand : UInt8} (hstep : stepProposeMethod lib rand sm = .ok sm') : Good lib sm sm' := by
  unfold stepProposeMethod at hstep
  split at hstep
  · cases hstep
    refine Good.of_inv h ?_ rfl
    show sm.state.parsing = false
    rw [hstate]
    rfl
  · exact proposeMethod_good h hcalm _ (fun hserver => (h.identityOnly hserver).proposes hstate) hstep
  · cases hstep
    exact methodRequest_good h hcalm rand

theorem stepReceived_good (h : sm.view.Inv) (hcalm : sm.view.Calm) (hstate : sm.state = .received)
    (hstep : stepReceived lib sm = .ok sm') : Good lib sm sm' := by
  unfold stepReceived at hstep
  split at hstep
  · cases hstep
    exact nak_good h hcalm
  · split at hstep
    · rename_i hrx
      exact integrityCheck_good h hcalm hstate hrx.1 hrx.2.1 hstep
    · split at hstep
      · rename_i hrx
        cases hstep
        exact initiateReceived_good h hcalm (h.initiate hstate hrx)
      · cases hstep
        refine Good.move h hcalm rfl rfl rfl (fun _ => Or.inl ?_) rfl
        rw [hstate]
        rfl

/-- A packet that was parsed as an EAP-Initiate has not been replaced when `SELECT_ACTION` has it looked at. -/
def PacketKept (sm : Sm π) : Prop :=
  sm.state = .selectAction ∧ sm.decision = .continue ∧ sm.conf.eapServer = true ∧ sm.conf.erp = true ∧
    sm.rxInitiate = true → (sm.eapRespData.getD []).getD 0 0 = codeInitiate

theorem stepSelectAction_good (h : sm.view.Inv) (hcalm : sm.view.Calm) (hcode : PacketKept sm)
    (hstate : sm.state = .selectAction) {rand : UInt8}
    (hstep : stepSelectAction lib rand sm = .ok sm') : Good lib sm sm' := by
  unfold stepSelectAction at hstep
  split at hstep
  · cases hstep
    exact failure_good h hcalm
  · rename_i hdecision
    cases hstep
    exact success_good h hcalm hstate hdecision
  · cases hstep
    refine Good.rests h ?_ rfl
    exact View.Rests.of_calm hcalm rfl (fun _ hs => hs) rfl rfl rfl nofun
      nofun nofun rfl rfl rfl h.bounded
  · rename_i hdecision
    cases hstep
    exact initiateReauthStart_good h hcalm hstate hdecision rand
  · rename_i hdecision
    split at hstep
    · rename_i hrx
      cases hstep
      exact initiateReceived_good h hcalm (hcode ⟨hstate, hdecision, hrx⟩)
    · exact proposeMethod_good h hcalm _
        (fun hserver => (h.identityOnly hserver).decided hstate hdecision) hstep

/-- The states from which a success, or the start, is not left behind. -/
def EapState.resting : EapState → Bool
  | .initialise | .success | .success2 | .failure | .disabled | .initiateReceived => true
  | _ => false

theorem resting_of_halted {v : View π} (h : v.halted = true) : v.state.resting = true := by
  unfold View.halted at h
  unfold EapState.resting
  split at h <;> simp_all

theorem calm_of_state (h : sm.view.Inv) (hrounds : sm.numRounds ≤ eapMaxAuthRounds) {state : EapState}
    (hstate : sm.state = state) (hrest : state.resting = false) : sm.view.Calm := by
  refine h.calm ?_ ?_ hrounds
  · by_contra hh
    have hr : sm.state.resting = true := resting_of_halted (Bool.eq_true_of_not_eq_false hh)
    rw [hstate, hrest] at hr
    cases hr
  · intro hinit
    have hinit : sm.state = .initialise := hinit
    rw [← hstate, hinit] at hrest
    cases hrest

theorem initialise_good (h : sm.view.Inv) (changed : Bool) :
    Good lib sm ({ sm with state := .initialise, changed } : Sm π).initialise := by
  unfold Sm.initialise
  dsimp only
  split
  · rename_i hback
    have hparsed := Sm.parseEapResp_parsed
      { Sm.resetVars { sm with state := .initialise, changed } with currentMethod := typeNone }
    generalize Sm.parseEapResp _ = sm₁ at hparsed ⊢
    obtain ⟨hview, heap, hchanged, hresp, hinit⟩ := hparsed
    have hstate : sm₁.state = .initialise := congrArg View.state hview
    have hconf : sm₁.conf = sm.conf := congrArg View.conf hview
    have hm : sm₁.m = none := congrArg View.m hview
    have hreauth : sm₁.tryInitiateReauth = false := congrArg View.tryInitiateReauth hview
    have hrounds : sm₁.numRounds = 0 := congrArg View.numRounds hview
    have hkey : sm₁.eapKeyAvailable = false := congrArg View.eapKeyAvailable hview
    have hkeys : sm₁.erpKeys = sm.erpKeys := congrArg View.erpKeys hview
    refine ⟨h.initialise hstate hm (fun hb => ?_) hreauth hrounds hkey hkeys, fun hst => ?_, fun hs => ?_⟩
    · have hb : sm₁.conf.backendAuth = false := hb
      have hback : sm.conf.backendAuth = true := hback
      rw [hconf, hback] at hb
      cases hb
    · have hst : sm₁.state.parsing = true := hst
      rw [hstate] at hst
      cases hst
    · have hs : sm₁.eapSuccess = true := hs
      rw [heap] at hs
      cases hs
  · rename_i hback
    exact ⟨h.initialise rfl rfl (fun _ => rfl) rfl rfl rfl rfl, nofun,
      nofun⟩

theorem stepLocal_good (h : sm.view.Inv) (hcode : PacketKept sm) (hrounds : sm.numRounds ≤ eapMaxAuthRounds)
    {rand : UInt8} (hstep : stepLocal lib rand sm = .ok sm') : Good lib sm sm' := by
  have hnostart : sm.view.Calm → sm.conf.eapServer = false → sm.startReauth = true →
      sm.m = none ∧ sm.currentId = none :=
    fun hcalm hserver hstart => absurd hstart (hcalm.not_start hserver)
  cases hstate : sm.state with
  | initialise => exact stepInitialise_good h hrounds hstate hstep
  | pickUpMethod =>
    have hcalm := calm_of_state h hrounds hstate rfl
    have hnone : ∀ s, ¬ sm.view.Working s := fun s hs => by
      have hb := (h.works s hs).allowed
      rw [show sm.view.state = .pickUpMethod from hstate] at hb
      cases hb
    simp only [stepLocal, hstate] at hstep
    split at hstep
    · cases hstep
      exact selectAction_good h hcalm.key hcalm.rounds (fun s hs => absurd hs (hnone s)) (hnostart hcalm)
        fun ht => ht
    · exact methodResponse_good h hcalm _ (fun s hs => absurd hs (hnone s)) hstep
  | disabled =>
    simp only [stepLocal, hstate] at hstep
    split at hstep
    · cases hstep
      exact initialise_good h true
    · cases hstep
      exact Good.refl h (by rw [hstate]; rfl)
  | idle =>
    have hcalm := calm_of_state h hrounds hstate rfl
    have hawaiting : sm.state.awaiting = true := by
      rw [hstate]
      rfl
    simp only [stepLocal, hstate] at hstep
    split at hstep
    · split at hstep
      · rename_i htry
        cases hstep
        exact selectAction_good h hcalm.key hcalm.rounds (fun s hs => absurd hs (h.reauth htry s))
          (hnostart hcalm)
          nofun
      · cases hstep
        exact Good.enter h hcalm .retransmit retransmit_view rfl rfl fun _ => Or.inl hawaiting
    · split at hstep
      · cases hstep
        exact received_good h hcalm hrounds hawaiting
      · cases hstep
        exact Good.refl h (by rw [hstate]; rfl)
  | retransmit =>
    have hcalm := calm_of_state h hrounds hstate rfl
    simp only [stepLocal, hstate] at hstep
    split at hstep
    · cases hstep
      exact Good.move h hcalm rfl rfl rfl nofun rfl
    · cases hstep
      exact Good.move h hcalm rfl rfl rfl (fun _ => Or.inl (by rw [hstate]; rfl)) rfl
  | received =>
    simp only [stepLocal, hstate] at hstep
    exact stepReceived_good h (calm_of_state h hrounds hstate rfl) hstate hstep
  | discard =>
    simp only [stepLocal, hstate] at hstep
    cases hstep
    exact Good.move h (calm_of_state h hrounds hstate rfl) rfl rfl rfl
      (fun _ => Or.inl (by rw [hstate]; rfl)) rfl
  | sendRequest =>
    simp only [stepLocal, hstate] at hstep
    cases hstep
    exact Good.move h (calm_of_state h hrounds hstate rfl) rfl rfl rfl
      (fun _ => Or.inl (by rw [hstate]; rfl)) rfl
  | integrityCheck =>
    have hcalm := calm_of_state h hrounds hstate rfl
    obtain ⟨hrx, hid, hvalid⟩ := h.checked hstate
    simp only [stepLocal, hstate] at hstep
    split at hstep
    · cases hstep
      exact Good.move h hcalm rfl rfl rfl (fun _ => Or.inl (by rw [hstate]; rfl)) rfl
    · rename_i hignore
      refine methodResponse_good h hcalm _
        (fun s hs => Or.inl ⟨hvalid (Bool.eq_false_of_not_eq_true hignore), ?_⟩) hstep
      have hlast := (h.works s hs).awaiting (show sm.state.awaiting = true by rw [hstate]; rfl)
      exact hlast.trans (hid.symm.trans (h.received (Or.inr hstate) hrx))
  | methodRequest =>
    simp only [stepLocal, hstate] at hstep
    cases hstep
    exact stepMethodRequest_good h (calm_of_state h hrounds hstate rfl) hstate
  | methodResponse =>
    simp only [stepLocal, hstate] at hstep
    exact stepMethodResponse_good h (calm_of_state h hrounds hstate rfl) hstate hstep
  | proposeMethod =>
    simp only [stepLocal, hstate] at hstep
    exact stepProposeMethod_good h (calm_of_state h hrounds hstate rfl) hstate hstep
  | nak =>
    have hcalm := calm_of_state h hrounds hstate rfl
    simp only [stepLocal, hstate] at hstep
    cases hstep
    refine selectAction_good h hcalm.key hcalm.rounds (fun s hs => ?_) (hnostart hcalm) fun ht => ht
    have hb := (h.works s hs).allowed
    rw [show sm.view.state = .nak from hstate] at hb
    cases hb
  | selectAction =>
    simp only [stepLocal, hstate] at hstep
    exact stepSelectAction_good h (calm_of_state h hrounds hstate rfl) hcode hstate hstep
  | initiateReauthStart =>
    simp only [stepLocal, hstate] at hstep
    cases hstep
    exact Good.enter h (calm_of_state h hrounds hstate rfl) .sendRequest sendRequest_view rfl rfl
      fun _ => Or.inr (by rw [hstate]; rfl)
  | initiateReceived =>
    simp only [stepLocal, hstate] at hstep
    split at hstep
    · rename_i hserver
      have hserver : sm.conf.eapServer = false := by simpa using hserver
      have hcalm : sm.view.Calm := by
        refine h.calm ?_ ?_ hrounds
        · unfold View.halted
          simp only [Sm.view, hstate]
          exact hserver
        · intro hinit
          have hinit : sm.state = .initialise := hinit
          rw [hstate] at hinit
          cases hinit
      cases hstep
      exact selectAction_good h hcalm.key hcalm.rounds (fun s hs => absurd hs ((h.identityOnly hserver).idle s))
        (hnostart hcalm) fun ht => ht
    · cases hstep
      exact Good.refl h (by rw [hstate]; rfl)
  | initializePassthrough =>
    have hcalm := calm_of_state h hrounds hstate rfl
    simp only [stepLocal, hstate] at hstep
    split at hstep
    · cases hstep
      exact Good.of_inv (h.aaaIdle hcalm) rfl rfl
    · cases hstep
      exact Good.move h hcalm rfl rfl rfl nofun rfl
  | idle2 =>
    have hcalm := calm_of_state h hrounds hstate rfl
    simp only [stepLocal, hstate] at hstep
    split at hstep
    · cases hstep
      exact received2_good h hcalm
    · split at hstep
      · cases hstep
        exact Good.enter h hcalm .retransmit2 retransmit_view rfl rfl nofun
      · cases hstep
        exact Good.refl h (by rw [hstate]; rfl)
  | retransmit2 =>
    have hcalm := calm_of_state h hrounds hstate rfl
    simp only [stepLocal, hstate] at hstep
    split at hstep
    · cases hstep
      exact Good.move h hcalm rfl rfl rfl nofun rfl
    · cases hstep
      exact Good.move h hcalm rfl rfl rfl nofun rfl
  | received2 =>
    have hcalm := calm_of_state h hrounds hstate rfl
    simp only [stepLocal, hstate] at hstep
    split at hstep
    · cases hstep
      exact Good.move h hcalm rfl rfl rfl nofun rfl
    · cases hstep
      exact Good.move h hcalm rfl rfl rfl nofun rfl
  | discard2 =>
    simp only [stepLocal, hstate] at hstep
    cases hstep
    exact Good.move h (calm_of_state h hrounds hstate rfl) rfl rfl rfl nofun rfl
  | sendRequest2 =>
    simp only [stepLocal, hstate] at hstep
    cases hstep
    exact Good.move h (calm_of_state h hrounds hstate rfl) rfl rfl rfl nofun rfl
  | aaaRequest =>
    simp only [stepLocal, hstate] at hstep
    cases hstep
    exact Good.of_inv (h.aaaIdle (calm_of_state h hrounds hstate rfl)) rfl rfl
  | aaaResponse =>
    simp only [stepLocal, hstate] at hstep
    cases hstep
    exact Good.enter h (calm_of_state h hrounds hstate rfl) .sendRequest2 sendRequest_view rfl rfl
      nofun
  | aaaIdle =>
    simp only [stepLocal, hstate] at hstep
    cases hstep
    exact stepAaaIdle_good h (calm_of_state h hrounds hstate rfl) hstate
  | timeoutFailure | failure | success | timeoutFailure2 | failure2 | success2 =>
    simp only [stepLocal, hstate] at hstep
    cases hstep
    exact Good.refl h (by rw [hstate]; rfl)

theorem Good.of_changed (h : Good lib { sm with changed := false } sm') : Good lib sm sm' where
  inv := h.inv
  settled := h.settled
  raised := fun hs => by
    rcases h.raised hs with hs | hr
    · exact Or.inl hs
    · cases hr with
      | method s hm hid hanswered hsuccess hkey => exact Or.inr (.method s hm hid hanswered hsuccess hkey)
      | aaa key hstate hlast hkey => exact Or.inr (.aaa key hstate hlast hkey)
      | erp erp r hre hdata =>
        exact Or.inr (.erp erp r ⟨hre.stored, hre.named, hre.code, hre.parsed, hre.tagged, hre.fresh⟩ hdata)

theorem smStep_good (h : sm.view.Inv) (hcode : PacketKept sm) {rand : UInt8}
    (hstep : smStep lib rand sm = .ok sm') : Good lib sm sm' := by
  have h₀ : ({ sm with changed := false } : Sm π).view.Inv := h
  unfold smStep at hstep
  dsimp only at hstep
  apply Good.of_changed
  split at hstep
  · cases hstep
    exact initialise_good h₀ _
  · split at hstep
    · cases hstep
      exact Good.of_inv (h₀.halt rfl (Or.inr (Or.inr (Or.inr rfl))) nofun) rfl rfl
    · split at hstep
      · split at hstep
        · cases hstep
          exact Good.of_inv (h₀.halt rfl (Or.inr (Or.inr (Or.inl rfl))) fun _ => Or.inl rfl) rfl rfl
        · -- the rounds have been used up before
          rename_i hrounds hmore
          cases hstep
          refine Good.refl h₀ ?_
          have hstate : sm.state = .failure ∨ sm.state = .success := h.rounds (by
            show sm.numRounds > _
            have hr : sm.numRounds > eapMaxAuthRounds := hrounds
            have hm : sm.numRounds ≠ eapMaxAuthRounds + 1 := hmore
            omega)
          show sm.state.parsing = false
          rcases hstate with hstate | hstate <;> (rw [hstate]; rfl)
      · rename_i hrounds
        exact stepLocal_good h₀ hcode (Nat.not_lt.mp hrounds) hstep

/-! ## Runs -/

theorem initSm_inv (conf : EapConf) : (initSm conf : Sm π).view.Inv where
  selected := nofun
  works := fun _ hs => by cases hs.1
  identityOnly := fun _ =>
    { idle := fun _ hs => by cases hs.1
      startReauth := nofun
      decided := nofun
      proposes := nofun }
  reauth := nofun
  initialised := nofun
  succeeds := nofun
  received := fun hst => by rcases hst with hst | hst <;> cases hst
  checked := nofun
  rounds := nofun
  keyAvailable := nofun
  aaaSuccess := nofun
  bounded := nofun
  initiate := nofun

theorem View.Inv.outside {v w : View π} (h : v.Inv) (hparsing : v.state.parsing = false)
    (hw : w = { v with
      eapRespData := w.eapRespData, identity := w.identity, aaaSuccess := w.aaaSuccess
      aaaEapKeyData := w.aaaEapKeyData, erpKeys := w.erpKeys, eapKeyAvailable := w.eapKeyAvailable, log :=
      w.log })
    (hkey : w.eapKeyAvailable = true → v.eapKeyAvailable = true)
    (hlog : w.log = v.log ∨ v.state = .aaaIdle ∧ ∃ key, w.log = .aaaSuccess key :: v.log)
    (hidentity : w.identity = none ∨ w.identity = v.identity ∨ v.state = .aaaIdle)
    (haaa : v.state = .aaaIdle → w.aaaSuccess = true → lastAaaSuccess w.log = some w.aaaEapKeyData)
    (hkeys : ∀ erp ∈ w.erpKeys, erp.Bounded) : w.Inv := by
  generalize w.eapRespData = eapRespData, w.identity = identity, w.aaaSuccess = aaaSuccess,
    w.aaaEapKeyData = aaaEapKeyData, w.erpKeys = erpKeys, w.eapKeyAvailable = eapKeyAvailable, w.log = log at *
  subst hw
  have hasks : v.state ≠ .aaaIdle → v.asksIdentity = true →
      (identity.isNone || v.currentId.isNone) = true := by
    intro hne ha
    rcases hidentity with rfl | rfl | hst
    · rfl
    · exact ha
    · exact absurd hst hne
  exact {
    selected := h.selected
    works := fun s hs => by
      have hw := h.works s hs
      rcases hlog with rfl | ⟨hst, key, rfl⟩
      · exact {
          chosen := hw.chosen
          allowed := hw.allowed
          awaiting := hw.awaiting
          answered := hw.answered
          ended := fun hst he =>
            have hf := hw.ended hst he
            ⟨hf.answered, hf.done, hf.isDone⟩
          finished := fun hst =>
            have hf := hw.finished hst
            ⟨hf.answered, hf.done, hf.isDone⟩
          decided := hw.decided }
      · have hne : ∀ st : EapState, st ≠ .aaaIdle → v.state ≠ st := fun st hst' h => hst' (h.symm.trans hst)
        exact {
          chosen := hw.chosen.cons rfl
          allowed := hw.allowed
          awaiting := fun ha => by
            have ha : v.state.awaiting = true := ha
            rw [hst] at ha
            cases ha
          answered := fun h => absurd h (hne _ (by decide))
          ended := fun h => absurd h (hne _ (by decide))
          finished := fun h => absurd h (hne _ (by decide))
          decided := fun h => absurd h (hne _ (by decide)) }
    identityOnly := fun hserver =>
      have ho := h.identityOnly hserver
      { idle := ho.idle
        startReauth := ho.startReauth
        decided := fun hst hd => hasks (fun h => by rw [show v.state = .selectAction from hst] at h; cases h)
          (ho.decided hst hd)
        proposes := fun hst => hasks (fun h => by rw [show v.state = .proposeMethod from hst] at h; cases h)
          (ho.proposes hst) }
    reauth := h.reauth
    initialised := h.initialised
    succeeds := h.succeeds
    received := fun hst => by
      rcases hst with hst | hst <;>
        (rw [show v.state = _ from hst] at hparsing; cases hparsing)
    checked := fun hst => by
      rw [show v.state = _ from hst] at hparsing
      cases hparsing
    rounds := h.rounds
    keyAvailable := fun hk => h.keyAvailable (hkey hk)
    aaaSuccess := haaa
    bounded := hkeys
    initiate := fun hst => by
      rw [show v.state = _ from hst] at hparsing
      cases hparsing }

instance (sm : Sm π) : Decidable (PacketKept sm) := inferInstanceAs (Decidable (_ → _))

/-- What keeps sessions apart: the packet for `INITIATE_RECEIVED` is the one that was parsed, and the AAA
server gives a key with a result that `AAA_IDLE` is waiting for, unless it never gave one. -/
def separate (sm : Sm π) : Event → Bool
  | .smStep _ => decide (PacketKept sm)
  | .aaaSuccess _ key => sm.state != .aaaIdle || key.isSome || sm.aaaEapKeyData.isNone
  | _ => true

abbrev Cleanly (sm : Sm π) (e : Event) : Prop := taken sm e = true ∧ separate sm e = true

/-- What is known of every state. -/
structure Wf (sm : Sm π) : Prop where
  inv : sm.view.Inv
  settled : sm.state.parsing = true → sm.changed = true

theorem Wf.not_parsing (h : Wf sm) (hchanged : (!sm.changed) = true) : sm.state.parsing = false := by
  by_contra hp
  have hc := h.settled (Bool.eq_true_of_not_eq_false hp)
  rw [hc] at hchanged
  cases hchanged

theorem Wf.same (h : Wf sm) (hview : sm'.view = sm.view) (hchanged : sm'.changed = sm.changed) : Wf sm' where
  inv := hview ▸ h.inv
  settled := fun hp => by
    have hstate : sm'.state = sm.state := congrArg View.state hview
    rw [hstate] at hp
    rw [hchanged]
    exact h.settled hp

theorem Wf.of_inv (h : sm'.view.Inv) (hparsing : sm'.state.parsing = false) : Wf sm' where
  inv := h
  settled := fun hp => by
    rw [hparsing] at hp
    cases hp

theorem erpAccept_bounded (h : ∀ erp ∈ sm.erpKeys, erp.Bounded) {keyname : Bytes} {seq : Nat}
    {cryptosuite : UInt8} :
    ∀ erp ∈ (sm.erpAccept keyname seq cryptosuite).erpKeys, erp.Bounded := by
  unfold Sm.erpAccept
  split
  · exact h
  · rename_i erp hget
    split
    · exact h
    · rename_i hseq
      refine erpUpdateKey_bounded h fun key hkey => ?_
      rw [hget] at hkey
      cases hkey
      have hbounded : ({ erp with cryptosuite } : ErpServerKey).Bounded := h erp (erpGetKey_mem hget).1
      exact hbounded.accept hseq

theorem erpAccept_view (sm : Sm π) (keyname : Bytes) (seq : Nat) (cryptosuite : UInt8) :
    (sm.erpAccept keyname seq cryptosuite).view =
      { sm.view with erpKeys := (sm.erpAccept keyname seq cryptosuite).erpKeys } := by
  unfold Sm.erpAccept
  split
  · rfl
  · split
    · rfl
    · rfl

theorem step_wf (h : Wf sm) {e : Event} (hc : Cleanly sm e) (hstep : step lib sm e = .ok sm') : Wf sm' := by
  obtain ⟨htaken, hsep⟩ := hc
  cases e with
  | smStep rand =>
    have hgood := smStep_good h.inv (of_decide_eq_true hsep) hstep
    exact ⟨hgood.inv, hgood.settled⟩
  | receive resp =>
    have hp := h.not_parsing htaken
    cases hstep
    exact Wf.of_inv (h.inv.outside hp rfl (fun hk => hk) (Or.inl rfl) (Or.inr (Or.inl rfl)) h.inv.aaaSuccess
      h.inv.bounded) hp
  | clearKeyAvailable =>
    have hp := h.not_parsing htaken
    cases hstep
    exact Wf.of_inv (h.inv.outside hp rfl nofun (Or.inl rfl) (Or.inr (Or.inl rfl))
      h.inv.aaaSuccess h.inv.bounded) hp
  | clearIdentity =>
    have hp := h.not_parsing htaken
    cases hstep
    exact Wf.of_inv (h.inv.outside hp rfl (fun hk => hk) (Or.inl rfl) (Or.inl rfl) h.inv.aaaSuccess
      h.inv.bounded) hp
  | aaaSuccess req key =>
    have hp := h.not_parsing htaken
    cases hstep
    refine Wf.of_inv ?_ hp
    have hkey : sm.state = .aaaIdle → (key.orElse fun _ => sm.aaaEapKeyData) = key := by
      intro hstate
      cases key with
      | some key => rfl
      | none =>
        have hnone : sm.aaaEapKeyData = none := by simpa [separate, hstate] using hsep
        rw [hnone]
        rfl
    refine h.inv.outside hp rfl (fun hk => hk) ?_ (Or.inr (Or.inl rfl)) (fun hstate _ => ?_) h.inv.bounded
    · by_cases hstate : sm.state = .aaaIdle
      · refine Or.inr ⟨hstate, key, ?_⟩
        show (if sm.state = .aaaIdle then _ else _) = _
        rw [if_pos hstate]
        rfl
      · refine Or.inl ?_
        show (if sm.state = .aaaIdle then _ else _) = _
        rw [if_neg hstate]
        rfl
    · have hstate : sm.state = .aaaIdle := hstate
      show lastAaaSuccess (if sm.state = .aaaIdle then _ else _) = some (key.orElse fun _ => sm.aaaEapKeyData)
      rw [if_pos hstate, hkey hstate]
      rfl
  | aaaSend identity =>
    obtain ⟨hchanged, hstate⟩ := Bool.and_eq_true_iff.mp htaken
    have hp := h.not_parsing hchanged
    cases hstep
    exact Wf.of_inv (h.inv.outside hp rfl (fun hk => hk) (Or.inl rfl) (Or.inr (Or.inr (beq_iff_eq.mp hstate)))
      h.inv.aaaSuccess h.inv.bounded) hp
  | notifyCached =>
    cases hstep
    exact Wf.of_inv (h.inv.halt rfl (Or.inl rfl) fun _ => Or.inr rfl) rfl
  | erpAdd keynameNai rRK rIK =>
    have hp := h.not_parsing htaken
    cases hstep
    refine Wf.of_inv (h.inv.outside hp rfl (fun hk => hk) (Or.inl rfl) (Or.inr (Or.inl rfl))
      h.inv.aaaSuccess ?_) hp
    intro erp herp
    rcases List.mem_cons.mp herp with rfl | herp
    · intro seq hseq
      cases hseq
    · exact h.inv.bounded erp herp
  | erpAccept keyname seq cryptosuite =>
    have hp := h.not_parsing htaken
    have hbounded : ∀ erp ∈ (sm.erpAccept keyname seq cryptosuite).erpKeys, erp.Bounded :=
      erpAccept_bounded h.inv.bounded
    have hview := erpAccept_view sm keyname seq cryptosuite
    cases hstep
    have hstate : (sm.erpAccept keyname seq cryptosuite).state = sm.state := congrArg View.state hview
    refine Wf.of_inv ?_ (hstate ▸ hp)
    rw [hview]
    exact h.inv.outside hp rfl (fun hk => hk) (Or.inl rfl) (Or.inr (Or.inl rfl)) h.inv.aaaSuccess hbounded
  | erpRemove keyname =>
    have hp := h.not_parsing htaken
    cases hstep
    exact Wf.of_inv (h.inv.outside hp rfl (fun hk => hk) (Or.inl rfl) (Or.inr (Or.inl rfl)) h.inv.aaaSuccess
      (fun erp herp => h.inv.bounded erp (List.mem_filter.mp herp).1)) hp
  | clearResult =>
    cases hstep
    split <;> exact h.same rfl rfl
  | pendingCb =>
    cases hstep
    split <;> exact h.same rfl rfl
  | eapResp | clearEapReq | clearEapNoReq | tick | eapRestart | portEnabled | aaaEapReq | aaaFail
  | aaaTimeout =>
    cases hstep
    exact h.same rfl rfl

theorem reach_wf {conf : EapConf} {evs : List Event}
    (hreach : Run.Reach (step lib) Cleanly (initSm conf) evs sm) :
    Wf sm :=
  hreach.invariant (I := Wf) (Wf.of_inv (initSm_inv conf) rfl) fun _ _ _ h hc hs => step_wf h hc hs

/-- Whatever packets, signals and results of methods there are, a step raises `eapSuccess` only after a
method of the user, the AAA server or a re-authentication has authenticated the peer since `INITIALIZE`, and
with no other key. -/
theorem eapSuccess_raised {conf : EapConf} {evs : List Event} {e : Event}
    (hreach : Run.Reach (step lib) Cleanly (initSm conf) evs sm) (hc : Cleanly sm e)
    (hstep : step lib sm e = .ok sm') (hbefore : sm.eapSuccess = false) (hafter : sm'.eapSuccess = true) :
    Raised lib sm sm' := by
  have hwf := reach_wf hreach
  have hstays : sm'.eapSuccess = sm.eapSuccess → Raised lib sm sm' := by
    intro hs
    rw [hafter, hbefore] at hs
    cases hs
  cases e with
  | smStep rand =>
    rcases (smStep_good hwf.inv (of_decide_eq_true hc.2) hstep).raised hafter with hs | hr
    · rw [hbefore] at hs
      cases hs
    · exact hr
  | clearResult =>
    cases hstep
    split at hafter
    · rw [hbefore] at hafter
      cases hafter
    · cases hafter
  | pendingCb =>
    cases hstep
    apply hstays
    split <;> rfl
  | erpAccept keyname seq cryptosuite =>
    cases hstep
    apply hstays
    unfold Sm.erpAccept
    split
    · rfl
    · split <;> rfl
  | receive | clearKeyAvailable | clearIdentity | aaaSuccess | aaaSend | notifyCached | erpAdd | erpRemove |
      eapResp
  | clearEapReq | clearEapNoReq | tick | eapRestart | portEnabled | aaaEapReq | aaaFail | aaaTimeout =>
    cases hstep
    exact hstays rfl

/-! ## A small server -/

def smallIdentity : EapMethod Nat where
  id := (vendorIetf, typeIdentity)
  init := fun _ => (some 0, none)
  buildReq := fun _ priv id => (priv, some (eapMsg 1 codeRequest id []), {})
  process := fun _ _ resp => (1, { identity := some (resp.drop 5), updateUser := some true })
  isDone := fun priv => priv == 1
  isSuccess := fun priv => priv == 1

def smallMethod : EapMethod Nat where
  id := (vendorIetf, typeTls)
  init := fun _ => (some 0, none)
  buildReq := fun _ priv id => (priv, some (eapMsg 13 codeRequest id []), {})
  process := fun _ _ resp => (if resp.getD 5 0 = 7 then 1 else 2, {})
  isDone := fun priv => priv != 0
  getKey := some fun priv => if priv = 1 then some [0x4b] else none
  isSuccess := fun priv => priv == 1

theorem smallMethods_typed : ∀ m ∈ [smallIdentity, smallMethod], m.id ≠ (vendorIetf, typeNone) := by
  intro m hm
  rcases List.mem_cons.mp hm with rfl | hm
  · decide
  · rcases List.mem_cons.mp hm with rfl | hm
    · decide
    · cases hm

def smallEapLib : EapServerLib Nat where
  erp := smallErpLib
  methods := ⟨[smallIdentity, smallMethod], smallMethods_typed⟩
  getEapUser := fun _ => some { methods := [(vendorIetf, typeTls)] }

def smallServerConf : EapConf := { backendAuth := false, eapServer := true, served := fun _ => rfl }
def smallPassthroughConf : EapConf := { backendAuth := false, eapServer := false, served := fun h => h }

def rounds (n : Nat) : List Event := List.replicate n (.smStep 0)

def packet (resp : Bytes) : List Event := [.receive resp, .eapResp]

def smallServerRun : List Event :=
  .portEnabled true :: rounds 7 ++ packet [2, 1, 0, 5, 1] ++ rounds 9 ++ packet [2, 2, 0, 6, 13, 7] ++ rounds 4

def smallPassthroughRun : List Event :=
  .portEnabled true :: rounds 7 ++ packet [2, 1, 0, 5,
  1] ++ rounds 8 ++ [.aaaSuccess none (some [0x4b])] ++ rounds 2 ++
    .eapRestart :: rounds 7 ++ packet [2, 0, 0, 5, 1] ++ rounds 8 ++ [.aaaSuccess none none]

def stepShows (lib : EapServerLib Nat) (e : Event) (p : Sm Nat → Sm Nat → Bool) (sm : Sm Nat) : Bool :=
  match step lib sm e with
  | .ok sm' => p sm sm'
  | .error _ => false

theorem exists_of_stepShows {lib : EapServerLib Nat} {e : Event} {p : Sm Nat → Sm Nat → Bool} {sm : Sm Nat}
    (h : stepShows lib e p sm = true) : ∃ sm', step lib sm e = .ok sm' ∧ p sm sm' = true := by
  unfold stepShows at h
  split at h
  · exact ⟨_, by assumption, h⟩
  · cases h

theorem eapSuccess_raised_small : ∃ (sm sm' : Sm Nat),
    Run.Reach (step smallEapLib) Cleanly (initSm smallServerConf) smallServerRun sm ∧
      step smallEapLib sm (.smStep 0) = .ok sm' ∧ sm'.eapKeyData = some [0x4b] ∧ Raised smallEapLib sm sm' := by
  obtain ⟨sm, hreach, hsm⟩ := Run.reach_of_runWhile_any (step smallEapLib) Cleanly (initSm smallServerConf)
    smallServerRun
    (stepShows smallEapLib (.smStep 0) fun sm sm' =>
      decide (Cleanly sm (.smStep 0) ∧ sm.eapSuccess = false ∧ sm'.eapSuccess = true ∧
        sm'.eapKeyData = some [0x4b])) (by decide +kernel)
  obtain ⟨sm', hstep, hshows⟩ := exists_of_stepShows hsm
  obtain ⟨hclean, hbefore, hafter, hkey⟩ := of_decide_eq_true hshows
  exact ⟨sm, sm', hreach, hstep, hkey, eapSuccess_raised hreach hclean hstep hbefore hafter⟩

/-- A result of the AAA server without a key brings the key of an earlier one. -/
theorem eapSuccess_old_key : ∃ (sm sm' : Sm Nat),
    Run.Reach (step smallEapLib) (fun sm e => taken sm e = true)
    (initSm smallPassthroughConf) smallPassthroughRun sm ∧
      step smallEapLib sm (.smStep 0) = .ok sm' ∧ sm.eapSuccess = false ∧ sm'.eapSuccess = true ∧
      lastAaaSuccess sm.log = some none ∧ sm'.eapKeyAvailable = true ∧ sm'.eapKeyData = some [0x4b] ∧
      ¬ Raised smallEapLib sm sm' := by
  obtain ⟨sm, hreach, hsm⟩ := Run.reach_of_runWhile_any (step smallEapLib) (fun sm e => taken sm e = true)
    (initSm smallPassthroughConf) smallPassthroughRun
    (stepShows smallEapLib (.smStep 0) fun sm sm' =>
      decide (sm.eapSuccess = false ∧ sm'.eapSuccess = true ∧ lastAaaSuccess sm.log = some none ∧
        sm'.eapKeyAvailable = true ∧ sm'.eapKeyData = some [0x4b] ∧ sm.erpKeys = [] ∧
        (sm.m.map fun s => s.method.id) = some (vendorIetf, typeIdentity))) (by decide +kernel)
  obtain ⟨sm', hstep, hshows⟩ := exists_of_stepShows hsm
  obtain ⟨hbefore, hafter, hlast, havailable, hkey, hkeys, hm⟩ := of_decide_eq_true hshows
  refine ⟨sm, sm', hreach, hstep, hbefore, hafter, hlast, havailable, hkey, fun hraised => ?_⟩
  cases hraised with
  | method s hs hid _ _ _ =>
    rw [hs] at hm
    exact hid (Option.some.inj hm)
  | aaa key _ hlast' hkey' =>
    rw [hlast] at hlast'
    cases hlast'
    cases (hkey' havailable).1
  | erp erp r hre _ =>
    have hmem := hre.stored
    rw [hkeys] at hmem
    cases hmem

end EapServer

end Hostap
