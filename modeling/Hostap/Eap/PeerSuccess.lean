import Hostap.Eap.PeerAuth

/-!
# What `SUCCESS` of the EAP peer dereferences

`SM_STATE(EAP, SUCCESS)` reads the configuration, and with ERP it reads the method. Seven rules go there: five
because of a decision, and two for `allow_canned_success`, which take an EAP-Success at its word.

A decision other than `FAIL` was returned by a method, which is there until the session is invalidated from
outside (`Held`). Nothing of that is true of the two other rules, and an EAP-Success may come before any
method. `success_finds_values` is the result.
-/

namespace Hostap

namespace EapPeer

open Octets Erp

variable {π : Type} {lib : EapPeerLib π} {sm sm' : Sm π} {outside : Bytes}

/-! ## The rules that lead to `SUCCESS` -/

def erpOn (config : Option EapPeerConfig) : Bool := config.any EapPeerConfig.erp

abbrev LocalRules (sm : Sm π) : Prop :=
  ¬ (sm.eapRestart = true ∧ sm.portEnabled = true) ∧ ¬ (sm.portEnabled = false ∨ sm.forceDisabled = true) ∧
    sm.numRounds ≤ eapMaxAuthRounds

/-- The conditions of `IDLE` for `FAILURE`. -/
abbrev IdleFails (sm : Sm π) : Prop :=
  sm.altReject = true ∨ (sm.idleWhile = 0 ∧ sm.decision ≠ .uncondSucc) ∨
    (sm.altAccept = true ∧ sm.methodState ≠ .cont ∧ sm.decision = .fail)

/-- The four rules of `IDLE`. -/
abbrev IdleSucceeds (sm : Sm π) : Prop :=
  sm.eapReq = false ∧
    ((sm.altAccept = true ∧ sm.decision ≠ .fail) ∨ (sm.idleWhile = 0 ∧ sm.decision = .uncondSucc) ∨
      ¬ IdleFails sm ∧ sm.decision ≠ .fail ∧ sm.methodState = .done ∧
        ((sm.selectedMethod = typeLeap ∧ sm.leapDone = true) ∨
          (sm.selectedMethod = typePeap ∧ sm.peapDone = true)))

abbrev DecidedRule (sm : Sm π) : Prop :=
  (sm.state = .idle ∧ IdleSucceeds sm) ∨
    (sm.state = .received ∧ sm.rxSuccess = true ∧ sm.decision ≠ .fail ∧ sm.idMatches = true)

/-- The rules for `allow_canned_success`: before any method, and after the identity. -/
abbrev CannedRule (sm : Sm π) : Prop :=
  sm.state = .received ∧ sm.workaround = true ∧ sm.rxSuccess = true ∧ sm.rxFailure = false ∧ sm.rxReq = false ∧
    allowCanned sm.config = true ∧ (sm.lastId = none ∨ sm.methodState ≠ .cont) ∧
    ¬ (sm.decision ≠ .fail ∧ sm.idMatches = true)

theorem DecidedRule.decided (h : DecidedRule sm) : sm.decision ≠ .fail := by
  rcases h with ⟨_, _, ⟨_, hdec⟩ | ⟨_, hdec⟩ | ⟨_, hdec, _⟩⟩ | ⟨_, _, hdec, _⟩
  · exact hdec
  · rw [hdec]
    decide
  · exact hdec
  · exact hdec

/-- What `SUCCESS` reads is there. -/
abbrev Values (sm : Sm π) : Prop := sm.config.isSome = true ∧ (erpOn sm.config = true → sm.m.isSome = true)

theorem success_values (lib : EapPeerLib π) (h : Values sm) :
    ∃ sm', (sm.enter .success).success lib = .ok sm' := by
  obtain ⟨config, hconfig⟩ := Option.isSome_iff_exists.mp h.1
  unfold Sm.success
  dsimp only
  rw [show (sm.enter .success).config = some config from hconfig]
  dsimp only
  split
  · rename_i herp
    have hon : erpOn sm.config = true := by
      rw [hconfig]
      exact herp
    obtain ⟨s, hs⟩ := Option.isSome_iff_exists.mp (h.2 hon)
    rw [show (sm.enter .success).m = some s from hs]
    exact ⟨_, rfl⟩
  · exact ⟨_, rfl⟩

/-! ## What the states keep -/

/-- The authentication goes on, so that `SUCCESS` may still come. -/
def EapState.goesOn : EapState → Bool
  | .success | .failure | .disabled => false
  | _ => true

def Held (sm : Sm π) : Prop :=
  sm.state.goesOn = true → sm.decision ≠ .fail → erpOn sm.config = true → sm.m.isSome = true

/-- What a state other than `SUCCESS` does. -/
structure Keeps (sm sm' : Sm π) : Prop where
  held : Held sm → Held sm'
  entered : sm'.state = .success → sm.state = .success

theorem Keeps.of_goesOn (hon : sm.state.goesOn = true) (hne : sm'.state ≠ .success)
    (hconfig : sm'.config = sm.config) (hdec : sm'.decision = sm.decision)
    (hm : sm.m.isSome = true → sm'.m.isSome = true) : Keeps sm sm' where
  held := fun h _ hd herp => by
    rw [hdec] at hd
    rw [hconfig] at herp
    exact hm (h hon hd herp)
  entered := fun hs => absurd hs hne

theorem Keeps.of_fail (hne : sm'.state ≠ .success) (hdec : sm'.decision = .fail) : Keeps sm sm' where
  held := fun _ _ hd => absurd hdec hd
  entered := fun hs => absurd hs hne

theorem Keeps.of_end (hne : sm'.state ≠ .success) (hend : sm'.state.goesOn = false) : Keeps sm sm' where
  held := fun _ hon => by
    rw [hend] at hon
    cases hon
  entered := fun hs => absurd hs hne

/-- What the rules read of a session that no packet changes. -/
structure Same (sm sm' : Sm π) : Prop where
  state : sm'.state = sm.state
  config : sm'.config = sm.config
  decision : sm'.decision = sm.decision
  m : sm'.m = sm.m

theorem finish_same (lib : ErpLib) (frame : Bytes) : Same sm (sm.finish lib frame) := by
  unfold Sm.finish
  split
  · exact ⟨rfl, rfl, rfl, rfl⟩
  split
  · exact ⟨rfl, rfl, rfl, rfl⟩
  dsimp only
  split
  · exact ⟨rfl, rfl, rfl, rfl⟩
  split
  · exact ⟨rfl, rfl, rfl, rfl⟩
  · exact ⟨rfl, rfl, rfl, rfl⟩

theorem erpReauthStart_same {lib : ErpLib} {id : UInt8} (h : sm.erpReauthStart lib id = some sm') :
    Same sm sm' := by
  unfold Sm.erpReauthStart at h
  simp only [Option.bind_eq_bind, Option.bind_eq_some_iff] at h
  obtain ⟨_, _, _, _, _, _, h⟩ := h
  cases h
  exact ⟨rfl, rfl, rfl, rfl⟩

theorem initiate_same (lib : ErpLib) (frame : Bytes) : Same sm (sm.initiate lib frame) := by
  unfold Sm.initiate
  split
  · exact ⟨rfl, rfl, rfl, rfl⟩
  split
  · exact ⟨rfl, rfl, rfl, rfl⟩
  cases hstart : sm.erpReauthStart lib (frame.getD 1 0) with
  | none => exact ⟨rfl, rfl, rfl, rfl⟩
  | some sm' => exact erpReauthStart_same hstart

theorem parseRequest_same (frame : Bytes) : Same sm (sm.parseRequest frame) := by
  unfold Sm.parseRequest
  split
  · exact ⟨rfl, rfl, rfl, rfl⟩
  dsimp only
  split
  · exact ⟨rfl, rfl, rfl, rfl⟩
  · exact ⟨rfl, rfl, rfl, rfl⟩

theorem parseResponse_same (frame : Bytes) : Same sm (sm.parseResponse frame) := by
  unfold Sm.parseResponse
  split
  · exact ⟨rfl, rfl, rfl, rfl⟩
  · exact ⟨rfl, rfl, rfl, rfl⟩

theorem parsePacket_same (code : UInt8) (frame : Bytes) : Same sm (sm.parsePacket lib code frame) := by
  unfold Sm.parsePacket
  split
  · exact parseRequest_same frame
  split
  · exact parseResponse_same frame
  split
  · exact ⟨rfl, rfl, rfl, rfl⟩
  split
  · exact ⟨rfl, rfl, rfl, rfl⟩
  split
  · exact initiate_same lib.erp frame
  split
  · exact finish_same lib.erp frame
  · exact ⟨rfl, rfl, rfl, rfl⟩

theorem parseEapReq_same (lib : EapPeerLib π) (sm : Sm π) : Same sm (sm.parseEapReq lib) := by
  unfold Sm.parseEapReq
  dsimp only
  split
  · exact ⟨rfl, rfl, rfl, rfl⟩
  split
  · exact ⟨rfl, rfl, rfl, rfl⟩
  · exact ⟨(parsePacket_same _ _).state, (parsePacket_same _ _).config, (parsePacket_same _ _).decision,
      (parsePacket_same _ _).m⟩

theorem received_keeps (hon : sm.state.goesOn = true) : Keeps sm ((sm.enter .received).received lib) := by
  have hsame := parseEapReq_same lib (sm.enter .received)
  refine Keeps.of_goesOn hon ?_ hsame.config hsame.decision fun hm => ?_
  · show ((sm.enter .received).parseEapReq lib).state ≠ .success
    rw [hsame.state]
    exact fun hs => by cases hs
  · show ((sm.enter .received).parseEapReq lib).m.isSome = true
    rw [hsame.m]
    exact hm

theorem method_keeps (hon : sm.state.goesOn = true) (outside : Bytes) :
    Keeps sm ((sm.enter .method).method outside) := by
  unfold Sm.method
  split
  · exact Keeps.of_goesOn hon (fun hs => by cases hs) rfl rfl fun hm => hm
  rename_i s hs
  split
  · exact Keeps.of_goesOn hon (fun hs => by cases hs) rfl rfl fun hm => hm
  dsimp only
  split
  · exact ⟨fun _ _ _ _ => rfl, fun hst => by cases hst⟩
  unfold Sm.takeKey
  split
  · exact ⟨fun _ _ _ _ => rfl, fun hst => by cases hst⟩
  · exact ⟨fun _ _ _ _ => rfl, fun hst => by cases hst⟩

theorem sendResponse_keeps (hon : sm.state.goesOn = true) : Keeps sm (sm.enter .sendResponse).sendResponse := by
  unfold Sm.sendResponse
  dsimp only
  split
  · exact Keeps.of_goesOn hon (fun hs => by cases hs) rfl rfl fun hm => hm
  · exact Keeps.of_goesOn hon (fun hs => by cases hs) rfl rfl fun hm => hm

theorem identity_keeps (hon : sm.state.goesOn = true) (outside : Bytes) :
    Keeps sm ((sm.enter .identity).identity lib outside) := by
  unfold Sm.identity
  split
  · exact Keeps.of_goesOn hon (fun hs => by cases hs) rfl rfl fun hm => hm
  · exact Keeps.of_goesOn hon (fun hs => by cases hs) rfl rfl fun hm => hm

theorem notification_keeps (hon : sm.state.goesOn = true) : Keeps sm (sm.enter .notification).notification := by
  unfold Sm.notification
  split
  · exact Keeps.of_goesOn hon (fun hs => by cases hs) rfl rfl fun hm => hm
  · exact Keeps.of_goesOn hon (fun hs => by cases hs) rfl rfl fun hm => hm

theorem Known.undecided (h : Known lib sm) (hnone : sm.selectedMethod = typeNone) : sm.decision = .fail := by
  by_contra hdec
  obtain ⟨method, hlast⟩ := h.inv.decided hdec
  obtain ⟨o, hmem, ho⟩ := List.exists_of_findSome?_eq_some hlast
  have hmethod := h.inv.unselected hnone o hmem
  cases o with
  | processed => cases hmethod
  | keyed => cases ho
  | initiated => cases ho
  | finished => cases ho

theorem gotMethod_same (lib : EapPeerLib π) (sm : Sm π) (method : EapMethod π) (priv : Option π)
    (effect : MethodEffect) :
    (sm.gotMethod lib method priv effect).state = sm.state ∧
      (sm.gotMethod lib method priv effect).decision = sm.decision := by
  unfold Sm.gotMethod
  dsimp only
  split
  · split
    · exact ⟨rfl, rfl⟩
    · exact ⟨rfl, rfl⟩
  · exact ⟨rfl, rfl⟩

theorem getMethod_keeps (hfail : sm.decision = .fail) (outside : Bytes) :
    Keeps sm ((sm.enter .getMethod).getMethod lib outside) := by
  have hgot : ∀ (sm' : Sm π) (method : EapMethod π) (priv : Option π) (effect : MethodEffect),
      sm'.state = .getMethod → sm'.decision = .fail → Keeps sm (sm'.gotMethod lib method priv effect) := by
    intro sm' method priv effect hstate hdec
    obtain ⟨hs, hd⟩ := gotMethod_same lib sm' method priv effect
    refine Keeps.of_fail ?_ (hd.trans hdec)
    rw [hs, hstate]
    decide
  unfold Sm.getMethod
  split
  · exact Keeps.of_fail (fun hs => by cases hs) hfail
  split
  · exact Keeps.of_fail (fun hs => by cases hs) hfail
  split
  · exact hgot _ _ _ _ rfl hfail
  · exact hgot _ _ _ _ rfl hfail

/-! ## A round of `SM_STEP` -/

/-- What a round does: it goes to `SUCCESS` by one of the rules for it, or something else that does not fail.
-/
inductive Round (lib : EapPeerLib π) (sm : Sm π) : Except EapFault (Sm π) → Prop
  | success (hrule : DecidedRule sm ∨ CannedRule sm) : Round lib sm ((sm.enter .success).success lib)
  | other (sm' : Sm π) (hkeeps : Keeps sm sm') : Round lib sm (.ok sm')

theorem Keeps.refl (sm : Sm π) : Keeps sm sm := ⟨fun h => h, fun h => h⟩

theorem stepIdle_round (hstate : sm.state = .idle) : Round lib sm (stepIdle lib sm) := by
  have hon : sm.state.goesOn = true := by
    rw [hstate]
    rfl
  unfold stepIdle
  split
  · exact .other _ (received_keeps hon)
  rename_i hreq
  have hreq : sm.eapReq = false := Bool.eq_false_of_not_eq_true hreq
  split
  · rename_i hsucc
    refine .success (.inl (.inl ⟨hstate, hreq, ?_⟩))
    rcases hsucc with haccept | hidle
    · exact .inl haccept
    · exact .inr (.inl hidle)
  split
  · exact .other _ (Keeps.of_end (fun hs => by cases hs) rfl)
  rename_i hnot
  split
  · rename_i hleap
    obtain ⟨hsel, hdone, hdec, hms⟩ := hleap
    exact .success (.inl (.inl ⟨hstate, hreq, .inr (.inr ⟨hnot, hdec, hms, .inl ⟨hsel, hdone⟩⟩)⟩))
  split
  · rename_i hpeap
    obtain ⟨hsel, hdone, hdec, hms⟩ := hpeap
    exact .success (.inl (.inl ⟨hstate, hreq, .inr (.inr ⟨hnot, hdec, hms, .inr ⟨hsel, hdone⟩⟩)⟩))
  · exact .other _ (Keeps.refl sm)

theorem Round.ite {c : Prop} [Decidable c] {a b : Except EapFault (Sm π)} (ha : c → Round lib sm a)
    (hb : ¬ c → Round lib sm b) : Round lib sm (if c then a else b) := by
  split
  · exact ha (by assumption)
  · exact hb (by assumption)

theorem stepReceived_round (h : Known lib sm) (hstate : sm.state = .received) :
    Round lib sm (stepReceived lib outside sm) := by
  have hon : sm.state.goesOn = true := by
    rw [hstate]
    rfl
  have hfailure : Round lib sm (.ok (sm.enter .failure).failure) :=
    .other _ (Keeps.of_end (fun hs => by cases hs) rfl)
  unfold stepReceived
  refine Round.ite (fun hsucc => .success (.inl (.inr ⟨hstate, hsucc⟩))) fun hnot => ?_
  have hundecided : sm.rxSuccess = true → ¬ (sm.decision ≠ .fail ∧ sm.idMatches = true) :=
    fun hrx hdec => hnot ⟨hrx, hdec⟩
  refine Round.ite (fun hearly => ?_) fun _ => ?_
  · obtain ⟨hw, hid, hrx, hnf, hnr, hallowed⟩ := hearly
    rw [Bool.not_eq_true'] at hnf hnr
    exact .success (.inr ⟨hstate, hw, hrx, hnf, hnr, hallowed, .inl hid, hundecided hrx⟩)
  refine Round.ite (fun _ => hfailure) fun _ => ?_
  refine Round.ite (fun hlate => ?_) fun _ => ?_
  · obtain ⟨hw, hrx, hnf, hnr, hms, hallowed⟩ := hlate
    rw [Bool.not_eq_true'] at hnf hnr
    exact .success (.inr ⟨hstate, hw, hrx, hnf, hnr, hallowed, .inr hms, hundecided hrx⟩)
  -- the other rules do not go to `SUCCESS`
  refine Round.ite (fun _ => hfailure) fun _ => ?_
  refine Round.ite (fun _ => ?_) fun _ => ?_
  · exact .other _ (Keeps.of_goesOn hon (fun hs => by cases hs) rfl rfl fun hm => hm)
  refine Round.ite (fun _ => .other _ (notification_keeps hon)) fun _ => ?_
  refine Round.ite (fun _ => .other _ (identity_keeps hon outside)) fun _ => ?_
  refine Round.ite (fun hget => .other _ (getMethod_keeps (h.undecided hget.2.2.1) outside)) fun _ => ?_
  refine Round.ite (fun _ => .other _ (method_keeps hon outside)) fun _ => ?_
  refine Round.ite (fun _ => .other _ (method_keeps hon outside)) fun _ => ?_
  refine Round.ite (fun _ => .other _ (sendResponse_keeps hon)) fun _ => ?_
  exact .other _ (Keeps.of_goesOn hon (fun hs => by cases hs) rfl rfl fun hm => hm)

theorem initialise_keeps (sm : Sm π) (changed : Bool) :
    Keeps sm ({ sm with state := .initialise, changed } : Sm π).initialise :=
  Keeps.of_fail (fun hs => by cases hs) rfl

theorem stepLocal_round (h : Known lib sm) : Round lib sm (stepLocal lib outside sm) := by
  cases hstate : sm.state with
  | initialise | sendResponse | discard =>
    simp only [stepLocal, hstate]
    exact .other _ (Keeps.of_goesOn (by rw [hstate]; rfl) (fun hs => by cases hs) rfl rfl fun hm => hm)
  | disabled =>
    simp only [stepLocal, hstate]
    split
    · exact .other _ (initialise_keeps sm true)
    · exact .other _ (Keeps.refl sm)
  | idle =>
    simp only [stepLocal, hstate]
    exact stepIdle_round hstate
  | received =>
    simp only [stepLocal, hstate]
    exact stepReceived_round h hstate
  | getMethod =>
    have hon : sm.state.goesOn = true := by rw [hstate]; rfl
    simp only [stepLocal, hstate]
    split
    · exact .other _ (method_keeps hon outside)
    · exact .other _ (sendResponse_keeps hon)
  | method =>
    have hon : sm.state.goesOn = true := by rw [hstate]; rfl
    simp only [stepLocal, hstate]
    split
    · exact .other _ (Keeps.of_goesOn hon (fun hs => by cases hs) rfl rfl fun hm => hm)
    split
    · exact .other _ (Keeps.of_end (fun hs => by cases hs) rfl)
    · exact .other _ (sendResponse_keeps hon)
  | identity | notification | retransmit =>
    simp only [stepLocal, hstate]
    exact .other _ (sendResponse_keeps (by rw [hstate]; rfl))
  | success | failure =>
    simp only [stepLocal, hstate]
    exact .other _ (Keeps.refl sm)

theorem smStep_round (outside : Bytes) (h : Known lib sm) :
    (∃ sm', Keeps sm sm' ∧ smStep lib outside sm = .ok sm') ∨
      LocalRules sm ∧ Round lib ({ sm with changed := false } : Sm π) (smStep lib outside sm) := by
  unfold smStep
  dsimp only
  split
  · exact .inl ⟨_, initialise_keeps sm _, rfl⟩
  rename_i hrestart
  split
  · exact .inl ⟨_, Keeps.of_end (fun hs => by cases hs) rfl, rfl⟩
  rename_i henabled
  split
  · split
    · exact .inl ⟨_, Keeps.of_end (fun hs => by cases hs) rfl, rfl⟩
    · exact .inl ⟨{ sm with changed := false }, ⟨fun hheld => hheld, fun hs => hs⟩, rfl⟩
  · rename_i hfew
    rw [Bool.not_eq_true'] at henabled
    have hknown : Known lib ({ sm with changed := false } : Sm π) := ⟨h.inv, h.flow, h.rounds⟩
    exact .inr ⟨⟨hrestart, henabled, Nat.not_lt.mp hfew⟩, stepLocal_round hknown⟩

/-! ## Runs -/

/-- A round leaves what `SUCCESS` reads: there is a configuration for a decision, and with ERP an EAP-Success
that is taken at its word comes with a method. -/
abbrev RoundProvided (sm : Sm π) : Prop :=
  LocalRules sm → (DecidedRule sm → sm.config.isSome = true) ∧
    (CannedRule sm → erpOn sm.config = true → sm.m.isSome = true)

abbrev Awaiting (sm : Sm π) : Prop := sm.state.goesOn = true ∧ sm.decision ≠ .fail

/-- What happens leaves what `SUCCESS` reads: while a decision waits, the method is not put down with ERP, and
ERP is not configured without a method. -/
def Provided (sm : Sm π) (e : Event) : Prop :=
  taken sm e = true ∧
    match e with
    | .smStep _ => RoundProvided sm
    | .config config => Awaiting sm → erpOn config = true → sm.m.isSome = true
    | .invalidateCachedSession => Awaiting sm → erpOn sm.config = false
    | _ => True

instance (sm : Sm π) (e : Event) : Decidable (Provided sm e) :=
  match e with
  | .smStep _ => inferInstanceAs (Decidable (_ ∧ RoundProvided sm))
  | .config config => inferInstanceAs (Decidable (_ ∧ (Awaiting sm → erpOn config = true → sm.m.isSome = true)))
  | .invalidateCachedSession => inferInstanceAs (Decidable (_ ∧ (Awaiting sm → erpOn sm.config = false)))
  | .receive _ | .eapReq | .takeResp | .clearNoResp | .clearTriggerStart | .altAccept _ | .altReject _ | .tick
  | .eapRestart | .portEnabled _ | .forceDisabled _ | .fastReauth _ | .workaround _ | .lowerLayerSuccess =>
    inferInstanceAs (Decidable (_ ∧ True))

theorem allowCanned_config {config : Option EapPeerConfig} (h : allowCanned config = true) :
    config.isSome = true := by
  cases config with
  | none => cases h
  | some config => rfl

theorem smStep_values (h : Known lib sm) (hheld : Held sm) (hc : Provided sm (.smStep outside)) :
    ∃ sm', smStep lib outside sm = .ok sm' ∧ Held sm' ∧
      (sm'.state = .success → sm.state = .success ∨ Values sm) := by
  rcases smStep_round outside h with ⟨sm', hkeeps, hstep⟩ | ⟨hrules, hround⟩
  · exact ⟨sm', hstep, hkeeps.held hheld, fun hs => .inl (hkeeps.entered hs)⟩
  obtain ⟨hdecided, hcanned⟩ := hc.2 hrules
  generalize hresult : smStep lib outside sm = result at hround
  cases hround with
  | other sm' hkeeps => exact ⟨sm', rfl, hkeeps.held hheld, fun hs => .inl (hkeeps.entered hs)⟩
  | success hrule =>
    have hvalues : Values sm := by
      rcases hrule with hrule | hrule
      · have hdec := DecidedRule.decided hrule
        have hon : sm.state.goesOn = true := by
          rcases hrule with ⟨hstate, _⟩ | ⟨hstate, _⟩
          · rw [show sm.state = .idle from hstate]
            rfl
          · rw [show sm.state = .received from hstate]
            rfl
        exact ⟨hdecided hrule, hheld hon hdec⟩
      · have hallowed : allowCanned sm.config = true := hrule.2.2.2.2.2.1
        exact ⟨allowCanned_config hallowed, hcanned hrule⟩
    obtain ⟨sm', hstep⟩ := success_values lib (show Values { sm with changed := false } from hvalues)
    refine ⟨sm', hstep, fun hon => ?_, fun _ => .inr hvalues⟩
    rw [(success_view hstep).2.1] at hon
    cases hon

theorem step_values (h : Wf lib sm) (hheld : Held sm) {e : Event} (hc : Provided sm e) :
    ∃ sm', step lib sm e = .ok sm' ∧ Held sm' ∧
      (sm'.state = .success → sm.state = .success ∨ Values sm) := by
  cases e with
  | smStep outside => exact smStep_values h.toKnown hheld hc
  | config config => exact ⟨_, rfl, fun hon hdec herp => hc.2 ⟨hon, hdec⟩ herp, .inl⟩
  | invalidateCachedSession =>
    refine ⟨_, rfl, fun hon hdec herp => ?_, .inl⟩
    have hoff : erpOn sm.config = false := hc.2 ⟨hon, hdec⟩
    have herp : erpOn sm.config = true := herp
    rw [hoff] at herp
    cases herp
  | lowerLayerSuccess =>
    refine ⟨_, rfl, ?_, ?_⟩
    · unfold notifyLowerLayerSuccess
      split
      · exact hheld
      · exact hheld
    · rw [(notifyLowerLayerSuccess_good h).2.1]
      exact .inl
  | receive | takeResp | eapRestart | eapReq | clearNoResp | clearTriggerStart | altAccept | altReject | tick
  | portEnabled | forceDisabled | fastReauth | workaround => exact ⟨_, rfl, hheld, .inl⟩

theorem reach_held {evs : List Event} (hreach : Run.Reach (step lib) Provided initSm evs sm) :
    Wf lib sm ∧ Held sm := by
  refine hreach.invariant (I := fun sm => Wf lib sm ∧ Held sm) ⟨initSm_wf lib, ?_⟩ ?_
  · exact fun _ hdec => absurd rfl hdec
  · intro sm e sm' ⟨hwf, hheld⟩ hc hstep
    obtain ⟨sm'', hstep', hheld', _⟩ := step_values hwf hheld hc
    rw [hstep] at hstep'
    cases hstep'
    exact ⟨(step_sound hwf hc.1 hstep).wf, hheld'⟩

/-- In every run that is provided for, no step dereferences a value that is absent, and a step that enters
`SUCCESS` finds the configuration, and with ERP the method. -/
theorem success_finds_values {evs : List Event} {e : Event}
    (hreach : Run.Reach (step lib) Provided initSm evs sm) (hc : Provided sm e) :
    ∃ sm', step lib sm e = .ok sm' ∧
      (sm'.state = .success → sm.state ≠ .success →
        sm.config.isSome = true ∧ (erpOn sm.config = true → sm.m.isSome = true)) := by
  obtain ⟨hwf, hheld⟩ := reach_held hreach
  obtain ⟨sm', hstep, _, hentered⟩ := step_values hwf hheld hc
  exact ⟨sm', hstep, fun hs hne => (hentered hs).resolve_left hne⟩

/-! ## A small peer -/

def decidedRun : List Event :=
  .config (some smallPeerConfig) :: rounds 2 ++ .portEnabled true :: rounds 3 ++ packet [1, 1, 0, 6, 13, 7] ++
    rounds 6 ++ packet [3, 1, 0, 4] ++ rounds 1

theorem success_finds_values_small : ∃ sm sm' : Sm Nat,
    Run.Reach (step smallPeerLib) Provided initSm decidedRun sm ∧ step smallPeerLib sm (.smStep []) = .ok sm' ∧
      sm'.state = .success ∧ sm.config.isSome = true ∧ (erpOn sm.config = true → sm.m.isSome = true) := by
  obtain ⟨sm, hreach, hsm⟩ := Run.reach_of_runWhile_any (step smallPeerLib) Provided initSm decidedRun
    (stepShows smallPeerLib (.smStep []) fun sm sm' =>
      decide (Provided sm (.smStep []) ∧ sm'.state = .success ∧ sm.state ≠ .success)) (by decide +kernel)
  obtain ⟨sm', hstep, hshows⟩ := exists_of_stepShows hsm
  obtain ⟨hc, hsuccess, hne⟩ := of_decide_eq_true hshows
  obtain ⟨sm'', hstep', hvalues⟩ := success_finds_values hreach hc
  rw [hstep] at hstep'
  cases hstep'
  exact ⟨sm, sm', hreach, hstep, hsuccess, hvalues hsuccess hne⟩

/-- ERP and `allow_canned_success`. -/
def cannedConfig : EapPeerConfig := { phase1 := some "allow_canned_success=1", erp := true }

def cannedRun : List Event :=
  [.config (some cannedConfig), .workaround true] ++ rounds 2 ++ .portEnabled true :: rounds 3 ++
    packet [3, 1, 0, 4] ++ rounds 1

def stepFails (lib : EapPeerLib Nat) (e : Event) (sm : Sm Nat) : Bool :=
  match step lib sm e with
  | .ok _ => false
  | .error _ => true

theorem exists_of_stepFails {lib : EapPeerLib Nat} {e : Event} {sm : Sm Nat} (h : stepFails lib e sm = true) :
    step lib sm e = .error .nullPointer := by
  unfold stepFails at h
  split at h
  · cases h
  · rename_i f hstep
    cases f
    exact hstep

/-- `SUCCESS` is entered before any method, and reads the method. -/
theorem success_without_method : ∃ sm : Sm Nat,
    Run.Reach (step smallPeerLib) (fun sm e => taken sm e = true) initSm cannedRun sm ∧
      (CannedRule sm ∧ erpOn sm.config = true ∧ sm.m.isSome = false) ∧
      step smallPeerLib sm (.smStep []) = .error .nullPointer := by
  obtain ⟨sm, hreach, hsm⟩ := Run.reach_of_runWhile_any (step smallPeerLib) (fun sm e => taken sm e = true)
    initSm cannedRun (fun sm => decide (CannedRule sm ∧ erpOn sm.config = true ∧ sm.m.isSome = false ∧
      stepFails smallPeerLib (.smStep []) sm = true)) (by decide +kernel)
  obtain ⟨hrule, herp, hm, hfails⟩ := of_decide_eq_true hsm
  exact ⟨sm, hreach, ⟨hrule, herp, hm⟩, exists_of_stepFails hfails⟩

end EapPeer

end Hostap
