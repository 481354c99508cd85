import Hostap.Eap.PwdServer
import Hostap.Lib.Except

/-!
# Invariant of the EAP-pwd server

When a side of EAP-pwd ends in success, the Confirm it has accepted is over the Commit it has received,
with the shared key of this Commit, the own private value and the password element of the configured
password. `PwdTranscript.Valid` says what the exchanges before the Confirm have established, for either
side. `ServerInv` is what the server keeps by state: in `confirmReq` there is a valid transcript, in
`success` a Confirm over it.

What is not looked at is the received scalar, and whether the received Commit is the own one. The
condition `PwdServerChecked` leaves such Commits out.
-/

namespace Hostap

open Octets

variable {P : Type}

/-! ## Transcripts -/

/-- What was established before a Confirm is looked at. -/
structure PwdTranscript.Valid (lib : PwdLib P) (t : PwdTranscript P) : Prop where
  own : ∃ rand, pwdOwnCommit t.ec t.pwe rand = some t.own
  element : ∃ octets, t.ec.pointFromBin octets = some t.element
  shared : ∃ cofactor, lib.ecCofactor t.ec = some cofactor ∧
    pwdSharedKey t.ec cofactor t.pwe t.own.privateValue t.scalar t.element = some t.k
  range : 1 < t.scalar ∧ t.scalar < t.ec.order
  differs : ¬ (t.element = t.own.element ∧ t.scalar = t.own.scalar)

def PwdTranscript.confirm (lib : PwdLib P) (groupNum : Nat) (t : PwdTranscript P) : Option Bytes :=
  pwdConfirm lib t.ec groupNum t.k t.element t.scalar t.own.element t.own.scalar

/-- The scalar of a Commit is in range, and it is not the Commit with a given element and scalar. -/
def CommitChecked (ec : CryptoEc P) (commit : Bytes) (element : Option P) (scalar : Option Nat) : Prop :=
  1 < commitScalar ec commit ∧ commitScalar ec commit < ec.order ∧
    ¬ (ec.pointFromBin commit = element ∧ some (commitScalar ec commit) = scalar)

instance [DecidableEq P] (ec : CryptoEc P) (commit : Bytes) (element : Option P) (scalar : Option Nat) :
    Decidable (CommitChecked ec commit element scalar) := by
  unfold CommitChecked
  infer_instance

/-! ## Server -/

/-- The Commit a response brings, if it is one that is processed. -/
def serverCommit (env : PwdEnv) (msg : Bytes) (d : PwdServer P) : Option Bytes :=
  if eapPwdCheck d msg then
    none
  else
    match serverInput env msg d with
    | some (.commit, .whole _ payload) => some payload
    | _ => none

/-- Every Commit that is processed has a scalar in range and is not the own one. -/
def PwdServerChecked (d : PwdServer P) : PwdServerEvent → Prop
  | .buildReq _ => True
  | .resp msg env => ∀ payload ∈ serverCommit env msg d, ∀ grp ∈ d.grp,
      CommitChecked grp.ec payload d.myElement d.myScalar

instance [DecidableEq P] (d : PwdServer P) (ev : PwdServerEvent) : Decidable (PwdServerChecked d ev) := by
  unfold PwdServerChecked
  split <;> infer_instance

/-- The group has the password element of the configured password. -/
def PwdServer.HasPwe (lib : PwdLib P) (conf : PwdServerConf) (d : PwdServer P) (ec : CryptoEc P)
    (pwe : P) : Prop :=
  d.grp = some { ec, pwe := some pwe } ∧ lib.ecInit conf.groupNum = some ec ∧
    ∃ idPeer password rand rand', d.idPeer = some idPeer ∧
      serverPassword lib conf d.passwordPrep = some password ∧
      computePasswordElement lib ec password conf.idServer idPeer d.token rand = some (pwe, rand')

def PwdServer.HasOwn (d : PwdServer P) (own : PwdOwn P) : Prop :=
  d.privateValue = some own.privateValue ∧ d.myScalar = some own.scalar ∧ d.myElement = some own.element

/-- The values of a transcript. -/
structure PwdServer.Holds (lib : PwdLib P) (conf : PwdServerConf) (d : PwdServer P)
    (t : PwdTranscript P) : Prop where
  pwe : d.HasPwe lib conf t.ec t.pwe
  own : d.HasOwn t.own
  peerScalar : d.peerScalar = some t.scalar
  peerElement : d.peerElement = some t.element
  k : d.k = some t.k
  valid : t.Valid lib

def ServerInv (lib : PwdLib P) (conf : PwdServerConf) (d : PwdServer P) : Prop :=
  match d.state with
  | .idReq => d.privateValue = none
  | .commitReq => ∃ ec pwe, d.HasPwe lib conf ec pwe ∧ ∀ value ∈ d.privateValue,
      ∃ own rand, pwdOwnCommit ec pwe rand = some own ∧ d.HasOwn own
  | .confirmReq => ∃ t, d.Holds lib conf t
  | .success => ∃ t c, d.Holds lib conf t ∧ d.verified = some c ∧ t.confirm lib conf.groupNum = some c
  | .failure => True

section Server

variable {lib : PwdLib P} {conf : PwdServerConf} {env : PwdEnv} {d d' : PwdServer P} {payload msg : Bytes}

theorem pwdDeref_ok {α : Type} {o : Option α} {a : α} (h : pwdDeref o = .ok a) : o = some a := by
  cases o with
  | none => cases h
  | some b =>
    cases h
    rfl

theorem ServerInv.failure (h : d.state = .failure) : ServerInv lib conf d := by
  unfold ServerInv
  rw [h]
  trivial

theorem ServerInv.frame {inbuf : PwdInbuf} {outbuf : Option Bytes} {outFragPos : Nat} {myConfirm : Bytes}
    {keys : PwdKeys} (h : ServerInv lib conf d) :
    ServerInv lib conf { d with inbuf, outbuf, outFragPos, myConfirm, keys } := by
  unfold ServerInv at h ⊢
  dsimp only
  split at h
  · exact h
  · exact h
  · obtain ⟨t, ht⟩ := h
    exact ⟨t, ht.pwe, ht.own, ht.peerScalar, ht.peerElement, ht.k, ht.valid⟩
  · obtain ⟨t, c, ht, hc⟩ := h
    exact ⟨t, c, ⟨ht.pwe, ht.own, ht.peerScalar, ht.peerElement, ht.k, ht.valid⟩, hc⟩
  · trivial

theorem ServerInv.buildFailed (h : ServerInv lib conf d) : ServerInv lib conf d.buildFailed := by
  unfold PwdServer.buildFailed
  split
  · exact .failure rfl
  · exact h

theorem ServerInv.privateValue (h : ServerInv lib conf d) (hstate : d.state = .idReq) :
    d.privateValue = none := by
  unfold ServerInv at h
  rw [hstate] at h
  exact h

theorem ServerInv.idReq (hstate : d.state = .idReq) (h : d.privateValue = none) : ServerInv lib conf d := by
  unfold ServerInv
  rw [hstate]
  exact h

/-! ### Requests -/

theorem eapPwdBuildIdReq_inv (hinv : ServerInv lib conf d) (hstate : d.state = .idReq) :
    ServerInv lib conf (eapPwdBuildIdReq conf env d) := by
  unfold eapPwdBuildIdReq
  split
  · exact hinv
  · split
    · exact .failure rfl
    · split
      · exact .failure rfl
      · split
        · exact .failure rfl
        · exact .idReq hstate (hinv.privateValue hstate)

theorem eapPwdBuildCommitReq_inv (hinv : ServerInv lib conf d) (hstate : d.state = .commitReq)
    (h : eapPwdBuildCommitReq conf env d = .ok d') : ServerInv lib conf d' := by
  unfold eapPwdBuildCommitReq at h
  split at h
  · cases h
    exact hinv
  · obtain ⟨grp, hgrp, h⟩ := except_bind_ok h
    obtain ⟨pwe, hpwe, h⟩ := except_bind_ok h
    split at h
    · cases h
      exact hinv.buildFailed
    · split at h
      · cases h
        exact .failure rfl
      · rename_i own hown
        have hpweInv : ∃ ec pwe, d.HasPwe lib conf ec pwe := by
          unfold ServerInv at hinv
          rw [hstate] at hinv
          obtain ⟨ec, pwe, hp, -⟩ := hinv
          exact ⟨ec, pwe, hp⟩
        obtain ⟨ec, pwe', hp⟩ := hpweInv
        have hg : grp = { ec, pwe := some pwe' } := by
          have := (pwdDeref_ok hgrp).symm.trans hp.1
          exact Option.some.inj this
        subst hg
        have hpweEq : pwe = pwe' := (Option.some.inj (pwdDeref_ok hpwe)).symm
        subst hpweEq
        have hnew : ServerInv lib conf
            { d with
              privateValue := some own.privateValue
              myScalar := some own.scalar
              myElement := some own.element } := by
          unfold ServerInv
          rw [show PwdServer.state _ = .commitReq from hstate]
          exact ⟨ec, pwe, hp, fun _ _ => ⟨own, env.rand, hown, rfl, rfl, rfl⟩⟩
        dsimp only at h
        split at h
        · cases h
          exact hnew.buildFailed
        · cases h
          exact hnew.frame

theorem eapPwdBuildConfirmReq_inv (hinv : ServerInv lib conf d)
    (h : eapPwdBuildConfirmReq lib conf env d = .ok d') : ServerInv lib conf d' := by
  unfold eapPwdBuildConfirmReq at h
  split at h
  · cases h
    exact hinv
  · obtain ⟨grp, -, h⟩ := except_bind_ok h
    split at h
    · cases h
      exact hinv.buildFailed
    · obtain ⟨k, -, h⟩ := except_bind_ok h
      obtain ⟨myElement, -, h⟩ := except_bind_ok h
      obtain ⟨myScalar, -, h⟩ := except_bind_ok h
      obtain ⟨peerElement, -, h⟩ := except_bind_ok h
      obtain ⟨peerScalar, -, h⟩ := except_bind_ok h
      split at h
      · cases h
        exact hinv.buildFailed
      · cases h
        exact hinv.frame

theorem sendRequest_inv {exch : PwdExchange} {req : Option Bytes} (hinv : ServerInv lib conf d)
    (h : sendRequest conf env exch d = .ok (d', req)) : ServerInv lib conf d' := by
  unfold sendRequest at h
  obtain ⟨outbuf, -, h⟩ := except_bind_ok h
  dsimp only at h
  generalize (if d.outFragPos = 0 then 3 else 1) = hdrLen at h
  split at h
  · cases h
  · split at h
    · cases h
      exact .failure rfl
    · generalize (if conf.mtu < outbuf.length - d.outFragPos + 1 then _ else _ : Nat) = len at h
      split at h
      · cases h
        exact hinv.frame
      · cases h
        exact hinv.frame

theorem eapPwdBuildReq_inv {req : Option Bytes} (hinv : ServerInv lib conf d)
    (h : eapPwdBuildReq lib conf env d = .ok (d', req)) : ServerInv lib conf d' := by
  unfold eapPwdBuildReq at h
  split at h
  · split at h
    · cases h
      exact .failure rfl
    · split at h
      · cases h
        exact hinv
      · cases h
        exact hinv
      · cases h
        exact hinv
      · cases h
        exact .failure rfl
  · obtain ⟨d₁, hbuild, h⟩ := except_bind_ok h
    have hinv₁ : ServerInv lib conf d₁ := by
      unfold buildExchangeReq at hbuild
      split at hbuild
      · rename_i hstate
        cases hbuild
        exact eapPwdBuildIdReq_inv hinv hstate
      · rename_i hstate
        exact eapPwdBuildCommitReq_inv hinv hstate hbuild
      · exact eapPwdBuildConfirmReq_inv hinv hbuild
      · cases hbuild
        exact .failure rfl
    split at h
    · cases h
      exact hinv₁
    · exact sendRequest_inv hinv₁ h

/-! ### Responses -/

theorem eapPwdProcessIdResp_inv (hinv : ServerInv lib conf d) (hstate : d.state = .idReq) :
    ServerInv lib conf (eapPwdProcessIdResp lib conf env payload d) := by
  have hprivate := hinv.privateValue hstate
  unfold eapPwdProcessIdResp
  split
  · exact hinv
  · split
    · exact .failure rfl
    · split
      · exact hinv
      · split
        · exact hinv
        · dsimp only
          split
          · exact .idReq hstate hprivate
          · rename_i ec hec
            split
            · exact .idReq hstate hprivate
            · rename_i password hpassword
              split
              · exact .idReq hstate hprivate
              · rename_i pwe rand hpwe
                refine ⟨ec, pwe, ⟨rfl, hec, _, password, env.rand, rand, rfl, hpassword, hpwe⟩, ?_⟩
                intro value hvalue
                rw [hprivate] at hvalue
                cases hvalue

theorem eapPwdProcessCommitResp_inv (hinv : ServerInv lib conf d) (hstate : d.state = .commitReq)
    (hchecked : ∀ grp ∈ d.grp, CommitChecked grp.ec payload d.myElement d.myScalar)
    (h : eapPwdProcessCommitResp lib env payload d = .ok d') : ServerInv lib conf d' := by
  unfold eapPwdProcessCommitResp at h
  obtain ⟨grp, hgrp, h⟩ := except_bind_ok h
  dsimp only at h
  split at h
  · cases h
    exact .failure rfl
  · split at h
    · cases h
      exact .failure rfl
    · rename_i cofactor hcofactor
      split at h
      · cases h
        exact .failure rfl
      · rename_i element helement
        obtain ⟨pwe, hpwe, h⟩ := except_bind_ok h
        obtain ⟨privateValue, hprivate, h⟩ := except_bind_ok h
        split at h
        · cases h
          exact .failure rfl
        · rename_i k hk
          cases h
          have hcommit : ∃ ec pwe, d.HasPwe lib conf ec pwe ∧ ∀ value ∈ d.privateValue,
              ∃ own rand, pwdOwnCommit ec pwe rand = some own ∧ d.HasOwn own := by
            unfold ServerInv at hinv
            rw [hstate] at hinv
            exact hinv
          obtain ⟨ec, pwe', hp, hown⟩ := hcommit
          have hg : grp = { ec, pwe := some pwe' } := Option.some.inj ((pwdDeref_ok hgrp).symm.trans hp.1)
          subst hg
          have hpweEq : pwe = pwe' := (Option.some.inj (pwdDeref_ok hpwe)).symm
          subst hpweEq
          have hprivate' := pwdDeref_ok hprivate
          obtain ⟨own, rand, hdrawn, hhas⟩ := hown privateValue hprivate'
          have hvalue : privateValue = own.privateValue := Option.some.inj (hprivate'.symm.trans hhas.1)
          subst hvalue
          obtain ⟨hlow, hhigh, hdiffers⟩ := hchecked _ (pwdDeref_ok hgrp)
          -- the transcript is what is in the state now
          refine ⟨⟨ec, pwe, own, commitScalar ec payload, element, k⟩, hp, hhas, rfl, rfl, rfl, ⟨rand, hdrawn⟩,
            ⟨payload, helement⟩, ⟨cofactor, hcofactor, hk⟩, ⟨hlow, hhigh⟩, ?_⟩
          rintro ⟨he, hs⟩
          refine hdiffers ⟨?_, ?_⟩
          · rw [helement, hhas.2.2]
            exact congrArg some he
          · rw [hhas.2.1]
            exact congrArg some hs

theorem eapPwdProcessConfirmResp_inv (hinv : ServerInv lib conf d) (hstate : d.state = .confirmReq)
    (h : eapPwdProcessConfirmResp lib conf env payload d = .ok d') : ServerInv lib conf d' := by
  unfold eapPwdProcessConfirmResp at h
  obtain ⟨grp, hgrp, h⟩ := except_bind_ok h
  split at h
  · cases h
    exact hinv
  · obtain ⟨k, hk, h⟩ := except_bind_ok h
    obtain ⟨peerElement, hpeerElement, h⟩ := except_bind_ok h
    obtain ⟨peerScalar, hpeerScalar, h⟩ := except_bind_ok h
    obtain ⟨myElement, hmyElement, h⟩ := except_bind_ok h
    obtain ⟨myScalar, hmyScalar, h⟩ := except_bind_ok h
    split at h
    · cases h
      exact hinv
    · rename_i octets hoctets
      split at h
      · cases h
        exact hinv
      · rename_i heq
        cases h
        have ht : ∃ t, d.Holds lib conf t := by
          unfold ServerInv at hinv
          rw [hstate] at hinv
          exact hinv
        obtain ⟨t, ht⟩ := ht
        refine ⟨t, payload, ⟨ht.pwe, ht.own, ht.peerScalar, ht.peerElement, ht.k, ht.valid⟩, rfl, ?_⟩
        -- the values that were read are those of the transcript
        have hg := Option.some.inj ((pwdDeref_ok hgrp).symm.trans ht.pwe.1)
        have hk' := Option.some.inj ((pwdDeref_ok hk).symm.trans ht.k)
        have he := Option.some.inj ((pwdDeref_ok hpeerElement).symm.trans ht.peerElement)
        have hs := Option.some.inj ((pwdDeref_ok hpeerScalar).symm.trans ht.peerScalar)
        have he' := Option.some.inj ((pwdDeref_ok hmyElement).symm.trans ht.own.2.2)
        have hs' := Option.some.inj ((pwdDeref_ok hmyScalar).symm.trans ht.own.2.1)
        subst hg hk' he hs he' hs'
        rw [PwdTranscript.confirm, hoctets, not_not.1 heq]

theorem exchange_of_eapPwdCheck {exch : PwdExchange} {input : PwdInput} (hcheck : eapPwdCheck d msg = false)
    (h : serverInput env msg d = some (exch, input)) :
    d.state = .idReq ∧ exch = .id ∨ d.state = .commitReq ∧ exch = .commit ∨
      d.state = .confirmReq ∧ exch = .confirm := by
  unfold eapPwdCheck at hcheck
  unfold serverInput at h
  split at hcheck
  · cases hcheck
  · cases hcheck
  · rename_i lmExch data hmsg
    rw [hmsg] at h
    dsimp only at h
    split at h
    · cases h
    · cases h
      split at hcheck
      · exact .inl ⟨‹_›, ‹_›⟩
      · exact .inr (.inl ⟨‹_›, ‹_›⟩)
      · exact .inr (.inr ⟨‹_›, ‹_›⟩)
      · cases hcheck

theorem eapPwdProcess_inv (hinv : ServerInv lib conf d) (hcheck : eapPwdCheck d msg = false)
    (hchecked : PwdServerChecked d (.resp msg env)) (h : eapPwdProcess lib conf env msg d = .ok d') :
    ServerInv lib conf d' := by
  unfold eapPwdProcess at h
  split at h
  · cases h
    exact hinv
  · cases h
    exact hinv
  · cases h
  · cases h
    exact hinv.frame
  · cases h
    exact .failure rfl
  · rename_i exch inbuf payload hinput
    obtain ⟨d₁, hexch, h⟩ := except_bind_ok h
    cases h
    have hinv₀ : ServerInv lib conf { d with inbuf } := hinv.frame
    suffices hinv₁ : ServerInv lib conf d₁ from hinv₁.frame
    obtain ⟨hstate, rfl⟩ | ⟨hstate, rfl⟩ | ⟨hstate, rfl⟩ := exchange_of_eapPwdCheck hcheck hinput
    · cases hexch
      exact eapPwdProcessIdResp_inv hinv₀ hstate
    · simp only [serverExchange] at hexch
      refine eapPwdProcessCommitResp_inv hinv₀ hstate ?_ hexch
      refine hchecked payload ?_
      rw [serverCommit, hcheck, hinput]
      rfl
    · simp only [serverExchange] at hexch
      exact eapPwdProcessConfirmResp_inv hinv₀ hstate hexch

theorem pwdServerStep_inv {ev : PwdServerEvent} (hinv : ServerInv lib conf d) (hchecked : PwdServerChecked d ev)
    (h : pwdServerStep lib conf d ev = .ok d') : ServerInv lib conf d' := by
  cases ev with
  | buildReq env =>
    simp only [pwdServerStep] at h
    cases hbuild : eapPwdBuildReq lib conf env d with
    | error e =>
      rw [hbuild] at h
      cases h
    | ok r =>
      rw [hbuild] at h
      cases h
      exact eapPwdBuildReq_inv hinv hbuild
  | resp msg env =>
    simp only [pwdServerStep] at h
    split at h
    · cases h
      exact hinv
    · rename_i hcheck
      exact eapPwdProcess_inv hinv (Bool.eq_false_iff.2 hcheck) hchecked h

theorem reach_serverInv {evs : List PwdServerEvent}
    (h : Run.Reach (pwdServerStep lib conf) PwdServerChecked {} evs d) : ServerInv lib conf d := by
  have hstart : ServerInv lib conf ({} : PwdServer P) := rfl
  exact h.invariant hstart fun _ _ _ hinv hchecked hstep => pwdServerStep_inv hinv hchecked hstep

end Server

end Hostap
