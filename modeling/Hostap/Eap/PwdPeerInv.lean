import Hostap.Eap.PwdPeer
import Hostap.Eap.PwdServerInv

/-!
# Invariant of the EAP-pwd peer

The peer keeps by state what the server keeps. In addition nothing is left in `outbuf` once a response
has gone out, which is what makes the common exit of the exchanges mean what it says: `PwdPeer.finish`
goes on only if the exchange itself has written a response. This needs every message to be allocated.

The own Commit is drawn in the call that processes the one of the server, so the condition on the Commit
is over the random numbers of that call, `peerCommitOf`.
-/

namespace Hostap

open Octets

variable {P : Type}

/-! ## Condition -/

/-- The group, the own Commit and the received one when a request with a Commit is processed. -/
def peerCommitOf (lib : PwdLib P) (conf : PwdPeerConf) (env : PwdEnv) (payload : Bytes) (d : PwdPeer P) :
    Option (CryptoEc P × PwdOwn P × Bytes) := do
  let grp ← d.grp
  let (salt, commit) ← splitCommit grp.ec d.prep payload
  let password ← peerPassword lib conf d.prep salt
  let (pwe, rand) ← computePasswordElement lib grp.ec password (d.idServer.getD []) conf.idPeer d.token
    env.rand
  let own ← pwdOwnCommit grp.ec pwe rand
  return (grp.ec, own, commit)

/-- The Commit a request brings, if there is no response to be sent on. -/
def peerCommit (env : PwdEnv) (msg : Bytes) (d : PwdPeer P) : Option Bytes :=
  if d.outFragPos ≠ 0 then
    none
  else
    match peerInput env msg d with
    | some (lmExch, .whole _ payload) => if getExchange lmExch = .commit then some payload else none
    | _ => none

/-- A message can be allocated, and a Commit that is processed has a scalar in range and is not the own
one. -/
def PwdPeerChecked (lib : PwdLib P) (conf : PwdPeerConf) (d : PwdPeer P) (ev : PwdPeerEvent) : Prop :=
  ev.env.msgAlloc = true ∧
    ∀ payload ∈ peerCommit ev.env ev.msg d, ∀ c ∈ peerCommitOf lib conf ev.env payload d,
      CommitChecked c.1 c.2.2 (some c.2.1.element) (some c.2.1.scalar)

instance [DecidableEq P] (lib : PwdLib P) (conf : PwdPeerConf) (d : PwdPeer P) (ev : PwdPeerEvent) :
    Decidable (PwdPeerChecked lib conf d ev) := by
  unfold PwdPeerChecked
  infer_instance

/-! ## Invariant -/

/-- The group has the password element of the configured password. -/
def PwdPeer.HasPwe (lib : PwdLib P) (conf : PwdPeerConf) (d : PwdPeer P) (ec : CryptoEc P) (pwe : P) :
    Prop :=
  d.grp = some { ec, pwe := some pwe } ∧ lib.ecInit d.groupNum = some ec ∧
    ∃ password rand rand', peerPassword lib conf d.prep d.salt = some password ∧
      computePasswordElement lib ec password (d.idServer.getD []) conf.idPeer d.token rand =
        some (pwe, rand')

/-- The values of a transcript. -/
structure PwdPeer.Holds (lib : PwdLib P) (conf : PwdPeerConf) (d : PwdPeer P) (t : PwdTranscript P) :
    Prop where
  pwe : d.HasPwe lib conf t.ec t.pwe
  own : d.myScalar = some t.own.scalar ∧ d.myElement = some t.own.element
  serverScalar : d.serverScalar = some t.scalar
  serverElement : d.serverElement = some t.element
  k : d.k = some t.k
  valid : t.Valid lib

/-- The values of a transcript, with the Confirm of the server over it. -/
def PwdPeer.Verified (lib : PwdLib P) (conf : PwdPeerConf) (d : PwdPeer P) : Prop :=
  ∃ t c, d.Holds lib conf t ∧ d.verified = some c ∧ t.confirm lib d.groupNum = some c

def PeerStateInv (lib : PwdLib P) (conf : PwdPeerConf) (d : PwdPeer P) : Prop :=
  match d.state with
  | .idReq => True
  | .commitReq => ∃ ec, d.grp = some { ec } ∧ lib.ecInit d.groupNum = some ec
  | .confirmReq => ∃ t, d.Holds lib conf t
  | .successOnFragCompletion => d.Verified lib conf
  | .success => d.Verified lib conf
  | .failure => True

/-- Nothing is left to be sent unless a part of it was. -/
structure PeerInv (lib : PwdLib P) (conf : PwdPeerConf) (d : PwdPeer P) : Prop where
  state : PeerStateInv lib conf d
  outbuf : d.outFragPos = 0 → d.outbuf = none

section Peer

variable {lib : PwdLib P} {conf : PwdPeerConf} {env : PwdEnv} {d d' : PwdPeer P} {payload msg : Bytes}

theorem PeerStateInv.failure (h : d.state = .failure) : PeerStateInv lib conf d := by
  unfold PeerStateInv
  rw [h]
  trivial

theorem PwdPeer.Holds.frame {t : PwdTranscript P} {state : PwdPeerState} {inbuf : PwdInbuf}
    {outbuf verified : Option Bytes} {outFragPos : Nat} {keys : PwdKeys} (h : d.Holds lib conf t) :
    PwdPeer.Holds lib conf { d with state, inbuf, outbuf, outFragPos, keys, verified } t :=
  ⟨h.pwe, h.own, h.serverScalar, h.serverElement, h.k, h.valid⟩

theorem PwdPeer.Verified.frame {state : PwdPeerState} {inbuf : PwdInbuf} {outbuf : Option Bytes}
    {outFragPos : Nat} {keys : PwdKeys} (h : d.Verified lib conf) :
    PwdPeer.Verified lib conf { d with state, inbuf, outbuf, outFragPos, keys } := by
  obtain ⟨t, c, ht, hc⟩ := h
  exact ⟨t, c, ht.frame, hc⟩

theorem PeerStateInv.frame {inbuf : PwdInbuf} {outbuf : Option Bytes} {outFragPos : Nat} {keys : PwdKeys}
    (h : PeerStateInv lib conf d) :
    PeerStateInv lib conf { d with inbuf, outbuf, outFragPos, keys } := by
  unfold PeerStateInv at h ⊢
  dsimp only
  split at h
  · trivial
  · exact h
  · obtain ⟨t, ht⟩ := h
    exact ⟨t, ht.frame⟩
  · exact h.frame
  · exact h.frame
  · trivial

theorem PeerStateInv.complete (h : PeerStateInv lib conf d) : PeerStateInv lib conf d.complete := by
  unfold PwdPeer.complete
  split
  · rename_i hstate
    unfold PeerStateInv at h
    rw [hstate] at h
    exact PwdPeer.Verified.frame h
  · exact h

theorem PeerStateInv.finish {next : PwdPeerState} (h : d.outbuf = none) :
    PeerStateInv lib conf (d.finish next) := by
  refine .failure ?_
  unfold PwdPeer.finish
  rw [h]
  rfl

/-! ## Exchanges -/

theorem eapPwdPerformIdExchange_inv :
    PeerStateInv lib conf (eapPwdPerformIdExchange lib conf env payload d) := by
  unfold eapPwdPerformIdExchange
  split
  · exact .failure rfl
  · dsimp only
    split
    · exact .failure rfl
    · split
      · exact .failure rfl
      · split
        · exact .failure rfl
        · split
          · exact .failure rfl
          · split
            · exact .failure rfl
            · rename_i ec hec
              exact ⟨ec, rfl, hec⟩

theorem peerCommitWith_inv {ec : CryptoEc P} {pwe : P} {rand : PwdRand} {commit : Bytes}
    (houtbuf : d.outbuf = none) (hpwe : d.HasPwe lib conf ec pwe)
    (hchecked : ∀ own ∈ pwdOwnCommit ec pwe rand,
      CommitChecked ec commit (some own.element) (some own.scalar)) :
    PeerStateInv lib conf (peerCommitWith lib env ec pwe rand commit d) := by
  unfold peerCommitWith
  dsimp only
  split
  · exact .finish houtbuf
  · split
    · exact .finish houtbuf
    · rename_i cofactor hcofactor
      split
      · exact .finish houtbuf
      · rename_i own hown
        split
        · exact .finish houtbuf
        · rename_i element helement
          split
          · exact .finish houtbuf
          · rename_i k hk
            split
            · exact .finish houtbuf
            · obtain ⟨hlow, hhigh, hdiffers⟩ := hchecked own hown
              refine ⟨⟨ec, pwe, own, commitScalar ec commit, element, k⟩, hpwe, ⟨rfl, rfl⟩, rfl, rfl, rfl,
                ⟨rand, hown⟩, ⟨commit, helement⟩, ⟨cofactor, hcofactor, hk⟩, ⟨hlow, hhigh⟩, ?_⟩
              rintro ⟨he, hs⟩
              exact hdiffers ⟨helement.trans (congrArg some he), congrArg some hs⟩

theorem eapPwdPerformCommitExchange_inv (hinv : PeerStateInv lib conf d) (houtbuf : d.outbuf = none)
    (hchecked : ∀ c ∈ peerCommitOf lib conf env payload d,
      CommitChecked c.1 c.2.2 (some c.2.1.element) (some c.2.1.scalar)) :
    PeerStateInv lib conf (eapPwdPerformCommitExchange lib conf env payload d) := by
  unfold eapPwdPerformCommitExchange
  split
  · exact .finish houtbuf
  · rename_i hstate
    split
    · exact .finish houtbuf
    · rename_i grp hgrp
      split
      · exact .failure rfl
      · split
        · exact .finish houtbuf
        · rename_i salt commit hsplit
          split
          · split
            · exact .failure rfl
            · exact .finish houtbuf
          · rename_i password hpassword
            split
            · exact .failure rfl
            · split
              · exact .failure rfl
              · rename_i pwe rand hpwe
                have hec : ∃ ec, d.grp = some { ec } ∧ lib.ecInit d.groupNum = some ec := by
                  unfold PeerStateInv at hinv
                  rw [not_not.1 hstate] at hinv
                  exact hinv
                obtain ⟨ec, hg, hec⟩ := hec
                have hgrpEq : grp = { ec } := Option.some.inj (hgrp.symm.trans hg)
                subst hgrpEq
                refine peerCommitWith_inv houtbuf ⟨rfl, hec, password, env.rand, rand, hpassword, hpwe⟩ ?_
                intro own hown
                refine hchecked (ec, own, commit) ?_
                simp only [peerCommitOf, hgrp, hsplit, hpassword, hpwe, Option.mem_def.1 hown,
                  Option.bind_eq_bind, Option.bind_some, Option.pure_def, Option.mem_def]

theorem eapPwdPerformConfirmExchange_inv (hinv : PeerStateInv lib conf d) (houtbuf : d.outbuf = none)
    (h : eapPwdPerformConfirmExchange lib env payload d = .ok d') : PeerStateInv lib conf d' := by
  unfold eapPwdPerformConfirmExchange at h
  dsimp only at h
  split at h
  · cases h
    exact .finish houtbuf
  · rename_i hstate
    split at h
    · cases h
      exact .finish houtbuf
    · obtain ⟨grp, hgrp, h⟩ := except_bind_ok h
      obtain ⟨k, hk, h⟩ := except_bind_ok h
      obtain ⟨serverElement, hserverElement, h⟩ := except_bind_ok h
      obtain ⟨serverScalar, hserverScalar, h⟩ := except_bind_ok h
      obtain ⟨myElement, hmyElement, h⟩ := except_bind_ok h
      obtain ⟨myScalar, hmyScalar, h⟩ := except_bind_ok h
      split at h
      · cases h
        exact .finish houtbuf
      · rename_i octets hoctets
        split at h
        · cases h
          exact .finish houtbuf
        · rename_i heq
          split at h
          · cases h
            exact .finish houtbuf
          · cases h
            have ht : ∃ t, d.Holds lib conf t := by
              unfold PeerStateInv at hinv
              rw [not_not.1 hstate] at hinv
              exact hinv
            obtain ⟨t, ht⟩ := ht
            refine ⟨t, payload, ht.frame, rfl, ?_⟩
            -- the values that were read are those of the transcript
            have hg := Option.some.inj ((pwdDeref_ok hgrp).symm.trans ht.pwe.1)
            have hk' := Option.some.inj ((pwdDeref_ok hk).symm.trans ht.k)
            have he := Option.some.inj ((pwdDeref_ok hserverElement).symm.trans ht.serverElement)
            have hs := Option.some.inj ((pwdDeref_ok hserverScalar).symm.trans ht.serverScalar)
            have he' := Option.some.inj ((pwdDeref_ok hmyElement).symm.trans ht.own.2)
            have hs' := Option.some.inj ((pwdDeref_ok hmyScalar).symm.trans ht.own.1)
            subst hg hk' he hs he' hs'
            rw [← not_not.1 heq]
            exact hoctets

/-! ## Steps -/

theorem peerExchange_inv {exch : PwdExchange} (hinv : PeerStateInv lib conf d) (houtbuf : d.outbuf = none)
    (hchecked : exch = .commit → ∀ c ∈ peerCommitOf lib conf env payload d,
      CommitChecked c.1 c.2.2 (some c.2.1.element) (some c.2.1.scalar))
    (h : peerExchange lib conf env exch payload d = .ok d') : PeerStateInv lib conf d' := by
  cases exch with
  | id =>
    cases h
    exact eapPwdPerformIdExchange_inv
  | commit =>
    cases h
    exact eapPwdPerformCommitExchange_inv hinv houtbuf (hchecked rfl)
  | confirm =>
    simp only [peerExchange] at h
    exact eapPwdPerformConfirmExchange_inv hinv houtbuf h
  | unknown =>
    cases h
    exact hinv

theorem sendFragment_inv {lmExch : UInt8} {resp : Option Bytes} (hinv : PeerInv lib conf d)
    (hpos : d.outFragPos ≠ 0) (h : sendFragment conf env lmExch d = .ok (d', resp)) :
    PeerInv lib conf d' := by
  unfold sendFragment at h
  obtain ⟨outbuf, -, h⟩ := except_bind_ok h
  dsimp only at h
  split at h
  · cases h
  · split at h
    · cases h
      exact hinv
    · generalize (if conf.mtu < outbuf.length - d.outFragPos + 1 then _ else _ : Nat) = len at h
      cases h
      have houtbuf : ∀ d : PwdPeer P, d.complete.outbuf = d.outbuf ∧ d.complete.outFragPos = d.outFragPos := by
        intro d
        unfold PwdPeer.complete
        split <;> exact ⟨rfl, rfl⟩
      refine ⟨.complete ?_, ?_⟩
      · split
        · exact hinv.state.frame
        · exact hinv.state.frame
      · rw [(houtbuf _).1, (houtbuf _).2]
        split
        · exact fun _ => rfl
        · intro hzero
          exact absurd (Nat.eq_zero_of_add_eq_zero_right hzero) hpos

theorem sendResponse_inv {lmExch : UInt8} {resp : Option Bytes} (hmsg : env.msgAlloc = true)
    (hinv : PeerStateInv lib conf d) (h : sendResponse conf env lmExch d = .ok (d', resp)) :
    PeerInv lib conf d' := by
  have hcomplete : ∀ d : PwdPeer P, d.outbuf = none → d.complete.outbuf = none := by
    intro d hd
    unfold PwdPeer.complete
    split
    · exact hd
    · exact hd
  unfold sendResponse at h
  split at h
  · rename_i hnone
    cases h
    exact ⟨hinv, fun _ => hnone⟩
  · dsimp only at h
    split at h
    · rename_i hfail
      exact absurd hmsg hfail
    · split at h
      · split at h
        · cases h
        · split at h
          · cases h
            exact ⟨.complete hinv.frame, fun _ => hcomplete _ rfl⟩
          · rename_i hpos
            cases h
            exact ⟨hinv.frame, fun hzero => absurd hzero hpos⟩
      · cases h
        exact ⟨.complete hinv.frame, fun _ => hcomplete _ rfl⟩

theorem eapPwdPeerProcess_inv {resp : Option Bytes} (hinv : PeerInv lib conf d)
    (hchecked : PwdPeerChecked lib conf d ⟨msg, env⟩)
    (h : eapPwdPeerProcess lib conf env msg d = .ok (d', resp)) : PeerInv lib conf d' := by
  unfold eapPwdPeerProcess at h
  split at h
  · cases h
    exact hinv
  · rename_i lmExch input hinput
    split at h
    · rename_i hpos
      exact sendFragment_inv hinv hpos h
    · rename_i hpos
      have houtbuf := hinv.outbuf (not_not.1 hpos)
      split at h
      · cases h
        exact hinv
      · cases h
      · cases h
        exact ⟨hinv.state.frame, hinv.outbuf⟩
      · cases h
        exact ⟨hinv.state.frame, hinv.outbuf⟩
      · rename_i inbuf payload
        obtain ⟨d₁, hexch, h⟩ := except_bind_ok h
        refine sendResponse_inv hchecked.1 (PeerStateInv.frame ?_) h
        have hinv₀ : PeerStateInv lib conf { d with inbuf } := hinv.state.frame
        refine peerExchange_inv hinv₀ houtbuf ?_ hexch
        intro hcommit
        refine hchecked.2 payload ?_
        simp only [peerCommit, if_neg hpos, hinput, hcommit, if_true, Option.mem_def]

theorem reach_peerInv {evs : List PwdPeerEvent}
    (h : Run.Reach (pwdPeerStep lib conf) (PwdPeerChecked lib conf) {} evs d) : PeerInv lib conf d := by
  have hstart : PeerInv lib conf ({} : PwdPeer P) := ⟨trivial, fun _ => rfl⟩
  refine h.invariant hstart ?_
  intro d ev d' hinv hchecked hstep
  unfold pwdPeerStep at hstep
  cases hprocess : eapPwdPeerProcess lib conf ev.env ev.msg d with
  | error e =>
    rw [hprocess] at hstep
    cases hstep
  | ok r =>
    rw [hprocess] at hstep
    cases hstep
    exact eapPwdPeerProcess_inv hinv hchecked hprocess

end Peer

end Hostap
