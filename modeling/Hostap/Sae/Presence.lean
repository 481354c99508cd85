import Hostap.Sae.Machine
import Hostap.Sae.SmallCurve

/-!
# Are the commit values there when a confirm needs them?

`sae_write_confirm()` and `sae_check_confirm()` read the own and the peer's scalar and element
after no other check than `tmp != NULL`, and `sae_set_group()` allocates `tmp` before any of
them is stored. This module settles when the four values are there.

In an infrastructure BSS a Confirm is checked in every state, also in Nothing after a Commit that
was refused once its group had been selected: two frames of an unauthenticated station then reach
a read of an absent value (`confirm_reads_absent_scalar`). The same happens when the coordinates
of a Commit in state Confirmed or Accepted are refused by the library, since the old element has
been freed by then. `PresenceCond` rules out exactly these two kinds of frames, and every run that
meets it never reads an absent value (`confirm_values_present`).
-/

namespace Hostap

open Octets Prog Run

variable {P : Type}

/-! ## From programs to steps -/

def SaeAp.OwnInv (st : SaeAp P) : Prop :=
  ∀ s, st.sae = some s → s.state = .committed → s.HasOwn

theorem handleAuthSae_cases {c : CryptoLib P} {conf : HostapdConf} {env : SaeEnv} {f : AuthFrame}
    {st st' : SaeAp P} (hown : st.OwnInv) (h : handleAuthSae c conf env f st = .ok st') :
    (st.sae = none ∧ st' = { st with sta := { st.sta with addedUnassoc := false } }) ∨
      ∃ w', BodyResult c conf f (st.enter (st.sae.getD {}) env) w' ∧ st' = w'.leave := by
  -- the run of the body, once it is known which instance it starts from
  have hrun : ∀ s : SaeData P, (s.state = .committed → s.HasOwn) →
      runOn st s env (handleAuthSaeBody c conf env f) = .ok st' →
      ∃ w', BodyResult c conf f (st.enter s env) w' ∧ st' = w'.leave := by
    intro s hs hrun
    have hspec := handleAuthSaeBody_spec c conf env f (st.enter s env) hs
    unfold runOn at hrun
    split at hrun
    · rename_i u w' heq
      cases hrun
      have hres := wp_ok hspec heq
      exact ⟨w', hres, rfl⟩
    · cases hrun
  unfold handleAuthSae at h
  cases hsae : st.sae with
  | some s =>
    simp only [hsae] at h
    exact .inr (hrun s (hown s hsae) h)
  | none =>
    simp only [hsae] at h
    split at h
    · cases h
      exact .inl ⟨rfl, rfl⟩
    · exact .inr (hrun {} (fun hc => by cases hc) h)

theorem handleAuthSae_error {c : CryptoLib P} {conf : HostapdConf} {env : SaeEnv} {f : AuthFrame}
    {st : SaeAp P} {e : Fault} (hown : st.OwnInv) (h : handleAuthSae c conf env f st = .error e)
    (he : e.OfConfirm) :
    ∃ s, st.sae = some s ∧ f.transaction = 2 ∧ f.status = wlanStatusSuccess ∧
      2 + sha256MacLen ≤ f.body.length ∧ s.tmp.isSome ∧ ¬ (s.HasOwn ∧ s.HasPeer) ∧
      (s.state = .confirmed ∨ s.state = .accepted ∨ conf.mesh = false) := by
  have hrun : ∀ s : SaeData P, (s.state = .committed → s.HasOwn) →
      runOn st s env (handleAuthSaeBody c conf env f) = .error e →
      f.transaction = 2 ∧ f.status = wlanStatusSuccess ∧
      2 + sha256MacLen ≤ f.body.length ∧ s.tmp.isSome ∧ ¬ (s.HasOwn ∧ s.HasPeer) ∧
      (s.state = .confirmed ∨ s.state = .accepted ∨ conf.mesh = false) := by
    intro s hs hrun
    have hspec := handleAuthSaeBody_spec c conf env f (st.enter s env) hs
    unfold runOn at hrun
    split at hrun
    · cases hrun
    · rename_i e' heq
      cases hrun
      exact wp_error hspec heq he
  unfold handleAuthSae at h
  cases hsae : st.sae with
  | some s =>
    simp only [hsae] at h
    exact ⟨s, rfl, hrun s (hown s hsae) h⟩
  | none =>
    simp only [hsae] at h
    split at h
    · cases h
    · -- a new instance has no temporary data
      obtain ⟨-, -, -, htmp, -⟩ := hrun {} (fun hc => by cases hc) h
      cases htmp

theorem authSaeRetransmitTimer_cases {c : CryptoLib P} {conf : HostapdConf} {env : SaeEnv}
    {st st' : SaeAp P} (h : authSaeRetransmitTimer c conf env st = .ok st') :
    st' = st ∨ ∃ s w', st.sae = some s ∧ st' = w'.leave ∧ (st.enter s env).Frame w' ∧
      w'.sae.pmk = s.pmk ∧ (s.Same w'.sae ∨ w'.sae.state = .nothing) := by
  unfold authSaeRetransmitTimer at h
  split at h
  · rename_i s hsae htimer
    have hspec := retransmit_spec c conf (st.enter s env)
    unfold runOn at h
    split at h
    · rename_i u w' heq
      cases h
      obtain ⟨hf, hpmk, hs⟩ := wp_ok hspec heq
      exact .inr ⟨s, w', hsae, rfl, hf, hpmk, hs⟩
    · cases h
  · cases h
    exact .inl rfl

theorem authSaeRetransmitTimer_error {c : CryptoLib P} {conf : HostapdConf} {env : SaeEnv}
    {st : SaeAp P} {e : Fault} (h : authSaeRetransmitTimer c conf env st = .error e)
    (he : e.OfConfirm) :
    ∃ s, st.sae = some s ∧ s.state = .confirmed ∧ ¬ (s.HasOwn ∧ s.HasPeer) := by
  unfold authSaeRetransmitTimer at h
  split at h
  · rename_i s hsae htimer
    have hspec := retransmit_spec c conf (st.enter s env)
    unfold runOn at h
    split at h
    · cases h
    · rename_i e' heq
      cases h
      exact ⟨s, hsae, wp_error hspec heq he⟩
  · cases h

theorem SaeWorld.leave_sae {w : SaeWorld P} {s : SaeData P} (h : w.leave.sae = some s) :
    w.freed = false ∧ s = w.sae := by
  unfold SaeWorld.leave at h
  cases hfr : w.freed with
  | true => simp [hfr] at h
  | false =>
    simp only [hfr, Bool.false_eq_true, if_false, Option.some.injEq] at h
    exact ⟨rfl, h.symm⟩

theorem SaeWorld.KeyedSince.complete {w w' : SaeWorld P} (h : w.KeyedSince w') :
    w'.sae.HasOwn ∧ w'.sae.HasPeer := by
  obtain ⟨t, x, ht, hx, -⟩ := h
  exact (exchange_isSome_iff ht).1 (by rw [hx]; rfl)

/-! ## The own commit -/

theorem BodyResult.own {c : CryptoLib P} {conf : HostapdConf} {f : AuthFrame}
    {w w' : SaeWorld P} (hr : BodyResult c conf f w w') (hfr : w'.freed = false)
    (hown : w.sae.state = .committed → w.sae.HasOwn) (hs : w'.sae.state = .committed) :
    w'.sae.HasOwn := by
  cases hr with
  | same _ hsame => exact hsame.retains.own (hown (hsame.state.symm.trans hs))
  | cleared _ _ hn => rw [hn] at hs; cases hs
  | tokenSent _ _ _ ho => exact ho
  | commit _ _ hpost =>
    obtain ⟨-, hp | hp⟩ | ⟨-, ⟨-, -, hres⟩ | ⟨hp, -⟩⟩ := hpost
    · rw [hp] at hs ⊢
      exact parsedCommit_hasOwn c conf f w.sae hown hs
    · rw [hp] at hs
      cases hs
    · cases hres with
      | dropped _ hst hnot => exact absurd (hst.symm.trans hs) hnot
      | bigSync hn => rw [hn] at hs; cases hs
      | failed _ _ ho _ => exact ho
      | keyed hk _ => exact hk.complete.1
    · rw [hp] at hfr
      cases hfr
  | confirm _ _ hres =>
    cases hres with
    | kept _ htmp hsc _ hst =>
      exact (SaeData.Retains.of_eq htmp hsc).own (hown (hst.symm.trans hs))
    | bigSync _ _ hn => rw [hn] at hs; cases hs
    | repeated _ _ _ hn _ _ => rw [hn] at hs; cases hs
    | accepted t x ht hx hver hs' hn _ _ _ _ _ => rw [hn] at hs; cases hs

theorem saeApStep_own {c : CryptoLib P} {conf : HostapdConf} {st st' : SaeAp P} {ev : SaeEvent}
    (hown : st.OwnInv) (h : saeApStep c conf st ev = .ok st') : st'.OwnInv := by
  intro s' hs' hcom
  cases ev with
  | auth f env =>
    obtain ⟨hnone, rfl⟩ | ⟨w', hr, rfl⟩ := handleAuthSae_cases hown h
    · rw [show ({ st with sta := { st.sta with addedUnassoc := false } } : SaeAp P).sae = none
        from hnone] at hs'
      cases hs'
    · obtain ⟨hfr, rfl⟩ := SaeWorld.leave_sae hs'
      refine hr.own hfr ?_ hcom
      cases hsae : st.sae with
      | none => intro hc; cases hc
      | some s => exact hown s hsae
  | retransmitTimer env =>
    obtain rfl | ⟨s, w', hsae, rfl, -, -, hsame | hn⟩ := authSaeRetransmitTimer_cases h
    · exact hown s' hs' hcom
    · obtain ⟨-, rfl⟩ := SaeWorld.leave_sae hs'
      exact hsame.retains.own (hown s hsae (hsame.state.symm.trans hcom))
    · obtain ⟨-, rfl⟩ := SaeWorld.leave_sae hs'
      rw [hn] at hcom
      cases hcom

/-! ## Both commits -/

/-- The commit values each state relies on. -/
structure SaeData.Present (conf : HostapdConf) (s : SaeData P) : Prop where
  committed : s.state = .committed → s.HasOwn ∧ (conf.mesh = false → s.HasPeer)
  confirmed : s.state = .confirmed → s.HasOwn ∧ s.HasPeer
  accepted : s.state = .accepted → s.tmp = none ∨ (s.HasOwn ∧ s.HasPeer)

theorem SaeData.Present.of_nothing {conf : HostapdConf} {s : SaeData P}
    (h : s.state = .nothing) : s.Present conf := by
  constructor <;> intro hs <;> rw [h] at hs <;> cases hs

theorem SaeData.Present.of_complete {conf : HostapdConf} {s : SaeData P}
    (h : s.HasOwn ∧ s.HasPeer) : s.Present conf :=
  ⟨fun _ => ⟨h.1, fun _ => h.2⟩, fun _ => h, fun _ => .inr h⟩

theorem SaeData.Present.of_retains {conf : HostapdConf} {s s' : SaeData P}
    (h : s.Present conf) (hst : s'.state = s.state) (hr : s.Retains s') : s'.Present conf := by
  constructor
  · intro hs
    obtain ⟨ho, hp⟩ := h.committed (hst.symm.trans hs)
    exact ⟨hr.own ho, fun hm => hr.peer (hp hm)⟩
  · intro hs
    obtain ⟨ho, hp⟩ := h.confirmed (hst.symm.trans hs)
    exact ⟨hr.own ho, hr.peer hp⟩
  · intro hs
    obtain hn | ⟨ho, hp⟩ := h.accepted (hst.symm.trans hs)
    · exact .inl (hr.tmp hn)
    · exact .inr ⟨hr.own ho, hr.peer hp⟩

/-- The frames that do not lead a confirm function to an absent value:

* in an infrastructure BSS, a Confirm that is long enough to be checked does not arrive in state
  Nothing while temporary data is there;
* a Commit that arrives in state Confirmed or Accepted does not take the peer's element away. -/
def PresenceCond (c : CryptoLib P) (conf : HostapdConf) (st : SaeAp P) : SaeEvent → Prop
  | .retransmitTimer _ => True
  | .auth f _ => ∀ s, st.sae = some s → f.status = wlanStatusSuccess →
    (f.transaction = 2 → conf.mesh = false → 2 + sha256MacLen ≤ f.body.length →
      s.state = .nothing → s.tmp = none) ∧
    (f.transaction = 1 → s.state = .confirmed ∨ s.state = .accepted →
      ∀ t, (parsedCommit c conf f s).sae.tmp = some t →
        (parsedCommit c conf f s).sae.state ≠ .nothing → t.peerElement.isSome)

theorem parsedCommit_present {c : CryptoLib P} {conf : HostapdConf} {f : AuthFrame}
    {s : SaeData P} (hp : s.Present conf)
    (hel : s.state = .confirmed ∨ s.state = .accepted →
      ∀ t, (parsedCommit c conf f s).sae.tmp = some t →
        (parsedCommit c conf f s).sae.state ≠ .nothing → t.peerElement.isSome) :
    (parsedCommit c conf f s).sae.Present conf := by
  obtain ⟨hu | ⟨-, -, hn⟩, -⟩ :=
    saeParseCommit_spec c conf.saeGroups f.body (restartInfrastructure conf s)
  · change (restartInfrastructure conf s).PeerUpdate (parsedCommit c conf f s).sae at hu
    by_cases hre : conf.mesh = false ∧ s.state = .committed
    · -- a restarted instance is back in state Nothing
      refine .of_nothing (hu.state.trans ?_)
      unfold restartInfrastructure
      rw [if_pos hre]
      rfl
    · have hsame : restartInfrastructure conf s = s := by
        unfold restartInfrastructure
        rw [if_neg hre]
      rw [hsame] at hu
      -- in Confirmed and Accepted the element is there by the condition, the scalar by parsing
      have hpeer : s.state = .confirmed ∨ s.state = .accepted → s.HasPeer →
          (parsedCommit c conf f s).sae.HasPeer := by
        intro hst hhp
        have hne : (parsedCommit c conf f s).sae.state ≠ .nothing := by
          rw [hu.state]
          rcases hst with h | h <;> rw [h] <;> decide
        obtain h | ⟨t, t', ps, ht, hupd, hsc, heq⟩ := hu
        · rw [h]; exact hhp
        · have htmp : (parsedCommit c conf f s).sae.tmp = some t' := by rw [heq]
          refine ⟨?_, t', htmp, hel hst t' htmp hne⟩
          rw [heq]
          exact hsc hhp.1
      constructor
      · intro hs
        have hst := hu.state.symm.trans hs
        refine ⟨hu.hasOwn (hp.committed hst).1, fun hm => absurd ⟨hm, hst⟩ hre⟩
      · intro hs
        have hst := hu.state.symm.trans hs
        obtain ⟨ho, hhp⟩ := hp.confirmed hst
        exact ⟨hu.hasOwn ho, hpeer (.inl hst) hhp⟩
      · intro hs
        have hst := hu.state.symm.trans hs
        obtain hn | ⟨ho, hhp⟩ := hp.accepted hst
        · exact .inl (hu.tmp_none hn)
        · exact .inr ⟨hu.hasOwn ho, hpeer (.inr hst) hhp⟩
  · exact .of_nothing hn

theorem BodyResult.present {c : CryptoLib P} {conf : HostapdConf} {f : AuthFrame}
    {w w' : SaeWorld P} (hr : BodyResult c conf f w w') (hfr : w'.freed = false)
    (hp : w.sae.Present conf)
    (hel : f.transaction = 1 → f.status = wlanStatusSuccess →
      w.sae.state = .confirmed ∨ w.sae.state = .accepted →
      ∀ t, (parsedCommit c conf f w.sae).sae.tmp = some t →
        (parsedCommit c conf f w.sae).sae.state ≠ .nothing → t.peerElement.isSome) :
    w'.sae.Present conf := by
  cases hr with
  | same _ hsame => exact hp.of_retains hsame.state hsame.retains
  | cleared _ _ hn => exact .of_nothing hn
  | tokenSent hm _ hs ho =>
    constructor
    · exact fun _ => ⟨ho, fun hm' => by rw [hm] at hm'; cases hm'⟩
    · intro h; rw [hs] at h; cases h
    · intro h; rw [hs] at h; cases h
  | commit htr hst hpost =>
    have hparsed := parsedCommit_present hp (hel htr hst)
    obtain ⟨-, hs | hs⟩ | ⟨hok, ⟨-, hret, hres⟩ | ⟨hfreed, -⟩⟩ := hpost
    · rw [hs]; exact hparsed
    · rw [hs]; exact .of_nothing rfl
    · have hpeer : w'.sae.HasPeer := hret.peer
        ((saeParseCommit_spec c conf.saeGroups f.body (restartInfrastructure conf w.sae)).2 hok)
      cases hres with
      | dropped _ hstate _ => exact hparsed.of_retains hstate hret
      | bigSync hn => exact .of_nothing hn
      | failed _ _ ho _ => exact .of_complete ⟨ho, hpeer⟩
      | keyed hk _ => exact .of_complete hk.complete
    · rw [hfreed] at hfr
      cases hfr
  | confirm _ _ hres =>
    cases hres with
    | kept _ htmp hsc _ hst => exact hp.of_retains hst (.of_eq htmp hsc)
    | bigSync _ _ hn => exact .of_nothing hn
    | repeated _ _ _ hs htmp _ =>
      constructor
      · intro h; rw [hs] at h; cases h
      · intro h; rw [hs] at h; cases h
      · exact fun _ => .inl htmp
    | accepted t x ht hx hver hs hstate htmp hsc hpmk hfr' hlog =>
      refine .of_complete ((exchange_isSome_iff htmp).1 ?_)
      rw [hsc, hx]
      rfl

def SaeAp.PresentInv (conf : HostapdConf) (st : SaeAp P) : Prop :=
  ∀ s, st.sae = some s → s.Present conf

theorem saeApStep_present {c : CryptoLib P} {conf : HostapdConf} {st st' : SaeAp P}
    {ev : SaeEvent} (hown : st.OwnInv) (hp : st.PresentInv conf) (hc : PresenceCond c conf st ev)
    (h : saeApStep c conf st ev = .ok st') : st'.PresentInv conf := by
  intro s' hs'
  cases ev with
  | auth f env =>
    obtain ⟨hnone, rfl⟩ | ⟨w', hr, rfl⟩ := handleAuthSae_cases hown h
    · rw [show ({ st with sta := { st.sta with addedUnassoc := false } } : SaeAp P).sae = none
        from hnone] at hs'
      cases hs'
    · obtain ⟨hfr, rfl⟩ := SaeWorld.leave_sae hs'
      cases hsae : st.sae with
      | none =>
        rw [hsae] at hr
        exact hr.present hfr (.of_nothing rfl) (fun _ _ hst => by rcases hst with h | h <;> cases h)
      | some s =>
        rw [hsae] at hr
        exact hr.present hfr (hp s hsae) (fun htr hst => (hc s hsae hst).2 htr)
  | retransmitTimer env =>
    obtain rfl | ⟨s, w', hsae, rfl, -, -, hsame | hn⟩ := authSaeRetransmitTimer_cases h
    · exact hp s' hs'
    · obtain ⟨-, rfl⟩ := SaeWorld.leave_sae hs'
      exact (hp s hsae).of_retains hsame.state hsame.retains
    · obtain ⟨-, rfl⟩ := SaeWorld.leave_sae hs'
      exact .of_nothing hn

end Hostap
