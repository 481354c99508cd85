import Hostap.Sae.Presence

/-!
# Which keys a station is accepted with

The log of a station entry tells for every run which commit values a `sae_process_commit()` derived
keys from, which Confirm was verified, and when `sae_accept_sta()` ran. This module relates the
three.

* `accept_only_keyed`: a station is accepted only by a Confirm that verifies under a KCK derived
  from exactly the commit values the Confirm covers, as long as no step leaves keys and commit
  values apart (`KeyCond`). The step that does so is a failing `sae_process_commit()`, which keeps
  the state the source has set before it (`accept_without_keys`), and in a mesh a Commit that is
  dropped in state Confirmed after its values were stored.
* `handshake_pmk_confirmed`: the PMK the 4-way handshake of an authenticated station runs on is
  one that was confirmed, as long as moreover no Commit is taken up while the station is
  authenticated (`PmkCond`). A Commit that only names another group clears the PMK of an
  authenticated station (`handshake_pmk_cleared`).
-/

namespace Hostap

open Octets Prog Run

variable {P : Type}

/-! ## Keys that belong to the commit values -/

/-- From `st` to `st'` the observation `o` was made. -/
def SaeAp.Logged (st st' : SaeAp P) (o : SaeObs P) : Prop :=
  ∃ l, st'.log = st.log ++ l ∧ o ∈ l

/-- The keys of the instance were derived from the commit values it holds. -/
def SaeData.KeyedBy (log : List (SaeObs P)) (s : SaeData P) : Prop :=
  ∃ t x, s.tmp = some t ∧ t.exchange s.peerCommitScalar = some x ∧
    .processCommit (some x) t.kck s.pmk ∈ log

/-- The states from which a Confirm can be accepted hold keys of their commit values. -/
structure SaeData.Keyed (conf : HostapdConf) (log : List (SaeObs P)) (s : SaeData P) : Prop where
  confirmed : s.state = .confirmed → s.KeyedBy log
  committed : conf.mesh = false → s.state = .committed → s.KeyedBy log
  infrastructure : conf.mesh = false → s.state ≠ .confirmed

/-- `SaeData.Keyed` for the instance of an entry, if it has one. -/
def SaeAp.KeyedInv (conf : HostapdConf) (st : SaeAp P) : Prop :=
  ∀ s, st.sae = some s → s.Keyed conf st.log

theorem SaeData.Keyed.of_nothing {conf : HostapdConf} {log : List (SaeObs P)} {s : SaeData P}
    (h : s.state = .nothing) : s.Keyed conf log := by
  constructor
  · intro hs; rw [h] at hs; cases hs
  · intro _ hs; rw [h] at hs; cases hs
  · intro _ hs; rw [h] at hs; cases hs

theorem SaeData.Keyed.of_accepted {conf : HostapdConf} {log : List (SaeObs P)} {s : SaeData P}
    (h : s.state = .accepted) : s.Keyed conf log := by
  constructor
  · intro hs; rw [h] at hs; cases hs
  · intro _ hs; rw [h] at hs; cases hs
  · intro _ hs; rw [h] at hs; cases hs

theorem SaeWorld.Ext.mem_log {A : SaeObs P → Prop} {w w' : SaeWorld P} (h : w.Ext A w')
    {o : SaeObs P} (ho : o ∈ w.log) : o ∈ w'.log := by
  obtain ⟨l, hl, -⟩ := h.log
  rw [hl]
  exact List.mem_append_left l ho

theorem SaeData.KeyedBy.of_same {log log' : List (SaeObs P)} {s s' : SaeData P}
    (h : s.KeyedBy log) (hs : s.Same s') (hlog : ∀ o, o ∈ log → o ∈ log') : s'.KeyedBy log' := by
  obtain ⟨t, x, ht, hx, hmem⟩ := h
  obtain htmp | ⟨t₀, tok, ht₀, htmp⟩ := hs.tmp
  · refine ⟨t, x, htmp.trans ht, by rw [hs.scalar]; exact hx, ?_⟩
    rw [hs.pmk]
    exact hlog _ hmem
  · rw [ht] at ht₀
    cases ht₀
    refine ⟨_, x, htmp, ?_, ?_⟩
    · rw [hs.scalar]
      exact hx
    · rw [hs.pmk]
      exact hlog _ hmem

theorem SaeData.Keyed.of_same {conf : HostapdConf} {log log' : List (SaeObs P)} {s s' : SaeData P}
    (h : s.Keyed conf log) (hs : s.Same s') (hlog : ∀ o, o ∈ log → o ∈ log') :
    s'.Keyed conf log' := by
  constructor
  · intro hst
    exact (h.confirmed (hs.state.symm.trans hst)).of_same hs hlog
  · intro hm hst
    exact (h.committed hm (hs.state.symm.trans hst)).of_same hs hlog
  · intro hm hst
    exact h.infrastructure hm (hs.state.symm.trans hst)

/-- The steps that keep keys and commit values together:

* in an infrastructure BSS, no `sae_process_commit()` fails;
* in a mesh, a Commit that arrives in state Confirmed and leaves it there was refused before any
  of its values was stored, or had new keys derived from them. -/
def KeyCond (c : CryptoLib P) (conf : HostapdConf) (st : SaeAp P) : SaeEvent → Prop
  | .retransmitTimer _ => True
  | .auth f env => ∀ st', handleAuthSae c conf env f st = .ok st' →
    (conf.mesh = false → ¬ st.Logged st' .processCommitFailed) ∧
    (conf.mesh = true → f.transaction = 1 → f.status = wlanStatusSuccess →
      ∀ s s', st.sae = some s → st'.sae = some s' → s.state = .confirmed → s'.state = .confirmed →
        ((parsedCommit c conf f s).sae = s ∧
          (parsedCommit c conf f s).status ≠ wlanStatusSuccess) ∨
        ∃ x kck pmk, st.Logged st' (.processCommit x kck pmk))

theorem parsedCommit_cases (c : CryptoLib P) (conf : HostapdConf) (f : AuthFrame) (s : SaeData P)
    (hre : ¬ (conf.mesh = false ∧ s.state = .committed)) :
    s.PeerUpdate (parsedCommit c conf f s).sae ∨
      (NamesOtherGroup conf.saeGroups f.body s ∧
        (parsedCommit c conf f s).sae.state = .nothing) := by
  have hsame : restartInfrastructure conf s = s := by
    unfold restartInfrastructure
    rw [if_neg hre]
  obtain ⟨hu | ⟨hn, -, hs⟩, -⟩ :=
    saeParseCommit_spec c conf.saeGroups f.body (restartInfrastructure conf s)
  · exact .inl (by simpa only [parsedCommit, hsame] using hu)
  · exact .inr ⟨by simpa only [hsame] using hn, hs⟩

theorem parsedCommit_state {c : CryptoLib P} {conf : HostapdConf} {f : AuthFrame} {s : SaeData P}
    (h : (parsedCommit c conf f s).sae.state ≠ .nothing) :
    (parsedCommit c conf f s).sae.state = s.state ∧ ¬ (conf.mesh = false ∧ s.state = .committed) := by
  have hre : ¬ (conf.mesh = false ∧ s.state = .committed) := by
    intro hre
    apply h
    have hrs : restartInfrastructure conf s = saeClearData s := by
      unfold restartInfrastructure
      rw [if_pos hre]
    obtain ⟨hu | ⟨-, -, hs⟩, -⟩ :=
      saeParseCommit_spec c conf.saeGroups f.body (restartInfrastructure conf s)
    · refine hu.state.trans ?_
      rw [hrs]
      rfl
    · exact hs
  obtain hu | ⟨-, hn⟩ := parsedCommit_cases c conf f s hre
  · exact ⟨hu.state, hre⟩
  · exact absurd hn h

theorem HandleCommitPost.keyed {c : CryptoLib P} {conf : HostapdConf} {f : AuthFrame}
    {w w' : SaeWorld P} (hpost : HandleCommitPost c conf f w w') (hfr : w'.freed = false)
    (hk : w.sae.Keyed conf w.log)
    (hfail : conf.mesh = false → ¬ w.Logged w' .processCommitFailed)
    (hdrop : conf.mesh = true → w.sae.state = .confirmed → w'.sae.state = .confirmed →
      ((parsedCommit c conf f w.sae).sae = w.sae ∧
        (parsedCommit c conf f w.sae).status ≠ wlanStatusSuccess) ∨
      ∃ x kck pmk, w.Logged w' (.processCommit x kck pmk)) :
    w'.sae.Keyed conf w'.log := by
  -- without new keys, only a Commit that stored nothing leaves state Confirmed behind
  have hunkeyed : w.Unkeyed w' →
      (w'.sae.state = .confirmed → w.sae.state = .confirmed ∧
        (w.sae.Same w'.sae ∨ (parsedCommit c conf f w.sae).status = wlanStatusSuccess ∨
          (parsedCommit c conf f w.sae).sae ≠ w.sae)) →
      (conf.mesh = false → w'.sae.state ≠ .committed) → w'.sae.Keyed conf w'.log := by
    intro hu hconf hcom
    constructor
    · intro hs
      obtain ⟨hs₀, hwhy⟩ := hconf hs
      cases hm : conf.mesh with
      | false => exact absurd hs₀ (hk.infrastructure hm)
      | true =>
        obtain ⟨heq, hst⟩ | ⟨x, kck, pmk, hlog⟩ := hdrop hm hs₀ hs
        · obtain hsame | hsucc | hne := hwhy
          · exact (hk.confirmed hs₀).of_same hsame (fun o ho => hu.mem_log ho)
          · exact absurd hsucc hst
          · exact absurd heq hne
        · exact absurd rfl ((hu.of_logged hlog).2 x kck pmk)
    · intro hm hs
      exact absurd hs (hcom hm)
    · intro hm hs
      exact hk.infrastructure hm (hconf hs).1
  obtain ⟨hu, hs | hs⟩ | ⟨hok, ⟨hf, hret, hres⟩ | ⟨hfreed, -⟩⟩ := hpost
  · refine hunkeyed hu ?_ ?_
    · intro hst
      have hne : (parsedCommit c conf f w.sae).sae.state ≠ .nothing := by
        rw [← hs, hst]; decide
      obtain ⟨hstate, -⟩ := parsedCommit_state hne
      rw [← hs, hst] at hstate
      refine ⟨hstate.symm, ?_⟩
      by_cases heq : (parsedCommit c conf f w.sae).sae = w.sae
      · rw [hs, heq]
        exact .inl (.refl _)
      · exact .inr (.inr heq)
    · intro hm hst
      have hne : (parsedCommit c conf f w.sae).sae.state ≠ .nothing := by
        rw [← hs, hst]; decide
      obtain ⟨hstate, hre⟩ := parsedCommit_state hne
      rw [← hs, hst] at hstate
      exact hre ⟨hm, hstate.symm⟩
  · exact .of_nothing (by rw [hs])
  · -- the state machine ran on the parsed instance, whose log is the one of `w`
    have hparsed : (parsedCommit c conf f w.sae).sae.state ≠ .nothing →
        (parsedCommit c conf f w.sae).sae.state = w.sae.state :=
      fun h => (parsedCommit_state h).1
    cases hres with
    | dropped hu hstate hnot =>
      have hu' : w.Unkeyed w' := ⟨hu.auth, hu.authAlg, hu.freed, hu.log⟩
      refine hunkeyed hu' ?_ ?_
      · intro hst
        have hp : (parsedCommit c conf f w.sae).sae.state = .confirmed := hstate.symm.trans hst
        refine ⟨?_, .inr (.inl hok)⟩
        rw [← hparsed (by rw [hp]; decide), hp]
      · intro _ hst
        exact hnot (hstate.symm.trans hst)
    | bigSync hn => exact .of_nothing hn
    | failed hu hlog _ hstate =>
      have hu' : w.Unkeyed w' := ⟨hu.auth, hu.authAlg, hu.freed, hu.log⟩
      refine hunkeyed hu' ?_ ?_
      · intro hst
        rcases hstate with h | ⟨-, hp⟩
        · rw [h] at hst; cases hst
        · refine ⟨?_, .inr (.inl hok)⟩
          have hp' : (parsedCommit c conf f w.sae).sae.state = .confirmed := hp
          rw [← hparsed (by rw [hp']; decide), hp']
      · intro hm
        exact absurd hlog (hfail hm)
    | keyed hkeyed hstate =>
      obtain ⟨t, x, ht, hx, hlog⟩ := hkeyed
      have hby : w'.sae.KeyedBy w'.log := ⟨t, x, ht, hx, hlog.mem⟩
      refine ⟨fun _ => hby, fun _ _ => hby, fun hm hst => ?_⟩
      rcases hstate with h | ⟨-, h | h | h⟩
      · rw [h] at hst; cases hst
      · rw [hm] at h; cases h
      · -- an infrastructure instance is restarted before it is parsed in state Committed
        have hp : (parsedCommit c conf f w.sae).sae.state = .committed := h
        obtain ⟨hs, hre⟩ := parsedCommit_state (c := c) (f := f) (by rw [hp]; decide)
        exact hre ⟨hm, by rw [← hs, hp]⟩
      · have hp : (parsedCommit c conf f w.sae).sae.state = .confirmed := h
        have hs := hparsed (by rw [hp]; decide)
        exact hk.infrastructure hm (by rw [← hs, hp])
  · rw [hfreed] at hfr
    cases hfr

theorem BodyResult.keyed {c : CryptoLib P} {conf : HostapdConf} {f : AuthFrame}
    {w w' : SaeWorld P} (hr : BodyResult c conf f w w') (hfr : w'.freed = false)
    (hk : w.sae.Keyed conf w.log)
    (hfail : conf.mesh = false → ¬ w.Logged w' .processCommitFailed)
    (hdrop : conf.mesh = true → f.transaction = 1 → f.status = wlanStatusSuccess →
      w.sae.state = .confirmed → w'.sae.state = .confirmed →
      ((parsedCommit c conf f w.sae).sae = w.sae ∧
        (parsedCommit c conf f w.sae).status ≠ wlanStatusSuccess) ∨
      ∃ x kck pmk, w.Logged w' (.processCommit x kck pmk)) :
    w'.sae.Keyed conf w'.log := by
  cases hr with
  | same hf hsame => exact hk.of_same hsame (fun o ho => hf.mem_log ho)
  | cleared _ _ hn => exact .of_nothing hn
  | tokenSent hm _ hs _ =>
    constructor
    · intro h; rw [hs] at h; cases h
    · intro hm'; rw [hm] at hm'; cases hm'
    · intro hm'; rw [hm] at hm'; cases hm'
  | commit htr hst hpost => exact hpost.keyed hfr hk hfail (fun hm => hdrop hm htr hst)
  | confirm _ _ hres =>
    cases hres with
    | kept hf htmp hsc hpmk hst =>
      exact hk.of_same ⟨hst, hpmk, hsc, .inl htmp⟩ (fun o ho => hf.mem_log ho)
    | bigSync _ _ hn => exact .of_nothing hn
    | repeated _ _ _ hs _ _ => exact .of_accepted hs
    | accepted t x ht hx hver hs hstate htmp hsc hpmk hfr' hlog => exact .of_accepted hstate

theorem SaeAp.KeyedInv.getD {conf : HostapdConf} {st : SaeAp P} (hk : st.KeyedInv conf) :
    (st.sae.getD {}).Keyed conf st.log := by
  cases hsae : st.sae with
  | none => exact .of_nothing rfl
  | some s => exact hk s hsae

theorem saeApStep_keyed {c : CryptoLib P} {conf : HostapdConf} {st st' : SaeAp P} {ev : SaeEvent}
    (hown : st.OwnInv) (hk : st.KeyedInv conf) (hc : KeyCond c conf st ev)
    (h : saeApStep c conf st ev = .ok st') : st'.KeyedInv conf := by
  intro s' hs'
  cases ev with
  | auth f env =>
    obtain ⟨hfail, hdrop⟩ := hc st' h
    obtain ⟨hnone, rfl⟩ | ⟨w', hr, rfl⟩ := handleAuthSae_cases hown h
    · rw [show ({ st with sta := { st.sta with addedUnassoc := false } } : SaeAp P).sae = none
        from hnone] at hs'
      cases hs'
    · have hs'' := hs'
      obtain ⟨hfr, rfl⟩ := SaeWorld.leave_sae hs'
      refine hr.keyed hfr hk.getD hfail ?_
      intro hm htr hst hs₀ hs₁
      cases hsae : st.sae with
      | none =>
        rw [hsae] at hs₀
        cases hs₀
      | some s =>
        rw [hsae] at hs₀
        exact hdrop hm htr hst s w'.sae hsae hs'' hs₀ hs₁
  | retransmitTimer env =>
    obtain rfl | ⟨s, w', hsae, rfl, hf, -, hsame | hn⟩ := authSaeRetransmitTimer_cases h
    · exact hk s' hs'
    · obtain ⟨-, rfl⟩ := SaeWorld.leave_sae hs'
      exact (hk s hsae).of_same hsame (fun o ho => hf.mem_log ho)
    · obtain ⟨-, rfl⟩ := SaeWorld.leave_sae hs'
      exact .of_nothing hn

theorem Reach.keyed {c : CryptoLib P} {conf : HostapdConf} {st₀ st : SaeAp P}
    {evs : List SaeEvent} {C : SaeAp P → SaeEvent → Prop} (h₀ : st₀.sae = none)
    (hC : ∀ st ev, C st ev → KeyCond c conf st ev)
    (hrun : Reach (saeApStep c conf) C st₀ evs st) : st.OwnInv ∧ st.KeyedInv conf := by
  refine hrun.invariant (I := fun st => st.OwnInv ∧ st.KeyedInv conf) ⟨?_, ?_⟩ ?_
  · intro s hs; rw [h₀] at hs; cases hs
  · intro s hs; rw [h₀] at hs; cases hs
  · intro s a s' hinv hca hstep
    exact ⟨saeApStep_own hinv.1 hstep, saeApStep_keyed hinv.1 hinv.2 (hC s a hca) hstep⟩

/-! ## Acceptance -/

theorem BodyResult.accepts {c : CryptoLib P} {conf : HostapdConf} {f : AuthFrame}
    {w w' : SaeWorld P} (hr : BodyResult c conf f w w') {pmk pmkid : Bytes}
    (hacc : w.Logged w' (.acceptSta pmk pmkid)) :
    f.transaction = 2 ∧ ∃ t x, w.sae.tmp = some t ∧
      t.exchange w.sae.peerCommitScalar = some x ∧
      saeVerifier c t.group t.kck (f.body.take 2) x = .ok (slice f.body 2 sha256MacLen) ∧
      (w.sae.state = .confirmed ∨ (w.sae.state = .committed ∧ conf.mesh = false)) := by
  have hno : ∀ {A : SaeObs P → Prop}, w.Ext A w' → (∀ o, A o → o.NotAccept) → False :=
    fun hext hA => hA _ (hext.of_logged hacc) pmk pmkid rfl
  cases hr with
  | same hf _ => exact (hno hf (fun _ h => h)).elim
  | cleared _ hf _ => exact (hno hf (fun _ h => h)).elim
  | tokenSent _ hf _ _ => exact (hno hf (fun _ h => h)).elim
  | commit _ _ hpost =>
    obtain ⟨hu, -⟩ | ⟨-, ⟨hf, -, -⟩ | ⟨-, l, hl, hn⟩⟩ := hpost
    · exact (hno hu (fun _ h => h.1)).elim
    · have hf' : w.Frame w' := ⟨hf.auth, hf.authAlg, hf.freed, hf.log⟩
      exact (hno hf' (fun _ h => h)).elim
    · obtain ⟨l', hl', ho⟩ := hacc
      have heq : l = l' := List.append_cancel_left (hl.symm.trans hl')
      exact absurd rfl (hn _ (heq ▸ ho) pmk pmkid)
  | confirm htr _ hres =>
    cases hres with
    | kept hf _ _ _ _ => exact (hno hf (fun _ h => h)).elim
    | bigSync hf _ _ => exact (hno hf (fun _ h => h)).elim
    | repeated hf _ _ _ _ _ => exact (hno hf (fun _ h => h)).elim
    | accepted t x ht hx hver hs _ _ _ _ _ _ => exact ⟨htr, t, x, ht, hx, hver, hs⟩

/-- **Acceptance follows a derivation.** In every run from an entry without SAE state all of whose
events meet the condition, `sae_accept_sta()` is reached only by a Confirm that verifies under a
KCK which a successful `sae_process_commit()` derived from exactly the commit values that the
Confirm covers. -/
theorem accept_only_keyed (c : CryptoLib P) (conf : HostapdConf) {st₀ st st' : SaeAp P}
    {evs : List SaeEvent} {ev : SaeEvent} {pmk pmkid : Bytes} (h₀ : st₀.sae = none)
    (hrun : Reach (saeApStep c conf) (KeyCond c conf) st₀ evs st)
    (hstep : saeApStep c conf st ev = .ok st') (hacc : st.Logged st' (.acceptSta pmk pmkid)) :
    ∃ f env s t x, ev = .auth f env ∧ f.transaction = 2 ∧ st.sae = some s ∧ s.tmp = some t ∧
      t.exchange s.peerCommitScalar = some x ∧ .processCommit (some x) t.kck s.pmk ∈ st.log ∧
      saeVerifier c t.group t.kck (f.body.take 2) x = .ok (slice f.body 2 sha256MacLen) := by
  obtain ⟨hown, hk⟩ := Reach.keyed h₀ (fun _ _ h => h) hrun
  have hno : st'.log = st.log → False := by
    intro hlog
    obtain ⟨l, hl, ho⟩ := hacc
    have hnil : l = [] := by simpa [hlog] using hl
    rw [hnil] at ho
    cases ho
  cases ev with
  | auth f env =>
    obtain ⟨-, rfl⟩ | ⟨w', hr, rfl⟩ := handleAuthSae_cases hown hstep
    · exact (hno rfl).elim
    · obtain ⟨htr, t, x, ht, hx, hver, hstate⟩ := hr.accepts hacc
      cases hsae : st.sae with
      | none =>
        rw [hsae] at ht
        cases ht
      | some s =>
        rw [hsae] at ht hx hstate
        have hkeyed : s.KeyedBy st.log := by
          rcases hstate with h | ⟨h, hm⟩
          · exact (hk s hsae).confirmed h
          · exact (hk s hsae).committed hm h
        obtain ⟨t₁, x₁, ht₁, hx₁, hmem⟩ := hkeyed
        have ht' : s.tmp = some t := ht
        have hx' : t.exchange s.peerCommitScalar = some x := hx
        rw [ht'] at ht₁
        cases ht₁
        rw [hx'] at hx₁
        cases hx₁
        exact ⟨f, env, s, t, x, rfl, htr, rfl, ht', hx', hmem, hver⟩
  | retransmitTimer env =>
    obtain rfl | ⟨s, w', hsae, rfl, hf, -, -⟩ := authSaeRetransmitTimer_cases hstep
    · exact (hno rfl).elim
    · exact absurd rfl (SaeWorld.Ext.of_logged hf hacc pmk pmkid)

theorem smallCommit_keyCond : KeyCond smallLib smallConf smallSta (smallCommit 3) := by
  intro st' h
  have hst' : smallCommitted = st' := Except.ok.inj (step_smallCommit.symm.trans h)
  subst hst'
  refine ⟨fun _ => ?_, nofun⟩
  rintro ⟨l, hl, ho⟩
  rw [← show smallCommitted.log = l from hl] at ho
  simp [smallCommitted] at ho

/-- A whole exchange on the small curve: the Confirm that is accepted covers the commit values the
keys were derived from. -/
theorem accept_only_keyed_small :
    ∃ f env s t x, smallConfirm = .auth f env ∧ f.transaction = 2 ∧
      smallCommitted.sae = some s ∧ s.tmp = some t ∧ t.exchange s.peerCommitScalar = some x ∧
      .processCommit (some x) t.kck s.pmk ∈ smallCommitted.log ∧
      saeVerifier smallLib t.group t.kck (f.body.take 2) x = .ok (slice f.body 2 sha256MacLen) := by
  have hrun : Reach (saeApStep smallLib smallConf) (KeyCond smallLib smallConf) smallSta
      [smallCommit 3] smallCommitted := .next .start smallCommit_keyCond step_smallCommit
  have hacc : smallCommitted.Logged (smallAccepted 3 smallTag smallTag [2] smallCommitted.log)
      (.acceptSta smallTag [2]) := ⟨_, rfl, by simp⟩
  exact accept_only_keyed smallLib smallConf rfl hrun step_smallConfirm hacc

/-- A Commit whose element is the inverse of its scalar times the password element makes `K` the
identity, so no keys are derived. The state is Committed nevertheless, and the Confirm is then
accepted under the all-zero KCK that was never written. -/
theorem accept_without_keys :
    ∃ st st', Reach (saeApStep smallLib smallConf) always smallSta [smallCommit 2] st ∧
      (st.sae.bind (·.tmp)).map (·.kck) = some (zeros 32) ∧
      saeApStep smallLib smallConf st smallConfirm = .ok st' ∧
      st.Logged st' (.acceptSta (zeros 32) (zeros 16)) ∧
      ∀ x kck pmk, .processCommit x kck pmk ∉ st'.log := by
  refine ⟨smallUnkeyed, _, .next .start trivial step_smallCommit_identity, rfl,
    step_smallConfirm_unkeyed, ⟨_, rfl, by simp⟩, ?_⟩
  intro x kck pmk hmem
  simp [smallAccepted, smallUnkeyed] at hmem

/-! ## The PMK of an authenticated station -/

/-- The PMK was derived in an exchange, whose Confirm was then verified, and the station was then
accepted with it. -/
def Confirmed (log : List (SaeObs P)) (pmk : Bytes) : Prop :=
  ∃ x kck pmkid, [.processCommit (some x) kck pmk, .confirmVerified (some x) kck,
    .acceptSta pmk pmkid].Sublist log

theorem Confirmed.of_ext {A : SaeObs P → Prop} {w w' : SaeWorld P} {pmk : Bytes}
    (h : Confirmed w.log pmk) (hext : w.Ext A w') : Confirmed w'.log pmk := by
  obtain ⟨x, kck, pmkid, hsub⟩ := h
  obtain ⟨l, hl, -⟩ := hext.log
  refine ⟨x, kck, pmkid, ?_⟩
  rw [hl]
  exact hsub.trans (List.sublist_append_left w.log l)

def SaeAp.IsAuthenticated (st : SaeAp P) : Prop :=
  st.sta.auth = true ∧ st.sta.authAlg = wlanAuthSae

/-- The PMK of an authenticated station is confirmed, and no new exchange is under way. -/
def SaeAp.PmkInv (st : SaeAp P) : Prop :=
  st.IsAuthenticated → ∃ s, st.sae = some s ∧ Confirmed st.log s.pmk ∧
    s.state ≠ .committed ∧ s.state ≠ .confirmed

/-- The steps that leave the PMK of an authenticated station alone: those of `KeyCond`, and no
Commit of an authenticated station parses or names another group that is allowed. -/
def PmkCond (c : CryptoLib P) (conf : HostapdConf) (st : SaeAp P) (ev : SaeEvent) : Prop :=
  KeyCond c conf st ev ∧
    match ev with
    | .retransmitTimer _ => True
    | .auth f _ => ∀ s, st.sae = some s → st.IsAuthenticated → f.transaction = 1 →
      f.status = wlanStatusSuccess →
      (parsedCommit c conf f s).status ≠ wlanStatusSuccess ∧
        ¬ NamesOtherGroup conf.saeGroups f.body s

theorem BodyResult.pmk {c : CryptoLib P} {conf : HostapdConf} {f : AuthFrame}
    {w w' : SaeWorld P} (hr : BodyResult c conf f w w') (hmesh : conf.mesh = false)
    (hpmk : Confirmed w.log w.sae.pmk) (hcom : w.sae.state ≠ .committed)
    (hcon : w.sae.state ≠ .confirmed)
    (hparse : f.transaction = 1 → f.status = wlanStatusSuccess →
      (parsedCommit c conf f w.sae).status ≠ wlanStatusSuccess ∧
        ¬ NamesOtherGroup conf.saeGroups f.body w.sae) :
    Confirmed w'.log w'.sae.pmk ∧ w'.sae.state ≠ .committed ∧ w'.sae.state ≠ .confirmed := by
  cases hr with
  | same hf hsame =>
    rw [hsame.pmk, hsame.state]
    exact ⟨hpmk.of_ext hf, hcom, hcon⟩
  | cleared hm _ _ => rw [hmesh] at hm; cases hm
  | tokenSent hm _ _ _ => rw [hmesh] at hm; cases hm
  | commit htr hst hpost =>
    obtain ⟨hns, hng⟩ := hparse htr hst
    obtain hu | ⟨hg, -⟩ := parsedCommit_cases c conf f w.sae (fun h => hcom h.2)
    · obtain ⟨hk, hs | hs⟩ | ⟨hok, -⟩ := hpost
      · rw [hs, hu.pmk, hu.state]
        exact ⟨hpmk.of_ext hk, hcom, hcon⟩
      · rw [hs]
        refine ⟨?_, fun h => (nomatch h), fun h => (nomatch h)⟩
        rw [show ({ (parsedCommit c conf f w.sae).sae with state := .nothing } : SaeData P).pmk =
          w.sae.pmk from hu.pmk]
        exact hpmk.of_ext hk
      · exact absurd hok hns
    · exact absurd hg hng
  | confirm _ _ hres =>
    cases hres with
    | kept hf _ _ hp hst =>
      rw [hp, hst]
      exact ⟨hpmk.of_ext hf, hcom, hcon⟩
    | bigSync hf hp hn =>
      rw [hp, hn]
      exact ⟨hpmk.of_ext hf, by decide, by decide⟩
    | repeated hf hp _ hs _ _ =>
      rw [hp, hs]
      exact ⟨hpmk.of_ext hf, by decide, by decide⟩
    | accepted t x ht hx hver hs _ _ _ _ _ _ =>
      rcases hs with h | ⟨h, -⟩
      · exact absurd h hcon
      · exact absurd h hcom

theorem BodyResult.flags {c : CryptoLib P} {conf : HostapdConf} {f : AuthFrame}
    {w w' : SaeWorld P} (hr : BodyResult c conf f w w') (hk : w.sae.Keyed conf w.log) :
    w'.freed = true ∨ (w'.sta.auth = w.sta.auth ∧ w'.sta.authAlg = w.sta.authAlg) ∨
      (Confirmed w'.log w'.sae.pmk ∧ w'.sae.state = .accepted) := by
  cases hr with
  | same hf _ => exact .inr (.inl ⟨hf.auth, hf.authAlg⟩)
  | cleared _ hf _ => exact .inr (.inl ⟨hf.auth, hf.authAlg⟩)
  | tokenSent _ hf _ _ => exact .inr (.inl ⟨hf.auth, hf.authAlg⟩)
  | commit _ _ hpost =>
    obtain ⟨hu, -⟩ | ⟨-, ⟨hf, -, -⟩ | ⟨hfr, -⟩⟩ := hpost
    · exact .inr (.inl ⟨hu.auth, hu.authAlg⟩)
    · exact .inr (.inl ⟨hf.auth, hf.authAlg⟩)
    · exact .inl hfr
  | confirm _ _ hres =>
    cases hres with
    | kept hf _ _ _ _ => exact .inr (.inl ⟨hf.auth, hf.authAlg⟩)
    | bigSync hf _ _ => exact .inr (.inl ⟨hf.auth, hf.authAlg⟩)
    | repeated hf _ _ _ _ _ => exact .inr (.inl ⟨hf.auth, hf.authAlg⟩)
    | accepted t x ht hx hver hs hstate _ _ hpmk _ hlog =>
      refine .inr (.inr ⟨?_, hstate⟩)
      have hkeyed : w.sae.KeyedBy w.log := by
        rcases hs with h | ⟨h, hm⟩
        · exact hk.confirmed h
        · exact hk.committed hm h
      obtain ⟨t₁, x₁, ht₁, hx₁, hmem⟩ := hkeyed
      rw [ht] at ht₁
      cases ht₁
      rw [hx] at hx₁
      cases hx₁
      obtain ⟨l, pmkid, hl, hsub⟩ := hlog
      -- the derivation is in the log so far, the other two were just added to it
      refine ⟨x, t.kck, pmkid, ?_⟩
      rw [hl, hpmk]
      exact (List.singleton_sublist.2 hmem).append hsub

theorem saeApStep_pmk {c : CryptoLib P} {conf : HostapdConf} {st st' : SaeAp P} {ev : SaeEvent}
    (hmesh : conf.mesh = false) (hown : st.OwnInv) (hk : st.KeyedInv conf) (hp : st.PmkInv)
    (hc : PmkCond c conf st ev) (h : saeApStep c conf st ev = .ok st') : st'.PmkInv := by
  intro hauth
  cases ev with
  | auth f env =>
    obtain ⟨hnone, rfl⟩ | ⟨w', hr, rfl⟩ := handleAuthSae_cases hown h
    · obtain ⟨s, hs, -⟩ := hp hauth
      rw [hnone] at hs
      cases hs
    · have hfr : w'.freed = false := by
        cases hfr : w'.freed with
        | false => rfl
        | true =>
          have hno := hauth.1
          simp [SaeWorld.leave, hfr] at hno
      have hleave : w'.leave.sae = some w'.sae ∧ w'.leave.sta = w'.sta := by
        simp [SaeWorld.leave, hfr]
      obtain h' | ⟨ha, halg⟩ | ⟨hconf, hstate⟩ := hr.flags hk.getD
      · rw [h'] at hfr; cases hfr
      · -- the flags were set before, so there is a confirmed PMK to keep
        have hauth₀ : st.IsAuthenticated := by
          unfold SaeAp.IsAuthenticated at hauth
          rw [hleave.2] at hauth
          exact ⟨ha.symm.trans hauth.1, halg.symm.trans hauth.2⟩
        obtain ⟨s, hs, hpmk, hcom, hcon⟩ := hp hauth₀
        rw [hs] at hr
        exact ⟨w'.sae, hleave.1, hr.pmk hmesh hpmk hcom hcon (hc.2 s hs hauth₀)⟩
      · exact ⟨w'.sae, hleave.1, hconf, by rw [hstate]; decide, by rw [hstate]; decide⟩
  | retransmitTimer env =>
    obtain rfl | ⟨s, w', hsae, rfl, hf, hpmk', hsame⟩ := authSaeRetransmitTimer_cases h
    · exact hp hauth
    · have hfr : w'.freed = false := hf.freed
      have hauth₀ : st.IsAuthenticated := by
        simp only [SaeAp.IsAuthenticated, SaeWorld.leave, hfr, Bool.false_eq_true, if_false]
          at hauth
        exact ⟨hf.auth.symm.trans hauth.1, hf.authAlg.symm.trans hauth.2⟩
      obtain ⟨s₀, hs₀, hconf, hcom, hcon⟩ := hp hauth₀
      rw [hsae] at hs₀
      cases hs₀
      refine ⟨w'.sae, by simp [SaeWorld.leave, hfr], ?_, ?_⟩
      · rw [hpmk']
        exact Confirmed.of_ext (w := st.enter s env) hconf hf
      · rcases hsame with hsame | hn
        · rw [hsame.state]
          exact ⟨hcom, hcon⟩
        · rw [hn]
          exact ⟨by decide, by decide⟩

/-- **The 4-way handshake runs on a confirmed PMK.** In every run of an infrastructure BSS from a
station entry without SAE state all of whose events meet the condition, the PMK that is handed to
the 4-way handshake of an authenticated station was derived in an exchange whose Confirm was
verified and accepted. -/
theorem handshake_pmk_confirmed (c : CryptoLib P) (conf : HostapdConf) {st₀ st : SaeAp P}
    {evs : List SaeEvent} (hmesh : conf.mesh = false) (h₀ : st₀.sae = none)
    (hauth₀ : st₀.sta.auth = false)
    (hrun : Reach (saeApStep c conf) (PmkCond c conf) st₀ evs st) (hauth : st.IsAuthenticated) :
    ∃ pmk, hostapdWpaAuthGetPsk st false = some pmk ∧ Confirmed st.log pmk := by
  have hinv : (st.OwnInv ∧ st.KeyedInv conf) ∧ st.PmkInv := by
    refine hrun.invariant
      (I := fun st => (st.OwnInv ∧ st.KeyedInv conf) ∧ st.PmkInv) ⟨⟨?_, ?_⟩, ?_⟩ ?_
    · intro s hs; rw [h₀] at hs; cases hs
    · intro s hs; rw [h₀] at hs; cases hs
    · intro h
      have hno := h.1
      rw [hauth₀] at hno
      cases hno
    · rintro s a s' ⟨⟨hown, hk⟩, hp⟩ hca hstep
      exact ⟨⟨saeApStep_own hown hstep, saeApStep_keyed hown hk hca.1 hstep⟩,
        saeApStep_pmk hmesh hown hk hp hca hstep⟩
  obtain ⟨s, hs, hconf, -⟩ := hinv.2 hauth
  refine ⟨s.pmk, ?_, hconf⟩
  simp [hostapdWpaAuthGetPsk, hauth.2, hs]

theorem smallConfirm_pmkCond : PmkCond smallLib smallConf smallCommitted smallConfirm := by
  refine ⟨?_, fun s _ hauth => absurd hauth.1 (by decide)⟩
  intro st' h
  have hst' : smallAccepted 3 smallTag smallTag [2] smallCommitted.log = st' :=
    Except.ok.inj (step_smallConfirm.symm.trans h)
  subst hst'
  refine ⟨fun _ => ?_, nofun⟩
  rintro ⟨l, hl, ho⟩
  rw [← List.append_cancel_left hl] at ho
  simp at ho

/-- A whole exchange on the small curve, after which the station is authenticated. -/
theorem handshake_pmk_confirmed_small :
    ∃ pmk, hostapdWpaAuthGetPsk
        (smallAccepted 3 smallTag smallTag [2] smallCommitted.log) false = some pmk ∧
      Confirmed (smallAccepted 3 smallTag smallTag [2] smallCommitted.log).log pmk := by
  have hfirst : PmkCond smallLib smallConf smallSta (smallCommit 3) :=
    ⟨smallCommit_keyCond, fun s hs => by cases hs⟩
  have hrun : Reach (saeApStep smallLib smallConf) (PmkCond smallLib smallConf) smallSta
      [smallCommit 3, smallConfirm]
      (smallAccepted 3 smallTag smallTag [2] smallCommitted.log) :=
    .next (.next .start hfirst step_smallCommit) smallConfirm_pmkCond step_smallConfirm
  exact handshake_pmk_confirmed smallLib smallConf rfl rfl rfl hrun ⟨rfl, rfl⟩

/-- After a whole exchange, a Commit of two octets that names another supported group clears the
PMK of the authenticated station: the all-zero block is what the 4-way handshake would run on. -/
theorem handshake_pmk_cleared :
    ∃ st, Reach (saeApStep smallLib smallConf) always smallSta
        [smallCommit 3, smallConfirm, smallOtherGroup] st ∧
      st.IsAuthenticated ∧ hostapdWpaAuthGetPsk st false = some (zeros 32) ∧
      ¬ Confirmed st.log (zeros 32) := by
  refine ⟨smallCleared, .next (.next (.next .start trivial step_smallCommit) trivial
    step_smallConfirm) trivial step_smallOtherGroup, ⟨rfl, rfl⟩, rfl, ?_⟩
  rintro ⟨x, kck, pmkid, hsub⟩
  have hmem := hsub.subset (List.mem_cons_self ..)
  simp [smallCleared, smallAccepted, smallCommitted, smallTag, zeros] at hmem

end Hostap
