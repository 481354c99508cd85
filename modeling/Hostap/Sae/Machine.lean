import Hostap.Sae.Steps

/-!
# What a frame can do to a station entry

The specifications of `Hostap.Sae.Steps` carried through `sae_sm_step()` and `handle_auth_sae()`.
The two results the invariants are built on are

* `saeSmStep_commit`: what the state machine makes of a Commit that parsed;
* `handleConfirm_spec`: what is made of a Confirm, with the only way to `sae_accept_sta()`.

Every other path is a `Frame`: it leaves the flags of the station alone and accepts nobody.
-/

namespace Hostap

open Octets Prog List

variable {P : Type} {w w' w'' : SaeWorld P}

/-! ## Frames -/

/-- From `w` to `w'` the observation `o` was made. -/
def SaeWorld.Logged (w w' : SaeWorld P) (o : SaeObs P) : Prop :=
  ∃ l, w'.log = w.log ++ l ∧ o ∈ l

/-- The observation is not `sae_accept_sta()`. -/
def SaeObs.NotAccept (o : SaeObs P) : Prop := ∀ pmk pmkid, o ≠ .acceptSta pmk pmkid

/-- The observation is neither `sae_accept_sta()` nor a successful `sae_process_commit()`. -/
def SaeObs.NotKeying (o : SaeObs P) : Prop :=
  o.NotAccept ∧ ∀ x kck pmk, o ≠ .processCommit x kck pmk

/-- From `w` to `w'` no flag of the station changed and every observation satisfies `A`. -/
structure SaeWorld.Ext (A : SaeObs P → Prop) (w w' : SaeWorld P) : Prop where
  auth : w'.sta.auth = w.sta.auth
  authAlg : w'.sta.authAlg = w.sta.authAlg
  freed : w'.freed = w.freed
  log : ∃ l, w'.log = w.log ++ l ∧ ∀ o ∈ l, A o

/-- From `w` to `w'` nobody was accepted and no flag of the station changed. -/
abbrev SaeWorld.Frame (w w' : SaeWorld P) : Prop := w.Ext SaeObs.NotAccept w'

/-- From `w` to `w'` moreover no keys were derived. -/
abbrev SaeWorld.Unkeyed (w w' : SaeWorld P) : Prop := w.Ext SaeObs.NotKeying w'

namespace SaeWorld

variable {A : SaeObs P → Prop}

theorem Ext.refl (w : SaeWorld P) : w.Ext A w :=
  ⟨rfl, rfl, rfl, [], by simp, by simp⟩

theorem Ext.trans (h : w.Ext A w') (h' : w'.Ext A w'') : w.Ext A w'' := by
  obtain ⟨l, hl, hn⟩ := h.log
  obtain ⟨l', hl', hn'⟩ := h'.log
  refine ⟨h'.auth.trans h.auth, h'.authAlg.trans h.authAlg, h'.freed.trans h.freed,
    l ++ l', by rw [hl', hl, append_assoc], fun o ho => ?_⟩
  rcases mem_append.1 ho with hm | hm
  · exact hn o hm
  · exact hn' o hm

theorem Ext.after (h' : w'.Ext A w'') (h : w.Ext A w') : w.Ext A w'' := h.trans h'

theorem Ext.of_eq (hauth : w'.sta.auth = w.sta.auth) (halg : w'.sta.authAlg = w.sta.authAlg)
    (hfreed : w'.freed = w.freed) (hlog : w'.log = w.log) : w.Ext A w' :=
  ⟨hauth, halg, hfreed, [], by simp [hlog], by simp⟩

theorem Ext.of_snoc {o : SaeObs P} (hauth : w'.sta.auth = w.sta.auth)
    (halg : w'.sta.authAlg = w.sta.authAlg) (hfreed : w'.freed = w.freed)
    (hlog : w'.log = w.log ++ [o]) (ho : A o) : w.Ext A w' :=
  ⟨hauth, halg, hfreed, [o], hlog, fun o' ho' => by rw [mem_singleton.1 ho']; exact ho⟩

theorem Ext.frame (h : w.Unkeyed w') : w.Frame w' := by
  obtain ⟨l, hl, hn⟩ := h.log
  exact ⟨h.auth, h.authAlg, h.freed, l, hl, fun o ho => (hn o ho).1⟩

theorem Ext.of_logged {o : SaeObs P} (h : w.Ext A w') (ho : w.Logged w' o) : A o := by
  obtain ⟨l, hl, hn⟩ := h.log
  obtain ⟨l', hl', ho⟩ := ho
  have heq : l = l' := append_cancel_left (hl.symm.trans hl')
  exact hn o (heq ▸ ho)

theorem Logged.of_frame_left {o : SaeObs P} (h : w.Frame w') (h' : w'.Logged w'' o) :
    w.Logged w'' o := by
  obtain ⟨l, hl, -⟩ := h.log
  obtain ⟨l', hl', ho⟩ := h'
  exact ⟨l ++ l', by rw [hl', hl, append_assoc], mem_append_right l ho⟩

theorem Logged.of_frame_right {o : SaeObs P} (h : w.Logged w' o) (h' : w'.Frame w'') :
    w.Logged w'' o := by
  obtain ⟨l, hl, ho⟩ := h
  obtain ⟨l', hl', -⟩ := h'.log
  exact ⟨l ++ l', by rw [hl', hl, append_assoc], mem_append_left l' ho⟩

theorem Logged.mem {o : SaeObs P} (h : w.Logged w' o) : o ∈ w'.log := by
  obtain ⟨l, hl, ho⟩ := h
  rw [hl]
  exact mem_append_right _ ho

end SaeWorld

/-! ## Retained commits -/

/-- From `s` to `s'` no commit value that was there got lost. -/
structure SaeData.Retains (s s' : SaeData P) : Prop where
  own : s.HasOwn → s'.HasOwn
  peer : s.HasPeer → s'.HasPeer
  tmp : s.tmp = none → s'.tmp = none

/-- The keys of the instance were derived from the commit values it holds, since `w`. -/
def SaeWorld.KeyedSince (w w' : SaeWorld P) : Prop :=
  ∃ t x, w'.sae.tmp = some t ∧ t.exchange w'.sae.peerCommitScalar = some x ∧
    w.Logged w' (.processCommit (some x) t.kck w'.sae.pmk)

namespace SaeData.Retains

variable {s s' s'' : SaeData P}

theorem refl (s : SaeData P) : s.Retains s := ⟨id, id, id⟩

theorem trans (h : s.Retains s') (h' : s'.Retains s'') : s.Retains s'' :=
  ⟨h'.own ∘ h.own, h'.peer ∘ h.peer, h'.tmp ∘ h.tmp⟩

theorem after (h' : s'.Retains s'') (h : s.Retains s') : s.Retains s'' := h.trans h'

theorem of_eq (ht : s'.tmp = s.tmp) (hp : s'.peerCommitScalar = s.peerCommitScalar) :
    s.Retains s' := by
  constructor
  · rintro ⟨t, h, ho⟩
    exact ⟨t, ht.trans h, ho⟩
  · rintro ⟨hs, t, h, he⟩
    exact ⟨hp ▸ hs, t, ht.trans h, he⟩
  · intro h
    exact ht.trans h

theorem of_ownUpdate (h : s.OwnUpdate s') : s.Retains s' := by
  obtain ⟨-, rfl⟩ | ⟨t, t', ht, hu, rfl⟩ := h
  · exact refl _
  · constructor
    · rintro ⟨t₀, ht₀, ho⟩
      rw [ht] at ht₀
      cases ht₀
      exact ⟨t', rfl, hu.hasOwn ho⟩
    · rintro ⟨hs, t₀, ht₀, he⟩
      rw [ht] at ht₀
      cases ht₀
      exact ⟨hs, t', rfl, by rw [hu.peerElement]; exact he⟩
    · intro hn
      rw [ht] at hn
      cases hn

end SaeData.Retains

theorem SaeData.OwnUpdate.state {s s' : SaeData P} (h : s.OwnUpdate s') : s'.state = s.state := by
  obtain ⟨-, rfl⟩ | ⟨t, t', -, -, rfl⟩ := h <;> rfl

/-! ## Sending -/

theorem sendAuthReply_spec (transaction status : Nat) (body : Bytes) (w : SaeWorld P) :
    wp (sendAuthReply transaction status body)
      (fun _ w' => w.Unkeyed w' ∧ w'.sae = w.sae) (fun _ => False) w := by
  simp only [sendAuthReply, wp_bind, wp_get, wp_set, wp_pure]
  exact ⟨.of_snoc rfl rfl rfl rfl ⟨by simp [SaeObs.NotAccept], by simp⟩, trivial⟩

theorem authBuildSaeCommit_spec (c : CryptoLib P) (conf : HostapdConf) (update : Bool)
    (w : SaeWorld P) :
    wp (authBuildSaeCommit c conf update)
      (fun buf w' => w.Unkeyed w' ∧ w.sae.OwnUpdate w'.sae ∧ (update = false → w'.sae = w.sae) ∧
        (buf.isSome → update = true ∨ w.sae.tmp.isSome → w'.sae.HasOwn))
      (fun e => ¬ e.OfConfirm) w := by
  simp only [authBuildSaeCommit, wp_bind, wp_get]
  split
  · exact ⟨.refl w, .refl _, fun _ => rfl, by simp⟩
  · cases update with
    | false =>
      simp only [Bool.false_eq_true, if_false, wp_bind, wp_get, wp_pure, if_true, wp_callPure]
      refine ⟨fun buf hbuf => ⟨.refl w, .refl _, fun _ => trivial, fun _ ht => ?_⟩,
        fun e he => saeWriteCommit_error he⟩
      obtain ht | ht := ht
      · cases ht
      · obtain ⟨t, ht⟩ := Option.isSome_iff_exists.1 ht
        exact ⟨t, ht, saeWriteCommit_hasOwn hbuf ht⟩
    | true =>
      simp only [if_true, prepareCommit, wp_bind, wp_get, wp_callPure, wp_set, wp_pure, Prod.forall]
      refine ⟨fun ok s' rand' hprep => ?_, fun e he => saePrepareCommit_error he⟩
      obtain ⟨hown, hhas⟩ := saePrepareCommit_own hprep
      cases ok with
      | false =>
        simp only [Bool.false_eq_true, if_false, wp_pure]
        exact ⟨.of_eq rfl rfl rfl rfl, hown, (by intro h; cases h), by simp⟩
      | true =>
        simp only [if_true, wp_bind, wp_get, wp_callPure, wp_pure]
        exact ⟨fun buf hbuf =>
            ⟨.of_eq rfl rfl rfl rfl, hown, (by intro h; cases h), fun _ _ => hhas rfl⟩,
          fun e he => saeWriteCommit_error he⟩

theorem authSaeSendCommit_spec (c : CryptoLib P) (conf : HostapdConf) (update : Bool)
    (w : SaeWorld P) :
    wp (authSaeSendCommit c conf update)
      (fun ret w' => w.Unkeyed w' ∧ w.sae.OwnUpdate w'.sae ∧ (update = false → w'.sae = w.sae) ∧
        (ret = wlanStatusSuccess → update = true ∨ w.sae.tmp.isSome → w'.sae.HasOwn))
      (fun e => ¬ e.OfConfirm) w := by
  simp only [authSaeSendCommit, wp_bind]
  refine wp_mono (authBuildSaeCommit_spec c conf update w) ?_ (fun _ he => he)
  rintro buf w₁ ⟨hf, hown, hsame, hhas⟩
  cases buf with
  | none =>
    simp only [wp_bind, wp_get]
    split
    · exact ⟨hf, hown, hsame, fun h => absurd h (by decide)⟩
    · exact ⟨hf, hown, hsame, fun h => absurd h (by decide)⟩
  | some data =>
    refine wp_mono (sendAuthReply_spec 1 wlanStatusSuccess data w₁) ?_ (fun _ he => he.elim)
    rintro ret w₂ ⟨hf₂, hsae⟩
    exact ⟨hf.trans hf₂, hsae ▸ hown, fun h => hsae.trans (hsame h),
      fun _ h => hsae ▸ hhas rfl h⟩

theorem authSaeSendConfirm_effect (c : CryptoLib P) (w : SaeWorld P) :
    wp (authSaeSendConfirm c)
      (fun _ w' => w.Unkeyed w' ∧ ∃ n, w'.sae = { w.sae with sendConfirm := n })
      (fun e => e.OfConfirm → ¬ (w.sae.HasOwn ∧ w.sae.HasPeer)) w := by
  simp only [authSaeSendConfirm, wp_bind, wp_get, wp_callPure, wp_set, Prod.forall]
  refine ⟨fun data s' hs => ?_, fun e he hconf h => saeWriteConfirm_error h.1 h.2 he hconf⟩
  refine wp_mono (sendAuthReply_spec 2 wlanStatusSuccess data _) ?_ (fun _ he => he.elim)
  rintro ret w₂ ⟨hf, hsae⟩
  have hset : w.Unkeyed { w with sae := s' } := .of_eq rfl rfl rfl rfl
  refine ⟨hset.trans hf, ?_⟩
  rw [hsae]
  exact saeWriteConfirm_ok hs

theorem authSaeSendConfirm_spec (c : CryptoLib P) (w : SaeWorld P)
    (hcomplete : w.sae.HasOwn ∧ w.sae.HasPeer) :
    wp (authSaeSendConfirm c)
      (fun _ w' => w.Unkeyed w' ∧ ∃ n, w'.sae = { w.sae with sendConfirm := n })
      (fun e => ¬ e.OfConfirm) w :=
  wp_mono (authSaeSendConfirm_effect c w) (fun _ _ h => h) (fun _ he h => he h hcomplete)

theorem processCommit_spec (c : CryptoLib P) (w : SaeWorld P) (hown : w.sae.HasOwn) :
    wp (processCommit c)
      (fun ok w' => w.Frame w' ∧
        ((ok = false ∧ w'.sae = w.sae ∧ w.Unkeyed w' ∧ w.Logged w' .processCommitFailed) ∨
          (ok = true ∧ w.KeyedSince w' ∧ w.sae.Retains w'.sae ∧ w'.sae.HasPeer ∧
            w'.sae.state = w.sae.state)))
      (fun e => ¬ e.OfConfirm) w := by
  simp only [processCommit, wp_bind, wp_get, wp_callPure, wp_set, wp_pure, Prod.forall]
  refine ⟨fun ok s' hs => ?_, fun e he => saeProcessCommit_error he⟩
  obtain ⟨rfl, rfl⟩ | ⟨rfl, t, kck, pmk, pmkid, ht, hscalar, hpeer, rfl⟩ := saeProcessCommit_ok hs
  · have hu : w.Unkeyed { w with log := w.log ++ [.processCommitFailed] } :=
      .of_snoc rfl rfl rfl rfl ⟨by simp [SaeObs.NotAccept], by simp⟩
    exact ⟨hu.frame, .inl ⟨rfl, rfl, hu, [_], rfl, by simp⟩⟩
  · refine ⟨.of_snoc rfl rfl rfl rfl (by simp [SaeObs.NotAccept]), .inr ⟨rfl, ?_, ?_, ?_, rfl⟩⟩
    · have hx := (exchange_isSome_iff ht).2 ⟨hown, hpeer⟩
      obtain ⟨x, hx⟩ := Option.isSome_iff_exists.1 hx
      have hx' : ({ t with kck := kck } : SaeTemporaryData P).exchange w.sae.peerCommitScalar =
          some x := hx
      exact ⟨_, x, rfl, hx', [_], rfl, by simp [hx']⟩
    · constructor
      · rintro ⟨t₀, ht₀, ho⟩
        rw [ht] at ht₀
        cases ht₀
        exact ⟨_, rfl, ho⟩
      · rintro ⟨hsome, t₀, ht₀, he⟩
        rw [ht] at ht₀
        cases ht₀
        exact ⟨hsome, _, rfl, he⟩
      · intro hn
        rw [ht] at hn
        cases hn
    · obtain ⟨hsome, t₀, ht₀, he⟩ := hpeer
      rw [ht] at ht₀
      cases ht₀
      exact ⟨hsome, _, rfl, he⟩

/-! ## The state machine on a Commit -/

/-- What becomes of a Commit that parsed. -/
inductive CommitResult (conf : HostapdConf) (w w' : SaeWorld P) : Prop
  /-- The own Commit could not be built or sent: the state is the one before. -/
  | dropped (hu : w.Unkeyed w') (hstate : w'.sae.state = w.sae.state)
      (hnot : w.sae.state ≠ .committed)
  /-- The sync counter passed its limit. -/
  | bigSync (hstate : w'.sae.state = .nothing)
  /-- The own Commit was sent, but no keys could be derived. -/
  | failed (hu : w.Unkeyed w') (hlog : w.Logged w' .processCommitFailed) (hown : w'.sae.HasOwn)
      (hstate : w'.sae.state = .committed ∨
        (w'.sae.state = .confirmed ∧ w.sae.state = .confirmed))
  /-- The instance is keyed by the commit values it holds. -/
  | keyed (hkeyed : w.KeyedSince w')
      (hstate : w'.sae.state = .committed ∨ (w'.sae.state = .confirmed ∧
        (conf.mesh = true ∨ w.sae.state = .committed ∨ w.sae.state = .confirmed)))

theorem SaeWorld.KeyedSince.of_frame (h : w.KeyedSince w') (hf : w'.Frame w'')
    (ht : w''.sae.tmp = w'.sae.tmp) (hp : w''.sae.peerCommitScalar = w'.sae.peerCommitScalar)
    (hpmk : w''.sae.pmk = w'.sae.pmk) : w.KeyedSince w'' := by
  obtain ⟨t, x, htmp, hx, hlog⟩ := h
  refine ⟨t, x, ht.trans htmp, by rw [hp]; exact hx, ?_⟩
  rw [hpmk]
  exact hlog.of_frame_right hf

theorem SaeWorld.KeyedSince.of_frame_left (hf : w.Frame w') (h : w'.KeyedSince w'') :
    w.KeyedSince w'' := by
  obtain ⟨t, x, htmp, hx, hlog⟩ := h
  exact ⟨t, x, htmp, hx, SaeWorld.Logged.of_frame_left hf hlog⟩

theorem confirm_after_keys (c : CryptoLib P) (w : SaeWorld P) (hown : w.sae.HasOwn)
    (Q : Nat → SaeWorld P → Prop) (next : SaeProg P Nat)
    (hfail : ∀ w₁, w.Unkeyed w₁ → w₁.sae = w.sae → w.Logged w₁ .processCommitFailed →
      Q wlanStatusUnspecifiedFailure w₁)
    (hsend : ∀ ret w₁, w.Frame w₁ → w.sae.Retains w₁.sae → w.KeyedSince w₁ →
      w₁.sae.state = w.sae.state → ret ≠ wlanStatusSuccess → Q ret w₁)
    (hnext : ∀ w₁, w.Frame w₁ → w.sae.Retains w₁.sae → w.KeyedSince w₁ →
      w₁.sae.state = w.sae.state → wp next Q (fun e => ¬ e.OfConfirm) w₁) :
    wp (do
      if !(← processCommit c) then
        pure wlanStatusUnspecifiedFailure
      else do
        let ret ← authSaeSendConfirm c
        if ret ≠ wlanStatusSuccess then
          pure ret
        else
          next) Q (fun e => ¬ e.OfConfirm) w := by
  simp only [wp_bind]
  refine wp_mono (processCommit_spec c w hown) ?_ (fun _ he => he)
  rintro ok w₁ ⟨hf, ⟨rfl, hsae, hu, hlog⟩ | ⟨rfl, hkeyed, hret, hpeer, hstate⟩⟩
  · simp only [Bool.not_false, if_true, wp_pure]
    exact hfail w₁ hu hsae hlog
  · simp only [Bool.not_true, Bool.false_eq_true, if_false, wp_bind]
    refine wp_mono (authSaeSendConfirm_spec c w₁ ⟨hret.own hown, hpeer⟩) ?_ (fun _ he => he)
    rintro ret w₂ ⟨hf₂, n, hsae₂⟩
    have hret₂ : w.sae.Retains w₂.sae := hret.trans (.of_eq (by rw [hsae₂]) (by rw [hsae₂]))
    have hkeyed₂ : w.KeyedSince w₂ :=
      hkeyed.of_frame hf₂.frame (by rw [hsae₂]) (by rw [hsae₂]) (by rw [hsae₂])
    have hstate₂ : w₂.sae.state = w.sae.state := by rw [hsae₂]; exact hstate
    by_cases hok : ret = wlanStatusSuccess
    · simp only [hok, ne_eq, not_true_eq_false, if_false]
      exact hnext w₂ (hf.trans hf₂.frame) hret₂ hkeyed₂ hstate₂
    · simp only [hok, ne_eq, not_false_iff, if_true, wp_pure]
      exact hsend ret w₂ (hf.trans hf₂.frame) hret₂ hkeyed₂ hstate₂ hok

def CommitPost (conf : HostapdConf) (w : SaeWorld P) (_ : Nat) (w' : SaeWorld P) : Prop :=
  (w.Frame w' ∧ w.sae.Retains w'.sae ∧ CommitResult conf w w') ∨
    (w'.freed = true ∧ ∃ l, w'.log = w.log ++ l ∧ ∀ o ∈ l, SaeObs.NotAccept o)

theorem saeSetRetransmitTimer_frame (conf : HostapdConf) (w : SaeWorld P) :
    w.Frame { w with
      sta := if conf.mesh then { w.sta with retransmitTimer := true } else w.sta } := by
  cases conf.mesh <;> exact .of_eq rfl rfl rfl rfl

theorem saeSmStepConfirmed_commit (c : CryptoLib P) (conf : HostapdConf) (w : SaeWorld P)
    (hs : w.sae.state = .confirmed) :
    wp (saeSmStepConfirmed c conf 1) (CommitPost conf w) (fun e => ¬ e.OfConfirm) w := by
  simp only [saeSmStepConfirmed, saeClearRetransmitTimer, modifySta, saeCheckBigSync, wp_bind,
    wp_modify, wp_get, if_true]
  split
  · simp only [wp_bind, wp_set, wp_pure, if_true]
    exact .inl ⟨.of_eq rfl rfl rfl rfl, .of_eq rfl rfl, .bigSync rfl⟩
  · simp only [wp_pure, Bool.false_eq_true, if_false, saeSyncInc, modifySae, wp_bind, wp_modify]
    refine wp_mono (authSaeSendCommit_spec c conf true _) ?_ (fun _ he => he)
    rintro ret w₁ ⟨hf, hown, -, hhas⟩
    have hu₁ : w.Unkeyed w₁ := hf.after (.of_eq rfl rfl rfl rfl)
    have hf₁ : w.Frame w₁ := hu₁.frame
    have hr₁ : w.sae.Retains w₁.sae := (SaeData.Retains.of_ownUpdate hown).after (.of_eq rfl rfl)
    have hs₁ : w₁.sae.state = .confirmed := hown.state.trans hs
    by_cases hok : ret = wlanStatusSuccess
    · simp only [hok, ne_eq, not_true_eq_false, if_false]
      have hown₁ : w₁.sae.HasOwn := hhas hok (.inl rfl)
      refine confirm_after_keys c w₁ hown₁ _ _ ?_ ?_ ?_
      · intro w₂ hu₂ hsae hlog
        refine .inl ⟨hf₁.trans hu₂.frame, hsae ▸ hr₁,
          .failed (hu₁.trans hu₂) (.of_frame_left hf₁ hlog) ?_ ?_⟩
        · rw [hsae]; exact hown₁
        · rw [hsae]; exact .inr ⟨hs₁, hs⟩
      · intro ret₂ w₂ hf₂ hr₂ hk hst _
        exact .inl ⟨hf₁.trans hf₂, hr₁.trans hr₂, .keyed (.of_frame_left hf₁ hk)
          (.inr ⟨hst.trans hs₁, .inr (.inr hs)⟩)⟩
      · intro w₂ hf₂ hr₂ hk hst
        simp only [saeSetRetransmitTimer, modifySta, wp_bind, wp_modify, wp_pure]
        have hf₃ := saeSetRetransmitTimer_frame conf w₂
        exact .inl ⟨(hf₁.trans hf₂).trans hf₃, hr₁.trans hr₂,
          .keyed ((SaeWorld.KeyedSince.of_frame_left hf₁ hk).of_frame hf₃ rfl rfl rfl)
            (.inr ⟨hst.trans hs₁, .inr (.inr hs)⟩)⟩
    · simp only [hok, ne_eq, not_false_iff, if_true, wp_pure]
      exact .inl ⟨hf₁, hr₁, .dropped hu₁ (hs₁.trans hs.symm) (by rw [hs]; decide)⟩

theorem saeSmStepCommitted_commit (c : CryptoLib P) (conf : HostapdConf) (w : SaeWorld P)
    (hs : w.sae.state = .committed) (hown : w.sae.HasOwn) :
    wp (saeSmStepCommitted c conf 1) (CommitPost conf w) (fun e => ¬ e.OfConfirm) w := by
  simp only [saeSmStepCommitted, saeClearRetransmitTimer, modifySta, wp_bind, wp_modify, if_true]
  have hf₀ : w.Frame { w with sta := { w.sta with retransmitTimer := false } } :=
    .of_eq rfl rfl rfl rfl
  refine (wp_bind _ _ _ _ _).1 (confirm_after_keys c
    { w with sta := { w.sta with retransmitTimer := false } } hown _ _ ?_ ?_ ?_)
  · intro w₁ hu₁ hsae hlog
    refine .inl ⟨hf₀.trans hu₁.frame, .of_eq (by rw [hsae]) (by rw [hsae]),
      .failed (hu₁.after (.of_eq rfl rfl rfl rfl)) (.of_frame_left hf₀ hlog) ?_ ?_⟩
    · rw [hsae]; exact hown
    · rw [hsae]; exact .inl hs
  · intro ret w₁ hf₁ hr₁ hk hst _
    exact .inl ⟨hf₀.trans hf₁, hr₁, .keyed (.of_frame_left hf₀ hk) (.inl (hst.trans hs))⟩
  · intro w₁ hf₁ hr₁ hk hst
    simp only [saeSetState, saeSyncReset, saeSetRetransmitTimer, modifySae, modifySta, wp_bind,
      wp_modify, wp_pure]
    have hf₂ := (saeSetRetransmitTimer_frame conf
      { w₁ with sae := { w₁.sae with state := .confirmed, sync := 0 } }).after
        (w := w₁) (.of_eq rfl rfl rfl rfl)
    exact .inl ⟨(hf₀.trans hf₁).trans hf₂, hr₁.trans (.of_eq rfl rfl),
      .keyed ((SaeWorld.KeyedSince.of_frame_left hf₀ hk).of_frame hf₂ rfl rfl rfl)
        (.inr ⟨rfl, .inr (.inl hs)⟩)⟩

theorem keys_in_committed (c : CryptoLib P) (conf : HostapdConf) (w w₁ : SaeWorld P)
    (hu : w.Unkeyed w₁) (hr : w.sae.Retains w₁.sae) (hown : w₁.sae.HasOwn)
    (hs : w₁.sae.state = .committed) :
    wp (do
      if !(← processCommit c) then
        pure wlanStatusUnspecifiedFailure
      else do
        saeSyncReset
        saeSetRetransmitTimer conf
        pure wlanStatusSuccess) (CommitPost conf w) (fun e => ¬ e.OfConfirm) w₁ := by
  simp only [wp_bind]
  refine wp_mono (processCommit_spec c w₁ hown) ?_ (fun _ he => he)
  have hf := hu.frame
  rintro ok w₂ ⟨hf₂, ⟨rfl, hsae, hu₂, hlog⟩ | ⟨rfl, hkeyed, hret, hpeer, hstate⟩⟩
  · simp only [Bool.not_false, if_true, wp_pure]
    refine .inl ⟨hf.trans hf₂, hsae ▸ hr,
      .failed (hu.trans hu₂) (.of_frame_left hf hlog) ?_ ?_⟩
    · rw [hsae]; exact hown
    · rw [hsae]; exact .inl hs
  · simp only [Bool.not_true, Bool.false_eq_true, if_false, saeSyncReset, saeSetRetransmitTimer,
      modifySae, modifySta, wp_bind, wp_modify, wp_pure]
    have hf₃ := (saeSetRetransmitTimer_frame conf { w₂ with sae := { w₂.sae with sync := 0 } }).after
      (w := w₂) (.of_eq rfl rfl rfl rfl)
    exact .inl ⟨(hf.trans hf₂).trans hf₃, hr.trans (hret.trans (.of_eq rfl rfl)),
      .keyed ((SaeWorld.KeyedSince.of_frame_left hf hkeyed).of_frame hf₃ rfl rfl rfl)
        (.inl (hstate.trans hs))⟩

theorem saeSmStepNothing_commit (c : CryptoLib P) (conf : HostapdConf) (w : SaeWorld P)
    (hs : w.sae.state = .nothing) :
    wp (saeSmStepNothing c conf 1) (CommitPost conf w) (fun e => ¬ e.OfConfirm) w := by
  simp only [saeSmStepNothing, if_true, wp_bind]
  refine wp_mono (authSaeSendCommit_spec c conf true w) ?_ (fun _ he => he)
  rintro ret w₁ ⟨hf, hown, -, hhas⟩
  have hr := SaeData.Retains.of_ownUpdate hown
  by_cases hok : ret = wlanStatusSuccess
  · simp only [hok, ne_eq, not_true_eq_false, if_false, saeSetState, modifySae]
    simp only [wp_bind (modify _), wp_modify]
    have hown₁ : w₁.sae.HasOwn := hhas hok (.inl rfl)
    have hu₁ : w.Unkeyed { w₁ with sae := { w₁.sae with state := .committed } } :=
      hf.trans (.of_eq rfl rfl rfl rfl)
    have hf₁ := hu₁.frame
    have hr₁ : w.sae.Retains { w₁.sae with state := .committed } := hr.trans (.of_eq rfl rfl)
    cases hm : conf.mesh with
    | false =>
      simp only [Bool.false_eq_true, if_false]
      exact keys_in_committed c conf w _ hu₁ hr₁ hown₁ rfl
    | true =>
      simp only [if_true]
      refine confirm_after_keys c { w₁ with sae := { w₁.sae with state := .committed } } hown₁
        _ _ ?_ ?_ ?_
      · intro w₂ hu₂ hsae hlog
        refine .inl ⟨hf₁.trans hu₂.frame, hsae ▸ hr₁,
          .failed (hu₁.trans hu₂) (.of_frame_left hf₁ hlog) ?_ ?_⟩
        · rw [hsae]; exact hown₁
        · rw [hsae]; exact .inl rfl
      · intro ret₂ w₂ hf₂ hr₂ hk hst _
        exact .inl ⟨hf₁.trans hf₂, hr₁.trans hr₂, .keyed (.of_frame_left hf₁ hk) (.inl hst)⟩
      · intro w₂ hf₂ hr₂ hk hst
        simp only [saeSyncReset, saeSetRetransmitTimer, modifySae, modifySta, wp_bind, wp_modify,
          wp_pure]
        have hf₃ := (saeSetRetransmitTimer_frame conf
          { w₂ with sae := { w₂.sae with state := .confirmed, sync := 0 } }).after
            (w := w₂) (.of_eq rfl rfl rfl rfl)
        exact .inl ⟨(hf₁.trans hf₂).trans hf₃, hr₁.trans (hr₂.trans (.of_eq rfl rfl)),
          .keyed ((SaeWorld.KeyedSince.of_frame_left hf₁ hk).of_frame hf₃ rfl rfl rfl)
            (.inr ⟨rfl, .inl hm⟩)⟩
  · simp only [hok, ne_eq, not_false_iff, if_true, wp_pure]
    exact .inl ⟨hf.frame, hr, .dropped hf hown.state (by rw [hs]; decide)⟩

theorem saeSmStepAccepted_commit (c : CryptoLib P) (conf : HostapdConf) (w : SaeWorld P)
    (hs : w.sae.state = .accepted) :
    wp (saeSmStepAccepted c conf 1) (CommitPost conf w) (fun e => ¬ e.OfConfirm) w := by
  simp only [saeSmStepAccepted, true_and, if_true]
  split
  · simp only [wp_bind, wp_modify, wp_pure]
    exact .inr ⟨rfl, [_], rfl, by simp [SaeObs.NotAccept]⟩
  · simp only [wp_bind]
    refine wp_mono (authSaeSendCommit_spec c conf true w) ?_ (fun _ he => he)
    rintro ret w₁ ⟨hf, hown, -, hhas⟩
    have hr := SaeData.Retains.of_ownUpdate hown
    by_cases hok : ret = wlanStatusSuccess
    · simp only [hok, ne_eq, not_true_eq_false, if_false, saeSetState, modifySae]
      simp only [wp_bind (modify _), wp_modify]
      exact keys_in_committed c conf w _ (hf.trans (.of_eq rfl rfl rfl rfl))
        (hr.trans (.of_eq rfl rfl)) (hhas hok (.inl rfl)) rfl
    · simp only [hok, ne_eq, not_false_iff, if_true, wp_pure]
      exact .inl ⟨hf.frame, hr, .dropped hf hown.state (by rw [hs]; decide)⟩

/-- **The state machine on a Commit that parsed.** Nobody is accepted; the instance keeps its
state, falls back to Nothing, or has sent its own Commit and then either holds no new keys (and
has said so in the log) or keys derived from the commit values it holds. -/
theorem saeSmStep_commit (c : CryptoLib P) (conf : HostapdConf) (w : SaeWorld P)
    (hown : w.sae.state = .committed → w.sae.HasOwn) :
    wp (saeSmStep c conf 1) (CommitPost conf w) (fun e => ¬ e.OfConfirm) w := by
  simp only [saeSmStep, ne_eq, not_true_eq_false, false_and, if_false, wp_bind, wp_get]
  cases hs : w.sae.state with
  | nothing => exact saeSmStepNothing_commit c conf w hs
  | committed => exact saeSmStepCommitted_commit c conf w hs (hown hs)
  | confirmed => exact saeSmStepConfirmed_commit c conf w hs
  | accepted => exact saeSmStepAccepted_commit c conf w hs

/-! ## The receiver -/

theorem removeSta_spec (f : AuthFrame) (resp : Nat) (w : SaeWorld P) :
    wp (removeSta f resp) (fun _ w' => w.Unkeyed w' ∧ w'.sae = w.sae) (fun _ => False) w := by
  simp only [removeSta, modifySta, wp_modify]
  refine ⟨?_, trivial⟩
  split <;> exact .of_eq rfl rfl rfl rfl

theorem reply_spec (f : AuthFrame) (resp : Nat) (data : Bytes) (w : SaeWorld P) :
    wp (reply f resp data) (fun _ w' => w.Unkeyed w' ∧ w'.sae = w.sae) (fun _ => False) w := by
  simp only [reply]
  split
  · simp only [wp_bind]
    refine wp_mono (sendAuthReply_spec _ _ _ w) ?_ (fun _ he => he)
    rintro _ w₁ ⟨hf, hsae⟩
    refine wp_mono (removeSta_spec f resp w₁) ?_ (fun _ he => he)
    rintro _ w₂ ⟨hf₂, hsae₂⟩
    exact ⟨hf.trans hf₂, hsae₂.trans hsae⟩
  · exact removeSta_spec f resp w

theorem authBuildTokenReq_spec (c : CryptoLib P) (now : Nat) (w : SaeWorld P) :
    wp (authBuildTokenReq c now) (fun _ w' => w.Unkeyed w' ∧ w'.sae = w.sae)
      (fun _ => False) w := by
  simp only [authBuildTokenReq, wp_bind, wp_get]
  repeat' split
  all_goals
    simp only [wp_bind, wp_set, wp_pure, wp_get]
    exact ⟨.of_eq rfl rfl rfl rfl, trivial⟩

def parsedCommit (c : CryptoLib P) (conf : HostapdConf) (f : AuthFrame) (s : SaeData P) :
    ParsedCommit P :=
  saeParseCommit c conf.saeGroups f.body (restartInfrastructure conf s)

/-- The postcondition of the Commit branch: refused with what parsing left behind, sent back to
state Nothing, or handed to the state machine. -/
def HandleCommitPost (c : CryptoLib P) (conf : HostapdConf) (f : AuthFrame)
    (w w' : SaeWorld P) : Prop :=
  (w.Unkeyed w' ∧ (w'.sae = (parsedCommit c conf f w.sae).sae ∨
    w'.sae = { (parsedCommit c conf f w.sae).sae with state := .nothing })) ∨
  ((parsedCommit c conf f w.sae).status = wlanStatusSuccess ∧
    CommitPost conf { w with sae := (parsedCommit c conf f w.sae).sae } 0 w')

theorem CommitPost.of_unkeyed {conf : HostapdConf} {n m : Nat} (h : CommitPost conf w n w')
    (hu : w'.Unkeyed w'') (hsae : w''.sae = w'.sae) : CommitPost conf w m w'' := by
  have hf := hu.frame
  obtain ⟨hf₀, hr, hres⟩ | ⟨hfreed, l, hl, hn⟩ := h
  · refine .inl ⟨hf₀.trans hf, hsae ▸ hr, ?_⟩
    cases hres with
    | dropped hu₀ hstate hnot => exact .dropped (hu₀.trans hu) (by rw [hsae]; exact hstate) hnot
    | bigSync hstate => exact .bigSync (by rw [hsae]; exact hstate)
    | failed hu₀ hlog hown hstate =>
      exact .failed (hu₀.trans hu) (hlog.of_frame_right hf) (by rw [hsae]; exact hown)
        (by rw [hsae]; exact hstate)
    | keyed hkeyed hstate =>
      exact .keyed (hkeyed.of_frame hf (by rw [hsae]) (by rw [hsae]) (by rw [hsae]))
        (by rw [hsae]; exact hstate)
  · obtain ⟨l', hl', hn'⟩ := hf.log
    refine .inr ⟨hf.freed.trans hfreed, l ++ l', by rw [hl', hl, append_assoc], ?_⟩
    intro o ho
    rcases mem_append.1 ho with hm | hm
    · exact hn o hm
    · exact hn' o hm

theorem handleCommit_spec (c : CryptoLib P) (conf : HostapdConf) (env : SaeEnv) (f : AuthFrame)
    (w : SaeWorld P)
    (hown : (parsedCommit c conf f w.sae).sae.state = .committed →
      (parsedCommit c conf f w.sae).sae.HasOwn) :
    wp (handleCommit c conf env f) (fun _ w' => HandleCommitPost c conf f w w')
      (fun e => ¬ e.OfConfirm) w := by
  simp only [handleCommit, modifySae, wp_bind, wp_modify, wp_get, wp_set]
  have hf₀ : w.Unkeyed { w with sae := (parsedCommit c conf f w.sae).sae } :=
    .of_eq rfl rfl rfl rfl
  -- the exits that keep what parsing left behind
  have hkeep : ∀ (u : Unit) w',
      (SaeWorld.Unkeyed { w with sae := (parsedCommit c conf f w.sae).sae } w' ∧
      w'.sae = (parsedCommit c conf f w.sae).sae) → HandleCommitPost c conf f w w' :=
    fun _ w' h => .inl ⟨hf₀.trans h.1, .inl h.2⟩
  split
  · exact wp_mono (removeSta_spec f _ _) hkeep (fun _ he => he.elim)
  split
  · simp only [saeClearRetransmitTimer, saeSetState, modifySta, modifySae, wp_bind, wp_modify]
    refine wp_mono (removeSta_spec f _ _) ?_ (fun _ he => he.elim)
    rintro _ w' ⟨hf, hsae⟩
    exact .inl ⟨hf.after (.of_eq rfl rfl rfl rfl), .inr hsae⟩
  split
  · exact wp_mono (removeSta_spec f _ _) hkeep (fun _ he => he.elim)
  split
  · exact wp_mono (reply_spec f _ _ _) hkeep (fun _ he => he.elim)
  rename_i hstatus
  split
  · simp only [wp_bind]
    refine wp_mono (authBuildTokenReq_spec c env.now _) ?_ (fun _ he => he.elim)
    rintro data w₁ ⟨hf₁, hsae₁⟩
    simp only [wp_modify]
    refine wp_mono (reply_spec f _ _ _) ?_ (fun _ he => he.elim)
    rintro _ w₂ ⟨hf₂, hsae₂⟩
    have hf₁₂ : w₁.Unkeyed w₂ := hf₂.after (.of_eq rfl rfl rfl rfl)
    refine .inl ⟨(hf₀.trans hf₁).trans hf₁₂, ?_⟩
    rw [hsae₂]
    cases conf.mesh with
    | false => exact .inl hsae₁
    | true =>
      refine .inr ?_
      simp only [if_true, hsae₁]
      rfl
  · simp only [wp_bind]
    refine wp_mono (saeSmStep_commit c conf _ hown) ?_ (fun _ he => he)
    intro resp w₁ hpost
    refine wp_mono (reply_spec f resp [] w₁) ?_ (fun _ he => he.elim)
    rintro _ w₂ ⟨hf₂, hsae₂⟩
    exact .inr ⟨not_not.1 hstatus, hpost.of_unkeyed hf₂ hsae₂⟩

/-! ## The state machine on a Confirm -/

/-- What becomes of a Confirm. -/
inductive ConfirmResult (c : CryptoLib P) (conf : HostapdConf) (f : AuthFrame)
    (w w' : SaeWorld P) : Prop
  /-- Ignored, refused, or answered without a change of the exchange. -/
  | kept (hf : w.Frame w') (htmp : w'.sae.tmp = w.sae.tmp)
      (hscalar : w'.sae.peerCommitScalar = w.sae.peerCommitScalar)
      (hpmk : w'.sae.pmk = w.sae.pmk) (hstate : w'.sae.state = w.sae.state)
  /-- The sync counter passed its limit. -/
  | bigSync (hf : w.Frame w') (hpmk : w'.sae.pmk = w.sae.pmk) (hstate : w'.sae.state = .nothing)
  /-- The own Confirm was sent again in state Accepted, which ends the temporary data. -/
  | repeated (hf : w.Frame w') (hpmk : w'.sae.pmk = w.sae.pmk) (hs : w.sae.state = .accepted)
      (hstate : w'.sae.state = .accepted) (htmp : w'.sae.tmp = none)
      (hscalar : w'.sae.peerCommitScalar = w.sae.peerCommitScalar)
  /-- The station was accepted: the Confirm is the verifier of the commit values at hand. -/
  | accepted (t : SaeTemporaryData P) (x : SaeExchange P) (ht : w.sae.tmp = some t)
      (hx : t.exchange w.sae.peerCommitScalar = some x)
      (hver : saeVerifier c t.group t.kck (f.body.take 2) x = .ok (slice f.body 2 sha256MacLen))
      (hs : w.sae.state = .confirmed ∨ (w.sae.state = .committed ∧ conf.mesh = false))
      (hstate : w'.sae.state = .accepted) (htmp : w'.sae.tmp = some t)
      (hscalar : w'.sae.peerCommitScalar = w.sae.peerCommitScalar)
      (hpmk : w'.sae.pmk = w.sae.pmk) (hfreed : w'.freed = w.freed)
      (hlog : ∃ l pmkid, w'.log = w.log ++ l ∧
        [.confirmVerified (some x) t.kck, .acceptSta w.sae.pmk pmkid].Sublist l)

theorem ConfirmResult.of_frame {c : CryptoLib P} {conf : HostapdConf} {f : AuthFrame}
    (h : ConfirmResult c conf f w w') (hf : w'.Frame w'') (hsae : w''.sae = w'.sae) :
    ConfirmResult c conf f w w'' := by
  cases h with
  | kept hf₀ htmp hscalar hpmk hstate =>
    exact .kept (hf₀.trans hf) (by rw [hsae, htmp]) (by rw [hsae, hscalar]) (by rw [hsae, hpmk])
      (by rw [hsae, hstate])
  | bigSync hf₀ hpmk hstate =>
    exact .bigSync (hf₀.trans hf) (by rw [hsae, hpmk]) (by rw [hsae, hstate])
  | repeated hf₀ hpmk hs hstate htmp hscalar =>
    exact .repeated (hf₀.trans hf) (by rw [hsae, hpmk]) hs (by rw [hsae, hstate])
      (by rw [hsae, htmp]) (by rw [hsae, hscalar])
  | accepted t x ht hx hver hs hstate htmp hscalar hpmk hfreed hlog =>
    obtain ⟨l, pmkid, hl, hsub⟩ := hlog
    obtain ⟨l', hl', -⟩ := hf.log
    refine .accepted t x ht hx hver hs (by rw [hsae, hstate]) (by rw [hsae, htmp])
      (by rw [hsae, hscalar]) (by rw [hsae, hpmk]) (hf.freed.trans hfreed)
      ⟨l ++ l', pmkid, by rw [hl', hl, append_assoc], ?_⟩
    exact hsub.trans (sublist_append_left l l')

/-- The world in which the state machine runs after a Confirm was found right. -/
def afterCheck (f : AuthFrame) (t : SaeTemporaryData P) (x : SaeExchange P)
    (w : SaeWorld P) : SaeWorld P :=
  { w with
    sae := { w.sae with rc := getLe16 f.body }
    log := w.log ++ [.confirmVerified (some x) t.kck] }

theorem afterCheck_frame (f : AuthFrame) (t : SaeTemporaryData P) (x : SaeExchange P)
    (w : SaeWorld P) : w.Frame (afterCheck f t x w) :=
  .of_snoc rfl rfl rfl rfl (by simp [SaeObs.NotAccept])

theorem saeSmStep_confirm_checked (c : CryptoLib P) (conf : HostapdConf) (f : AuthFrame)
    (w : SaeWorld P) (t : SaeTemporaryData P) (x : SaeExchange P) (ht : w.sae.tmp = some t)
    (hx : t.exchange w.sae.peerCommitScalar = some x)
    (hver : saeVerifier c t.group t.kck (f.body.take 2) x = .ok (slice f.body 2 sha256MacLen))
    (hmesh : w.sae.state = .committed → conf.mesh = false) :
    wp (saeSmStep c conf 2) (fun _ w' => ConfirmResult c conf f w w')
      (fun e => ¬ e.OfConfirm) (afterCheck f t x w) := by
  have hf₀ := afterCheck_frame f t x w
  have hcomplete : (afterCheck f t x w).sae.HasOwn ∧ (afterCheck f t x w).sae.HasPeer :=
    (exchange_isSome_iff ht).1 (by rw [hx]; rfl)
  have hnot : ¬ ((2 : Nat) ≠ 1 ∧ (2 : Nat) ≠ 2) := by decide
  simp only [saeSmStep, hnot, if_false, wp_bind, wp_get]
  have hst : (afterCheck f t x w).sae.state = w.sae.state := rfl
  rw [hst]
  cases hs : w.sae.state with
  | nothing =>
    simp only [saeSmStepNothing, show (2 : Nat) = 1 ↔ False from by decide, if_false, wp_pure]
    exact .kept hf₀ rfl rfl rfl rfl
  | committed =>
    have hm := hmesh hs
    simp only [saeSmStepCommitted, saeClearRetransmitTimer, modifySta, wp_bind, wp_modify,
      show (2 : Nat) = 1 ↔ False from by decide, if_false, hm, Bool.false_eq_true]
    refine wp_mono (authSaeSendConfirm_spec c _ hcomplete) ?_ (fun _ he => he)
    rintro ret w₁ ⟨hf₁, n, hsae₁⟩
    have hf : w.Frame w₁ := hf₁.frame.after (hf₀.trans (.of_eq rfl rfl rfl rfl))
    by_cases hok : ret = wlanStatusSuccess
    · simp only [hok, ne_eq, not_true_eq_false, if_false, saeSetState, saeSmStepConfirmed,
        saeClearRetransmitTimer, saeAcceptSta, modifySae, modifySta, wp_bind, wp_modify, wp_get,
        wp_set, wp_pure, show (2 : Nat) = 1 ↔ False from by decide]
      obtain ⟨l₁, hl₁, -⟩ := hf₁.log
      refine .accepted t x ht hx hver (.inr ⟨hs, hm⟩) rfl ?_ ?_ ?_ hf.freed
        ⟨[.confirmVerified (some x) t.kck] ++ l₁ ++ [.acceptSta w.sae.pmk w.sae.pmkid],
          w.sae.pmkid, ?_, ?_⟩
      · simp only [hsae₁]; exact ht
      · simp only [hsae₁]; rfl
      · simp only [hsae₁]; rfl
      · simp only [hl₁, hsae₁, afterCheck, append_assoc]
      · rw [append_assoc]
        exact (sublist_append_right l₁ _).cons_cons _
    · simp only [hok, ne_eq, not_false_iff, if_true, wp_pure]
      exact .kept hf (by rw [hsae₁]; rfl) (by rw [hsae₁]; rfl) (by rw [hsae₁]; rfl)
        (by rw [hsae₁]; rfl)
  | confirmed =>
    simp only [saeSmStepConfirmed, saeClearRetransmitTimer, saeAcceptSta, modifySae, modifySta,
      wp_bind, wp_modify, wp_get, wp_set, wp_pure, show (2 : Nat) = 1 ↔ False from by decide,
      if_false]
    exact .accepted t x ht hx hver (.inl hs) rfl ht rfl rfl rfl
      ⟨[.confirmVerified (some x) t.kck, .acceptSta w.sae.pmk w.sae.pmkid], w.sae.pmkid,
        by simp [afterCheck], List.Sublist.refl _⟩
  | accepted =>
    simp only [saeSmStepAccepted, saeCheckBigSync, show (2 : Nat) = 1 ↔ False from by decide,
      false_and, if_false, wp_bind, wp_get]
    split
    · simp only [wp_bind, wp_set, wp_pure, if_true]
      exact .bigSync (hf₀.trans (.of_eq rfl rfl rfl rfl)) rfl rfl
    · simp only [wp_pure, Bool.false_eq_true, if_false, saeSyncInc, modifySae, wp_bind, wp_modify]
      refine wp_mono (authSaeSendConfirm_spec c _ hcomplete) ?_ (fun _ he => he)
      rintro ret w₁ ⟨hf₁, n, hsae₁⟩
      have hf : w.Frame w₁ := hf₁.frame.after (hf₀.trans (.of_eq rfl rfl rfl rfl))
      exact .repeated (hf.trans (.of_eq rfl rfl rfl rfl)) (by simp [saeClearTempData, hsae₁, afterCheck]) hs
        (by simp only [saeClearTempData, hsae₁, afterCheck]; exact hs) rfl
        (by simp only [saeClearTempData, hsae₁, afterCheck])

theorem saeSmStep_confirm_unchecked (c : CryptoLib P) (conf : HostapdConf) (f : AuthFrame)
    (w : SaeWorld P) (hmesh : conf.mesh = true) (hc : w.sae.state ≠ .confirmed)
    (ha : w.sae.state ≠ .accepted) :
    wp (saeSmStep c conf 2) (fun _ w' => ConfirmResult c conf f w w')
      (fun e => ¬ e.OfConfirm) w := by
  have hnot : ¬ ((2 : Nat) ≠ 1 ∧ (2 : Nat) ≠ 2) := by decide
  simp only [saeSmStep, hnot, if_false, wp_bind, wp_get]
  cases hs : w.sae.state with
  | nothing =>
    simp only [saeSmStepNothing, show (2 : Nat) = 1 ↔ False from by decide, if_false, wp_pure]
    exact .kept (.refl w) rfl rfl rfl rfl
  | committed =>
    simp only [saeSmStepCommitted, saeClearRetransmitTimer, saeCheckBigSync, modifySta, wp_bind,
      wp_modify, wp_get, show (2 : Nat) = 1 ↔ False from by decide, if_false, hmesh, if_true]
    split
    · simp only [wp_bind, wp_set, wp_pure, if_true]
      exact .bigSync (.of_eq rfl rfl rfl rfl) rfl rfl
    · simp only [wp_pure, Bool.false_eq_true, if_false, saeSyncInc, modifySae, wp_bind, wp_modify]
      refine wp_mono (authSaeSendCommit_spec c conf false _) ?_ (fun _ he => he)
      rintro ret w₁ ⟨hf₁, -, hsame, -⟩
      have hf : w.Frame w₁ := hf₁.frame.after (.of_eq rfl rfl rfl rfl)
      have hsae := hsame rfl
      have hkept : ConfirmResult c conf f w w₁ :=
        .kept hf (by rw [hsae]) (by rw [hsae]) (by rw [hsae]) (by rw [hsae])
      split
      · exact hkept
      · simp only [saeSetRetransmitTimer, modifySta, wp_bind, wp_modify, wp_pure]
        exact hkept.of_frame (saeSetRetransmitTimer_frame conf w₁) rfl
  | confirmed => exact absurd hs hc
  | accepted => exact absurd hs ha

/-- **The Confirm branch.** The station is accepted only when the received value is the verifier
of the commit values at hand. An absent value is read only by the check itself, for a body that
is long enough, with temporary data in place and an incomplete exchange. -/
theorem handleConfirm_spec (c : CryptoLib P) (conf : HostapdConf) (f : AuthFrame)
    (w : SaeWorld P) :
    wp (handleConfirm c conf f) (fun _ w' => ConfirmResult c conf f w w')
      (fun e => e.OfConfirm → 2 + sha256MacLen ≤ f.body.length ∧ w.sae.tmp.isSome ∧
        ¬ (w.sae.HasOwn ∧ w.sae.HasPeer) ∧
        (w.sae.state = .confirmed ∨ w.sae.state = .accepted ∨ conf.mesh = false)) w := by
  simp only [handleConfirm, wp_bind, wp_get]
  split
  · rename_i hchecked
    split
    · refine wp_mono (reply_spec f _ _ w) ?_ (fun _ he => he.elim)
      rintro _ w' ⟨hf, hsae⟩
      exact .kept hf.frame (by rw [hsae]) (by rw [hsae]) (by rw [hsae]) (by rw [hsae])
    split
    · exact .kept (.refl w) rfl rfl rfl rfl
    simp only [wp_bind, wp_callPure]
    refine ⟨fun ok hok => ?_, fun e he hconf => ?_⟩
    · cases ok with
      | false =>
        simp only [Bool.not_false, if_true]
        refine wp_mono (reply_spec f _ _ w) ?_ (fun _ he => he.elim)
        rintro _ w' ⟨hf, hsae⟩
        exact .kept hf.frame (by rw [hsae]) (by rw [hsae]) (by rw [hsae]) (by rw [hsae])
      | true =>
        obtain ⟨-, t, x, ht, hx, hver⟩ := saeCheckConfirm_true hok
        simp only [Bool.not_true, Bool.false_eq_true, if_false, observe, modifySae, wp_bind,
          wp_modify, ht, hx, Option.bind_some, Option.map_some, Option.getD_some]
        have hmesh : w.sae.state = .committed → conf.mesh = false := by
          intro hs
          rw [hs] at hchecked
          simpa using hchecked
        have hstep := saeSmStep_confirm_checked c conf f w t x ht hx hver hmesh
        simp only [afterCheck, ht] at hstep
        refine wp_mono hstep ?_ (fun _ he h => absurd h he)
        intro resp w₁ hres
        refine wp_mono (reply_spec f resp [] w₁) ?_ (fun _ he => he.elim)
        rintro _ w₂ ⟨hf₂, hsae₂⟩
        exact hres.of_frame hf₂.frame hsae₂
    · obtain ⟨hlen, htmp, hinc⟩ := saeCheckConfirm_error he hconf
      exact ⟨hlen, htmp, hinc, hchecked⟩
  · rename_i hunchecked
    simp only [not_or] at hunchecked
    obtain ⟨hc, ha, hm⟩ := hunchecked
    simp only [wp_bind]
    refine wp_mono (saeSmStep_confirm_unchecked c conf f w (by simpa using hm) hc ha) ?_
      (fun _ he h => absurd h he)
    intro resp w₁ hres
    refine wp_mono (reply_spec f resp [] w₁) ?_ (fun _ he => he.elim)
    rintro _ w₂ ⟨hf₂, hsae₂⟩
    exact hres.of_frame hf₂.frame hsae₂

/-! ## All frames and the timer -/

/-- `s'` holds the exchange, the keys and the state of `s`. -/
structure SaeData.Same (s s' : SaeData P) : Prop where
  state : s'.state = s.state
  pmk : s'.pmk = s.pmk
  scalar : s'.peerCommitScalar = s.peerCommitScalar
  tmp : s'.tmp = s.tmp ∨
    ∃ t tok, s.tmp = some t ∧ s'.tmp = some { t with antiCloggingToken := tok }

theorem SaeData.Same.refl (s : SaeData P) : s.Same s := ⟨rfl, rfl, rfl, .inl rfl⟩

theorem SaeData.Same.retains {s s' : SaeData P} (h : s.Same s') : s.Retains s' := by
  obtain htmp | ⟨t, tok, ht, ht'⟩ := h.tmp
  · exact .of_eq htmp h.scalar
  · constructor
    · rintro ⟨t₀, ht₀, ho⟩
      rw [ht] at ht₀
      cases ht₀
      exact ⟨_, ht', ho⟩
    · rintro ⟨hs, t₀, ht₀, he⟩
      rw [ht] at ht₀
      cases ht₀
      exact ⟨h.scalar ▸ hs, _, ht', he⟩
    · intro hn
      rw [ht] at hn
      cases hn

theorem pickFirstSupported_cases (c : CryptoLib P) (gs : List Int) (s : SaeData P) :
    pickFirstSupported c gs s = s ∨ (pickFirstSupported c gs s).state = .nothing := by
  induction gs generalizing s with
  | nil => exact .inl rfl
  | cons g gs ih =>
    simp only [pickFirstSupported]
    split
    · exact .inl rfl
    · have hset := saeSetGroup_state c g s
      split
      · rename_i s₁ heq
        rw [heq] at hset
        exact .inr hset
      · rename_i s₁ heq
        rw [heq] at hset
        obtain h | h := ih s₁
        · rw [h]; exact .inr hset
        · exact .inr h

theorem saePickNextGroup_cases (c : CryptoLib P) (conf : HostapdConf) (s : SaeData P) :
    saePickNextGroup c conf s = s ∨ (saePickNextGroup c conf s).state = .nothing := by
  unfold saePickNextGroup
  split
  · exact .inl rfl
  · split
    · exact .inl rfl
    · exact pickFirstSupported_cases c _ s

/-- What an Authentication frame can do to an entry with an SAE instance. -/
inductive BodyResult (c : CryptoLib P) (conf : HostapdConf) (f : AuthFrame)
    (w w' : SaeWorld P) : Prop
  /-- Nothing of interest changed. -/
  | same (hf : w.Frame w') (hsame : w.sae.Same w'.sae)
  /-- A mesh went back to state Nothing. -/
  | cleared (hmesh : conf.mesh = true) (hf : w.Frame w') (hstate : w'.sae.state = .nothing)
  /-- A mesh repeated its Commit with the token the peer asked for. -/
  | tokenSent (hmesh : conf.mesh = true) (hf : w.Frame w') (hstate : w'.sae.state = .committed)
      (hown : w'.sae.HasOwn)
  /-- A Commit with status zero. -/
  | commit (htrans : f.transaction = 1) (hstatus : f.status = wlanStatusSuccess)
      (hpost : HandleCommitPost c conf f w w')
  /-- A Confirm with status zero. -/
  | confirm (htrans : f.transaction = 2) (hstatus : f.status = wlanStatusSuccess)
      (hres : ConfirmResult c conf f w w')

theorem handleTokenRequest_spec (c : CryptoLib P) (conf : HostapdConf) (f : AuthFrame)
    (w : SaeWorld P) (hmesh : conf.mesh = true) :
    wp (handleTokenRequest c conf f) (fun _ w' => BodyResult c conf f w w')
      (fun e => ¬ e.OfConfirm) w := by
  simp only [handleTokenRequest]
  split
  · refine wp_mono (reply_spec f _ _ w) ?_ (fun _ he => he.elim)
    rintro _ w' ⟨hf, hsae⟩
    exact .same hf.frame (hsae ▸ .refl _)
  simp only [wp_bind, wp_get, wp_set]
  generalize hga : saeGroupAllowed c conf.saeGroups (getLe16 f.body) w.sae = r
  obtain ⟨resp, s₁⟩ := r
  have hf₁ : w.Frame { w with sae := s₁ } := .of_eq rfl rfl rfl rfl
  have hcase : s₁ = w.sae ∨ s₁.state = .nothing := by
    obtain h | ⟨-, -, -, rfl⟩ := saeGroupAllowed_cases hga
    · exact .inl h
    · exact .inr (saeSetGroup_state c _ _)
  split
  · refine wp_mono (reply_spec f _ _ _) ?_ (fun _ he => he.elim)
    rintro _ w' ⟨hf, hsae⟩
    obtain rfl | hn := hcase
    · exact .same (hf₁.trans hf.frame) (hsae ▸ .refl _)
    · exact .cleared hmesh (hf₁.trans hf.frame) (by rw [hsae]; exact hn)
  rename_i hresp
  obtain ⟨t₁, ht₁⟩ := Option.isSome_iff_exists.1 (saeGroupAllowed_tmp hga (not_not.1 hresp))
  simp only [modifySae, wp_bind, wp_modify, ht₁, Option.map_some]
  refine wp_mono (authSaeSendCommit_spec c conf false _) ?_ (fun _ he => he)
  rintro ret w₂ ⟨hf₂, -, hsame, hhas⟩
  have hf : w.Frame w₂ := (hf₂.frame.after (hf₁.trans (.of_eq rfl rfl rfl rfl)))
  have hsae := hsame rfl
  split
  · refine wp_mono (removeSta_spec f _ w₂) ?_ (fun _ he => he.elim)
    rintro _ w₃ ⟨hf₃, hsae₃⟩
    obtain rfl | hn := hcase
    · refine .same (hf.trans hf₃.frame) ?_
      rw [hsae₃, hsae]
      exact ⟨rfl, rfl, rfl, .inr ⟨t₁, _, ht₁, rfl⟩⟩
    · exact .cleared hmesh (hf.trans hf₃.frame) (by rw [hsae₃, hsae]; exact hn)
  · rename_i hret
    simp only [saeSetState, saeSyncReset, saeSetRetransmitTimer, modifySae, modifySta, wp_bind,
      wp_modify]
    have hf₃ := (saeSetRetransmitTimer_frame conf
      { w₂ with sae := { w₂.sae with state := .committed, sync := 0 } }).after
        (w := w₂) (.of_eq rfl rfl rfl rfl)
    obtain ⟨t, ht, ho⟩ := hhas (not_not.1 hret) (.inr rfl)
    exact .tokenSent hmesh (hf.trans hf₃) rfl ⟨t, ht, ho⟩

theorem parsedCommit_hasOwn (c : CryptoLib P) (conf : HostapdConf) (f : AuthFrame)
    (s : SaeData P) (hown : s.state = .committed → s.HasOwn)
    (hp : (parsedCommit c conf f s).sae.state = .committed) :
    (parsedCommit c conf f s).sae.HasOwn := by
  obtain ⟨hu | ⟨-, -, hn⟩, -⟩ :=
    saeParseCommit_spec c conf.saeGroups f.body (restartInfrastructure conf s)
  · refine hu.hasOwn ?_
    have hst : (restartInfrastructure conf s).state = .committed := hu.state.symm.trans hp
    unfold restartInfrastructure at hst ⊢
    split at hst
    · cases hst
    · rename_i hno
      rw [if_neg hno]
      exact hown hst
  · rw [show (parsedCommit c conf f s).sae.state = .nothing from hn] at hp
    cases hp

theorem handleAuthSaeBody_spec (c : CryptoLib P) (conf : HostapdConf) (env : SaeEnv)
    (f : AuthFrame) (w : SaeWorld P) (hown : w.sae.state = .committed → w.sae.HasOwn) :
    wp (handleAuthSaeBody c conf env f) (fun _ w' => BodyResult c conf f w w')
      (fun e => e.OfConfirm → f.transaction = 2 ∧ f.status = wlanStatusSuccess ∧
        2 + sha256MacLen ≤ f.body.length ∧ w.sae.tmp.isSome ∧ ¬ (w.sae.HasOwn ∧ w.sae.HasPeer) ∧
        (w.sae.state = .confirmed ∨ w.sae.state = .accepted ∨ conf.mesh = false)) w := by
  simp only [handleAuthSaeBody, modifySta, wp_bind, wp_modify, wp_get]
  have hf₀ : w.Frame { w with sta := { w.sta with meshSaePmksaCaching := false } } :=
    .of_eq rfl rfl rfl rfl
  -- results relative to the world after the flag was cleared are results relative to `w`
  have hlift : ∀ w', BodyResult c conf f
      { w with sta := { w.sta with meshSaePmksaCaching := false } } w' → BodyResult c conf f w w' := by
    intro w' h
    cases h with
    | same hf hsame => exact .same (hf₀.trans hf) hsame
    | cleared hm hf hs => exact .cleared hm (hf₀.trans hf) hs
    | tokenSent hm hf hs ho => exact .tokenSent hm (hf₀.trans hf) hs ho
    | commit ht hst hp =>
      refine .commit ht hst ?_
      obtain ⟨hf, hs⟩ | ⟨hs, ⟨hf, hr, hres⟩ | hfr⟩ := hp
      · exact .inl ⟨hf.after (.of_eq rfl rfl rfl rfl), hs⟩
      · refine .inr ⟨hs, .inl ⟨⟨hf.auth, hf.authAlg, hf.freed, hf.log⟩, hr, ?_⟩⟩
        cases hres with
        | dropped hu a b => exact .dropped ⟨hu.auth, hu.authAlg, hu.freed, hu.log⟩ a b
        | bigSync a => exact .bigSync a
        | failed hu a b d => exact .failed ⟨hu.auth, hu.authAlg, hu.freed, hu.log⟩ a b d
        | keyed a b => exact .keyed a b
      · exact .inr ⟨hs, .inr hfr⟩
    | confirm ht hst hres =>
      refine .confirm ht hst ?_
      cases hres with
      | kept hf a b d e => exact .kept (hf₀.trans hf) a b d e
      | bigSync hf a b => exact .bigSync (hf₀.trans hf) a b
      | repeated hf a b d e g => exact .repeated (hf₀.trans hf) a b d e g
      | accepted t x ht hx hver hs hstate htmp hsc hpmk hfr hlog =>
        exact .accepted t x ht hx hver hs hstate htmp hsc hpmk hfr hlog
  have hremove : wp (removeSta f wlanStatusSuccess) (fun _ w' => BodyResult c conf f w w')
      (fun _ => False) { w with sta := { w.sta with meshSaePmksaCaching := false } } := by
    refine wp_mono (removeSta_spec f _ _) ?_ (fun _ he => he)
    rintro _ w' ⟨hf, hsae⟩
    exact .same (hf₀.trans hf.frame) (hsae ▸ .refl _)
  split
  · rename_i htrans
    split
    · rename_i hcond
      exact wp_mono (handleTokenRequest_spec c conf f _ hcond.1) (fun _ w' h => hlift w' h)
        (fun _ he h => absurd h he)
    split
    · rename_i hcond
      simp only [modifySae, wp_bind, wp_modify]
      refine wp_mono (removeSta_spec f _ _) ?_ (fun _ he => he.elim)
      rintro _ w' ⟨hf, hsae⟩
      have hf' : w.Frame w' := hf.frame.after (.of_eq rfl rfl rfl rfl)
      obtain h | h := saePickNextGroup_cases c conf w.sae
      · refine .same hf' ?_
        rw [hsae]
        simp only [h]
        exact .refl _
      · exact .cleared hcond.1 hf' (by rw [hsae]; exact h)
    split
    · exact wp_mono hremove (fun _ _ h => h) (fun _ he => he.elim)
    · rename_i hstatus
      refine wp_mono (handleCommit_spec c conf env f _
        (parsedCommit_hasOwn c conf f w.sae hown)) ?_ (fun _ he h => absurd h he)
      intro _ w' hp
      exact hlift w' (.commit htrans (not_not.1 hstatus) hp)
  split
  · rename_i htrans
    split
    · exact wp_mono hremove (fun _ _ h => h) (fun _ he => he.elim)
    · rename_i hstatus
      refine wp_mono (handleConfirm_spec c conf f _) ?_ ?_
      · intro _ w' hres
        exact hlift w' (.confirm htrans (not_not.1 hstatus) hres)
      · intro e he hconf
        exact ⟨htrans, not_not.1 hstatus, he hconf⟩
  split
  · exact wp_mono hremove (fun _ _ h => h) (fun _ he => he.elim)
  · refine wp_mono (reply_spec f _ _ _) ?_ (fun _ he => he.elim)
    rintro _ w' ⟨hf, hsae⟩
    exact .same (hf₀.trans hf.frame) (hsae ▸ .refl _)

/-- **The retransmit timer** keeps the exchange, or goes back to Nothing past the sync limit. -/
theorem retransmit_spec (c : CryptoLib P) (conf : HostapdConf) (w : SaeWorld P) :
    wp (retransmit c conf)
      (fun _ w' => w.Frame w' ∧ w'.sae.pmk = w.sae.pmk ∧
        (w.sae.Same w'.sae ∨ w'.sae.state = .nothing))
      (fun e => e.OfConfirm → w.sae.state = .confirmed ∧ ¬ (w.sae.HasOwn ∧ w.sae.HasPeer)) w := by
  simp only [retransmit, saeClearRetransmitTimer, saeCheckBigSync, modifySta, wp_bind, wp_modify,
    wp_get]
  split
  · simp only [wp_bind, wp_set, wp_pure, if_true]
    exact ⟨.of_eq rfl rfl rfl rfl, trivial, .inr trivial⟩
  · simp only [wp_pure, Bool.false_eq_true, if_false, saeSyncInc, modifySae, wp_bind, wp_modify,
      wp_get]
    have hf₀ : w.Frame { w with
        sta := { w.sta with retransmitTimer := false }
        sae := { w.sae with sync := (w.sae.sync + 1) % 2 ^ 32 } } := .of_eq rfl rfl rfl rfl
    split
    · simp only [wp_bind]
      refine wp_mono (authSaeSendCommit_spec c conf false _) ?_ (fun _ he h => absurd h he)
      rintro ret w₁ ⟨hf₁, -, hsame, -⟩
      simp only [wp_modify]
      have hsae := hsame rfl
      refine ⟨(hf₁.frame.after hf₀).trans (.of_eq rfl rfl rfl rfl), by rw [hsae], .inl ?_⟩
      rw [hsae]
      exact ⟨rfl, rfl, rfl, .inl rfl⟩
    · rename_i hs
      simp only [wp_bind]
      refine wp_mono (authSaeSendConfirm_effect c _) ?_ (fun _ he h => ⟨hs, he h⟩)
      rintro ret w₁ ⟨hf₁, n, hsae⟩
      simp only [wp_modify]
      refine ⟨(hf₁.frame.after hf₀).trans (.of_eq rfl rfl rfl rfl), by rw [hsae], .inl ?_⟩
      rw [hsae]
      exact ⟨rfl, rfl, rfl, .inl rfl⟩
    · exact ⟨hf₀, rfl, .inl ⟨rfl, rfl, rfl, .inl rfl⟩⟩
    · exact ⟨hf₀, rfl, .inl ⟨rfl, rfl, rfl, .inl rfl⟩⟩

end Hostap
