import Hostap.Sae.Machine
import Hostap.Sae.SmallCurve

/-!
# Anti-clogging tokens

With many open instances `handle_auth_sae()` answers a Commit with a token request, and goes on only with a
Commit that brings the token back (`src/ap/ieee802_11.c`). The token is an HMAC over the address of the station;
its key is changed by a token request only, and only when it is more than 60 seconds old.

`TokenInv` says that the key is still the one that was made at a time, and that every token that was sent since
is right. Each part of the AP keeps it while the key does not expire.
-/

namespace Hostap

open Octets Prog List

variable {P : Type}

/-- A token request that has a token has one that is accepted. -/
def SaeObs.TokenRight (c : CryptoLib P) (st : SaeAp P) (o : SaeObs P) : Prop :=
  ∀ transaction body, o = .tx transaction wlanStatusAntiCloggingTokenReq body → body ≠ [] →
    ∃ group token, body = le16 group ++ token ∧ checkSaeToken c st.tokenKey st.sta.addr token = true

/-- The key is still that of `st₀`, and tokens that were sent since are right. -/
structure TokenSince (c : CryptoLib P) (st₀ : SaeAp P) (tokenKey : Bytes) (last : Option Nat) (addr : Bytes)
    (log : List (SaeObs P)) : Prop where
  tokenKey : tokenKey = st₀.tokenKey
  last : last = st₀.lastTokenKeyUpdate
  addr : addr = st₀.sta.addr
  log : ∀ o ∈ log, o ∈ st₀.log ∨ o.TokenRight c st₀

def TokenInv (c : CryptoLib P) (st₀ : SaeAp P) (w : SaeWorld P) : Prop :=
  TokenSince c st₀ w.tokenKey w.lastTokenKeyUpdate w.sta.addr w.log

/-- `TokenInv` between two events. -/
def TokenApInv (c : CryptoLib P) (st₀ st : SaeAp P) : Prop :=
  TokenSince c st₀ st.tokenKey st.lastTokenKeyUpdate st.sta.addr st.log

section Programs

variable {c : CryptoLib P} {conf : HostapdConf} {st₀ : SaeAp P} {w : SaeWorld P}

theorem TokenInv.snoc {o : SaeObs P} (h : TokenInv c st₀ w) (ho : o.TokenRight c st₀) :
    TokenSince c st₀ w.tokenKey w.lastTokenKeyUpdate w.sta.addr (w.log ++ [o]) := by
  refine ⟨h.tokenKey, h.last, h.addr, fun o' ho' => ?_⟩
  rcases mem_append.mp ho' with hmem | hmem
  · exact h.log o' hmem
  · rw [mem_singleton.mp hmem]
    exact .inr ho

theorem modifySae_stable (f : SaeData P → SaeData P) : Stable (TokenInv c st₀) (modifySae f) :=
  .modify fun _ h => h

theorem modifySta_stable {f : StaInfo → StaInfo} (hf : ∀ sta, (f sta).addr = sta.addr) :
    Stable (TokenInv c st₀) (modifySta f) :=
  .modify fun _ h => ⟨h.tokenKey, h.last, (hf _).trans h.addr, h.log⟩

theorem sendAuthReply_stable {transaction status : Nat} {body : Bytes}
    (ho : (SaeObs.tx transaction status body : SaeObs P).TokenRight c st₀) :
    Stable (TokenInv c st₀) (sendAuthReply transaction status body) := by
  intro w h
  simp only [sendAuthReply, wp_bind, wp_get, wp_set, wp_pure]
  exact h.snoc ho

theorem prepareCommit_stable (password : Bytes) (rxId : Option Bytes) :
    Stable (TokenInv c st₀) (prepareCommit c conf password rxId) := by
  intro w h
  simp only [prepareCommit, wp_bind, wp_get, wp_callPure, wp_set, wp_pure]
  exact ⟨fun _ _ => h, fun _ _ => trivial⟩

theorem processCommit_stable : Stable (TokenInv c st₀) (processCommit c) := by
  intro w h
  simp only [processCommit, wp_bind, wp_get, wp_callPure, wp_set, wp_pure]
  refine ⟨fun r _ => h.snoc ?_, fun _ _ => trivial⟩
  split
  · intro _ _ heq
    cases heq
  · intro _ _ heq
    cases heq

theorem authBuildSaeCommit_stable (update : Bool) :
    Stable (TokenInv c st₀) (authBuildSaeCommit c conf update) := by
  have hwrite : ∀ (rxId : Option Bytes) (ok : Bool), Stable (TokenInv c st₀)
      (if ok then do
        let w ← get
        let buf ← callPure (saeWriteCommit w.sae (w.sae.tmp.bind (·.antiCloggingToken)) rxId)
        pure (some buf)
      else pure none : SaeProg P (Option Bytes)) := fun rxId ok =>
    .ite (.get fun w h => Stable.bind (.callPure _) (fun _ => .pure _) w h) (.pure _)
  refine .get fun w h => ?_
  dsimp only
  split
  · exact h
  · cases update with
    | false => exact Stable.bind (.pure _) (hwrite _) w h
    | true => exact Stable.bind (prepareCommit_stable _ _) (hwrite _) w h

theorem authSaeSendCommit_stable (update : Bool) :
    Stable (TokenInv c st₀) (authSaeSendCommit c conf update) := by
  refine .bind (authBuildSaeCommit_stable update) fun buf => ?_
  cases buf with
  | none => exact .get fun w h => Stable.ite (.pure _) (.pure _) w h
  | some data => exact sendAuthReply_stable nofun

theorem authSaeSendConfirm_stable : Stable (TokenInv c st₀) (authSaeSendConfirm c) := by
  refine .get fun w h => ?_
  rw [wp_bind, wp_callPure]
  refine ⟨fun r _ => ?_, fun _ _ => trivial⟩
  have ho : (SaeObs.tx 2 wlanStatusSuccess r.1 : SaeObs P).TokenRight c st₀ := nofun
  exact sendAuthReply_stable ho { w with sae := r.2 } h

theorem saeCheckBigSync_stable : Stable (TokenInv c st₀) (saeCheckBigSync conf) := by
  refine .get fun w h => ?_
  split
  · exact h
  · exact h

theorem saeAcceptSta_stable : Stable (TokenInv c st₀) saeAcceptSta := by
  intro w h
  exact h.snoc nofun

theorem saeClearRetransmitTimer_stable : Stable (TokenInv c st₀) saeClearRetransmitTimer :=
  modifySta_stable fun _ => rfl

theorem saeSetRetransmitTimer_stable : Stable (TokenInv c st₀) (saeSetRetransmitTimer conf) :=
  modifySta_stable fun _ => by split <;> rfl

theorem confirmed_stable {m : SaeProg P Nat} (hm : Stable (TokenInv c st₀) m) :
    Stable (TokenInv c st₀) (do
      let ret ← authSaeSendConfirm c
      if ret ≠ wlanStatusSuccess then pure ret else m) :=
  .bind authSaeSendConfirm_stable fun _ => .ite (.pure _) hm

theorem saeSmStepNothing_stable (transaction : Nat) :
    Stable (TokenInv c st₀) (saeSmStepNothing c conf transaction) := by
  have hend : Stable (TokenInv c st₀)
      (do saeSyncReset; saeSetRetransmitTimer conf; pure wlanStatusSuccess : SaeProg P Nat) :=
    .bind (modifySae_stable _) fun _ => .bind saeSetRetransmitTimer_stable fun _ => .pure _
  refine .ite (.bind (authSaeSendCommit_stable true) fun ret => ?_) (.pure _)
  refine .ite (.pure _) (.bind (modifySae_stable _) fun _ => .bind processCommit_stable fun ok => ?_)
  refine .ite (.pure _) (.ite (confirmed_stable ?_) hend)
  exact .bind (modifySae_stable _) fun _ => hend

theorem saeSmStepConfirmed_stable (transaction : Nat) :
    Stable (TokenInv c st₀) (saeSmStepConfirmed c conf transaction) := by
  refine .bind saeClearRetransmitTimer_stable fun _ => .ite ?_ ?_
  · refine .bind saeCheckBigSync_stable fun big => .ite (.pure _) (.bind (modifySae_stable _) fun _ => ?_)
    refine .bind (authSaeSendCommit_stable true) fun ret => .ite (.pure _) ?_
    refine .bind processCommit_stable fun ok => .ite (.pure _) (confirmed_stable ?_)
    exact .bind saeSetRetransmitTimer_stable fun _ => .pure _
  · exact .bind (modifySae_stable _) fun _ => .bind saeAcceptSta_stable fun _ => .pure _

theorem saeSmStepCommitted_stable (transaction : Nat) :
    Stable (TokenInv c st₀) (saeSmStepCommitted c conf transaction) := by
  refine .bind saeClearRetransmitTimer_stable fun _ => .ite ?_ (.ite ?_ ?_)
  · refine .bind processCommit_stable fun ok => .ite (.pure _) (confirmed_stable ?_)
    exact .bind (modifySae_stable _) fun _ => .bind (modifySae_stable _) fun _ =>
      .bind saeSetRetransmitTimer_stable fun _ => .pure _
  · refine .bind saeCheckBigSync_stable fun big => .ite (.pure _) (.bind (modifySae_stable _) fun _ => ?_)
    refine .bind (authSaeSendCommit_stable false) fun ret => .ite (.pure _) ?_
    exact .bind saeSetRetransmitTimer_stable fun _ => .pure _
  · exact confirmed_stable (.bind (modifySae_stable _) fun _ => saeSmStepConfirmed_stable transaction)

theorem saeSmStepAccepted_stable (transaction : Nat) :
    Stable (TokenInv c st₀) (saeSmStepAccepted c conf transaction) := by
  refine .ite ?_ (.ite ?_ ?_)
  · refine .bind (.modify fun w h => ?_) fun _ => .pure _
    exact h.snoc nofun
  · refine .bind (authSaeSendCommit_stable true) fun ret => .ite (.pure _) ?_
    refine .bind (modifySae_stable _) fun _ => ?_
    refine .bind processCommit_stable fun ok => .ite (.pure _) (.bind (modifySae_stable _) fun _ => ?_)
    exact .bind saeSetRetransmitTimer_stable fun _ => .pure _
  · refine .bind saeCheckBigSync_stable fun big => .ite (.pure _) (.bind (modifySae_stable _) fun _ => ?_)
    exact .bind authSaeSendConfirm_stable fun _ => .bind (modifySae_stable _) fun _ => .pure _

theorem saeSmStep_stable (transaction : Nat) :
    Stable (TokenInv c st₀) (saeSmStep c conf transaction) := by
  refine .ite (.pure _) (.get fun w h => ?_)
  split
  · exact saeSmStepNothing_stable transaction w h
  · exact saeSmStepCommitted_stable transaction w h
  · exact saeSmStepConfirmed_stable transaction w h
  · exact saeSmStepAccepted_stable transaction w h

theorem removeSta_stable (f : AuthFrame) (resp : Nat) :
    Stable (TokenInv c st₀) (removeSta f resp) :=
  modifySta_stable fun _ => by split <;> rfl

theorem reply_stable {f : AuthFrame} {resp : Nat} {data : Bytes}
    (ho : (SaeObs.tx f.transaction resp data : SaeObs P).TokenRight c st₀) :
    Stable (TokenInv c st₀) (reply f resp data) :=
  .ite (.bind (sendAuthReply_stable ho) fun _ => removeSta_stable f resp) (removeSta_stable f resp)

theorem tokenRight_nil (transaction status : Nat) :
    (SaeObs.tx transaction status [] : SaeObs P).TokenRight c st₀ := by
  rintro _ body h hne
  cases h
  exact absurd rfl hne

theorem authBuildTokenReq_right {now last : Nat} (hlast : st₀.lastTokenKeyUpdate = some last)
    (hnow : now ≤ last + 60 * 10 ^ 6) (h : TokenInv c st₀ w) :
    wp (authBuildTokenReq c now) (fun data w' => TokenInv c st₀ w' ∧ ∀ transaction status,
      (SaeObs.tx transaction status (data.getD []) : SaeObs P).TokenRight c st₀) (fun _ => True) w := by
  -- the key is not made anew
  have hkeep : ¬ last + 60 * 10 ^ 6 < now := Nat.not_lt.mpr hnow
  simp only [authBuildTokenReq, wp_bind, wp_get, h.last, hlast, hkeep, decide_false, Bool.false_eq_true,
    if_false, if_true, wp_pure]
  refine ⟨h, ?_⟩
  rintro _ _ _ body hbody -
  cases hbody
  refine ⟨_, _, rfl, ?_⟩
  rw [h.tokenKey, h.addr]
  unfold checkSaeToken
  rw [c.hmacSha256_length]
  simp [sha256MacLen]

theorem handleTokenRequest_stable (f : AuthFrame) :
    Stable (TokenInv c st₀) (handleTokenRequest c conf f) := by
  have hset : ∀ resp, Stable (TokenInv c st₀) (if resp ≠ wlanStatusSuccess then removeSta f resp
      else do saeSetState .committed; saeSyncReset; saeSetRetransmitTimer conf : SaeProg P Unit) := fun resp =>
    .ite (removeSta_stable f resp) (.bind (modifySae_stable _) fun _ => .bind (modifySae_stable _) fun _ =>
      saeSetRetransmitTimer_stable)
  refine .ite (reply_stable (tokenRight_nil _ _)) (.get fun w h => ?_)
  refine Stable.ite (reply_stable (tokenRight_nil _ _))
    (.bind (modifySae_stable _) fun _ => .bind (authSaeSendCommit_stable false) hset)
    { w with sae := (saeGroupAllowed c conf.saeGroups (getLe16 f.body) w.sae).2 }
    h

theorem handleCommit_stable {env : SaeEnv} {last : Nat} (hlast : st₀.lastTokenKeyUpdate = some last)
    (hnow : env.now ≤ last + 60 * 10 ^ 6) (f : AuthFrame) :
    Stable (TokenInv c st₀) (handleCommit c conf env f) := by
  refine .bind (modifySae_stable _) fun _ => .get fun w h => ?_
  have h' : TokenInv c st₀ { w with sae := (saeParseCommit c conf.saeGroups f.body w.sae).sae } :=
    h
  refine Stable.ite (removeSta_stable f _) (.ite ?_ (.ite (removeSta_stable f _)
    (.ite (reply_stable (tokenRight_nil _ _)) (.ite ?_ ?_)))) _ h'
  · exact .bind saeClearRetransmitTimer_stable fun _ => .bind (modifySae_stable _) fun _ => removeSta_stable f _
  · intro w h
    rw [wp_bind]
    refine wp_mono (authBuildTokenReq_right hlast hnow h) ?_ fun _ _ => trivial
    rintro data w' ⟨h', hright⟩
    exact Stable.bind (modifySae_stable _) (fun _ => reply_stable (hright _ _)) w' h'
  · exact .bind (saeSmStep_stable 1) fun _ => reply_stable (tokenRight_nil _ _)

theorem handleConfirm_stable (f : AuthFrame) :
    Stable (TokenInv c st₀) (handleConfirm c conf f) := by
  have hstep : Stable (TokenInv c st₀)
      (do let resp ← saeSmStep c conf 2; reply f resp [] : SaeProg P Unit) :=
    .bind (saeSmStep_stable 2) fun _ => reply_stable (tokenRight_nil _ _)
  refine .get fun w h => Stable.ite (.ite (reply_stable (tokenRight_nil _ _)) (.ite (.pure _) ?_)) hstep w h
  refine .bind (.callPure _) fun ok => .ite (reply_stable (tokenRight_nil _ _)) ?_
  exact .bind (.modify fun w h => h.snoc nofun) fun _ =>
    .bind (modifySae_stable _) fun _ => hstep

theorem handleAuthSaeBody_stable {env : SaeEnv} {last : Nat} (hlast : st₀.lastTokenKeyUpdate = some last)
    (hnow : env.now ≤ last + 60 * 10 ^ 6) (f : AuthFrame) :
    Stable (TokenInv c st₀) (handleAuthSaeBody c conf env f) := by
  refine .bind (modifySta_stable fun _ => rfl) fun _ => .get fun w h => ?_
  refine Stable.ite (.ite (handleTokenRequest_stable f) (.ite ?_ (.ite (removeSta_stable f _)
    (handleCommit_stable hlast hnow f)))) (.ite (.ite (removeSta_stable f _) (handleConfirm_stable f))
    (.ite (removeSta_stable f _) (reply_stable (tokenRight_nil _ _)))) w h
  exact .bind (modifySae_stable _) fun _ => removeSta_stable f _

theorem retransmit_stable : Stable (TokenInv c st₀) (retransmit c conf) := by
  have htimer : Stable (TokenInv c st₀)
      (modifySta fun sta => { sta with retransmitTimer := true } : SaeProg P Unit) :=
    modifySta_stable fun _ => rfl
  refine .bind saeClearRetransmitTimer_stable fun _ => .bind saeCheckBigSync_stable fun big => ?_
  refine .ite (.pure _) (.bind (modifySae_stable _) fun _ => .get fun w h => ?_)
  split
  · exact Stable.bind (authSaeSendCommit_stable false) (fun _ => htimer) w h
  · exact Stable.bind authSaeSendConfirm_stable (fun _ => htimer) w h
  · exact h
  · exact h

end Programs

/-! ## Runs -/

def SaeEvent.now : SaeEvent → Nat
  | .auth _ env => env.now
  | .retransmitTimer env => env.now

section Runs

variable {c : CryptoLib P} {conf : HostapdConf} {st₀ : SaeAp P} {last : Nat}

theorem runOn_token {m : SaeProg P Unit} {st st' : SaeAp P} {sae : SaeData P} {env : SaeEnv}
    (hm : Stable (TokenInv c st₀) m) (h : TokenApInv c st₀ st)
    (hrun : runOn st sae env m = .ok st') : TokenApInv c st₀ st' := by
  unfold runOn at hrun
  split at hrun
  · rename_i w hw
    cases hrun
    -- the instance may be freed, which leaves the address of the station as it is
    have hinv := wp_ok (hm (st.enter sae env) h) hw
    refine ⟨hinv.tokenKey, hinv.last, ?_, hinv.log⟩
    unfold SaeWorld.leave
    split
    · exact hinv.addr
    · exact hinv.addr
  · cases hrun

theorem saeApStep_token {st st' : SaeAp P} {ev : SaeEvent} (hlast : st₀.lastTokenKeyUpdate = some last)
    (hnow : ev.now ≤ last + 60 * 10 ^ 6) (h : TokenApInv c st₀ st) (hstep : saeApStep c conf st ev = .ok st') :
    TokenApInv c st₀ st' := by
  cases ev with
  | auth f env =>
    have hbody : Stable (TokenInv c st₀) (handleAuthSaeBody c conf env f) :=
      handleAuthSaeBody_stable hlast hnow f
    change handleAuthSae c conf env f st = .ok st' at hstep
    unfold handleAuthSae at hstep
    split at hstep
    · exact runOn_token hbody h hstep
    · split at hstep
      · cases hstep
        exact h
      · exact runOn_token hbody h hstep
  | retransmitTimer env =>
    change authSaeRetransmitTimer c conf env st = .ok st' at hstep
    unfold authSaeRetransmitTimer at hstep
    split at hstep
    · exact runOn_token retransmit_stable h hstep
    · cases hstep
      exact h

end Runs

def loadedConf : HostapdConf := { smallConf with saeAntiCloggingThreshold := 0 }

section Load

variable {c : CryptoLib P} {conf : HostapdConf} {env : SaeEnv} {f : AuthFrame}

/-- From `w` to `w'` there were no keys, and the instance is in state Nothing. -/
def SaeWorld.StaysOut (w w' : SaeWorld P) : Prop := w.Unkeyed w' ∧ w'.sae.state = .nothing

theorem SaeWorld.StaysOut.of_kept {w w₁ w₂ : SaeWorld P} (h : w.StaysOut w₁)
    (h' : w₁.Unkeyed w₂ ∧ w₂.sae = w₁.sae) : w.StaysOut w₂ := ⟨h.1.trans h'.1, by rw [h'.2]; exact h.2⟩

theorem useSaeAntiClogging_cons {states : List SaeState} (s : SaeState)
    (h : useSaeAntiClogging conf states = true) : useSaeAntiClogging conf (s :: states) = true := by
  have hcount : states.countP SaeState.isOpen ≤ (s :: states).countP SaeState.isOpen := by
    rw [countP_cons]
    exact Nat.le_add_right _ _
  unfold useSaeAntiClogging at h ⊢
  simp only [Bool.or_eq_true, beq_iff_eq, decide_eq_true_eq] at h ⊢
  exact h.imp_right fun hle => hle.trans hcount

theorem parsedCommit_nothing {sae : SaeData P} (hs : sae.state = .nothing) :
    (parsedCommit c conf f sae).sae.state = .nothing := by
  have hrestart : restartInfrastructure conf sae = sae := if_neg (by simp [hs])
  obtain ⟨hupdate | ⟨-, -, hnothing⟩, -⟩ :=
    saeParseCommit_spec c conf.saeGroups f.body (restartInfrastructure conf sae)
  · refine hupdate.state.trans ?_
    rw [hrestart]
    exact hs
  · exact hnothing

theorem removeSta_staysOut {w w₁ : SaeWorld P} (resp : Nat) (h : w.StaysOut w₁) :
    wp (removeSta f resp) (fun _ w' => w.StaysOut w') (fun _ => True) w₁ :=
  wp_mono (removeSta_spec f resp w₁) (fun _ _ h' => h.of_kept h') fun _ _ => trivial

theorem reply_staysOut {w w₁ : SaeWorld P} (resp : Nat) (data : Bytes) (h : w.StaysOut w₁) :
    wp (reply f resp data) (fun _ w' => w.StaysOut w') (fun _ => True) w₁ :=
  wp_mono (reply_spec f resp data w₁) (fun _ _ h' => h.of_kept h') fun _ _ => trivial

theorem handleCommit_staysOut {w : SaeWorld P} (hs : w.sae.state = .nothing)
    (hload : useSaeAntiClogging conf env.others = true)
    (htoken : ∀ token, (parsedCommit c conf f w.sae).token = some token →
      checkSaeToken c w.tokenKey w.sta.addr token = false) :
    wp (handleCommit c conf env f) (fun _ w' => w.StaysOut w') (fun _ => True) w := by
  have hparsed : w.StaysOut { w with sae := (parsedCommit c conf f w.sae).sae } :=
    ⟨.of_eq rfl rfl rfl rfl, parsedCommit_nothing hs⟩
  simp only [handleCommit, modifySae, wp_bind, wp_modify, wp_get, wp_set]
  split
  · exact removeSta_staysOut _ hparsed
  split
  · simp only [saeClearRetransmitTimer, saeSetState, modifySta, modifySae, wp_bind, wp_modify]
    exact removeSta_staysOut _ ⟨hparsed.1.trans (.of_eq rfl rfl rfl rfl), rfl⟩
  split
  · exact removeSta_staysOut _ hparsed
  rename_i hright
  split
  · exact reply_staysOut _ _ hparsed
  split
  · simp only [wp_bind]
    refine wp_mono (authBuildTokenReq_spec c env.now _) ?_ fun _ _ => trivial
    intro data w₁ hbuilt
    simp only [wp_modify]
    have hasked := hparsed.of_kept hbuilt
    refine reply_staysOut _ _ ⟨hasked.1.trans (.of_eq rfl rfl rfl rfl), ?_⟩
    split
    · rfl
    · exact hasked.2
  · -- a token is there, and it is not right
    rename_i hgoes
    cases htok : (parsedCommit c conf f w.sae).token with
    | none =>
      refine absurd ⟨?_, useSaeAntiClogging_cons _ hload⟩ hgoes
      change (parsedCommit c conf f w.sae).token.isNone = true
      rw [htok]
      rfl
    | some token =>
      refine absurd ?_ hright
      change (parsedCommit c conf f w.sae).token.any _ = true
      rw [htok]
      simp [htoken token htok]

theorem saeSmStep_staysOut {w w₁ : SaeWorld P} (h : w.StaysOut w₁) :
    wp (saeSmStep c conf 2 >>= fun resp => reply f resp []) (fun _ w' => w.StaysOut w') (fun _ => True) w₁ := by
  simp only [wp_bind, saeSmStep]
  rw [if_neg (by decide)]
  simp only [wp_bind, wp_get, h.2, saeSmStepNothing]
  rw [if_neg (by decide), wp_pure]
  exact reply_staysOut _ _ h

theorem handleConfirm_staysOut {w w₁ : SaeWorld P} (h : w.StaysOut w₁) :
    wp (handleConfirm c conf f) (fun _ w' => w.StaysOut w') (fun _ => True) w₁ := by
  simp only [handleConfirm]
  rw [wp_bind, wp_get]
  split
  · split
    · exact reply_staysOut _ _ h
    split
    · exact h
    rw [wp_bind, wp_callPure]
    refine ⟨fun ok _ => ?_, fun _ _ => trivial⟩
    split
    · exact reply_staysOut _ _ h
    · simp only [observe, modifySae]
      rw [wp_bind, wp_modify, wp_bind, wp_modify]
      refine saeSmStep_staysOut ⟨h.1.trans (.of_snoc rfl rfl rfl rfl ?_), h.2⟩
      constructor
      · intro _ _ heq
        cases heq
      · intro _ _ _ heq
        cases heq
  · exact saeSmStep_staysOut h

theorem handleAuthSaeBody_staysOut {w : SaeWorld P} (hmesh : conf.mesh = false) (hs : w.sae.state = .nothing)
    (hcommit : f.transaction = 1 → f.status = wlanStatusSuccess → useSaeAntiClogging conf env.others = true ∧
      ∀ token, (parsedCommit c conf f w.sae).token = some token →
        checkSaeToken c w.tokenKey w.sta.addr token = false) :
    wp (handleAuthSaeBody c conf env f) (fun _ w' => w.StaysOut w') (fun _ => True) w := by
  have h : w.StaysOut { w with sta := { w.sta with meshSaePmksaCaching := false } } :=
    ⟨.of_eq rfl rfl rfl rfl, hs⟩
  simp only [handleAuthSaeBody, modifySta, wp_bind, wp_modify, wp_get, hmesh]
  split
  · rename_i htransaction
    split
    · rename_i hcond
      cases hcond.1
    split
    · rename_i hcond
      cases hcond.1
    split
    · exact removeSta_staysOut _ h
    · rename_i hstatus
      obtain ⟨hload, htoken⟩ := hcommit htransaction (not_not.mp hstatus)
      exact wp_mono (handleCommit_staysOut h.2 hload htoken) (fun _ _ h' => ⟨h.1.trans h'.1, h'.2⟩)
        fun _ he => he
  split
  · split
    · exact removeSta_staysOut _ h
    · exact handleConfirm_staysOut h
  split
  · exact removeSta_staysOut _ h
  · exact reply_staysOut _ _ h

theorem retransmit_staysOut {w : SaeWorld P} (hs : w.sae.state = .nothing) :
    wp (retransmit c conf) (fun _ w' => w.StaysOut w') (fun _ => True) w := by
  simp only [retransmit, saeClearRetransmitTimer, saeCheckBigSync, modifySta, wp_bind, wp_modify, wp_get]
  split
  · simp only [wp_bind, wp_set, wp_pure, if_true]
    exact ⟨.of_eq rfl rfl rfl rfl, rfl⟩
  · simp only [wp_pure, Bool.false_eq_true, if_false, saeSyncInc, modifySae, wp_bind, wp_modify, wp_get, hs]
    exact ⟨.of_eq rfl rfl rfl rfl, rfl⟩

/-- There is no instance, or it is in state Nothing. -/
def SaeAp.Out (st : SaeAp P) : Prop := (st.sae.getD {}).state = .nothing

/-- A Commit comes while the other stations have as many open instances as the threshold says, and it does not
bring the right token. -/
def NoToken (c : CryptoLib P) (conf : HostapdConf) (st : SaeAp P) : SaeEvent → Prop
  | .auth f env => f.transaction = 1 → f.status = wlanStatusSuccess →
      useSaeAntiClogging conf env.others = true ∧
      ∀ token, (parsedCommit c conf f (st.sae.getD {})).token = some token →
        checkSaeToken c st.tokenKey st.sta.addr token = false
  | .retransmitTimer _ => True

/-- Between `st₀` and `st` there were no keys. -/
structure SaeAp.StaysOut (st₀ st : SaeAp P) : Prop where
  out : st.Out
  auth : st.sta.auth = true → st₀.sta.auth = true
  log : ∃ l, st.log = st₀.log ++ l ∧ ∀ o ∈ l, o.NotKeying

theorem runOn_staysOut {st₀ st st' : SaeAp P} {sae : SaeData P} {m : SaeProg P Unit} (h : st₀.StaysOut st)
    (hm : wp m (fun _ w' => (st.enter sae env).StaysOut w') (fun _ => True) (st.enter sae env))
    (hrun : runOn st sae env m = .ok st') : st₀.StaysOut st' := by
  unfold runOn at hrun
  split at hrun
  · rename_i w hw
    cases hrun
    obtain ⟨hunkeyed, hstate⟩ := wp_ok hm hw
    obtain ⟨l, hl, hnot⟩ := h.log
    obtain ⟨l', hl', hnot'⟩ := hunkeyed.log
    refine ⟨?_, ?_, l ++ l', ?_, fun o ho => (mem_append.mp ho).elim (hnot o) (hnot' o)⟩
    · unfold SaeAp.Out SaeWorld.leave
      split
      · rfl
      · exact hstate
    · unfold SaeWorld.leave
      split
      · exact fun hauth => nomatch hauth
      · exact fun hauth => h.auth (hunkeyed.auth ▸ hauth)
    · rw [← append_assoc, ← hl]
      exact hl'
  · cases hrun

theorem saeApStep_staysOut {st₀ st st' : SaeAp P} {ev : SaeEvent} (hmesh : conf.mesh = false)
    (h : st₀.StaysOut st) (hev : NoToken c conf st ev) (hstep : saeApStep c conf st ev = .ok st') :
    st₀.StaysOut st' := by
  have hout := h.out
  unfold SaeAp.Out at hout
  cases ev with
  | auth f env =>
    change handleAuthSae c conf env f st = .ok st' at hstep
    unfold NoToken at hev
    unfold handleAuthSae at hstep
    split at hstep
    · rename_i sae hsae
      rw [hsae] at hout hev
      exact runOn_staysOut h (handleAuthSaeBody_staysOut hmesh hout hev) hstep
    · rename_i hsae
      rw [hsae] at hout hev
      split at hstep
      · cases hstep
        exact ⟨h.out, h.auth, h.log⟩
      · exact runOn_staysOut h (handleAuthSaeBody_staysOut hmesh hout hev) hstep
  | retransmitTimer env =>
    change authSaeRetransmitTimer c conf env st = .ok st' at hstep
    unfold authSaeRetransmitTimer at hstep
    split at hstep
    · rename_i sae hsae _
      rw [hsae] at hout
      exact runOn_staysOut h (retransmit_staysOut hout) hstep
    · cases hstep
      exact h

/-- **Under load no keys without a token.** In every run of an infrastructure AP in which each Commit of the
station comes under load and without the right token, whatever else the station sends, no keys are derived with
it, it is not accepted, and its instance stays in state Nothing. -/
theorem sae_load_needs_token {st₀ st : SaeAp P} {evs : List SaeEvent} (hmesh : conf.mesh = false)
    (hout : st₀.Out) (hrun : Run.Reach (saeApStep c conf) (NoToken c conf) st₀ evs st) : st₀.StaysOut st := by
  refine hrun.invariant ⟨hout, id, [], (append_nil _).symm, fun _ ho => nomatch ho⟩ ?_
  intro s ev s' h hev hstep
  exact saeApStep_staysOut hmesh h hev hstep

end Load

theorem sae_load_needs_token_small :
    ∃ st, saeApStep smallLib loadedConf smallSta (smallCommit 3) = .ok st ∧ smallSta.StaysOut st := by
  have hok : (saeApStep smallLib loadedConf smallSta (smallCommit 3)).toOption.isSome = true := by
    decide +kernel
  cases hstep : saeApStep smallLib loadedConf smallSta (smallCommit 3) with
  | error e =>
    rw [hstep] at hok
    cases hok
  | ok st =>
    have hnone : NoToken smallLib loadedConf smallSta (smallCommit 3) := by
      refine fun _ _ => ⟨rfl, fun token htoken => ?_⟩
      have hno :
          (parsedCommit smallLib loadedConf ⟨1, wlanStatusSuccess, [19, 0, 3, 0, 1]⟩ {}).token = none := by
        decide +kernel
      exact nomatch hno.symm.trans htoken
    exact ⟨st, rfl, sae_load_needs_token rfl rfl (.next .start hnone hstep)⟩

end Hostap
