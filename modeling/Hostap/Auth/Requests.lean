import Hostap.Auth.RxDrop
import Hostap.Lib.Run

/-!
# Requests are taken once

A station asks for new keys with EAPOL-Key Requests, which have replay counters of their own. `wpa_receive()`
takes one only with a counter above that of the last it took, until `INITPMK` or `INITPSK` forgets that one.

Between two frames anything can happen to the station that leaves `req_replay_counter` alone; the same is true
of `wpa_rekey_gtk()`, which a Request for a new GTK runs before the frame is kept.
-/

namespace Hostap

open Octets List

/-! ## Frames and other steps -/

/-- What can happen to a station. -/
inductive AuthEvent
  /-- A frame is received; after `wpa_rekey_gtk()`, if it is run, the station is `rekeyed`. -/
  | receive (env : AuthEnv) (g : WpaGroup) (data : Bytes) (rekeyed : WpaStateMachine)
  | other (sm' : WpaStateMachine)

/-- One event. A station that was removed has no further ones. -/
def authEventStep (lib : RsnLib) (conf : WpaAuthConfig) (sm : WpaStateMachine) :
    AuthEvent → Except Unit WpaStateMachine
  | .receive env g data rekeyed =>
    match wpaReceive lib conf env g data sm with
    | .drop sm' | .step sm' => .ok sm'
    | .rekey _ e => .ok (rxEnd env e rekeyed).2
    | .removed => .error ()
  | .other sm' => .ok sm'

/-- The replay counters of the Requests that were taken. -/
def takenRequests (log : List AuthObs) : List Nat :=
  log.filterMap fun
    | .accepted .request counter _ _ => some counter
    | _ => none

/-- What is known of Requests is the same. -/
structure SameRequests (sm sm' : WpaStateMachine) : Prop where
  used : sm'.reqReplayCounterUsed = sm.reqReplayCounterUsed
  counter : sm'.reqReplayCounter = sm.reqReplayCounter
  taken : takenRequests sm'.log = takenRequests sm.log

/-- Steps that are no frames leave Requests alone. -/
def LeavesRequests (lib : RsnLib) (conf : WpaAuthConfig) (sm : WpaStateMachine) : AuthEvent → Prop
  | .receive env g data rekeyed =>
    ∀ sm' e, wpaReceive lib conf env g data sm = .rekey sm' e → SameRequests sm' rekeyed
  | .other sm' => SameRequests sm sm'

/-! ## The invariant -/

/-- Since `old` the counters of the Requests that were taken went up, to the one on record at most. -/
structure RequestsInv (old : List Nat) (sm : WpaStateMachine) : Prop where
  length : sm.reqReplayCounter.length = 8
  log : ∃ taken, takenRequests sm.log = old ++ taken ∧ taken.Pairwise (· < ·) ∧
    ∀ c ∈ taken, sm.reqReplayCounterUsed = true ∧ c ≤ beNat sm.reqReplayCounter

/-- A Request is on record and is not taken yet. -/
structure RequestPending (old : List Nat) (rx : AuthRx) (sm : WpaStateMachine) : Prop where
  msg : rx.msg = .request
  used : sm.reqReplayCounterUsed = true
  counter : sm.reqReplayCounter = rx.key.replayCounter
  length : sm.reqReplayCounter.length = 8
  log : ∃ taken, takenRequests sm.log = old ++ taken ∧ taken.Pairwise (· < ·) ∧ ∀ c ∈ taken, c < rx.counter

variable {lib : RsnLib} {conf : WpaAuthConfig} {env : AuthEnv} {old : List Nat} {sm sm' : WpaStateMachine}
  {rx : AuthRx} {data : Bytes}

theorem RequestsInv.of_same (h : RequestsInv old sm) (hsame : SameRequests sm sm') : RequestsInv old sm' := by
  obtain ⟨hused, hcounter, htaken⟩ := hsame
  refine ⟨hcounter ▸ h.length, ?_⟩
  rw [htaken, hused, hcounter]
  exact h.log

theorem RequestPending.of_same (h : RequestPending old rx sm) (hsame : SameRequests sm sm') :
    RequestPending old rx sm' := by
  obtain ⟨hused, hcounter, htaken⟩ := hsame
  exact ⟨h.msg, hused.trans h.used, hcounter.trans h.counter, hcounter ▸ h.length, htaken ▸ h.log⟩

theorem RequestPending.inv (h : RequestPending old rx sm) : RequestsInv old sm := by
  obtain ⟨taken, htaken, hup, hlt⟩ := h.log
  refine ⟨h.length, taken, htaken, hup, fun c hc => ⟨h.used, ?_⟩⟩
  rw [h.counter]
  exact (hlt c hc).le

theorem takenRequests_note (msg : RxMsg) (counter : Nat) (ptk : Option WpaPtk) (frame : Bytes) :
    takenRequests (sm.note (.accepted msg counter ptk frame)).log =
      takenRequests sm.log ++ if msg = .request then [counter] else [] := by
  unfold takenRequests WpaStateMachine.note
  rw [filterMap_append]
  cases msg <;> rfl

theorem rxEnd_pending {e : RxEnd} (h : RequestPending old e.rx sm) : RequestsInv old (rxEnd env e sm).2 := by
  unfold rxEnd
  split
  · exact h.inv.of_same ⟨rfl, rfl, rfl⟩
  · obtain ⟨taken, htaken, hup, hlt⟩ := h.log
    refine ⟨h.length, taken ++ [e.rx.counter], ?_, ?_, fun c hc => ⟨h.used, ?_⟩⟩
    · refine (takenRequests_note _ _ _ _).trans ?_
      rw [if_pos h.msg, htaken, append_assoc]
    · refine pairwise_append.mpr ⟨hup, pairwise_singleton _ _, fun c hc c' hc' => ?_⟩
      rw [mem_singleton.mp hc']
      exact hlt c hc
    · show c ≤ beNat sm.reqReplayCounter
      rw [h.counter]
      rcases mem_append.mp hc with hmem | hmem
      · exact (hlt c hmem).le
      · exact (mem_singleton.mp hmem).le

theorem rxEnd_other {e : RxEnd} (h : RequestsInv old sm) (hmsg : e.rx.msg ≠ .request) :
    RequestsInv old (rxEnd env e sm).2 := by
  unfold rxEnd
  split
  · exact h.of_same ⟨rfl, rfl, rfl⟩
  · refine h.of_same ⟨rfl, rfl, ?_⟩
    refine (takenRequests_note _ _ _ _).trans ?_
    rw [if_neg hmsg, append_nil]

/-! ## One frame -/

/-- What a frame leaves behind. -/
def RxResult.Requests (old : List Nat) : RxResult → Prop
  | .drop sm | .step sm => RequestsInv old sm
  | .rekey sm e => RequestPending old e.rx sm
  | .removed => True

theorem finishRx_requests {e : RxEnd} (h : RequestsInv old (rxEnd env e sm).2) :
    (finishRx env e sm).Requests old := by
  unfold finishRx
  split <;> rename_i heq <;> rwa [heq] at h

theorem rxVerifyAuth_same (lib : RsnLib) (conf : WpaAuthConfig) (env : AuthEnv) (rx : AuthRx) (data : Bytes)
    (sm : WpaStateMachine) : SameRequests sm (rxVerifyAuth lib conf env rx data sm).2 := by
  have hnot : SameRequests sm { sm with micVerified := false } := ⟨rfl, rfl, rfl⟩
  unfold rxVerifyAuth
  dsimp only
  split
  · split
    · split
      · exact ⟨rfl, rfl, rfl⟩
      · split
        · obtain ⟨xxkey, secrets, hframe⟩ := findPtk_frame lib conf env sm.micLen sm.altSnonce data
            { sm with micVerified := false }
          have htry :
              SameRequests sm (wpaTryAltSnonce lib conf env data { sm with micVerified := false }).2 := by
            unfold wpaTryAltSnonce
            split <;> rename_i heq <;> change findPtk lib conf env sm.micLen sm.altSnonce data _ = _ at heq <;>
              rw [heq] at hframe <;> subst hframe <;> exact ⟨rfl, rfl, rfl⟩
          split <;> rename_i heq <;> rw [heq] at htry <;> exact ⟨htry.used, htry.counter, htry.taken⟩
        · exact hnot
    · split
      · exact hnot
      · exact ⟨rfl, rfl, rfl⟩
  · exact hnot

/-- A Request that is not refused has a counter above those that were taken. -/
theorem RequestsInv.pending (h : RequestsInv old sm) (hok : rxRequestOk sm rx = true) (hmsg : rx.msg = .request)
    (hlen : rx.key.replayCounter.length = 8) :
    RequestPending old rx
      { sm with reqReplayCounterUsed := true, reqReplayCounter := rx.key.replayCounter } := by
  obtain ⟨taken, htaken, hup, hle⟩ := h.log
  refine ⟨hmsg, rfl, rfl, hlen, taken, htaken, hup, fun c hc => ?_⟩
  obtain ⟨hused, hcle⟩ := hle c hc
  have hgt : memcmp rx.key.replayCounter sm.reqReplayCounter = .gt := by
    unfold rxRequestOk at hok
    simpa [hmsg, hused] using hok
  exact hcle.trans_lt ((memcmp_gt_iff (hlen.trans h.length.symm)).mp hgt)

theorem rxRequest_requests {e : RxEnd} (hinv : RequestsInv old sm)
    (h : RequestPending old e.rx
      { sm with reqReplayCounterUsed := true, reqReplayCounter := e.rx.key.replayCounter }) :
    (rxRequest conf env e sm).Requests old := by
  unfold rxRequest
  split
  · exact hinv
  dsimp only
  split
  · split
    · trivial
    · rename_i heq
      unfold wpaReceiveErrorReport at heq
      dsimp only at heq
      split at heq
      · cases heq
      · cases heq
        exact finishRx_requests (rxEnd_pending (h.of_same ⟨rfl, rfl, rfl⟩))
  split
  · exact finishRx_requests (rxEnd_pending (h.of_same ⟨rfl, rfl, rfl⟩))
  split
  · exact finishRx_requests (rxEnd_pending h)
  · -- the group is rekeyed before the counter is logged
    exact h

theorem rxVerified_requests (h : RequestsInv old sm) (hok : rxRequestOk sm rx = true)
    (hlen : rx.key.replayCounter.length = 8) : (rxVerified lib conf env rx data sm).Requests old := by
  have hsame := rxVerifyAuth_same lib conf env rx data sm
  unfold rxVerified
  split
  · rename_i heq
    rw [heq] at hsame
    exact h.of_same hsame
  · rename_i sm' heq
    rw [heq] at hsame
    dsimp only
    split
    · rename_i hmsg
      exact rxRequest_requests (h.of_same hsame)
        ((h.pending hok hmsg hlen).of_same ⟨rfl, rfl, hsame.taken⟩)
    · rename_i hmsg
      refine finishRx_requests (rxEnd_other ?_ hmsg)
      exact (h.of_same hsame).of_same ⟨rfl, rfl, rfl⟩

theorem rxReplay_same (hreplay : rxReplay rx sm = some sm') :
    SameRequests sm sm' ∧ (rxRequestOk sm rx = true → rxRequestOk sm' rx = true) := by
  unfold rxReplay at hreplay
  split at hreplay
  · split at hreplay
    · cases hreplay
      exact ⟨⟨rfl, rfl, rfl⟩, id⟩
    · split at hreplay
      · cases hreplay
        exact ⟨⟨rfl, rfl, rfl⟩, id⟩
      · cases hreplay
  · cases hreplay
    exact ⟨⟨rfl, rfl, rfl⟩, id⟩

theorem rxParse_counter (hparse : rxParse sm data = some rx) : rx.key.replayCounter.length = 8 := by
  unfold rxParse at hparse
  dsimp only at hparse
  split at hparse
  · cases hparse
  rename_i hroom
  have hlen : (readEapolKey data).replayCounter.length = 8 := by
    show (slice data 9 8).length = 8
    unfold slice
    unfold hdrLen eapolKeyLen at hroom
    rw [length_take, length_drop]
    omega
  repeat' split at hparse
  all_goals cases hparse
  exact hlen

theorem wpaReceive_requests (h : RequestsInv old sm) (g : WpaGroup) (data : Bytes) :
    (wpaReceive lib conf env g data sm).Requests old := by
  unfold wpaReceive
  split
  · exact h
  rename_i rx hparse
  split
  · exact h
  rename_i hchecked
  have hok : rxRequestOk sm rx = true := by simpa using (not_or.mp hchecked).2
  split
  · exact h
  rename_i sm' hreplay
  obtain ⟨hsame, hkeeps⟩ := rxReplay_same hreplay
  have hinv := h.of_same hsame
  split
  · exact hinv
  split
  · exact hinv.of_same ⟨rfl, rfl, rfl⟩
  split
  · exact hinv
  · exact rxVerified_requests hinv (hkeeps hok) (rxParse_counter hparse)

theorem authEventStep_requests {ev : AuthEvent} (h : RequestsInv old sm) (hev : LeavesRequests lib conf sm ev)
    (hstep : authEventStep lib conf sm ev = .ok sm') : RequestsInv old sm' := by
  cases ev with
  | receive env g data rekeyed =>
    have hresult : (wpaReceive lib conf env g data sm).Requests old := wpaReceive_requests h g data
    simp only [authEventStep] at hstep
    simp only [LeavesRequests] at hev
    cases hreceive : wpaReceive lib conf env g data sm with
    | drop sm'' =>
      rw [hreceive] at hstep hresult
      cases hstep
      exact hresult
    | step sm'' =>
      rw [hreceive] at hstep hresult
      cases hstep
      exact hresult
    | rekey sm'' e =>
      rw [hreceive] at hstep hresult
      cases hstep
      exact rxEnd_pending (hresult.of_same (hev sm'' e hreceive))
    | removed =>
      rw [hreceive] at hstep
      cases hstep
  | other sm'' =>
    cases hstep
    exact h.of_same hev

/-- **Requests are taken once.** In every run in which the record of Requests is not reset, whatever frames
arrive and whatever else happens to the station, the replay counters of the Requests that are taken go up. -/
theorem auth_requests_increase {sm₀ : WpaStateMachine} {evs : List AuthEvent}
    (hlen : sm₀.reqReplayCounter.length = 8)
    (hrun : Run.Reach (authEventStep lib conf) (LeavesRequests lib conf) sm₀ evs sm) :
    ∃ taken, takenRequests sm.log = takenRequests sm₀.log ++ taken ∧ taken.Pairwise (· < ·) := by
  have hinv : RequestsInv (takenRequests sm₀.log) sm := by
    refine hrun.invariant ⟨hlen, [], (append_nil _).symm, .nil, fun _ hc => nomatch hc⟩ ?_
    intro s ev s' h hev hstep
    exact authEventStep_requests h hev hstep
  obtain ⟨taken, htaken, hup, -⟩ := hinv.log
  exact ⟨taken, htaken, hup⟩

def smallRequest : Bytes :=
  let frame := eapolKeyFrame 2
    { type := 2, keyInfo := 2 + 8 + 256 + 512 + 2048, keyLength := 0, replayCounter := natBe 8 5
      keyNonce := zeros 32, keyIv := zeros 16, keyRsc := zeros 8, keyId := zeros 8 } 16 []
  patch frame micOffset ((smallRsnLib.hmacSha1 [1] frame).take 16)

theorem auth_requests_increase_small :
    ∃ sm, authEventStep smallRsnLib smallRxConf { smallRxSta with ptk := { kck := [1] } }
      (.receive {} {} smallRequest smallRxSta) = .ok sm ∧
      takenRequests sm.log = [5] ∧ ∃ taken, takenRequests sm.log = taken ∧ taken.Pairwise (· < ·) := by
  let sm₀ : WpaStateMachine := { smallRxSta with ptk := { kck := [1] } }
  have htaken : (authEventStep smallRsnLib smallRxConf sm₀
      (.receive {} {} smallRequest smallRxSta)).toOption.map (takenRequests ·.log) = some [5] := by
    decide +kernel
  have hkept : (match wpaReceive smallRsnLib smallRxConf {} {} smallRequest sm₀ with
      | .rekey _ _ => false
      | _ => true) = true := by decide +kernel
  have hleaves : LeavesRequests smallRsnLib smallRxConf sm₀ (.receive {} {} smallRequest smallRxSta) := by
    intro sm' e hrekey
    rw [hrekey] at hkept
    cases hkept
  cases hstep : authEventStep smallRsnLib smallRxConf sm₀ (.receive {} {} smallRequest smallRxSta) with
  | error err =>
    rw [hstep] at htaken
    cases htaken
  | ok sm =>
    rw [hstep] at htaken
    exact ⟨sm, rfl, Option.some.inj htaken, auth_requests_increase rfl (.next .start hleaves hstep)⟩

end Hostap
