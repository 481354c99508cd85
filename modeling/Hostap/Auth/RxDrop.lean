import Hostap.Auth.Rx
import Hostap.Rsn.SmallLib
import Mathlib.Data.List.TakeWhile

/-!
# What a dropped EAPOL-Key frame leaves behind

`wpa_receive()` returns early for a frame it does not take. Most of these returns leave the nonces,
the replay counters and the PTK of the station as they were. Three do not:

* the workaround for a changed SNonce writes its fields while the replay counter is checked, and
  the frame may still be refused for its Ack or MIC bit or for lack of entropy;
* a handshake refused for lack of entropy disconnects the station, which takes its PTK away;
* at the very end there may be no memory to keep the frame, when the counters are already used up.

`rx_drop_keeps_iff` says that there is no other one.
-/

namespace Hostap

open Octets

/-- The fields of a station the next frame is judged by. -/
structure RxGuarded where
  snonce : Bytes
  altSnonce : Bytes
  altSnonceValid : Bool
  altReplayCounter : Nat
  updateSnonce : Bool
  ptk : WpaPtk
  ptkValid : Bool
  keyReplay : List KeyReplay
  prevKeyReplay : List KeyReplay
  reqReplayCounter : Bytes
  deriving DecidableEq

def WpaStateMachine.guarded (sm : WpaStateMachine) : RxGuarded where
  snonce := sm.snonce
  altSnonce := sm.altSnonce
  altSnonceValid := sm.altSnonceValid
  altReplayCounter := sm.altReplayCounter
  updateSnonce := sm.updateSnonce
  ptk := sm.ptk
  ptkValid := sm.ptkValid
  keyReplay := sm.keyReplay
  prevKeyReplay := sm.prevKeyReplay
  reqReplayCounter := sm.reqReplayCounter

/-- The station after a call that returned before `EAPOLKeyReceived` was set. Taking a frame is
noted in the log, which tells the two kinds of steps apart. For a Request that starts a rekey of
the GTK it is the station before the rekey. -/
def RxResult.dropped (env : AuthEnv) (sm : WpaStateMachine) : RxResult → Option WpaStateMachine
  | .drop sm' => some sm'
  | .step sm' => if sm'.log = sm.log then some sm' else none
  | .rekey sm' _ => if env.memdup then none else some sm'
  | .removed => none

/-- When the frame is dropped, the guarded fields are those of before. -/
def RxResult.Keeps (env : AuthEnv) (sm : WpaStateMachine) (r : RxResult) : Prop :=
  ∀ sm', r.dropped env sm = some sm' → sm'.guarded = sm.guarded

/-! ## When they are not -/

/-- The replay counter is accepted, by itself or by one of the workarounds. -/
def rxReplayOk (rx : AuthRx) (sm : WpaStateMachine) : Bool :=
  rx.msg = .request || wpaReplayCounterValid sm.keyReplay rx.counter || updatesSnonce sm rx ||
    usesAltCounter sm rx

/-- The message is expected; a changed SNonce is what makes a late message 2/4 an expected one. -/
def rxExpected (rx : AuthRx) (sm : WpaStateMachine) : Bool :=
  updatesSnonce sm rx || rxStateOk rx sm

/-- The frame is well formed and gets past the check of its replay counter. -/
structure RxArrives (sm : WpaStateMachine) (data : Bytes) (rx : AuthRx) : Prop where
  parsed : rxParse sm data = some rx
  version : rxVersionOk sm rx.key = true
  request : rxRequestOk sm rx = true
  replay : rxReplayOk rx sm = true

def WpaStateMachine.AltKept (sm : WpaStateMachine) : Prop :=
  sm.updateSnonce = true ∧ sm.altSnonce = sm.snonce ∧ sm.altSnonceValid = true ∧
    sm.altReplayCounter = (sm.keyReplay.headD {}).counter

def WpaStateMachine.PtkInUse (sm : WpaStateMachine) : Prop :=
  sm.ptkValid = true ∧ sm.updateSnonce = false

/-- The MIC is not the one of the PTK; a frame that is verified nevertheless is so under the
earlier SNonce. -/
def WpaStateMachine.ForeignMic (lib : RsnLib) (sm : WpaStateMachine) (data : Bytes) : Prop :=
  sm.PtkInUse ∧ sm.micLen ≠ 0 ∧
    wpaVerifyKeyMic lib sm.wpaKeyMgmt sm.pmk.octets.length sm.ptk data = false

/-- Taking the frame uses up a counter or the earlier SNonce. -/
def WpaStateMachine.Consumes (lib : RsnLib) (sm : WpaStateMachine) (data : Bytes) : Prop :=
  (∃ e ∈ sm.keyReplay, e.valid = true) ∨ sm.prevKeyReplay ≠ noKeyReplay ∨ sm.ForeignMic lib data

/-- The station is removed for a second Michael MIC failure. -/
def removesSta (conf : WpaAuthConfig) (env : AuthEnv) (key : WpaEapolKey) (sm : WpaStateMachine) :
    Prop :=
  key.has kiError = true ∧
    ¬ ((key.has kiKeyType = false ∧ conf.wpaGroup ≠ .tkip) ∨
      (key.has kiKeyType = true ∧ sm.pairwise ≠ .tkip)) ∧ env.micFailureRemoves = true

/-- A verified Request asks for a new PTK, or its counter is not the one on record. -/
def requestWrites (key : WpaEapolKey) (sm : WpaStateMachine) : Prop :=
  key.has kiError = true ∨ key.has kiKeyType = true ∨ sm.reqReplayCounter ≠ key.replayCounter

/-- A frame that arrived is dropped after it has changed a guarded field. -/
inductive RxSpoils (lib : RsnLib) (conf : WpaAuthConfig) (env : AuthEnv) (g : WpaGroup)
    (data : Bytes) (sm : WpaStateMachine) (rx : AuthRx) : Prop
  /-- The SNonce workaround was taken, and the frame refused for its flags or for lack of entropy. -/
  | snonceUpdate (hup : updatesSnonce sm rx = true) (hnew : ¬ sm.AltKept)
      (hrefused : rxEncrMissing rx sm = true ∨ g.reject4wayHsForEntropy = true ∨
        rxBitsOk rx sm = false)
  /-- The station was disconnected for lack of entropy. -/
  | entropy (hmsg : rx.msg = .pairwise2) (hreject : g.reject4wayHsForEntropy = true)
      (hencr : rxEncrMissing rx sm = false) (hexpected : rxExpected rx sm = true)
      (hptk : sm.ptkValid = true ∨ sm.ptk ≠ {})
  /-- There was no memory for a frame that had passed all checks. -/
  | noMemory (hmem : env.memdup = false) (hencr : rxEncrMissing rx sm = false)
      (hexpected : rxExpected rx sm = true)
      (hentropy : ¬ (rx.msg = .pairwise2 ∧ g.reject4wayHsForEntropy = true))
      (hbits : rxBitsOk rx sm = true) (hmsg : rx.msg ≠ .request)
      (hverified : updatesSnonce sm rx = true ∨ (rxVerifyAuth lib conf env rx data sm).1.isSome)
      (hconsumes : sm.Consumes lib data)
  /-- There was no memory for a Request that had passed all checks. -/
  | requestNoMemory (hmem : env.memdup = false) (hencr : rxEncrMissing rx sm = false)
      (hbits : rxBitsOk rx sm = true) (hmsg : rx.msg = .request) (huse : sm.PtkInUse)
      (hverified : (rxVerifyAuth lib conf env rx data sm).1.isSome)
      (hstays : ¬ removesSta conf env rx.key sm) (hwrites : requestWrites rx.key sm)

/-! ## Results -/

theorem RxResult.keeps_drop {env : AuthEnv} {sm sm' : WpaStateMachine} :
    (RxResult.drop sm').Keeps env sm ↔ sm'.guarded = sm.guarded := by
  constructor
  · intro h
    exact h sm' rfl
  · rintro h _ heq
    cases heq
    exact h

theorem RxResult.keeps_rekey (env : AuthEnv) (e : RxEnd) (sm sm' : WpaStateMachine) :
    (RxResult.rekey sm' e).Keeps env sm ↔ env.memdup = true ∨ sm'.guarded = sm.guarded := by
  unfold RxResult.Keeps RxResult.dropped
  cases env.memdup with
  | false => simp
  | true => simp

theorem keeps_finishRx {env : AuthEnv} {e : RxEnd} {sm : WpaStateMachine} (sm' : WpaStateMachine)
    (hlog : sm'.log = sm.log) :
    (finishRx env e sm').Keeps env sm ↔ env.memdup = true ∨ sm'.guarded = sm.guarded := by
  cases hmem : env.memdup with
  | false =>
    have hres : finishRx env e sm' = .drop { sm' with lastRxEapolKey := [] } := by
      unfold finishRx rxEnd
      rw [if_pos (by rw [hmem]; decide)]
    rw [hres, RxResult.keeps_drop]
    show sm'.guarded = sm.guarded ↔ _
    simp
  | true =>
    refine ⟨fun _ => .inl rfl, fun _ sm'' hdrop => ?_⟩
    unfold finishRx rxEnd at hdrop
    rw [if_neg (by rw [hmem]; decide)] at hdrop
    -- the note makes the log longer
    have hne : sm'.log ++ [AuthObs.accepted e.rx.msg e.rx.counter e.ptk e.frame] ≠ sm.log := by
      rw [hlog]
      intro heq
      have hlen := congrArg List.length heq
      simp at hlen
    dsimp only [RxResult.dropped] at hdrop
    split at hdrop
    · rename_i heq
      exact absurd heq hne
    · cases hdrop

/-- The station after a Request was taken, before the frame is kept. -/
def requestTaken (key : WpaEapolKey) (sm : WpaStateMachine) : WpaStateMachine :=
  { sm with reqReplayCounterUsed := true, reqReplayCounter := key.replayCounter }

theorem keeps_request_newPtk (env : AuthEnv) (e : RxEnd) {sm sm' : WpaStateMachine}
    (hlog : sm'.log = sm.log) (hvalid : sm.ptkValid = true) :
    (finishRx env e (wpaRequestNewPtk (requestTaken e.rx.key sm'))).Keeps env sm ↔
      env.memdup = true := by
  rw [keeps_finishRx (wpaRequestNewPtk (requestTaken e.rx.key sm')) hlog]
  refine ⟨fun h => h.resolve_right fun heq => ?_, .inl⟩
  have hptk : false = sm.ptkValid := congrArg RxGuarded.ptkValid heq
  rw [hvalid] at hptk
  cases hptk

theorem guarded_requestTaken {key : WpaEapolKey} {sm sm' : WpaStateMachine}
    (hsame : sm'.guarded = sm.guarded) :
    (requestTaken key sm').guarded = sm.guarded ↔ sm.reqReplayCounter = key.replayCounter := by
  constructor
  · intro heq
    exact (congrArg RxGuarded.reqReplayCounter heq).symm
  · intro heq
    rw [← hsame]
    have hreq : sm'.reqReplayCounter = key.replayCounter := by
      rw [← heq]
      exact congrArg RxGuarded.reqReplayCounter hsame
    show ({ sm'.guarded with reqReplayCounter := key.replayCounter } : RxGuarded) = sm'.guarded
    rw [← hreq]
    rfl

theorem wpaReceiveErrorReport_eq (conf : WpaAuthConfig) (env : AuthEnv) (key : WpaEapolKey)
    {sm : WpaStateMachine} (sm' : WpaStateMachine) (herr : key.has kiError = true)
    (hpair : sm'.pairwise = sm.pairwise) :
    (removesSta conf env key sm ∧ wpaReceiveErrorReport conf env (!key.has kiKeyType) sm' = none) ∨
      (¬ removesSta conf env key sm ∧
        wpaReceiveErrorReport conf env (!key.has kiKeyType) sm' = some (wpaRequestNewPtk sm')) := by
  unfold removesSta wpaReceiveErrorReport
  dsimp only
  rw [hpair]
  split
  · rename_i h
    left
    refine ⟨⟨herr, ?_, h.2⟩, rfl⟩
    simpa using h.1
  · rename_i h
    right
    refine ⟨fun hrem => h ⟨?_, hrem.2.2⟩, rfl⟩
    simpa using hrem.2.1

theorem keeps_rxRequest {conf : WpaAuthConfig} {env : AuthEnv} {e : RxEnd}
    {sm sm' : WpaStateMachine} (hmic : sm'.micVerified = true) (hlog : sm'.log = sm.log)
    (hsame : sm'.guarded = sm.guarded) (hpair : sm'.pairwise = sm.pairwise)
    (hvalid : sm.ptkValid = true) :
    (rxRequest conf env e sm').Keeps env sm ↔
      env.memdup = true ∨ removesSta conf env e.rx.key sm ∨ ¬ requestWrites e.rx.key sm := by
  have hnew := keeps_request_newPtk env e hlog hvalid
  have htaken : (finishRx env e (requestTaken e.rx.key sm')).Keeps env sm ↔
      env.memdup = true ∨ sm.reqReplayCounter = e.rx.key.replayCounter := by
    rw [keeps_finishRx (requestTaken e.rx.key sm') hlog, guarded_requestTaken hsame]
  unfold rxRequest
  rw [if_neg (by rw [hmic]; decide)]
  show (if _ then _ else _ : RxResult).Keeps env sm ↔ _
  by_cases herr : e.rx.key.has kiError = true
  · have hwrites : requestWrites e.rx.key sm := .inl herr
    rw [if_pos herr]
    rcases wpaReceiveErrorReport_eq conf env e.rx.key (requestTaken e.rx.key sm') herr hpair with
      ⟨hrem, heq⟩ | ⟨hstays, heq⟩
    · unfold requestTaken at heq
      rw [heq]
      refine ⟨fun _ => .inr (.inl hrem), fun _ sm'' hdrop => ?_⟩
      cases hdrop
    · unfold requestTaken at heq hnew
      rw [heq]
      show (finishRx env e _).Keeps env sm ↔ _
      rw [hnew]
      exact ⟨.inl, fun h => h.resolve_right fun h => h.elim hstays (· hwrites)⟩
  · have hstays : ¬ removesSta conf env e.rx.key sm := fun h => herr h.1
    rw [if_neg herr]
    by_cases hkt : e.rx.key.has kiKeyType = true
    · have hwrites : requestWrites e.rx.key sm := .inr (.inl hkt)
      rw [if_pos hkt]
      unfold requestTaken at hnew
      rw [hnew]
      exact ⟨.inl, fun h => h.resolve_right fun h => h.elim hstays (· hwrites)⟩
    · have hwrites : requestWrites e.rx.key sm ↔ sm.reqReplayCounter ≠ e.rx.key.replayCounter := by
        unfold requestWrites
        simp [herr, hkt]
      rw [if_neg hkt, hwrites, not_not]
      split
      · unfold requestTaken at htaken
        rw [htaken]
        exact ⟨fun h => h.elim .inl fun h => .inr (.inr h),
          fun h => h.elim .inl fun h => .inr (h.resolve_left hstays)⟩
      · -- a Request for a new GTK: the end of the function comes after the rekey
        have hrekey := RxResult.keeps_rekey env e sm (requestTaken e.rx.key sm')
        rw [guarded_requestTaken hsame] at hrekey
        unfold requestTaken at hrekey
        rw [hrekey]
        exact ⟨fun h => h.elim .inl fun h => .inr (.inr h),
          fun h => h.elim .inl fun h => .inr (h.resolve_left hstays)⟩

/-! ## Verification -/

/-- The ways `rxVerifyAuth` can end: refused; not checked, as no PTK is in use; verified under the
PTK; or verified under the earlier SNonce, which becomes the current one. -/
inductive VerifyResult (lib : RsnLib) (rx : AuthRx) (data : Bytes) (sm : WpaStateMachine)
    (r : Option Bytes × WpaStateMachine) : Prop
  | refused (huse : sm.PtkInUse) (hres : r.1 = none) (hsame : r.2.guarded = sm.guarded)
  | unchecked (huse : ¬ sm.PtkInUse) (hres : r = (some data, { sm with micVerified := false }))
  | verified (huse : sm.PtkInUse) (hmic : ¬ sm.ForeignMic lib data) (hsome : r.1.isSome)
      (hres : r.2 = { sm with micVerified := true })
  | verifiedAlt (hmic : sm.ForeignMic lib data) (hsome : r.1.isSome) (hmsg : rx.msg = .pairwise4)
      (halt : sm.altSnonceValid = true) (hspent : r.2.altSnonceValid = false)
      (hlog : r.2.log = sm.log)

theorem wpaTryAltSnonce_cases (lib : RsnLib) (conf : WpaAuthConfig) (env : AuthEnv) (data : Bytes)
    (sm : WpaStateMachine) :
    ((wpaTryAltSnonce lib conf env data sm).1 = false ∧
      (wpaTryAltSnonce lib conf env data sm).2.guarded = sm.guarded) ∨
    ((wpaTryAltSnonce lib conf env data sm).1 = true ∧
      (wpaTryAltSnonce lib conf env data sm).2.altSnonceValid = false ∧
      (wpaTryAltSnonce lib conf env data sm).2.log = sm.log) := by
  obtain ⟨xxkey, secrets, hframe⟩ := findPtk_frame lib conf env sm.micLen sm.altSnonce data sm
  unfold wpaTryAltSnonce
  cases hfind : findPtk lib conf env sm.micLen sm.altSnonce data sm with
  | mk found sm' =>
    rw [hfind] at hframe
    have hsm : sm' = { sm with xxkey := xxkey, secrets := secrets } := hframe
    cases found with
    | none =>
      left
      refine ⟨rfl, ?_⟩
      show sm'.guarded = sm.guarded
      rw [hsm]
      rfl
    | some found =>
      right
      refine ⟨rfl, rfl, ?_⟩
      show sm'.log = sm.log
      rw [hsm]

theorem rxVerifyAuth_cases (lib : RsnLib) (conf : WpaAuthConfig) (env : AuthEnv) (rx : AuthRx)
    (data : Bytes) (sm : WpaStateMachine) :
    VerifyResult lib rx data sm (rxVerifyAuth lib conf env rx data sm) := by
  unfold rxVerifyAuth
  dsimp only
  split
  · rename_i h
    have huse : sm.PtkInUse := ⟨h.1, by simpa using h.2⟩
    split
    · rename_i hlen
      split
      · rename_i hmic
        exact .verified huse (fun h => by rw [h.2.2] at hmic; cases hmic) rfl rfl
      · rename_i hmic
        have hforeign : sm.ForeignMic lib data := ⟨huse, hlen, by simpa using hmic⟩
        split
        · rename_i halt
          have hcases := wpaTryAltSnonce_cases lib conf env data { sm with micVerified := false }
          split <;> rename_i sm' heq <;> rw [heq] at hcases
          · rcases hcases with ⟨hfalse, _⟩ | ⟨_, hspent, hlog⟩
            · cases hfalse
            · exact .verifiedAlt hforeign rfl halt.1 halt.2 hspent hlog
          · rcases hcases with ⟨_, hsame⟩ | ⟨htrue, _⟩
            · exact .refused huse rfl hsame
            · cases htrue
        · exact .refused huse rfl rfl
    · rename_i hlen
      have hmic : ¬ sm.ForeignMic lib data := fun h => hlen h.2.1
      split
      · exact .refused huse rfl rfl
      · exact .verified huse hmic rfl rfl
  · rename_i h
    exact .unchecked (fun huse => h ⟨huse.1, by simp [huse.2]⟩) rfl

/-! ## Counters -/

theorem not_valid_of_all_invalid {ctr : List KeyReplay} (h : ¬ ∃ e ∈ ctr, e.valid = true)
    (counter : Nat) : wpaReplayCounterValid ctr counter = false := by
  cases ctr with
  | nil => rfl
  | cons e ctr =>
    have he : e.valid = false := by
      have hne : e.valid ≠ true := fun hv => h ⟨e, List.mem_cons_self, hv⟩
      simpa using hne
    unfold wpaReplayCounterValid
    rw [List.takeWhile_cons_of_neg (by simp [he])]
    rfl

theorem markInvalid_of_all_invalid {ctr : List KeyReplay} (h : ¬ ∃ e ∈ ctr, e.valid = true)
    (counter : Option Nat) : wpaReplayCounterMarkInvalid ctr counter = ctr := by
  unfold wpaReplayCounterMarkInvalid
  rw [List.map_congr_left (g := id), List.map_id]
  intro e he
  rw [if_neg fun hv => h ⟨e, he, hv.1⟩]
  rfl

theorem all_invalid_markInvalid (ctr : List KeyReplay) :
    ¬ ∃ e ∈ wpaReplayCounterMarkInvalid ctr none, e.valid = true := by
  rintro ⟨e, he, hv⟩
  obtain ⟨e', _, rfl⟩ := List.mem_map.mp he
  split at hv
  · cases hv
  · rename_i hno
    exact hno ⟨hv, .inl rfl⟩

theorem noKeyReplay_not_valid (counter : Nat) :
    wpaReplayCounterValid noKeyReplay counter = false := rfl

theorem updatesSnonce_iff {sm : WpaStateMachine} {rx : AuthRx} :
    updatesSnonce sm rx = true ↔ wpaReplayCounterValid sm.keyReplay rx.counter = false ∧
      rx.msg = .pairwise2 ∧ wpaReplayCounterValid sm.prevKeyReplay rx.counter = true ∧
      sm.wpaPtkState = .ptkinitnegotiating ∧ sm.snonce ≠ rx.key.keyNonce := by
  unfold updatesSnonce
  simp [and_assoc]

theorem not_pairwise2_of_all_invalid {sm : WpaStateMachine} {rx : AuthRx}
    (hreplay : rxReplayOk rx sm = true) (hup : updatesSnonce sm rx = false)
    (hinvalid : ¬ ∃ e ∈ sm.keyReplay, e.valid = true) : rx.msg ≠ .pairwise2 := by
  intro h2
  have hval := not_valid_of_all_invalid hinvalid rx.counter
  have halt : usesAltCounter sm rx = false := by simp [usesAltCounter, h2]
  simp [rxReplayOk, h2, hval, halt, hup] at hreplay

theorem takeCounter_guarded {sm sm' : WpaStateMachine} {rx : AuthRx}
    (hsame : sm'.guarded = sm.guarded) (hreplay : rxReplayOk rx sm = true)
    (hup : updatesSnonce sm rx = false) :
    (takeCounter rx sm').guarded = sm.guarded ↔
      ¬ ((∃ e ∈ sm.keyReplay, e.valid = true) ∨ sm.prevKeyReplay ≠ noKeyReplay) := by
  have hkey : sm'.keyReplay = sm.keyReplay := congrArg RxGuarded.keyReplay hsame
  rw [not_or, not_not]
  constructor
  · intro heq
    have hnew : wpaReplayCounterMarkInvalid (wpaReplayCounterMarkInvalid sm'.keyReplay
        (some rx.counter)) none = sm.keyReplay := congrArg RxGuarded.keyReplay heq
    have hinvalid : ¬ ∃ e ∈ sm.keyReplay, e.valid = true := by
      rw [← hnew]
      exact all_invalid_markInvalid _
    have hprev : (if rx.msg = .pairwise2 then
        wpaReplayCounterMarkInvalid sm'.keyReplay (some rx.counter) else noKeyReplay) =
        sm.prevKeyReplay := congrArg RxGuarded.prevKeyReplay heq
    rw [if_neg (not_pairwise2_of_all_invalid hreplay hup hinvalid)] at hprev
    exact ⟨hinvalid, hprev.symm⟩
  · rintro ⟨hinvalid, hprev⟩
    rw [← hsame]
    show ({ sm'.guarded with
      prevKeyReplay := if rx.msg = .pairwise2 then
        wpaReplayCounterMarkInvalid sm'.keyReplay (some rx.counter) else noKeyReplay
      keyReplay := wpaReplayCounterMarkInvalid (wpaReplayCounterMarkInvalid sm'.keyReplay
        (some rx.counter)) none } : RxGuarded) = sm'.guarded
    have hprev' : sm'.prevKeyReplay = noKeyReplay := by
      rw [← hprev]
      exact congrArg RxGuarded.prevKeyReplay hsame
    rw [if_neg (not_pairwise2_of_all_invalid hreplay hup hinvalid), hkey,
      markInvalid_of_all_invalid hinvalid, markInvalid_of_all_invalid hinvalid, ← hkey, ← hprev']
    rfl

theorem markInvalid_not_valid (ctr : List KeyReplay) (counter : Nat) :
    wpaReplayCounterValid (wpaReplayCounterMarkInvalid ctr (some counter)) counter = false := by
  rw [← Bool.not_eq_true]
  intro hval
  obtain ⟨e, he, hcounter⟩ := List.any_eq_true.mp hval
  have hv : e.valid = true := List.mem_takeWhile_imp he
  obtain ⟨e', _, rfl⟩ := List.mem_map.mp ((List.takeWhile_prefix _).subset he)
  by_cases hmark : e'.valid = true ∧ (some counter = none ∨ some counter = some e'.counter)
  · rw [if_pos hmark] at hv
    cases hv
  · rw [if_neg hmark] at hv hcounter
    have heq : e'.counter = counter := by simpa using hcounter
    exact hmark ⟨hv, .inr (congrArg some heq.symm)⟩

theorem takeCounter_update_guarded {sm : WpaStateMachine} {rx : AuthRx} (sm' : WpaStateMachine)
    (hup : updatesSnonce sm rx = true) : (takeCounter rx sm').guarded ≠ sm.guarded := by
  intro heq
  obtain ⟨_, h2, hprev, _⟩ := updatesSnonce_iff.mp hup
  have hnew : (if rx.msg = .pairwise2 then
      wpaReplayCounterMarkInvalid sm'.keyReplay (some rx.counter) else noKeyReplay) =
      sm.prevKeyReplay := congrArg RxGuarded.prevKeyReplay heq
  rw [if_pos h2] at hnew
  rw [← hnew, markInvalid_not_valid] at hprev
  cases hprev

/-! ## From the replay counter on -/

def afterReplay (rx : AuthRx) (sm : WpaStateMachine) : WpaStateMachine :=
  if updatesSnonce sm rx then keepAltSnonce sm else sm

theorem rxReplay_eq (rx : AuthRx) (sm : WpaStateMachine) :
    rxReplay rx sm = if rxReplayOk rx sm then some (afterReplay rx sm) else none := by
  unfold rxReplay rxReplayOk afterReplay
  cases hup : updatesSnonce sm rx with
  | true =>
    obtain ⟨hval, h2, _⟩ := updatesSnonce_iff.mp hup
    simp [hval, h2]
  | false =>
    cases hval : wpaReplayCounterValid sm.keyReplay rx.counter <;>
      cases halt : usesAltCounter sm rx <;> cases hmsg : rx.msg <;> simp

theorem afterReplay_guarded (rx : AuthRx) (sm : WpaStateMachine) :
    (afterReplay rx sm).guarded = sm.guarded ↔ ¬ (updatesSnonce sm rx = true ∧ ¬ sm.AltKept) := by
  unfold afterReplay
  cases hup : updatesSnonce sm rx with
  | false => simp
  | true =>
    rw [if_pos rfl]
    constructor
    · rintro heq ⟨_, hnew⟩
      refine hnew ⟨?_, ?_, ?_, ?_⟩
      · exact (congrArg RxGuarded.updateSnonce heq).symm
      · exact (congrArg RxGuarded.altSnonce heq).symm
      · exact (congrArg RxGuarded.altSnonceValid heq).symm
      · exact (congrArg RxGuarded.altReplayCounter heq).symm
    · intro h
      obtain ⟨h₁, h₂, h₃, h₄⟩ : sm.AltKept := by simpa using h
      simp only [WpaStateMachine.guarded, keepAltSnonce, h₁, h₂, h₃, h₄]

theorem rxStateOk_afterReplay (rx : AuthRx) (sm : WpaStateMachine) :
    rxStateOk rx (afterReplay rx sm) = rxExpected rx sm := by
  unfold afterReplay rxExpected
  cases hup : updatesSnonce sm rx with
  | false => rfl
  | true =>
    obtain ⟨_, h2, _, hstate, _⟩ := updatesSnonce_iff.mp hup
    simp [rxStateOk, h2, keepAltSnonce, hstate]

theorem afterReplay_checks (rx : AuthRx) (sm : WpaStateMachine) :
    rxEncrMissing rx (afterReplay rx sm) = rxEncrMissing rx sm ∧
      rxBitsOk rx (afterReplay rx sm) = rxBitsOk rx sm ∧ (afterReplay rx sm).log = sm.log := by
  unfold afterReplay
  split <;> exact ⟨rfl, rfl, rfl⟩

theorem wpaReceive_not_arrives {lib : RsnLib} {conf : WpaAuthConfig} {env : AuthEnv} {g : WpaGroup}
    {data : Bytes} {sm : WpaStateMachine} (h : ¬ ∃ rx, RxArrives sm data rx) :
    wpaReceive lib conf env g data sm = .drop sm := by
  unfold wpaReceive
  cases hparse : rxParse sm data with
  | none => rfl
  | some rx =>
    dsimp only
    split
    · rfl
    · rename_i hchecks
      rw [rxReplay_eq]
      cases hreplay : rxReplayOk rx sm with
      | false => rfl
      | true =>
        rw [not_or, not_not, not_not] at hchecks
        exact absurd ⟨rx, hparse, hchecks.1, hchecks.2, hreplay⟩ h

theorem wpaReceive_arrives {lib : RsnLib} {conf : WpaAuthConfig} {env : AuthEnv} {g : WpaGroup}
    {data : Bytes} {sm : WpaStateMachine} {rx : AuthRx} (h : RxArrives sm data rx) :
    wpaReceive lib conf env g data sm =
      if rxEncrMissing rx sm = true ∨ ¬ rxExpected rx sm = true then .drop (afterReplay rx sm)
      else if rx.msg = .pairwise2 ∧ g.reject4wayHsForEntropy = true then
        .step (wpaRemovePtk { afterReplay rx sm with
          deauthenticationRequest := true, ftCompleted := false })
      else if ¬ rxBitsOk rx sm = true then .drop (afterReplay rx sm)
      else rxVerified lib conf env rx data (afterReplay rx sm) := by
  obtain ⟨hencr, hbits, _⟩ := afterReplay_checks rx sm
  unfold wpaReceive
  rw [h.parsed]
  dsimp only
  rw [if_neg (by rw [h.version, h.request]; simp), rxReplay_eq, if_pos h.replay]
  dsimp only
  rw [rxStateOk_afterReplay, hencr, hbits]

variable {lib : RsnLib} {conf : WpaAuthConfig} {env : AuthEnv} {g : WpaGroup} {data : Bytes}
  {sm : WpaStateMachine} {rx : AuthRx}

theorem keeps_verified_update (hup : updatesSnonce sm rx = true) :
    (rxVerified lib conf env rx data (afterReplay rx sm)).Keeps env sm ↔ env.memdup = true := by
  obtain ⟨_, h2, _⟩ := updatesSnonce_iff.mp hup
  have hafter : afterReplay rx sm = keepAltSnonce sm := if_pos hup
  unfold rxVerified
  rw [hafter]
  have hcases := rxVerifyAuth_cases lib conf env rx data (keepAltSnonce sm)
  have hnot : ¬ (keepAltSnonce sm).PtkInUse := fun h => Bool.noConfusion h.2
  cases hcases with
  | refused huse => exact absurd huse hnot
  | verified huse => exact absurd huse hnot
  | verifiedAlt hmic => exact absurd hmic.1 hnot
  | unchecked _ hres =>
    rw [hres]
    dsimp only
    rw [if_neg (by rw [h2]; decide), keeps_finishRx]
    · refine ⟨fun h => h.resolve_right ?_, .inl⟩
      exact takeCounter_update_guarded { keepAltSnonce sm with micVerified := false } hup
    · rfl

theorem keeps_verified_taken {res : Bytes} {sm' : WpaStateMachine}
    (hauth : rxVerifyAuth lib conf env rx data sm = (some res, sm')) (hmsg : rx.msg ≠ .request)
    (hlog : sm'.log = sm.log) :
    (rxVerified lib conf env rx data sm).Keeps env sm ↔
      env.memdup = true ∨ (takeCounter rx sm').guarded = sm.guarded := by
  unfold rxVerified
  rw [hauth]
  dsimp only
  rw [if_neg hmsg]
  exact keeps_finishRx _ hlog

theorem keeps_verified (hmsg : rx.msg ≠ .request) (hup : updatesSnonce sm rx = false)
    (hreplay : rxReplayOk rx sm = true) :
    (rxVerified lib conf env rx data sm).Keeps env sm ↔
      ¬ (env.memdup = false ∧ (rxVerifyAuth lib conf env rx data sm).1.isSome ∧
        sm.Consumes lib data) := by
  have hcases := rxVerifyAuth_cases lib conf env rx data sm
  cases hauth : rxVerifyAuth lib conf env rx data sm with
  | mk res sm' =>
    rw [hauth] at hcases
    have hno : ¬ env.memdup = false ↔ env.memdup = true := by simp
    -- the frame is verified, and `Consumes` says what the end of the function changes
    have hend : ∀ d, res = some d → sm'.log = sm.log →
        ((takeCounter rx sm').guarded = sm.guarded ↔ ¬ sm.Consumes lib data) →
        ((rxVerified lib conf env rx data sm).Keeps env sm ↔
          ¬ (env.memdup = false ∧ res.isSome ∧ sm.Consumes lib data)) := by
      rintro d rfl hlog hguard
      rw [keeps_verified_taken hauth hmsg hlog, hguard]
      simp only [Option.isSome_some, true_and, not_and_or, hno]
    have hforeign : ¬ sm.ForeignMic lib data → sm'.guarded = sm.guarded →
        ((takeCounter rx sm').guarded = sm.guarded ↔ ¬ sm.Consumes lib data) := by
      intro hmic hsame
      rw [takeCounter_guarded hsame hreplay hup]
      unfold WpaStateMachine.Consumes
      simp only [hmic, or_false]
    cases hcases with
    | refused _ hnone hsame =>
      have hres : res = none := hnone
      unfold rxVerified
      rw [hauth, hres]
      dsimp only
      rw [RxResult.keeps_drop]
      simp only [Option.isSome_none, Bool.false_eq_true, false_and, and_false, not_false_iff, iff_true]
      exact hsame
    | unchecked hnot hres =>
      have hsm : sm' = { sm with micVerified := false } := congrArg Prod.snd hres
      apply hend data (congrArg Prod.fst hres)
      · rw [hsm]
      · exact hforeign (fun h => hnot h.1) (by rw [hsm]; rfl)
    | verified _ hmic hsome hres =>
      obtain ⟨d, hd⟩ := Option.isSome_iff_exists.mp hsome
      have hsm : sm' = { sm with micVerified := true } := hres
      apply hend d hd
      · rw [hsm]
      · exact hforeign hmic (by rw [hsm]; rfl)
    | verifiedAlt hmic hsome _ halt hspent hlog =>
      obtain ⟨d, hd⟩ := Option.isSome_iff_exists.mp hsome
      apply hend d hd hlog
      -- the earlier SNonce is used up
      refine ⟨fun heq => ?_, fun hnot => absurd (.inr (.inr hmic)) hnot⟩
      have hvalid : sm'.altSnonceValid = sm.altSnonceValid := congrArg RxGuarded.altSnonceValid heq
      rw [show sm'.altSnonceValid = false from hspent, halt] at hvalid
      cases hvalid

theorem keeps_verified_request (hmsg : rx.msg = .request) :
    (rxVerified lib conf env rx data sm).Keeps env sm ↔
      ¬ (env.memdup = false ∧ (rxVerifyAuth lib conf env rx data sm).1.isSome ∧ sm.PtkInUse ∧
        ¬ removesSta conf env rx.key sm ∧ requestWrites rx.key sm) := by
  have hcases := rxVerifyAuth_cases lib conf env rx data sm
  unfold rxVerified
  cases hauth : rxVerifyAuth lib conf env rx data sm with
  | mk res sm' =>
    rw [hauth] at hcases
    cases hcases with
    | refused _ hnone hsame =>
      have hres : res = none := hnone
      rw [hres]
      dsimp only
      rw [RxResult.keeps_drop]
      simp only [Option.isSome_none, Bool.false_eq_true, false_and, and_false, not_false_iff, iff_true]
      exact hsame
    | unchecked hnot hres =>
      have hsm : sm' = { sm with micVerified := false } := congrArg Prod.snd hres
      rw [show res = some data from congrArg Prod.fst hres]
      dsimp only
      rw [if_pos hmsg]
      unfold rxRequest
      rw [if_pos (by rw [hsm]; simp), RxResult.keeps_drop]
      simp only [hnot, false_and, and_false, not_false_iff, iff_true]
      rw [hsm]
      rfl
    | verified huse _ hsome hres =>
      obtain ⟨d, hd⟩ := Option.isSome_iff_exists.mp hsome
      have hsm : sm' = { sm with micVerified := true } := hres
      rw [show res = some d from hd]
      dsimp only
      rw [if_pos hmsg, keeps_rxRequest (by rw [hsm]) (by rw [hsm]) (by rw [hsm]; rfl)
        (by rw [hsm]) huse.1]
      cases env.memdup <;> simp [huse, or_iff_not_imp_left]
    | verifiedAlt _ _ hmsg4 =>
      rw [hmsg] at hmsg4
      cases hmsg4

theorem RxGuarded.withoutPtk_eq (r r' : RxGuarded) (hp : r.ptk = r'.ptk)
    (hv : r.ptkValid = r'.ptkValid) :
    ({ r with ptk := {}, ptkValid := false } : RxGuarded) = r' ↔
      r = r' ∧ r'.ptkValid = false ∧ r'.ptk = {} := by
  cases r
  cases r'
  simp only [RxGuarded.mk.injEq] at hp hv ⊢
  constructor
  · rintro ⟨h₁, h₂, h₃, h₄, h₅, h₆, h₇, h₈, h₉, h₁₀⟩
    exact ⟨⟨h₁, h₂, h₃, h₄, h₅, hp, hv, h₈, h₉, h₁₀⟩, h₇.symm, h₆.symm⟩
  · rintro ⟨⟨h₁, h₂, h₃, h₄, h₅, _, _, h₈, h₉, h₁₀⟩, h₇, h₆⟩
    exact ⟨h₁, h₂, h₃, h₄, h₅, h₆.symm, h₇.symm, h₈, h₉, h₁₀⟩

theorem keeps_entropy :
    (RxResult.step (wpaRemovePtk { afterReplay rx sm with
      deauthenticationRequest := true, ftCompleted := false })).Keeps env sm ↔
      (afterReplay rx sm).guarded = sm.guarded ∧ sm.ptkValid = false ∧ sm.ptk = {} := by
  have hlog : (afterReplay rx sm).log = sm.log := (afterReplay_checks rx sm).2.2
  have hptk : (afterReplay rx sm).ptk = sm.ptk ∧ (afterReplay rx sm).ptkValid = sm.ptkValid := by
    unfold afterReplay
    split <;> exact ⟨rfl, rfl⟩
  have hguard := RxGuarded.withoutPtk_eq (afterReplay rx sm).guarded sm.guarded
    hptk.1 hptk.2
  constructor
  · intro h
    apply hguard.mp
    apply h (wpaRemovePtk { afterReplay rx sm with
      deauthenticationRequest := true, ftCompleted := false })
    show (if (afterReplay rx sm).log = sm.log then _ else _) = _
    rw [if_pos hlog]
  · intro h sm' hdrop
    dsimp only [RxResult.dropped] at hdrop
    split at hdrop
    · cases hdrop
      exact hguard.mpr h
    · cases hdrop

/-! The checks of a frame that arrived, one after the other. -/

theorem keeps_encrMissing (hencr : rxEncrMissing rx sm = true) :
    (RxResult.drop (afterReplay rx sm)).Keeps env sm ↔ ¬ RxSpoils lib conf env g data sm rx := by
  rw [RxResult.keeps_drop, afterReplay_guarded]
  refine ⟨fun h hs => ?_, fun hs h => hs (.snonceUpdate h.1 h.2 (.inl hencr))⟩
  cases hs with
  | snonceUpdate hup hnew _ => exact h ⟨hup, hnew⟩
  | entropy _ _ hencr' _ _ => simp [hencr] at hencr'
  | noMemory _ hencr' => simp [hencr] at hencr'
  | requestNoMemory _ hencr' => simp [hencr] at hencr'

theorem keeps_unexpected (hexp : ¬ rxExpected rx sm = true) :
    (RxResult.drop (afterReplay rx sm)).Keeps env sm ↔ ¬ RxSpoils lib conf env g data sm rx := by
  have hup : ¬ updatesSnonce sm rx = true := fun hup => hexp (by simp [rxExpected, hup])
  rw [RxResult.keeps_drop, afterReplay_guarded]
  refine ⟨fun _ hs => ?_, fun _ h => hup h.1⟩
  cases hs with
  | snonceUpdate hup' _ _ => exact hup hup'
  | entropy _ _ _ hexp' _ => exact hexp hexp'
  | noMemory _ _ hexp' => exact hexp hexp'
  | requestNoMemory _ _ _ hmsg => exact hexp (by simp [rxExpected, rxStateOk, hmsg])

theorem keeps_lackOfEntropy (hencr : rxEncrMissing rx sm = false) (hexp : rxExpected rx sm = true)
    (hent : rx.msg = .pairwise2 ∧ g.reject4wayHsForEntropy = true) :
    (RxResult.step (wpaRemovePtk { afterReplay rx sm with
      deauthenticationRequest := true, ftCompleted := false })).Keeps env sm ↔
      ¬ RxSpoils lib conf env g data sm rx := by
  rw [keeps_entropy, afterReplay_guarded]
  constructor
  · rintro ⟨h, hvalid, hptk⟩ hs
    cases hs with
    | snonceUpdate hup hnew _ => exact h ⟨hup, hnew⟩
    | entropy _ _ _ _ hany => simp [hvalid, hptk] at hany
    | noMemory _ _ _ hent' => exact hent' hent
    | requestNoMemory _ _ _ hmsg => simp [hmsg] at hent
  · intro hs
    have hany : ¬ (sm.ptkValid = true ∨ sm.ptk ≠ {}) :=
      fun hany => hs (.entropy hent.1 hent.2 hencr hexp hany)
    refine ⟨fun h => hs (.snonceUpdate h.1 h.2 (.inr (.inl hent.2))), ?_⟩
    simpa using hany

theorem keeps_wrongBits (hent : ¬ (rx.msg = .pairwise2 ∧ g.reject4wayHsForEntropy = true))
    (hbits : ¬ rxBitsOk rx sm = true) :
    (RxResult.drop (afterReplay rx sm)).Keeps env sm ↔ ¬ RxSpoils lib conf env g data sm rx := by
  rw [RxResult.keeps_drop, afterReplay_guarded]
  have hbits' : rxBitsOk rx sm = false := by simpa using hbits
  refine ⟨fun h hs => ?_, fun hs h => hs (.snonceUpdate h.1 h.2 (.inr (.inr hbits')))⟩
  cases hs with
  | snonceUpdate hup hnew _ => exact h ⟨hup, hnew⟩
  | entropy hmsg hrej => exact hent ⟨hmsg, hrej⟩
  | noMemory _ _ _ _ hbits' => exact hbits hbits'
  | requestNoMemory _ _ hbits' => exact hbits hbits'

theorem keeps_afterUpdate (hencr : rxEncrMissing rx sm = false) (hexp : rxExpected rx sm = true)
    (hent : ¬ (rx.msg = .pairwise2 ∧ g.reject4wayHsForEntropy = true)) (hbits : rxBitsOk rx sm = true)
    (hup : updatesSnonce sm rx = true) :
    (rxVerified lib conf env rx data (afterReplay rx sm)).Keeps env sm ↔
      ¬ RxSpoils lib conf env g data sm rx := by
  obtain ⟨_, h2, hprev, _⟩ := updatesSnonce_iff.mp hup
  have hmsg : rx.msg ≠ .request := by simp [h2]
  have hno : ¬ (rxEncrMissing rx sm = true ∨ g.reject4wayHsForEntropy = true ∨ rxBitsOk rx sm = false) := by
    rintro (h | h | h)
    · simp [hencr] at h
    · exact hent ⟨h2, h⟩
    · simp [hbits] at h
  -- the counter the frame was let through by is in `prev_key_replay`
  have hconsumes : sm.Consumes lib data := by
    refine .inr (.inl fun hnone => ?_)
    rw [hnone, noKeyReplay_not_valid] at hprev
    cases hprev
  rw [keeps_verified_update hup]
  constructor
  · intro hmem hs
    cases hs with
    | snonceUpdate _ _ hrefused => exact hno hrefused
    | entropy hmsg' hrej => exact hent ⟨hmsg', hrej⟩
    | noMemory hmem' => simp [hmem] at hmem'
    | requestNoMemory hmem' => simp [hmem] at hmem'
  · intro hs
    rw [← Bool.not_eq_false]
    exact fun hmem => hs (.noMemory hmem hencr hexp hent hbits hmsg (.inl hup) hconsumes)

theorem keeps_notUpdated (hreplay : rxReplayOk rx sm = true) (hencr : rxEncrMissing rx sm = false)
    (hexp : rxExpected rx sm = true)
    (hent : ¬ (rx.msg = .pairwise2 ∧ g.reject4wayHsForEntropy = true)) (hbits : rxBitsOk rx sm = true)
    (hup : ¬ updatesSnonce sm rx = true) :
    (rxVerified lib conf env rx data (afterReplay rx sm)).Keeps env sm ↔
      ¬ RxSpoils lib conf env g data sm rx := by
  have hup' : updatesSnonce sm rx = false := by simpa using hup
  rw [show afterReplay rx sm = sm from if_neg hup]
  by_cases hmsg : rx.msg = .request
  · rw [keeps_verified_request hmsg]
    constructor
    · intro h hs
      cases hs with
      | snonceUpdate hup' _ _ => exact hup hup'
      | entropy hmsg' hrej => exact hent ⟨hmsg', hrej⟩
      | noMemory _ _ _ _ _ hmsg' => exact hmsg' hmsg
      | requestNoMemory hmem _ _ _ huse hver hstays hwrites =>
        exact h ⟨hmem, hver, huse, hstays, hwrites⟩
    · rintro hs ⟨hmem, hver, huse, hstays, hwrites⟩
      exact hs (.requestNoMemory hmem hencr hbits hmsg huse hver hstays hwrites)
  · rw [keeps_verified hmsg hup' hreplay]
    constructor
    · intro h hs
      cases hs with
      | snonceUpdate hup' _ _ => exact hup hup'
      | entropy hmsg' hrej => exact hent ⟨hmsg', hrej⟩
      | noMemory hmem _ _ _ _ _ hver hconsumes =>
        exact h ⟨hmem, hver.resolve_left hup, hconsumes⟩
      | requestNoMemory _ _ _ hmsg' => exact hmsg hmsg'
    · rintro hs ⟨hmem, hver, hconsumes⟩
      exact hs (.noMemory hmem hencr hexp hent hbits hmsg (.inr hver) hconsumes)

theorem keeps_arrived (hreplay : rxReplayOk rx sm = true) :
    (if rxEncrMissing rx sm = true ∨ ¬ rxExpected rx sm = true then
        RxResult.drop (afterReplay rx sm)
      else if rx.msg = .pairwise2 ∧ g.reject4wayHsForEntropy = true then
        .step (wpaRemovePtk { afterReplay rx sm with
          deauthenticationRequest := true, ftCompleted := false })
      else if ¬ rxBitsOk rx sm = true then .drop (afterReplay rx sm)
      else rxVerified lib conf env rx data (afterReplay rx sm)).Keeps env sm ↔
      ¬ RxSpoils lib conf env g data sm rx := by
  by_cases hencr : rxEncrMissing rx sm = true
  · rw [if_pos (.inl hencr)]
    exact keeps_encrMissing hencr
  by_cases hexp : rxExpected rx sm = true
  swap
  · rw [if_pos (.inr hexp)]
    exact keeps_unexpected hexp
  rw [if_neg (not_or.mpr ⟨hencr, not_not.mpr hexp⟩)]
  have hencr' : rxEncrMissing rx sm = false := by simpa using hencr
  by_cases hent : rx.msg = .pairwise2 ∧ g.reject4wayHsForEntropy = true
  · rw [if_pos hent]
    exact keeps_lackOfEntropy hencr' hexp hent
  rw [if_neg hent]
  by_cases hbits : rxBitsOk rx sm = true
  swap
  · rw [if_pos hbits]
    exact keeps_wrongBits hent hbits
  rw [if_neg (not_not.mpr hbits)]
  by_cases hup : updatesSnonce sm rx = true
  · exact keeps_afterUpdate hencr' hexp hent hbits hup
  · exact keeps_notUpdated hreplay hencr' hexp hent hbits hup

def smallRxSta : WpaStateMachine where
  addr := zeros 6
  wpaPtkState := .ptkinitnegotiating
  wpa := .wpa2
  pairwise := .ccmp
  wpaKeyMgmt := .psk
  pmk := smallPmk
  ptkValid := true
  keyReplay := [⟨3, true⟩, ⟨2, false⟩, ⟨1, false⟩, {}]
  prevKeyReplay := [⟨2, true⟩, ⟨1, false⟩, {}, {}]

theorem smallUpdateCount_pos : 1 ≤ 4 := by decide

def smallRxConf : WpaAuthConfig where
  addr := zeros 6
  wpaIe := []
  wpaPairwiseUpdateCount := 4
  wpaGroupUpdateCount := 4
  wpaPairwiseUpdateCount_pos := smallUpdateCount_pos
  wpaGroupUpdateCount_pos := smallUpdateCount_pos

/-- An answer to the other message 1/4 with another SNonce, and with the Ack bit, which no station
sets. -/
def smallAck2of4 : Bytes :=
  eapolKeyFrame 2
    { type := 2, keyInfo := 2 + 8 + 128 + 256, keyLength := 0
      replayCounter := [0, 0, 0, 0, 0, 0, 0, 2], keyNonce := List.replicate 32 1
      keyIv := zeros 16, keyRsc := zeros 8, keyId := zeros 8 } 16 [0x30]

end Hostap
