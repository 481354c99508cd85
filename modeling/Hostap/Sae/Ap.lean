import Hostap.Lib.Prog
import Hostap.Lib.Run
import Hostap.Sae.Frames

/-!
# SAE in the access point

The SAE part of `src/ap/ieee802_11.c` for one station entry: building and sending the Commit and
the Confirm, the anti-clogging token, the retransmit timer, the state machine `sae_sm_step()`
and the receiver `handle_auth_sae()`, in an infrastructure BSS and in a mesh.

* `SaeAp`: what outlives a frame, the station entry and the token key of the interface, together
  with the log of what the code has done so far. The log is never read by the code.
* `SaeWorld`: the same while a frame is processed, with `sta->sae` known to be there and with the
  answers of the environment still to come: random draws and the results of the driver's
  `send_mlme`.
* `saeApStep`: one event, an Authentication frame or a firing of the retransmit timer.

Memory allocations succeed and the testing options are compiled out.
-/

namespace Hostap

open Octets Prog

variable {P : Type}

/-! ## State -/

/-- `struct sae_password_entry`. -/
structure SaePasswordEntry where
  password : Bytes
  identifier : Option Bytes := none
  peerAddr : Bytes := List.replicate 6 255
  deriving DecidableEq, Repr

/-- The configuration the SAE code reads. `saeGroups` is the array with its terminator: hostapd
ends it with -1, a mesh with 0. -/
structure HostapdConf where
  mesh : Bool
  saeGroups : Option (List Int) := none
  saePasswords : List SaePasswordEntry := []
  wpaPassphrase : Option Bytes := none
  ownAddr : Bytes := zeros 6
  saeAntiCloggingThreshold : Nat := 5
  saeSync : Nat := 5
  deriving DecidableEq, Repr

/-- `WLAN_AUTH_SAE`. -/
def wlanAuthSae : Nat := 3

/-- `struct sta_info` without `sae`, as far as SAE uses it. -/
structure StaInfo where
  addr : Bytes
  /-- `WLAN_STA_AUTH` is set in `flags`. -/
  auth : Bool := false
  authAlg : Nat := 0
  addedUnassoc : Bool := false
  meshSaePmksaCaching : Bool := false
  /-- `auth_sae_retransmit_timer()` is registered for the entry. -/
  retransmitTimer : Bool := false
  deriving DecidableEq, Repr

/-- What the code did, in order. -/
inductive SaeObs (P : Type)
  /-- An Authentication frame was handed to the driver. -/
  | tx (transaction status : Nat) (body : Bytes)
  /-- `sae_process_commit()` succeeded on these commit values and derived these keys. -/
  | processCommit (x : Option (SaeExchange P)) (kck pmk : Bytes)
  /-- `sae_process_commit()` failed. -/
  | processCommitFailed
  /-- `sae_check_confirm()` found the received value right for these commit values. -/
  | confirmVerified (x : Option (SaeExchange P)) (kck : Bytes)
  /-- `sae_accept_sta()` ran and entered this PMK into the PMKSA cache. -/
  | acceptSta (pmk pmkid : Bytes)
  /-- `ap_free_sta()` removed the entry. -/
  | apFreeSta
  deriving DecidableEq

/-- The station entry and its interface between two events. -/
structure SaeAp (P : Type) where
  tokenKey : Bytes := zeros 8
  /-- Time of the last change of the token key, once there was one. -/
  lastTokenKeyUpdate : Option Nat := none
  sta : StaInfo
  sae : Option (SaeData P) := none
  log : List (SaeObs P) := []

/-- What the environment contributes to one event. -/
structure SaeEnv where
  /-- Draws of the random number generator. -/
  rand : Rand := []
  /-- Results of the driver's `send_mlme`; it fails once the list is used up. -/
  sendMlme : List Bool := []
  /-- Current time in microseconds. -/
  now : Nat := 0
  /-- SAE states of the other stations of the interface. -/
  others : List SaeState := []

/-- The state while an event is processed. -/
structure SaeWorld (P : Type) where
  tokenKey : Bytes
  lastTokenKeyUpdate : Option Nat
  sta : StaInfo
  sae : SaeData P
  rand : Rand
  sendMlme : List Bool
  log : List (SaeObs P)
  /-- `ap_free_sta()` has run. -/
  freed : Bool := false

abbrev SaeProg (P : Type) := Prog (SaeWorld P) Fault

/-- Changes `*sta->sae`. -/
def modifySae (f : SaeData P → SaeData P) : SaeProg P Unit :=
  modify fun w => { w with sae := f w.sae }

/-- Changes `*sta`. -/
def modifySta (f : StaInfo → StaInfo) : SaeProg P Unit :=
  modify fun w => { w with sta := f w.sta }

def observe (o : SaeObs P) : SaeProg P Unit :=
  modify fun w => { w with log := w.log ++ [o] }

/-- `sae_set_state()`. -/
def saeSetState (state : SaeState) : SaeProg P Unit :=
  modifySae fun sae => { sae with state }

/-! ## Sending -/

/-- `send_auth_reply()`. -/
def sendAuthReply (transaction status : Nat) (body : Bytes) : SaeProg P Nat := do
  let w ← get
  set { w with sendMlme := w.sendMlme.tail, log := w.log ++ [SaeObs.tx transaction status body] }
  pure (if w.sendMlme.headD false then wlanStatusSuccess else wlanStatusUnspecifiedFailure)

/-- The password for a peer and a received identifier: the first matching entry, or the
passphrase of the network. -/
def saePassword (conf : HostapdConf) (addr : Bytes) (rxId : Option Bytes) : Option Bytes :=
  match conf.saePasswords.find? fun pw =>
      (pw.peerAddr == List.replicate 6 255 || pw.peerAddr == addr) &&
        pw.identifier == rxId.map cString with
  | some pw => some pw.password
  | none => conf.wpaPassphrase

/-- `sae_prepare_commit()` on the entry. -/
def prepareCommit (c : CryptoLib P) (conf : HostapdConf) (password : Bytes)
    (rxId : Option Bytes) : SaeProg P Bool := do
  let w ← get
  let (ok, sae, rand) ←
    callPure (saePrepareCommit c conf.ownAddr w.sta.addr password rxId w.sae w.rand)
  set { w with sae, rand }
  pure ok

/-- `sae_process_commit()` on the entry. -/
def processCommit (c : CryptoLib P) : SaeProg P Bool := do
  let w ← get
  let (ok, sae) ← callPure (saeProcessCommit c w.sae)
  set { w with
    sae
    log := w.log ++ [
      match ok, sae.tmp with
      | true, some t => SaeObs.processCommit (t.exchange sae.peerCommitScalar) t.kck sae.pmk
      | _, _ => SaeObs.processCommitFailed] }
  pure ok

/-- `auth_build_sae_commit()`. -/
def authBuildSaeCommit (c : CryptoLib P) (conf : HostapdConf) (update : Bool) :
    SaeProg P (Option Bytes) := do
  let w ← get
  let rxId := w.sae.tmp.bind (·.pwId)
  match saePassword conf w.sta.addr rxId with
  | none => pure none
  | some password =>
    let ok ← if update then prepareCommit c conf password rxId else pure true
    if ok then do
      let w ← get
      let buf ← callPure (saeWriteCommit w.sae (w.sae.tmp.bind (·.antiCloggingToken)) rxId)
      pure (some buf)
    else
      pure none

/-- `auth_sae_send_commit()`. -/
def authSaeSendCommit (c : CryptoLib P) (conf : HostapdConf) (update : Bool) : SaeProg P Nat := do
  match ← authBuildSaeCommit c conf update with
  | none =>
    let w ← get
    if (w.sae.tmp.bind (·.pwId)).isSome then
      pure wlanStatusUnknownPasswordIdentifier
    else
      pure wlanStatusUnspecifiedFailure
  | some data => sendAuthReply 1 wlanStatusSuccess data

/-- `auth_sae_send_confirm()`, with `auth_build_sae_confirm()`. -/
def authSaeSendConfirm (c : CryptoLib P) : SaeProg P Nat := do
  let w ← get
  let (data, sae) ← callPure (saeWriteConfirm c w.sae)
  set { w with sae }
  sendAuthReply 2 wlanStatusSuccess data

/-! ## Anti-clogging token -/

def SaeState.isOpen : SaeState → Bool
  | .committed | .confirmed => true
  | .nothing | .accepted => false

/-- `use_sae_anti_clogging()`. -/
def useSaeAntiClogging (conf : HostapdConf) (states : List SaeState) : Bool :=
  conf.saeAntiCloggingThreshold == 0 ||
    conf.saeAntiCloggingThreshold ≤ states.countP SaeState.isOpen

/-- `check_sae_token()`. -/
def checkSaeToken (c : CryptoLib P) (tokenKey addr token : Bytes) : Bool :=
  token.length == sha256MacLen && c.hmacSha256 tokenKey addr == token

/-- `auth_build_token_req()`. -/
def authBuildTokenReq (c : CryptoLib P) (now : Nat) : SaeProg P (Option Bytes) := do
  let w ← get
  let expired : Bool :=
    match w.lastTokenKeyUpdate with
    | none => true
    | some last => last + 60 * 10 ^ 6 < now
  let ok ←
    if expired then
      match randomGetBytes 8 w.rand with
      | (none, rand) => do
        set { w with rand }
        pure false
      | (some key, rand) => do
        set { w with rand, tokenKey := key, lastTokenKeyUpdate := some now }
        pure true
    else
      pure true
  let w ← get
  pure (if ok then some (le16 w.sae.group.toNat ++ c.hmacSha256 w.tokenKey w.sta.addr) else none)

/-! ## State machine -/

/-- `sae_check_big_sync()`: whether the limit was passed. -/
def saeCheckBigSync (conf : HostapdConf) : SaeProg P Bool := do
  let w ← get
  if conf.saeSync < w.sae.sync then do
    set { w with sae := { w.sae with state := .nothing, sync := 0 } }
    pure true
  else
    pure false

/-- `sta->sae->sync++`. -/
def saeSyncInc : SaeProg P Unit :=
  modifySae fun sae => { sae with sync := (sae.sync + 1) % 2 ^ 32 }

/-- `sta->sae->sync = 0`. -/
def saeSyncReset : SaeProg P Unit := modifySae fun sae => { sae with sync := 0 }

/-- `sae_clear_retransmit_timer()`. -/
def saeClearRetransmitTimer : SaeProg P Unit :=
  modifySta fun sta => { sta with retransmitTimer := false }

/-- `sae_set_retransmit_timer()`: mesh only. -/
def saeSetRetransmitTimer (conf : HostapdConf) : SaeProg P Unit :=
  modifySta fun sta => if conf.mesh then { sta with retransmitTimer := true } else sta

/-- `sae_accept_sta()`. -/
def saeAcceptSta : SaeProg P Unit := do
  let w ← get
  set { w with
    sta := { w.sta with auth := true, authAlg := wlanAuthSae }
    sae := { w.sae with state := .accepted }
    log := w.log ++ [SaeObs.acceptSta w.sae.pmk w.sae.pmkid] }

/-- `sae_sm_step()` in state Nothing. -/
def saeSmStepNothing (c : CryptoLib P) (conf : HostapdConf) (transaction : Nat) :
    SaeProg P Nat := do
  if transaction = 1 then do
    let ret ← authSaeSendCommit c conf true
    if ret ≠ wlanStatusSuccess then
      pure ret
    else do
      saeSetState .committed
      if !(← processCommit c) then
        pure wlanStatusUnspecifiedFailure
      else if conf.mesh then do
        -- a mesh sends both messages at once: the Nothing -> Confirmed transition
        let ret ← authSaeSendConfirm c
        if ret ≠ wlanStatusSuccess then
          pure ret
        else do
          saeSetState .confirmed
          saeSyncReset
          saeSetRetransmitTimer conf
          pure wlanStatusSuccess
      else do
        saeSyncReset
        saeSetRetransmitTimer conf
        pure wlanStatusSuccess
  else
    pure wlanStatusSuccess

/-- `sae_sm_step()` in state Confirmed. -/
def saeSmStepConfirmed (c : CryptoLib P) (conf : HostapdConf) (transaction : Nat) :
    SaeProg P Nat := do
  saeClearRetransmitTimer
  if transaction = 1 then do
    if ← saeCheckBigSync conf then
      pure wlanStatusSuccess
    else do
      saeSyncInc
      let ret ← authSaeSendCommit c conf true
      if ret ≠ wlanStatusSuccess then
        pure ret
      else if !(← processCommit c) then
        pure wlanStatusUnspecifiedFailure
      else do
        let ret ← authSaeSendConfirm c
        if ret ≠ wlanStatusSuccess then
          pure ret
        else do
          saeSetRetransmitTimer conf
          pure wlanStatusSuccess
  else do
    modifySae fun sae => { sae with sendConfirm := 0xffff }
    saeAcceptSta
    pure wlanStatusSuccess

/-- `sae_sm_step()` in state Committed. The step the source runs again after the postponed
Confirm is the one in state Confirmed. -/
def saeSmStepCommitted (c : CryptoLib P) (conf : HostapdConf) (transaction : Nat) :
    SaeProg P Nat := do
  saeClearRetransmitTimer
  if transaction = 1 then do
    if !(← processCommit c) then
      pure wlanStatusUnspecifiedFailure
    else do
      let ret ← authSaeSendConfirm c
      if ret ≠ wlanStatusSuccess then
        pure ret
      else do
        saeSetState .confirmed
        saeSyncReset
        saeSetRetransmitTimer conf
        pure wlanStatusSuccess
  else if conf.mesh then do
    if ← saeCheckBigSync conf then
      pure wlanStatusSuccess
    else do
      saeSyncInc
      let ret ← authSaeSendCommit c conf false
      if ret ≠ wlanStatusSuccess then
        pure ret
      else do
        saeSetRetransmitTimer conf
        pure wlanStatusSuccess
  else do
    let ret ← authSaeSendConfirm c
    if ret ≠ wlanStatusSuccess then
      pure ret
    else do
      saeSetState .confirmed
      saeSmStepConfirmed c conf transaction

/-- `sae_sm_step()` in state Accepted. -/
def saeSmStepAccepted (c : CryptoLib P) (conf : HostapdConf) (transaction : Nat) :
    SaeProg P Nat := do
  if transaction = 1 ∧ conf.mesh then do
    modify fun w => { w with freed := true, log := w.log ++ [SaeObs.apFreeSta] }
    pure wlanStatusSuccess
  else if transaction = 1 then do
    let ret ← authSaeSendCommit c conf true
    if ret ≠ wlanStatusSuccess then
      pure ret
    else do
      saeSetState .committed
      if !(← processCommit c) then
        pure wlanStatusUnspecifiedFailure
      else do
        saeSyncReset
        saeSetRetransmitTimer conf
        pure wlanStatusSuccess
  else do
    if ← saeCheckBigSync conf then
      pure wlanStatusSuccess
    else do
      saeSyncInc
      let ret ← authSaeSendConfirm c
      modifySae saeClearTempData
      pure ret

/-- `sae_sm_step()`. -/
def saeSmStep (c : CryptoLib P) (conf : HostapdConf) (transaction : Nat) : SaeProg P Nat := do
  if transaction ≠ 1 ∧ transaction ≠ 2 then
    pure wlanStatusUnspecifiedFailure
  else
    match (← get).sae.state with
    | .nothing => saeSmStepNothing c conf transaction
    | .committed => saeSmStepCommitted c conf transaction
    | .confirmed => saeSmStepConfirmed c conf transaction
    | .accepted => saeSmStepAccepted c conf transaction

/-! ## Receiver -/

/-- An Authentication frame with the SAE algorithm: transaction number, status code and the
octets after them. -/
structure AuthFrame where
  transaction : Nat
  status : Nat
  body : Bytes
  deriving DecidableEq, Repr

/-- The entries of `sae_groups` after the current group, when it is in the list. -/
def groupsAfter (group : Int) : List Int → List Int
  | [] => []
  | g :: gs => if g ≤ 0 then [] else if group = g then gs else groupsAfter group gs

/-- The second loop of `sae_pick_next_group()`: the first group the library supports. -/
def pickFirstSupported (c : CryptoLib P) : List Int → SaeData P → SaeData P
  | [], sae => sae
  | g :: gs, sae =>
    if g ≤ 0 then
      sae
    else
      match saeSetGroup c g sae with
      | (true, sae) => sae
      | (false, sae) => pickFirstSupported c gs sae

/-- `sae_pick_next_group()`. -/
def saePickNextGroup (c : CryptoLib P) (conf : HostapdConf) (sae : SaeData P) : SaeData P :=
  if sae.state ≠ .committed then
    sae
  else
    match conf.saeGroups with
    | none => sae
    | some gs => pickFirstSupported c (groupsAfter sae.group gs) sae

/-- The label `remove_sta` of `handle_auth_sae()`. -/
def removeSta (f : AuthFrame) (resp : Nat) : SaeProg P Unit :=
  modifySta fun sta =>
    if resp ≠ wlanStatusSuccess ∨ f.status ≠ wlanStatusSuccess then
      { sta with addedUnassoc := false }
    else
      sta

/-- The label `reply` of `handle_auth_sae()`, which falls through to `remove_sta`. -/
def reply (f : AuthFrame) (resp : Nat) (data : Bytes) : SaeProg P Unit := do
  if resp ≠ wlanStatusSuccess then do
    let _ ← sendAuthReply f.transaction resp data
    removeSta f resp
  else
    removeSta f resp

/-- The token request of a mesh peer in a Commit with status 76. -/
def handleTokenRequest (c : CryptoLib P) (conf : HostapdConf) (f : AuthFrame) :
    SaeProg P Unit := do
  if f.body.length < 2 then
    reply f wlanStatusUnspecifiedFailure []
  else do
    let w ← get
    let (resp, sae) := saeGroupAllowed c conf.saeGroups (getLe16 f.body) w.sae
    set { w with sae }
    if resp ≠ wlanStatusSuccess then
      reply f resp []
    else do
      modifySae fun sae =>
        { sae with tmp := sae.tmp.map fun t => { t with antiCloggingToken := some (f.body.drop 2) } }
      let resp ← authSaeSendCommit c conf false
      if resp ≠ wlanStatusSuccess then
        removeSta f resp
      else do
        saeSetState .committed
        saeSyncReset
        saeSetRetransmitTimer conf

/-- In an infrastructure BSS a Commit in state Committed starts over. -/
def restartInfrastructure (conf : HostapdConf) (sae : SaeData P) : SaeData P :=
  if conf.mesh = false ∧ sae.state = .committed then saeClearData sae else sae

/-- The part of the Commit branch after the status codes have been told apart. -/
def handleCommit (c : CryptoLib P) (conf : HostapdConf) (env : SaeEnv) (f : AuthFrame) :
    SaeProg P Unit := do
  modifySae (restartInfrastructure conf)
  let w ← get
  let parsed := saeParseCommit c conf.saeGroups f.body w.sae
  set { w with sae := parsed.sae }
  if parsed.status = saeSilentlyDiscard then
    removeSta f parsed.status
  else if parsed.status = wlanStatusUnknownPasswordIdentifier then do
    saeClearRetransmitTimer
    saeSetState .nothing
    removeSta f parsed.status
  else if parsed.token.any fun token => !checkSaeToken c w.tokenKey w.sta.addr token then
    removeSta f wlanStatusUnspecifiedFailure
  else if parsed.status ≠ wlanStatusSuccess then
    reply f parsed.status []
  else if parsed.token.isNone ∧ useSaeAntiClogging conf (parsed.sae.state :: env.others) then do
    let data ← authBuildTokenReq c env.now
    modifySae fun sae => if conf.mesh then { sae with state := .nothing } else sae
    reply f wlanStatusAntiCloggingTokenReq (data.getD [])
  else do
    let resp ← saeSmStep c conf 1
    reply f resp []

def handleConfirm (c : CryptoLib P) (conf : HostapdConf) (f : AuthFrame) : SaeProg P Unit := do
  let w ← get
  if w.sae.state = .confirmed ∨ w.sae.state = .accepted ∨ conf.mesh = false then do
    if f.body.length < 2 then
      reply f wlanStatusUnspecifiedFailure []
    else
      let peerSendConfirm := getLe16 f.body
      if w.sae.state = .accepted ∧ (peerSendConfirm ≤ w.sae.rc ∨ peerSendConfirm = 0xffff) then
        pure ()
      else do
        let ok ← callPure (saeCheckConfirm c f.body w.sae)
        if !ok then
          reply f wlanStatusUnspecifiedFailure []
        else do
          observe (.confirmVerified (w.sae.tmp.bind fun t => t.exchange w.sae.peerCommitScalar)
            ((w.sae.tmp.map (·.kck)).getD []))
          modifySae fun sae => { sae with rc := peerSendConfirm }
          let resp ← saeSmStep c conf 2
          reply f resp []
  else do
    let resp ← saeSmStep c conf 2
    reply f resp []

/-- `handle_auth_sae()` once `sta->sae` is there. -/
def handleAuthSaeBody (c : CryptoLib P) (conf : HostapdConf) (env : SaeEnv) (f : AuthFrame) :
    SaeProg P Unit := do
  modifySta fun sta => { sta with meshSaePmksaCaching := false }
  let w ← get
  if f.transaction = 1 then
    if conf.mesh ∧ f.status = wlanStatusAntiCloggingTokenReq ∧ w.sae.tmp.isSome then
      handleTokenRequest c conf f
    else if conf.mesh ∧ f.status = wlanStatusFiniteCyclicGroupNotSupported ∧ w.sae.tmp.isSome then do
      modifySae (saePickNextGroup c conf)
      removeSta f wlanStatusSuccess
    else if f.status ≠ wlanStatusSuccess then
      removeSta f wlanStatusSuccess
    else
      handleCommit c conf env f
  else if f.transaction = 2 then
    if f.status ≠ wlanStatusSuccess then
      removeSta f wlanStatusSuccess
    else
      handleConfirm c conf f
  else if f.status ≠ wlanStatusSuccess then
    removeSta f wlanStatusSuccess
  else
    reply f wlanStatusUnknownAuthTransaction []

/-- Starts the processing of an event for an entry that has an SAE instance. -/
def SaeAp.enter (st : SaeAp P) (sae : SaeData P) (env : SaeEnv) : SaeWorld P where
  tokenKey := st.tokenKey
  lastTokenKeyUpdate := st.lastTokenKeyUpdate
  sta := st.sta
  sae := sae
  rand := env.rand
  sendMlme := env.sendMlme
  log := st.log

/-- Ends the processing of an event. A removed entry is replaced by the new one the next
Authentication frame of the station makes. -/
def SaeWorld.leave (w : SaeWorld P) : SaeAp P where
  tokenKey := w.tokenKey
  lastTokenKeyUpdate := w.lastTokenKeyUpdate
  sta := if w.freed then { addr := w.sta.addr } else w.sta
  sae := if w.freed then none else some w.sae
  log := w.log

def runOn (st : SaeAp P) (sae : SaeData P) (env : SaeEnv) (m : SaeProg P Unit) :
    Except Fault (SaeAp P) :=
  match m (st.enter sae env) with
  | .ok (_, w) => .ok w.leave
  | .error e => .error e

/-- `handle_auth_sae()`. -/
def handleAuthSae (c : CryptoLib P) (conf : HostapdConf) (env : SaeEnv) (f : AuthFrame)
    (st : SaeAp P) : Except Fault (SaeAp P) :=
  match st.sae with
  | some sae => runOn st sae env (handleAuthSaeBody c conf env f)
  | none =>
    if f.transaction ≠ 1 ∨ f.status ≠ wlanStatusSuccess then
      .ok { st with sta := { st.sta with addedUnassoc := false } }
    else
      runOn st {} env (handleAuthSaeBody c conf env f)

/-- `auth_sae_retransmit_timer()`. The timer runs once each time it is registered. -/
def retransmit (c : CryptoLib P) (conf : HostapdConf) : SaeProg P Unit := do
  saeClearRetransmitTimer
  if ← saeCheckBigSync conf then
    pure ()
  else do
    saeSyncInc
    match (← get).sae.state with
    | .committed => do
      let _ ← authSaeSendCommit c conf false
      modifySta fun sta => { sta with retransmitTimer := true }
    | .confirmed => do
      let _ ← authSaeSendConfirm c
      modifySta fun sta => { sta with retransmitTimer := true }
    | .nothing | .accepted => pure ()

/-- `auth_sae_retransmit_timer()`, when it is registered. -/
def authSaeRetransmitTimer (c : CryptoLib P) (conf : HostapdConf) (env : SaeEnv)
    (st : SaeAp P) : Except Fault (SaeAp P) :=
  match st.sae, st.sta.retransmitTimer with
  | some sae, true => runOn st sae env (retransmit c conf)
  | _, _ => .ok st

/-- What can happen to a station entry. -/
inductive SaeEvent
  | auth (f : AuthFrame) (env : SaeEnv)
  | retransmitTimer (env : SaeEnv)

def saeApStep (c : CryptoLib P) (conf : HostapdConf) (st : SaeAp P) :
    SaeEvent → Except Fault (SaeAp P)
  | .auth f env => handleAuthSae c conf env f st
  | .retransmitTimer env => authSaeRetransmitTimer c conf env st

/-- The SAE branch of `hostapd_wpa_auth_get_psk()`: the key the 4-way handshake of a station that
authenticated with SAE runs on. -/
def hostapdWpaAuthGetPsk (st : SaeAp P) (prevPsk : Bool) : Option Bytes :=
  if st.sta.authAlg = wlanAuthSae then
    if prevPsk then none else st.sae.map (·.pmk)
  else
    none

end Hostap
