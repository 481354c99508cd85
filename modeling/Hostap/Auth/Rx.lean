import Hostap.Auth.FindPtk

/-!
# Received EAPOL-Key frames at the authenticator

`wpa_receive()` for one station, up to the calls that reach other stations: what remains to be
done is its result (`RxResult`). A frame is dropped, or it is taken and the state machines of the
station are run; a request for a new GTK makes the groups rekey before the frame is taken.
-/

namespace Hostap

open Octets

/-- A frame whose lengths and type are in order. -/
structure AuthRx where
  key : WpaEapolKey
  keyDataLength : Nat
  msg : RxMsg
  deriving DecidableEq, Repr

def AuthRx.counter (rx : AuthRx) : Nat := beNat rx.key.replayCounter

def rxMsgOf (key : WpaEapolKey) (micLen keyDataLength : Nat) : RxMsg :=
  if key.has kiRequest then .request
  else if ¬ key.has kiKeyType then .group2
  else if keyDataLength = 0 ∨ (micLen = 0 ∧ key.has kiEncrKeyData ∧ keyDataLength = 16) then
    .pairwise4
  else .pairwise2

/-- The checks on lengths and type, and what the frame is taken for. -/
def rxParse (sm : WpaStateMachine) (data : Bytes) : Option AuthRx :=
  let keyhdrlen := eapolKeyLen + sm.micLen + 2
  let key := readEapolKey data
  let keyDataLength := getBe16 (data.drop (micOffset + sm.micLen))
  if data.length < hdrLen + keyhdrlen then none
  else if data.length - hdrLen - keyhdrlen < keyDataLength then none
  else if sm.wpa = .wpa2 ∧ key.type ≠ 254 ∧ key.type ≠ 2 then none
  else if sm.wpa ≠ .wpa2 ∧ key.type ≠ 254 then none
  else if key.has kiSmkMessage then none
  else some ⟨key, keyDataLength, rxMsgOf key sm.micLen keyDataLength⟩

/-- The Key Descriptor Version is the one the negotiated AKM and cipher ask for. -/
def rxVersionOk (sm : WpaStateMachine) (key : WpaEapolKey) : Bool :=
  let ver := key.ver
  !((sm.pairwise = .ccmp ∨ sm.pairwise = .gcmp) ∧ wpaUseCmac sm.wpaKeyMgmt ∧
      ¬ wpaUseAkmDefined sm.wpaKeyMgmt ∧ ver ≠ verAes128Cmac) &&
    !((sm.pairwise = .ccmp ∨ sm.pairwise = .gcmp) ∧ ¬ wpaUseCmac sm.wpaKeyMgmt ∧
      ¬ wpaUseAkmDefined sm.wpaKeyMgmt ∧ ver ≠ verHmacSha1Aes) &&
    !(wpaUseAkmDefined sm.wpaKeyMgmt ∧ ver ≠ verAkmDefined)

/-- The replay counter of a request is one that was not used. -/
def rxRequestOk (sm : WpaStateMachine) (rx : AuthRx) : Bool :=
  !(rx.msg = .request ∧ sm.reqReplayCounterUsed ∧
    memcmp rx.key.replayCounter sm.reqReplayCounter ≠ .gt)

/-- The frame takes the workaround for supplicants that change their SNonce in every message 2/4. -/
def updatesSnonce (sm : WpaStateMachine) (rx : AuthRx) : Bool :=
  !wpaReplayCounterValid sm.keyReplay rx.counter && rx.msg = .pairwise2 &&
    wpaReplayCounterValid sm.prevKeyReplay rx.counter &&
    sm.wpaPtkState = .ptkinitnegotiating && sm.snonce ≠ rx.key.keyNonce

/-- The frame takes the workaround for a message 4/4 under the earlier SNonce. -/
def usesAltCounter (sm : WpaStateMachine) (rx : AuthRx) : Bool :=
  rx.msg = .pairwise4 && sm.altSnonceValid && sm.wpaPtkState = .ptkinitnegotiating &&
    rx.counter = sm.altReplayCounter

/-- The earlier SNonce and the counter of message 3/4 are kept. -/
def keepAltSnonce (sm : WpaStateMachine) : WpaStateMachine :=
  { sm with
    updateSnonce := true
    altSnonce := sm.snonce
    altSnonceValid := true
    altReplayCounter := (sm.keyReplay.headD {}).counter }

/-- The check of the replay counter; `none` drops the frame. -/
def rxReplay (rx : AuthRx) (sm : WpaStateMachine) : Option WpaStateMachine :=
  if rx.msg ≠ .request ∧ ¬ wpaReplayCounterValid sm.keyReplay rx.counter then
    if updatesSnonce sm rx then some (keepAltSnonce sm)
    else if usesAltCounter sm rx then some sm
    else none
  else
    some sm

def rxStateOk (rx : AuthRx) (sm : WpaStateMachine) : Bool :=
  match rx.msg with
  | .pairwise2 =>
    sm.wpaPtkState = .ptkstart || sm.wpaPtkState = .ptkcalcnegotiating ||
      (sm.updateSnonce && sm.wpaPtkState = .ptkinitnegotiating)
  | .pairwise4 => sm.wpaPtkState = .ptkinitnegotiating && sm.ptkValid
  | .group2 => sm.wpaPtkGroupState = .rekeynegotiating && sm.ptkValid
  | .request => true

/-- The Encrypted Key Data bit is missing although AES-SIV is used. -/
def rxEncrMissing (rx : AuthRx) (sm : WpaStateMachine) : Bool :=
  sm.wpa = .wpa2 && sm.micLen = 0 && !rx.key.has kiEncrKeyData

/-- The Ack and MIC bits are those of a frame from a station. -/
def rxBitsOk (rx : AuthRx) (sm : WpaStateMachine) : Bool :=
  !rx.key.has kiAck && (rx.key.has kiMic != wpaKeyMgmtFils sm.wpaKeyMgmt)

/-- `wpa_try_alt_snonce()`: whether the earlier SNonce gives a matching MIC. -/
def wpaTryAltSnonce (lib : RsnLib) (conf : WpaAuthConfig) (env : AuthEnv) (data : Bytes)
    (sm : WpaStateMachine) : Bool × WpaStateMachine :=
  match findPtk lib conf env sm.micLen sm.altSnonce data sm with
  | (none, sm) => (false, sm)
  | (some found, sm) =>
    (true, { sm with
      altSnonceValid := false, snonce := sm.altSnonce, ptk := found.ptk, ptkValid := true })

/-- The MIC or the AES-SIV data, checked only while there is a PTK: the frame, with its Key Data
in the clear, or `none` to drop it. -/
def rxVerifyAuth (lib : RsnLib) (conf : WpaAuthConfig) (env : AuthEnv) (rx : AuthRx) (data : Bytes)
    (sm : WpaStateMachine) : Option Bytes × WpaStateMachine :=
  let sm := { sm with micVerified := false }
  if sm.ptkValid ∧ ¬ sm.updateSnonce then
    if sm.micLen ≠ 0 then
      if wpaVerifyKeyMic lib sm.wpaKeyMgmt sm.pmk.octets.length sm.ptk data then
        (some data, { sm with micVerified := true })
      else if rx.msg = .pairwise4 ∧ sm.altSnonceValid then
        match wpaTryAltSnonce lib conf env data sm with
        | (true, sm) => (some data, { sm with micVerified := true })
        | (false, sm) => (none, sm)
      else
        (none, sm)
    else
      match wpaAeadDecrypt lib env sm.ptk data with
      | none => (none, sm)
      | some data => (some data, { sm with micVerified := true })
  else
    (some data, sm)

/-- A frame that is about to be taken: as received, with its Key Data in the clear, and the PTK it
was verified under. -/
structure RxEnd where
  rx : AuthRx
  frame : Bytes
  data : Bytes
  ptk : Option WpaPtk
  deriving DecidableEq, Repr

/-- The end of `wpa_receive()`: false when there is no memory to keep the frame. -/
def rxEnd (env : AuthEnv) (e : RxEnd) (sm : WpaStateMachine) : Bool × WpaStateMachine :=
  if ¬ env.memdup then
    (false, { sm with lastRxEapolKey := [] })
  else
    (true, { sm.note (.accepted e.rx.msg e.rx.counter e.ptk e.frame) with
      lastRxEapolKey := e.data
      rxEapolKeySecure := e.rx.key.has kiSecure
      eapolKeyReceived := true
      eapolKeyPairwise := e.rx.key.has kiKeyType
      eapolKeyRequest := e.rx.key.has kiRequest
      snonce := e.rx.key.keyNonce })

/-- What `wpa_receive()` does for the station, and what is left to do. -/
inductive RxResult
  /-- The frame is dropped. -/
  | drop (sm : WpaStateMachine)
  /-- `wpa_sm_step()` follows. -/
  | step (sm : WpaStateMachine)
  /-- `wpa_rekey_gtk()` and then the end of the function follow. -/
  | rekey (sm : WpaStateMachine) (e : RxEnd)
  /-- The station was removed. -/
  | removed

/-- The result of the end of `wpa_receive()`. -/
def finishRx (env : AuthEnv) (e : RxEnd) (sm : WpaStateMachine) : RxResult :=
  match rxEnd env e sm with
  | (false, sm) => .drop sm
  | (true, sm) => .step sm

/-- `wpa_receive_error_report()`: the station is still there. -/
def wpaReceiveErrorReport (conf : WpaAuthConfig) (env : AuthEnv) (group : Bool)
    (sm : WpaStateMachine) : Option WpaStateMachine :=
  let ignored := (group ∧ conf.wpaGroup ≠ .tkip) ∨ (¬ group ∧ sm.pairwise ≠ .tkip)
  if ¬ ignored ∧ env.micFailureRemoves then none else some (wpaRequestNewPtk sm)

def hasMacAddr (micLen : Nat) (data : Bytes) : Bool :=
  let keyDataLength := getBe16 (data.drop (micOffset + micLen))
  0 < keyDataLength &&
    ((wpaParseKdeIes (slice data (micOffset + micLen + 2) keyDataLength)).any (·.macAddr.isSome))

def rxRequest (conf : WpaAuthConfig) (env : AuthEnv) (e : RxEnd) (sm : WpaStateMachine) :
    RxResult :=
  if ¬ sm.micVerified then
    .drop sm
  else
    let sm := { sm with reqReplayCounterUsed := true, reqReplayCounter := e.rx.key.replayCounter }
    if e.rx.key.has kiError then
      match wpaReceiveErrorReport conf env (!e.rx.key.has kiKeyType) sm with
      | none => .removed
      | some sm => finishRx env e sm
    else if e.rx.key.has kiKeyType then
      finishRx env e (wpaRequestNewPtk sm)
    else if hasMacAddr sm.micLen e.data then
      finishRx env e sm
    else
      .rekey sm e

/-- The replay counters after a frame that is no Request was taken. -/
def takeCounter (rx : AuthRx) (sm : WpaStateMachine) : WpaStateMachine :=
  let pending := wpaReplayCounterMarkInvalid sm.keyReplay (some rx.counter)
  { sm with
    prevKeyReplay := if rx.msg = .pairwise2 then pending else noKeyReplay
    keyReplay := wpaReplayCounterMarkInvalid pending none }

/-- `wpa_receive()` from the verification of the frame on. -/
def rxVerified (lib : RsnLib) (conf : WpaAuthConfig) (env : AuthEnv) (rx : AuthRx) (data : Bytes)
    (sm : WpaStateMachine) : RxResult :=
  match rxVerifyAuth lib conf env rx data sm with
  | (none, sm) => .drop sm
  | (some data', sm) =>
    let e : RxEnd := ⟨rx, data, data', if sm.micVerified then some sm.ptk else none⟩
    if rx.msg = .request then rxRequest conf env e sm
    else finishRx env e (takeCounter rx sm)

/-- `wpa_receive()`. -/
def wpaReceive (lib : RsnLib) (conf : WpaAuthConfig) (env : AuthEnv) (g : WpaGroup) (data : Bytes)
    (sm : WpaStateMachine) : RxResult :=
  match rxParse sm data with
  | none => .drop sm
  | some rx =>
    if ¬ rxVersionOk sm rx.key ∨ ¬ rxRequestOk sm rx then
      .drop sm
    else
      match rxReplay rx sm with
      | none => .drop sm
      | some sm =>
        if rxEncrMissing rx sm ∨ ¬ rxStateOk rx sm then
          .drop sm
        else if rx.msg = .pairwise2 ∧ g.reject4wayHsForEntropy then
          -- the handshake is refused until there is enough entropy
          .step (wpaRemovePtk { sm with deauthenticationRequest := true, ftCompleted := false })
        else if ¬ rxBitsOk rx sm then
          .drop sm
        else
          rxVerified lib conf env rx data sm

end Hostap
