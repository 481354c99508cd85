import Hostap.Rsn.Common
import Hostap.Rsn.KeyData

/-!
# The authenticator's data

`src/ap/wpa_auth_i.h` and the parts of `src/ap/wpa_auth.c` that the reception of a frame uses: the replay
counters, the derivation of a PTK and the verification of a received frame. `WpaStateMachine` is
`struct wpa_state_machine`, `WpaGroup` is `struct wpa_group`. Timers are not kept: a timeout may come at any
time.

`AuthEnv` holds what a step gets from outside: random numbers, memory, the PSK of the station, the
EAPOL state machine, the driver, and the FT additions of `wpa_auth_ft.c`.

Two fields of `WpaStateMachine` are not in the source. `log` records what the station's state
machines do, and `secrets` the values its PMK and its XXKey took and the PSKs tried for it.
-/

namespace Hostap

open Octets

/-- The states of the state machine `WPA_PTK`. -/
inductive PtkState
  | initialise
  | disconnect
  | disconnected
  | authentication
  | authentication2
  | initpmk
  | initpsk
  | ptkstart
  | ptkcalcnegotiating
  | ptkcalcnegotiating2
  | ptkinitnegotiating
  | ptkinitdone
  deriving DecidableEq, Repr

/-- The states of the state machine `WPA_PTK_GROUP`. -/
inductive PtkGroupState
  | idle
  | rekeynegotiating
  | rekeyestablished
  | keyerror
  deriving DecidableEq, Repr

/-- The states of the state machine of a group. -/
inductive GroupState
  | gtkInit
  | setkeys
  | setkeysdone
  | fatalFailure
  deriving DecidableEq, Repr

/-- `WPA_VERSION_*`. -/
inductive WpaVersion
  | noWpa
  | wpa
  | wpa2
  deriving DecidableEq, Repr

/-- The messages `wpa_receive()` tells apart. -/
inductive RxMsg
  | pairwise2
  | pairwise4
  | group2
  | request
  deriving DecidableEq, Repr

/-- The messages the authenticator sends. -/
inductive TxMsg
  | pairwise1
  | pairwise3
  | group1
  deriving DecidableEq, Repr

/-- What the state machines of a station do, as far as it is recorded. -/
inductive AuthObs
  /-- `wpa_auth_send_eapol()`, with the ANonce and the PTK at that time. -/
  | tx (msg : TxMsg) (counter : Nat) (anonce : Bytes) (ptk : WpaPtk) (frame : Bytes)
  /-- A message was given up after it had taken a replay counter. -/
  | abandoned (counter : Nat)
  /-- `wpa_receive()` takes a frame; the PTK is the one it was verified under there. -/
  | accepted (msg : RxMsg) (counter : Nat) (ptk : Option WpaPtk) (frame : Bytes)
  /-- `PTKINITDONE` is entered. -/
  | initDone (anonce : Bytes) (ptk : WpaPtk)
  deriving DecidableEq, Repr

/-- An entry of `key_replay`. -/
structure KeyReplay where
  counter : Nat := 0
  valid : Bool := false
  deriving DecidableEq, Repr

/-- `RSNA_MAX_EAPOL_RETRIES`. -/
def rsnaMaxEapolRetries : Nat := 4

/-- `key_replay` after `os_memset()`. -/
def noKeyReplay : List KeyReplay := List.replicate rsnaMaxEapolRetries {}

/-- A PMKSA cache entry the authenticator found for a station. -/
structure AuthPmksa where
  pmkid : Bytes
  pmk : Pmk
  deriving DecidableEq

/-- `struct wpa_state_machine`. -/
structure WpaStateMachine where
  group : Nat := 0
  addr : Bytes
  wpaPtkState : PtkState := .initialise
  wpaPtkGroupState : PtkGroupState := .idle
  init : Bool := false
  deauthenticationRequest : Bool := false
  authenticationRequest : Bool := false
  reAuthenticationRequest : Bool := false
  disconnect : Bool := false
  timeoutCtr : Nat := 0
  gTimeoutCtr : Nat := 0
  timeoutEvt : Bool := false
  eapolKeyReceived : Bool := false
  eapolKeyPairwise : Bool := false
  eapolKeyRequest : Bool := false
  micVerified : Bool := false
  gUpdateStationKeys : Bool := false
  anonce : Bytes := zeros 32
  snonce : Bytes := zeros 32
  altSnonce : Bytes := zeros 32
  altReplayCounter : Nat := 0
  pmk : Pmk := ⟨[], .inl rfl⟩
  pmkid : Option Bytes := none
  ptk : WpaPtk := {}
  ptkValid : Bool := false
  pairwiseSet : Bool := false
  pair : Bool := false
  keyReplay : List KeyReplay := noKeyReplay
  prevKeyReplay : List KeyReplay := noKeyReplay
  pInitAKeys : Bool := false
  ptkRequest : Bool := false
  ptkGroupInit : Bool := false
  lastRxEapolKey : Bytes := []
  changed : Bool := false
  inStepLoop : Bool := false
  started : Bool := false
  mgmtFrameProt : Bool := false
  rxEapolKeySecure : Bool := false
  updateSnonce : Bool := false
  altSnonceValid : Bool := false
  ftCompleted : Bool := false
  filsCompleted : Bool := false
  isWnmsleep : Bool := false
  reqReplayCounter : Bytes := zeros 8
  reqReplayCounterUsed : Bool := false
  wpaIe : Option Bytes := none
  wpa : WpaVersion := .noWpa
  pairwise : Cipher := .none
  wpaKeyMgmt : Akm := .none
  pmksa : Option AuthPmksa := none
  xxkey : Bytes := []
  log : List AuthObs := []
  secrets : List Bytes := []
  deriving DecidableEq

/-- `struct wpa_group`; `counter` is the number the octets of `Counter` stand for. -/
structure WpaGroup where
  vlanId : Nat := 0
  gInit : Bool := false
  gKeyDoneStations : Int := 0
  gtkReKey : Bool := false
  gtkLen : Nat := 0
  gn : Nat := 0
  gm : Nat := 0
  gtkAuthenticator : Bool := true
  counter : Nat := 0
  wpaGroupState : GroupState := .gtkInit
  gmk : Bytes := []
  /-- `GTK[0]` and `GTK[1]`. -/
  gtk : Nat → Bytes := fun _ => []
  /-- `IGTK[0]` and `IGTK[1]`. -/
  igtk : Nat → Bytes := fun _ => []
  gnIgtk : Nat := 0
  gmIgtk : Nat := 0
  changed : Bool := false
  firstStaSeen : Bool := false
  reject4wayHsForEntropy : Bool := false
  references : Nat := 0
  numSetupIface : Nat := 0

/-- `struct wpa_auth_config`, with the address and the WPA IE of the authenticator. -/
structure WpaAuthConfig where
  addr : Bytes
  wpaIe : Bytes
  /-- `wpa & WPA_PROTO_RSN`. -/
  protoRsn : Bool := true
  wpaGroup : Cipher := .ccmp
  groupMgmtCipher : Cipher := .aes128Cmac
  ieee80211w : Bool := false
  wpaPairwiseUpdateCount : Nat
  wpaGroupUpdateCount : Nat
  wpaDisableEapolKeyRetries : Bool := false
  disableGtk : Bool := false
  eapolVersion : UInt8 := 2
  /-- The configuration parser refuses a limit of zero. -/
  wpaPairwiseUpdateCount_pos : 1 ≤ wpaPairwiseUpdateCount
  /-- See `wpaPairwiseUpdateCount_pos`. -/
  wpaGroupUpdateCount_pos : 1 ≤ wpaGroupUpdateCount

/-- The elements and KDEs `wpa_parse_kde_ies()` finds. -/
structure WpaKdeParse extends WpaEapolIeParse where
  osen : Option Bytes := none
  macAddr : Option Bytes := none
  deriving DecidableEq, Repr

/-- What a step gets from outside. -/
structure AuthEnv where
  /-- `random_get_bytes()` for an ANonce. -/
  anonce : Option Bytes := none
  /-- `random_get_bytes()` for a GTK and an IGTK given to one station only. -/
  dummyGtk : Option Bytes := none
  dummyIgtk : Option Bytes := none
  /-- Allocation of a frame, of its Key Data in the clear and of a message's KDEs. -/
  allocHdr : Bool := true
  allocBuf : Bool := true
  allocKde : Bool := true
  /-- `os_memdup()` of a received frame. -/
  memdup : Bool := true
  /-- `os_malloc()` for decrypted Key Data. -/
  allocAead : Bool := true
  /-- `aes_wrap()` or `aes_siv_encrypt()` succeeds. -/
  encrypts : Bool := true
  /-- The PSKs `wpa_auth_get_psk()` goes through. -/
  psks : List Pmk := []
  /-- `wpa_auth_get_msk()`. -/
  getMsk : Option Bytes := none
  /-- `WPA_EAPOL_keyRun` and `WPA_EAPOL_keyAvailable`. -/
  keyRun : Bool := false
  keyAvailable : Bool := false
  /-- The PMKID derived from the PMK for message 1/4. -/
  rsnPmkid : Bytes := zeros 16
  /-- The driver takes the pairwise key, and the group keys. -/
  setKey : Bool := true
  setGroupKeys : Bool := true
  randomPoolReady : Bool := true
  /-- The GMK and the Key Counter `wpa_group_init_gmk_and_counter()` draws. -/
  gmk : Option Bytes := none
  keyCounter : Option Nat := none
  /-- `wpa_gmk_to_gtk()` by GMK, label, data and length, and whether it succeeded. -/
  gmkToGtk : Bytes → String → Bytes → Nat → Bytes × Bool := fun _ _ _ _ => ([], true)
  /-- `wpa_auth_get_seqnum()` by key index. -/
  getSeqnum : Nat → Option Bytes := fun _ => none
  /-- `wpa_auth_derive_ptk_ft()` has what it needs besides the XXKey. -/
  ftReady : Bool := true
  /-- `ft_check_msg_2_of_4()`, and the comparison of the PMKR1Names. -/
  ftCheckMsg2of4 : WpaKdeParse → Bool := fun _ => false
  pmkR1NameMatches : Bool := false
  /-- The fields of two RSN IEs compared in FT, PMKID list apart. -/
  rsnIesEqualFt : Bytes → Bytes → Bool := fun _ _ => false
  /-- `wpa_insert_pmkid()` of the PMKR1Name. -/
  ftInsertPmkid : Bytes → Option Bytes := fun _ => none
  /-- FTIE and TIEs of message 3/4. -/
  ftElements : Option Bytes := none
  /-- The P2P address allocation KDE of message 3/4. -/
  p2pKde : Bytes := []
  /-- `wpa_auth_mic_failure_report()` removed the station. -/
  micFailureRemoves : Bool := false

/-! ## Predicates of the negotiated parameters -/

/-- `wpa_use_cmac()`. -/
def wpaUseCmac (akmp : Akm) : Bool :=
  akmp = .osen || akmp = .owe || akmp = .dpp || wpaKeyMgmtFt akmp || wpaKeyMgmtSha256 akmp ||
    wpaKeyMgmtSae akmp || wpaKeyMgmtSuiteB akmp

/-- `wpa_mic_len(sm->wpa_key_mgmt, sm->pmk_len)`. -/
def WpaStateMachine.micLen (sm : WpaStateMachine) : Nat :=
  wpaMicLen sm.wpaKeyMgmt sm.pmk.octets.length

/-- The PSKs are gone through: `wpa_key_mgmt_wpa_psk()` without SAE. -/
def WpaStateMachine.usesPsks (sm : WpaStateMachine) : Bool :=
  wpaKeyMgmtWpaPsk sm.wpaKeyMgmt && !wpaKeyMgmtSae sm.wpaKeyMgmt

def WpaStateMachine.note (sm : WpaStateMachine) (o : AuthObs) : WpaStateMachine :=
  { sm with log := sm.log ++ [o] }

/-! ## Replay counters -/

/-- `wpa_replay_counter_valid()`: the entries up to the first one that is not valid. -/
def wpaReplayCounterValid (ctr : List KeyReplay) (replayCounter : Nat) : Bool :=
  (ctr.takeWhile (·.valid)).any (·.counter == replayCounter)

/-- `wpa_replay_counter_mark_invalid()`. -/
def wpaReplayCounterMarkInvalid (ctr : List KeyReplay) (replayCounter : Option Nat) :
    List KeyReplay :=
  ctr.map fun e =>
    if e.valid ∧ (replayCounter = none ∨ replayCounter = some e.counter) then
      { e with valid := false }
    else
      e

/-! ## Keys -/

/-- `wpa_derive_ptk()`. In FT the keys come from the XXKey and the SNonce of the state machine,
whichever SNonce is asked for. -/
def wpaDerivePtkAuth (lib : RsnLib) (conf : WpaAuthConfig) (env : AuthEnv) (snonce pmk : Bytes)
    (sm : WpaStateMachine) : Option WpaPtk :=
  if wpaKeyMgmtFt sm.wpaKeyMgmt then
    if ¬ env.ftReady then
      none
    else
      (wpaDerivePtkFt lib sm.xxkey sm.snonce sm.anonce sm.addr conf.addr sm.wpaKeyMgmt
        sm.pairwise).map fun k =>
          { kck := k.kck, kek := k.kek, tk := k.tk, origin := some (sm.xxkey, sm.anonce, sm.snonce) }
  else
    (wpaPmkToPtk lib pmk conf.addr sm.addr sm.anonce snonce sm.wpaKeyMgmt sm.pairwise).map fun k =>
      { kck := k.kck, kek := k.kek, tk := k.tk, origin := some (pmk, sm.anonce, snonce) }

/-- `wpa_verify_key_mic()` succeeds. -/
def wpaVerifyKeyMic (lib : RsnLib) (akmp : Akm) (pmkLen : Nat) (ptk : WpaPtk) (data : Bytes) :
    Bool :=
  let micLen := wpaMicLen akmp pmkLen
  let zeroed := patch data micOffset (zeros micLen)
  micOffset ≤ data.length &&
    (wpaEapolKeyMic lib ptk.kck akmp (readEapolKey data).ver zeroed).any fun mic =>
      slice (patch zeroed micOffset mic) micOffset micLen == slice data micOffset micLen

/-- `wpa_aead_decrypt()`: the frame with its Key Data in the clear. -/
def wpaAeadDecrypt (lib : RsnLib) (env : AuthEnv) (ptk : WpaPtk) (buf : Bytes) : Option Bytes :=
  let keyDataLen := getBe16 (buf.drop micOffset)
  if keyDataLen < 16 ∨ buf.length - micOffset - 2 < keyDataLen then
    none
  else if ¬ env.allocAead then
    none
  else
    (lib.aesSivDecrypt ptk.kek (buf.take (micOffset + 2))
      (slice buf (micOffset + 2) keyDataLen)).map fun tmp =>
        patch (patch buf (micOffset + 2) (tmp.take (keyDataLen - 16))) micOffset
          (be16 (keyDataLen - 16))

/-! ## Key Data -/

/-- `OSEN_IE_VENDOR_TYPE`. -/
def osenIeVendorType : Nat := 0x506f9a12

/-- `wpa_parse_generic()` of the authenticator on the body of a vendor-specific element. -/
def wpaParseGenericAuth (elem body : Bytes) (ie : WpaKdeParse) : WpaKdeParse :=
  if 6 ≤ body.length ∧ rsnSelector body = wpaOuiType ∧ body.getD 4 0 = 1 ∧ body.getD 5 0 = 0 then
    { ie with wpaIe := some elem }
  else if 4 ≤ body.length ∧ rsnSelector body = osenIeVendorType then
    { ie with osen := some elem }
  else if 4 + 16 ≤ body.length ∧ rsnSelector body = rsnKeyDataPmkid then
    { ie with pmkid := some (slice body 4 16) }
  else if 4 + 2 < body.length ∧ rsnSelector body = rsnKeyDataGroupkey then
    { ie with gtk := some (body.drop 4) }
  else if 4 + 2 < body.length ∧ rsnSelector body = rsnKeyDataMacAddr then
    { ie with macAddr := some (body.drop 4) }
  else if 4 + 2 < body.length ∧ rsnSelector body = rsnKeyDataIgtk then
    { ie with igtk := some (body.drop 4) }
  else
    ie

/-- The loop of `wpa_parse_kde_ies()`; `none` is an element that runs past the end. -/
def wpaParseKdeIesLoop : (fuel : Nat) → Bytes → WpaKdeParse → Option WpaKdeParse
  | 0, _, ie => some ie
  | fuel + 1, pos, ie =>
    match pos with
    | eid :: len :: rest =>
      let body := rest.take len.toNat
      let elem := eid :: len :: body
      if eid = wlanEidVendorSpecific ∧ len = 0 then
        -- padding
        some ie
      else if rest.length < len.toNat then
        none
      else
        let ie :=
          if eid = wlanEidRsn then { ie with rsnIe := some elem }
          else if eid = wlanEidMobilityDomain then { ie with mdie := some elem }
          else if eid = wlanEidFastBssTransition then { ie with ftie := some elem }
          else if eid = wlanEidVendorSpecific then wpaParseGenericAuth elem body ie
          else ie
        wpaParseKdeIesLoop fuel (rest.drop len.toNat) ie
    | _ => some ie

/-- `wpa_parse_kde_ies()`. -/
def wpaParseKdeIes (buf : Bytes) : Option WpaKdeParse := wpaParseKdeIesLoop buf.length buf {}

end Hostap
