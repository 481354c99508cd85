import Hostap.Crypto
import Hostap.Rsn.Common
import Hostap.Rsn.KeyData

/-!
# The supplicant's key handshakes

`src/rsn_supp/wpa.c`: processing of received EAPOL-Key frames up to the installation of keys and
the replies. `WpaSm` is the part of `struct wpa_sm` the handshakes read and write; `SuppEnv` holds
what one call gets from outside: the EAPOL state machine, the PMKSA cache, the random number
generator, the driver and the scan results, and the FT additions of `wpa_ft.c`.

Three fields of `WpaSm` are not in the source. `log` records what a call does, `drawn` the SNonces
drawn so far and `rxCount` the number of frames processed.
-/

namespace Hostap

open Octets

/-- A PMKSA cache entry, as far as it is used here. -/
structure Pmksa where
  pmkid : Bytes
  pmk : Pmk
  /-- An entry is only made for a PMK. -/
  pmk_set : pmk.octets ≠ []
  deriving DecidableEq

/-- `enum wpa_states`, as far as the handshakes tell them apart. -/
inductive WpaState
  | other
  | fourWayHandshake
  | groupHandshake
  | completed
  deriving DecidableEq, Repr

/-- What a call of `wpa_sm_rx_eapol()` does that can be seen from outside. -/
inductive SuppObs
  /-- `wpa_sm_ether_send()`, with the PTK the frame was protected with. -/
  | tx (ptk : WpaPtk) (frame : Bytes)
  /-- The MIC of the `rx`-th frame verified under this KCK. -/
  | micVerified (rx : Nat) (kck counter : Bytes)
  /-- The AES-SIV data of the `rx`-th frame decrypted under this KEK. -/
  | sivVerified (rx : Nat) (kek counter : Bytes)
  /-- `wpa_supplicant_process_3_of_4()` runs. -/
  | process3of4 (rx : Nat)
  /-- `wpa_supplicant_process_1_of_2()` runs. -/
  | process1of2 (rx : Nat)
  /-- `wpa_supplicant_install_ptk()` passes a key to the driver. -/
  | setPtk (origin : Option (Bytes × Bytes × Bytes)) (tk rsc : Bytes) (ok : Bool)
  | setGtk (keyidx : Nat) (gtk rsc : Bytes) (ok : Bool)
  | setIgtk (keyidx : Nat) (igtk : Bytes) (ok : Bool)
  | deauthenticate (reason : Nat)
  deriving DecidableEq

/-- `struct wpa_sm`. -/
structure WpaSm where
  pmk : Pmk
  ptk : WpaPtk := {}
  tptk : WpaPtk := {}
  ptkSet : Bool := false
  tptkSet : Bool := false
  msg3of4Ok : Bool := false
  snonce : Bytes := zeros 32
  anonce : Bytes := zeros 32
  renewSnonce : Bool := true
  rxReplayCounter : Bytes := zeros 8
  rxReplayCounterSet : Bool := false
  gtk : Bytes := []
  gtkWnmSleep : Bytes := []
  igtk : Bytes := []
  igtkWnmSleep : Bytes := []
  curPmksa : Option Pmksa := none
  xxkey : Bytes := []
  proto : Proto
  pairwiseCipher : Cipher
  groupCipher : Cipher
  keyMgmt : Akm
  mgmtGroupCipher : Cipher := .none
  rsnEnabled : Bool := true
  wpaRscRelaxation : Bool := false
  filsCompleted : Bool := false
  ownAddr : Bytes
  bssid : Bytes
  assocWpaIe : Option Bytes := none
  apWpaIe : Option Bytes := none
  apRsnIe : Option Bytes := none
  state : WpaState := .other
  rxCount : Nat := 0
  drawn : List Bytes := []
  log : List SuppObs := []

/-- What one call gets from outside. -/
structure SuppEnv where
  /-- `wpa_sm_get_network_ctx()` finds one. -/
  networkCtx : Bool := true
  /-- There is an EAPOL state machine. -/
  eapol : Bool := false
  /-- `eapol_sm_get_key()` for a length: a source of the key's octets. -/
  eapolGetKey : Nat → Option (Nat → UInt8) := fun _ => none
  /-- `pmksa_cache_get()` by PMKID. -/
  pmksaCacheGet : Bytes → Option Pmksa := fun _ => none
  /-- `pmksa_cache_get()` after the new PMK was added. -/
  pmksaCacheGetAgain : Bool := false
  /-- `pmksa_cache_add()`. -/
  pmksaCacheAdd : Option Pmksa := none
  /-- `random_get_bytes()` for the SNonce of a reply to message 1/4. -/
  random : Option Bytes := none
  /-- `random_get_bytes()` for the SNonce of the next fast transition. -/
  randomFt : Option Bytes := none
  /-- The driver takes the pairwise key. -/
  setKeyPtk : Bool := true
  setKeyGtk : Bool := true
  setKeyIgtk : Bool := true
  /-- `wpa_sm_alloc_eapol()` gives a buffer. -/
  allocEapol : Bool := true
  /-- `wpa_sm_ether_send()` succeeds. -/
  etherSend : Bool := true
  /-- `wpa_sm_get_bssid()`. -/
  getBssid : Option Bytes := none
  /-- `wpa_sm_get_beacon_ie()`: the WPA IE and the RSN IE of the AP. -/
  getBeaconIe : Option (Option Bytes × Option Bytes) := none
  /-- The IEs of message 2/4 in FT: PMKR1Name inserted, MDIE and FTIE added. -/
  ftReplyIes : Bytes → Option Bytes := fun _ => none
  /-- The fields of two RSN IEs compared in FT, PMKID list apart. -/
  rsnIesEqualFt : Bytes → Bytes → Bool := fun _ _ => false
  /-- `wpa_supplicant_validate_ie_ft()`. -/
  validateIeFt : WpaEapolIeParse → Bool := fun _ => false
  /-- The P2P address request KDE is added to message 2/4. -/
  p2pKde : Bytes := []
  eapolVersion : UInt8 := 2

/-- `wpa_mic_len(sm->key_mgmt, sm->pmk_len)`. -/
def WpaSm.micLen (sm : WpaSm) : Nat := wpaMicLen sm.keyMgmt sm.pmk.octets.length

def WpaSm.note (sm : WpaSm) (o : SuppObs) : WpaSm := { sm with log := sm.log ++ [o] }

/-- `WLAN_REASON_UNSPECIFIED`. -/
def wlanReasonUnspecified : Nat := 1

/-- `WLAN_REASON_IE_IN_4WAY_DIFFERS`. -/
def wlanReasonIeIn4wayDiffers : Nat := 17

/-! ## Sending -/

/-- The protected frame `wpa_eapol_key_send()` sends for a message, if it can be made. -/
def protectEapolKey (lib : RsnLib) (akmp : Akm) (micLen : Nat) (ptk : WpaPtk) (ver : Nat)
    (msg : Bytes) : Option Bytes :=
  if micLen ≠ 0 then
    (wpaEapolKeyMic lib ptk.kck akmp ver msg).map fun mic => patch msg micOffset mic
  else if ptk.kek.length = 0 then
    none
  else
    -- AES-SIV: the two length fields count the tag, and stand in the additional data
    let keyData := msg.drop (micOffset + 2)
    let aad := patch (patch (msg.take (micOffset + 2)) 2
      (be16 (eapolKeyLen + 2 + keyData.length + 16))) micOffset (be16 (keyData.length + 16))
    some (aad ++ lib.aesSivEncrypt ptk.kek aad keyData)

/-- `wpa_eapol_key_send()`: false when it returns a failure. -/
def wpaEapolKeySend (lib : RsnLib) (env : SuppEnv) (ptk : WpaPtk) (ver : Nat) (msg : Bytes)
    (sm : WpaSm) : Bool × WpaSm :=
  let sm := match env.getBssid with
    | some b => if sm.bssid = zeros 6 then { sm with bssid := b } else sm
    | none => sm
  match protectEapolKey lib sm.keyMgmt sm.micLen ptk ver msg with
  | none => (false, sm)
  | some frame => (env.etherSend, sm.note (.tx ptk frame))

/-- The Key Information of a reply: the MIC bit, or the encrypted bit without a MIC field. -/
def replyKeyInfo (ver keyIndex micLen : Nat) (flags : List Nat) : Nat :=
  keyInfoOf ver keyIndex (flags ++ [if micLen ≠ 0 then kiMic else kiEncrKeyData])

def replyKey (sm : WpaSm) (key : WpaEapolKey) (keyInfo : Nat) (nonce : Bytes) : WpaEapolKey where
  type := eapolKeyType sm.proto
  keyInfo := keyInfo
  keyLength := if sm.proto.isRsn then 0 else key.keyLength
  replayCounter := key.replayCounter
  keyNonce := nonce

/-- A reply with the given Key Data: allocation, protection and transmission. -/
def sendReply (lib : RsnLib) (env : SuppEnv) (ptk : WpaPtk) (ver : Nat) (key : WpaEapolKey)
    (keyInfo : Nat) (nonce keyData : Bytes) (sm : WpaSm) : Bool × WpaSm :=
  if ¬ env.allocEapol then
    (false, sm)
  else
    wpaEapolKeySend lib env ptk ver
      (eapolKeyFrame env.eapolVersion (replyKey sm key keyInfo nonce) sm.micLen keyData) sm

/-- `wpa_supplicant_send_2_of_4()`. -/
def wpaSupplicantSend2of4 (lib : RsnLib) (env : SuppEnv) (key : WpaEapolKey) (wpaIe : Option Bytes)
    (sm : WpaSm) : Bool × WpaSm :=
  match wpaIe with
  | none => (false, sm)
  | some wpaIe =>
    match (if wpaKeyMgmtFt sm.keyMgmt then env.ftReplyIes wpaIe else some wpaIe) with
    | none => (false, sm)
    | some keyData =>
      sendReply lib env sm.tptk key.ver key (replyKeyInfo key.ver 0 sm.micLen [kiKeyType]) sm.snonce
        keyData sm

/-- `wpa_supplicant_send_4_of_4()`. -/
def wpaSupplicantSend4of4 (lib : RsnLib) (env : SuppEnv) (key : WpaEapolKey) (sm : WpaSm) :
    Bool × WpaSm :=
  let flags := if key.has kiSecure then [kiSecure, kiKeyType] else [kiKeyType]
  sendReply lib env sm.ptk key.ver key (replyKeyInfo key.ver 0 sm.micLen flags) (zeros 32) [] sm

/-- `wpa_supplicant_send_2_of_2()`. -/
def wpaSupplicantSend2of2 (lib : RsnLib) (env : SuppEnv) (key : WpaEapolKey) (sm : WpaSm) :
    Bool × WpaSm :=
  sendReply lib env sm.ptk key.ver key (replyKeyInfo key.ver key.keyIndex sm.micLen [kiSecure])
    (zeros 32) [] sm

/-! ## Message 1/4 -/

def eapolPmk (source : Nat → UInt8) (len : Nat) (h : 16 ≤ len ∧ len ≤ 64) : Pmk where
  octets := (List.range len).map source
  length_ok := by simpa using Or.inr h

theorem pmkLen_suiteB : 16 ≤ 48 ∧ 48 ≤ 64 := by decide

theorem pmkLen_default : 16 ≤ 32 ∧ 32 ≤ 64 := by decide

theorem pmkLen_leap : 16 ≤ 16 ∧ 16 ≤ 64 := by decide

/-- The end of `wpa_supplicant_get_pmk()`: whether full EAP authentication has to be asked for. -/
def getPmkEnd (env : SuppEnv) (abortCached : Bool) (sm : WpaSm) : Int × WpaSm :=
  if abortCached ∧ wpaKeyMgmtWpaIeee8021x sm.keyMgmt ∧ ¬ wpaKeyMgmtSuiteB sm.keyMgmt ∧
      ¬ wpaKeyMgmtFt sm.keyMgmt ∧ sm.keyMgmt ≠ .osen then
    (if env.allocEapol then -2 else -1, sm)
  else
    (0, sm)

/-- The branch of `wpa_supplicant_get_pmk()` with a PMK from the EAPOL state machine. -/
def getPmkStore (env : SuppEnv) (pmkid : Option Bytes) (abortCached : Bool) (pmk : Pmk)
    (sm : WpaSm) : Int × WpaSm :=
  let sm := { sm with pmk := pmk }
  let sa := if sm.proto = .rsn ∧ ¬ wpaKeyMgmtSuiteB sm.keyMgmt ∧ ¬ wpaKeyMgmtFt sm.keyMgmt then
      env.pmksaCacheAdd
    else
      none
  if sm.curPmksa = none ∧ pmkid.isSome ∧ env.pmksaCacheGetAgain then
    getPmkEnd env false { sm with curPmksa := sa }
  else if sa.isSome ∧ sm.curPmksa = none ∧ pmkid.isSome then
    (-1, sm)
  else
    getPmkEnd env abortCached { sm with curPmksa := sm.curPmksa.or sa }

/-- The branch of `wpa_supplicant_get_pmk()` without a PMK from the EAPOL state machine. -/
def getPmkMissing (env : SuppEnv) (abortCached : Bool) (sm : WpaSm) : Int × WpaSm :=
  if sm.curPmksa.isSome then
    getPmkEnd env true { sm with curPmksa := none }
  else if abortCached then
    getPmkEnd env true sm
  else
    (-1, sm)

def eapolXxkey (env : SuppEnv) (sm : WpaSm) : Bytes :=
  match env.eapolGetKey 64 with
  | none => sm.xxkey
  | some source =>
    let buf := (List.range 64).map source
    if wpaKeyMgmtSha384 sm.keyMgmt then buf.take 48 else buf.drop 32

/-- The branch of `wpa_supplicant_get_pmk()` that asks the EAPOL state machine. -/
def getPmkFromEapol (env : SuppEnv) (pmkid : Option Bytes) (abortCached : Bool) (sm : WpaSm) :
    Int × WpaSm :=
  if wpaKeyMgmtSha384 sm.keyMgmt then
    match env.eapolGetKey 48 with
    | some source =>
      getPmkStore env pmkid abortCached (eapolPmk source 48 pmkLen_suiteB)
        { sm with xxkey := eapolXxkey env sm }
    | none => getPmkMissing env abortCached sm
  else
    match env.eapolGetKey 32 with
    | some source =>
      getPmkStore env pmkid abortCached (eapolPmk source 32 pmkLen_default)
        { sm with xxkey := eapolXxkey env sm }
    | none =>
      -- EAP-LEAP has a PMK of 16 octets
      match env.eapolGetKey 16 with
      | some source => getPmkStore env pmkid abortCached (eapolPmk source 16 pmkLen_leap) sm
      | none => getPmkMissing env abortCached sm

def lookupPmksa (env : SuppEnv) (pmkid : Option Bytes) (sm : WpaSm) : Bool × WpaSm :=
  match pmkid, sm.curPmksa with
  | some id, none =>
    match env.pmksaCacheGet id with
    | some sa => (false, { sm with curPmksa := some sa })
    | none => (true, sm)
  | _, _ => (false, sm)

def cachedXxkey (akmp : Akm) (pmk : Pmk) : Bytes :=
  if akmp = .ftSae ∧ pmk.octets.length = pmkLen then pmk.octets else []

/-- `wpa_supplicant_get_pmk()`. -/
def wpaSupplicantGetPmk (env : SuppEnv) (pmkid : Option Bytes) (sm : WpaSm) : Int × WpaSm :=
  let (abortCached, sm) := lookupPmksa env pmkid sm
  match sm.curPmksa with
  | some sa =>
    if pmkid = some sa.pmkid then
      getPmkEnd env abortCached { sm with pmk := sa.pmk, xxkey := cachedXxkey sm.keyMgmt sa.pmk }
    else if wpaKeyMgmtWpaIeee8021x sm.keyMgmt ∧ env.eapol then
      getPmkFromEapol env pmkid abortCached sm
    else
      getPmkEnd env abortCached sm
  | none =>
    if wpaKeyMgmtWpaIeee8021x sm.keyMgmt ∧ env.eapol then
      getPmkFromEapol env pmkid abortCached sm
    else
      getPmkEnd env abortCached sm

/-- `wpa_derive_ptk()`: the keys, and what they were derived from. -/
def wpaDerivePtk (lib : RsnLib) (anonce : Bytes) (sm : WpaSm) : Option (PtkKeys × Bytes) :=
  if wpaKeyMgmtFt sm.keyMgmt then
    (wpaDerivePtkFt lib sm.xxkey sm.snonce anonce sm.ownAddr sm.bssid sm.keyMgmt
      sm.pairwiseCipher).map fun k => (k, sm.xxkey)
  else
    (wpaPmkToPtk lib sm.pmk.octets sm.ownAddr sm.bssid sm.snonce anonce sm.keyMgmt
      sm.pairwiseCipher).map fun k => (k, sm.pmk.octets)

def swapMichael (cipher : Cipher) (tk : Bytes) : Bytes :=
  if cipher = .tkip then tk.take 16 ++ slice tk 24 8 ++ slice tk 16 8 else tk

/-- `wpa_sm_deauthenticate()`. -/
def wpaSmDeauthenticate (reason : Nat) (sm : WpaSm) : WpaSm := sm.note (.deauthenticate reason)

/-- A new SNonce, if one is due; `none` when there are no random numbers. -/
def renewSnonce (env : SuppEnv) (sm : WpaSm) : Option WpaSm :=
  if sm.renewSnonce then
    env.random.map fun nonce =>
      { sm with snonce := nonce, renewSnonce := false, drawn := sm.drawn ++ [nonce] }
  else
    some sm

/-- The Key Data of message 2/4: the own IE, with the P2P request behind it. -/
def kdeOf2of4 (env : SuppEnv) (sm : WpaSm) : Option Bytes :=
  if env.p2pKde = [] then sm.assocWpaIe else some (sm.assocWpaIe.getD [] ++ env.p2pKde)

/-- The temporary PTK is set, with the Michael keys of TKIP swapped. -/
def WpaSm.withTptk (sm : WpaSm) (keys : PtkKeys) (secret anonce : Bytes) : WpaSm :=
  { sm with
    tptk := { sm.tptk with
      kck := keys.kck, kek := keys.kek, tk := swapMichael sm.pairwiseCipher keys.tk
      origin := some (secret, anonce, sm.snonce) }
    tptkSet := true }

/-- The part of `wpa_supplicant_process_1_of_4()` after the PMK is known. -/
def reply1of4 (lib : RsnLib) (env : SuppEnv) (key : WpaEapolKey) (sm : WpaSm) : WpaSm :=
  match renewSnonce env sm with
  | none => wpaSmDeauthenticate wlanReasonUnspecified sm
  | some sm =>
    match wpaDerivePtk lib key.keyNonce sm with
    | none => wpaSmDeauthenticate wlanReasonUnspecified sm
    | some (keys, secret) =>
      let sm := sm.withTptk keys secret key.keyNonce
      match wpaSupplicantSend2of4 lib env key (kdeOf2of4 env sm) sm with
      | (false, sm) => wpaSmDeauthenticate wlanReasonUnspecified sm
      | (true, sm) => { sm with anonce := key.keyNonce }

/-- The PMKID in message 1/4; `none` when its Key Data cannot be parsed. -/
def pmkidOf1of4 (sm : WpaSm) (keyData : Bytes) : Option (Option Bytes) :=
  if sm.proto.isRsn then (wpaSupplicantParseIes keyData).map (·.pmkid) else some none

/-- `wpa_supplicant_process_1_of_4()`. -/
def wpaSupplicantProcess1of4 (lib : RsnLib) (env : SuppEnv) (key : WpaEapolKey) (keyData : Bytes)
    (sm : WpaSm) : WpaSm :=
  if ¬ env.networkCtx then
    sm
  else
    let sm := { sm with state := .fourWayHandshake }
    match pmkidOf1of4 sm keyData with
    | none => wpaSmDeauthenticate wlanReasonUnspecified sm
    | some pmkid =>
      match wpaSupplicantGetPmk env pmkid sm with
      | (-2, sm) => sm
      | (0, sm) => reply1of4 lib env key sm
      | (_, sm) => wpaSmDeauthenticate wlanReasonUnspecified sm

/-! ## Installing keys -/

def nullRsc : Bytes := zeros 8

/-- `wpa_supplicant_install_ptk()`. -/
def wpaSupplicantInstallPtk (env : SuppEnv) (key : WpaEapolKey) (sm : WpaSm) : Bool × WpaSm :=
  if sm.ptk.installed then
    (true, sm)
  else if sm.pairwiseCipher = .none then
    (true, sm)
  else if ¬ wpaCipherValidPairwise sm.pairwiseCipher then
    (false, sm)
  else if wpaCipherKeyLen sm.pairwiseCipher = 0 ∨
      wpaCipherKeyLen sm.pairwiseCipher ≠ sm.ptk.tk.length then
    (false, sm)
  else
    let rsc := if sm.proto.isRsn then nullRsc else key.keyRsc
    let sm := sm.note (.setPtk sm.ptk.origin sm.ptk.tk rsc env.setKeyPtk)
    if ¬ env.setKeyPtk then
      (false, sm)
    else
      -- the TK is not needed any more
      (true, { sm with ptk := { sm.ptk with tk := [], installed := true } })

/-- `struct wpa_gtk_data`, algorithm and RSC length apart. -/
structure WpaGtkData where
  tx : Bool
  keyidx : Nat
  gtk : Bytes
  deriving DecidableEq, Repr

/-- `wpa_supplicant_check_group_cipher()` succeeds. -/
def wpaSupplicantCheckGroupCipher (groupCipher : Cipher) (keylen maxkeylen : Nat) : Bool :=
  wpaCipherHasAlg groupCipher && keylen = wpaCipherKeyLen groupCipher &&
    wpaCipherKeyLen groupCipher ≤ maxkeylen

/-- `wpa_supplicant_install_gtk()` outside WNM-Sleep Mode. -/
def wpaSupplicantInstallGtk (env : SuppEnv) (gd : WpaGtkData) (rsc : Bytes) (sm : WpaSm) :
    Bool × WpaSm :=
  if sm.gtk = gd.gtk ∨ sm.gtkWnmSleep = gd.gtk then
    (true, sm)
  else
    let gtk := swapMichael sm.groupCipher gd.gtk
    let sm := sm.note (.setGtk gd.keyidx gtk rsc env.setKeyGtk)
    if ¬ env.setKeyGtk then (false, sm) else (true, { sm with gtk := gd.gtk })

/-- `wpa_supplicant_gtk_tx_bit_workaround()`. -/
def wpaSupplicantGtkTxBitWorkaround (sm : WpaSm) (tx : Bool) : Bool :=
  tx && sm.pairwiseCipher = .none

/-- `wpa_supplicant_rsc_relaxation()`, and the RSC it makes be used. -/
def relaxedRsc (sm : WpaSm) (rsc : Bytes) : Bytes :=
  if sm.wpaRscRelaxation ∧ wpaCipherRscLen sm.groupCipher = 6 ∧
      ((rsc.getD 5 0 ≠ 0 ∧ rsc.getD 0 0 = 0) ∨ rsc.getD 6 0 ≠ 0 ∨ rsc.getD 7 0 ≠ 0) then
    nullRsc
  else
    rsc

/-- `wpa_supplicant_key_neg_complete()`. In FT the next transition draws its SNonce here. -/
def wpaSupplicantKeyNegComplete (env : SuppEnv) (sm : WpaSm) : WpaSm :=
  let sm := { sm with state := .completed }
  if wpaKeyMgmtFt sm.keyMgmt then
    match env.randomFt with
    | some nonce => { sm with snonce := nonce, drawn := sm.drawn ++ [nonce] }
    | none => sm
  else
    sm

/-- `wpa_supplicant_pairwise_gtk()`. -/
def wpaSupplicantPairwiseGtk (env : SuppEnv) (key : WpaEapolKey) (kde : Bytes) (sm : WpaSm) :
    Bool × WpaSm :=
  if kde.length < 2 ∨ 32 < kde.length - 2 then
    (false, sm)
  else
    let gd : WpaGtkData :=
      { keyidx := (kde.getD 0 0).toNat % 4
        tx := wpaSupplicantGtkTxBitWorkaround sm ((kde.getD 0 0).toNat.testBit 2)
        gtk := kde.drop 2 }
    if sm.groupCipher = .gtkNotUsed then
      (true, wpaSupplicantKeyNegComplete env sm)
    else if ¬ wpaSupplicantCheckGroupCipher sm.groupCipher gd.gtk.length gd.gtk.length then
      (false, sm)
    else
      match wpaSupplicantInstallGtk env gd (relaxedRsc sm key.keyRsc) sm with
      | (false, sm) => (false, sm)
      | (true, sm) => (true, wpaSupplicantKeyNegComplete env sm)

/-- `wpa_supplicant_install_igtk()` outside WNM-Sleep Mode. -/
def wpaSupplicantInstallIgtk (env : SuppEnv) (kde : Bytes) (sm : WpaSm) : Bool × WpaSm :=
  let keyidx := getLe16 kde
  let igtk := slice kde 8 (wpaCipherKeyLen sm.mgmtGroupCipher)
  if sm.igtk = igtk ∨ sm.igtkWnmSleep = igtk then
    (true, sm)
  else if 4095 < keyidx then
    (false, sm)
  else
    let sm := sm.note (.setIgtk keyidx igtk env.setKeyIgtk)
    if ¬ env.setKeyIgtk then (false, sm) else (true, { sm with igtk := igtk })

/-- `ieee80211w_set_keys()`. -/
def ieee80211wSetKeys (env : SuppEnv) (ie : WpaEapolIeParse) (sm : WpaSm) : Bool × WpaSm :=
  if ¬ wpaCipherValidMgmtGroup sm.mgmtGroupCipher then
    (true, sm)
  else
    match ie.igtk with
    | none => (true, sm)
    | some kde =>
      if kde.length ≠ 8 + wpaCipherKeyLen sm.mgmtGroupCipher then
        (false, sm)
      else
        wpaSupplicantInstallIgtk env kde sm

end Hostap
