import Hostap.Supp.Sm

/-!
# Received EAPOL-Key frames

Messages 3/4 and 1/2, the verification of a frame's MIC or AES-SIV data, and
`wpa_sm_rx_eapol()` itself. The function works on a copy `tmp` of the frame: the MIC is computed
into it, and decrypted Key Data replaces the encrypted one.
-/

namespace Hostap

open Octets

/-! ## Message 3/4 -/

/-- `wpa_report_ie_mismatch()`. -/
def wpaReportIeMismatch (sm : WpaSm) : Bool × WpaSm :=
  (false, wpaSmDeauthenticate wlanReasonIeIn4wayDiffers sm)

/-- The IEs of the AP, read from the scan results when none is known. -/
def readBeaconIe (env : SuppEnv) (sm : WpaSm) : WpaSm :=
  if sm.apWpaIe = none ∧ sm.apRsnIe = none then
    match env.getBeaconIe with
    | some (wpaIe, rsnIe) => { sm with apWpaIe := wpaIe, apRsnIe := rsnIe }
    | none => sm
  else
    sm

/-- `wpa_compare_rsn_ie()` finds a difference. -/
def rsnIeDiffers (env : SuppEnv) (ft : Bool) (ie1 ie2 : Bytes) : Bool :=
  ie1 != ie2 && !(ft && env.rsnIesEqualFt ie1 ie2)

def bothDiffer (differs : Bytes → Bytes → Bool) : Option Bytes → Option Bytes → Bool
  | some a, some b => differs a b
  | _, _ => false

/-- `wpa_supplicant_validate_ie()`. -/
def wpaSupplicantValidateIe (env : SuppEnv) (ie : WpaEapolIeParse) (sm : WpaSm) : Bool × WpaSm :=
  let sm := readBeaconIe env sm
  if ie.wpaIe = none ∧ ie.rsnIe = none ∧ (sm.apWpaIe.isSome ∨ sm.apRsnIe.isSome) then
    wpaReportIeMismatch sm
  else if bothDiffer (· != ·) ie.wpaIe sm.apWpaIe ∨
      bothDiffer (rsnIeDiffers env (wpaKeyMgmtFt sm.keyMgmt)) sm.apRsnIe ie.rsnIe then
    wpaReportIeMismatch sm
  else if sm.proto = .wpa ∧ ie.rsnIe.isSome ∧ sm.apRsnIe = none ∧ sm.rsnEnabled then
    wpaReportIeMismatch sm
  else if wpaKeyMgmtFt sm.keyMgmt ∧ ¬ env.validateIeFt ie then
    (false, sm)
  else
    (true, sm)

/-- The checks of message 3/4 that do not depend on the state. -/
def check3of4 (sm : WpaSm) (key : WpaEapolKey) (ie : WpaEapolIeParse) : Bool :=
  !(ie.gtk.isSome && !key.has kiEncrKeyData) && !(ie.igtk.isSome && !key.has kiEncrKeyData) &&
    !(wpaCipherValidMgmtGroup sm.mgmtGroupCipher &&
      ie.igtk.any fun kde => kde.length != 8 + wpaCipherKeyLen sm.mgmtGroupCipher)

/-- The PTK of message 3/4, if it asks for its installation. -/
def installStep (env : SuppEnv) (key : WpaEapolKey) (sm : WpaSm) : Bool × WpaSm :=
  if key.has kiInstall then wpaSupplicantInstallPtk env key sm else (true, sm)

def gtkStep (env : SuppEnv) (key : WpaEapolKey) (ie : WpaEapolIeParse) (sm : WpaSm) :
    Bool × WpaSm :=
  let sm := { sm with state := .groupHandshake }
  if sm.groupCipher = .gtkNotUsed then
    (true, wpaSupplicantKeyNegComplete env sm)
  else
    match ie.gtk with
    | some kde => wpaSupplicantPairwiseGtk env key kde sm
    | none => (true, sm)

def suiteBPmksa (env : SuppEnv) (sm : WpaSm) : WpaSm :=
  if sm.proto = .rsn ∧ wpaKeyMgmtSuiteB sm.keyMgmt ∧ sm.curPmksa = none then
    { sm with curPmksa := env.pmksaCacheAdd }
  else
    sm

def keys3of4 (env : SuppEnv) (key : WpaEapolKey) (ie : WpaEapolIeParse) (sm : WpaSm) :
    Bool × WpaSm :=
  match installStep env key sm with
  | (false, sm) => (false, sm)
  | (true, sm) =>
    match gtkStep env key ie sm with
    | (false, sm) => (false, sm)
    | (true, sm) =>
      match ieee80211wSetKeys env ie sm with
      | (false, sm) => (false, sm)
      | (true, sm) => (true, { suiteBPmksa env sm with msg3of4Ok := true })

/-- `wpa_supplicant_process_3_of_4()` up to the label `failed`. -/
def body3of4 (lib : RsnLib) (env : SuppEnv) (key : WpaEapolKey) (keyData : Bytes) (sm : WpaSm) :
    Bool × WpaSm :=
  match wpaSupplicantParseIes keyData with
  | none => (false, sm)
  | some ie =>
    if ¬ check3of4 sm key ie then
      (false, sm)
    else
      match wpaSupplicantValidateIe env ie sm with
      | (false, sm) => (false, sm)
      | (true, sm) =>
        if sm.anonce ≠ key.keyNonce then
          (false, sm)
        else if key.keyLength ≠ wpaCipherKeyLen sm.pairwiseCipher then
          (false, sm)
        else
          match wpaSupplicantSend4of4 lib env key sm with
          | (false, sm) => (false, sm)
          | (true, sm) =>
            -- the SNonce was used and has to be renewed for the next handshake
            keys3of4 env key ie { sm with renewSnonce := true }

/-- `wpa_supplicant_process_3_of_4()`. -/
def wpaSupplicantProcess3of4 (lib : RsnLib) (env : SuppEnv) (key : WpaEapolKey) (keyData : Bytes)
    (sm : WpaSm) : WpaSm :=
  match body3of4 lib env key keyData
      { sm.note (.process3of4 sm.rxCount) with state := .fourWayHandshake } with
  | (true, sm) => sm
  | (false, sm) => wpaSmDeauthenticate wlanReasonUnspecified sm

/-! ## Message 1/2 of the group key handshake -/

/-- `wpa_supplicant_process_1_of_2_rsn()`. -/
def wpaSupplicantProcess1of2Rsn (env : SuppEnv) (key : WpaEapolKey) (keyData : Bytes) (sm : WpaSm) :
    Option WpaGtkData × WpaSm :=
  match wpaSupplicantParseIes keyData with
  | none => (none, sm)
  | some ie =>
    match ie.gtk with
    | none => (none, sm)
    | some kde =>
      if ¬ key.has kiEncrKeyData then
        (none, sm)
      else if ¬ wpaSupplicantCheckGroupCipher sm.groupCipher (kde.length - 2) (kde.length - 2) then
        (none, sm)
      else if 32 < kde.length - 2 then
        (none, sm)
      else
        let gd : WpaGtkData :=
          { keyidx := (kde.getD 0 0).toNat % 4
            tx := wpaSupplicantGtkTxBitWorkaround sm ((kde.getD 0 0).toNat.testBit 2)
            gtk := kde.drop 2 }
        -- a failure to configure the IGTK is only reported
        (some gd, (ieee80211wSetKeys env ie sm).2)

/-- The group key in a WPA frame, decrypted with RC4 or AES key wrap. -/
def decryptWpaGtk (lib : RsnLib) (sm : WpaSm) (key : WpaEapolKey) (keyData : Bytes)
    (maxkeylen : Nat) : Option Bytes :=
  if key.ver = verHmacMd5Rc4 ∧ sm.ptk.kek.length = 16 then
    if 32 < keyData.length then none
    else some (lib.rc4Skip (key.keyIv ++ sm.ptk.kek) 256 keyData)
  else if key.ver = verHmacSha1Aes then
    if maxkeylen % 8 ≠ 0 ∨ 32 < maxkeylen then none
    else lib.aesUnwrap sm.ptk.kek keyData
  else
    none

/-- `wpa_supplicant_process_1_of_2_wpa()`. -/
def wpaSupplicantProcess1of2Wpa (lib : RsnLib) (key : WpaEapolKey) (keyData : Bytes) (sm : WpaSm) :
    Option WpaGtkData :=
  if key.ver = verHmacSha1Aes ∧ keyData.length < 8 then
    none
  else
    let maxkeylen := if key.ver = verHmacSha1Aes then keyData.length - 8 else keyData.length
    if maxkeylen < key.keyLength ∨
        ¬ wpaSupplicantCheckGroupCipher sm.groupCipher key.keyLength maxkeylen then
      none
    else
      (decryptWpaGtk lib sm key keyData maxkeylen).map fun gtk =>
        { keyidx := key.keyIndex
          tx := wpaSupplicantGtkTxBitWorkaround sm (key.has kiInstall)
          gtk := gtk.take key.keyLength }

/-- The group key of message 1/2, and the state with what else was configured. -/
def gtkOf1of2 (lib : RsnLib) (env : SuppEnv) (key : WpaEapolKey) (keyData : Bytes) (sm : WpaSm) :
    Option WpaGtkData × WpaSm :=
  if sm.proto.isRsn then
    wpaSupplicantProcess1of2Rsn env key keyData sm
  else
    (wpaSupplicantProcess1of2Wpa lib key keyData sm, sm)

/-- `wpa_supplicant_process_1_of_2()` up to the label `failed`. -/
def body1of2 (lib : RsnLib) (env : SuppEnv) (key : WpaEapolKey) (keyData : Bytes) (sm : WpaSm) :
    Bool × WpaSm :=
  if ¬ sm.msg3of4Ok ∧ ¬ sm.filsCompleted then
    (false, sm)
  else
    let rekey := sm.state = .completed
    match gtkOf1of2 lib env key keyData sm with
    | (none, sm) => (false, { sm with state := .groupHandshake })
    | (some gd, sm) =>
      let sm := { sm with state := .groupHandshake }
      match wpaSupplicantInstallGtk env gd (relaxedRsc sm key.keyRsc) sm with
      | (false, sm) => (false, sm)
      | (true, sm) =>
        match wpaSupplicantSend2of2 lib env key sm with
        | (false, sm) => (false, sm)
        | (true, sm) =>
          (true, if rekey then { sm with state := .completed }
            else wpaSupplicantKeyNegComplete env sm)

/-- `wpa_supplicant_process_1_of_2()`. -/
def wpaSupplicantProcess1of2 (lib : RsnLib) (env : SuppEnv) (key : WpaEapolKey) (keyData : Bytes)
    (sm : WpaSm) : WpaSm :=
  match body1of2 lib env key keyData (sm.note (.process1of2 sm.rxCount)) with
  | (true, sm) => sm
  | (false, sm) => wpaSmDeauthenticate wlanReasonUnspecified sm

/-! ## Verification -/

/-- Computes the MIC into the copy and compares it with the one received. -/
def checkMic (lib : RsnLib) (kck : Bytes) (akmp : Akm) (ver micLen : Nat) (mic tmp : Bytes) :
    Bool × Bytes :=
  let tmp := patch tmp micOffset (zeros micLen)
  match wpaEapolKeyMic lib kck akmp ver tmp with
  | none => (false, tmp)
  | some m =>
    let tmp := patch tmp micOffset m
    (slice tmp micOffset micLen = mic, tmp)

def WpaSm.promote (sm : WpaSm) : WpaSm :=
  { sm with tptkSet := false, ptkSet := true, ptk := sm.tptk, tptk := {} }

/-- A frame was verified: its replay counter is the last one. -/
def WpaSm.acceptCounter (sm : WpaSm) (counter : Bytes) : WpaSm :=
  { sm with rxReplayCounter := counter, rxReplayCounterSet := true }

def WpaSm.micTptk (sm : WpaSm) (counter : Bytes) : WpaSm :=
  ({ sm.promote with renewSnonce := true }.acceptCounter counter).note
    (.micVerified sm.rxCount sm.tptk.kck counter)

def WpaSm.micPtk (sm : WpaSm) (counter : Bytes) : WpaSm :=
  (sm.acceptCounter counter).note (.micVerified sm.rxCount sm.ptk.kck counter)

/-- The AES-SIV data of a frame decrypted under the temporary PTK. -/
def WpaSm.sivTptk (sm : WpaSm) (counter : Bytes) : WpaSm :=
  (sm.promote.acceptCounter counter).note (.sivVerified sm.rxCount sm.tptk.kek counter)

/-- The AES-SIV data of a frame decrypted under the PTK in use. -/
def WpaSm.sivPtk (sm : WpaSm) (counter : Bytes) : WpaSm :=
  (sm.acceptCounter counter).note (.sivVerified sm.rxCount sm.ptk.kek counter)

/-- The second half of `wpa_supplicant_verify_eapol_key_mic()`: the PTK in use. -/
def verifyMicPtk (lib : RsnLib) (key : WpaEapolKey) (mic tmp : Bytes) (sm : WpaSm) :
    Option Bytes × WpaSm :=
  if sm.ptkSet then
    match checkMic lib sm.ptk.kck sm.keyMgmt key.ver sm.micLen mic tmp with
    | (true, tmp) => (some tmp, sm.micPtk key.replayCounter)
    | (false, _) => (none, sm)
  else
    (none, sm)

/-- `wpa_supplicant_verify_eapol_key_mic()`: the copy afterwards, or `none` for a failure. -/
def wpaSupplicantVerifyEapolKeyMic (lib : RsnLib) (key : WpaEapolKey) (tmp : Bytes) (sm : WpaSm) :
    Option Bytes × WpaSm :=
  let mic := slice tmp micOffset sm.micLen
  if sm.tptkSet then
    match checkMic lib sm.tptk.kck sm.keyMgmt key.ver sm.micLen mic tmp with
    | (true, tmp) => (some tmp, sm.micTptk key.replayCounter)
    | (false, tmp) => verifyMicPtk lib key mic tmp sm
  else
    verifyMicPtk lib key mic tmp sm

/-- `wpa_supp_aead_decrypt()`: the decrypted Key Data, or `none` for a failure. -/
def wpaSuppAeadDecrypt (lib : RsnLib) (key : WpaEapolKey) (keyDataLen : Nat) (tmp : Bytes)
    (sm : WpaSm) : Option Bytes × WpaSm :=
  if keyDataLen < 16 then
    (none, sm)
  else
    let aad := tmp.take (micOffset + 2)
    let data := slice tmp (micOffset + 2) keyDataLen
    if sm.tptkSet then
      match lib.aesSivDecrypt sm.tptk.kek aad data with
      | none => (none, sm)
      | some keyData => (some keyData, sm.sivTptk key.replayCounter)
    else if sm.ptkSet then
      match lib.aesSivDecrypt sm.ptk.kek aad data with
      | none => (none, sm)
      | some keyData => (some keyData, sm.sivPtk key.replayCounter)
    else
      (none, sm)

/-- `wpa_supplicant_decrypt_key_data()`. -/
def wpaSupplicantDecryptKeyData (lib : RsnLib) (sm : WpaSm) (key : WpaEapolKey) (keyData : Bytes) :
    Option Bytes :=
  if ¬ sm.ptkSet then
    none
  else if key.ver = verHmacMd5Rc4 ∧ sm.ptk.kek.length = 16 then
    some (lib.rc4Skip (key.keyIv ++ sm.ptk.kek) 256 keyData)
  else if key.ver = verHmacSha1Aes ∨ key.ver = verAes128Cmac ∨ wpaUseAesKeyWrap sm.keyMgmt then
    if keyData.length < 8 ∨ keyData.length % 8 ≠ 0 then none
    else lib.aesUnwrap sm.ptk.kek keyData
  else
    none

/-! ## Reception -/

/-- A frame whose header and lengths are in order, cut to the length in its header. -/
structure RxFrame where
  tmp : Bytes
  key : WpaEapolKey
  keyDataLen : Nat
  deriving DecidableEq, Repr

/-- The checks of `wpa_sm_rx_eapol()` on the headers and lengths of a frame; the return value
when they fail. -/
def rxHeader (sm : WpaSm) (buf : Bytes) : Except Int RxFrame :=
  let keyhdrlen := eapolKeyLen + sm.micLen + 2
  let plen := getBe16 (buf.drop 2)
  let tmp := buf.take (plen + hdrLen)
  let key := readEapolKey tmp
  let keyDataLen := getBe16 (tmp.drop (micOffset + sm.micLen))
  if buf.length < hdrLen + keyhdrlen then .error 0
  else if buf.getD 1 0 ≠ 3 then .error 0
  else if buf.length - hdrLen < plen ∨ plen < keyhdrlen then .error 0
  else if key.type ≠ 254 ∧ key.type ≠ 2 then .error 0
  else if plen - keyhdrlen < keyDataLen then .error (-1)
  else .ok ⟨tmp, key, keyDataLen⟩

/-- The Key Descriptor Version is one the negotiated AKM and ciphers allow. -/
def verAllowed (sm : WpaSm) (key : WpaEapolKey) : Bool :=
  let ver := key.ver
  if ver ≠ verHmacMd5Rc4 ∧ ver ≠ verAes128Cmac ∧ ver ≠ verHmacSha1Aes ∧
      ¬ wpaUseAkmDefined sm.keyMgmt then
    false
  else if wpaUseAkmDefined sm.keyMgmt ∧ ver ≠ verAkmDefined then
    false
  else if wpaKeyMgmtFt sm.keyMgmt then
    ver = verAes128Cmac || wpaUseAkmDefined sm.keyMgmt
  else if wpaKeyMgmtSha256 sm.keyMgmt then
    ver = verAes128Cmac || wpaUseAkmDefined sm.keyMgmt
  else if sm.pairwiseCipher = .ccmp ∧ ¬ wpaUseAkmDefined sm.keyMgmt ∧ ver ≠ verHmacSha1Aes then
    (sm.groupCipher ≠ .ccmp && !key.has kiKeyType) || ver = verAes128Cmac
  else if sm.pairwiseCipher = .gcmp ∧ ¬ wpaUseAkmDefined sm.keyMgmt ∧ ver ≠ verHmacSha1Aes then
    false
  else
    true

/-- The checks on version, replay counter and the SMK, ACK and Request flags. -/
def rxFlags (sm : WpaSm) (key : WpaEapolKey) : Bool :=
  verAllowed sm key &&
    !(sm.rxReplayCounterSet && memcmp key.replayCounter sm.rxReplayCounter != .gt) &&
    !key.has kiSmkMessage && key.has kiAck && !key.has kiRequest

/-- The frame after verification: the copy and the length of its Key Data. -/
def rxVerify (lib : RsnLib) (f : RxFrame) (sm : WpaSm) : Option Bytes × WpaSm :=
  if f.key.has kiMic then
    wpaSupplicantVerifyEapolKeyMic lib f.key f.tmp sm
  else
    (some f.tmp, sm)

/-- The Key Data in the clear: AES-SIV without a MIC field, RC4 or AES key wrap in RSN. -/
def rxKeyData (lib : RsnLib) (f : RxFrame) (tmp : Bytes) (sm : WpaSm) : Option Bytes × WpaSm :=
  let keyData := slice tmp (micOffset + sm.micLen + 2) f.keyDataLen
  if ¬ f.key.has kiEncrKeyData then
    (some keyData, sm)
  else if sm.micLen = 0 then
    wpaSuppAeadDecrypt lib f.key f.keyDataLen tmp sm
  else if sm.proto.isRsn then
    -- only Key Data of an authentic frame is decrypted
    if ¬ f.key.has kiMic then (none, sm)
    else (wpaSupplicantDecryptKeyData lib sm f.key keyData, sm)
  else
    (some keyData, sm)

def rxDispatch (lib : RsnLib) (env : SuppEnv) (key : WpaEapolKey) (keyData : Bytes) (sm : WpaSm) :
    Int × WpaSm :=
  if key.has kiKeyType then
    if key.keyIndex ≠ 0 then
      (-1, sm)
    else if key.has kiMic ∨ key.has kiEncrKeyData then
      (1, wpaSupplicantProcess3of4 lib env key keyData sm)
    else
      (1, wpaSupplicantProcess1of4 lib env key keyData sm)
  else if (sm.micLen ≠ 0 ∧ key.has kiMic) ∨ (sm.micLen = 0 ∧ key.has kiEncrKeyData) then
    (1, wpaSupplicantProcess1of2 lib env key keyData sm)
  else
    (1, sm)

/-- `wpa_sm_rx_eapol()` on a frame with its headers in order. -/
def rxKey (lib : RsnLib) (env : SuppEnv) (f : RxFrame) (sm : WpaSm) : Int × WpaSm :=
  if ¬ rxFlags sm f.key then
    (-1, sm)
  else
    match rxVerify lib f sm with
    | (none, sm) => (-1, sm)
    | (some tmp, sm) =>
      match rxKeyData lib f tmp sm with
      | (none, sm) => (-1, sm)
      | (some keyData, sm) => rxDispatch lib env f.key keyData sm

def WpaSm.received (sm : WpaSm) : WpaSm := { sm with rxCount := sm.rxCount + 1 }

/-- `wpa_sm_rx_eapol()`: the return value and the state. -/
def wpaSmRxEapol (lib : RsnLib) (env : SuppEnv) (buf : Bytes) (sm : WpaSm) : Int × WpaSm :=
  let sm := sm.received
  match rxHeader sm buf with
  | .error ret => (ret, sm)
  | .ok f => rxKey lib env f sm

end Hostap
