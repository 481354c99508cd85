import Hostap.Lib.Octets

/-!
# EAPOL-Key frames and pairwise keys

What supplicant and authenticator share: `src/common/wpa_common.c`, the layout of
`struct wpa_eapol_key` behind an IEEE 802.1X header, and the flags of its Key Information field.
One AKM, one pairwise and one group cipher are negotiated, so the bit fields of `defs.h` are
enumerations here and the tests on them are functions of one value.

The keyed hashes, PRFs and ciphers of `src/crypto` are parameters (`RsnLib`). The FT key hierarchy
(`wpa_derive_pmk_r0()`, `wpa_derive_pmk_r1()`, `wpa_pmk_r1_to_ptk()`) is one of them.
-/

namespace Hostap

open Octets

/-! ## Negotiated parameters -/

/-- `WPA_KEY_MGMT_*`. -/
inductive Akm
  | ieee8021x
  | psk
  | none
  | ieee8021xNoWpa
  | wpaNone
  | ftIeee8021x
  | ftPsk
  | ieee8021xSha256
  | pskSha256
  | wps
  | sae
  | ftSae
  | wapiPsk
  | wapiCert
  | cckm
  | osen
  | ieee8021xSuiteB
  | ieee8021xSuiteB192
  | filsSha256
  | filsSha384
  | ftFilsSha256
  | ftFilsSha384
  | owe
  | dpp
  | ftIeee8021xSha384
  deriving DecidableEq, Repr

/-- `WPA_CIPHER_*`. -/
inductive Cipher
  | none
  | wep40
  | wep104
  | tkip
  | ccmp
  | aes128Cmac
  | gcmp
  | sms4
  | gcmp256
  | ccmp256
  | bipGmac128
  | bipGmac256
  | bipCmac256
  | gtkNotUsed
  deriving DecidableEq, Repr

/-- `WPA_PROTO_*`. -/
inductive Proto
  | wpa
  | rsn
  | osen
  deriving DecidableEq, Repr

/-- The test `proto == WPA_PROTO_RSN || proto == WPA_PROTO_OSEN`. -/
def Proto.isRsn : Proto → Bool
  | .wpa => false
  | .rsn | .osen => true

/-- `wpa_key_mgmt_wpa_ieee8021x()`. -/
def wpaKeyMgmtWpaIeee8021x : Akm → Bool
  | .ieee8021x | .ftIeee8021x | .ftIeee8021xSha384 | .cckm | .osen | .ieee8021xSha256
  | .ieee8021xSuiteB | .ieee8021xSuiteB192 | .filsSha256 | .filsSha384 | .ftFilsSha256
  | .ftFilsSha384 => true
  | _ => false

/-- `wpa_key_mgmt_wpa_psk()`. -/
def wpaKeyMgmtWpaPsk : Akm → Bool
  | .psk | .ftPsk | .pskSha256 | .sae | .ftSae => true
  | _ => false

/-- `wpa_key_mgmt_ft()`. -/
def wpaKeyMgmtFt : Akm → Bool
  | .ftPsk | .ftIeee8021x | .ftIeee8021xSha384 | .ftSae | .ftFilsSha256 | .ftFilsSha384 => true
  | _ => false

/-- `wpa_key_mgmt_sae()`. -/
def wpaKeyMgmtSae : Akm → Bool
  | .sae | .ftSae => true
  | _ => false

/-- `wpa_key_mgmt_fils()`. -/
def wpaKeyMgmtFils : Akm → Bool
  | .filsSha256 | .filsSha384 | .ftFilsSha256 | .ftFilsSha384 => true
  | _ => false

/-- `wpa_key_mgmt_sha256()`. -/
def wpaKeyMgmtSha256 : Akm → Bool
  | .pskSha256 | .ieee8021xSha256 | .sae | .ftSae | .osen | .ieee8021xSuiteB | .filsSha256
  | .ftFilsSha256 => true
  | _ => false

/-- `wpa_key_mgmt_sha384()`. -/
def wpaKeyMgmtSha384 : Akm → Bool
  | .ieee8021xSuiteB192 | .ftIeee8021xSha384 | .filsSha384 | .ftFilsSha384 => true
  | _ => false

/-- `wpa_key_mgmt_suite_b()`. -/
def wpaKeyMgmtSuiteB : Akm → Bool
  | .ieee8021xSuiteB | .ieee8021xSuiteB192 => true
  | _ => false

/-- `wpa_kck_len()`. -/
def wpaKckLen (akmp : Akm) (pmkLen : Nat) : Nat :=
  match akmp with
  | .ieee8021xSuiteB192 | .ftIeee8021xSha384 => 24
  | .filsSha256 | .ftFilsSha256 | .filsSha384 | .ftFilsSha384 => 0
  | .dpp | .owe => pmkLen / 2
  | _ => 16

/-- `wpa_kek_len()`. -/
def wpaKekLen (akmp : Akm) (pmkLen : Nat) : Nat :=
  match akmp with
  | .filsSha384 | .ftFilsSha384 => 64
  | .ieee8021xSuiteB192 | .filsSha256 | .ftFilsSha256 | .ftIeee8021xSha384 => 32
  | .dpp | .owe => if pmkLen ≤ 32 then 16 else 32
  | _ => 16

/-- `wpa_mic_len()`. -/
def wpaMicLen (akmp : Akm) (pmkLen : Nat) : Nat :=
  match akmp with
  | .ieee8021xSuiteB192 | .ftIeee8021xSha384 => 24
  | .filsSha256 | .filsSha384 | .ftFilsSha256 | .ftFilsSha384 => 0
  | .dpp | .owe => pmkLen / 2
  | _ => 16

/-- `wpa_use_akm_defined()`. -/
def wpaUseAkmDefined (akmp : Akm) : Bool :=
  akmp = .osen || akmp = .owe || akmp = .dpp || akmp = .ftIeee8021xSha384 ||
    wpaKeyMgmtSae akmp || wpaKeyMgmtSuiteB akmp || wpaKeyMgmtFils akmp

/-- `wpa_use_aes_key_wrap()`. -/
def wpaUseAesKeyWrap (akmp : Akm) : Bool :=
  akmp = .osen || akmp = .owe || akmp = .dpp || wpaKeyMgmtFt akmp || wpaKeyMgmtSha256 akmp ||
    wpaKeyMgmtSae akmp || wpaKeyMgmtSuiteB akmp

/-- `wpa_cipher_key_len()`. -/
def wpaCipherKeyLen : Cipher → Nat
  | .ccmp256 | .gcmp256 | .bipGmac256 | .bipCmac256 => 32
  | .ccmp | .gcmp | .aes128Cmac | .bipGmac128 => 16
  | .tkip => 32
  | _ => 0

/-- `wpa_cipher_to_alg()` finds an algorithm. -/
def wpaCipherHasAlg : Cipher → Bool
  | .ccmp256 | .gcmp256 | .ccmp | .gcmp | .tkip | .aes128Cmac | .bipGmac128 | .bipGmac256
  | .bipCmac256 => true
  | _ => false

/-- `wpa_cipher_rsc_len()`. -/
def wpaCipherRscLen : Cipher → Nat
  | .ccmp256 | .gcmp256 | .ccmp | .gcmp | .tkip => 6
  | _ => 0

/-- `wpa_cipher_valid_pairwise()`. -/
def wpaCipherValidPairwise : Cipher → Bool
  | .ccmp256 | .gcmp256 | .ccmp | .gcmp | .tkip => true
  | _ => false

/-- `wpa_cipher_valid_mgmt_group()`. -/
def wpaCipherValidMgmtGroup : Cipher → Bool
  | .aes128Cmac | .bipGmac128 | .bipGmac256 | .bipCmac256 => true
  | _ => false

/-! ## Crypto -/

/-- The three keys a PTK is cut into. -/
structure PtkKeys where
  kck : Bytes
  kek : Bytes
  tk : Bytes
  deriving DecidableEq, Repr

/-- Keyed hashes, PRFs and ciphers. A decryption that detects a forgery returns `none`. -/
structure RsnLib where
  hmacMd5 : Bytes → Bytes → Bytes
  hmacSha1 : Bytes → Bytes → Bytes
  hmacSha256 : Bytes → Bytes → Bytes
  hmacSha384 : Bytes → Bytes → Bytes
  hmacSha512 : Bytes → Bytes → Bytes
  omac1Aes128 : Bytes → Bytes → Bytes
  /-- The PRFs, by key, label, data and length of the output. -/
  sha1Prf : Bytes → String → Bytes → Nat → Bytes
  /-- See `sha1Prf`. -/
  sha256Prf : Bytes → String → Bytes → Nat → Bytes
  /-- See `sha1Prf`. -/
  sha384Prf : Bytes → String → Bytes → Nat → Bytes
  /-- See `sha1Prf`. -/
  sha512Prf : Bytes → String → Bytes → Nat → Bytes
  /-- `aes_wrap()` and `aes_unwrap()`, by key and data. -/
  aesWrap : Bytes → Bytes → Bytes
  aesUnwrap : Bytes → Bytes → Option Bytes
  /-- `rc4_skip()`, by key, octets to skip and data. -/
  rc4Skip : Bytes → Nat → Bytes → Bytes
  /-- `aes_siv_encrypt()` and `aes_siv_decrypt()`, by key, additional data and data. -/
  aesSivEncrypt : Bytes → Bytes → Bytes → Bytes
  aesSivDecrypt : Bytes → Bytes → Bytes → Option Bytes
  /-- The PTK of the FT hierarchy of a given length, by XXKey, SNonce, ANonce, station address
  and BSSID. -/
  ftKdf : Akm → (xxkey snonce anonce sta bssid : Bytes) → Nat → Option Bytes

/-- `WPA_KEY_INFO_TYPE_*`: the values of the Key Descriptor Version. -/
def verAkmDefined : Nat := 0
def verHmacMd5Rc4 : Nat := 1
def verHmacSha1Aes : Nat := 2
def verAes128Cmac : Nat := 3

/-- `wpa_eapol_key_mic()`: the octets written to the MIC field. -/
def wpaEapolKeyMic (lib : RsnLib) (kck : Bytes) (akmp : Akm) (ver : Nat) (buf : Bytes) :
    Option Bytes :=
  if kck.length = 0 then
    none
  else
    match ver with
    | 1 => some (lib.hmacMd5 kck buf)
    | 2 => some ((lib.hmacSha1 kck buf).take 16)
    | 3 => some (lib.omac1Aes128 kck buf)
    | 0 =>
      match akmp with
      | .sae | .ftSae | .osen => some (lib.omac1Aes128 kck buf)
      | .ieee8021xSuiteB => some ((lib.hmacSha256 kck buf).take 16)
      | .ieee8021xSuiteB192 | .ftIeee8021xSha384 => some ((lib.hmacSha384 kck buf).take 24)
      | .owe | .dpp =>
        if kck.length = 16 then some ((lib.hmacSha256 kck buf).take 16)
        else if kck.length = 24 then some ((lib.hmacSha384 kck buf).take 24)
        else if kck.length = 32 then some ((lib.hmacSha512 kck buf).take 32)
        else none
      | _ => none
    | _ => none

/-- The smaller of two buffers first, as both the addresses and the nonces go into the PRF. -/
def minMax (a b : Bytes) : Bytes := if memcmp a b = .lt then a ++ b else b ++ a

/-- The keys in the order they are cut out of the octets a PRF gives. -/
def cutPtk (tmp : Bytes) (kckLen kekLen tkLen : Nat) : PtkKeys :=
  ⟨tmp.take kckLen, slice tmp kckLen kekLen, slice tmp (kckLen + kekLen) tkLen⟩

/-- The PRF `wpa_pmk_to_ptk()` uses for an AKM and a PMK of the given length. -/
def ptkPrf (lib : RsnLib) (akmp : Akm) (pmkLen : Nat) :
    Option (Bytes → String → Bytes → Nat → Bytes) :=
  if wpaKeyMgmtSha384 akmp then some lib.sha384Prf
  else if wpaKeyMgmtSha256 akmp || akmp = .owe then some lib.sha256Prf
  else if akmp = .dpp then
    if pmkLen = 32 then some lib.sha256Prf
    else if pmkLen = 48 then some lib.sha384Prf
    else if pmkLen = 64 then some lib.sha512Prf
    else none
  else some lib.sha1Prf

/-- `wpa_pmk_to_ptk()` with the label both callers use. -/
def wpaPmkToPtk (lib : RsnLib) (pmk addr1 addr2 nonce1 nonce2 : Bytes) (akmp : Akm)
    (cipher : Cipher) : Option PtkKeys :=
  if pmk.length = 0 then
    none
  else if wpaCipherKeyLen cipher = 0 then
    none
  else
    let kckLen := wpaKckLen akmp pmk.length
    let kekLen := wpaKekLen akmp pmk.length
    let tkLen := wpaCipherKeyLen cipher
    (ptkPrf lib akmp pmk.length).map fun prf =>
      cutPtk (prf pmk "Pairwise key expansion" (minMax addr1 addr2 ++ minMax nonce1 nonce2)
        (kckLen + kekLen + tkLen)) kckLen kekLen tkLen

/-- `PMK_LEN`. -/
def pmkLen : Nat := 32

/-- `PMK_LEN_MAX`. -/
def pmkLenMax : Nat := 64

/-- The end of `wpa_derive_ptk_ft()`: the PTK of the FT hierarchy, if there is an XXKey. The
second KCK and KEK of FT-FILS follow the TK and are not used in EAPOL-Key frames. -/
def wpaDerivePtkFt (lib : RsnLib) (xxkey snonce anonce sta bssid : Bytes) (akmp : Akm)
    (cipher : Cipher) : Option PtkKeys :=
  if xxkey.length = 0 then
    none
  else
    let kckLen := wpaKckLen akmp pmkLen
    let kekLen := wpaKekLen akmp pmkLen
    let tkLen := wpaCipherKeyLen cipher
    (lib.ftKdf akmp xxkey snonce anonce sta bssid (kckLen + kekLen + tkLen)).map fun tmp =>
      cutPtk tmp kckLen kekLen tkLen

/-- A pairwise master key: none is set, or it has a length some AKM gives it. -/
structure Pmk where
  octets : Bytes
  /-- `PMK_LEN_MAX` bounds it, and EAP-LEAP has the shortest one. -/
  length_ok : octets.length = 0 ∨ 16 ≤ octets.length ∧ octets.length ≤ 64
  deriving DecidableEq

/-! ## Frames -/

def be16 (n : Nat) : Bytes := [UInt8.ofNat (n / 256), UInt8.ofNat n]

/-- Overwrites the octets from offset `off` on. -/
def patch (buf : Bytes) (off : Nat) (val : Bytes) : Bytes :=
  buf.take off ++ val ++ buf.drop (off + val.length)

/-- `struct wpa_eapol_key`. -/
structure WpaEapolKey where
  type : UInt8
  keyInfo : Nat
  keyLength : Nat
  replayCounter : Bytes
  keyNonce : Bytes
  keyIv : Bytes := zeros 16
  keyRsc : Bytes := zeros 8
  keyId : Bytes := zeros 8
  deriving DecidableEq, Repr

/-- `sizeof(struct ieee802_1x_hdr)`. -/
def hdrLen : Nat := 4

/-- `sizeof(struct wpa_eapol_key)`. -/
def eapolKeyLen : Nat := 77

def micOffset : Nat := hdrLen + eapolKeyLen

/-- The fixed part of an EAPOL-Key frame, read behind the IEEE 802.1X header. -/
def readEapolKey (buf : Bytes) : WpaEapolKey where
  type := buf.getD 4 0
  keyInfo := getBe16 (buf.drop 5)
  keyLength := getBe16 (buf.drop 7)
  replayCounter := slice buf 9 8
  keyNonce := slice buf 17 32
  keyIv := slice buf 49 16
  keyRsc := slice buf 65 8
  keyId := slice buf 73 8

def WpaEapolKey.encode (key : WpaEapolKey) : Bytes :=
  [key.type] ++ be16 key.keyInfo ++ be16 key.keyLength ++ key.replayCounter ++ key.keyNonce ++
    key.keyIv ++ key.keyRsc ++ key.keyId

/-- `EAPOL_KEY_TYPE_RSN` and `EAPOL_KEY_TYPE_WPA`, as a sender picks them. -/
def eapolKeyType (proto : Proto) : UInt8 := if proto.isRsn then 2 else 254

def eapolKeyFrame (version : UInt8) (key : WpaEapolKey) (micLen : Nat) (keyData : Bytes) : Bytes :=
  [version, 3] ++ be16 (eapolKeyLen + micLen + 2 + keyData.length) ++ key.encode ++
    zeros micLen ++ be16 keyData.length ++ keyData

/-- Flags of the Key Information field (`WPA_KEY_INFO_*`), by their bit numbers. -/
def kiKeyType : Nat := 3
def kiInstall : Nat := 6
def kiAck : Nat := 7
def kiMic : Nat := 8
def kiSecure : Nat := 9
def kiError : Nat := 10
def kiRequest : Nat := 11
def kiEncrKeyData : Nat := 12
def kiSmkMessage : Nat := 13

def WpaEapolKey.has (key : WpaEapolKey) (bit : Nat) : Bool := key.keyInfo.testBit bit

/-- `key_info & WPA_KEY_INFO_TYPE_MASK`. -/
def WpaEapolKey.ver (key : WpaEapolKey) : Nat := key.keyInfo % 8

/-- `key_info & WPA_KEY_INFO_KEY_INDEX_MASK`, shifted down. -/
def WpaEapolKey.keyIndex (key : WpaEapolKey) : Nat := key.keyInfo / 16 % 4

/-- A Key Information field made of a version, a key index and flags. -/
def keyInfoOf (ver keyIndex : Nat) (flags : List Nat) : Nat :=
  flags.foldl (fun acc bit => acc ||| 2 ^ bit) (ver + 16 * keyIndex)

/-- A pairwise transient key (`struct wpa_ptk`); the lengths are those of the octet strings.
`origin` is not in the source: it says which PMK, ANonce and SNonce the keys were derived from. -/
structure WpaPtk where
  kck : Bytes := []
  kek : Bytes := []
  tk : Bytes := []
  installed : Bool := false
  origin : Option (Bytes × Bytes × Bytes) := none
  deriving DecidableEq, Repr

end Hostap
