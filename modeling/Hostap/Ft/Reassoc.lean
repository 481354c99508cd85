import Hostap.Ft.Ies
import Hostap.Ft.Rrb
import Hostap.Lib.Run
import Hostap.Rsn.SmallLib

/-!
# FT Authentication and Reassociation

`wpa_ft_process_auth_req()` and `wpa_ft_validate_reassoc()` of `src/ap/wpa_auth_ft.c` for one station.
An FT Authentication request names a PMK-R0 and brings an SNonce. If the AP gets at the PMK-R1 it draws
an ANonce and derives the PTK; the Reassociation Request then repeats the names and the nonces, with a
MIC under the KCK.

The request is taken in piece by piece: the SNonce and the R0KH-ID are in the state machine before it
is known whether there is a PMK-R1, while PTK, ANonce and PMKR1Name are from the last request that had
one. `pmk_r1_name_valid` says so and is not looked at when the station reassociates. `unfinished` is
the ghost of what it could have said: the last request whose SNonce was taken has not derived a PTK.

The second thing to go wrong is a PMK-R1 that is derived from a PMK-R0 of the local cache. Its length
and its name are those of the hash the PMK-R0 was made with, while the request is answered with those
of the hash of its own AKM (`HashMatches`).
-/

namespace Hostap

open Octets List

/-! ## Key hierarchy -/

/-- `"FT-R0N"`. -/
def labelR0Name : Bytes := [0x46, 0x54, 0x2d, 0x52, 0x30, 0x4e]

/-- `"FT-R1N"`. -/
def labelR1Name : Bytes := [0x46, 0x54, 0x2d, 0x52, 0x31, 0x4e]

/-- `"FT-PTKN"`. -/
def labelPtkName : Bytes := [0x46, 0x54, 0x2d, 0x50, 0x54, 0x4b, 0x4e]

/-- `SHA384_MAC_LEN` or `PMK_LEN`. -/
def ftKeyLen (useSha384 : Bool) : Nat := if useSha384 then 48 else 32

def ftPrf (lib : FtLib) (useSha384 : Bool) : Bytes → String → Bytes → Nat → Option Bytes :=
  if useSha384 then lib.sha384Prf else lib.sha256Prf

def ftHash (lib : FtLib) (useSha384 : Bool) : Bytes → Option Bytes :=
  if useSha384 then lib.sha384Vector else lib.sha256Vector

/-- `wpa_derive_pmk_r0()`: the key and its name. -/
def wpaDerivePmkR0 (lib : FtLib) (xxkey ssid mdid r0khId s0khId : Bytes) (useSha384 : Bool) :
    Option (Bytes × Bytes) :=
  if 32 < ssid.length ∨ 48 < r0khId.length then
    none
  else if xxkey.length ≠ ftKeyLen useSha384 then
    none
  else do
    let buf := [UInt8.ofNat ssid.length] ++ ssid ++ mdid ++ [UInt8.ofNat r0khId.length] ++ r0khId ++
      s0khId
    let q := ftKeyLen useSha384
    let r0KeyData ← ftPrf lib useSha384 xxkey "FT-R0" buf (q + 16)
    let hash ← ftHash lib useSha384 (labelR0Name ++ slice r0KeyData q 16)
    return (r0KeyData.take q, hash.take 16)

/-- `wpa_derive_pmk_r1_name()`. -/
def wpaDerivePmkR1Name (lib : FtLib) (pmkR0Name r1khId s1khId : Bytes) (useSha384 : Bool) :
    Option Bytes :=
  (ftHash lib useSha384 (labelR1Name ++ pmkR0Name ++ r1khId ++ s1khId)).map (List.take 16)

/-- `wpa_derive_pmk_r1()`: the length of the PMK-R0 decides on the hash. -/
def wpaDerivePmkR1 (lib : FtLib) (pmkR0 pmkR0Name r1khId s1khId : Bytes) : Option (Bytes × Bytes) :=
  if pmkR0.length = 48 ∨ pmkR0.length = 32 then do
    let useSha384 : Bool := pmkR0.length = 48
    let pmkR1 ← ftPrf lib useSha384 pmkR0 "FT-R1" (r1khId ++ s1khId) (ftKeyLen useSha384)
    let name ← wpaDerivePmkR1Name lib pmkR0Name r1khId s1khId useSha384
    return (pmkR1, name)
  else
    none

/-- `struct wpa_ptk`: the buffers and how much of each is used. -/
structure FtPtk where
  kck : Bytes := zeros 32
  kek : Bytes := zeros 64
  tk : Bytes := zeros 32
  kck2 : Bytes := zeros 32
  kek2 : Bytes := zeros 64
  kckLen : Nat := 0
  kekLen : Nat := 0
  tkLen : Nat := 0
  kck2Len : Nat := 0
  kek2Len : Nat := 0
  deriving DecidableEq

/-- `wpa_kck2_len()`. -/
def wpaKck2Len : Akm → Nat
  | .ftFilsSha256 => 16
  | .ftFilsSha384 => 24
  | _ => 0

/-- `wpa_kek2_len()`. -/
def wpaKek2Len : Akm → Nat
  | .ftFilsSha256 => 16
  | .ftFilsSha384 => 32
  | _ => 0

/-- The lengths `wpa_pmk_r1_to_ptk()` writes before it derives anything. -/
def FtPtk.setLens (ptk : FtPtk) (akmp : Akm) (cipher : Option Cipher) : FtPtk :=
  { ptk with
    kckLen := wpaKckLen akmp pmkLen
    kck2Len := wpaKck2Len akmp
    kekLen := wpaKekLen akmp pmkLen
    kek2Len := wpaKek2Len akmp
    tkLen := cipher.elim 0 wpaCipherKeyLen }

/-- The keys are cut out of the octets the PRF gives. The last offset starts again from the length of
the second KCK, as in the source. -/
def FtPtk.setKeys (ptk : FtPtk) (tmp : Bytes) : FtPtk :=
  { ptk with
    kck := overwrite 0 (tmp.take ptk.kckLen) ptk.kck
    kek := overwrite 0 (slice tmp ptk.kckLen ptk.kekLen) ptk.kek
    tk := overwrite 0 (slice tmp (ptk.kckLen + ptk.kekLen) ptk.tkLen) ptk.tk
    kck2 := overwrite 0 (slice tmp (ptk.kckLen + ptk.kekLen + ptk.tkLen) ptk.kck2Len) ptk.kck2
    kek2 := overwrite 0 (slice tmp ptk.kck2Len ptk.kek2Len) ptk.kek2 }

/-- `wpa_pmk_r1_to_ptk()`: what becomes of the PTK, and whether it was derived. The PTKName is not
used. -/
def wpaPmkR1ToPtk (lib : FtLib) (pmkR1 snonce anonce staAddr bssid pmkR1Name : Bytes) (akmp : Akm)
    (cipher : Option Cipher) (ptk : FtPtk) : FtPtk × Bool :=
  let useSha384 := wpaKeyMgmtSha384 akmp
  let ptk := ptk.setLens akmp cipher
  let len := ptk.kckLen + ptk.kekLen + ptk.tkLen + ptk.kck2Len + ptk.kek2Len
  if pmkR1.length ≠ ftKeyLen useSha384 then
    (ptk, false)
  else
    match ftPrf lib useSha384 pmkR1 "FT-PTK" (snonce ++ anonce ++ bssid ++ staAddr) len with
    | none => (ptk, false)
    | some tmp =>
      match lib.sha256Vector (pmkR1Name ++ labelPtkName ++ snonce ++ anonce ++ bssid ++ staAddr) with
      | none => (ptk, false)
      | some _ => (ptk.setKeys tmp, true)

/-! ## State -/

/-- What is configured for a station along with its keys. -/
structure FtSession where
  vlan : Option VlanDescription := none
  identity : Option Bytes := none
  radiusCui : Option Bytes := none
  /-- When the session ends; zero if it does not. -/
  sessionTimeout : Int := 0

/-- `struct wpa_ft_pmk_r0_sa`; the length of the key is that of `pmkR0`. -/
structure PmkR0Sa where
  pmkR0 : Bytes
  pmkR0Name : Bytes
  spa : Bytes
  pairwise : Option Cipher
  session : FtSession := {}

/-- `struct wpa_ft_pmk_r1_sa`; the length of the key is that of `pmkR1`. -/
structure PmkR1Sa where
  pmkR1 : Bytes
  pmkR1Name : Bytes
  spa : Bytes
  pairwise : Option Cipher
  session : FtSession := {}

/-- `struct wpa_ft_pmk_cache`, and the PSKs `wpa_ft_get_psk()` gives one after the other. -/
structure FtKeys where
  r0 : List PmkR0Sa := []
  r1 : List PmkR1Sa := []
  psks : List Bytes := []

/-- What is read of `struct wpa_auth_config`, with the address of the AP. `rsnIe` is
`wpa_write_rsn_ie()` for a PMKID. -/
structure FtConf where
  addr : Bytes
  ssid : Bytes
  mobilityDomain : Bytes
  r0KeyHolder : Bytes
  r1KeyHolder : Bytes
  wpaKeyMgmt : List Akm
  rsnPairwise : List Cipher
  ftPskGenerateLocal : Bool
  ftOverDs : Bool
  rsnIe : Bytes → Option Bytes

/-- A PTK that was derived, and what it was derived from. -/
structure FtDerivation where
  pmkR1 : Bytes
  pmkR1Name : Bytes
  aNonce : Bytes
  sNonce : Bytes
  r0khId : Bytes
  akmp : Akm
  cipher : Option Cipher
  ptk : FtPtk

/-- `struct wpa_state_machine`, as far as FT uses it. `derived` and `unfinished` are not in the source:
the PTKs that were derived, newest first, and whether the last request whose SNonce was taken has not
got as far. -/
structure FtSm where
  addr : Bytes
  pmkR1NameValid : Bool := false
  pmkR1Name : Bytes := zeros 16
  sNonce : Bytes := zeros 32
  aNonce : Bytes := zeros 32
  r0khId : Bytes := []
  wpaKeyMgmt : Option Akm := none
  pairwise : Option Cipher := none
  ptk : FtPtk := {}
  ptkValid : Bool := false
  tkAlreadySet : Bool := false
  pairwiseSet : Bool := false
  derived : List FtDerivation := []
  unfinished : Bool := false

/-- `wpa_key_mgmt`, where zero tests like an AKM that is none of FT, FILS and SHA384. -/
def FtSm.akmp (sm : FtSm) : Akm := sm.wpaKeyMgmt.getD .none

/-- The AP as one station sees it. `held` is not in the source: every key there ever was. -/
structure FtAp where
  sm : FtSm
  keys : FtKeys := {}
  held : FtKeys := {}

/-- What a request gets from outside. -/
structure FtAuthEnv where
  /-- The clock, in seconds. -/
  now : Int := 0
  /-- What the buffer for the PMK-R1 holds before it is written. -/
  stack : Bytes := zeros 64
  /-- What is configured for a station whose key comes from a PSK; none if there is no VLAN. -/
  staSession : Option FtSession := some {}
  /-- An entry for the PMK-R1 cache can be allocated. -/
  storeOk : Bool := true
  /-- `wpa_ft_pull_pmk_r1()` has sent a request to the R0KH. -/
  pullSent : Bool := false
  /-- What is written to the ANonce, and whether `random_get_bytes()` succeeds. -/
  aNonce : Bytes
  randomOk : Bool := true
  setKeyOk : Bool := true
  setVlanOk : Bool := true
  setIdentityOk : Bool := true
  setRadiusCuiOk : Bool := true
  /-- The response can be allocated. -/
  respAlloc : Bool := true

/-- `WLAN_STATUS_*`. -/
inductive WlanStatus
  | success
  | unspecifiedFailure
  | invalidPmkid
  | invalidMdie
  | invalidFtie
  deriving DecidableEq

/-- The result of an FT Authentication request; `resp_ies` with `success`. -/
inductive FtAuthResult
  | success (respIes : Bytes)
  | failure (status : WlanStatus)
  | pending

/-! ## Requests -/

/-- `wpa_pick_pairwise_cipher()` with no cipher not allowed. -/
def wpaPickPairwiseCipher (ciphers : List Cipher) : Option Cipher :=
  [Cipher.ccmp256, .gcmp256, .ccmp, .gcmp, .tkip].find? (· ∈ ciphers)

/-- `wpa_ft_set_key_mgmt()`: the state machine, and whether the request can be served. -/
def wpaFtSetKeyMgmt (conf : FtConf) (parse : WpaFtIes) (sm : FtSm) : FtSm × Bool :=
  if sm.wpaKeyMgmt.isSome then
    (sm, true)
  else
    let keyMgmt := parse.keyMgmt.filter (· ∈ conf.wpaKeyMgmt)
    if keyMgmt = [] then
      (sm, false)
    else
      let sm := { sm with
        wpaKeyMgmt := [Akm.ftIeee8021x, .ftIeee8021xSha384, .ftPsk, .ftFilsSha256, .ftFilsSha384].find?
          (· ∈ keyMgmt) }
      let ciphers := parse.pairwiseCipher.filter (· ∈ conf.rsnPairwise)
      if ciphers = [] then (sm, false) else ({ sm with pairwise := wpaPickPairwiseCipher ciphers }, true)

/-- `wpa_ft_fetch_pmk_r0()`. -/
def wpaFtFetchPmkR0 (keys : FtKeys) (spa pmkR0Name : Bytes) : Option PmkR0Sa :=
  keys.r0.find? fun r0 => r0.spa = spa ∧ r0.pmkR0Name = pmkR0Name

/-- `wpa_ft_fetch_pmk_r1()`: the entry, with the time that is left of the session. -/
def wpaFtFetchPmkR1 (keys : FtKeys) (spa pmkR1Name : Bytes) (now : Int) : Option PmkR1Sa :=
  (keys.r1.find? fun r1 => r1.spa = spa ∧ r1.pmkR1Name = pmkR1Name).map fun r1 =>
    let timeout := r1.session.sessionTimeout
    { r1 with session.sessionTimeout :=
        if now < timeout then timeout - now else if timeout ≠ 0 then 1 else 0 }

/-- The PMK-R1 of a PSK and its name, as the loop of `wpa_ft_psk_pmk_r1()` derives them. -/
def pskPmkR1 (lib : FtLib) (conf : FtConf) (r0khId addr psk : Bytes) : Option (Bytes × Bytes) :=
  match wpaDerivePmkR0 lib (psk.take pmkLen) conf.ssid conf.mobilityDomain r0khId addr false with
  | none => none
  | some (pmkR0, pmkR0Name) => wpaDerivePmkR1 lib pmkR0 pmkR0Name conf.r1KeyHolder addr

/-- `wpa_ft_psk_pmk_r1()`. -/
def wpaFtPskPmkR1 (lib : FtLib) (conf : FtConf) (env : FtAuthEnv) (keys : FtKeys) (sm : FtSm)
    (pmkR1Name : Bytes) : Option PmkR1Sa :=
  match (keys.psks.filterMap (pskPmkR1 lib conf sm.r0khId sm.addr)).find? (·.2 = pmkR1Name) with
  | none => none
  | some (pmkR1, name) => env.staSession.map fun session =>
      { pmkR1, pmkR1Name := name, spa := sm.addr, pairwise := sm.pairwise, session }

/-- `wpa_ft_local_derive_pmk_r1()`: the entry that is stored for the PMK-R1, with the times that are
left. The PMKR1Name that was asked for is not looked at. -/
def wpaFtLocalDerivePmkR1 (lib : FtLib) (conf : FtConf) (env : FtAuthEnv) (keys : FtKeys) (sm : FtSm)
    (r0khId pmkR0Name : Bytes) : Option PmkR1Sa :=
  if conf.r0KeyHolder ≠ r0khId then
    none
  else
    match wpaFtFetchPmkR0 keys sm.addr pmkR0Name with
    | none => none
    | some r0 =>
      (wpaDerivePmkR1 lib r0.pmkR0 r0.pmkR0Name conf.r1KeyHolder sm.addr).map fun (pmkR1, name) =>
        let timeout := r0.session.sessionTimeout
        { pmkR1
          pmkR1Name := name
          spa := sm.addr
          pairwise := sm.pairwise
          session := { r0.session with
            sessionTimeout := if timeout ≠ 0 then timeout - env.now else 0 } }

/-- `wpa_ft_store_pmk_r1()`, from the times that are left. -/
def wpaFtStorePmkR1 (env : FtAuthEnv) (r1 : PmkR1Sa) (keys : FtKeys) : FtKeys :=
  if env.storeOk then
    let timeout := r1.session.sessionTimeout
    let r1 := { r1 with
      session.sessionTimeout := if 0 < timeout then env.now + timeout else 0 }
    { keys with r1 := r1 :: keys.r1 }
  else
    keys

/-- The first `len` octets of the buffer a key is copied to. -/
def fillPmkR1 (stack pmkR1 : Bytes) (len : Nat) : Bytes := (overwrite 0 pmkR1 stack).take len

/-- The PMK-R1 for a request: the caches, and the key with the length it is used with, if there is
one. -/
def selectPmkR1 (lib : FtLib) (conf : FtConf) (env : FtAuthEnv) (keys : FtKeys) (sm : FtSm)
    (useSha384 : Bool) (r0khId pmkR0Name pmkR1Name : Bytes) : FtKeys × Except FtAuthResult PmkR1Sa :=
  if conf.ftPskGenerateLocal ∧ sm.wpaKeyMgmt = some .ftPsk then
    match wpaFtPskPmkR1 lib conf env keys sm pmkR1Name with
    | none => (keys, .error (.failure .invalidPmkid))
    | some r1 =>
      (keys, .ok { r1 with pmkR1 := fillPmkR1 env.stack r1.pmkR1 (ftKeyLen useSha384) })
  else
    match wpaFtFetchPmkR1 keys sm.addr pmkR1Name env.now with
    | some r1 => (keys, .ok r1)
    | none =>
      match wpaFtLocalDerivePmkR1 lib conf env keys sm r0khId pmkR0Name with
      | some r1 =>
        (wpaFtStorePmkR1 env r1 keys,
          .ok { r1 with pmkR1 := fillPmkR1 env.stack r1.pmkR1 (ftKeyLen useSha384) })
      | none => (keys, .error (if env.pullSent then .pending else .failure .invalidPmkid))

/-- `wpa_ft_install_ptk()`. -/
def wpaFtInstallPtk (env : FtAuthEnv) (sm : FtSm) : FtSm :=
  if sm.pairwise.any wpaCipherValidPairwise ∧ ¬ sm.tkAlreadySet ∧ env.setKeyOk then
    { sm with pairwiseSet := true, tkAlreadySet := true }
  else
    sm

/-- `wpa_write_mdie()`. -/
def wpaWriteMdie (conf : FtConf) : Bytes :=
  element eidMobilityDomain (conf.mobilityDomain ++ [if conf.ftOverDs then 1 else 0])

/-- `wpa_write_ftie()` without further subelements. -/
def wpaWriteFtie (conf : FtConf) (useSha384 : Bool) (r0khId aNonce sNonce : Bytes) : Bytes :=
  element eidFastBssTransition (zeros (2 + fteMicLen useSha384) ++ aNonce ++ sNonce ++
    [1, 6] ++ conf.r1KeyHolder ++ [3, UInt8.ofNat r0khId.length] ++ r0khId)

/-- The elements of the response, if they can be written to its buffer. -/
def ftAuthResponse (conf : FtConf) (useSha384 : Bool) (pmkR0Name r0khId : Bytes) (sm : FtSm) :
    Option Bytes :=
  let buflen := 2 + 3 + 2 + ftieLen false + 2 + 6 + 200
  match conf.rsnIe pmkR0Name with
  | none => none
  | some rsnie =>
    let mdie := wpaWriteMdie conf
    let ftie := wpaWriteFtie conf useSha384 r0khId sm.aNonce sm.sNonce
    if buflen < (rsnie ++ mdie ++ ftie).length then none else some (rsnie ++ mdie ++ ftie)

/-- The rest of `wpa_ft_process_auth_req()`, from `pmk_r1_derived` on. -/
def authReqDerive (lib : FtLib) (conf : FtConf) (env : FtAuthEnv) (useSha384 : Bool)
    (r0khId pmkR0Name pmkR1Name : Bytes) (r1 : PmkR1Sa) (sm : FtSm) : FtSm × FtAuthResult :=
  let sm := { sm with pmkR1NameValid := true, pmkR1Name, aNonce := env.aNonce }
  if ¬ env.randomOk then
    (sm, .failure .unspecifiedFailure)
  else
    match wpaPmkR1ToPtk lib r1.pmkR1 sm.sNonce sm.aNonce sm.addr conf.addr pmkR1Name sm.akmp r1.pairwise
      sm.ptk with
    | (ptk, false) => ({ sm with ptk }, .failure .unspecifiedFailure)
    | (ptk, true) =>
      let d : FtDerivation :=
        { pmkR1 := r1.pmkR1, pmkR1Name, aNonce := sm.aNonce, sNonce := sm.sNonce, r0khId := sm.r0khId
          akmp := sm.akmp, cipher := r1.pairwise, ptk }
      let sm := wpaFtInstallPtk env { sm with
        ptk
        pairwise := r1.pairwise
        ptkValid := true
        tkAlreadySet := false
        derived := d :: sm.derived
        unfinished := false }
      if ¬ env.setVlanOk ∨ ¬ env.setIdentityOk ∨ ¬ env.setRadiusCuiOk ∨ ¬ env.respAlloc then
        (sm, .failure .unspecifiedFailure)
      else
        match ftAuthResponse conf useSha384 pmkR0Name r0khId sm with
        | none => (sm, .failure .unspecifiedFailure)
        | some resp => (sm, .success resp)

def mdieOk (conf : FtConf) (parse : WpaFtIes) : Bool :=
  parse.mdie.any fun mdie => 3 ≤ mdie.length && mdie.take 2 = conf.mobilityDomain

def WpaFtIes.longFtie (parse : WpaFtIes) (useSha384 : Bool) : Option Bytes :=
  parse.ftie.filter fun ftie => ftieLen useSha384 ≤ ftie.length

/-- `wpa_ft_process_auth_req()` from where the SNonce has been taken. -/
def authReqTaken (lib : FtLib) (conf : FtConf) (env : FtAuthEnv) (parse : WpaFtIes) (useSha384 : Bool)
    (keys : FtKeys) (sm : FtSm) : FtKeys × FtSm × FtAuthResult :=
  match parse.r0khId with
  | none => (keys, sm, .failure .invalidFtie)
  | some r0khId =>
    let sm := { sm with r0khId }
    match parse.rsnPmkid with
    | none => (keys, sm, .failure .invalidPmkid)
    | some pmkR0Name =>
      match wpaFtSetKeyMgmt conf parse sm with
      | (sm, false) => (keys, sm, .failure .unspecifiedFailure)
      | (sm, true) =>
        match wpaDerivePmkR1Name lib pmkR0Name conf.r1KeyHolder sm.addr useSha384 with
        | none => (keys, sm, .failure .unspecifiedFailure)
        | some pmkR1Name =>
          match selectPmkR1 lib conf env keys sm useSha384 r0khId pmkR0Name pmkR1Name with
          | (keys, .error result) => (keys, sm, result)
          | (keys, .ok r1) =>
            (keys, authReqDerive lib conf env useSha384 r0khId pmkR0Name pmkR1Name r1 sm)

/-- `wpa_ft_process_auth_req()`. -/
def wpaFtProcessAuthReq (lib : FtLib) (conf : FtConf) (env : FtAuthEnv) (ies : Bytes) (keys : FtKeys)
    (sm : FtSm) : FtKeys × FtSm × FtAuthResult :=
  let sm := { sm with pmkR1NameValid := false }
  match wpaFtParseIes ies none with
  | none => (keys, sm, .failure .unspecifiedFailure)
  | some parse =>
    let useSha384 := parse.keyMgmt.any wpaKeyMgmtSha384
    if ¬ mdieOk conf parse then
      (keys, sm, .failure .invalidMdie)
    else
      match parse.longFtie useSha384 with
      | none => (keys, sm, .failure .invalidFtie)
      | some ftie =>
        authReqTaken lib conf env parse useSha384 keys
          { sm with sNonce := ftieSNonce useSha384 ftie, unfinished := true }

/-! ## Reassociation -/

/-- The KCK the MIC of a Reassociation Request is made with. -/
def ftKck (akmp : Akm) (ptk : FtPtk) : Bytes :=
  if wpaKeyMgmtFils akmp then ptk.kck2.take ptk.kck2Len else ptk.kck.take ptk.kckLen

def reassocMic (lib : FtLib) (kck staAddr apAddr : Bytes) (parse : WpaFtIes) (mdie ftie rsn : Bytes) :
    Option Bytes :=
  wpaFtMic lib kck staAddr apAddr 5 (element eidMobilityDomain mdie)
    (element eidFastBssTransition ftie) (element eidRsn rsn) (parse.ric.map (List.take parse.ricLen))

def protectedCount (parse : WpaFtIes) : Nat :=
  3 + parse.ric.elim 0 fun ric => ieee80211IeCount parse.ricLen (ric.take parse.ricLen)

/-- `wpa_ft_validate_reassoc()`. -/
def wpaFtValidateReassoc (lib : FtLib) (conf : FtConf) (sm : FtSm) (ies : Bytes) : WlanStatus :=
  let useSha384 := wpaKeyMgmtSha384 sm.akmp
  match wpaFtParseIes ies (some useSha384) with
  | none => .unspecifiedFailure
  | some parse =>
    match parse.rsn with
    | none => .unspecifiedFailure
    | some rsn =>
      if parse.rsnPmkid ≠ some sm.pmkR1Name then
        .invalidPmkid
      else
        match parse.mdie.filter fun mdie => 3 ≤ mdie.length && mdie.take 2 = conf.mobilityDomain with
        | none => .invalidMdie
        | some mdie =>
          match parse.longFtie useSha384 with
          | none => .invalidFtie
          | some ftie =>
            if ftieSNonce useSha384 ftie ≠ sm.sNonce then .invalidFtie
            else if ftieANonce useSha384 ftie ≠ sm.aNonce then .invalidFtie
            else if parse.r0khId ≠ some sm.r0khId then .invalidFtie
            else if parse.r1khId ≠ some conf.r1KeyHolder then .invalidFtie
            else if ((ftieMicControl ftie).getD 1 0).toNat ≠ protectedCount parse then
              .unspecifiedFailure
            else
              match reassocMic lib (ftKck sm.akmp sm.ptk) sm.addr conf.addr parse mdie ftie rsn with
              | none => .unspecifiedFailure
              | some mic =>
                if mic.take 16 ≠ (ftieMic useSha384 ftie).take 16 then .invalidFtie else .success

/-! ## Runs -/

/-- What happens to a station and its keys. -/
inductive FtEvent
  | authReq (ies : Bytes) (env : FtAuthEnv)
  | reassoc (ies : Bytes)
  /-- `wpa_validate_wpa_ie()` or `wpa_auth_sta_no_wpa()` sets the AKM and the cipher. -/
  | negotiated (wpaKeyMgmt : Option Akm) (pairwise : Option Cipher)
  /-- Keys are stored or expire, or the PSKs are configured. -/
  | keysChanged (keys : FtKeys)

def FtKeys.add (held keys : FtKeys) : FtKeys where
  r0 := keys.r0 ++ held.r0
  r1 := keys.r1 ++ held.r1
  psks := keys.psks ++ held.psks

/-- A step; all of them can always be taken. Whether a station may reassociate does not change
anything. -/
def ftStep (lib : FtLib) (conf : FtConf) (w : FtAp) : FtEvent → Except Empty FtAp
  | .authReq ies env =>
    let (keys, sm, _) := wpaFtProcessAuthReq lib conf env ies w.keys w.sm
    .ok { sm, keys, held := w.held.add keys }
  | .reassoc _ => .ok w
  | .negotiated wpaKeyMgmt pairwise => .ok { w with sm := { w.sm with wpaKeyMgmt, pairwise } }
  | .keysChanged keys => .ok { w with keys, held := w.held.add keys }

def ftInit (addr : Bytes) : FtAp where
  sm := { addr }

/-- A PMK-R0 of the local cache that a request names was made with the hash of the AKM of the
request. -/
def HashMatches (conf : FtConf) (keys : FtKeys) (addr ies : Bytes) : Prop :=
  ∀ parse ∈ wpaFtParseIes ies none, ∀ pmkR0Name ∈ parse.rsnPmkid,
    ∀ r0 ∈ wpaFtFetchPmkR0 keys addr pmkR0Name, parse.r0khId = some conf.r0KeyHolder →
      r0.pmkR0.length = ftKeyLen (parse.keyMgmt.any wpaKeyMgmtSha384)

/-- The requests and the reassociations that do not get at a mixture. -/
def FtUnmixed (conf : FtConf) (w : FtAp) : FtEvent → Prop
  | .authReq ies _ => HashMatches conf w.keys w.sm.addr ies
  | .reassoc _ => w.sm.unfinished = false
  | .negotiated _ _ => True
  | .keysChanged _ => True

instance (conf : FtConf) (w : FtAp) (ev : FtEvent) : Decidable (FtUnmixed conf w ev) := by
  unfold FtUnmixed HashMatches
  split <;> infer_instance

/-! ## What is derived -/

/-- A PMK-R1 for a station and its name: of a PSK, from the cache, or of a PMK-R0 from the cache. -/
inductive NamedPmkR1 (lib : FtLib) (conf : FtConf) (held : FtKeys) (addr r0khId pmkR1 name : Bytes) :
    Prop
  | psk (psk : Bytes) : psk ∈ held.psks → pskPmkR1 lib conf r0khId addr psk = some (pmkR1, name) →
      NamedPmkR1 lib conf held addr r0khId pmkR1 name
  | cached (r1 : PmkR1Sa) : r1 ∈ held.r1 → r1.spa = addr → r1.pmkR1 = pmkR1 → r1.pmkR1Name = name →
      NamedPmkR1 lib conf held addr r0khId pmkR1 name
  | pmkR0 (r0 : PmkR0Sa) : r0 ∈ held.r0 → r0.spa = addr →
      wpaDerivePmkR1 lib r0.pmkR0 r0.pmkR0Name conf.r1KeyHolder addr = some (pmkR1, name) →
      NamedPmkR1 lib conf held addr r0khId pmkR1 name

/-- The PTK of a derivation is what `wpa_pmk_r1_to_ptk()` makes of the rest, and the PMK-R1 is the one
with the name. -/
structure FtDerivation.Valid (lib : FtLib) (conf : FtConf) (held : FtKeys) (addr : Bytes)
    (d : FtDerivation) : Prop where
  ptk : ∃ old, wpaPmkR1ToPtk lib d.pmkR1 d.sNonce d.aNonce addr conf.addr d.pmkR1Name d.akmp d.cipher
    old = (d.ptk, true)
  named : NamedPmkR1 lib conf held addr d.r0khId d.pmkR1 d.pmkR1Name

/-- The state machine is as a derivation has left it. -/
structure FtDerivation.Current (d : FtDerivation) (sm : FtSm) : Prop where
  pmkR1Name : sm.pmkR1Name = d.pmkR1Name
  aNonce : sm.aNonce = d.aNonce
  sNonce : sm.sNonce = d.sNonce
  r0khId : sm.r0khId = d.r0khId
  ptk : sm.ptk = d.ptk

/-- Every key of one cache is in the other. -/
structure FtKeys.Sub (keys keys' : FtKeys) : Prop where
  r0 : keys.r0 ⊆ keys'.r0
  r1 : keys.r1 ⊆ keys'.r1
  psks : keys.psks ⊆ keys'.psks

theorem FtKeys.sub_add_left (held keys : FtKeys) : held.Sub (held.add keys) :=
  ⟨subset_append_right _ _, subset_append_right _ _, subset_append_right _ _⟩

theorem FtKeys.sub_add_right (held keys : FtKeys) : keys.Sub (held.add keys) :=
  ⟨subset_append_left _ _, subset_append_left _ _, subset_append_left _ _⟩

theorem NamedPmkR1.mono {lib : FtLib} {conf : FtConf} {keys held : FtKeys}
    {addr r0khId pmkR1 name : Bytes} (h : NamedPmkR1 lib conf keys addr r0khId pmkR1 name)
    (hsub : keys.Sub held) : NamedPmkR1 lib conf held addr r0khId pmkR1 name := by
  cases h with
  | psk psk hmem hpsk => exact .psk psk (hsub.psks hmem) hpsk
  | cached r1 hmem hspa hkey hname => exact .cached r1 (hsub.r1 hmem) hspa hkey hname
  | pmkR0 r0 hmem hspa hr1 => exact .pmkR0 r0 (hsub.r0 hmem) hspa hr1

/-! ## Lengths -/

section Lengths

variable {lib : FtLib}

theorem ftPrf_length {useSha384 : Bool} {key data out : Bytes} {label : String} {len : Nat}
    (h : ftPrf lib useSha384 key label data len = some out) : out.length = len := by
  unfold ftPrf at h
  split at h
  · exact lib.sha384Prf_length _ _ _ _ _ h
  · exact lib.sha256Prf_length _ _ _ _ _ h

theorem wpaDerivePmkR1_spec {pmkR0 pmkR0Name r1khId s1khId pmkR1 name : Bytes}
    (h : wpaDerivePmkR1 lib pmkR0 pmkR0Name r1khId s1khId = some (pmkR1, name)) :
    pmkR1.length = pmkR0.length ∧
      wpaDerivePmkR1Name lib pmkR0Name r1khId s1khId (pmkR0.length = 48) = some name := by
  unfold wpaDerivePmkR1 at h
  split at h
  · rename_i hlen
    simp only [Option.bind_eq_bind, Option.bind_eq_some_iff, Option.pure_def, Option.some.injEq,
      Prod.mk.injEq] at h
    obtain ⟨_, hprf, _, hname, rfl, rfl⟩ := h
    refine ⟨?_, hname⟩
    rw [ftPrf_length hprf]
    unfold ftKeyLen
    rcases hlen with hlen | hlen <;> simp [hlen]
  · cases h

theorem wpaDerivePmkR0_length {xxkey ssid mdid r0khId s0khId pmkR0 name : Bytes} {useSha384 : Bool}
    (h : wpaDerivePmkR0 lib xxkey ssid mdid r0khId s0khId useSha384 = some (pmkR0, name)) :
    pmkR0.length = ftKeyLen useSha384 := by
  unfold wpaDerivePmkR0 at h
  split at h
  · cases h
  · split at h
    · cases h
    · simp only [Option.bind_eq_bind, Option.bind_eq_some_iff, Option.pure_def, Option.some.injEq,
        Prod.mk.injEq] at h
      obtain ⟨_, hprf, _, _, rfl, _⟩ := h
      rw [length_take, ftPrf_length hprf]
      omega

theorem pskPmkR1_length {conf : FtConf} {r0khId addr psk pmkR1 name : Bytes}
    (h : pskPmkR1 lib conf r0khId addr psk = some (pmkR1, name)) : pmkR1.length = 32 := by
  unfold pskPmkR1 at h
  split at h
  · cases h
  · rename_i hr0
    rw [(wpaDerivePmkR1_spec h).1, wpaDerivePmkR0_length hr0]
    rfl

theorem fillPmkR1_eq {stack pmkR1 : Bytes} {len : Nat}
    (h : (fillPmkR1 stack pmkR1 len).length = pmkR1.length) : fillPmkR1 stack pmkR1 len = pmkR1 := by
  unfold fillPmkR1 overwrite at h ⊢
  simp only [take_zero, nil_append, take_append, length_append] at h ⊢
  have hlen : pmkR1.length ≤ len := by
    simp only [length_take] at h
    omega
  rw [take_of_length_le hlen] at h ⊢
  have hrest : (List.take (len - pmkR1.length) (stack.drop (0 + pmkR1.length))).length = 0 := by omega
  rw [eq_nil_of_length_eq_zero hrest, append_nil]

theorem wpaPmkR1ToPtk_true {pmkR1 snonce anonce staAddr bssid name : Bytes} {akmp : Akm}
    {cipher : Option Cipher} {old ptk : FtPtk}
    (h : wpaPmkR1ToPtk lib pmkR1 snonce anonce staAddr bssid name akmp cipher old = (ptk, true)) :
    pmkR1.length = ftKeyLen (wpaKeyMgmtSha384 akmp) ∧ ptk.kckLen = wpaKckLen akmp pmkLen ∧
      ptk.kck2Len = wpaKck2Len akmp := by
  unfold wpaPmkR1ToPtk at h
  simp only at h
  split at h
  · cases h
  · rename_i hlen
    split at h
    · cases h
    · split at h
      · cases h
      · cases h
        exact ⟨not_not.1 hlen, rfl, rfl⟩

end Lengths

/-! ## Steps -/

section Steps

variable {lib : FtLib} {conf : FtConf} {env : FtAuthEnv} {keys keys' : FtKeys} {sm sm' : FtSm}
  {parse : WpaFtIes} {useSha384 : Bool} {r0khId pmkR0Name pmkR1Name ies : Bytes} {r1 : PmkR1Sa}
  {result : FtAuthResult}

theorem wpaFtSetKeyMgmt_eq (conf : FtConf) (parse : WpaFtIes) (sm : FtSm) :
    ∃ wpaKeyMgmt pairwise,
      (wpaFtSetKeyMgmt conf parse sm).1 = { sm with wpaKeyMgmt, pairwise } := by
  unfold wpaFtSetKeyMgmt
  simp only
  split
  · exact ⟨sm.wpaKeyMgmt, sm.pairwise, rfl⟩
  · split
    · exact ⟨sm.wpaKeyMgmt, sm.pairwise, rfl⟩
    · split
      · exact ⟨_, sm.pairwise, rfl⟩
      · exact ⟨_, _, rfl⟩

theorem wpaFtFetchPmkR0_spec {spa name : Bytes} {r0 : PmkR0Sa}
    (h : wpaFtFetchPmkR0 keys spa name = some r0) :
    r0 ∈ keys.r0 ∧ r0.spa = spa ∧ r0.pmkR0Name = name := by
  have hp := find?_some h
  simp only [decide_eq_true_eq] at hp
  exact ⟨mem_of_find?_eq_some h, hp⟩

theorem wpaFtFetchPmkR1_named {spa name : Bytes} {now : Int}
    (h : wpaFtFetchPmkR1 keys spa name now = some r1) :
    NamedPmkR1 lib conf keys spa r0khId r1.pmkR1 name := by
  obtain ⟨e, hfind, rfl⟩ := Option.map_eq_some_iff.1 h
  have hp := find?_some hfind
  simp only [decide_eq_true_eq] at hp
  exact .cached e (mem_of_find?_eq_some hfind) hp.1 rfl hp.2

theorem wpaFtPskPmkR1_spec (h : wpaFtPskPmkR1 lib conf env keys sm pmkR1Name = some r1) :
    NamedPmkR1 lib conf keys sm.addr sm.r0khId r1.pmkR1 pmkR1Name ∧ r1.pmkR1.length = 32 := by
  unfold wpaFtPskPmkR1 at h
  split at h
  · cases h
  · rename_i pmkR1 name hfind
    obtain ⟨_, _, rfl⟩ := Option.map_eq_some_iff.1 h
    obtain ⟨psk, hpsk, hr1⟩ := mem_filterMap.1 (mem_of_find?_eq_some hfind)
    have hname : name = pmkR1Name := by simpa using find?_some hfind
    subst hname
    exact ⟨.psk psk hpsk hr1, pskPmkR1_length hr1⟩

theorem wpaFtLocalDerivePmkR1_spec
    (hr0 : ∀ r0 ∈ wpaFtFetchPmkR0 keys sm.addr pmkR0Name, r0khId = conf.r0KeyHolder →
      r0.pmkR0.length = ftKeyLen useSha384)
    (hname : wpaDerivePmkR1Name lib pmkR0Name conf.r1KeyHolder sm.addr useSha384 = some pmkR1Name)
    (h : wpaFtLocalDerivePmkR1 lib conf env keys sm r0khId pmkR0Name = some r1) :
    NamedPmkR1 lib conf keys sm.addr sm.r0khId r1.pmkR1 pmkR1Name ∧
      r1.pmkR1.length = ftKeyLen useSha384 := by
  unfold wpaFtLocalDerivePmkR1 at h
  split at h
  · cases h
  · rename_i hid
    split at h
    · cases h
    · rename_i r0 hfetch
      obtain ⟨⟨pmkR1, name⟩, hr1, rfl⟩ := Option.map_eq_some_iff.1 h
      obtain ⟨hmem, hspa, hreq⟩ := wpaFtFetchPmkR0_spec hfetch
      have hlen := hr0 r0 hfetch (not_not.1 hid).symm
      obtain ⟨hlen₁, hname₁⟩ := wpaDerivePmkR1_spec hr1
      have hhash : decide (r0.pmkR0.length = 48) = useSha384 := by
        rw [hlen]
        cases useSha384 <;> rfl
      have heq : name = pmkR1Name := by
        rw [hreq, hhash, hname] at hname₁
        exact (Option.some.inj hname₁).symm
      subst heq
      exact ⟨.pmkR0 r0 hmem hspa hr1, hlen₁.trans hlen⟩

theorem selectPmkR1_named (sm : FtSm)
    (hr0 : ∀ r0 ∈ wpaFtFetchPmkR0 keys sm.addr pmkR0Name, r0khId = conf.r0KeyHolder →
      r0.pmkR0.length = ftKeyLen useSha384)
    (hname : wpaDerivePmkR1Name lib pmkR0Name conf.r1KeyHolder sm.addr useSha384 = some pmkR1Name)
    (h : selectPmkR1 lib conf env keys sm useSha384 r0khId pmkR0Name pmkR1Name = (keys', .ok r1))
    (hlen : r1.pmkR1.length = ftKeyLen (wpaKeyMgmtSha384 sm.akmp)) :
    NamedPmkR1 lib conf keys sm.addr sm.r0khId r1.pmkR1 pmkR1Name := by
  unfold selectPmkR1 at h
  split at h
  · rename_i hpsk
    have hakm : sm.akmp = .ftPsk := by rw [FtSm.akmp, hpsk.2]; rfl
    split at h
    · cases h
    · rename_i r1' hr1
      cases h
      obtain ⟨hnamed, hlen'⟩ := wpaFtPskPmkR1_spec hr1
      -- with a hash of another length nothing would have been derived
      rw [hakm] at hlen
      rw [fillPmkR1_eq (hlen.trans hlen'.symm)]
      exact hnamed
  · split at h
    · rename_i r1' hr1
      cases h
      exact wpaFtFetchPmkR1_named hr1
    · split at h
      · rename_i r1' hr1
        cases h
        obtain ⟨hnamed, hlen'⟩ := wpaFtLocalDerivePmkR1_spec hr0 hname hr1
        have hfill : fillPmkR1 env.stack r1'.pmkR1 (ftKeyLen useSha384) = r1'.pmkR1 := by
          unfold fillPmkR1 overwrite
          rw [← hlen', take_zero, nil_append, take_left]
        rw [hfill]
        exact hnamed
      · cases h

/-- What a request whose SNonce was taken has done to a state machine with the given derivations: it has
not derived a PTK, or the state machine is as a new derivation has left it. -/
inductive AuthReqDone (lib : FtLib) (conf : FtConf) (keys : FtKeys) (addr : Bytes)
    (old : List FtDerivation) (sm : FtSm) : Prop
  | unfinished : sm.unfinished = true → sm.derived = old → sm.addr = addr →
      AuthReqDone lib conf keys addr old sm
  | derived (d : FtDerivation) : sm.derived = d :: old → sm.addr = addr → d.Current sm →
      d.Valid lib conf keys addr → AuthReqDone lib conf keys addr old sm

theorem AuthReqDone.install {addr : Bytes} {old : List FtDerivation}
    (h : AuthReqDone lib conf keys addr old sm) :
    AuthReqDone lib conf keys addr old (wpaFtInstallPtk env sm) := by
  unfold wpaFtInstallPtk
  split
  · cases h with
    | unfinished hun hder haddr => exact .unfinished hun hder haddr
    | derived d hder haddr hcur hvalid =>
      exact .derived d hder haddr ⟨hcur.pmkR1Name, hcur.aNonce, hcur.sNonce, hcur.r0khId, hcur.ptk⟩ hvalid
  · exact h

theorem authReqDerive_done (sm : FtSm) (hun : sm.unfinished = true)
    (hnamed : r1.pmkR1.length = ftKeyLen (wpaKeyMgmtSha384 sm.akmp) →
      NamedPmkR1 lib conf keys sm.addr sm.r0khId r1.pmkR1 pmkR1Name) :
    AuthReqDone lib conf keys sm.addr sm.derived
      (authReqDerive lib conf env useSha384 r0khId pmkR0Name pmkR1Name r1 sm).1 := by
  unfold authReqDerive
  simp only
  split
  · exact .unfinished hun rfl rfl
  · split
    · exact .unfinished hun rfl rfl
    · rename_i ptk hptk
      have hvalid : FtDerivation.Valid lib conf keys sm.addr
          { pmkR1 := r1.pmkR1, pmkR1Name, aNonce := env.aNonce, sNonce := sm.sNonce
            r0khId := sm.r0khId, akmp := sm.akmp, cipher := r1.pairwise, ptk } :=
        ⟨⟨_, hptk⟩, hnamed (wpaPmkR1ToPtk_true hptk).1⟩
      -- the PTK stays when the rest of the response fails
      split
      · exact .install (.derived _ rfl rfl ⟨rfl, rfl, rfl, rfl, rfl⟩ hvalid)
      · split <;> exact .install (.derived _ rfl rfl ⟨rfl, rfl, rfl, rfl, rfl⟩ hvalid)

theorem authReqTaken_done (sm : FtSm) (hun : sm.unfinished = true)
    (hr0 : ∀ name ∈ parse.rsnPmkid, ∀ r0 ∈ wpaFtFetchPmkR0 keys sm.addr name,
      parse.r0khId = some conf.r0KeyHolder → r0.pmkR0.length = ftKeyLen useSha384) :
    AuthReqDone lib conf keys sm.addr sm.derived
      (authReqTaken lib conf env parse useSha384 keys sm).2.1 := by
  unfold authReqTaken
  split
  · exact .unfinished hun rfl rfl
  · rename_i r0khId hid
    simp only
    split
    · exact .unfinished hun rfl rfl
    · rename_i pmkR0Name hpmkid
      obtain ⟨wpaKeyMgmt, pairwise, hset⟩ := wpaFtSetKeyMgmt_eq conf parse { sm with r0khId }
      split
      · rename_i heq
        rw [heq] at hset
        subst hset
        exact .unfinished hun rfl rfl
      · rename_i heq
        rw [heq] at hset
        subst hset
        split
        · exact .unfinished hun rfl rfl
        · rename_i pmkR1Name hname
          split
          · exact .unfinished hun rfl rfl
          · rename_i r1 hselect
            have hr0' : ∀ r0 ∈ wpaFtFetchPmkR0 keys sm.addr pmkR0Name, r0khId = conf.r0KeyHolder →
                r0.pmkR0.length = ftKeyLen useSha384 := by
              intro r0 hfetch hown
              exact hr0 _ hpmkid r0 hfetch (by rw [hid, hown])
            have hnamed := selectPmkR1_named { sm with r0khId, wpaKeyMgmt, pairwise } hr0' hname hselect
            exact authReqDerive_done { sm with r0khId, wpaKeyMgmt, pairwise } hun hnamed

theorem wpaFtProcessAuthReq_done (h : HashMatches conf keys sm.addr ies) :
    (wpaFtProcessAuthReq lib conf env ies keys sm).2.1 = { sm with pmkR1NameValid := false } ∨
      AuthReqDone lib conf keys sm.addr sm.derived
        (wpaFtProcessAuthReq lib conf env ies keys sm).2.1 := by
  unfold wpaFtProcessAuthReq
  simp only
  split
  · exact .inl rfl
  · rename_i parse hparse
    split
    · exact .inl rfl
    · split
      · exact .inl rfl
      · rename_i ftie _
        exact .inr (authReqTaken_done
          { sm with
            pmkR1NameValid := false
            sNonce := ftieSNonce _ ftie
            unfinished := true } rfl (h parse hparse))

end Steps

/-! ## Invariant -/

/-- All derivations are valid, and if none is unfinished the state machine is as the newest has left
it. -/
structure FtInv (lib : FtLib) (conf : FtConf) (addr : Bytes) (w : FtAp) : Prop where
  staAddr : w.sm.addr = addr
  held : w.keys.Sub w.held
  valid : ∀ d ∈ w.sm.derived, d.Valid lib conf w.held addr
  current : w.sm.unfinished = false →
    w.sm.ptk.kckLen = 0 ∧ w.sm.ptk.kck2Len = 0 ∨ ∃ d ∈ w.sm.derived, d.Current w.sm

section Invariant

variable {lib : FtLib} {conf : FtConf} {addr : Bytes} {w w' : FtAp}

theorem FtDerivation.Valid.mono {d : FtDerivation} {keys held : FtKeys} (h : d.Valid lib conf keys addr)
    (hsub : keys.Sub held) : d.Valid lib conf held addr :=
  ⟨h.ptk, h.named.mono hsub⟩

theorem ftInit_inv (lib : FtLib) (conf : FtConf) (addr : Bytes) : FtInv lib conf addr (ftInit addr) where
  staAddr := rfl
  held := ⟨List.Subset.refl _, List.Subset.refl _, List.Subset.refl _⟩
  valid := fun _ h => nomatch h
  current := fun _ => .inl ⟨rfl, rfl⟩

theorem FtInv.authReq (hinv : FtInv lib conf addr w) {ies : Bytes} {env : FtAuthEnv} {keys : FtKeys}
    {sm : FtSm} {result : FtAuthResult} (hhash : HashMatches conf w.keys w.sm.addr ies)
    (h : wpaFtProcessAuthReq lib conf env ies w.keys w.sm = (keys, sm, result)) :
    FtInv lib conf addr { sm, keys, held := w.held.add keys } := by
  have hheld := FtKeys.sub_add_right w.held keys
  have hvalid : ∀ d : FtDerivation, d.Valid lib conf w.held addr →
      d.Valid lib conf (w.held.add keys) addr := by
    intro d hd
    exact hd.mono (FtKeys.sub_add_left w.held keys)
  have hdone : _ ∨ AuthReqDone lib conf w.keys w.sm.addr w.sm.derived
      (wpaFtProcessAuthReq lib conf env ies w.keys w.sm).2.1 := wpaFtProcessAuthReq_done hhash
  rw [h, hinv.staAddr] at hdone
  rcases hdone with heq | hdone
  · simp only at heq
    subst heq
    refine ⟨rfl, hheld, fun d hd => hvalid d (hinv.valid d hd), ?_⟩
    intro hun
    rcases hinv.current hun with hfresh | ⟨d, hd, hcur⟩
    · exact .inl hfresh
    · exact .inr ⟨d, hd, hcur.pmkR1Name, hcur.aNonce, hcur.sNonce, hcur.r0khId, hcur.ptk⟩
  · cases hdone with
    | unfinished hun hder haddr =>
      refine ⟨haddr, hheld, ?_, ?_⟩
      · intro d hd
        rw [hder] at hd
        exact hvalid d (hinv.valid d hd)
      · intro hfin
        rw [hun] at hfin
        cases hfin
    | derived d hder haddr hcur hd =>
      refine ⟨haddr, hheld, ?_, ?_⟩
      · intro d' hd'
        rw [hder] at hd'
        rcases mem_cons.1 hd' with rfl | hd'
        · exact hvalid d' (hd.mono hinv.held)
        · exact hvalid d' (hinv.valid d' hd')
      · intro _
        exact .inr ⟨d, by rw [hder]; exact mem_cons_self, hcur⟩

theorem FtInv.step (hinv : FtInv lib conf addr w) {ev : FtEvent} (hcond : FtUnmixed conf w ev)
    (h : ftStep lib conf w ev = .ok w') : FtInv lib conf addr w' := by
  cases ev with
  | authReq ies env =>
    cases h
    exact hinv.authReq hcond rfl
  | reassoc ies =>
    cases h
    exact hinv
  | negotiated wpaKeyMgmt pairwise =>
    cases h
    refine ⟨hinv.staAddr, hinv.held, hinv.valid, ?_⟩
    intro hun
    rcases hinv.current hun with hfresh | ⟨d, hd, hcur⟩
    · exact .inl hfresh
    · exact .inr ⟨d, hd, hcur.pmkR1Name, hcur.aNonce, hcur.sNonce, hcur.r0khId, hcur.ptk⟩
  | keysChanged keys =>
    cases h
    refine ⟨hinv.staAddr, FtKeys.sub_add_right w.held keys, ?_, hinv.current⟩
    intro d hd
    exact (hinv.valid d hd).mono (FtKeys.sub_add_left w.held keys)

end Invariant

/-! ## Reassociation -/

/-- What the checks of `wpa_ft_validate_reassoc()` say about a frame that passes. -/
structure ReassocChecked (lib : FtLib) (conf : FtConf) (sm : FtSm) (ies : Bytes) (parse : WpaFtIes)
    (mdie ftie rsn : Bytes) : Prop where
  parsed : wpaFtParseIes ies (some (wpaKeyMgmtSha384 sm.akmp)) = some parse
  hasRsn : parse.rsn = some rsn
  hasMdie : parse.mdie = some mdie
  hasFtie : parse.ftie = some ftie
  pmkid : parse.rsnPmkid = some sm.pmkR1Name
  sNonce : ftieSNonce (wpaKeyMgmtSha384 sm.akmp) ftie = sm.sNonce
  aNonce : ftieANonce (wpaKeyMgmtSha384 sm.akmp) ftie = sm.aNonce
  r0khId : parse.r0khId = some sm.r0khId
  mic : ∃ mic, reassocMic lib (ftKck sm.akmp sm.ptk) sm.addr conf.addr parse mdie ftie rsn = some mic ∧
    mic.take 16 = (ftieMic (wpaKeyMgmtSha384 sm.akmp) ftie).take 16

theorem wpaFtValidateReassoc_success {lib : FtLib} {conf : FtConf} {sm : FtSm} {ies : Bytes}
    (h : wpaFtValidateReassoc lib conf sm ies = .success) :
    ∃ parse mdie ftie rsn, ReassocChecked lib conf sm ies parse mdie ftie rsn := by
  unfold wpaFtValidateReassoc at h
  simp only at h
  split at h
  · cases h
  · rename_i parse hparse
    split at h
    · cases h
    · rename_i rsn hrsn
      split at h
      · cases h
      · rename_i hpmkid
        split at h
        · cases h
        · rename_i mdie hmdie
          split at h
          · cases h
          · rename_i ftie hftie
            split at h
            · cases h
            · rename_i hs
              split at h
              · cases h
              · rename_i ha
                split at h
                · cases h
                · rename_i hr0
                  split at h
                  · cases h
                  · split at h
                    · cases h
                    · split at h
                      · cases h
                      · rename_i mic hmic
                        split at h
                        · cases h
                        · rename_i heq
                          exact ⟨parse, mdie, ftie, rsn, hparse, hrsn, (Option.filter_eq_some_iff.1 hmdie).1,
                            (Option.filter_eq_some_iff.1 hftie).1, not_not.1 hpmkid, not_not.1 hs,
                            not_not.1 ha, not_not.1 hr0, mic, hmic, not_not.1 heq⟩

section Kck

variable {lib : FtLib}

theorem wpaFtMic_kck_length {kck staAddr apAddr mdie ftie rsnie mic : Bytes} {seqnum : UInt8}
    {ric : Option Bytes} (h : wpaFtMic lib kck staAddr apAddr seqnum mdie ftie rsnie ric = some mic) :
    kck.length ≠ 0 := by
  intro hlen
  unfold wpaFtMic at h
  rw [if_pos (by omega)] at h
  cases h

theorem wpaKckLen_of_fils {akmp : Akm} (h : wpaKeyMgmtFils akmp = true) (n : Nat) :
    wpaKckLen akmp n = 0 := by
  cases akmp <;> first | rfl | cases h

theorem wpaKck2Len_of_not_fils {akmp : Akm} (h : ¬ wpaKeyMgmtFils akmp = true) : wpaKck2Len akmp = 0 := by
  cases akmp <;> first | rfl | exact absurd rfl h

theorem ftKck_eq {akmp akmp' : Akm} {ptk : FtPtk} (hkck : ptk.kckLen = wpaKckLen akmp pmkLen)
    (hkck2 : ptk.kck2Len = wpaKck2Len akmp) (h : (ftKck akmp' ptk).length ≠ 0) :
    ftKck akmp' ptk = ftKck akmp ptk := by
  unfold ftKck at h ⊢
  by_cases hfils : wpaKeyMgmtFils akmp
  · rw [if_pos hfils]
    split at h
    · rename_i hfils'
      rw [if_pos hfils']
    · rw [hkck, wpaKckLen_of_fils hfils] at h
      exact absurd rfl h
  · rw [if_neg hfils]
    split at h
    · rw [hkck2, wpaKck2Len_of_not_fils hfils] at h
      exact absurd rfl h
    · rename_i hfils'
      rw [if_neg hfils']

end Kck

/-- A Reassociation Request is authenticated by a derivation: it repeats its names and nonces, and its
MIC verifies under its KCK. -/
structure FtDerivation.Authenticates (d : FtDerivation) (lib : FtLib) (conf : FtConf) (addr : Bytes)
    (useSha384 : Bool) (ies : Bytes) : Prop where
  frame : ∃ parse mdie ftie rsn, wpaFtParseIes ies (some useSha384) = some parse ∧
    parse.rsn = some rsn ∧ parse.mdie = some mdie ∧ parse.ftie = some ftie ∧
    parse.rsnPmkid = some d.pmkR1Name ∧
    ftieANonce useSha384 ftie = d.aNonce ∧ ftieSNonce useSha384 ftie = d.sNonce ∧
    parse.r0khId = some d.r0khId ∧
    ∃ mic, reassocMic lib (ftKck d.akmp d.ptk) addr conf.addr parse mdie ftie rsn = some mic ∧
      mic.take 16 = (ftieMic useSha384 ftie).take 16

/-- In every run in which no PMK-R0 of another hash is used: a station that reassociates while no
request is unfinished does so with the names and the nonces of a PTK that was derived from the PMK-R1
with that name, and with its KCK. -/
theorem ft_reassociation_authentic (lib : FtLib) (conf : FtConf) (addr : Bytes) {evs : List FtEvent}
    {w : FtAp} (h : Run.Reach (ftStep lib conf) (FtUnmixed conf) (ftInit addr) evs w) {ies : Bytes}
    (hcond : FtUnmixed conf w (.reassoc ies))
    (hok : wpaFtValidateReassoc lib conf w.sm ies = .success) :
    ∃ d ∈ w.sm.derived, d.Valid lib conf w.held addr ∧
      d.Authenticates lib conf addr (wpaKeyMgmtSha384 w.sm.akmp) ies := by
  have hinv : FtInv lib conf addr w :=
    h.invariant (ftInit_inv lib conf addr) (fun _ _ _ hinv hc hs => hinv.step hc hs)
  obtain ⟨parse, mdie, ftie, rsn, hchk⟩ := wpaFtValidateReassoc_success hok
  obtain ⟨mic, hmic, heq⟩ := hchk.mic
  have hlen := wpaFtMic_kck_length hmic
  rcases hinv.current hcond with hfresh | ⟨d, hd, hcur⟩
  · -- without a PTK there is no KCK
    unfold ftKck at hlen
    rw [hfresh.1, hfresh.2] at hlen
    split at hlen <;> exact absurd rfl hlen
  · have hvalid := hinv.valid d hd
    obtain ⟨old, hptk⟩ := hvalid.ptk
    obtain ⟨-, hkck, hkck2⟩ := wpaPmkR1ToPtk_true hptk
    rw [hcur.ptk] at hmic hlen
    rw [ftKck_eq hkck hkck2 hlen, hinv.staAddr] at hmic
    exact ⟨d, hd, hvalid, parse, mdie, ftie, rsn, hchk.parsed, hchk.hasRsn, hchk.hasMdie, hchk.hasFtie,
      hchk.pmkid.trans (congrArg some hcur.pmkR1Name), hchk.aNonce.trans hcur.aNonce,
      hchk.sNonce.trans hcur.sNonce, hchk.r0khId.trans (congrArg some hcur.r0khId), mic, hmic, heq⟩

/-! ## A station and an AP -/

def smallFtLib : FtLib where
  sha256Vector data := some (smallMac 32 [] data)
  sha384Vector data := some (smallMac 48 [] data)
  sha256Prf key _ data len := some (smallMac len key data)
  sha384Prf key _ data len := some (smallMac len key data)
  hmacSha384Vector key data := some (smallMac 48 key data)
  omac1Aes128Vector key data := some (smallMac 16 key data)
  sha256Prf_length key label data len out h := by
    cases h
    simp [smallMac]
  sha384Prf_length key label data len out h := by
    cases h
    simp [smallMac]

def smallFtConf : FtConf where
  addr := [2, 0, 0, 0, 0, 1]
  ssid := [0x61]
  mobilityDomain := [1, 1]
  r0KeyHolder := [0x71]
  r1KeyHolder := [2, 0, 0, 0, 0, 1]
  wpaKeyMgmt := [.ftIeee8021x]
  rsnPairwise := [.ccmp]
  ftPskGenerateLocal := false
  ftOverDs := false
  rsnIe pmkid := some (element eidRsn pmkid)

def smallFtSta : Bytes := [2, 0, 0, 0, 0, 9]

def smallFtRsn (pmkid : Bytes) : Bytes :=
  [1, 0, 0, 0x0f, 0xac, 4, 1, 0, 0, 0x0f, 0xac, 4, 1, 0, 0, 0x0f, 0xac, 3, 0, 0, 1, 0] ++ pmkid

def smallFtie (count : UInt8) (mic aNonce sNonce : Bytes) : Bytes :=
  [0, count] ++ mic ++ aNonce ++ sNonce ++ [1, 6] ++ smallFtConf.r1KeyHolder ++ [3, 1, 0x71]

def smallFtIes (pmkid ftie : Bytes) : Bytes :=
  element eidRsn (smallFtRsn pmkid) ++ element eidMobilityDomain [1, 1, 0] ++
    element eidFastBssTransition ftie

def smallNonce (n : UInt8) : Bytes := List.replicate 32 n

def smallPmkR1Name : Bytes :=
  (smallMac 32 [] (labelR1Name ++ List.replicate 16 1 ++ smallFtConf.r1KeyHolder ++ smallFtSta)).take 16

def smallFtPmkR1 : Bytes := List.replicate 32 5

def smallFtKeys : FtKeys where
  r1 := [{ pmkR1 := smallFtPmkR1, pmkR1Name := smallPmkR1Name, spa := smallFtSta,
           pairwise := some .ccmp }]

def smallFtAuthReq (pmkR0Name : UInt8) (sNonce : Bytes) : FtEvent :=
  .authReq (smallFtIes (List.replicate 16 pmkR0Name) (smallFtie 0 (zeros 16) (zeros 32) sNonce))
    { aNonce := smallNonce 3 }

def smallFtKck (pmkR1 : Bytes) : Bytes :=
  ftKck .ftIeee8021x (wpaPmkR1ToPtk smallFtLib pmkR1 (smallNonce 2) (smallNonce 3)
    smallFtSta smallFtConf.addr smallPmkR1Name .ftIeee8021x (some .ccmp) {}).1

def smallFtReassoc (pmkR1 sNonce : Bytes) : Bytes :=
  let mic := (reassocMic smallFtLib (smallFtKck pmkR1) smallFtSta smallFtConf.addr {} [1, 1, 0]
    (smallFtie 3 (zeros 16) (smallNonce 3) sNonce) (smallFtRsn smallPmkR1Name)).getD []
  smallFtIes smallPmkR1Name (smallFtie 3 mic (smallNonce 3) sNonce)

/-- The station authenticates and reassociates. -/
theorem ft_reassociation_authentic_small :
    ∃ w, Run.Reach (ftStep smallFtLib smallFtConf) (FtUnmixed smallFtConf) (ftInit smallFtSta)
        [.keysChanged smallFtKeys, smallFtAuthReq 1 (smallNonce 2)] w ∧
      wpaFtValidateReassoc smallFtLib smallFtConf w.sm (smallFtReassoc smallFtPmkR1 (smallNonce 2)) = .success ∧
      ∃ d ∈ w.sm.derived, d.Valid smallFtLib smallFtConf w.held smallFtSta ∧
        d.Authenticates smallFtLib smallFtConf smallFtSta (wpaKeyMgmtSha384 w.sm.akmp)
          (smallFtReassoc smallFtPmkR1 (smallNonce 2)) := by
  obtain ⟨w, hreach, hw⟩ := Run.reach_of_runWhile_any (ftStep smallFtLib smallFtConf)
    (FtUnmixed smallFtConf) (ftInit smallFtSta)
    [.keysChanged smallFtKeys, smallFtAuthReq 1 (smallNonce 2)]
    (fun w => decide (w.sm.unfinished = false ∧
      wpaFtValidateReassoc smallFtLib smallFtConf w.sm (smallFtReassoc smallFtPmkR1 (smallNonce 2)) = .success))
    (by decide +kernel)
  have hw := of_decide_eq_true hw
  exact ⟨w, hreach, hw.2, ft_reassociation_authentic smallFtLib smallFtConf smallFtSta hreach hw.1 hw.2⟩

/-- After a second request with an unknown PMKR0Name the station reassociates with the SNonce of the
second request and the KCK of the first. No PTK was derived from that SNonce. -/
theorem refused_request_changes_snonce :
    ∃ w, Run.Reach (ftStep smallFtLib smallFtConf) Run.always (ftInit smallFtSta)
        [.keysChanged smallFtKeys, smallFtAuthReq 1 (smallNonce 2), smallFtAuthReq 9 (smallNonce 4)] w ∧
      wpaFtValidateReassoc smallFtLib smallFtConf w.sm (smallFtReassoc smallFtPmkR1 (smallNonce 4)) = .success ∧
      ¬ ∃ d ∈ w.sm.derived, d.Authenticates smallFtLib smallFtConf smallFtSta
        (wpaKeyMgmtSha384 w.sm.akmp) (smallFtReassoc smallFtPmkR1 (smallNonce 4)) := by
  obtain ⟨w, hreach, hw⟩ := Run.reach_of_runWhile_any (ftStep smallFtLib smallFtConf) Run.always
    (ftInit smallFtSta)
    [.keysChanged smallFtKeys, smallFtAuthReq 1 (smallNonce 2), smallFtAuthReq 9 (smallNonce 4)]
    (fun w => decide (
      wpaFtValidateReassoc smallFtLib smallFtConf w.sm (smallFtReassoc smallFtPmkR1 (smallNonce 4)) = .success ∧
      ∀ parse ∈ wpaFtParseIes (smallFtReassoc smallFtPmkR1 (smallNonce 4)) (some (wpaKeyMgmtSha384 w.sm.akmp)),
        ∀ ftie ∈ parse.ftie, ∀ d ∈ w.sm.derived,
          ftieSNonce (wpaKeyMgmtSha384 w.sm.akmp) ftie ≠ d.sNonce))
    (by decide +kernel)
  have hw := of_decide_eq_true hw
  refine ⟨w, hreach, hw.1, ?_⟩
  rintro ⟨d, hd, parse, mdie, ftie, rsn, hparse, -, -, hftie, -, -, hs, -⟩
  exact hw.2 parse hparse ftie hftie d hd hs

end Hostap
