import Hostap.Ft.Reassoc
import Hostap.Supp.Sm

/-!
# The supplicant in FT

`src/rsn_supp/wpa_ft.c`. A request names the PMK-R0 and brings a new SNonce. The response gives the ANonce and
the R1KH-ID; the PTK is derived and given to the driver at once, and the elements of the Reassociation
Request are made with a MIC under its KCK. The group keys come with the Reassociation Response.

`ft_reassoc_completed` keeps a Reassociation Response from being processed twice. It is cleared whenever the
elements of a request are made, and so also by every response that passes. There is no such flag for the
responses: `ft_completed` is set and not looked at here, and `over_the_ds_in_progress` is not cleared.

`ptkFrom` is not in the source. It says what the PTK was derived from.
-/

namespace Hostap

open Octets

/-! ## State -/

/-- `aes_wrap()` and `aes_unwrap()`, by key and data. Eight octets are added. -/
structure AesKeyWrap where
  aesWrap : Bytes → Bytes → Option Bytes
  aesUnwrap : Bytes → Bytes → Option Bytes
  aesWrap_length : ∀ key data out, aesWrap key data = some out → out.length = data.length + 8
  aesUnwrap_length : ∀ key data out, aesUnwrap key data = some out → out.length + 8 = data.length

/-- What a PTK of FT is derived from. -/
structure FtPtkInput where
  pmkR1 : Bytes
  snonce : Bytes
  anonce : Bytes
  deriving DecidableEq

/-- What the driver is told. The keys come with whether they were taken. -/
inductive FtOutput
  | updateFtIes (md ies : Bytes)
  | sendFtAction (targetAp ies : Bytes)
  | markAuthenticated (addr : Bytes)
  | setPtk (input : Option FtPtkInput) (cipher : Cipher) (addr key : Bytes) (ok : Bool)
  | setGtk (cipher : Cipher) (keyidx : Nat) (rsc key : Bytes) (ok : Bool)
  | setIgtk (cipher : Cipher) (keyidx : Nat) (ipn key : Bytes) (ok : Bool)
  deriving DecidableEq

/-- `struct wpa_sm`, as far as FT uses it. -/
structure FtStaSm where
  keyMgmt : Akm
  pairwiseCipher : Cipher
  groupCipher : Cipher
  mgmtGroupCipher : Cipher
  ownAddr : Bytes
  bssid : Bytes
  mobilityDomain : Bytes
  mdieFtCapab : UInt8
  r0khId : Bytes
  r1khId : Bytes
  pmkR0 : Bytes
  pmkR0Name : Bytes
  pmkR1 : Bytes
  pmkR1Name : Bytes
  snonce : Bytes
  anonce : Bytes
  ptk : FtPtk
  ptkFrom : Option FtPtkInput
  targetAp : Bytes
  ftCompleted : Bool
  ftReassocCompleted : Bool
  overTheDsInProgress : Bool
  setPtkAfterAssoc : Bool
  /-- Newest first. -/
  outputs : List FtOutput
  deriving DecidableEq

/-- What a call gets from outside: memory, octets for the SNonce and what the driver says. -/
structure FtStaEnv where
  alloc : Bool := true
  random : Option Bytes := none
  setKeyPtk : Bool := true
  setKeyGtk : Bool := true
  setKeyIgtk : Bool := true

def FtStaSm.note (sm : FtStaSm) (out : FtOutput) : FtStaSm := { sm with outputs := out :: sm.outputs }

/-! ## Requests -/

/-- `RSN_SELECTOR_PUT()`. -/
def rsnSelectorPut (suite : Nat) : Bytes := natBe 4 suite

/-- `wpa_cipher_to_suite()` for RSN. -/
def wpaCipherToSuite : Cipher → Nat
  | .ccmp256 => 0x000fac0a
  | .gcmp256 => 0x000fac09
  | .ccmp => 0x000fac04
  | .gcmp => 0x000fac08
  | .tkip => 0x000fac02
  | .none => 0x000fac00
  | .gtkNotUsed => 0x000fac07
  | .aes128Cmac => 0x000fac06
  | .bipGmac128 => 0x000fac0b
  | .bipGmac256 => 0x000fac0c
  | .bipCmac256 => 0x000fac0d
  | _ => 0

def ftAkmToSuite : Akm → Option Nat
  | .ftIeee8021x => some 0x000fac03
  | .ftIeee8021xSha384 => some 0x000fac0d
  | .ftPsk => some 0x000fac04
  | .ftSae => some 0x000fac09
  | .ftFilsSha256 => some 0x000fac10
  | .ftFilsSha384 => some 0x000fac11
  | _ => none

/-- The body of the RSNE of a request. The management group cipher decides on the capabilities too. -/
def ftReqRsnie (sm : FtStaSm) (pmkName : Bytes) : Option Bytes :=
  if ¬ wpaCipherValidGroup sm.groupCipher then none
  else if ¬ wpaCipherValidPairwise sm.pairwiseCipher then none
  else
    (ftAkmToSuite sm.keyMgmt).map fun akm =>
      le16 1 ++ rsnSelectorPut (wpaCipherToSuite sm.groupCipher) ++
        le16 1 ++ rsnSelectorPut (wpaCipherToSuite sm.pairwiseCipher) ++ le16 1 ++ rsnSelectorPut akm ++
        le16 (if wpaCipherValidMgmtGroup sm.mgmtGroupCipher then 128 else 0) ++ le16 1 ++ pmkName ++
        if wpaCipherValidMgmtGroup sm.mgmtGroupCipher then rsnSelectorPut (wpaCipherToSuite sm.mgmtGroupCipher)
        else []

/-- The body of the MDE that `wpa_ft_add_mdie()` writes. `apMdie` is that of the target AP with its header. -/
def wpaFtAddMdie (sm : FtStaSm) (apMdie : Option Bytes) : Bytes :=
  let capab :=
    match apMdie with
    | some apMdie => if 3 ≤ (apMdie.getD 1 0).toNat then apMdie.getD 4 0 else sm.mdieFtCapab
    | none => sm.mdieFtCapab
  sm.mobilityDomain ++ [capab]

def ftieBody (count : UInt8) (mic anonce snonce subelems : Bytes) : Bytes :=
  [0, count] ++ mic ++ anonce ++ snonce ++ subelems

/-- `wpa_ft_gen_req_ies()`. Both flags are cleared whatever becomes of the elements. -/
def wpaFtGenReqIes (lib : FtLib) (env : FtStaEnv) (sm : FtStaSm) (anonce : Option Bytes) (pmkName : Bytes)
    (kck : Option Bytes) (targetAp : Bytes) (ricIes apMdie : Option Bytes) : FtStaSm × Option Bytes :=
  let sm := { sm with ftCompleted := false, ftReassocCompleted := false }
  let useSha384 := wpaKeyMgmtSha384 sm.keyMgmt
  if ¬ env.alloc then
    (sm, none)
  else
    match ftReqRsnie sm pmkName with
    | none => (sm, none)
    | some rsn =>
      let rsnie := element eidRsn rsn
      let mdie := element eidMobilityDomain (wpaFtAddMdie sm apMdie)
      let r1kh := if kck.isSome then [1, 6] ++ sm.r1khId else []
      let subelems := r1kh ++ [3, UInt8.ofNat sm.r0khId.length] ++ sm.r0khId
      let ric := ricIes.getD []
      let ftie (count : UInt8) (mic : Bytes) :=
        element eidFastBssTransition (ftieBody count mic (anonce.getD (zeros 32)) sm.snonce subelems)
      match kck with
      | none => (sm, some (rsnie ++ mdie ++ ftie 0 (zeros (fteMicLen useSha384)) ++ ric))
      | some kck =>
        let count := UInt8.ofNat (3 + ieee80211IeCount ric.length ric)
        match wpaFtMic lib kck sm.ownAddr targetAp 5 mdie
          (ftie count (zeros (fteMicLen useSha384))) rsnie ricIes with
        | none => (sm, none)
        | some mic => (sm, some (rsnie ++ mdie ++ ftie count mic ++ ric))

/-- `wpa_ft_prepare_auth_request()`. -/
def wpaFtPrepareAuthRequest (lib : FtLib) (env : FtStaEnv) (sm : FtStaSm)
    (mdie : Option Bytes) : FtStaSm × Bool :=
  match env.random with
  | none => (sm, false)
  | some snonce =>
    let sm := { sm with snonce }
    match wpaFtGenReqIes lib env sm none sm.pmkR0Name none sm.bssid none mdie with
    | (sm, none) => (sm, true)
    | (sm, some ies) => (sm.note (.updateFtIes sm.mobilityDomain ies), true)

/-! ## Responses -/

/-- `wpa_ft_install_ptk()` of the supplicant. -/
def wpaFtStaInstallPtk (env : FtStaEnv) (sm : FtStaSm) (bssid : Bytes) : FtStaSm × Bool :=
  if ¬ wpaCipherValidPairwise sm.pairwiseCipher then
    (sm, false)
  else
    (sm.note (.setPtk sm.ptkFrom sm.pairwiseCipher bssid
      (sm.ptk.tk.take (wpaCipherKeyLen sm.pairwiseCipher)) env.setKeyPtk), env.setKeyPtk)

/-- The MDE and the FTE that both frames from the AP must have, the latter with the SNonce and the R0KH-ID. -/
def ftStaElements (sm : FtStaSm) (parse : WpaFtIes) : Option (Bytes × Bytes) :=
  let useSha384 := wpaKeyMgmtSha384 sm.keyMgmt
  match parse.mdie.filter fun mdie => 3 ≤ mdie.length && mdie.take 2 = sm.mobilityDomain with
  | none => none
  | some mdie =>
    match parse.longFtie useSha384 with
    | none => none
    | some ftie =>
      if ftieSNonce useSha384 ftie ≠ sm.snonce ∨ parse.r0khId ≠ some sm.r0khId then none else some (mdie, ftie)

/-- A response that passes the checks: its MDE, ANonce and R1KH-ID. -/
def ftResponseChecked (sm : FtStaSm) (ies : Bytes) (ftAction : Bool) (targetAp : Bytes) :
    Option (Bytes × Bytes × Bytes) :=
  let useSha384 := wpaKeyMgmtSha384 sm.keyMgmt
  if ftAction ∧ (¬ sm.overTheDsInProgress ∨ targetAp ≠ sm.targetAp) then none
  else if ¬ wpaKeyMgmtFt sm.keyMgmt then none
  else
    match wpaFtParseIes ies (some useSha384) with
    | none => none
    | some parse =>
      match ftStaElements sm parse with
      | none => none
      | some (mdie, ftie) =>
        if parse.rsnPmkid ≠ some sm.pmkR0Name then none
        else parse.r1khId.map fun r1khId => (mdie, ftieANonce useSha384 ftie, r1khId)

/-- The end of `wpa_ft_process_response()`, with the PTK. -/
def ftResponseInstall (lib : FtLib) (env : FtStaEnv) (mdie : Bytes) (ftAction : Bool) (targetAp : Bytes)
    (ricIes : Option Bytes) (sm : FtStaSm) : FtStaSm :=
  let (sm, ies) := wpaFtGenReqIes lib env sm (some sm.anonce) sm.pmkR1Name
    (some (ftKck sm.keyMgmt sm.ptk)) targetAp ricIes (some (element eidMobilityDomain mdie))
  let sm := ies.elim sm fun ies => sm.note (.updateFtIes sm.mobilityDomain ies)
  let (sm, ok) := wpaFtStaInstallPtk env (sm.note (.markAuthenticated targetAp)) targetAp
  { sm with
    -- some drivers take the key only after the association
    setPtkAfterAssoc := !ok
    ftCompleted := true
    bssid := if ftAction then targetAp else sm.bssid }

/-- `wpa_ft_process_response()`. What is written of the PMK-R1 if its name cannot be derived is not kept: it is
not read before it is derived again. -/
def wpaFtProcessResponse (lib : FtLib) (env : FtStaEnv) (sm : FtStaSm) (ies : Bytes) (ftAction : Bool)
    (targetAp : Bytes) (ricIes : Option Bytes) : FtStaSm × Bool :=
  match ftResponseChecked sm ies ftAction targetAp with
  | none => (sm, false)
  | some (mdie, anonce, r1khId) =>
    let sm := { sm with r1khId, anonce }
    match wpaDerivePmkR1 lib sm.pmkR0 sm.pmkR0Name r1khId sm.ownAddr with
    | none => (sm, false)
    | some (pmkR1, pmkR1Name) =>
      let sm := { sm with pmkR1, pmkR1Name }
      match wpaPmkR1ToPtk lib pmkR1 sm.snonce anonce sm.ownAddr targetAp pmkR1Name sm.keyMgmt
        (some sm.pairwiseCipher) sm.ptk with
      | (ptk, false) => ({ sm with ptk }, false)
      | (ptk, true) =>
        let sm := { sm with ptk, ptkFrom := some ⟨pmkR1, sm.snonce, anonce⟩ }
        (ftResponseInstall lib env mdie ftAction targetAp ricIes sm, true)

/-! ## Reassociation -/

def ftKek (akmp : Akm) (ptk : FtPtk) : Bytes :=
  if wpaKeyMgmtFils akmp then ptk.kek2.take ptk.kek2Len else ptk.kek.take ptk.kekLen

/-- `wpa_ft_process_gtk_subelem()`: Key Info[2] | Key Length[1] | RSC[8] | Key[5..32]. -/
def wpaFtProcessGtkSubelem (wrap : AesKeyWrap) (env : FtStaEnv) (sm : FtStaSm) : Option Bytes → FtStaSm × Bool
  | none => (sm, true)
  | some elem =>
    if elem.length < 11 + 24 ∨ (elem.length - 11) % 8 ≠ 0 ∨ 32 < elem.length - 19 then
      (sm, false)
    else
      match wrap.aesUnwrap (ftKek sm.keyMgmt sm.ptk) (elem.drop 11) with
      | none => (sm, false)
      | some gtk =>
        let keylen := wpaCipherKeyLen sm.groupCipher
        if ¬ wpaCipherHasAlg sm.groupCipher then (sm, false)
        else if gtk.length < keylen then (sm, false)
        else if (elem.getD 2 0).toNat ≠ keylen then (sm, false)
        else
          let gtk := swapMichael sm.groupCipher gtk
          (sm.note (.setGtk sm.groupCipher (getLe16 elem % 4) (slice elem 3 (wpaCipherRscLen sm.groupCipher))
            (gtk.take keylen) env.setKeyGtk), env.setKeyGtk)

/-- `wpa_ft_process_igtk_subelem()`: KeyID[2] | IPN[6] | Key Length[1] | Key[16+8]. -/
def wpaFtProcessIgtkSubelem (wrap : AesKeyWrap) (env : FtStaEnv) (sm : FtStaSm) (elem : Option Bytes) :
    FtStaSm × Bool :=
  if ¬ wpaCipherValidMgmtGroup sm.mgmtGroupCipher then
    (sm, true)
  else
    match elem with
    | none => (sm, true)
    | some elem =>
      let igtkLen := wpaCipherKeyLen sm.mgmtGroupCipher
      if elem.length ≠ 2 + 6 + 1 + igtkLen + 8 then (sm, false)
      else if (elem.getD 8 0).toNat ≠ igtkLen then (sm, false)
      else
        match wrap.aesUnwrap (ftKek sm.keyMgmt sm.ptk) (elem.drop 9) with
        | none => (sm, false)
        | some igtk =>
          (sm.note (.setIgtk sm.mgmtGroupCipher (getLe16 elem) (slice elem 2 6) igtk env.setKeyIgtk),
            env.setKeyIgtk)

def ftReassocRespChecked (lib : FtLib) (sm : FtStaSm) (srcAddr : Bytes) (parse : WpaFtIes) : Bool :=
  let useSha384 := wpaKeyMgmtSha384 sm.keyMgmt
  match ftStaElements sm parse, parse.rsn with
  | some (mdie, ftie), some rsn =>
    if ftieANonce useSha384 ftie ≠ sm.anonce then false
    else if parse.r1khId ≠ some sm.r1khId then false
    else if parse.rsnPmkid ≠ some sm.pmkR1Name then false
    else if ((ftieMicControl ftie).getD 1 0).toNat ≠ protectedCount parse then false
    else
      match wpaFtMic lib (ftKck sm.keyMgmt sm.ptk) sm.ownAddr srcAddr 6 (element eidMobilityDomain mdie)
        (element eidFastBssTransition ftie) (element eidRsn rsn) (parse.ric.map (List.take parse.ricLen)) with
      | none => false
      | some mic => mic.take 16 = (ftieMic useSha384 ftie).take 16
  | _, _ => false

/-- The end of `wpa_ft_validate_reassoc_resp()`: the keys go to the driver. -/
def ftReassocInstall (wrap : AesKeyWrap) (env : FtStaEnv) (sm : FtStaSm) (srcAddr : Bytes) (parse : WpaFtIes) :
    FtStaSm × Bool :=
  match wpaFtProcessGtkSubelem wrap env sm parse.gtk with
  | (sm, false) => (sm, false)
  | (sm, true) =>
    match wpaFtProcessIgtkSubelem wrap env sm parse.igtk with
    | (sm, false) => (sm, false)
    | (sm, true) =>
      if ¬ sm.setPtkAfterAssoc then
        (sm, true)
      else
        match wpaFtStaInstallPtk env sm srcAddr with
        | (sm, false) => (sm, false)
        | (sm, true) => ({ sm with setPtkAfterAssoc := false }, true)

/-- `wpa_ft_validate_reassoc_resp()`. -/
def wpaFtValidateReassocResp (lib : FtLib) (wrap : AesKeyWrap) (env : FtStaEnv) (sm : FtStaSm)
    (ies srcAddr : Bytes) : FtStaSm × Bool :=
  if ¬ wpaKeyMgmtFt sm.keyMgmt then
    (sm, false)
  else if sm.ftReassocCompleted then
    (sm, true)
  else
    match wpaFtParseIes ies (some (wpaKeyMgmtSha384 sm.keyMgmt)) with
    | none => (sm, false)
    | some parse =>
      if ¬ ftReassocRespChecked lib sm srcAddr parse then (sm, false)
      else ftReassocInstall wrap env { sm with ftReassocCompleted := true } srcAddr parse

end Hostap
