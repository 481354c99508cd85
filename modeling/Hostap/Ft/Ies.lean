import Hostap.Rsn.Common

/-!
# Elements of FT Authentication and Reassociation frames

`wpa_ft_parse_ies()` of `src/common/wpa_common.c` and what it calls: one pass over the elements of a
frame that picks up the RSNE, the MDE, the FTE with its subelements and the RIC, and a check that as
many elements are there as the FTE says are protected. A pointer into the frame is what stands there;
for the RIC this is everything from the first RIC Data element on, since its end is only found after
the pass.

The AKMs and the ciphers an RSNE lists are ORed to bit fields in the source. They are lists here, and
testing a bit is membership.

`wpaFtMic` is the MIC over these elements.
-/

namespace Hostap

open Octets

/-! ## RSNE -/

def rsnSelectorGet (s : Bytes) : Nat := beNat (s.take 4)

/-- `RSN_SELECTOR_LEN`. -/
def rsnSelectorLen : Nat := 4

/-- `PMKID_LEN`. -/
def pmkidLen : Nat := 16

/-- `rsn_selector_to_bitfield()`; no cipher for zero. -/
def rsnSelectorToBitfield (s : Bytes) : Option Cipher :=
  match rsnSelectorGet s with
  | 0x000fac00 => some .none
  | 0x000fac02 => some .tkip
  | 0x000fac04 => some .ccmp
  | 0x000fac06 => some .aes128Cmac
  | 0x000fac08 => some .gcmp
  | 0x000fac0a => some .ccmp256
  | 0x000fac09 => some .gcmp256
  | 0x000fac0b => some .bipGmac128
  | 0x000fac0c => some .bipGmac256
  | 0x000fac0d => some .bipCmac256
  | 0x000fac07 => some .gtkNotUsed
  | _ => none

/-- `rsn_key_mgmt_to_bitfield()`; no AKM for zero. -/
def rsnKeyMgmtToBitfield (s : Bytes) : Option Akm :=
  match rsnSelectorGet s with
  | 0x000fac01 => some .ieee8021x
  | 0x000fac02 => some .psk
  | 0x000fac03 => some .ftIeee8021x
  | 0x000fac04 => some .ftPsk
  | 0x000fac0d => some .ftIeee8021xSha384
  | 0x000fac05 => some .ieee8021xSha256
  | 0x000fac06 => some .pskSha256
  | 0x000fac08 => some .sae
  | 0x000fac09 => some .ftSae
  | 0x000fac0b => some .ieee8021xSuiteB
  | 0x000fac0c => some .ieee8021xSuiteB192
  | 0x000fac0e => some .filsSha256
  | 0x000fac0f => some .filsSha384
  | 0x000fac10 => some .ftFilsSha256
  | 0x000fac11 => some .ftFilsSha384
  | 0x000fac12 => some .owe
  | 0x506f9a02 => some .dpp
  | 0x506f9a01 => some .osen
  | _ => none

/-- `wpa_cipher_valid_group()`. -/
def wpaCipherValidGroup (cipher : Cipher) : Bool :=
  wpaCipherValidPairwise cipher || cipher = .gtkNotUsed

/-- What is used of `struct wpa_ie_data`. `pmkid` is the PMKID list. -/
structure WpaIeData where
  pairwiseCipher : List Cipher := [.ccmp]
  keyMgmt : List Akm := [.ieee8021x]
  pmkid : Option Bytes := none
  numPmkid : Nat := 0

/-- The header of an RSNE or of an OSEN element: the default AKM and what follows. -/
def rsnIeHeader (ie : Bytes) : Option (WpaIeData × Bytes) :=
  if ie.length < 4 then
    none
  else if 6 ≤ ie.length ∧ 4 ≤ (ie.getD 1 0).toNat ∧ (ie.getD 1 0).toNat = ie.length - 2 ∧
      rsnSelectorGet (ie.drop 2) = 0x506f9a12 then
    some ({ keyMgmt := [.osen] }, ie.drop 6)
  else if ie.getD 0 0 ≠ 48 ∨ (ie.getD 1 0).toNat ≠ ie.length - 2 ∨ getLe16 (ie.drop 2) ≠ 1 then
    none
  else
    some ({}, ie.drop 4)

def rsnIeGroup (left : Bytes) : Option Bytes :=
  if rsnSelectorLen ≤ left.length then
    if (rsnSelectorToBitfield left).any wpaCipherValidGroup then some (left.drop rsnSelectorLen)
    else none
  else if 0 < left.length then
    none
  else
    some left

/-- A counted list of selectors; nothing is read if the element ends here. -/
def rsnIeSuites {α : Type} (toBitfield : Bytes → Option α) (left : Bytes) :
    Option (Option (List α) × Bytes) :=
  if 2 ≤ left.length then
    let count := getLe16 left
    let left := left.drop 2
    if count = 0 ∨ left.length / rsnSelectorLen < count then
      none
    else
      some (some ((List.range count).filterMap fun i => toBitfield (left.drop (i * rsnSelectorLen))),
        left.drop (count * rsnSelectorLen))
  else if left.length = 1 then
    none
  else
    some (none, left)

def rsnIePmkids (left : Bytes) : Option (Option Bytes × Nat × Bytes) :=
  let left := if 2 ≤ left.length then left.drop 2 else left
  if 2 ≤ left.length then
    let numPmkid := getLe16 left
    let left := left.drop 2
    if left.length / pmkidLen < numPmkid then none
    else some (some left, numPmkid, left.drop (numPmkid * pmkidLen))
  else
    some (none, 0, left)

/-- `wpa_parse_wpa_ie_rsn()`, from the element with its header. -/
def wpaParseWpaIeRsn (ie : Bytes) : Option WpaIeData := do
  let (data, left) ← rsnIeHeader ie
  let left ← rsnIeGroup left
  let (pairwise, left) ← rsnIeSuites rsnSelectorToBitfield left
  if pairwise.any (·.contains .aes128Cmac) then none
  let (keyMgmt, left) ← rsnIeSuites rsnKeyMgmtToBitfield left
  let (pmkid, numPmkid, left) ← rsnIePmkids left
  if 4 ≤ left.length ∧ ¬ (rsnSelectorToBitfield left).any wpaCipherValidMgmtGroup then none
  return { pairwiseCipher := pairwise.getD data.pairwiseCipher
           keyMgmt := keyMgmt.getD data.keyMgmt
           pmkid
           numPmkid }

/-! ## FTE -/

/-- `struct wpa_ft_ies`. -/
structure WpaFtIes where
  mdie : Option Bytes := none
  ftie : Option Bytes := none
  r1khId : Option Bytes := none
  gtk : Option Bytes := none
  r0khId : Option Bytes := none
  rsn : Option Bytes := none
  rsnPmkid : Option Bytes := none
  tie : Option Bytes := none
  igtk : Option Bytes := none
  ric : Option Bytes := none
  ricLen : Nat := 0
  keyMgmt : List Akm := []
  pairwiseCipher : List Cipher := []

/-- `WLAN_EID_*`. -/
@[match_pattern] def eidRsn : UInt8 := 48
@[match_pattern] def eidMobilityDomain : UInt8 := 54
@[match_pattern] def eidFastBssTransition : UInt8 := 55
@[match_pattern] def eidTimeoutInterval : UInt8 := 56
def eidRicData : UInt8 := 57

def element (id : UInt8) (body : Bytes) : Bytes := [id, UInt8.ofNat body.length] ++ body

def fteMicLen (useSha384 : Bool) : Nat := if useSha384 then 24 else 16

/-- `sizeof(struct rsn_ftie)` and `sizeof(struct rsn_ftie_sha384)`. -/
def ftieLen (useSha384 : Bool) : Nat := 2 + fteMicLen useSha384 + 32 + 32

def ftieMicControl (ftie : Bytes) : Bytes := slice ftie 0 2
def ftieMic (useSha384 : Bool) (ftie : Bytes) : Bytes := slice ftie 2 (fteMicLen useSha384)
def ftieANonce (useSha384 : Bool) (ftie : Bytes) : Bytes := slice ftie (2 + fteMicLen useSha384) 32
def ftieSNonce (useSha384 : Bool) (ftie : Bytes) : Bytes :=
  slice ftie (2 + fteMicLen useSha384 + 32) 32

/-- A subelement of an FTE; `none` for the lengths that are refused. -/
def ftieSubelem (id : UInt8) (body : Bytes) (parse : WpaFtIes) : Option WpaFtIes :=
  if id = 1 then
    if body.length ≠ 6 then none else some { parse with r1khId := some body }
  else if id = 2 then
    some { parse with gtk := some body }
  else if id = 3 then
    if body.length < 1 ∨ 48 < body.length then none else some { parse with r0khId := some body }
  else if id = 4 then
    some { parse with igtk := some body }
  else
    some parse

/-- The loop of `wpa_ft_parse_ftie()`. Every subelement takes two octets or more. -/
def ftieSubelems : Nat → Bytes → WpaFtIes → Option WpaFtIes
  | fuel + 1, id :: len :: rest, parse =>
    if rest.length < len.toNat then
      some parse
    else
      match ftieSubelem id (rest.take len.toNat) parse with
      | none => none
      | some parse => ftieSubelems fuel (rest.drop len.toNat) parse
  | _, _, parse => some parse

/-- `wpa_ft_parse_ftie()`. -/
def wpaFtParseFtie (ie : Bytes) (useSha384 : Bool) (parse : WpaFtIes) : Option WpaFtIes :=
  ftieSubelems ie.length (ie.drop (ftieLen useSha384)) { parse with ftie := some ie }

/-! ## Frames -/

/-- The local variables of `wpa_ft_parse_ies()`. -/
structure FtParse where
  parse : WpaFtIes := {}
  useSha384 : Bool
  updateUseSha384 : Bool
  protIeCount : Nat := 0

/-- An element of the frame; `buf` is the frame from its header on. -/
def ftElement (id : UInt8) (body buf : Bytes) (st : FtParse) : Option FtParse :=
  if id = eidRsn then
    match wpaParseWpaIeRsn (element eidRsn body) with
    | none => none
    | some data =>
      let parse := { st.parse with
        rsn := some body
        rsnPmkid := if data.numPmkid = 1 then
            match data.pmkid with
            | some pmkid => some (pmkid.take pmkidLen)
            | none => st.parse.rsnPmkid
          else st.parse.rsnPmkid
        keyMgmt := data.keyMgmt
        pairwiseCipher := data.pairwiseCipher }
      if st.updateUseSha384 then
        some { st with
          parse
          useSha384 := data.keyMgmt.any wpaKeyMgmtSha384
          updateUseSha384 := false }
      else
        some { st with parse }
  else if id = eidMobilityDomain then
    if body.length < 3 then none
    else some { st with parse := { st.parse with mdie := some body } }
  else if id = eidFastBssTransition then
    if body.length < ftieLen st.useSha384 then
      none
    else
      match wpaFtParseFtie body st.useSha384 st.parse with
      | none => none
      | some parse => some { st with parse, protIeCount := (body.getD 1 0).toNat }
  else if id = eidTimeoutInterval then
    if body.length ≠ 5 then some st
    else some { st with parse := { st.parse with tie := some body } }
  else if id = eidRicData then
    if st.parse.ric = none then some { st with parse := { st.parse with ric := some buf } }
    else some st
  else
    some st

/-- The loop of `wpa_ft_parse_ies()`. -/
def ftElements : Nat → Bytes → FtParse → Option FtParse
  | fuel + 1, id :: len :: rest, st =>
    if rest.length < len.toNat then
      some st
    else
      match ftElement id (rest.take len.toNat) (id :: len :: rest) st with
      | none => none
      | some st => ftElements fuel (rest.drop len.toNat) st
  | _, _, st => some st

/-- The loop that looks for the end of the RIC: at most `count` elements. The length that was passed
and the elements that are still missing. -/
def ricEnd : Nat → Bytes → Nat × Nat
  | count + 1, _ :: len :: rest =>
    if rest.length < len.toNat then
      (0, count + 1)
    else
      let (n, missing) := ricEnd count (rest.drop len.toNat)
      (2 + len.toNat + n, missing)
  | count, _ => (0, count)

/-- `wpa_ft_parse_ies()`. Without `useSha384` the AKM of the first RSNE decides. -/
def wpaFtParseIes (ies : Bytes) (useSha384 : Option Bool) : Option WpaFtIes :=
  match ftElements ies.length ies
    { useSha384 := useSha384.getD false, updateUseSha384 := useSha384.isNone } with
  | none => none
  | some st =>
    let parse := st.parse
    if st.protIeCount = 0 then
      some parse
    else
      let present := [parse.rsn, parse.mdie, parse.ftie].countP Option.isSome
      if st.protIeCount < present then
        none
      else
        let count := st.protIeCount - present
        if count = 0 ∧ parse.ric.isSome then
          none
        else
          match parse.ric with
          | none => if count ≠ 0 then none else some parse
          | some ric =>
            let (ricLen, missing) := ricEnd count ric
            if missing ≠ 0 then none else some { parse with ricLen }

/-- `ieee802_11_ie_count()`. -/
def ieee80211IeCount : Nat → Bytes → Nat
  | fuel + 1, _ :: len :: rest =>
    if rest.length < len.toNat then 0 else ieee80211IeCount fuel (rest.drop len.toNat) + 1
  | _, _ => 0

/-! ## Keys and MIC -/

/-- Hashes, PRFs and MACs, any of which may fail. -/
structure FtLib where
  sha256Vector : Bytes → Option Bytes
  sha384Vector : Bytes → Option Bytes
  /-- By key, label, data and length of the output. -/
  sha256Prf : Bytes → String → Bytes → Nat → Option Bytes
  /-- See `sha256Prf`. -/
  sha384Prf : Bytes → String → Bytes → Nat → Option Bytes
  hmacSha384Vector : Bytes → Bytes → Option Bytes
  omac1Aes128Vector : Bytes → Bytes → Option Bytes
  sha256Prf_length : ∀ key label data len out, sha256Prf key label data len = some out →
    out.length = len
  sha384Prf_length : ∀ key label data len out, sha384Prf key label data len = some out →
    out.length = len

/-- `wpa_ft_mic()` for elements that are all there, except perhaps the RIC. -/
def wpaFtMic (lib : FtLib) (kck staAddr apAddr : Bytes) (transactionSeqnum : UInt8)
    (mdie ftie rsnie : Bytes) (ric : Option Bytes) : Option Bytes :=
  if kck.length ≠ 16 ∧ kck.length ≠ 24 then
    none
  else
    let micLen := kck.length
    if ftie.length < 2 + (2 + micLen + 32 + 32) then
      none
    else
      let data := staAddr ++ apAddr ++ [transactionSeqnum] ++ rsnie ++ mdie ++ ftie.take 4 ++
        zeros micLen ++ ftie.drop (4 + micLen) ++ ric.getD []
      if kck.length = 24 then (lib.hmacSha384Vector kck data).map (List.take 24)
      else lib.omac1Aes128Vector kck data

end Hostap
