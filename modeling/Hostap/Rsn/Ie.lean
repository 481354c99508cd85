import Hostap.Ft.Ies
import Hostap.Lib.Attempt

/-!
# RSN and WPA elements

The elements an authenticator announces its policy with (`src/ap/wpa_auth_ie.c`), and the parsers of
`src/common/wpa_common.c` that read them. The writers are straight-line code that appends one suite after
the other to a buffer; here they are attempts on the octets written so far, so that what a writer leaves
behind when it gives up is known too. The tables of the writers and those of the parsers are written down
separately, as in the source.

`wpaParseWpaIeRsnData` keeps all of `struct wpa_ie_data`. `wpaParseWpaIeRsn_eq_data` relates it to the part
that FT looks at.
-/

namespace Hostap

open Octets Attempt

/-! ## Parsing -/

/-- `struct wpa_ie_data`. `pmkid` is what stands from the PMKID list on. A cipher is absent where the field
is zero. -/
structure WpaIe where
  proto : Proto
  pairwiseCipher : List Cipher
  groupCipher : Option Cipher
  keyMgmt : List Akm
  capabilities : Nat := 0
  pmkid : Option Bytes := none
  numPmkid : Nat := 0
  mgmtGroupCipher : Option Cipher
  deriving DecidableEq

/-- The header of an RSNE or of an OSEN element: the defaults and what follows. -/
def rsnIeDefaults (ie : Bytes) : Option (WpaIe × Bytes) :=
  if ie.length < 4 then none
  else if 6 ≤ ie.length ∧ 4 ≤ (ie.getD 1 0).toNat ∧ (ie.getD 1 0).toNat = ie.length - 2 ∧
      rsnSelectorGet (ie.drop 2) = 0x506f9a12 then
    some (⟨.osen, [.ccmp], some .gtkNotUsed, [.osen], 0, none, 0, some .aes128Cmac⟩, ie.drop 6)
  else if ie.getD 0 0 ≠ 48 ∨ (ie.getD 1 0).toNat ≠ ie.length - 2 ∨ getLe16 (ie.drop 2) ≠ 1 then none
  else some (⟨.rsn, [.ccmp], some .ccmp, [.ieee8021x], 0, none, 0, some .aes128Cmac⟩, ie.drop 4)

def ieGroupSuite (toBitfield : Bytes → Option Cipher) (valid : Option Cipher → Bool) (left : Bytes) :
    Option (Option (Option Cipher) × Bytes) :=
  if rsnSelectorLen ≤ left.length then
    if valid (toBitfield left) then some (some (toBitfield left), left.drop rsnSelectorLen) else none
  else if 0 < left.length then none
  else some (none, left)

def ieCapabilities (left : Bytes) : Nat × Bytes :=
  if 2 ≤ left.length then (getLe16 left, left.drop 2) else (0, left)

def iePmkidList (left : Bytes) : Option (Option Bytes × Nat × Bytes) :=
  if 2 ≤ left.length then
    if (left.drop 2).length / pmkidLen < getLe16 left then none
    else some (some (left.drop 2), getLe16 left, (left.drop 2).drop (getLe16 left * pmkidLen))
  else some (none, 0, left)

def ieMgmtGroup (dflt : Option Cipher) (left : Bytes) : Option (Option Cipher) :=
  if 4 ≤ left.length then
    if (rsnSelectorToBitfield left).any wpaCipherValidMgmtGroup then some (rsnSelectorToBitfield left) else none
  else some dflt

/-- `wpa_parse_wpa_ie_rsn()`, with all it returns. -/
def wpaParseWpaIeRsnData (ie : Bytes) : Option WpaIe := do
  let (data, left) ← rsnIeDefaults ie
  let (group, left) ← ieGroupSuite rsnSelectorToBitfield (·.any wpaCipherValidGroup) left
  let (pairwise, left) ← rsnIeSuites rsnSelectorToBitfield left
  if pairwise.any (·.contains .aes128Cmac) then none
  let (keyMgmt, left) ← rsnIeSuites rsnKeyMgmtToBitfield left
  let capabilities := ieCapabilities left
  let (pmkid, numPmkid, left) ← iePmkidList capabilities.2
  let mgmtGroupCipher ← ieMgmtGroup data.mgmtGroupCipher left
  return { data with
    groupCipher := group.getD data.groupCipher
    pairwiseCipher := pairwise.getD data.pairwiseCipher
    keyMgmt := keyMgmt.getD data.keyMgmt
    capabilities := capabilities.1
    pmkid
    numPmkid
    mgmtGroupCipher }

/-- `wpa_selector_to_bitfield()`. -/
def wpaSelectorToBitfield (s : Bytes) : Option Cipher :=
  match rsnSelectorGet s with
  | 0x0050f200 => some .none
  | 0x0050f202 => some .tkip
  | 0x0050f204 => some .ccmp
  | _ => none

/-- `wpa_key_mgmt_to_bitfield()`. -/
def wpaKeyMgmtToBitfield (s : Bytes) : Option Akm :=
  match rsnSelectorGet s with
  | 0x0050f201 => some .ieee8021x
  | 0x0050f202 => some .psk
  | 0x0050f200 => some .wpaNone
  | _ => none

def wpaIeDefaults (ie : Bytes) : Option (WpaIe × Bytes) :=
  if ie.length < 8 then none
  else if ie.getD 0 0 ≠ 221 ∨ (ie.getD 1 0).toNat ≠ ie.length - 2 ∨ rsnSelectorGet (ie.drop 2) ≠ 0x0050f201 ∨
      getLe16 (ie.drop 6) ≠ 1 then
    none
  else some (⟨.wpa, [.tkip], some .tkip, [.ieee8021x], 0, none, 0, none⟩, ie.drop 8)

/-- `wpa_parse_wpa_ie_wpa()`. -/
def wpaParseWpaIeWpa (ie : Bytes) : Option WpaIe := do
  let (data, left) ← wpaIeDefaults ie
  let (group, left) ← ieGroupSuite wpaSelectorToBitfield (fun _ => true) left
  let (pairwise, left) ← rsnIeSuites wpaSelectorToBitfield left
  let (keyMgmt, left) ← rsnIeSuites wpaKeyMgmtToBitfield left
  return { data with
    groupCipher := group.getD data.groupCipher
    pairwiseCipher := pairwise.getD data.pairwiseCipher
    keyMgmt := keyMgmt.getD data.keyMgmt
    capabilities := (ieCapabilities left).1 }

def WpaIe.ft (data : WpaIe) : WpaIeData := ⟨data.pairwiseCipher, data.keyMgmt, data.pmkid, data.numPmkid⟩

theorem rsnIeHeader_eq (ie : Bytes) :
    rsnIeHeader ie = (rsnIeDefaults ie).map fun r => (⟨[.ccmp], r.1.keyMgmt, none, 0⟩, r.2) := by
  unfold rsnIeHeader rsnIeDefaults
  by_cases hshort : ie.length < 4
  · rw [if_pos hshort, if_pos hshort]
    rfl
  rw [if_neg hshort, if_neg hshort]
  by_cases hosen : 6 ≤ ie.length ∧ 4 ≤ (ie.getD 1 0).toNat ∧ (ie.getD 1 0).toNat = ie.length - 2 ∧
      rsnSelectorGet (ie.drop 2) = 0x506f9a12
  · rw [if_pos hosen, if_pos hosen]
    rfl
  rw [if_neg hosen, if_neg hosen]
  by_cases hbad : ie.getD 0 0 ≠ 48 ∨ (ie.getD 1 0).toNat ≠ ie.length - 2 ∨ getLe16 (ie.drop 2) ≠ 1
  · rw [if_pos hbad, if_pos hbad]
    rfl
  · rw [if_neg hbad, if_neg hbad]
    rfl

theorem rsnIeDefaults_pairwise {ie left : Bytes} {data : WpaIe} (h : rsnIeDefaults ie = some (data, left)) :
    data.pairwiseCipher = [.ccmp] := by
  unfold rsnIeDefaults at h
  split at h
  · cases h
  · split at h
    · cases h
      rfl
    · split at h
      · cases h
      · cases h
        rfl

theorem rsnIeGroup_eq (left : Bytes) :
    rsnIeGroup left = (ieGroupSuite rsnSelectorToBitfield (·.any wpaCipherValidGroup) left).map (·.2) := by
  unfold rsnIeGroup ieGroupSuite
  by_cases hlen : rsnSelectorLen ≤ left.length
  · rw [if_pos hlen, if_pos hlen]
    by_cases hvalid : (rsnSelectorToBitfield left).any wpaCipherValidGroup = true
    · rw [if_pos hvalid, if_pos hvalid]
      rfl
    · rw [if_neg hvalid, if_neg hvalid]
      rfl
  · rw [if_neg hlen, if_neg hlen]
    by_cases hmore : 0 < left.length
    · rw [if_pos hmore, if_pos hmore]
      rfl
    · rw [if_neg hmore, if_neg hmore]
      rfl

theorem rsnIePmkids_eq (left : Bytes) : rsnIePmkids left = iePmkidList (ieCapabilities left).2 := by
  unfold rsnIePmkids iePmkidList ieCapabilities
  by_cases hcap : 2 ≤ left.length
  · simp only [if_pos hcap]
  · simp only [if_neg hcap]

theorem wpaParseWpaIeRsn_eq_data (ie : Bytes) :
    wpaParseWpaIeRsn ie = (wpaParseWpaIeRsnData ie).map WpaIe.ft := by
  unfold wpaParseWpaIeRsn wpaParseWpaIeRsnData
  rw [rsnIeHeader_eq]
  cases hhdr : rsnIeDefaults ie with
  | none => rfl
  | some r =>
    obtain ⟨data, left⟩ := r
    have hpairwise := rsnIeDefaults_pairwise hhdr
    simp only [Option.map_some, bind, Option.bind_some, rsnIeGroup_eq]
    cases hgroup : ieGroupSuite rsnSelectorToBitfield (·.any wpaCipherValidGroup) left with
    | none => rfl
    | some r =>
      obtain ⟨group, left⟩ := r
      simp only [Option.map_some, Option.bind_some]
      cases hpw : rsnIeSuites rsnSelectorToBitfield left with
      | none => rfl
      | some r =>
        obtain ⟨pairwise, left⟩ := r
        simp only [Option.bind_some]
        by_cases hcmac : pairwise.any (·.contains .aes128Cmac) = true
        · rw [if_pos hcmac, if_pos hcmac]
          rfl
        rw [if_neg hcmac, if_neg hcmac]
        simp only [pure]
        cases hkm : rsnIeSuites rsnKeyMgmtToBitfield left with
        | none => rfl
        | some r =>
          obtain ⟨keyMgmt, left⟩ := r
          simp only [Option.bind_some, rsnIePmkids_eq]
          cases hpmkid : iePmkidList (ieCapabilities left).2 with
          | none => rfl
          | some r =>
            obtain ⟨pmkid, numPmkid, left⟩ := r
            simp only [Option.bind_some]
            unfold ieMgmtGroup
            by_cases hlen : 4 ≤ left.length
            · by_cases hvalid : (rsnSelectorToBitfield left).any wpaCipherValidMgmtGroup = true
              · rw [if_pos hlen, if_pos hvalid, if_neg (by simp [hvalid])]
                simp [WpaIe.ft, hpairwise]
              · rw [if_pos hlen, if_neg hvalid, if_pos ⟨hlen, hvalid⟩]
                rfl
            · rw [if_neg hlen, if_neg (by simp [hlen])]
              simp [WpaIe.ft, hpairwise]

/-! ## Writing -/

/-- `enum mfp_options`. -/
inductive MfpOptions
  | noManagementFrameProtection
  | managementFrameProtectionOptional
  | managementFrameProtectionRequired
  deriving DecidableEq

/-- `struct wpa_auth_config`, what the elements and their validation depend on. -/
structure WpaIeConf where
  wpa : List Proto
  wpaKeyMgmt : List Akm
  wpaPairwise : List Cipher := []
  wpaGroup : Cipher
  rsnPreauth : Bool := false
  rsnPairwise : List Cipher := []
  wmmEnabled : Bool := false
  okc : Bool := false
  ieee80211w : MfpOptions := .noManagementFrameProtection
  groupMgmtCipher : Cipher := .aes128Cmac
  saeRequireMfp : Bool := false
  mobilityDomain : Bytes
  mobilityDomain_length : mobilityDomain.length = 2
  ftOverDs : Bool := false

/-- The selectors of the members of a set, in the order of the steps of a writer. -/
def putSuites {α : Type} [DecidableEq α] (steps : List (α × Nat)) (set : List α) : List Nat :=
  (steps.filter fun s => s.1 ∈ set).map (·.2)

/-- `RSN_SELECTOR_PUT()` of a list of selectors. -/
def suitesOctets (suites : List Nat) : Bytes := suites.flatMap (natBe 4)

/-- The steps of `rsn_cipher_put_suites()`. -/
def rsnCipherSteps : List (Cipher × Nat) :=
  [(.ccmp256, 0x000fac0a), (.gcmp256, 0x000fac09), (.ccmp, 0x000fac04), (.gcmp, 0x000fac08),
  (.tkip, 0x000fac02),
    (.none, 0x000fac00)]

/-- The steps of `wpa_cipher_put_suites()`. -/
def wpaCipherSteps : List (Cipher × Nat) := [(.ccmp, 0x0050f204), (.tkip, 0x0050f202), (.none, 0x0050f200)]

/-- The AKM steps of `wpa_write_rsn_ie()`. -/
def rsnAkmSteps : List (Akm × Nat) :=
  [(.ieee8021x, 0x000fac01), (.psk, 0x000fac02), (.ftIeee8021x, 0x000fac03), (.ftIeee8021xSha384, 0x000fac0d),
    (.ftPsk, 0x000fac04), (.ieee8021xSha256, 0x000fac05), (.pskSha256, 0x000fac06), (.sae, 0x000fac08),
    (.ftSae, 0x000fac09), (.ieee8021xSuiteB, 0x000fac0b), (.ieee8021xSuiteB192, 0x000fac0c),
    (.filsSha256, 0x000fac0e), (.filsSha384, 0x000fac0f), (.ftFilsSha256, 0x000fac10), (.ftFilsSha384,
    0x000fac11), (.owe, 0x000fac12), (.dpp, 0x506f9a02), (.osen, 0x506f9a01)]

/-- The AKM steps of `wpa_write_wpa_ie()`. -/
def wpaAkmSteps : List (Akm × Nat) := [(.ieee8021x, 0x0050f201), (.psk, 0x0050f202)]

/-- `wpa_cipher_to_suite()` of one cipher. -/
def wpaCipherToSuiteOf (rsn : Bool) : Cipher → Option Nat
  | .ccmp256 => some 0x000fac0a
  | .gcmp256 => some 0x000fac09
  | .ccmp => some (if rsn then 0x000fac04 else 0x0050f204)
  | .gcmp => some 0x000fac08
  | .tkip => some (if rsn then 0x000fac02 else 0x0050f202)
  | .none => some (if rsn then 0x000fac00 else 0x0050f200)
  | .gtkNotUsed => some 0x000fac07
  | .aes128Cmac => some 0x000fac06
  | .bipGmac128 => some 0x000fac0b
  | .bipGmac256 => some 0x000fac0c
  | .bipCmac256 => some 0x000fac0d
  | _ => none

def putOctets (octets : Bytes) : Attempt Bytes Unit := write (· ++ octets)

/-- A count and that many suites; a writer gives up where there are none. -/
def writeSuites (suites : List Nat) : Attempt Bytes Unit := do
  require (suites ≠ [])
  putOctets (le16 suites.length ++ suitesOctets suites)

/-- `hdr->len` is filled in. -/
def writeIeLen : Attempt Bytes Unit := write fun ie => ie.set 1 (UInt8.ofNat (ie.length - 2))

/-- `wpa_write_wpa_ie()`. -/
def wpaWriteWpaIe (conf : WpaIeConf) : Attempt Bytes Unit := do
  putOctets ([221, 0] ++ natBe 4 0x0050f201 ++ le16 1)
  let suite ← give (wpaCipherToSuiteOf false conf.wpaGroup)
  putOctets (natBe 4 suite)
  writeSuites (putSuites wpaCipherSteps conf.wpaPairwise)
  writeSuites (putSuites wpaAkmSteps conf.wpaKeyMgmt)
  writeIeLen

/-- The bits of `ieee80211w` in the RSN capabilities. -/
def mfpCapab : MfpOptions → Nat
  | .noManagementFrameProtection => 0
  | .managementFrameProtectionOptional => 0x80
  | .managementFrameProtectionRequired => 0x80 + 0x40

def rsnCapab (conf : WpaIeConf) : Nat :=
  (if conf.rsnPreauth then 1 else 0) + (if conf.wmmEnabled then 12 else 0) + mfpCapab conf.ieee80211w

def WpaIeConf.writesMgmtGroup (conf : WpaIeConf) : Prop :=
  conf.ieee80211w ≠ .noManagementFrameProtection ∧ conf.groupMgmtCipher ≠ .aes128Cmac

instance (conf : WpaIeConf) : Decidable conf.writesMgmtGroup :=
  inferInstanceAs (Decidable (_ ∧ _))

/-- The switch over `group_mgmt_cipher` in `wpa_write_rsn_ie()`. -/
def mgmtGroupSuite : Cipher → Option Nat
  | .aes128Cmac => some 0x000fac06
  | .bipGmac128 => some 0x000fac0b
  | .bipGmac256 => some 0x000fac0c
  | .bipCmac256 => some 0x000fac0d
  | _ => none

/-- The PMKID of `wpa_write_rsn_ie()`, where there is room for it. -/
def writePmkid (room : Nat) : Option Bytes → Attempt Bytes Unit
  | none => pure ()
  | some pmkid => do
    let ie ← look
    require (2 + pmkidLen ≤ room - ie.length)
    putOctets (le16 1 ++ pmkid)

/-- The group management cipher of `wpa_write_rsn_ie()`. -/
def writeMgmtGroup (conf : WpaIeConf) (room : Nat) (pmkid : Option Bytes) : Attempt Bytes Unit :=
  if conf.writesMgmtGroup then do
    let ie ← look
    require (2 + 4 ≤ room - ie.length)
    putOctets (if pmkid.isNone then le16 0 else [])
    let suite ← give (mgmtGroupSuite conf.groupMgmtCipher)
    putOctets (natBe 4 suite)
  else pure ()

/-- `wpa_write_rsn_ie()` into a buffer of `room` octets. Only the two optional fields at the end look at it. -/
def wpaWriteRsnIe (conf : WpaIeConf) (room : Nat) (pmkid : Option Bytes) : Attempt Bytes Unit := do
  putOctets ([48, 0] ++ le16 1)
  let suite ← give (wpaCipherToSuiteOf true conf.wpaGroup)
  putOctets (natBe 4 suite)
  writeSuites (putSuites rsnCipherSteps conf.rsnPairwise)
  writeSuites (putSuites rsnAkmSteps conf.wpaKeyMgmt)
  putOctets (le16 (rsnCapab conf))
  writePmkid room pmkid
  writeMgmtGroup conf room pmkid
  writeIeLen

/-- `wpa_write_osen()`. -/
def wpaWriteOsen (conf : WpaIeConf) : Bytes :=
  [221, 22] ++ natBe 4 0x506f9a12 ++ natBe 4 0x000fac07 ++ le16 1 ++ natBe 4 0x000fac04 ++ le16 1 ++
    natBe 4 0x506f9a01 ++ le16 ((if conf.wmmEnabled then 12 else 0) + mfpCapab conf.ieee80211w)

/-- `wpa_write_mdie()`. -/
def wpaWriteMdieInto (conf : WpaIeConf) (room : Nat) : Attempt Bytes Unit := do
  require (2 + 3 ≤ room)
  putOctets ([54, 3] ++ conf.mobilityDomain ++ [if conf.ftOverDs then 1 else 0])

def writeElement (element : Attempt Bytes Unit) : Attempt Bytes Unit := fun buf =>
  ((element []).1, buf ++ (element []).2)

/-- `sizeof(buf)` of `wpa_auth_gen_wpa_ie()`. -/
abbrev genWpaIeBuf : Nat := 128

/-- `conf.wpa == WPA_PROTO_OSEN`. -/
def WpaIeConf.onlyOsen (conf : WpaIeConf) : Bool := .osen ∈ conf.wpa ∧ .rsn ∉ conf.wpa ∧ .wpa ∉ conf.wpa

/-- The RSNE of `wpa_auth_gen_wpa_ie()`. -/
def genRsnIe (conf : WpaIeConf) : Attempt Bytes Unit :=
  if .rsn ∈ conf.wpa then do
    let buf ← look
    writeElement (wpaWriteRsnIe conf (genWpaIeBuf - buf.length) none)
  else pure ()

/-- The MDE of `wpa_auth_gen_wpa_ie()`. -/
def genMdie (conf : WpaIeConf) : Attempt Bytes Unit :=
  if conf.wpaKeyMgmt.any wpaKeyMgmtFt then do
    let buf ← look
    writeElement (wpaWriteMdieInto conf (genWpaIeBuf - buf.length))
  else pure ()

/-- `wpa_auth_gen_wpa_ie()` on the octets of its buffer. -/
def wpaAuthGenWpaIe (conf : WpaIeConf) : Attempt Bytes Unit := do
  putOctets (if conf.onlyOsen then wpaWriteOsen conf else [])
  genRsnIe conf
  genMdie conf
  if .wpa ∈ conf.wpa then writeElement (wpaWriteWpaIe conf) else pure ()

end Hostap
