import Hostap.Pmksa.AuthCache
import Hostap.Pmksa.SuppCache
import Hostap.Ft.Reassoc
import Hostap.Rsn.IeRoundTrip
import Hostap.Rsn.SmallLib

/-!
# The element of an associating station

`wpa_validate_wpa_ie()` (`src/ap/wpa_auth_ie.c`) checks the RSN or WPA element of an Association Request
against the configuration and chooses the AKM and the pairwise cipher of the session. It goes through a list
of checks, each with a status of its own, and the choice of the AKM is a chain of tests in the middle.

All tests of the chain but one ask for an AKM that is both offered and enabled; the one for FT-FILS with
SHA-256 asks whether it is offered (`StrayFtFils`). Elsewhere the AKM that comes out is in common
(`pickKeyMgmt_mem`). `validated_wpa_ie` collects what holds of a session whose element was accepted.

The chosen suites of the MIB, and what is left in the state machine by a check that fails, are not modelled.
-/

namespace Hostap

open Octets List

/-! ## The choice of the AKM -/

/-- The tests for the AKM, in their order: what is chosen, and whether it is. -/
def keyMgmtTests (offered keyMgmt : List Akm) : List (Akm × Bool) :=
  [(.ieee8021xSuiteB192, .ieee8021xSuiteB192 ∈ keyMgmt),
    (.ieee8021xSuiteB, .ieee8021xSuiteB ∈ keyMgmt),
    (.ftFilsSha384, .ftFilsSha384 ∈ keyMgmt),
    -- this one looks at what the station offers
    (.ftFilsSha256, .ftFilsSha256 ∈ offered),
    (.filsSha384, .filsSha384 ∈ keyMgmt),
    (.filsSha256, .filsSha256 ∈ keyMgmt),
    (.ftIeee8021xSha384, .ftIeee8021xSha384 ∈ keyMgmt),
    (.ftIeee8021x, .ftIeee8021x ∈ keyMgmt),
    (.ftPsk, .ftPsk ∈ keyMgmt),
    (.ieee8021xSha256, .ieee8021xSha256 ∈ keyMgmt),
    (.pskSha256, .pskSha256 ∈ keyMgmt),
    (.sae, .sae ∈ keyMgmt),
    (.ftSae, .ftSae ∈ keyMgmt),
    (.ieee8021x, .ieee8021x ∈ keyMgmt),
    (.owe, .owe ∈ keyMgmt),
    (.dpp, .dpp ∈ keyMgmt),
    (.osen, .osen ∈ keyMgmt)]

def pickKeyMgmt (offered keyMgmt : List Akm) : Akm :=
  match (keyMgmtTests offered keyMgmt).find? (·.2) with
  | some test => test.1
  | none => .psk

/-- The test for FT-FILS with SHA-256 is reached and passed without the AKM being in common. -/
def StrayFtFils (offered keyMgmt : List Akm) : Prop :=
  .ftFilsSha256 ∈ offered ∧ .ftFilsSha256 ∉ keyMgmt ∧ .ieee8021xSuiteB192 ∉ keyMgmt ∧
    .ieee8021xSuiteB ∉ keyMgmt ∧ .ftFilsSha384 ∉ keyMgmt

def testedAkms : List Akm :=
  [.ieee8021xSuiteB192, .ieee8021xSuiteB, .ftFilsSha384, .ftFilsSha256, .filsSha384, .filsSha256,
    .ftIeee8021xSha384, .ftIeee8021x, .ftPsk, .ieee8021xSha256, .pskSha256, .sae, .ftSae, .ieee8021x, .owe,
    .dpp, .osen]

theorem keyMgmtTests_passed {offered keyMgmt : List Akm} {test : Akm × Bool}
    (hmem : test ∈ keyMgmtTests offered keyMgmt) (hpassed : test.2 = true) :
    test.1 ∈ keyMgmt ∨ test = (.ftFilsSha256, decide (.ftFilsSha256 ∈ offered)) := by
  simp only [keyMgmtTests, mem_cons, not_mem_nil, or_false] at hmem
  rcases hmem with h | h | h | h | h | h | h | h | h | h | h | h | h | h | h | h | h
  case inr.inr.inr.inl => exact Or.inr h
  all_goals
    subst h
    exact Or.inl (of_decide_eq_true hpassed)

theorem keyMgmtTests_failed {offered keyMgmt : List Akm} (hsub : keyMgmt ⊆ offered)
    (hfailed : ∀ test ∈ keyMgmtTests offered keyMgmt, ¬ test.2 = true) {akm : Akm}
    (htested : akm ∈ testedAkms) :
    akm ∉ keyMgmt := by
  intro hmem
  have hin : (akm, true) ∈ keyMgmtTests offered keyMgmt := by
    have hoffered := hsub hmem
    simp only [testedAkms, mem_cons, not_mem_nil, or_false] at htested
    rcases htested with h | h | h | h | h | h | h | h | h | h | h | h | h | h | h | h | h <;>
      subst h <;> simp [keyMgmtTests, hmem, hoffered]
  exact hfailed _ hin rfl

theorem pickKeyMgmt_mem {offered keyMgmt : List Akm} (hsub : keyMgmt ⊆ offered)
    (hstray : ¬ StrayFtFils offered keyMgmt) :
    pickKeyMgmt offered keyMgmt ∈ keyMgmt ∨
      (pickKeyMgmt offered keyMgmt = .psk ∧ ∀ akm ∈ testedAkms, akm ∉ keyMgmt) := by
  unfold pickKeyMgmt
  cases hfind : (keyMgmtTests offered keyMgmt).find? (·.2) with
  | none =>
    refine Or.inr ⟨rfl, fun akm htested => keyMgmtTests_failed hsub ?_ htested⟩
    exact find?_eq_none.1 hfind
  | some test =>
    left
    have hpassed : test.2 = true := find?_some hfind
    rcases keyMgmtTests_passed (mem_of_find?_eq_some hfind) hpassed with h | h
    · exact h
    · -- the three tests before it were not passed
      subst h
      by_cases hcommon : .ftFilsSha256 ∈ keyMgmt
      · exact hcommon
      · refine absurd ⟨of_decide_eq_true hpassed, hcommon, ?_, ?_, ?_⟩ hstray
        all_goals
          intro hearlier
          simp only [keyMgmtTests, find?_cons, hearlier, decide_true] at hfind
          grind

/-! ## Validation -/

/-- What `wpa_validate_wpa_ie()` returns where it does not return `WPA_IE_OK`. -/
inductive WpaValidateResult
  | invalidIe
  | invalidGroup
  | invalidPairwise
  | invalidAkmp
  | allocFail
  | mgmtFrameProtectionViolation
  | invalidMgmtGroupCipher
  | invalidMdie
  | invalidProto
  | invalidPmkid
  deriving DecidableEq, Repr

/-- `struct wpa_authenticator`, what validation depends on. `others` are the PMKSA caches that
`wpa_auth_for_each_auth()` goes through. -/
structure IeAuthenticator where
  conf : WpaIeConf
  addr : Bytes
  pmksa : PmksaAuthCache := {}
  others : List PmksaAuthCache := []
  okcAlloc : OkcAlloc := {}
  ieAlloc : Bool := true

/-- The part of `struct wpa_state_machine` that is set. -/
structure WpaIeSm where
  wpaKeyMgmt : Akm
  pairwise : Cipher
  mgmtFrameProt : Bool
  wpa : Proto
  pmksa : Option PmksaAuthEntry
  wpaIe : Bytes
  deriving DecidableEq

/-- Goes on if the condition holds, and otherwise returns the status. -/
def check (p : Prop) [Decidable p] (status : WpaValidateResult) : Except WpaValidateResult Unit :=
  if p then .ok () else .error status

def orStatus {α : Type} (o : Option α) (status : WpaValidateResult) : Except WpaValidateResult α :=
  match o with
  | some a => .ok a
  | none => .error status

/-- `WPA_CAPABILITY_MFPC`. -/
def capabilityMfpc (capabilities : Nat) : Bool := capabilities.testBit 7

/-- `pmksa_cache_get_okc()`. -/
def pmksaCacheGetOkc (lib : RsnLib) (c : PmksaAuthCache) (aa spa pmkid : Bytes) : Option PmksaAuthEntry :=
  c.pmksa.find? fun entry => entry.spa = spa ∧ rsnPmkid lib entry.pmk aa spa entry.akmp = pmkid

def WpaIe.pmkidList (data : WpaIe) : List Bytes :=
  (List.range data.numPmkid).map fun i => ((data.pmkid.getD []).drop (i * pmkidLen)).take pmkidLen

/-- The entry `pmksa_cache_add_okc()` returns. -/
def okcEntry (wpaAuth : IeAuthenticator) (old : PmksaAuthEntry) (pmkid : Bytes) : Option PmksaAuthEntry :=
  if wpaAuth.okcAlloc.entry then
    some (allocEntry (okcData old.toPmksaAuthData pmkid wpaAuth.okcAlloc) wpaAuth.pmksa).1
  else none

/-- The PMKSA of the session: one of the cache for a PMKID of the element, or one of opportunistic key caching.
-/
def findPmksa (lib : RsnLib) (wpaAuth : IeAuthenticator) (spa : Bytes) (pmkids : List Bytes) :
    Option PmksaAuthEntry :=
  match pmkids.findSome? fun pmkid => pmksaCacheAuthGet (some spa) (some pmkid) wpaAuth.pmksa with
  | some entry => some entry
  | none =>
    if wpaAuth.conf.okc then
      (pmkids.findSome? fun pmkid =>
        (wpaAuth.others.findSome? fun c => pmksaCacheGetOkc lib c wpaAuth.addr spa pmkid).map fun old =>
          (old, pmkid)).bind fun found => okcEntry wpaAuth found.1 found.2
    else none

def ieVersion (wpaIe : Bytes) : Proto := if wpaIe.headD 0 = 48 then .rsn else .wpa

def parseIeOf (wpaIe : Bytes) : Option WpaIe :=
  if ieVersion wpaIe = .rsn then wpaParseWpaIeRsnData wpaIe else wpaParseWpaIeWpa wpaIe

def WpaIeConf.pairwiseOf (conf : WpaIeConf) (version : Proto) : List Cipher :=
  if version = .rsn then conf.rsnPairwise else conf.wpaPairwise

def checkMfp (conf : WpaIeConf) (data : WpaIe) (keyMgmt : Akm) (ciphers : List Cipher) :
    Except WpaValidateResult Bool := do
  check (conf.ieee80211w = .managementFrameProtectionRequired → capabilityMfpc data.capabilities)
    .mgmtFrameProtectionViolation
  check (conf.ieee80211w = .managementFrameProtectionRequired →
    data.mgmtGroupCipher = some conf.groupMgmtCipher) .invalidMgmtGroupCipher
  check (conf.ieee80211w = .managementFrameProtectionOptional ∧ conf.saeRequireMfp ∧ wpaKeyMgmtSae keyMgmt →
    capabilityMfpc data.capabilities) .mgmtFrameProtectionViolation
  let mgmtFrameProt := decide
    (conf.ieee80211w ≠ .noManagementFrameProtection) && capabilityMfpc data.capabilities
  check (¬ (mgmtFrameProt ∧ .tkip ∈ ciphers)) .mgmtFrameProtectionViolation
  return mgmtFrameProt

def checkMdie (conf : WpaIeConf) (keyMgmt : Akm) (mdie : Option Bytes) : Except WpaValidateResult Unit :=
  if wpaKeyMgmtFt keyMgmt then do
    let mdie ← orStatus mdie .invalidMdie
    check (3 ≤ mdie.length) .invalidMdie
    check (mdie.take 2 = conf.mobilityDomain) .invalidMdie
  else
    check mdie.isNone .invalidAkmp

/-- `wpa_validate_wpa_ie()`: the status, or what the state machine is set to with `WPA_IE_OK`. -/
def wpaValidateWpaIe (lib : RsnLib) (wpaAuth : IeAuthenticator) (addr wpaIe : Bytes)
    (mdie oweDh : Option Bytes) :
    Except WpaValidateResult WpaIeSm := do
  check (1 ≤ wpaIe.length) .invalidIe
  check (ieVersion wpaIe ∈ wpaAuth.conf.wpa) .invalidProto
  let data ← orStatus (parseIeOf wpaIe) .invalidIe
  check (data.groupCipher = some wpaAuth.conf.wpaGroup) .invalidGroup
  let keyMgmt := data.keyMgmt.filter (· ∈ wpaAuth.conf.wpaKeyMgmt)
  check (keyMgmt ≠ []) .invalidAkmp
  let wpaKeyMgmt := pickKeyMgmt data.keyMgmt keyMgmt
  let ciphers := data.pairwiseCipher.filter (· ∈ wpaAuth.conf.pairwiseOf (ieVersion wpaIe))
  check (ciphers ≠ []) .invalidPairwise
  let mgmtFrameProt ← checkMfp wpaAuth.conf data wpaKeyMgmt ciphers
  checkMdie wpaAuth.conf wpaKeyMgmt mdie
  check (wpaKeyMgmt = .owe → oweDh.isSome) .invalidAkmp
  check (wpaKeyMgmt ≠ .owe → oweDh.isNone) .invalidAkmp
  let pairwise ← orStatus (wpaPickPairwiseCipher ciphers) .invalidPairwise
  let pmksa := findPmksa lib wpaAuth addr data.pmkidList
  check (¬ (wpaKeyMgmt = .sae ∧ data.numPmkid ≠ 0 ∧ pmksa = none)) .invalidPmkid
  check (¬ (wpaKeyMgmt = .dpp ∧ pmksa = none)) .invalidPmkid
  check wpaAuth.ieAlloc .allocFail
  return ⟨wpaKeyMgmt, pairwise, mgmtFrameProt, ieVersion wpaIe, pmksa, wpaIe⟩

/-! ## What holds of an accepted element -/

section Accepted

variable {lib : RsnLib} {wpaAuth : IeAuthenticator} {addr wpaIe : Bytes} {mdie oweDh : Option Bytes}
  {sm : WpaIeSm} {data : WpaIe}

theorem bind_status_ok {α β : Type} {x : Except WpaValidateResult α} {f : α → Except WpaValidateResult β}
    {b : β} (h : x >>= f = .ok b) : ∃ a, x = .ok a ∧ f a = .ok b := by
  cases x with
  | error status => cases h
  | ok a => exact ⟨a, rfl, h⟩

theorem check_bind_ok {p : Prop} [Decidable p] {status : WpaValidateResult} {β : Type}
    {f : Unit → Except WpaValidateResult β} {b : β} (h : check p status >>= f = .ok b) : p ∧ f () = .ok b := by
  unfold check at h
  by_cases hp : p
  · rw [if_pos hp] at h
    exact ⟨hp, h⟩
  · rw [if_neg hp] at h
    cases h

theorem orStatus_bind_ok {α β : Type} {o : Option α} {status : WpaValidateResult}
    {f : α → Except WpaValidateResult β} {b : β} (h : orStatus o status >>= f = .ok b) :
    ∃ a, o = some a ∧ f a = .ok b := by
  cases o with
  | none => cases h
  | some a => exact ⟨a, rfl, h⟩

theorem checkMfp_ok {conf : WpaIeConf} {keyMgmt : Akm} {ciphers : List Cipher} {mgmtFrameProt : Bool}
    (h : checkMfp conf data keyMgmt ciphers = .ok mgmtFrameProt)
    (hrequired : conf.ieee80211w = .managementFrameProtectionRequired ∨
      conf.ieee80211w = .managementFrameProtectionOptional ∧ conf.saeRequireMfp = true ∧
        wpaKeyMgmtSae keyMgmt = true) :
    mgmtFrameProt = true := by
  obtain ⟨hmfpc, h₁⟩ := check_bind_ok h
  obtain ⟨-, h₂⟩ := check_bind_ok h₁
  obtain ⟨hsae, h₃⟩ := check_bind_ok h₂
  obtain ⟨-, h₄⟩ := check_bind_ok h₃
  cases h₄
  rcases hrequired with h | ⟨h, hreq, hakm⟩
  · simp [h, hmfpc h]
  · simp [h, hsae ⟨h, hreq, hakm⟩]

theorem wpaValidateWpaIe_ok (h : wpaValidateWpaIe lib wpaAuth addr wpaIe mdie oweDh = .ok sm) :
    ∃ data, parseIeOf wpaIe = some data ∧ data.groupCipher = some wpaAuth.conf.wpaGroup ∧
      sm.wpaKeyMgmt = pickKeyMgmt data.keyMgmt (data.keyMgmt.filter (· ∈ wpaAuth.conf.wpaKeyMgmt)) ∧
      wpaPickPairwiseCipher (data.pairwiseCipher.filter (· ∈ wpaAuth.conf.pairwiseOf (ieVersion wpaIe))) =
        some sm.pairwise ∧
      checkMfp wpaAuth.conf data sm.wpaKeyMgmt
        (data.pairwiseCipher.filter (· ∈ wpaAuth.conf.pairwiseOf (ieVersion wpaIe))) =
        .ok sm.mgmtFrameProt := by
  obtain ⟨-, h₁⟩ := check_bind_ok h
  obtain ⟨-, h₂⟩ := check_bind_ok h₁
  obtain ⟨data, hparse, h₃⟩ := orStatus_bind_ok h₂
  obtain ⟨hgroup, h₄⟩ := check_bind_ok h₃
  obtain ⟨-, h₅⟩ := check_bind_ok h₄
  obtain ⟨-, h₆⟩ := check_bind_ok h₅
  obtain ⟨mgmtFrameProt, hmfp, h₇⟩ := bind_status_ok h₆
  obtain ⟨-, -, h₈⟩ := bind_status_ok h₇
  obtain ⟨-, h₉⟩ := check_bind_ok h₈
  obtain ⟨-, h₁₀⟩ := check_bind_ok h₉
  obtain ⟨pairwise, hpairwise, h₁₁⟩ := orStatus_bind_ok h₁₀
  obtain ⟨-, h₁₂⟩ := check_bind_ok h₁₁
  obtain ⟨-, h₁₃⟩ := check_bind_ok h₁₂
  obtain ⟨-, h₁₄⟩ := check_bind_ok h₁₃
  cases h₁₄
  exact ⟨data, hparse, hgroup, rfl, hpairwise, hmfp⟩

theorem wpaPickPairwiseCipher_mem {ciphers : List Cipher} {cipher : Cipher}
    (h : wpaPickPairwiseCipher ciphers = some cipher) : cipher ∈ ciphers := by
  unfold wpaPickPairwiseCipher at h
  have hmem := find?_some h
  exact of_decide_eq_true hmem

/-! ### Suites of an element -/

theorem rsnIeSuites_mem {α : Type} {toBitfield : Bytes → Option α} {left rest : Bytes} {suites : List α}
    (h : rsnIeSuites toBitfield left = some (some suites, rest)) {a : α} (ha : a ∈ suites) :
    ∃ s, toBitfield s = some a := by
  unfold rsnIeSuites at h
  split at h
  · dsimp only at h
    split at h
    · cases h
    · cases h
      obtain ⟨i, -, hi⟩ := mem_filterMap.1 ha
      exact ⟨_, hi⟩
  · split at h <;> cases h

theorem rsnKeyMgmtToBitfield_tested {s : Bytes} {akm : Akm} (h : rsnKeyMgmtToBitfield s = some akm) :
    akm = .psk ∨ akm ∈ testedAkms := by
  unfold rsnKeyMgmtToBitfield at h
  split at h <;> cases h <;> decide

theorem wpaKeyMgmtToBitfield_tested {s : Bytes} {akm : Akm} (h : wpaKeyMgmtToBitfield s = some akm) :
    akm = .psk ∨ akm = .wpaNone ∨ akm ∈ testedAkms := by
  unfold wpaKeyMgmtToBitfield at h
  split at h <;> cases h <;> decide

theorem rsnIeDefaults_keyMgmt {ie left : Bytes} (h : rsnIeDefaults ie = some (data, left)) :
    ∀ akm ∈ data.keyMgmt, akm ∈ testedAkms := by
  unfold rsnIeDefaults at h
  split at h
  · cases h
  · split at h
    · cases h
      decide
    · split at h
      · cases h
      · cases h
        decide

theorem wpaIeDefaults_keyMgmt {ie left : Bytes} (h : wpaIeDefaults ie = some (data, left)) :
    ∀ akm ∈ data.keyMgmt, akm ∈ testedAkms := by
  unfold wpaIeDefaults at h
  split at h
  · cases h
  · split at h
    · cases h
    · cases h
      decide

theorem wpaParseWpaIeRsnData_keyMgmt {ie : Bytes} (h : wpaParseWpaIeRsnData ie = some data) {akm : Akm}
    (hakm : akm ∈ data.keyMgmt) : akm = .psk ∨ akm ∈ testedAkms := by
  simp only [wpaParseWpaIeRsnData, bind, Option.bind_eq_some_iff] at h
  obtain ⟨⟨dflt, left₁⟩, hdflt, ⟨group, left₂⟩, -, ⟨pairwise, left₃⟩, -, h⟩ := h
  by_cases hcmac : pairwise.any (·.contains .aes128Cmac) = true
  · rw [if_pos hcmac] at h
    cases h
  rw [if_neg hcmac] at h
  simp only [pure, Option.bind_eq_some_iff] at h
  obtain ⟨⟨keyMgmt, left₄⟩, hsuites, ⟨pmkid, numPmkid, left₅⟩, -, mgmt, -, h⟩ := h
  cases h
  cases keyMgmt with
  | none => exact Or.inr (rsnIeDefaults_keyMgmt hdflt akm hakm)
  | some suites =>
    obtain ⟨s, hs⟩ := rsnIeSuites_mem hsuites hakm
    exact rsnKeyMgmtToBitfield_tested hs

theorem wpaParseWpaIeWpa_keyMgmt {ie : Bytes} (h : wpaParseWpaIeWpa ie = some data) {akm : Akm}
    (hakm : akm ∈ data.keyMgmt) : akm = .psk ∨ akm = .wpaNone ∨ akm ∈ testedAkms := by
  simp only [wpaParseWpaIeWpa, bind, Option.bind_eq_some_iff] at h
  obtain ⟨⟨dflt, left₁⟩, hdflt, ⟨group, left₂⟩, -, ⟨pairwise, left₃⟩, -, ⟨keyMgmt, left₄⟩, hsuites, h⟩ := h
  cases h
  cases keyMgmt with
  | none => exact Or.inr (Or.inr (wpaIeDefaults_keyMgmt hdflt akm hakm))
  | some suites =>
    obtain ⟨s, hs⟩ := rsnIeSuites_mem hsuites hakm
    exact wpaKeyMgmtToBitfield_tested hs

theorem parseIeOf_keyMgmt {akm : Akm} (hparse : parseIeOf wpaIe = some data) (hakm : akm ∈ data.keyMgmt) :
    akm = .psk ∨ akm = .wpaNone ∨ akm ∈ testedAkms := by
  unfold parseIeOf at hparse
  by_cases hversion : ieVersion wpaIe = .rsn
  · rw [if_pos hversion] at hparse
    rcases wpaParseWpaIeRsnData_keyMgmt hparse hakm with h | h
    · exact Or.inl h
    · exact Or.inr (Or.inr h)
  · rw [if_neg hversion] at hparse
    exact wpaParseWpaIeWpa_keyMgmt hparse hakm

end Accepted

/-! ## What an accepted element settles -/

/-- AKM and pairwise cipher are offered and enabled, the group cipher is the configured one, and management
frame protection is negotiated where one of the two options asks for it. -/
structure ChosenOffered (conf : WpaIeConf) (wpaIe : Bytes) (data : WpaIe) (sm : WpaIeSm) : Prop where
  keyMgmt_offered : sm.wpaKeyMgmt ∈ data.keyMgmt
  keyMgmt_enabled : sm.wpaKeyMgmt ∈ conf.wpaKeyMgmt
  pairwise_offered : sm.pairwise ∈ data.pairwiseCipher
  pairwise_enabled : sm.pairwise ∈ conf.pairwiseOf (ieVersion wpaIe)
  group : data.groupCipher = some conf.wpaGroup
  mfp : conf.ieee80211w = .managementFrameProtectionRequired ∨
    (conf.saeRequireMfp = true ∧ wpaKeyMgmtSae sm.wpaKeyMgmt = true) → sm.mgmtFrameProt = true

def commonAkms (conf : WpaIeConf) (data : WpaIe) : List Akm := data.keyMgmt.filter (· ∈ conf.wpaKeyMgmt)

/-- An element that is accepted settles all of that, but for three things. `sae_require_mfp` is about a
network where management frame protection is optional, PSK stands for an AKM that only an independent
network has, and nothing is said of the AKM where `StrayFtFils` holds. -/
theorem validated_wpa_ie (lib : RsnLib) (wpaAuth : IeAuthenticator) (addr wpaIe : Bytes)
    (mdie oweDh : Option Bytes)
    (sm : WpaIeSm) (h : wpaValidateWpaIe lib wpaAuth addr wpaIe mdie oweDh = .ok sm) :
    ∃ data, parseIeOf wpaIe = some data ∧
      (¬ StrayFtFils data.keyMgmt (commonAkms wpaAuth.conf data) →
        sm.wpaKeyMgmt ∈ data.keyMgmt ∧ sm.wpaKeyMgmt ∈ wpaAuth.conf.wpaKeyMgmt ∨
          sm.wpaKeyMgmt = .psk ∧ ∀ akm ∈ data.keyMgmt, akm ∈ wpaAuth.conf.wpaKeyMgmt → akm = .wpaNone) ∧
      sm.pairwise ∈ data.pairwiseCipher ∧
      sm.pairwise ∈ wpaAuth.conf.pairwiseOf (ieVersion wpaIe) ∧
      data.groupCipher = some wpaAuth.conf.wpaGroup ∧
      (wpaAuth.conf.ieee80211w = .managementFrameProtectionRequired ∨
        wpaAuth.conf.ieee80211w = .managementFrameProtectionOptional ∧ wpaAuth.conf.saeRequireMfp = true ∧
          wpaKeyMgmtSae sm.wpaKeyMgmt = true → sm.mgmtFrameProt = true) := by
  obtain ⟨data, hparse, hgroup, hkeyMgmt, hpick, hmfp⟩ := wpaValidateWpaIe_ok h
  have hpairwise := mem_filter.1 (wpaPickPairwiseCipher_mem hpick)
  refine ⟨data, hparse, ?_, hpairwise.1, of_decide_eq_true hpairwise.2, hgroup, checkMfp_ok hmfp⟩
  intro hstray
  have hpicked := pickKeyMgmt_mem (filter_subset_self data.keyMgmt) hstray
  rw [hkeyMgmt]
  rcases hpicked with hmem | ⟨hpsk, hnone⟩
  · obtain ⟨hoffered, henabled⟩ := mem_filter.1 hmem
    exact Or.inl ⟨hoffered, of_decide_eq_true henabled⟩
  · by_cases hcommon : .psk ∈ commonAkms wpaAuth.conf data
    · obtain ⟨hoffered, henabled⟩ := mem_filter.1 hcommon
      left
      rw [show pickKeyMgmt _ _ = _ from hpsk]
      exact ⟨hoffered, of_decide_eq_true henabled⟩
    · refine Or.inr ⟨hpsk, fun akm hoffered henabled => ?_⟩
      have hmem : akm ∈ commonAkms wpaAuth.conf data :=
        mem_filter.2 ⟨hoffered, decide_eq_true henabled⟩
      rcases parseIeOf_keyMgmt hparse hoffered with rfl | rfl | htested
      · exact absurd hmem hcommon
      · rfl
      · exact absurd hmem (hnone akm htested)

def smallRsnElement (akms : List Nat) (capabilities : Nat) : Bytes :=
  let body := le16 1 ++ natBe 4 0x000fac04 ++ le16 1 ++ natBe 4 0x000fac04 ++ le16 akms.length ++
    suitesOctets akms ++ le16 capabilities
  [48, UInt8.ofNat body.length] ++ body

def smallSaeMfpConf (ieee80211w : MfpOptions) : WpaIeConf :=
  { smallIeConf with ieee80211w, saeRequireMfp := true }

/-- A station that chooses SAE and is capable of management frame protection. -/
theorem validated_wpa_ie_small :
    ∃ sm, wpaValidateWpaIe smallRsnLib ⟨smallSaeMfpConf .managementFrameProtectionOptional, zeros 6, {}, [], {},
    true⟩
        (zeros 6) (smallRsnElement [0x000fac02, 0x000fac08] 0x80) none none = .ok sm ∧
      sm.wpaKeyMgmt = .sae ∧ sm.pairwise = .ccmp ∧ sm.mgmtFrameProt = true := by
  have hok : wpaValidateWpaIe smallRsnLib
      ⟨smallSaeMfpConf .managementFrameProtectionOptional, zeros 6, {}, [], {}, true⟩
      (zeros 6) (smallRsnElement [0x000fac02, 0x000fac08] 0x80) none none =
        .ok ⟨.sae, .ccmp, true, .rsn, none, smallRsnElement [0x000fac02, 0x000fac08] 0x80⟩ := by
    decide +kernel
  obtain ⟨-, -, -, -, -, -, hmfp⟩ := validated_wpa_ie _ _ _ _ _ _ _ hok
  exact ⟨_, hok, rfl, rfl, hmfp (Or.inr ⟨rfl, rfl, rfl⟩)⟩

/-- Without the capability SAE is accepted where management frame protection is off, whatever `sae_require_mfp`
says, and a station that offers FT-FILS with SHA-256 and PSK is accepted with an AKM that is not enabled. -/
theorem validated_wpa_ie_not_as_configured :
    (¬ ∀ lib wpaAuth addr wpaIe mdie oweDh sm data,
    wpaValidateWpaIe lib wpaAuth addr wpaIe mdie oweDh = .ok sm →
      parseIeOf wpaIe = some data → ChosenOffered wpaAuth.conf wpaIe data sm) ∧
    ∃ sm, wpaValidateWpaIe smallRsnLib ⟨smallIeConf, zeros 6, {}, [], {}, true⟩ (zeros 6)
        (smallRsnElement [0x000fac10, 0x000fac02] 0) (some [0xa1, 0xb2, 0]) none = .ok sm ∧
      sm.wpaKeyMgmt = .ftFilsSha256 ∧ .ftFilsSha256 ∉ smallIeConf.wpaKeyMgmt := by
  refine ⟨fun h => ?_, ⟨⟨.ftFilsSha256, .ccmp, false, .rsn, none,
    smallRsnElement [0x000fac10, 0x000fac02] 0⟩, by decide +kernel, rfl, by decide⟩⟩
  have hok : wpaValidateWpaIe smallRsnLib
      ⟨smallSaeMfpConf .noManagementFrameProtection, zeros 6, {}, [], {}, true⟩
      (zeros 6) (smallRsnElement [0x000fac08] 0) none none =
        .ok ⟨.sae, .ccmp, false, .rsn, none, smallRsnElement [0x000fac08] 0⟩ := by
    decide +kernel
  obtain ⟨data, hparse, -⟩ := wpaValidateWpaIe_ok hok
  have hmfp := (h _ _ _ _ _ _ _ _ hok hparse).mfp (Or.inr ⟨rfl, rfl⟩)
  exact absurd hmfp (by decide)

end Hostap
