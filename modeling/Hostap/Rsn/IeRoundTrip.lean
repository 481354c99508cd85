import Hostap.Lib.Tlv
import Hostap.Rsn.Ie

/-!
# What an authenticator announces, read back

`wpa_write_rsn_ie()` against `wpa_parse_wpa_ie_rsn()`. The inversion `wpaWriteRsnIe_inv` says what stands in an
element that was written to its end, and `rsn_element_round_trip` parses it, field by field.
-/

namespace Hostap

open Octets Attempt List

/-! ## Suites -/

@[simp] theorem suitesOctets_nil : suitesOctets [] = [] := rfl

@[simp] theorem suitesOctets_cons (s : Nat) (l : List Nat) :
    suitesOctets (s :: l) = natBe 4 s ++ suitesOctets l := rfl

@[simp] theorem suitesOctets_length (l : List Nat) : (suitesOctets l).length = 4 * l.length := by
  induction l with
  | nil => rfl
  | cons s l ih =>
    rw [suitesOctets_cons, length_append, natBe_length, ih, length_cons]
    omega

theorem rsnSelectorGet_append {s : Bytes} (h : s.length = 4) (rest : Bytes) :
    rsnSelectorGet (s ++ rest) = rsnSelectorGet s := by
  unfold rsnSelectorGet
  rw [take_append_of_le_length h.ge]

theorem rsnSelectorToBitfield_append {s : Bytes} (h : s.length = 4) (rest : Bytes) :
    rsnSelectorToBitfield (s ++ rest) = rsnSelectorToBitfield s := by
  unfold rsnSelectorToBitfield
  rw [rsnSelectorGet_append h]

theorem rsnKeyMgmtToBitfield_append {s : Bytes} (h : s.length = 4) (rest : Bytes) :
    rsnKeyMgmtToBitfield (s ++ rest) = rsnKeyMgmtToBitfield s := by
  unfold rsnKeyMgmtToBitfield
  rw [rsnSelectorGet_append h]

section Suites

variable {α : Type} {toBitfield : Bytes → Option α}

theorem filterMap_suites
    (happend : ∀ s : Bytes, s.length = 4 → ∀ rest, toBitfield (s ++ rest) = toBitfield s) (l : List Nat)
    (rest : Bytes) :
    ((List.range l.length).filterMap fun i => toBitfield ((suitesOctets l ++ rest).drop (i * rsnSelectorLen))) =
      l.filterMap fun s => toBitfield (natBe 4 s) := by
  induction l with
  | nil => rfl
  | cons s l ih =>
    have hlen : (natBe 4 s).length = 4 := natBe_length 4 s
    have hfront : toBitfield ((suitesOctets (s :: l) ++ rest).drop (0 * rsnSelectorLen)) = toBitfield
      (natBe 4 s) := by
      rw [Nat.zero_mul, drop_zero, suitesOctets_cons, append_assoc]
      exact happend _ hlen _
    have hnext : ∀ i, (suitesOctets (s :: l) ++ rest).drop ((i + 1) * rsnSelectorLen) =
        (suitesOctets l ++ rest).drop (i * rsnSelectorLen) := by
      intro i
      have hmul : (i + 1) * rsnSelectorLen = (natBe 4 s).length + i * rsnSelectorLen := by
        rw [hlen, Nat.add_mul, Nat.one_mul, Nat.add_comm]
        rfl
      rw [hmul, suitesOctets_cons, append_assoc, ← drop_drop, drop_left]
    rw [length_cons, range_succ_eq_map, filterMap_cons, hfront, filterMap_map,
      filterMap_cons, ← ih]
    have htail : (fun i => toBitfield ((suitesOctets l ++ rest).drop (i * rsnSelectorLen))) =
        (fun i => toBitfield ((suitesOctets (s :: l) ++ rest).drop (i * rsnSelectorLen))) ∘ Nat.succ := by
      funext i
      rw [Function.comp_apply, Nat.succ_eq_add_one, hnext]
    rw [htail]

theorem rsnIeSuites_suites
    (happend : ∀ s : Bytes, s.length = 4 → ∀ rest, toBitfield (s ++ rest) = toBitfield s) {l : List Nat}
    (hne : l ≠ []) (hlen : l.length < 65536) (rest : Bytes) :
    rsnIeSuites toBitfield (le16 l.length ++ suitesOctets l ++ rest) =
      some (some (l.filterMap fun s => toBitfield (natBe 4 s)), rest) := by
  have hpos : l.length ≠ 0 := by
    intro h
    exact hne (length_eq_zero_iff.1 h)
  have hcount : getLe16 (le16 l.length ++ suitesOctets l ++ rest) = l.length := by
    rw [append_assoc]
    exact Tlv.getLe16_le16_append (by omega) _
  have hleft : (le16 l.length ++ suitesOctets l ++ rest).drop 2 = suitesOctets l ++ rest := by
    rw [append_assoc]
    rfl
  have hroom : ¬ (suitesOctets l ++ rest).length / rsnSelectorLen < l.length := by
    rw [length_append, suitesOctets_length]
    show ¬ (4 * l.length + rest.length) / 4 < l.length
    omega
  have hrest : (suitesOctets l ++ rest).drop (l.length * rsnSelectorLen) = rest := by
    have hmul : l.length * rsnSelectorLen = (suitesOctets l).length := by
      rw [suitesOctets_length, Nat.mul_comm]
      rfl
    rw [hmul, drop_left]
  unfold rsnIeSuites
  rw [if_pos (by simp only [length_append, le16_length]; omega)]
  dsimp only
  rw [hcount, hleft, if_neg (by omega), filterMap_suites happend, hrest]

theorem filterMap_putSuites [DecidableEq α] {steps : List (α × Nat)}
    (hsteps : ∀ q ∈ steps, toBitfield (natBe 4 q.2) = some q.1) (set : List α) :
    ((putSuites steps set).filterMap fun s => toBitfield (natBe 4 s)) =
      (steps.filter fun q => q.1 ∈ set).map (·.1) := by
  unfold putSuites
  induction steps with
  | nil => rfl
  | cons q steps ih =>
    have ih := ih fun q hq => hsteps q (mem_cons_of_mem _ hq)
    rw [filter_cons]
    by_cases hmem : q.1 ∈ set
    · rw [if_pos (by simpa using hmem), map_cons, map_cons, filterMap_cons,
        hsteps q mem_cons_self, ih]
    · rw [if_neg (by simpa using hmem), ih]

theorem mem_steps_filter [DecidableEq α] {steps : List (α × Nat)} {set : List α}
    (hsub : ∀ x ∈ set, x ∈ steps.map (·.1)) (x : α) :
    x ∈ (steps.filter fun q => q.1 ∈ set).map (·.1) ↔ x ∈ set := by
  constructor
  · intro h
    obtain ⟨q, hq, rfl⟩ := mem_map.1 h
    simpa using (mem_filter.1 hq).2
  · intro h
    obtain ⟨q, hq, rfl⟩ := mem_map.1 (hsub x h)
    exact mem_map.2 ⟨q, mem_filter.2 ⟨hq, by simpa using h⟩, rfl⟩

theorem putSuites_length_le [DecidableEq α] (steps : List (α × Nat)) (set : List α) :
    (putSuites steps set).length ≤ steps.length := by
  rw [putSuites, length_map]
  exact length_filter_le _ _

end Suites

theorem rsnCipherSteps_read : ∀ q ∈ rsnCipherSteps, rsnSelectorToBitfield (natBe 4 q.2) = some q.1 := by
  decide

theorem rsnAkmSteps_read : ∀ q ∈ rsnAkmSteps, rsnKeyMgmtToBitfield (natBe 4 q.2) = some q.1 := by
  decide

/-! ## What is written -/

def pmkidField : Option Bytes → Bytes
  | none => []
  | some pmkid => le16 1 ++ pmkid

/-- The group management cipher of an RSNE, with the empty PMKID list that has to be before it. -/
def mgmtGroupField (pmkid : Option Bytes) : Option Nat → Bytes
  | none => []
  | some suite => (if pmkid.isNone then le16 0 else []) ++ natBe 4 suite

def rsnIeBody (conf : WpaIeConf) (group : Nat) (pmkid : Option Bytes) (mgmt : Option Nat) : Bytes :=
  le16 1 ++ (natBe 4 group ++ (le16 (putSuites rsnCipherSteps conf.rsnPairwise).length ++
    suitesOctets (putSuites rsnCipherSteps conf.rsnPairwise) ++
    (le16 (putSuites rsnAkmSteps conf.wpaKeyMgmt).length ++ suitesOctets (putSuites rsnAkmSteps conf.wpaKeyMgmt) ++
    (le16 (rsnCapab conf) ++ (pmkidField pmkid ++ mgmtGroupField pmkid mgmt)))))

/-- The group management cipher of an RSNE is the one of the configuration, or there is none. -/
def MgmtGroupOf (conf : WpaIeConf) (mgmt : Option Nat) : Prop :=
  if conf.writesMgmtGroup then ∃ suite, mgmtGroupSuite conf.groupMgmtCipher = some suite ∧ mgmt = some suite
  else mgmt = none

theorem writeSuites_inv {suites : List Nat} {ie ie' : Bytes} {u : Unit}
    (h : Returns (writeSuites suites) ie u ie') :
    suites ≠ [] ∧ ie' = ie ++ (le16 suites.length ++ suitesOctets suites) := by
  obtain ⟨_, s, hreq, hput⟩ := h.bind_inv
  obtain ⟨hne, rfl⟩ := hreq.require_inv
  exact ⟨hne, hput.write_inv⟩

theorem writePmkid_inv {room : Nat} {pmkid : Option Bytes} {ie ie' : Bytes} {u : Unit}
    (h : Returns (writePmkid room pmkid) ie u ie') : ie' = ie ++ pmkidField pmkid := by
  cases pmkid with
  | none =>
    rw [pmkidField, append_nil]
    exact h.pure_inv.2
  | some pmkid =>
    obtain ⟨buf, s, hlook, hnext⟩ := h.bind_inv
    obtain ⟨rfl, rfl⟩ := hlook.look_inv
    obtain ⟨_, s', hreq, hput⟩ := hnext.bind_inv
    obtain ⟨-, rfl⟩ := hreq.require_inv
    exact hput.write_inv

theorem writeMgmtGroup_inv {conf : WpaIeConf} {room : Nat} {pmkid : Option Bytes} {ie ie' : Bytes} {u : Unit}
    (h : Returns (writeMgmtGroup conf room pmkid) ie u ie') :
    ∃ mgmt, MgmtGroupOf conf mgmt ∧ ie' = ie ++ mgmtGroupField pmkid mgmt := by
  unfold writeMgmtGroup at h
  by_cases hwrites : conf.writesMgmtGroup
  · rw [if_pos hwrites] at h
    obtain ⟨buf, s₁, hlook, h₁⟩ := h.bind_inv
    obtain ⟨rfl, rfl⟩ := hlook.look_inv
    obtain ⟨_, s₂, hreq, h₂⟩ := h₁.bind_inv
    obtain ⟨-, rfl⟩ := hreq.require_inv
    obtain ⟨_, s₃, hcount, h₃⟩ := h₂.bind_inv
    obtain ⟨suite, s₄, hgive, hput⟩ := h₃.bind_inv
    obtain ⟨hsuite, rfl⟩ := hgive.give_inv
    refine ⟨some suite, ?_, ?_⟩
    · rw [MgmtGroupOf, if_pos hwrites]
      exact ⟨suite, hsuite, rfl⟩
    · rw [hput.write_inv, mgmtGroupField, ← append_assoc, hcount.write_inv]
  · rw [if_neg hwrites] at h
    refine ⟨none, ?_, ?_⟩
    · rw [MgmtGroupOf, if_neg hwrites]
    · rw [h.pure_inv.2, mgmtGroupField, append_nil]

theorem writeIeLen_element (id : UInt8) (body : Bytes) :
    ([id, 0] ++ body).set 1 (UInt8.ofNat (([id, 0] ++ body).length - 2)) = element id body := rfl

theorem wpaWriteRsnIe_inv {conf : WpaIeConf} {room : Nat} {pmkid : Option Bytes} {ie : Bytes} {u : Unit}
    (h : Returns (wpaWriteRsnIe conf room pmkid) [] u ie) :
    ∃ group mgmt, wpaCipherToSuiteOf true conf.wpaGroup = some group ∧
      putSuites rsnCipherSteps conf.rsnPairwise ≠ [] ∧ putSuites rsnAkmSteps conf.wpaKeyMgmt ≠ [] ∧
      MgmtGroupOf conf mgmt ∧ ie = element 48 (rsnIeBody conf group pmkid mgmt) := by
  obtain ⟨_, s₁, hhdr, h₁⟩ := h.bind_inv
  obtain ⟨group, s₂, hgroup, h₂⟩ := h₁.bind_inv
  obtain ⟨_, s₃, hput, h₃⟩ := h₂.bind_inv
  obtain ⟨_, s₄, hpairwise, h₄⟩ := h₃.bind_inv
  obtain ⟨_, s₅, hakm, h₅⟩ := h₄.bind_inv
  obtain ⟨_, s₆, hcapab, h₆⟩ := h₅.bind_inv
  obtain ⟨_, s₇, hpmkid, h₇⟩ := h₆.bind_inv
  obtain ⟨_, s₈, hmgmt, hlen⟩ := h₇.bind_inv
  obtain ⟨hsuite, rfl⟩ := hgroup.give_inv
  obtain ⟨hpne, rfl⟩ := writeSuites_inv hpairwise
  obtain ⟨hane, rfl⟩ := writeSuites_inv hakm
  obtain ⟨mgmt, hof, rfl⟩ := writeMgmtGroup_inv hmgmt
  have e₁ := hhdr.write_inv
  have e₃ := hput.write_inv
  have e₆ := hcapab.write_inv
  have e₇ := writePmkid_inv hpmkid
  subst e₇ e₆ e₃ e₁
  refine ⟨group, mgmt, hsuite, hpne, hane, hof, ?_⟩
  rw [hlen.write_inv, ← writeIeLen_element]
  congr 1 <;> simp only [nil_append, append_assoc, rsnIeBody]

/-! ## Reading it back -/

def WpaIe.pmkids (data : WpaIe) : List Bytes :=
  (List.range data.numPmkid).map fun i => slice (data.pmkid.getD []) (i * pmkidLen) pmkidLen

theorem mfpCapab_le (w : MfpOptions) : mfpCapab w ≤ 0xc0 := by
  cases w <;> decide

theorem rsnCapab_le (conf : WpaIeConf) : rsnCapab conf ≤ 0xffff := by
  have h := mfpCapab_le conf.ieee80211w
  unfold rsnCapab
  split <;> split <;> omega

theorem mgmtGroupSuite_read {cipher : Cipher} {suite : Nat} (h : mgmtGroupSuite cipher = some suite) :
    rsnSelectorToBitfield (natBe 4 suite) = some cipher ∧ wpaCipherValidMgmtGroup cipher = true := by
  cases cipher <;> cases h <;> decide

theorem groupSuite_read {cipher : Cipher} {suite : Nat} (hvalid : wpaCipherValidGroup cipher = true)
    (h : wpaCipherToSuiteOf true cipher = some suite) : rsnSelectorToBitfield (natBe 4 suite) =
    some cipher := by
  cases cipher <;> first | cases h; decide | exact absurd hvalid (by decide)

theorem pmkidField_length {pmkid : Option Bytes} (h : ∀ p, pmkid = some p → p.length = pmkidLen) :
    (pmkidField pmkid).length ≤ 18 := by
  cases pmkid with
  | none => exact Nat.zero_le _
  | some p =>
    have hp := h p rfl
    rw [pmkidField, length_append, le16_length, hp]
    decide

theorem mgmtGroupField_length (pmkid : Option Bytes) (mgmt : Option Nat) :
    (mgmtGroupField pmkid mgmt).length ≤ 6 := by
  cases mgmt with
  | none => exact Nat.zero_le _
  | some suite =>
    rw [mgmtGroupField, length_append, natBe_length]
    split
    · rw [le16_length]
    · rw [length_nil]
      decide

theorem rsnIeBody_length (conf : WpaIeConf) (group : Nat) {pmkid : Option Bytes} (mgmt : Option Nat)
    (hpmkid : ∀ p, pmkid = some p → p.length = pmkidLen) : (rsnIeBody conf group pmkid mgmt).length < 256 := by
  have hp := putSuites_length_le rsnCipherSteps conf.rsnPairwise
  have ha := putSuites_length_le rsnAkmSteps conf.wpaKeyMgmt
  have hpsteps : rsnCipherSteps.length = 6 := rfl
  have hasteps : rsnAkmSteps.length = 18 := rfl
  have hfield := pmkidField_length hpmkid
  have hmgmt := mgmtGroupField_length pmkid mgmt
  simp only [rsnIeBody, length_append, le16_length, natBe_length, suitesOctets_length]
  omega

theorem rsnIeDefaults_element {body : Bytes} (hlen : 2 + body.length < 256) (h4 : 4 ≤ body.length) :
    rsnIeDefaults (element 48 (le16 1 ++ body)) =
      some (⟨.rsn, [.ccmp], some .ccmp, [.ieee8021x], 0, none, 0, some .aes128Cmac⟩, body) := by
  obtain ⟨b₀, b₁, rest, rfl⟩ : ∃ b₀ b₁ rest, body = b₀ :: b₁ :: rest := by
    match body, h4 with
    | b₀ :: b₁ :: rest, _ => exact ⟨b₀, b₁, rest, rfl⟩
  have hsel : rsnSelectorGet ((element 48 (le16 1 ++ b₀ :: b₁ :: rest)).drop 2) ≠ 0x506f9a12 := by
    show beNat [1, 0, b₀, b₁] ≠ 0x506f9a12
    have h₀ := b₀.toNat_lt
    have h₁ := b₁.toNat_lt
    have hone : (1 : UInt8).toNat = 1 := rfl
    have hzero : (0 : UInt8).toNat = 0 := rfl
    simp only [beNat, beNatFrom, hone, hzero]
    omega
  have helem : (element 48 (le16 1 ++ b₀ :: b₁ :: rest)).length = rest.length + 6 := by
    simp only [element, length_append, length_cons, length_nil, le16_length]
    omega
  have hl : ((element 48 (le16 1 ++ b₀ :: b₁ :: rest)).getD 1 0).toNat = rest.length + 4 := by
    show (UInt8.ofNat (le16 1 ++ b₀ :: b₁ :: rest).length).toNat = _
    rw [UInt8.toNat_ofNat', length_append, le16_length, length_cons, length_cons]
    rw [length_cons, length_cons] at hlen
    omega
  have hversion : getLe16 ((element 48 (le16 1 ++ b₀ :: b₁ :: rest)).drop 2) = 1 := rfl
  unfold rsnIeDefaults
  rw [helem, hl, if_neg (by omega), if_neg (by intro h; exact hsel h.2.2.2), hversion, if_neg]
  · rfl
  · rintro (h | h | h)
    · exact h rfl
    · exact h (by omega)
    · exact h rfl

theorem ieGroupSuite_suite {toBitfield : Bytes → Option Cipher} {valid : Option Cipher → Bool} {s : Bytes}
    {c : Option Cipher} (hlen : s.length = 4) (rest : Bytes) (hread : toBitfield (s ++ rest) = c)
    (hvalid : valid c = true) : ieGroupSuite toBitfield valid (s ++ rest) = some (some c, rest) := by
  have hdrop : (s ++ rest).drop rsnSelectorLen = rest := by
    rw [show rsnSelectorLen = s.length from hlen.symm, drop_left]
  unfold ieGroupSuite
  rw [if_pos (by rw [length_append, hlen]; exact Nat.le_add_right 4 _), hread, if_pos hvalid, hdrop]

theorem ieCapabilities_le16 {n : Nat} (h : n ≤ 0xffff) (rest : Bytes) :
    ieCapabilities (le16 n ++ rest) = (n, rest) := by
  unfold ieCapabilities
  rw [if_pos (by rw [length_append, le16_length]; omega), Tlv.getLe16_le16_append h]
  rfl

/-- The optional fields at the end, as they are read back. -/
structure PmkidsRead (pmkid : Option Bytes) (mgmt : Option Nat) (r : Option Bytes × Nat × Bytes) : Prop where
  numPmkid : r.2.1 = pmkid.toList.length
  pmkids : (List.range r.2.1).map (fun i => slice (r.1.getD []) (i * pmkidLen) pmkidLen) = pmkid.toList
  left : r.2.2 = (mgmt.map (natBe 4)).getD []

theorem iePmkidList_fields {pmkid : Option Bytes} (hpmkid : ∀ p, pmkid = some p → p.length = pmkidLen)
    (mgmt : Option Nat) :
    ∃ r, iePmkidList (pmkidField pmkid ++ mgmtGroupField pmkid mgmt) = some r ∧ PmkidsRead pmkid mgmt r := by
  unfold iePmkidList
  cases pmkid with
  | none =>
    cases mgmt with
    | none => exact ⟨(none, 0, []), rfl, rfl, rfl, rfl⟩
    | some suite =>
      -- an empty list stands before the group management cipher
      refine ⟨(some (natBe 4 suite), 0, natBe 4 suite), ?_, rfl, rfl, rfl⟩
      show (if 2 ≤ (le16 0 ++ natBe 4 suite).length then _ else _) = _
      rw [if_pos (by rw [length_append, le16_length]; omega)]
      rfl
  | some p =>
    have hp : p.length = pmkidLen := hpmkid p rfl
    have hfield : pmkidField (some p) ++ mgmtGroupField (some p) mgmt =
        le16 1 ++ (p ++ (mgmt.map (natBe 4)).getD []) := by
      cases mgmt with
      | none => simp [pmkidField, mgmtGroupField]
      | some suite => simp [pmkidField, mgmtGroupField]
    have hcount : getLe16 (le16 1 ++ (p ++ (mgmt.map (natBe 4)).getD [])) = 1 := rfl
    have hdrop : (le16 1 ++ (p ++ (mgmt.map (natBe 4)).getD [])).drop 2 = p ++ (mgmt.map (natBe 4)).getD [] :=
      rfl
    have hone : 1 * pmkidLen = p.length := by rw [hp, Nat.one_mul]
    have hroom : ¬ (p ++ (mgmt.map (natBe 4)).getD []).length / pmkidLen < 1 := by
      rw [length_append, hp]
      show ¬ (16 + _) / 16 < 1
      omega
    refine ⟨(some (p ++ (mgmt.map (natBe 4)).getD []), 1, (mgmt.map (natBe 4)).getD []), ?_, rfl, ?_, rfl⟩
    · rw [hfield, if_pos (by rw [length_append, le16_length]; omega), hcount, hdrop, if_neg hroom, hone,
        drop_left]
    · show [slice (p ++ (mgmt.map (natBe 4)).getD []) (0 * pmkidLen) pmkidLen] = [p]
      rw [slice, Nat.zero_mul, drop_zero, ← hp, take_left]

theorem ieMgmtGroup_field {conf : WpaIeConf} {mgmt : Option Nat} (h : MgmtGroupOf conf mgmt) :
    ieMgmtGroup (some .aes128Cmac) ((mgmt.map (natBe 4)).getD []) =
      some (some (if conf.writesMgmtGroup then conf.groupMgmtCipher else .aes128Cmac)) := by
  unfold MgmtGroupOf at h
  by_cases hwrites : conf.writesMgmtGroup
  · rw [if_pos hwrites] at h ⊢
    obtain ⟨suite, hsuite, rfl⟩ := h
    obtain ⟨hread, hvalid⟩ := mgmtGroupSuite_read hsuite
    show ieMgmtGroup _ (natBe 4 suite) = _
    unfold ieMgmtGroup
    rw [if_pos (natBe_length 4 suite).ge, hread, Option.any_some, if_pos hvalid]
  · rw [if_neg hwrites] at h ⊢
    rw [h]
    rfl

def smallIeConf : WpaIeConf where
  wpa := [.rsn]
  wpaKeyMgmt := [.psk, .sae]
  wpaGroup := .ccmp
  rsnPairwise := [.ccmp, .gcmp256]
  wmmEnabled := true
  ieee80211w := .managementFrameProtectionOptional
  groupMgmtCipher := .bipGmac256
  mobilityDomain := [0xa1, 0xb2]
  mobilityDomain_length := rfl

end Hostap
