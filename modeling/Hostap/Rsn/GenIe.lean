import Hostap.Rsn.IeRoundTrip

/-!
# The buffer of the announced elements

`wpa_auth_gen_wpa_ie()` writes an OSEN element or an RSNE, an MDE and a WPA element one after the other into
a buffer of 128 octets. The first three always fit: there are at most six ciphers and eighteen AKMs, and the
MDE is checked. `wpa_write_wpa_ie()` is handed the room that is left and does not look at it. So what is
written stays inside the buffer if and only if the sizes add up (`gen_wpa_ie_within_buffer_iff`).

A writer that gives up has written part of its element, and the sizes here are of what was written.
-/

namespace Hostap

open Octets Attempt List

/-! ## Sizes -/

/-- Every field of the RSNE can be written. -/
structure WpaIeConf.RsnIeWritable (conf : WpaIeConf) : Prop where
  group : (wpaCipherToSuiteOf true conf.wpaGroup).isSome
  pairwise : putSuites rsnCipherSteps conf.rsnPairwise ≠ []
  akm : putSuites rsnAkmSteps conf.wpaKeyMgmt ≠ []
  mgmtGroup : conf.writesMgmtGroup → (mgmtGroupSuite conf.groupMgmtCipher).isSome

def WpaIeConf.rsnIeSize (conf : WpaIeConf) : Nat :=
  14 + 4 * (putSuites rsnCipherSteps conf.rsnPairwise).length + 4 *
  (putSuites rsnAkmSteps conf.wpaKeyMgmt).length +
    if conf.writesMgmtGroup then 6 else 0

/-- Octets that are written of the WPA element, also where the group cipher or a list of suites is missing. -/
def WpaIeConf.wpaIeSize (conf : WpaIeConf) : Nat :=
  if wpaCipherToSuiteOf false conf.wpaGroup = none then 8
  else if putSuites wpaCipherSteps conf.wpaPairwise = [] then 12
  else if putSuites wpaAkmSteps conf.wpaKeyMgmt = [] then
    14 + 4 * (putSuites wpaCipherSteps conf.wpaPairwise).length
  else
    16 + 4 * (putSuites wpaCipherSteps conf.wpaPairwise).length + 4 *
    (putSuites wpaAkmSteps conf.wpaKeyMgmt).length

def WpaIeConf.sizeBeforeWpa (conf : WpaIeConf) : Nat :=
  (if .rsn ∈ conf.wpa then conf.rsnIeSize else 0) + if conf.wpaKeyMgmt.any wpaKeyMgmtFt then 5 else 0

/-- The elements with WPA among them add up to no more than the buffer. -/
def WpaIeConf.SizesFit (conf : WpaIeConf) : Prop :=
  .wpa ∈ conf.wpa → (.rsn ∈ conf.wpa → conf.RsnIeWritable) → conf.sizeBeforeWpa + conf.wpaIeSize ≤ genWpaIeBuf

/-! ## Writers -/

theorem putOctets_within (octets : Bytes) : Within List.length octets.length (putOctets octets) :=
  Within.write fun _ => (length_append ..).le

theorem writeSuites_within (suites : List Nat) :
    Within List.length (2 + 4 * suites.length) (writeSuites suites) := by
  have h := Within.bind (Within.require (suites ≠ []))
    fun _ => putOctets_within (le16 suites.length ++ suitesOctets suites)
  rw [length_append, le16_length, suitesOctets_length, Nat.zero_add] at h
  exact h

theorem writeIeLen_within : Within List.length 0 writeIeLen :=
  Within.write fun _ => (length_set ..).le

theorem writeMgmtGroup_within (conf : WpaIeConf) (room : Nat) :
    Within List.length (if conf.writesMgmtGroup then 6 else 0) (writeMgmtGroup conf room none) := by
  unfold writeMgmtGroup
  by_cases hwrites : conf.writesMgmtGroup
  · rw [if_pos hwrites, if_pos hwrites]
    intro buf
    have h := Within.bind Within.look fun ie => Within.bind (Within.require (2 + 4 ≤ room - ie.length)) fun _ =>
      Within.bind (putOctets_within (le16 0)) fun _ => Within.bind
      (Within.give (mgmtGroupSuite conf.groupMgmtCipher))
        fun suite => (natBe_length 4 suite) ▸ putOctets_within (natBe 4 suite)
    exact h buf
  · rw [if_neg hwrites, if_neg hwrites]
    exact Within.pure ()

theorem wpaWriteRsnIe_within (conf : WpaIeConf) (room : Nat) :
    Within List.length conf.rsnIeSize (wpaWriteRsnIe conf room none) := by
  have h := Within.bind (putOctets_within ([48, 0] ++ le16 1)) fun _ =>
    Within.bind (Within.give (wpaCipherToSuiteOf true conf.wpaGroup)) fun suite =>
      Within.bind ((natBe_length 4 suite) ▸ putOctets_within (natBe 4 suite)) fun _ =>
        Within.bind (writeSuites_within (putSuites rsnCipherSteps conf.rsnPairwise)) fun _ =>
          Within.bind (writeSuites_within (putSuites rsnAkmSteps conf.wpaKeyMgmt)) fun _ =>
            Within.bind (putOctets_within (le16 (rsnCapab conf))) fun _ =>
              Within.bind (Within.pure (μ := List.length) ()) fun _ =>
                Within.bind (writeMgmtGroup_within conf room) fun _ => writeIeLen_within
  refine Within.mono h ?_
  unfold WpaIeConf.rsnIeSize
  simp only [length_append, length_cons, length_nil, le16_length]
  omega

theorem rsnIeSize_le (conf : WpaIeConf) : conf.rsnIeSize ≤ 116 := by
  have hp := putSuites_length_le rsnCipherSteps conf.rsnPairwise
  have ha := putSuites_length_le rsnAkmSteps conf.wpaKeyMgmt
  have hpsteps : rsnCipherSteps.length = 6 := rfl
  have hasteps : rsnAkmSteps.length = 18 := rfl
  unfold WpaIeConf.rsnIeSize
  split <;> omega

theorem writeSuites_returns {suites : List Nat} (h : suites ≠ []) (ie : Bytes) :
    Returns (writeSuites suites) ie () (ie ++ (le16 suites.length ++ suitesOctets suites)) :=
  Returns.bind (Returns.require h ie) rfl

theorem wpaWriteRsnIe_returns {conf : WpaIeConf} (h : conf.RsnIeWritable) {room : Nat} (hroom : 116 ≤ room) :
    ∃ ie, Returns (wpaWriteRsnIe conf room none) [] () ie ∧ ie.length = conf.rsnIeSize := by
  obtain ⟨suite, hsuite⟩ := Option.isSome_iff_exists.1 h.group
  have hsize := rsnIeSize_le conf
  -- the element as it is before the group management cipher
  let ie : Bytes := [] ++ ([48, 0] ++ le16 1) ++ natBe 4 suite ++
    (le16 (putSuites rsnCipherSteps conf.rsnPairwise).length ++
      suitesOctets (putSuites rsnCipherSteps conf.rsnPairwise)) ++
    (le16 (putSuites rsnAkmSteps conf.wpaKeyMgmt).length ++ suitesOctets (putSuites rsnAkmSteps conf.wpaKeyMgmt)) ++
    le16 (rsnCapab conf)
  have hielen : ie.length + (if conf.writesMgmtGroup then 6 else 0) = conf.rsnIeSize := by
    simp only [ie, WpaIeConf.rsnIeSize, length_append, length_cons, length_nil, le16_length,
      natBe_length, suitesOctets_length]
    omega
  have hmgmt : ∃ ie', Returns (writeMgmtGroup conf room none) ie () ie' ∧ ie'.length = conf.rsnIeSize := by
    unfold writeMgmtGroup
    by_cases hwrites : conf.writesMgmtGroup
    · rw [if_pos hwrites] at hielen ⊢
      obtain ⟨mgmt, hm⟩ := Option.isSome_iff_exists.1 (h.mgmtGroup hwrites)
      refine ⟨ie ++ le16 0 ++ natBe 4 mgmt, ?_, ?_⟩
      · exact Returns.bind (Returns.look ie) (Returns.bind (Returns.require (by omega) ie)
          (Returns.bind rfl (Returns.bind (Returns.give hm _) rfl)))
      · rw [length_append, length_append, le16_length, natBe_length]
        omega
    · rw [if_neg hwrites] at hielen ⊢
      exact ⟨ie, Returns.pure () ie, hielen⟩
  obtain ⟨ie', hreturns, hlen⟩ := hmgmt
  refine ⟨ie'.set 1 (UInt8.ofNat (ie'.length - 2)), ?_, (length_set ..).trans hlen⟩
  exact Returns.bind rfl (Returns.bind (Returns.give hsuite _) (Returns.bind rfl
    (Returns.bind (writeSuites_returns h.pairwise _) (Returns.bind (writeSuites_returns h.akm _)
      (Returns.bind rfl (Returns.bind (Returns.pure () _) (Returns.bind hreturns rfl)))))))

theorem wpaWriteRsnIe_writable {conf : WpaIeConf} {room : Nat} {pmkid : Option Bytes} {ie : Bytes} {u : Unit}
    (h : Returns (wpaWriteRsnIe conf room pmkid) [] u ie) : conf.RsnIeWritable := by
  obtain ⟨group, mgmt, hsuite, hpne, hane, hmgmt, -⟩ := wpaWriteRsnIe_inv h
  refine ⟨by rw [hsuite]; rfl, hpne, hane, ?_⟩
  intro hwrites
  rw [MgmtGroupOf, if_pos hwrites] at hmgmt
  obtain ⟨suite, hs, -⟩ := hmgmt
  rw [hs]
  rfl

theorem wpaWriteWpaIe_length (conf : WpaIeConf) : (wpaWriteWpaIe conf []).2.length = conf.wpaIeSize := by
  have hhdr : ([] ++ ([221, 0] ++ natBe 4 0x0050f201 ++ le16 1) : Bytes).length = 8 := rfl
  unfold WpaIeConf.wpaIeSize
  by_cases hgroup : wpaCipherToSuiteOf false conf.wpaGroup = none
  · rw [if_pos hgroup]
    have hfails : Fails (wpaWriteWpaIe conf) [] ([] ++ ([221, 0] ++ natBe 4 0x0050f201 ++ le16 1)) :=
      Fails.bind rfl (Fails.bind_left (by rw [hgroup]; rfl))
    rw [show wpaWriteWpaIe conf [] = _ from hfails]
    exact hhdr
  rw [if_neg hgroup]
  obtain ⟨suite, hsuite⟩ := Option.ne_none_iff_exists'.1 hgroup
  by_cases hpairwise : putSuites wpaCipherSteps conf.wpaPairwise = []
  · rw [if_pos hpairwise]
    have hfails : Fails (wpaWriteWpaIe conf) []
        ([] ++ ([221, 0] ++ natBe 4 0x0050f201 ++ le16 1) ++ natBe 4 suite) :=
      Fails.bind rfl (Fails.bind (Returns.give hsuite _) (Fails.bind rfl
        (Fails.bind_left (Fails.bind_left (Fails.require (fun h => h hpairwise) _)))))
    rw [show wpaWriteWpaIe conf [] = _ from hfails, length_append, natBe_length, hhdr]
  rw [if_neg hpairwise]
  by_cases hakm : putSuites wpaAkmSteps conf.wpaKeyMgmt = []
  · rw [if_pos hakm]
    have hfails : Fails (wpaWriteWpaIe conf) []
        ([] ++ ([221, 0] ++ natBe 4 0x0050f201 ++ le16 1) ++ natBe 4 suite ++
          (le16 (putSuites wpaCipherSteps conf.wpaPairwise).length ++
            suitesOctets (putSuites wpaCipherSteps conf.wpaPairwise))) :=
      Fails.bind rfl (Fails.bind (Returns.give hsuite _) (Fails.bind rfl
        (Fails.bind (writeSuites_returns hpairwise _)
          (Fails.bind_left (Fails.bind_left (Fails.require (fun h => h hakm) _))))))
    rw [show wpaWriteWpaIe conf [] = _ from hfails, length_append, length_append, hhdr, natBe_length,
      length_append, le16_length, suitesOctets_length]
    omega
  · rw [if_neg hakm]
    have hreturns : ∃ ie : Bytes, Returns (wpaWriteWpaIe conf) [] () (ie.set 1 (UInt8.ofNat (ie.length - 2))) ∧
        ie = [] ++ ([221, 0] ++ natBe 4 0x0050f201 ++ le16 1) ++ natBe 4 suite ++
          (le16 (putSuites wpaCipherSteps conf.wpaPairwise).length ++
            suitesOctets (putSuites wpaCipherSteps conf.wpaPairwise)) ++
          (le16 (putSuites wpaAkmSteps conf.wpaKeyMgmt).length ++
            suitesOctets (putSuites wpaAkmSteps conf.wpaKeyMgmt)) :=
      ⟨_, Returns.bind rfl (Returns.bind (Returns.give hsuite _) (Returns.bind rfl
        (Returns.bind (writeSuites_returns hpairwise _) (Returns.bind (writeSuites_returns hakm _) rfl)))), rfl⟩
    obtain ⟨ie, hie, heq⟩ := hreturns
    rw [show wpaWriteWpaIe conf [] = _ from hie, length_set, heq]
    simp only [length_append, nil_append, length_cons, length_nil, natBe_length,
      le16_length, suitesOctets_length]
    omega

/-! ## The buffer -/

theorem genRsnIe_empty (conf : WpaIeConf) (hrsn : .rsn ∈ conf.wpa) :
    (∃ buf, Returns (genRsnIe conf) [] () buf ∧ conf.RsnIeWritable ∧ buf.length = conf.rsnIeSize) ∨
      ∃ buf, Fails (genRsnIe conf) [] buf ∧ ¬ conf.RsnIeWritable ∧ buf.length ≤ 116 := by
  have hgen : genRsnIe conf [] = writeElement (wpaWriteRsnIe conf genWpaIeBuf none) [] := by
    unfold genRsnIe
    rw [if_pos hrsn]
    rfl
  by_cases hw : conf.RsnIeWritable
  · left
    have hroom : 116 ≤ genWpaIeBuf := by decide
    obtain ⟨ie, hreturns, hlen⟩ := wpaWriteRsnIe_returns hw hroom
    refine ⟨ie, ?_, hw, hlen⟩
    show genRsnIe conf [] = _
    rw [hgen, writeElement, show wpaWriteRsnIe conf genWpaIeBuf none [] = _ from hreturns]
    rfl
  · right
    have hwithin := wpaWriteRsnIe_within conf genWpaIeBuf []
    have hsize := rsnIeSize_le conf
    rw [length_nil, Nat.zero_add] at hwithin
    have hnone : (wpaWriteRsnIe conf genWpaIeBuf none []).1 = none := by
      cases hr : (wpaWriteRsnIe conf genWpaIeBuf none []).1 with
      | none => rfl
      | some u => exact absurd (wpaWriteRsnIe_writable (show Returns _ _ u _ from Prod.ext hr rfl)) hw
    refine ⟨(wpaWriteRsnIe conf genWpaIeBuf none []).2, ?_, hw, hwithin.trans hsize⟩
    show genRsnIe conf [] = _
    rw [hgen, writeElement, hnone, nil_append]

theorem genMdie_returns (conf : WpaIeConf) {buf : Bytes} (h : buf.length ≤ 116) :
    ∃ buf', Returns (genMdie conf) buf () buf' ∧
      buf'.length = buf.length + if conf.wpaKeyMgmt.any wpaKeyMgmtFt then 5 else 0 := by
  unfold genMdie
  by_cases hft : conf.wpaKeyMgmt.any wpaKeyMgmtFt = true
  · rw [if_pos hft, if_pos hft]
    have hroom : 2 + 3 ≤ genWpaIeBuf - buf.length := by
      show 2 + 3 ≤ 128 - buf.length
      omega
    have hmdie : wpaWriteMdieInto conf (genWpaIeBuf - buf.length) [] =
        (some (), [] ++ ([54, 3] ++ conf.mobilityDomain ++ [if conf.ftOverDs then 1 else 0])) :=
      Returns.bind (Returns.require hroom []) rfl
    have hwrites : Returns (writeElement (wpaWriteMdieInto conf (genWpaIeBuf - buf.length))) buf ()
        (buf ++ ([] ++ ([54, 3] ++ conf.mobilityDomain ++ [if conf.ftOverDs then 1 else 0]))) := by
      show ((wpaWriteMdieInto conf (genWpaIeBuf - buf.length) []).1, _) = _
      rw [hmdie]
    refine ⟨_, Returns.bind (Returns.look buf) hwrites, ?_⟩
    rw [length_append, nil_append, length_append, length_append, conf.mobilityDomain_length]
    rfl
  · rw [if_neg hft, if_neg hft]
    exact ⟨buf, Returns.pure () buf, rfl⟩

theorem sizeBeforeWpa_le (conf : WpaIeConf) : conf.sizeBeforeWpa ≤ 121 := by
  have hsize := rsnIeSize_le conf
  unfold WpaIeConf.sizeBeforeWpa
  split <;> split <;> omega

theorem genWpaIe_length (conf : WpaIeConf) (buf : Bytes) :
    ((if .wpa ∈ conf.wpa then writeElement (wpaWriteWpaIe conf) else pure ()) buf).2.length =
      buf.length + if .wpa ∈ conf.wpa then conf.wpaIeSize else 0 := by
  by_cases hwpa : .wpa ∈ conf.wpa
  · rw [if_pos hwpa, if_pos hwpa, ← wpaWriteWpaIe_length]
    exact length_append
  · rw [if_neg hwpa, if_neg hwpa]
    rfl

theorem gen_of_written {conf : WpaIeConf} {buf buf' buf'' : Bytes}
    (hosen : Returns (putOctets (if conf.onlyOsen then wpaWriteOsen conf else [])) [] () buf)
    (hrsn : Returns (genRsnIe conf) buf () buf') (hmdie : Returns (genMdie conf) buf' () buf'') :
    (wpaAuthGenWpaIe conf []).2.length = buf''.length + if .wpa ∈ conf.wpa then conf.wpaIeSize else 0 := by
  rw [← genWpaIe_length]
  show (andThen (putOctets _ []) _).2.length = _
  rw [show putOctets _ [] = _ from hosen]
  show (andThen (genRsnIe conf buf) _).2.length = _
  rw [show genRsnIe conf buf = _ from hrsn]
  show (andThen (genMdie conf buf') _).2.length = _
  rw [show genMdie conf buf' = _ from hmdie]
  rfl

theorem not_mem_of_onlyOsen {conf : WpaIeConf} (h : conf.onlyOsen = true) : .rsn ∉ conf.wpa ∧
    .wpa ∉ conf.wpa := by
  unfold WpaIeConf.onlyOsen at h
  exact (of_decide_eq_true h).2

theorem gen_onlyOsen {conf : WpaIeConf} (hosen : conf.onlyOsen = true) :
    (wpaAuthGenWpaIe conf []).2.length ≤ genWpaIeBuf := by
  obtain ⟨hrsn, hwpa⟩ := not_mem_of_onlyOsen hosen
  have hlen : (wpaWriteOsen conf).length = 24 := rfl
  have hput : Returns (putOctets (if conf.onlyOsen then wpaWriteOsen conf else [])) [] ()
    (wpaWriteOsen conf) := by
    rw [if_pos hosen]
    rfl
  have hgen : Returns (genRsnIe conf) (wpaWriteOsen conf) () (wpaWriteOsen conf) := by
    unfold genRsnIe
    rw [if_neg hrsn]
    exact Returns.pure () _
  obtain ⟨buf, hmdie, hbuf⟩ := genMdie_returns conf (show (wpaWriteOsen conf).length ≤ 116 by omega)
  rw [gen_of_written hput hgen hmdie, if_neg hwpa, hbuf, hlen]
  show _ ≤ 128
  split <;> omega

theorem gen_writable {conf : WpaIeConf} (hosen : ¬ conf.onlyOsen = true)
    (hwritable : .rsn ∈ conf.wpa → conf.RsnIeWritable) :
    (wpaAuthGenWpaIe conf []).2.length =
      conf.sizeBeforeWpa + if .wpa ∈ conf.wpa then conf.wpaIeSize else 0 := by
  have hput : Returns (putOctets (if conf.onlyOsen then wpaWriteOsen conf else [])) [] () [] := by
    rw [if_neg hosen]
    rfl
  have hgen : ∃ buf, Returns (genRsnIe conf) [] () buf ∧
      buf.length = if .rsn ∈ conf.wpa then conf.rsnIeSize else 0 := by
    by_cases hrsn : .rsn ∈ conf.wpa
    · rw [if_pos hrsn]
      rcases genRsnIe_empty conf hrsn with ⟨buf, hreturns, -, hlen⟩ | ⟨-, -, hnot, -⟩
      · exact ⟨buf, hreturns, hlen⟩
      · exact absurd (hwritable hrsn) hnot
    · rw [if_neg hrsn, genRsnIe, if_neg hrsn]
      exact ⟨[], Returns.pure () [], rfl⟩
  obtain ⟨buf, hgen, hbuf⟩ := hgen
  have hle : buf.length ≤ 116 := by
    have hsize := rsnIeSize_le conf
    rw [hbuf]
    split <;> omega
  obtain ⟨buf', hmdie, hbuf'⟩ := genMdie_returns conf hle
  rw [gen_of_written hput hgen hmdie, hbuf', hbuf]
  rfl

theorem gen_not_writable {conf : WpaIeConf} (hosen : ¬ conf.onlyOsen = true) (hrsn : .rsn ∈ conf.wpa)
    (hnot : ¬ conf.RsnIeWritable) : (wpaAuthGenWpaIe conf []).2.length ≤ genWpaIeBuf := by
  have hput : Returns (putOctets (if conf.onlyOsen then wpaWriteOsen conf else [])) [] () [] := by
    rw [if_neg hosen]
    rfl
  rcases genRsnIe_empty conf hrsn with ⟨-, -, hw, -⟩ | ⟨buf, hfails, -, hlen⟩
  · exact absurd hw hnot
  · have hgen : Fails (wpaAuthGenWpaIe conf) [] buf := Fails.bind hput (Fails.bind_left hfails)
    rw [show wpaAuthGenWpaIe conf [] = _ from hgen]
    show buf.length ≤ 128
    omega

/-- What `wpa_auth_gen_wpa_ie()` writes stays inside its buffer exactly where the sizes of the elements add
up to no more than the buffer. Nothing in `wpa_write_wpa_ie()` checks it. -/
theorem gen_wpa_ie_within_buffer_iff (conf : WpaIeConf) :
    (wpaAuthGenWpaIe conf []).2.length ≤ genWpaIeBuf ↔ conf.SizesFit := by
  by_cases hosen : conf.onlyOsen = true
  · exact iff_of_true (gen_onlyOsen hosen) (fun hwpa => absurd hwpa (not_mem_of_onlyOsen hosen).2)
  by_cases hwritable : .rsn ∈ conf.wpa → conf.RsnIeWritable
  · rw [gen_writable hosen hwritable]
    unfold WpaIeConf.SizesFit
    by_cases hwpa : .wpa ∈ conf.wpa
    · rw [if_pos hwpa]
      exact ⟨fun h _ _ => h, fun h => h hwpa hwritable⟩
    · -- without the WPA element there are at most 121 octets
      have hsize := sizeBeforeWpa_le conf
      rw [if_neg hwpa]
      refine iff_of_true ?_ (fun h => absurd h hwpa)
      show _ ≤ 128
      omega
  · obtain ⟨hrsn, hnot⟩ := Classical.not_imp.1 hwritable
    exact iff_of_true (gen_not_writable hosen hrsn hnot) (fun _ h => absurd h hwritable)

/-- RSN and WPA with every cipher and AKM that can be announced. -/
def fullIeConf : WpaIeConf where
  wpa := [.rsn, .wpa]
  wpaGroup := .tkip
  wpaPairwise := [.ccmp, .tkip]
  rsnPairwise := [.ccmp256, .gcmp256, .ccmp, .gcmp, .tkip]
  wpaKeyMgmt := rsnAkmSteps.map (·.1)
  groupMgmtCipher := .bipGmac256
  ieee80211w := .managementFrameProtectionOptional
  mobilityDomain := [0, 0]
  mobilityDomain_length := rfl

/-- 149 octets for a buffer of 128. -/
theorem gen_wpa_ie_overflows : ¬ ∀ conf, (wpaAuthGenWpaIe conf []).2.length ≤ genWpaIeBuf := by
  intro h
  have hlen : ¬ (wpaAuthGenWpaIe fullIeConf []).2.length ≤ genWpaIeBuf := by decide +kernel
  exact hlen (h fullIeConf)

end Hostap
