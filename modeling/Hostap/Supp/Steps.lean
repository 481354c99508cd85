import Hostap.Supp.Rx

/-!
# What the supplicant's functions change

One specification per function of `Hostap.Supp.Sm` and `Hostap.Supp.Rx`. Most of them leave the
pairwise keys and the replay counter alone: `Quiet` says so once, and a function that calls others
is quiet because they are (`Quiet.trans`). The few that do touch the keys have an inversion lemma:

* `wpaSupplicantInstallPtk_cases`: a key is passed to the driver, taken or refused;
* `wpaSupplicantProcess3of4_cases`, `wpaSupplicantProcess1of2_quiet`: the two messages that
  configure keys;
* `wpaSupplicantProcess1of4_cases`: a temporary PTK is derived;
* `rxKey_cases`: verification, with the promotion of the temporary PTK, before a frame is handed
  on.
-/

namespace Hostap

open Octets

/-- An observation that says nothing about verification or the pairwise key: a transmission, or
a group key where `group` allows one. -/
def SuppObs.IsQuiet (group : Bool) : SuppObs → Prop
  | .tx _ _ | .deauthenticate _ => True
  | .setGtk _ _ _ _ | .setIgtk _ _ _ => group
  | _ => False

/-- `sm'` differs from `sm` in cached data and quiet observations only; where `group` allows it,
also in group keys and the SNonce of the next fast transition. -/
structure Quiet (env : SuppEnv) (group : Bool) (sm sm' : WpaSm) : Prop where
  pmk : sm'.pmk = sm.pmk
  ptk : sm'.ptk = sm.ptk
  tptk : sm'.tptk = sm.tptk
  ptkSet : sm'.ptkSet = sm.ptkSet
  tptkSet : sm'.tptkSet = sm.tptkSet
  anonce : sm'.anonce = sm.anonce
  renew : sm'.renewSnonce = sm.renewSnonce
  counter : sm'.rxReplayCounter = sm.rxReplayCounter
  counterSet : sm'.rxReplayCounterSet = sm.rxReplayCounterSet
  keyMgmt : sm'.keyMgmt = sm.keyMgmt
  proto : sm'.proto = sm.proto
  pairwise : sm'.pairwiseCipher = sm.pairwiseCipher
  rxCount : sm'.rxCount = sm.rxCount
  snonce : sm'.snonce = sm.snonce ∨
    group = true ∧ env.randomFt = some sm'.snonce ∧ sm'.snonce ∈ sm'.drawn
  drawn : ∃ l, sm'.drawn = sm.drawn ++ l
  log : ∃ l, sm'.log = sm.log ++ l ∧ ∀ o ∈ l, o.IsQuiet group

namespace Quiet

variable {env : SuppEnv} {group : Bool} {sm sm' sm'' : WpaSm}

theorem refl (sm : WpaSm) : Quiet env group sm sm where
  pmk := rfl
  ptk := rfl
  tptk := rfl
  ptkSet := rfl
  tptkSet := rfl
  anonce := rfl
  renew := rfl
  counter := rfl
  counterSet := rfl
  keyMgmt := rfl
  proto := rfl
  pairwise := rfl
  rxCount := rfl
  snonce := .inl rfl
  drawn := ⟨[], by simp⟩
  log := ⟨[], by simp, by simp⟩

theorem trans (h : Quiet env group sm sm') (h' : Quiet env group sm' sm'') : Quiet env group sm sm'' where
  pmk := h'.pmk.trans h.pmk
  ptk := h'.ptk.trans h.ptk
  tptk := h'.tptk.trans h.tptk
  ptkSet := h'.ptkSet.trans h.ptkSet
  tptkSet := h'.tptkSet.trans h.tptkSet
  anonce := h'.anonce.trans h.anonce
  renew := h'.renew.trans h.renew
  counter := h'.counter.trans h.counter
  counterSet := h'.counterSet.trans h.counterSet
  keyMgmt := h'.keyMgmt.trans h.keyMgmt
  proto := h'.proto.trans h.proto
  pairwise := h'.pairwise.trans h.pairwise
  rxCount := h'.rxCount.trans h.rxCount
  snonce := by
    obtain ⟨l, hl⟩ := h'.drawn
    rcases h'.snonce with hs | hs
    · rw [hs]
      rcases h.snonce with hs' | ⟨hg, hr, hm⟩
      · exact .inl hs'
      · refine .inr ⟨hg, hr, ?_⟩
        rw [hl]
        exact List.mem_append_left _ hm
    · exact .inr hs
  drawn := by
    obtain ⟨l, hl⟩ := h.drawn
    obtain ⟨l', hl'⟩ := h'.drawn
    exact ⟨l ++ l', by rw [hl', hl, List.append_assoc]⟩
  log := by
    obtain ⟨l, hl, hq⟩ := h.log
    obtain ⟨l', hl', hq'⟩ := h'.log
    refine ⟨l ++ l', by rw [hl', hl, List.append_assoc], ?_⟩
    intro o ho
    rcases List.mem_append.1 ho with ho | ho
    · exact hq o ho
    · exact hq' o ho

theorem micLen (h : Quiet env group sm sm') : sm'.micLen = sm.micLen := by
  simp only [WpaSm.micLen, h.keyMgmt, h.pmk]

theorem of_eq {st : WpaState} {g ig : Bytes} {cp : Option Pmksa} {aw ar : Option Bytes}
    {b : Bytes} {ok : Bool} :
    Quiet env group sm
      { sm with
        state := st, gtk := g, igtk := ig, curPmksa := cp, apWpaIe := aw, apRsnIe := ar, bssid := b
        msg3of4Ok := ok } where
  pmk := rfl
  ptk := rfl
  tptk := rfl
  ptkSet := rfl
  tptkSet := rfl
  anonce := rfl
  renew := rfl
  counter := rfl
  counterSet := rfl
  keyMgmt := rfl
  proto := rfl
  pairwise := rfl
  rxCount := rfl
  snonce := .inl rfl
  drawn := ⟨[], by simp⟩
  log := ⟨[], by simp, by simp⟩

theorem note {o : SuppObs} (ho : o.IsQuiet group) : Quiet env group sm (sm.note o) where
  pmk := rfl
  ptk := rfl
  tptk := rfl
  ptkSet := rfl
  tptkSet := rfl
  anonce := rfl
  renew := rfl
  counter := rfl
  counterSet := rfl
  keyMgmt := rfl
  proto := rfl
  pairwise := rfl
  rxCount := rfl
  snonce := .inl rfl
  drawn := ⟨[], by simp [WpaSm.note]⟩
  log := ⟨[o], rfl, by simpa using ho⟩

theorem draw {nonce : Bytes} (h : env.randomFt = some nonce) :
    Quiet env true sm { sm with snonce := nonce, drawn := sm.drawn ++ [nonce] } where
  pmk := rfl
  ptk := rfl
  tptk := rfl
  ptkSet := rfl
  tptkSet := rfl
  anonce := rfl
  renew := rfl
  counter := rfl
  counterSet := rfl
  keyMgmt := rfl
  proto := rfl
  pairwise := rfl
  rxCount := rfl
  snonce := .inr ⟨rfl, h, by simp⟩
  drawn := ⟨[nonce], rfl⟩
  log := ⟨[], by simp, by simp⟩

end Quiet

section QuietFunctions

variable (lib : RsnLib) (env : SuppEnv) {group : Bool}

theorem deauthenticate_quiet (reason : Nat) (sm : WpaSm) :
    Quiet env group sm (wpaSmDeauthenticate reason sm) :=
  Quiet.note trivial

theorem wpaEapolKeySend_quiet (ptk : WpaPtk) (ver : Nat) (msg : Bytes) (sm : WpaSm) :
    Quiet env group sm (wpaEapolKeySend lib env ptk ver msg sm).2 := by
  have hbssid : ∀ b, Quiet env group sm (if sm.bssid = zeros 6 then { sm with bssid := b } else sm) := by
    intro b
    split
    · exact Quiet.of_eq
    · exact Quiet.refl sm
  simp only [wpaEapolKeySend]
  cases env.getBssid with
  | none =>
    simp only
    split
    · exact Quiet.refl sm
    · exact (Quiet.refl sm).trans (Quiet.note trivial)
  | some b =>
    simp only
    split
    · exact hbssid b
    · exact (hbssid b).trans (Quiet.note trivial)

theorem sendReply_quiet (ptk : WpaPtk) (ver : Nat) (key : WpaEapolKey) (keyInfo : Nat)
    (nonce keyData : Bytes) (sm : WpaSm) :
    Quiet env group sm (sendReply lib env ptk ver key keyInfo nonce keyData sm).2 := by
  unfold sendReply
  split
  · exact Quiet.refl sm
  · exact wpaEapolKeySend_quiet lib env ptk ver _ sm

theorem wpaSupplicantSend2of4_quiet (key : WpaEapolKey) (wpaIe : Option Bytes) (sm : WpaSm) :
    Quiet env group sm (wpaSupplicantSend2of4 lib env key wpaIe sm).2 := by
  simp only [wpaSupplicantSend2of4]
  split
  · exact Quiet.refl sm
  · split
    · exact Quiet.refl sm
    · exact sendReply_quiet lib env _ _ _ _ _ _ sm

theorem wpaSupplicantSend4of4_quiet (key : WpaEapolKey) (sm : WpaSm) :
    Quiet env group sm (wpaSupplicantSend4of4 lib env key sm).2 :=
  sendReply_quiet lib env _ _ _ _ _ _ sm

theorem wpaSupplicantSend2of2_quiet (key : WpaEapolKey) (sm : WpaSm) :
    Quiet env group sm (wpaSupplicantSend2of2 lib env key sm).2 :=
  sendReply_quiet lib env _ _ _ _ _ _ sm

theorem wpaSupplicantInstallGtk_quiet (gd : WpaGtkData) (rsc : Bytes) (sm : WpaSm) :
    Quiet env true sm (wpaSupplicantInstallGtk env gd rsc sm).2 := by
  simp only [wpaSupplicantInstallGtk]
  split
  · exact Quiet.refl sm
  · have hnote : Quiet env true sm (sm.note (.setGtk gd.keyidx (swapMichael sm.groupCipher gd.gtk) rsc
        env.setKeyGtk)) := Quiet.note rfl
    split
    · exact hnote
    · exact hnote.trans Quiet.of_eq

theorem wpaSupplicantKeyNegComplete_quiet (sm : WpaSm) :
    Quiet env true sm (wpaSupplicantKeyNegComplete env sm) := by
  have hstate : Quiet env true sm { sm with state := .completed } := Quiet.of_eq
  simp only [wpaSupplicantKeyNegComplete]
  split
  · split
    · -- the draw for the next transition
      rename_i nonce hr
      exact hstate.trans (Quiet.draw hr)
    · exact hstate
  · exact hstate

theorem wpaSupplicantPairwiseGtk_quiet (key : WpaEapolKey) (kde : Bytes) (sm : WpaSm) :
    Quiet env true sm (wpaSupplicantPairwiseGtk env key kde sm).2 := by
  simp only [wpaSupplicantPairwiseGtk]
  split
  · exact Quiet.refl sm
  · split
    · exact wpaSupplicantKeyNegComplete_quiet env sm
    · split
      · exact Quiet.refl sm
      · have hgtk := wpaSupplicantInstallGtk_quiet env
          ⟨wpaSupplicantGtkTxBitWorkaround sm ((kde.getD 0 0).toNat.testBit 2),
            (kde.getD 0 0).toNat % 4, kde.drop 2⟩ (relaxedRsc sm key.keyRsc) sm
        split
        · rename_i sm' heq
          rw [heq] at hgtk
          exact hgtk
        · rename_i sm' heq
          rw [heq] at hgtk
          exact hgtk.trans (wpaSupplicantKeyNegComplete_quiet env sm')

theorem wpaSupplicantInstallIgtk_quiet (kde : Bytes) (sm : WpaSm) :
    Quiet env true sm (wpaSupplicantInstallIgtk env kde sm).2 := by
  simp only [wpaSupplicantInstallIgtk]
  split
  · exact Quiet.refl sm
  · split
    · exact Quiet.refl sm
    · have hnote : Quiet env true sm (sm.note (.setIgtk (getLe16 kde)
          (slice kde 8 (wpaCipherKeyLen sm.mgmtGroupCipher)) env.setKeyIgtk)) := Quiet.note rfl
      split
      · exact hnote
      · exact hnote.trans Quiet.of_eq

theorem ieee80211wSetKeys_quiet (ie : WpaEapolIeParse) (sm : WpaSm) :
    Quiet env true sm (ieee80211wSetKeys env ie sm).2 := by
  simp only [ieee80211wSetKeys]
  split
  · exact Quiet.refl sm
  · split
    · exact Quiet.refl sm
    · split
      · exact Quiet.refl sm
      · exact wpaSupplicantInstallIgtk_quiet env _ sm

theorem wpaSupplicantValidateIe_quiet (ie : WpaEapolIeParse) (sm : WpaSm) :
    Quiet env true sm (wpaSupplicantValidateIe env ie sm).2 := by
  have hread : Quiet env true sm (readBeaconIe env sm) := by
    unfold readBeaconIe
    split
    · split
      · exact Quiet.of_eq
      · exact Quiet.refl sm
    · exact Quiet.refl sm
  have hreport : Quiet env true sm (wpaReportIeMismatch (readBeaconIe env sm)).2 :=
    hread.trans (deauthenticate_quiet env _ _)
  simp only [wpaSupplicantValidateIe]
  split
  · exact hreport
  · split
    · exact hreport
    · split
      · exact hreport
      · split <;> exact hread

theorem gtkStep_quiet (key : WpaEapolKey) (ie : WpaEapolIeParse) (sm : WpaSm) :
    Quiet env true sm (gtkStep env key ie sm).2 := by
  have hstate : Quiet env true sm { sm with state := .groupHandshake } := Quiet.of_eq
  simp only [gtkStep]
  split
  · exact hstate.trans (wpaSupplicantKeyNegComplete_quiet env _)
  · split
    · exact hstate.trans (wpaSupplicantPairwiseGtk_quiet env key _ _)
    · exact hstate

end QuietFunctions

/-! ## Message 3/4 -/

/-- The state after the driver took or refused the pairwise key. -/
def WpaSm.afterSetKey (sm : WpaSm) (ok : Bool) : WpaSm :=
  if ok then { sm with ptk := { sm.ptk with tk := [], installed := true } } else sm

/-- What happens to the pairwise key once message 4/4 was sent. -/
inductive KeyUse (sm : WpaSm) : WpaSm → Prop
  | replied : KeyUse sm { sm with renewSnonce := true }
  | passed (rsc : Bytes) (ok : Bool) (hinst : sm.ptk.installed = false) (htk : sm.ptk.tk ≠ []) :
      KeyUse sm (({ sm with renewSnonce := true }.note
        (.setPtk sm.ptk.origin sm.ptk.tk rsc ok)).afterSetKey ok)

section Messages

variable (lib : RsnLib) (env : SuppEnv) (key : WpaEapolKey) (keyData : Bytes)

theorem wpaSupplicantInstallPtk_cases (sm : WpaSm) :
    KeyUse sm (wpaSupplicantInstallPtk env key { sm with renewSnonce := true }).2 := by
  simp only [wpaSupplicantInstallPtk]
  split
  · exact .replied
  · rename_i hinst
    have hinst' : sm.ptk.installed = false := by simpa using hinst
    split
    · exact .replied
    · split
      · exact .replied
      · split
        · exact .replied
        · rename_i hlen
          -- a TK of the cipher's length is there
          have htk : sm.ptk.tk ≠ [] := by
            rintro hnil
            rw [hnil, List.length_nil] at hlen
            omega
          have hpassed := KeyUse.passed (if sm.proto.isRsn then nullRsc else key.keyRsc)
            env.setKeyPtk hinst' htk
          cases hok : env.setKeyPtk with
          | false => simpa [hok, WpaSm.afterSetKey] using hpassed
          | true => simpa [hok, WpaSm.afterSetKey, WpaSm.note] using hpassed

theorem suiteBPmksa_quiet (sm : WpaSm) : Quiet env true sm (suiteBPmksa env sm) := by
  unfold suiteBPmksa
  split
  · exact Quiet.of_eq
  · exact Quiet.refl sm

theorem keys3of4_cases (ie : WpaEapolIeParse) (sm : WpaSm) :
    ∃ sm', KeyUse sm sm' ∧
      Quiet env true sm' (keys3of4 env key ie { sm with renewSnonce := true }).2 := by
  have hinstall : KeyUse sm (installStep env key { sm with renewSnonce := true }).2 := by
    unfold installStep
    split
    · exact wpaSupplicantInstallPtk_cases env key sm
    · exact .replied
  refine ⟨_, hinstall, ?_⟩
  unfold keys3of4
  split
  · rename_i sm₁ heq
    rw [heq]
    exact Quiet.refl sm₁
  · rename_i sm₁ heq
    rw [heq]
    have hgtk := gtkStep_quiet env key ie sm₁
    split
    · rename_i sm₂ heq₂
      rw [heq₂] at hgtk
      exact hgtk
    · rename_i sm₂ heq₂
      rw [heq₂] at hgtk
      have higtk := hgtk.trans (ieee80211wSetKeys_quiet env ie sm₂)
      split
      · rename_i sm₃ heq₃
        rw [heq₃] at higtk
        exact higtk
      · rename_i sm₃ heq₃
        rw [heq₃] at higtk
        exact (higtk.trans (suiteBPmksa_quiet env sm₃)).trans Quiet.of_eq

/-- Message 3/4 only looks at the keys, or uses them after it was answered. -/
def Processed3of4 (sm sm' : WpaSm) : Prop :=
  Quiet env true sm sm' ∨ ∃ sm₁ sm₂, Quiet env true sm sm₁ ∧ KeyUse sm₁ sm₂ ∧ Quiet env true sm₂ sm'

variable {env} in
theorem Processed3of4.trans_quiet {sm sm' sm'' : WpaSm} (h : Processed3of4 env sm sm')
    (h' : Quiet env true sm' sm'') : Processed3of4 env sm sm'' := by
  rcases h with h | ⟨sm₁, sm₂, h₁, hu, h₂⟩
  · exact .inl (h.trans h')
  · exact .inr ⟨sm₁, sm₂, h₁, hu, h₂.trans h'⟩

variable {env} in
theorem Processed3of4.quiet_trans {sm sm' sm'' : WpaSm} (h : Quiet env true sm sm')
    (h' : Processed3of4 env sm' sm'') : Processed3of4 env sm sm'' := by
  rcases h' with h' | ⟨sm₁, sm₂, h₁, hu, h₂⟩
  · exact .inl (h.trans h')
  · exact .inr ⟨sm₁, sm₂, h.trans h₁, hu, h₂⟩

theorem body3of4_cases (sm : WpaSm) : Processed3of4 env sm (body3of4 lib env key keyData sm).2 := by
  unfold body3of4
  split
  · exact .inl (Quiet.refl sm)
  · rename_i ie _
    split
    · exact .inl (Quiet.refl sm)
    · have hie := wpaSupplicantValidateIe_quiet env ie sm
      split
      · rename_i sm₁ heq
        rw [heq] at hie
        exact .inl hie
      · rename_i sm₁ heq
        rw [heq] at hie
        split
        · exact .inl hie
        · split
          · exact .inl hie
          · have hsend := hie.trans (wpaSupplicantSend4of4_quiet lib env key sm₁)
            split
            · rename_i sm₂ heq₂
              rw [heq₂] at hsend
              exact .inl hsend
            · rename_i sm₂ heq₂
              rw [heq₂] at hsend
              obtain ⟨sm₃, huse, hq⟩ := keys3of4_cases env key ie sm₂
              exact .inr ⟨sm₂, sm₃, hsend, huse, hq⟩

theorem wpaSupplicantProcess3of4_cases (sm : WpaSm) :
    Processed3of4 env (sm.note (.process3of4 sm.rxCount))
      (wpaSupplicantProcess3of4 lib env key keyData sm) := by
  have hstate : Quiet env true (sm.note (.process3of4 sm.rxCount))
      { sm.note (.process3of4 sm.rxCount) with state := .fourWayHandshake } := Quiet.of_eq
  have hbody := Processed3of4.quiet_trans hstate (body3of4_cases lib env key keyData _)
  unfold wpaSupplicantProcess3of4
  split
  · rename_i sm' heq
    rw [heq] at hbody
    exact hbody
  · rename_i sm' heq
    rw [heq] at hbody
    exact hbody.trans_quiet (deauthenticate_quiet env _ sm')

/-! ## Message 1/2 -/

theorem gtkOf1of2_quiet (sm : WpaSm) : Quiet env true sm (gtkOf1of2 lib env key keyData sm).2 := by
  simp only [gtkOf1of2, wpaSupplicantProcess1of2Rsn]
  split
  · split
    · exact Quiet.refl sm
    · split
      · exact Quiet.refl sm
      · split
        · exact Quiet.refl sm
        · split
          · exact Quiet.refl sm
          · split
            · exact Quiet.refl sm
            · exact ieee80211wSetKeys_quiet env _ sm
  · exact Quiet.refl sm

theorem body1of2_quiet (sm : WpaSm) : Quiet env true sm (body1of2 lib env key keyData sm).2 := by
  simp only [body1of2]
  split
  · exact Quiet.refl sm
  · have hgtk := gtkOf1of2_quiet lib env key keyData sm
    split
    · rename_i sm₁ heq
      rw [heq] at hgtk
      exact hgtk.trans Quiet.of_eq
    · rename_i gd sm₁ heq
      rw [heq] at hgtk
      have hstate : Quiet env true sm { sm₁ with state := .groupHandshake } := hgtk.trans Quiet.of_eq
      have hinst := hstate.trans (wpaSupplicantInstallGtk_quiet env gd
        (relaxedRsc { sm₁ with state := .groupHandshake } key.keyRsc) _)
      split
      · rename_i sm₂ heq₂
        rw [heq₂] at hinst
        exact hinst
      · rename_i sm₂ heq₂
        rw [heq₂] at hinst
        have hsend := hinst.trans (wpaSupplicantSend2of2_quiet lib env key sm₂)
        split
        · rename_i sm₃ heq₃
          rw [heq₃] at hsend
          exact hsend
        · rename_i sm₃ heq₃
          rw [heq₃] at hsend
          split
          · exact hsend.trans Quiet.of_eq
          · exact hsend.trans (wpaSupplicantKeyNegComplete_quiet env sm₃)

theorem wpaSupplicantProcess1of2_quiet (sm : WpaSm) :
    Quiet env true (sm.note (.process1of2 sm.rxCount))
      (wpaSupplicantProcess1of2 lib env key keyData sm) := by
  have hbody := body1of2_quiet lib env key keyData (sm.note (.process1of2 sm.rxCount))
  unfold wpaSupplicantProcess1of2
  split
  · rename_i sm' heq
    rw [heq] at hbody
    exact hbody
  · rename_i sm' heq
    rw [heq] at hbody
    exact hbody.trans (deauthenticate_quiet env _ sm')

/-! ## Message 1/4 -/

/-- Only the PMK and what belongs to it differ, and a new PMK is not empty. -/
def PmkChange (sm sm' : WpaSm) : Prop :=
  ∃ pmk xxkey curPmksa, sm' = { sm with pmk := pmk, xxkey := xxkey, curPmksa := curPmksa } ∧
    (pmk = sm.pmk ∨ pmk.octets ≠ [])

theorem PmkChange.refl (sm : WpaSm) : PmkChange sm sm := ⟨_, _, _, rfl, .inl rfl⟩

theorem PmkChange.trans {sm sm' sm'' : WpaSm} (h : PmkChange sm sm') (h' : PmkChange sm' sm'') :
    PmkChange sm sm'' := by
  obtain ⟨p, x, c, rfl, hp⟩ := h
  obtain ⟨p', x', c', rfl, hp'⟩ := h'
  refine ⟨p', x', c', rfl, ?_⟩
  rcases hp' with rfl | hp'
  · exact hp
  · exact .inr hp'

theorem getPmkEnd_state (abortCached : Bool) (sm : WpaSm) :
    (getPmkEnd env abortCached sm).2 = sm := by
  unfold getPmkEnd
  split <;> rfl

theorem getPmkMissing_change (abortCached : Bool) (sm : WpaSm) :
    PmkChange sm (getPmkMissing env abortCached sm).2 := by
  unfold getPmkMissing
  split
  · rw [getPmkEnd_state]
    exact ⟨_, _, none, rfl, .inl rfl⟩
  · split
    · rw [getPmkEnd_state]
      exact PmkChange.refl sm
    · exact PmkChange.refl sm

theorem getPmkStore_change (pmkid : Option Bytes) (abortCached : Bool) (pmk : Pmk)
    (hpmk : pmk.octets ≠ []) (sm : WpaSm) :
    PmkChange sm (getPmkStore env pmkid abortCached pmk sm).2 := by
  simp only [getPmkStore]
  generalize (if sm.proto = .rsn ∧ ¬ wpaKeyMgmtSuiteB sm.keyMgmt ∧ ¬ wpaKeyMgmtFt sm.keyMgmt then
    env.pmksaCacheAdd else none) = sa
  split
  · rw [getPmkEnd_state]
    exact ⟨pmk, _, _, rfl, .inr hpmk⟩
  · split
    · exact ⟨pmk, _, _, rfl, .inr hpmk⟩
    · rw [getPmkEnd_state]
      exact ⟨pmk, _, _, rfl, .inr hpmk⟩

theorem eapolPmk_ne_nil (source : Nat → UInt8) (len : Nat) (h : 16 ≤ len ∧ len ≤ 64) :
    (eapolPmk source len h).octets ≠ [] := by
  have hlen : (eapolPmk source len h).octets.length = len := by simp [eapolPmk]
  intro hnil
  rw [hnil, List.length_nil] at hlen
  omega

theorem getPmkFromEapol_change (pmkid : Option Bytes) (abortCached : Bool) (sm : WpaSm) :
    PmkChange sm (getPmkFromEapol env pmkid abortCached sm).2 := by
  have hxx : PmkChange sm { sm with xxkey := eapolXxkey env sm } := ⟨_, _, _, rfl, .inl rfl⟩
  unfold getPmkFromEapol
  split
  · split
    · exact hxx.trans (getPmkStore_change env pmkid _ _ (eapolPmk_ne_nil _ _ _) _)
    · exact getPmkMissing_change env _ sm
  · split
    · exact hxx.trans (getPmkStore_change env pmkid _ _ (eapolPmk_ne_nil _ _ _) _)
    · split
      · exact getPmkStore_change env pmkid _ _ (eapolPmk_ne_nil _ _ _) sm
      · exact getPmkMissing_change env _ sm

theorem lookupPmksa_change (pmkid : Option Bytes) (sm : WpaSm) :
    PmkChange sm (lookupPmksa env pmkid sm).2 := by
  unfold lookupPmksa
  split
  · split
    · exact ⟨_, _, _, rfl, .inl rfl⟩
    · exact PmkChange.refl sm
  · exact PmkChange.refl sm

theorem wpaSupplicantGetPmk_change (pmkid : Option Bytes) (sm : WpaSm) :
    PmkChange sm (wpaSupplicantGetPmk env pmkid sm).2 := by
  have hlookup := lookupPmksa_change env pmkid sm
  unfold wpaSupplicantGetPmk
  generalize lookupPmksa env pmkid sm = found at hlookup ⊢
  refine hlookup.trans ?_
  dsimp only
  split
  · rename_i sa _
    split
    · rw [getPmkEnd_state]
      exact ⟨sa.pmk, _, _, rfl, .inr sa.pmk_set⟩
    · split
      · exact getPmkFromEapol_change env pmkid _ _
      · rw [getPmkEnd_state]
        exact PmkChange.refl _
  · split
    · exact getPmkFromEapol_change env pmkid _ _
    · rw [getPmkEnd_state]
      exact PmkChange.refl _

/-- The SNonce of the next reply: the one in use, or a new one. -/
inductive SnonceReady (sm : WpaSm) : WpaSm → Prop
  | kept (h : sm.renewSnonce = false) : SnonceReady sm sm
  | drew (nonce : Bytes) (h : env.random = some nonce) :
      SnonceReady sm
        { sm with snonce := nonce, renewSnonce := false, drawn := sm.drawn ++ [nonce] }

theorem renewSnonce_cases {sm sm' : WpaSm} (h : renewSnonce env sm = some sm') :
    SnonceReady env sm sm' := by
  unfold renewSnonce at h
  split at h
  · obtain ⟨nonce, hr, rfl⟩ := Option.map_eq_some_iff.1 h
    exact .drew nonce hr
  · rename_i hrenew
    cases h
    exact .kept (by simpa using hrenew)

/-- What message 1/4 does to the keys once the PMK is known. -/
inductive Replied1of4 (sm : WpaSm) : WpaSm → Prop
  | refused {sm' : WpaSm} (h : Quiet env false sm sm') : Replied1of4 sm sm'
  | noKeys {sm₁ sm' : WpaSm} (h : SnonceReady env sm sm₁) (hq : Quiet env false sm₁ sm') :
      Replied1of4 sm sm'
  | derived {sm₁ sm₂ : WpaSm} {keys : PtkKeys} {secret : Bytes} (anonce : Bytes)
      (h : SnonceReady env sm sm₁)
      (hk : wpaDerivePtk lib key.keyNonce sm₁ = some (keys, secret))
      (hq : Quiet env false (sm₁.withTptk keys secret key.keyNonce) sm₂) :
      Replied1of4 sm { sm₂ with anonce := anonce }

theorem reply1of4_cases (sm : WpaSm) :
    Replied1of4 lib env key sm (reply1of4 lib env key sm) := by
  unfold reply1of4
  split
  · exact .refused (deauthenticate_quiet env _ sm)
  · rename_i sm₁ hrenew
    have hready := renewSnonce_cases env hrenew
    split
    · exact .noKeys hready (deauthenticate_quiet env _ sm₁)
    · rename_i keys secret hk
      have hsend : Quiet env false (sm₁.withTptk keys secret key.keyNonce) _ :=
        wpaSupplicantSend2of4_quiet lib env key
          (kdeOf2of4 env (sm₁.withTptk keys secret key.keyNonce))
          (sm₁.withTptk keys secret key.keyNonce)
      dsimp only
      split
      · rename_i sm₂ heq
        rw [heq] at hsend
        exact .derived _ hready hk (hsend.trans (deauthenticate_quiet env _ sm₂))
      · rename_i sm₂ heq
        rw [heq] at hsend
        exact .derived _ hready hk hsend

theorem wpaSupplicantProcess1of4_cases (sm : WpaSm) :
    ∃ sm₁, PmkChange sm sm₁ ∧
      ∃ st, Replied1of4 lib env key { sm₁ with state := st }
        (wpaSupplicantProcess1of4 lib env key keyData sm) := by
  simp only [wpaSupplicantProcess1of4]
  split
  · exact ⟨sm, PmkChange.refl sm, sm.state, .refused (Quiet.refl sm)⟩
  · split
    · exact ⟨sm, PmkChange.refl sm, .fourWayHandshake, .refused (deauthenticate_quiet env _ _)⟩
    · rename_i pmkid _
      have hpmk := wpaSupplicantGetPmk_change env pmkid { sm with state := .fourWayHandshake }
      generalize wpaSupplicantGetPmk env pmkid { sm with state := .fourWayHandshake } = found at hpmk
      obtain ⟨ret, smGot⟩ := found
      obtain ⟨pmk, xxkey, curPmksa, hgot, hset⟩ := hpmk
      dsimp only at hgot hset
      refine ⟨{ sm with pmk := pmk, xxkey := xxkey, curPmksa := curPmksa },
        ⟨pmk, xxkey, curPmksa, rfl, hset⟩, .fourWayHandshake, ?_⟩
      subst hgot
      split
      · rename_i heq
        cases heq
        exact .refused (Quiet.refl _)
      · rename_i heq
        cases heq
        exact reply1of4_cases lib env key _
      · rename_i heq
        cases heq
        exact .refused (deauthenticate_quiet env _ _)

end Messages

/-! ## Dispatch -/

def Is3of4 (key : WpaEapolKey) : Prop :=
  key.has kiKeyType = true ∧ key.keyIndex = 0 ∧
    (key.has kiMic = true ∨ key.has kiEncrKeyData = true)

def Is1of2 (micLen : Nat) (key : WpaEapolKey) : Prop :=
  key.has kiKeyType = false ∧
    (micLen ≠ 0 ∧ key.has kiMic = true ∨ micLen = 0 ∧ key.has kiEncrKeyData = true)

theorem rxDispatch_cases (lib : RsnLib) (env : SuppEnv) (key : WpaEapolKey) (keyData : Bytes)
    (sm : WpaSm) :
    ¬ Is3of4 key ∧ (rxDispatch lib env key keyData sm).2 = sm ∨
    Is3of4 key ∧ (rxDispatch lib env key keyData sm).2 =
      wpaSupplicantProcess3of4 lib env key keyData sm ∨
    ¬ Is3of4 key ∧ (rxDispatch lib env key keyData sm).2 =
      wpaSupplicantProcess1of4 lib env key keyData sm ∨
    Is1of2 sm.micLen key ∧ (rxDispatch lib env key keyData sm).2 =
      wpaSupplicantProcess1of2 lib env key keyData sm := by
  unfold rxDispatch
  split
  · rename_i htype
    split
    · rename_i hidx
      exact .inl ⟨fun h => hidx h.2.1, rfl⟩
    · rename_i hidx
      split
      · rename_i hflags
        exact .inr (.inl ⟨⟨htype, by simpa using hidx, hflags⟩, rfl⟩)
      · rename_i hflags
        exact .inr (.inr (.inl ⟨fun h => hflags h.2.2, rfl⟩))
  · rename_i htype
    split
    · rename_i hflags
      exact .inr (.inr (.inr ⟨⟨by simpa using htype, hflags⟩, rfl⟩))
    · exact .inl ⟨fun h => htype h.1, rfl⟩

/-! ## Verification -/

/-- The MIC of a frame verified. -/
inductive MicStep (lib : RsnLib) (key : WpaEapolKey) (sm : WpaSm) : WpaSm → Prop
  | tptk (hset : sm.tptkSet)
      (hmic : (wpaEapolKeyMic lib sm.tptk.kck sm.keyMgmt key.ver []).isSome) :
      MicStep lib key sm (sm.micTptk key.replayCounter)
  | ptk (hset : sm.ptkSet) (hmic : (wpaEapolKeyMic lib sm.ptk.kck sm.keyMgmt key.ver []).isSome) :
      MicStep lib key sm (sm.micPtk key.replayCounter)

/-- The AES-SIV data of a frame decrypted. -/
inductive SivStep (key : WpaEapolKey) (sm : WpaSm) : WpaSm → Prop
  | tptk (hset : sm.tptkSet) : SivStep key sm (sm.sivTptk key.replayCounter)
  | ptk (hnot : sm.tptkSet = false) (hset : sm.ptkSet) :
      SivStep key sm (sm.sivPtk key.replayCounter)

section Verification

variable (lib : RsnLib) {key : WpaEapolKey} {sm : WpaSm}

theorem wpaEapolKeyMic_isSome (kck : Bytes) (akmp : Akm) (ver : Nat) (b b' : Bytes) :
    (wpaEapolKeyMic lib kck akmp ver b).isSome = (wpaEapolKeyMic lib kck akmp ver b').isSome := by
  simp only [wpaEapolKeyMic]
  split
  · rfl
  · split
    · rfl
    · rfl
    · rfl
    · split <;> first | rfl | (split_ifs <;> rfl)
    · rfl

theorem checkMic_isSome {kck : Bytes} {akmp : Akm} {ver micLen : Nat} {mic tmp tmp' : Bytes}
    (h : checkMic lib kck akmp ver micLen mic tmp = (true, tmp')) :
    (wpaEapolKeyMic lib kck akmp ver []).isSome := by
  simp only [checkMic] at h
  split at h
  · cases h
  · rename_i m hm
    rw [wpaEapolKeyMic_isSome lib kck akmp ver [] (patch tmp micOffset (zeros micLen)), hm]
    rfl

theorem verifyMicPtk_cases {mic tmp : Bytes} :
    verifyMicPtk lib key mic tmp sm = (none, sm) ∨
      ∃ tmp' sm', verifyMicPtk lib key mic tmp sm = (some tmp', sm') ∧ MicStep lib key sm sm' := by
  unfold verifyMicPtk
  split
  · rename_i hset
    split
    · rename_i tmp' hcheck
      exact .inr ⟨tmp', _, rfl, .ptk hset (checkMic_isSome lib hcheck)⟩
    · exact .inl rfl
  · exact .inl rfl

theorem wpaSupplicantVerifyEapolKeyMic_cases {tmp : Bytes} :
    wpaSupplicantVerifyEapolKeyMic lib key tmp sm = (none, sm) ∨
      ∃ tmp' sm', wpaSupplicantVerifyEapolKeyMic lib key tmp sm = (some tmp', sm') ∧
        MicStep lib key sm sm' := by
  simp only [wpaSupplicantVerifyEapolKeyMic]
  split
  · rename_i hset
    split
    · rename_i tmp' hcheck
      exact .inr ⟨tmp', _, rfl, .tptk hset (checkMic_isSome lib hcheck)⟩
    · exact verifyMicPtk_cases lib
  · exact verifyMicPtk_cases lib

theorem rxVerify_cases (f : RxFrame) (sm : WpaSm) :
    f.key.has kiMic = false ∧ rxVerify lib f sm = (some f.tmp, sm) ∨
      f.key.has kiMic = true ∧ (rxVerify lib f sm = (none, sm) ∨
        ∃ tmp sm', rxVerify lib f sm = (some tmp, sm') ∧ MicStep lib f.key sm sm') := by
  unfold rxVerify
  split
  · rename_i hmic
    exact .inr ⟨hmic, wpaSupplicantVerifyEapolKeyMic_cases lib⟩
  · rename_i hmic
    exact .inl ⟨by simpa using hmic, rfl⟩

theorem wpaSuppAeadDecrypt_cases {keyDataLen : Nat} {tmp : Bytes} :
    wpaSuppAeadDecrypt lib key keyDataLen tmp sm = (none, sm) ∨
      ∃ keyData sm', wpaSuppAeadDecrypt lib key keyDataLen tmp sm = (some keyData, sm') ∧
        SivStep key sm sm' := by
  simp only [wpaSuppAeadDecrypt]
  split
  · exact .inl rfl
  · split
    · rename_i hset
      split
      · exact .inl rfl
      · rename_i keyData _
        exact .inr ⟨keyData, _, rfl, .tptk hset⟩
    · rename_i hnot
      split
      · rename_i hset
        split
        · exact .inl rfl
        · rename_i keyData _
          exact .inr ⟨keyData, _, rfl, .ptk (by simpa using hnot) hset⟩
      · exact .inl rfl

theorem rxKeyData_cases (f : RxFrame) (tmp : Bytes) (sm : WpaSm) :
    rxKeyData lib f tmp sm = (none, sm) ∨
      ∃ keyData sm', rxKeyData lib f tmp sm = (some keyData, sm') ∧
        (f.key.has kiEncrKeyData = true ∧ sm.micLen = 0 ∧ SivStep f.key sm sm' ∨
          sm' = sm ∧ (f.key.has kiEncrKeyData = true → sm.micLen ≠ 0 ∧
            (sm.proto.isRsn = true → f.key.has kiMic = true))) := by
  simp only [rxKeyData]
  split
  · rename_i hencr
    exact .inr ⟨_, sm, rfl, .inr ⟨rfl, fun h => absurd h (by simpa using hencr)⟩⟩
  · rename_i hencr
    have hencr' : f.key.has kiEncrKeyData = true := by simpa using hencr
    split
    · rename_i hlen
      rcases wpaSuppAeadDecrypt_cases lib with h | ⟨keyData, sm', h, hs⟩
      · exact .inl h
      · exact .inr ⟨keyData, sm', h, .inl ⟨hencr', hlen, hs⟩⟩
    · rename_i hlen
      split
      · split
        · exact .inl rfl
        · rename_i hmic
          cases hdec : wpaSupplicantDecryptKeyData lib sm f.key
              (slice tmp (micOffset + sm.micLen + 2) f.keyDataLen) with
          | none => exact .inl rfl
          | some keyData =>
            exact .inr ⟨keyData, sm, rfl, .inr ⟨rfl, fun _ => ⟨hlen, fun _ => by simpa using hmic⟩⟩⟩
      · rename_i hrsn
        exact .inr ⟨_, sm, rfl, .inr ⟨rfl, fun _ => ⟨hlen, fun h => absurd h hrsn⟩⟩⟩

def Checked (key : WpaEapolKey) (sm sm' : WpaSm) : Prop :=
  key.has kiMic = false ∧ sm' = sm ∨ key.has kiMic = true ∧ MicStep lib key sm sm'

/-- The Key Data of a frame is in the clear: by AES-SIV, or without a change of the state. -/
def Opened (key : WpaEapolKey) (sm sm' : WpaSm) : Prop :=
  key.has kiEncrKeyData = true ∧ sm.micLen = 0 ∧ SivStep key sm sm' ∨
    sm' = sm ∧ (key.has kiEncrKeyData = true →
      sm.micLen ≠ 0 ∧ (sm.proto.isRsn = true → key.has kiMic = true))

theorem rxKey_cases (env : SuppEnv) {f : RxFrame} (hflags : rxFlags sm f.key = true) :
    (rxKey lib env f sm).2 = sm ∨ MicStep lib f.key sm (rxKey lib env f sm).2 ∨
      ∃ sm₁ sm₂ keyData, Checked lib f.key sm sm₁ ∧ Opened f.key sm₁ sm₂ ∧
        rxKey lib env f sm = rxDispatch lib env f.key keyData sm₂ := by
  unfold rxKey
  rw [if_neg (by simp [hflags])]
  rcases rxVerify_cases lib f sm with ⟨hmic, hv⟩ | ⟨hmic, hv | ⟨tmp, sm₁, hv, hm⟩⟩
  · rw [hv]
    dsimp only
    rcases rxKeyData_cases lib f f.tmp sm with hk | ⟨keyData, sm₂, hk, hs⟩
    · rw [hk]
      exact .inl rfl
    · rw [hk]
      exact .inr (.inr ⟨sm, sm₂, keyData, .inl ⟨hmic, rfl⟩, hs, rfl⟩)
  · rw [hv]
    exact .inl rfl
  · rw [hv]
    dsimp only
    rcases rxKeyData_cases lib f tmp sm₁ with hk | ⟨keyData, sm₂, hk, hs⟩
    · rw [hk]
      exact .inr (.inl hm)
    · rw [hk]
      exact .inr (.inr ⟨sm₁, sm₂, keyData, .inr ⟨hmic, hm⟩, hs, rfl⟩)

theorem wpaSmRxEapol_error (env : SuppEnv) {buf : Bytes} {ret : Int}
    (h : rxHeader sm buf = .error ret) : (wpaSmRxEapol lib env buf sm).2 = sm.received := by
  have hhead : rxHeader sm.received buf = .error ret := h
  simp only [wpaSmRxEapol, hhead]

theorem wpaSmRxEapol_ok (env : SuppEnv) {buf : Bytes} {f : RxFrame}
    (h : rxHeader sm buf = .ok f) :
    wpaSmRxEapol lib env buf sm = rxKey lib env f sm.received := by
  have hhead : rxHeader sm.received buf = .ok f := h
  simp only [wpaSmRxEapol, hhead]

end Verification

end Hostap
