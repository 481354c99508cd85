import Hostap.Rsn.SmallLib
import Hostap.Supp.Steps

/-!
# Authenticity of the frames the supplicant acts on

Keys are passed to the driver by messages 3/4 and 1/2, and these are to be authentic: the MIC, or
without a MIC field the AES-SIV data, verified under the PTK in use when the call returns
(`Authenticated`).

Which function a frame is handed to is decided by other bits than those that make it be checked,
and two frames of type Pairwise get past the checks (`Unverified`):

* in WPA, one with the Encrypted Key Data bit and no MIC bit. That such a frame has a MIC is only
  checked together with the decryption of its Key Data, which is done for RSN and OSEN alone;
* where the MIC field is empty, one with the MIC bit and no Encrypted Key Data bit, since a MIC of
  length zero always compares equal.

`rx_authenticated_iff` says that there is no other one.
-/

namespace Hostap

open Octets List

/-- A message that configures keys is processed, or a key is passed to the driver. -/
def SuppObs.Acts : SuppObs → Prop
  | .process3of4 _ | .process1of2 _ | .setPtk _ _ _ _ | .setGtk _ _ _ _ | .setIgtk _ _ _ => True
  | _ => False

def SuppObs.Verifies : SuppObs → Prop
  | .micVerified _ _ _ | .sivVerified _ _ _ => True
  | _ => False

/-- What a call of `wpa_sm_rx_eapol()` did. -/
def rxObs (lib : RsnLib) (env : SuppEnv) (buf : Bytes) (sm : WpaSm) : List SuppObs :=
  (wpaSmRxEapol lib env buf sm).2.log.drop sm.log.length

/-- A frame verified under the given PTK: by its MIC, or by AES-SIV without a MIC field. -/
def VerifiedUnder (micLen : Nat) (ptk : WpaPtk) (obs : List SuppObs) : Prop :=
  (micLen ≠ 0 → ∃ rx counter, .micVerified rx ptk.kck counter ∈ obs) ∧
    (micLen = 0 → ∃ rx counter, .sivVerified rx ptk.kek counter ∈ obs)

/-- A call that acts on a frame has verified it, under the PTK that is set when it returns. -/
def Authenticated (lib : RsnLib) (env : SuppEnv) (buf : Bytes) (sm : WpaSm) : Prop :=
  (∃ o ∈ rxObs lib env buf sm, o.Acts) →
    VerifiedUnder sm.micLen (wpaSmRxEapol lib env buf sm).2.ptk (rxObs lib env buf sm)

/-- A MIC can be computed with one of the keys that are set. -/
def MicComputable (lib : RsnLib) (sm : WpaSm) (ver : Nat) : Prop :=
  sm.tptkSet ∧ (wpaEapolKeyMic lib sm.tptk.kck sm.keyMgmt ver []).isSome ∨
    sm.ptkSet ∧ (wpaEapolKeyMic lib sm.ptk.kck sm.keyMgmt ver []).isSome

/-- The Key Information flags of a pairwise frame that is taken for message 3/4 unverified. -/
def UncheckedFlags (lib : RsnLib) (sm : WpaSm) (key : WpaEapolKey) : Prop :=
  sm.micLen ≠ 0 ∧ sm.proto = .wpa ∧ key.has kiEncrKeyData = true ∧ key.has kiMic = false ∨
    sm.micLen = 0 ∧ key.has kiEncrKeyData = false ∧ key.has kiMic = true ∧
      MicComputable lib sm key.ver

/-- A well-formed pairwise frame that is taken for message 3/4 and is not verified. -/
def Unverified (lib : RsnLib) (buf : Bytes) (sm : WpaSm) : Prop :=
  ∃ f, rxHeader sm buf = .ok f ∧ rxFlags sm f.key = true ∧ f.key.has kiKeyType = true ∧
    f.key.keyIndex = 0 ∧ UncheckedFlags lib sm f.key

/-! ## Dispatch

`Handed` collects what the functions a frame is handed to add to the log, in terms of the flags of
the frame only. -/

/-- The PTK stays the same up to its use, nothing is verified any more, and what acts on the frame
does so under `A`. -/
structure Handed (A : Prop) (sm sm' : WpaSm) (l : List SuppObs) : Prop where
  log : sm'.log = sm.log ++ l
  kck : sm'.ptk.kck = sm.ptk.kck
  kek : sm'.ptk.kek = sm.ptk.kek
  silent : ∀ o ∈ l, ¬ o.Verifies
  acts : (∃ o ∈ l, o.Acts) → A

theorem Handed.refl {A : Prop} (sm : WpaSm) : Handed A sm sm [] :=
  ⟨by simp, rfl, rfl, by simp, by simp⟩

theorem Handed.trans {A : Prop} {sm sm' sm'' : WpaSm} {l l' : List SuppObs}
    (h : Handed A sm sm' l) (h' : Handed A sm' sm'' l') : Handed A sm sm'' (l ++ l') where
  log := by rw [h'.log, h.log, append_assoc]
  kck := h'.kck.trans h.kck
  kek := h'.kek.trans h.kek
  silent := by
    intro o ho
    rcases mem_append.1 ho with ho | ho
    · exact h.silent o ho
    · exact h'.silent o ho
  acts := by
    rintro ⟨o, ho, hacts⟩
    rcases mem_append.1 ho with ho | ho
    · exact h.acts ⟨o, ho, hacts⟩
    · exact h'.acts ⟨o, ho, hacts⟩

theorem Handed.mono {A B : Prop} {sm sm' : WpaSm} {l : List SuppObs} (h : Handed A sm sm' l)
    (hAB : A → B) : Handed B sm sm' l :=
  ⟨h.log, h.kck, h.kek, h.silent, fun ho => hAB (h.acts ho)⟩

theorem handed_note {sm : WpaSm} {o : SuppObs} (hv : ¬ o.Verifies) :
    Handed True sm (sm.note o) [o] where
  log := rfl
  kck := rfl
  kek := rfl
  silent := by simpa using hv
  acts := fun _ => trivial

theorem Quiet.handed {env : SuppEnv} {group : Bool} {sm sm' : WpaSm}
    (h : Quiet env group sm sm') : ∃ l, Handed (group = true) sm sm' l := by
  obtain ⟨l, hl, hq⟩ := h.log
  refine ⟨l, hl, by rw [h.ptk], by rw [h.ptk], ?_, ?_⟩
  · intro o ho hv
    have hquiet := hq o ho
    cases o <;> first | exact hquiet | exact hv
  · rintro ⟨o, ho, hacts⟩
    have hquiet := hq o ho
    -- an acting observation that is quiet configures a group key
    cases o <;> first | exact absurd hquiet id | exact absurd hacts id | exact hquiet

theorem KeyUse.handed {sm sm' : WpaSm} (h : KeyUse sm sm') : ∃ l, Handed True sm sm' l := by
  cases h with
  | replied => exact ⟨[], by simp, rfl, rfl, by simp, by simp⟩
  | passed rsc ok _ _ =>
    cases ok with
    | false => exact ⟨[_], rfl, rfl, rfl, by simp [SuppObs.Verifies], fun _ => trivial⟩
    | true => exact ⟨[_], rfl, rfl, rfl, by simp [SuppObs.Verifies], fun _ => trivial⟩

theorem Processed3of4.handed {env : SuppEnv} {sm sm' : WpaSm}
    (h : Processed3of4 env sm sm') : ∃ l, Handed True sm sm' l := by
  rcases h with h | ⟨sm₁, sm₂, h₁, huse, h₂⟩
  · obtain ⟨l, hl⟩ := h.handed
    exact ⟨l, hl.mono fun _ => trivial⟩
  · obtain ⟨l₁, hl₁⟩ := h₁.handed
    obtain ⟨l₂, hl₂⟩ := huse.handed
    obtain ⟨l₃, hl₃⟩ := h₂.handed
    exact ⟨_, ((hl₁.mono fun _ => trivial).trans hl₂).trans (hl₃.mono fun _ => trivial)⟩

theorem SnonceReady.handed {env : SuppEnv} {sm sm' : WpaSm} (h : SnonceReady env sm sm') :
    Handed False sm sm' [] := by
  cases h with
  | kept _ => exact Handed.refl sm
  | drew _ _ => exact ⟨by simp, rfl, rfl, by simp, by simp⟩

theorem Replied1of4.handed {lib : RsnLib} {env : SuppEnv} {key : WpaEapolKey} {sm sm' : WpaSm}
    (h : Replied1of4 lib env key sm sm') : ∃ l, Handed False sm sm' l := by
  cases h with
  | refused hq =>
    obtain ⟨l, hl⟩ := hq.handed
    exact ⟨l, hl.mono (by simp)⟩
  | noKeys hready hq =>
    obtain ⟨l, hl⟩ := hq.handed
    exact ⟨_, hready.handed.trans (hl.mono (by simp))⟩
  | derived anonce hready hk hq =>
    obtain ⟨l, hl⟩ := hq.handed
    have hstart : Handed False _ _ ([] ++ l) :=
      hready.handed.trans ⟨hl.log, hl.kck, hl.kek, hl.silent, fun h => absurd (hl.acts h) (by simp)⟩
    exact ⟨_, hstart.log, hstart.kck, hstart.kek, hstart.silent, hstart.acts⟩

section Dispatch

variable (lib : RsnLib) (env : SuppEnv) (key : WpaEapolKey) (keyData : Bytes)

theorem wpaSupplicantProcess3of4_handed (sm : WpaSm) :
    ∃ l, Handed True sm (wpaSupplicantProcess3of4 lib env key keyData sm)
      (.process3of4 sm.rxCount :: l) := by
  obtain ⟨l, hl⟩ := (wpaSupplicantProcess3of4_cases lib env key keyData sm).handed
  exact ⟨l, (handed_note (by simp [SuppObs.Verifies])).trans hl⟩

theorem wpaSupplicantProcess1of2_handed (sm : WpaSm) :
    ∃ l, Handed True sm (wpaSupplicantProcess1of2 lib env key keyData sm) l := by
  obtain ⟨l, hl⟩ := (wpaSupplicantProcess1of2_quiet lib env key keyData sm).handed
  exact ⟨_, (handed_note (by simp [SuppObs.Verifies])).trans (hl.mono fun _ => trivial)⟩

theorem wpaSupplicantProcess1of4_handed (sm : WpaSm) :
    ∃ l, Handed False sm (wpaSupplicantProcess1of4 lib env key keyData sm) l := by
  obtain ⟨_, ⟨pmk, xxkey, curPmksa, rfl, _⟩, st, hreply⟩ :=
    wpaSupplicantProcess1of4_cases lib env key keyData sm
  obtain ⟨l, hl⟩ := hreply.handed
  exact ⟨l, hl.log, hl.kck, hl.kek, hl.silent, hl.acts⟩

theorem rxDispatch_handed (sm : WpaSm) :
    ∃ l, Handed (Is3of4 key ∨ Is1of2 sm.micLen key) sm (rxDispatch lib env key keyData sm).2 l ∧
      (Is3of4 key → .process3of4 sm.rxCount ∈ l) := by
  rcases rxDispatch_cases lib env key keyData sm with
    ⟨hnot, heq⟩ | ⟨h3of4, heq⟩ | ⟨hnot, heq⟩ | ⟨h1of2, heq⟩
  · rw [heq]
    exact ⟨[], Handed.refl sm, fun h => absurd h hnot⟩
  · rw [heq]
    obtain ⟨l, hl⟩ := wpaSupplicantProcess3of4_handed lib env key keyData sm
    exact ⟨_, hl.mono fun _ => .inl h3of4, fun _ => mem_cons_self⟩
  · rw [heq]
    obtain ⟨l, hl⟩ := wpaSupplicantProcess1of4_handed lib env key keyData sm
    exact ⟨l, hl.mono False.elim, fun h => absurd h hnot⟩
  · rw [heq]
    obtain ⟨l, hl⟩ := wpaSupplicantProcess1of2_handed lib env key keyData sm
    refine ⟨l, hl.mono fun _ => .inr h1of2, fun h => ?_⟩
    have htype := h1of2.1
    rw [h.1] at htype
    cases htype

end Dispatch

/-! ## Verification -/

section Verification

variable {lib : RsnLib} {key : WpaEapolKey} {sm sm' : WpaSm}

theorem MicStep.log (h : MicStep lib key sm sm') :
    sm'.log = sm.log ++ [.micVerified sm.rxCount sm'.ptk.kck key.replayCounter] := by
  cases h <;> rfl

theorem MicStep.micLen (h : MicStep lib key sm sm') : sm'.micLen = sm.micLen := by
  cases h <;> rfl

theorem SivStep.log (h : SivStep key sm sm') :
    sm'.log = sm.log ++ [.sivVerified sm.rxCount sm'.ptk.kek key.replayCounter] := by
  cases h <;> rfl

theorem MicStep.computable (h : MicStep lib key sm sm') : MicComputable lib sm key.ver := by
  cases h with
  | tptk hset hmic => exact .inl ⟨hset, hmic⟩
  | ptk hset hmic => exact .inr ⟨hset, hmic⟩

theorem checkMic_zero {kck mic : Bytes} (tmp : Bytes) {akmp : Akm} {ver : Nat}
    (hlen : mic.length = 0) (h : (wpaEapolKeyMic lib kck akmp ver []).isSome) :
    (checkMic lib kck akmp ver 0 mic tmp).1 = true := by
  rw [wpaEapolKeyMic_isSome lib kck akmp ver [] (patch tmp micOffset (zeros 0))] at h
  obtain ⟨m, hm⟩ := Option.isSome_iff_exists.1 h
  simp only [checkMic, hm]
  have hnil : mic = [] := eq_nil_of_length_eq_zero hlen
  simp [slice, hnil]

theorem rxVerify_of_computable {f : RxFrame} (hmic : f.key.has kiMic = true)
    (hlen : sm.micLen = 0) (hcomp : MicComputable lib sm f.key.ver) :
    ∃ tmp sm', rxVerify lib f sm = (some tmp, sm') ∧ MicStep lib f.key sm sm' := by
  rcases rxVerify_cases lib f sm with ⟨hnot, _⟩ | ⟨_, hnone | hsome⟩
  · rw [hmic] at hnot
    cases hnot
  · -- the check cannot fail under the key a MIC can be computed with
    exfalso
    have hslice : (slice f.tmp micOffset 0).length = 0 := by simp [slice]
    have hptk : sm.ptkSet ∧ (wpaEapolKeyMic lib sm.ptk.kck sm.keyMgmt f.key.ver []).isSome →
        ∀ tmp, verifyMicPtk lib f.key (slice f.tmp micOffset 0) tmp sm ≠ (none, sm) := by
      rintro ⟨hset, hm⟩ tmp hv
      have hcheck := checkMic_zero tmp hslice hm
      simp only [verifyMicPtk, hset, hlen, if_true] at hv
      split at hv
      · cases hv
      · rename_i heq
        rw [heq] at hcheck
        cases hcheck
    simp only [rxVerify, hmic, if_true, wpaSupplicantVerifyEapolKeyMic, hlen] at hnone
    split at hnone
    · split at hnone
      · cases hnone
      · rename_i tmp' heq
        rcases hcomp with ⟨_, hm⟩ | hcomp
        · have hcheck := checkMic_zero f.tmp hslice hm
          rw [heq] at hcheck
          cases hcheck
        · exact hptk hcomp _ hnone
    · rename_i hnot
      rcases hcomp with ⟨hset, _⟩ | hcomp
      · exact hnot hset
      · exact hptk hcomp _ hnone
  · exact hsome

end Verification

/-! ## The call as a whole -/

section Frames

variable (lib : RsnLib) (env : SuppEnv) {f : RxFrame} {sm : WpaSm}

theorem micLen_checked {sm₁ : WpaSm} (h : Checked lib f.key sm sm₁) : sm₁.micLen = sm.micLen := by
  rcases h with ⟨_, rfl⟩ | ⟨_, hm⟩
  · rfl
  · exact hm.micLen

theorem rxKey_authenticated (hflags : rxFlags sm f.key = true)
    (hok : ¬ (f.key.has kiKeyType = true ∧ f.key.keyIndex = 0 ∧ UncheckedFlags lib sm f.key)) :
    ∃ l, (rxKey lib env f sm).2.log = sm.log ++ l ∧
      ((∃ o ∈ l, o.Acts) → VerifiedUnder sm.micLen (rxKey lib env f sm).2.ptk l) := by
  rcases rxKey_cases lib env hflags with hdrop | hdrop | ⟨sm₁, sm₂, keyData, hv, hd, heq⟩
  · rw [hdrop]
    exact ⟨[], by simp, by simp⟩
  · exact ⟨_, hdrop.log, by simp [SuppObs.Acts]⟩
  · have hmicLen := micLen_checked lib hv
    obtain ⟨l, hl, -⟩ := rxDispatch_handed lib env f.key keyData sm₂
    rw [heq]
    rcases hd with ⟨hencr, hlen, hs⟩ | ⟨rfl, hclear⟩
    · -- AES-SIV: the last check made, so its key is the one in use
      have hlog₁ : ∃ l₁, sm₁.log = sm.log ++ l₁ := by
        rcases hv with ⟨_, rfl⟩ | ⟨_, hm⟩
        · exact ⟨[], by simp⟩
        · exact ⟨_, hm.log⟩
      obtain ⟨l₁, hl₁⟩ := hlog₁
      refine ⟨l₁ ++ [.sivVerified sm₁.rxCount sm₂.ptk.kek f.key.replayCounter] ++ l, ?_, ?_⟩
      · rw [hl.log, hs.log, hl₁]
        simp
      · intro _
        refine ⟨fun h => absurd (hmicLen ▸ hlen) h, fun _ =>
          ⟨sm₁.rxCount, f.key.replayCounter, ?_⟩⟩
        rw [hl.kek]
        simp
    · rcases hv with ⟨hmic, rfl⟩ | ⟨hmic, hm⟩
      · -- no MIC bit: then nothing acts on the frame
        refine ⟨l, hl.log, ?_⟩
        intro hacts
        exfalso
        rcases hl.acts hacts with ⟨htype, hidx, hbits⟩ | ⟨_, hbits⟩
        · have hencr : f.key.has kiEncrKeyData = true := by simpa [hmic] using hbits
          obtain ⟨hlen, hrsn⟩ := hclear hencr
          refine hok ⟨htype, hidx, .inl ⟨hlen, ?_, hencr, hmic⟩⟩
          cases hproto : sm₂.proto <;> simp_all [Proto.isRsn]
        · rcases hbits with ⟨_, hbit⟩ | ⟨hlen, hencr⟩
          · rw [hmic] at hbit
            cases hbit
          · exact (hclear hencr).1 hlen
      · refine ⟨.micVerified sm.rxCount sm₂.ptk.kck f.key.replayCounter :: l, ?_, ?_⟩
        · rw [hl.log, hm.log]
          simp
        · intro hacts
          refine ⟨fun _ => ⟨_, _, by rw [hl.kck]; exact mem_cons_self⟩, fun hlen => ?_⟩
          exfalso
          have hencr : f.key.has kiEncrKeyData = false := by
            by_contra h
            exact (hclear (by simpa using h)).1 (hmicLen ▸ hlen)
          have hacts' : ∃ o ∈ l, o.Acts := by
            obtain ⟨o, ho, ha⟩ := hacts
            rcases mem_cons.1 ho with rfl | ho
            · exact absurd ha id
            · exact ⟨o, ho, ha⟩
          rcases hl.acts hacts' with ⟨htype, hidx, _⟩ | ⟨_, hbits⟩
          · exact hok ⟨htype, hidx, .inr ⟨hlen, hencr, hmic, hm.computable⟩⟩
          · rcases hbits with ⟨hne, _⟩ | ⟨_, hbit⟩
            · exact hne (hmicLen ▸ hlen)
            · rw [hencr] at hbit
              cases hbit

theorem rxKey_unverified (hflags : rxFlags sm f.key = true) (htype : f.key.has kiKeyType = true)
    (hidx : f.key.keyIndex = 0) (hu : UncheckedFlags lib sm f.key) :
    ∃ l, (rxKey lib env f sm).2.log = sm.log ++ l ∧ (∃ o ∈ l, o.Acts) ∧
      ∀ ptk, ¬ VerifiedUnder sm.micLen ptk l := by
  have hrx : ¬ ¬ rxFlags sm f.key = true := by simpa using hflags
  rcases hu with ⟨hlen, hproto, hencr, hmic⟩ | ⟨hlen, hencr, hmic, hcomp⟩
  · have h3of4 : Is3of4 f.key := ⟨htype, hidx, .inr hencr⟩
    -- no MIC bit, and the Key Data is passed on as it came
    have hv : rxVerify lib f sm = (some f.tmp, sm) := by simp [rxVerify, hmic]
    have hd : rxKeyData lib f f.tmp sm =
        (some (slice f.tmp (micOffset + sm.micLen + 2) f.keyDataLen), sm) := by
      simp [rxKeyData, hencr, hlen, hproto, Proto.isRsn]
    obtain ⟨l, hl, hmem⟩ := rxDispatch_handed lib env f.key
      (slice f.tmp (micOffset + sm.micLen + 2) f.keyDataLen) sm
    refine ⟨l, ?_, ⟨_, hmem h3of4, trivial⟩, ?_⟩
    · rw [rxKey, if_neg hrx, hv]
      dsimp only
      rw [hd]
      exact hl.log
    · intro ptk hver
      obtain ⟨rx, counter, hmem'⟩ := hver.1 hlen
      exact hl.silent _ hmem' trivial
  · have h3of4 : Is3of4 f.key := ⟨htype, hidx, .inl hmic⟩
    obtain ⟨tmp, sm₁, hv, hm⟩ := rxVerify_of_computable hmic hlen hcomp
    have hd : rxKeyData lib f tmp sm₁ =
        (some (slice tmp (micOffset + sm₁.micLen + 2) f.keyDataLen), sm₁) := by
      simp [rxKeyData, hencr]
    obtain ⟨l, hl, hmem⟩ := rxDispatch_handed lib env f.key
      (slice tmp (micOffset + sm₁.micLen + 2) f.keyDataLen) sm₁
    refine ⟨.micVerified sm.rxCount sm₁.ptk.kck f.key.replayCounter :: l, ?_,
      ⟨_, mem_cons_of_mem _ (hmem h3of4), trivial⟩, ?_⟩
    · rw [rxKey, if_neg hrx, hv]
      dsimp only
      rw [hd]
      dsimp only
      rw [hl.log, hm.log, append_assoc, singleton_append]
    · intro ptk hver
      obtain ⟨rx, counter, hmem'⟩ := hver.2 hlen
      rcases mem_cons.1 hmem' with h | h
      · cases h
      · exact hl.silent _ h trivial

end Frames

theorem rxObs_of_log {lib : RsnLib} {env : SuppEnv} {buf : Bytes} {sm : WpaSm} {l : List SuppObs}
    (h : (wpaSmRxEapol lib env buf sm).2.log = sm.log ++ l) : rxObs lib env buf sm = l := by
  rw [rxObs, h, drop_left]

/-- The supplicant acts on verified frames only, unless a pairwise frame leaves out the bit its
check depends on: in WPA the MIC bit of encrypted Key Data, without a MIC field the Encrypted Key
Data bit. -/
theorem rx_authenticated_iff (lib : RsnLib) (env : SuppEnv) (buf : Bytes) (sm : WpaSm) :
    Authenticated lib env buf sm ↔ ¬ Unverified lib buf sm := by
  cases hhead : rxHeader sm buf with
  | error ret =>
    have hobs : rxObs lib env buf sm = [] := by
      refine rxObs_of_log ?_
      rw [wpaSmRxEapol_error lib env hhead, append_nil]
      rfl
    refine ⟨?_, ?_⟩
    · rintro - ⟨f, hf, _⟩
      rw [hhead] at hf
      cases hf
    · intro _ hacts
      rw [hobs] at hacts
      simp at hacts
  | ok f =>
    have hrx : wpaSmRxEapol lib env buf sm = rxKey lib env f sm.received :=
      wpaSmRxEapol_ok lib env hhead
    have hunv : Unverified lib buf sm ↔ rxFlags sm f.key = true ∧ f.key.has kiKeyType = true ∧
        f.key.keyIndex = 0 ∧ UncheckedFlags lib sm f.key := by
      simp [Unverified, hhead]
    rw [hunv]
    cases hflags : rxFlags sm f.key with
    | false =>
      -- a frame the flags of which are refused leaves no trace
      have hf : rxFlags sm.received f.key = false := hflags
      have hdrop : (rxKey lib env f sm.received).2 = sm.received := by simp [rxKey, hf]
      have hobs : rxObs lib env buf sm = [] := by
        refine rxObs_of_log ?_
        rw [hrx, hdrop, append_nil]
        rfl
      refine ⟨by simp, fun _ hacts => ?_⟩
      rw [hobs] at hacts
      simp at hacts
    | true =>
      have hf : rxFlags sm.received f.key = true := hflags
      refine ⟨?_, ?_⟩
      · rintro hauth ⟨-, htype, hidx, hu⟩
        obtain ⟨l, hlog, hacts, hnot⟩ := rxKey_unverified lib env hf htype hidx hu
        have hobs : rxObs lib env buf sm = l := by
          refine rxObs_of_log ?_
          rw [hrx, hlog]
          rfl
        rw [Authenticated, hobs] at hauth
        exact hnot _ (hauth hacts)
      · intro hok
        obtain ⟨l, hlog, hver⟩ := rxKey_authenticated lib env hf
          (fun h => hok ⟨rfl, h.1, h.2.1, h.2.2⟩)
        have hobs : rxObs lib env buf sm = l := by
          refine rxObs_of_log ?_
          rw [hrx, hlog]
          rfl
        rw [Authenticated, hobs, hrx]
        exact hver

/-! ## A group key without a MIC

WPA with CCMP after a completed handshake. The frame below has the ANonce of message 1/4, the WPA
IE of the beacon and a group key of its sender's choice in the clear, with the Encrypted Key Data
bit and without the MIC bit. -/

def smallWpaIe : Bytes := [221, 6, 0, 0x50, 0xf2, 1, 1, 0]

def smallWpaSta : WpaSm where
  pmk := smallPmk
  ptk := { kck := List.replicate 16 1, kek := List.replicate 16 2, installed := true
           origin := some (smallPmk.octets, List.replicate 32 3, List.replicate 32 4) }
  ptkSet := true
  anonce := List.replicate 32 3
  snonce := List.replicate 32 4
  rxReplayCounter := zeros 7 ++ [2]
  rxReplayCounterSet := true
  proto := .wpa
  pairwiseCipher := .ccmp
  groupCipher := .ccmp
  keyMgmt := .psk
  ownAddr := [2, 0, 0, 0, 0, 1]
  bssid := [2, 0, 0, 0, 0, 0]
  apWpaIe := some smallWpaIe
  state := .completed

/-- A pairwise frame with a group key that nothing protects. -/
def forged3of4 : Bytes :=
  eapolKeyFrame 1
    { type := 254
      keyInfo := keyInfoOf verHmacSha1Aes 0 [kiKeyType, kiAck, kiEncrKeyData]
      keyLength := 16
      replayCounter := zeros 7 ++ [3]
      keyNonce := List.replicate 32 3 }
    16 (smallWpaIe ++ [221, 22, 0, 0x0f, 0xac, 1, 1, 0] ++ List.replicate 16 0x99)

/-- The group key of the forged frame is installed, and nothing was verified. -/
theorem rx_forged_gtk :
    ¬ Authenticated smallRsnLib {} forged3of4 smallWpaSta ∧
      SuppObs.setGtk 1 (List.replicate 16 0x99) (zeros 8) true ∈
        rxObs smallRsnLib {} forged3of4 smallWpaSta := by
  have hgtk : SuppObs.setGtk 1 (List.replicate 16 0x99) (zeros 8) true ∈
      rxObs smallRsnLib {} forged3of4 smallWpaSta := by
    decide +kernel
  refine ⟨?_, hgtk⟩
  intro hauth
  obtain ⟨rx, counter, hmem⟩ := (hauth ⟨_, hgtk, trivial⟩).1 (by decide)
  have hnone : ∀ o ∈ rxObs smallRsnLib {} forged3of4 smallWpaSta,
      (match o with | .micVerified _ _ _ => true | _ => false) = false := by
    decide +kernel
  cases hnone _ hmem

end Hostap
