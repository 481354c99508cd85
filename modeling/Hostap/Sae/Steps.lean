import Hostap.Sae.Ap
import Hostap.Lib.Except

/-!
# What each SAE operation can do

One specification per function of `sae.c` and of the SAE part of `ieee802_11.c`, from which the
invariants of the following modules are derived without unfolding the functions again.

The exchange lives in four groups of fields that different operations write:

* the own commit (`OwnUpdate`), written by `sae_prepare_commit()`;
* the peer's commit (`PeerUpdate`), written by `sae_parse_commit()`;
* KCK and PMK, written by `sae_process_commit()` alone;
* everything at once, cleared by a change of the group (`saeSetGroup`).
-/

namespace Hostap

open Octets Prog

variable {P : Type}

/-! ## Own commit -/

def SaeTemporaryData.HasOwn (t : SaeTemporaryData P) : Prop :=
  t.ownCommitScalar.isSome ∧ t.ownElement.isSome

/-- `t'` differs from `t` in the values of the own commit only, and has lost none of them. -/
structure SaeTemporaryData.OwnUpdate (t t' : SaeTemporaryData P) : Prop where
  kck : t'.kck = t.kck
  group : t'.group = t.group
  peerEcc : t'.peerCommitElementEcc = t.peerCommitElementEcc
  peerFfc : t'.peerCommitElementFfc = t.peerCommitElementFfc
  pwId : t'.pwId = t.pwId
  ownScalar : t.ownCommitScalar.isSome → t'.ownCommitScalar.isSome
  ownEcc : t.ownCommitElementEcc.isSome → t'.ownCommitElementEcc.isSome
  ownFfc : t.ownCommitElementFfc.isSome → t'.ownCommitElementFfc.isSome

namespace SaeTemporaryData.OwnUpdate

variable {t t' t'' : SaeTemporaryData P}

theorem refl (t : SaeTemporaryData P) : t.OwnUpdate t :=
  ⟨rfl, rfl, rfl, rfl, rfl, id, id, id⟩

theorem trans (h : t.OwnUpdate t') (h' : t'.OwnUpdate t'') : t.OwnUpdate t'' where
  kck := h'.kck.trans h.kck
  group := h'.group.trans h.group
  peerEcc := h'.peerEcc.trans h.peerEcc
  peerFfc := h'.peerFfc.trans h.peerFfc
  pwId := h'.pwId.trans h.pwId
  ownScalar := h'.ownScalar ∘ h.ownScalar
  ownEcc := h'.ownEcc ∘ h.ownEcc
  ownFfc := h'.ownFfc ∘ h.ownFfc

theorem peerElement (h : t.OwnUpdate t') : t'.peerElement = t.peerElement := by
  simp only [SaeTemporaryData.peerElement, h.group, h.peerEcc, h.peerFfc]

theorem hasOwn (h : t.OwnUpdate t') (ho : t.HasOwn) : t'.HasOwn := by
  refine ⟨h.ownScalar ho.1, ?_⟩
  have hoe := ho.2
  simp only [SaeTemporaryData.ownElement, SaeGroup.element, h.group] at hoe ⊢
  cases hg : t.group <;> simp only [hg, Option.isSome_map] at hoe ⊢
  · exact h.ownFfc hoe
  · exact h.ownEcc hoe
  · exact h.ownFfc hoe

end SaeTemporaryData.OwnUpdate

theorem saeGetRandAndMask_own (t : SaeTemporaryData P) (rand : Rand) :
    t.OwnUpdate (saeGetRandAndMask t rand).2.1 := by
  unfold saeGetRandAndMask
  split <;> exact ⟨rfl, rfl, rfl, rfl, rfl, id, id, id⟩

theorem saeDeriveCommitLoop_own (fuel : Nat) (t : SaeTemporaryData P) (rand : Rand) :
    t.OwnUpdate (saeDeriveCommitLoop fuel t rand).2.1 ∧
    ((saeDeriveCommitLoop fuel t rand).1.isSome →
      (saeDeriveCommitLoop fuel t rand).2.1.ownCommitScalar.isSome) := by
  induction fuel generalizing t rand with
  | zero => exact ⟨.refl t, by simp [saeDeriveCommitLoop]⟩
  | succ fuel ih =>
    have hmask := saeGetRandAndMask_own t rand
    simp only [saeDeriveCommitLoop]
    split
    · rename_i t₁ rand₁ heq
      rw [heq] at hmask
      exact ⟨hmask, by simp⟩
    · rename_i mask t₁ rand₁ heq
      rw [heq] at hmask
      -- the scalar is stored before the loop looks at it
      have hset : t.OwnUpdate { t₁ with
          ownCommitScalar := some ((t₁.saeRand.getD 0 + mask) % t₁.group.order) } :=
        hmask.trans ⟨rfl, rfl, rfl, rfl, rfl, fun _ => rfl, id, id⟩
      split
      · obtain ⟨h₁, h₂⟩ := ih { t₁ with
          ownCommitScalar := some ((t₁.saeRand.getD 0 + mask) % t₁.group.order) } rand₁
        exact ⟨hset.trans h₁, h₂⟩
      · exact ⟨hset, fun _ => rfl⟩

theorem saeDerivePweEcc_own (c : CryptoLib P) (ec : CryptoEc P) (addr1 addr2 password : Bytes)
    (identifier : Option Bytes) (t : SaeTemporaryData P) (rand : Rand) :
    t.OwnUpdate (saeDerivePweEcc c ec addr1 addr2 password identifier t rand).2.1 := by
  unfold saeDerivePweEcc
  repeat' split
  all_goals exact ⟨rfl, rfl, rfl, rfl, rfl, id, id, id⟩

theorem saeDerivePwe_own (c : CryptoLib P) (addr1 addr2 password : Bytes)
    (identifier : Option Bytes) (t : SaeTemporaryData P) (rand : Rand) :
    t.OwnUpdate (saeDerivePwe c addr1 addr2 password identifier t rand).2.1 := by
  unfold saeDerivePwe
  split
  · exact .refl t
  · exact saeDerivePweEcc_own c _ addr1 addr2 password identifier t rand
  · exact ⟨rfl, rfl, rfl, rfl, rfl, id, id, id⟩

theorem saeDeriveCommitElementEcc_own {ec : CryptoEc P} {mask : Nat}
    {t t' : SaeTemporaryData P} {ok : Bool}
    (h : saeDeriveCommitElementEcc ec mask t = .ok (ok, t')) :
    t.OwnUpdate t' ∧ t'.ownCommitScalar = t.ownCommitScalar ∧
      t'.ownCommitElementEcc.isSome := by
  unfold saeDeriveCommitElementEcc at h
  cases hpwe : t.pweEcc with
  | none => simp [hpwe, deref, bind, Except.bind] at h
  | some pwe =>
    simp only [hpwe, deref, bind, Except.bind, pure, Except.pure] at h
    split at h
    · cases h
      exact ⟨⟨rfl, rfl, rfl, rfl, rfl, id, fun _ => rfl, id⟩, rfl, rfl⟩
    · split at h <;> cases h <;>
        exact ⟨⟨rfl, rfl, rfl, rfl, rfl, id, fun _ => rfl, id⟩, rfl, rfl⟩

theorem saeDeriveCommitElementFfc_own {dh : DhGroup} {mask : Nat}
    {t t' : SaeTemporaryData P} {ok : Bool}
    (h : saeDeriveCommitElementFfc dh mask t = .ok (ok, t')) :
    t.OwnUpdate t' ∧ t'.ownCommitScalar = t.ownCommitScalar ∧
      t'.ownCommitElementFfc.isSome := by
  unfold saeDeriveCommitElementFfc at h
  cases hpwe : t.pweFfc with
  | none => simp [hpwe, deref, bind, Except.bind] at h
  | some pwe =>
    simp only [hpwe, deref, bind, Except.bind, pure, Except.pure] at h
    split at h <;> cases h <;>
      exact ⟨⟨rfl, rfl, rfl, rfl, rfl, id, id, fun _ => rfl⟩, rfl, rfl⟩

theorem saeDeriveCommit_own {t t' : SaeTemporaryData P} {rand rand' : Rand} {ok : Bool}
    (h : saeDeriveCommit t rand = .ok (ok, t', rand')) :
    t.OwnUpdate t' ∧ (ok = true → t'.HasOwn) := by
  obtain ⟨hloop, hscalar⟩ := saeDeriveCommitLoop_own 100 t rand
  unfold saeDeriveCommit at h
  split at h
  · cases h
  · rename_i ec hg
    split at h
    · rename_i t₁ rand₁ heq
      rw [heq] at hloop
      cases h
      exact ⟨hloop, by simp⟩
    · rename_i mask t₁ rand₁ heq
      rw [heq] at hloop hscalar
      simp only [bind, Except.bind] at h
      split at h
      · cases h
      · rename_i r hr
        obtain ⟨hel, hsc, hsome⟩ := saeDeriveCommitElementEcc_own hr
        have hg₁ : t₁.group = .ecc ec := hloop.group.trans hg
        cases h
        refine ⟨hloop.trans hel, fun _ => ⟨?_, ?_⟩⟩
        · rw [hsc]; exact hscalar rfl
        · simpa [SaeTemporaryData.ownElement, SaeGroup.element, hel.group, hg₁]
            using hsome
  · rename_i dh hg
    split at h
    · rename_i t₁ rand₁ heq
      rw [heq] at hloop
      cases h
      exact ⟨hloop, by simp⟩
    · rename_i mask t₁ rand₁ heq
      rw [heq] at hloop hscalar
      simp only [bind, Except.bind] at h
      split at h
      · cases h
      · rename_i r hr
        obtain ⟨hel, hsc, hsome⟩ := saeDeriveCommitElementFfc_own hr
        have hg₁ : t₁.group = .ffc dh := hloop.group.trans hg
        cases h
        refine ⟨hloop.trans hel, fun _ => ⟨?_, ?_⟩⟩
        · rw [hsc]; exact hscalar rfl
        · simpa [SaeTemporaryData.ownElement, SaeGroup.element, hel.group, hg₁]
            using hsome

/-- `s'` differs from `s` in the own commit only. -/
def SaeData.OwnUpdate (s s' : SaeData P) : Prop :=
  (s.tmp = none ∧ s' = s) ∨
    ∃ t t', s.tmp = some t ∧ t.OwnUpdate t' ∧ s' = { s with tmp := some t' }

def SaeData.HasOwn (s : SaeData P) : Prop := ∃ t, s.tmp = some t ∧ t.HasOwn

theorem SaeData.OwnUpdate.refl (s : SaeData P) : s.OwnUpdate s := by
  cases ht : s.tmp with
  | none => exact .inl ⟨ht, rfl⟩
  | some t => exact .inr ⟨t, t, ht, .refl t, by rw [← ht]⟩

/-- **`sae_prepare_commit()`** writes the own commit and nothing else, all of it on success. -/
theorem saePrepareCommit_own {c : CryptoLib P} {addr1 addr2 password : Bytes}
    {identifier : Option Bytes} {s s' : SaeData P} {rand rand' : Rand} {ok : Bool}
    (h : saePrepareCommit c addr1 addr2 password identifier s rand = .ok (ok, s', rand')) :
    s.OwnUpdate s' ∧ (ok = true → s'.HasOwn) := by
  unfold saePrepareCommit at h
  split at h
  · rename_i ht
    cases h
    exact ⟨.inl ⟨ht, rfl⟩, by simp⟩
  · rename_i t ht
    have hpwe := saeDerivePwe_own c addr1 addr2 password identifier t rand
    split at h
    · rename_i t₁ rand₁ heq
      rw [heq] at hpwe
      cases h
      exact ⟨.inr ⟨t, t₁, ht, hpwe, rfl⟩, by simp⟩
    · rename_i t₁ rand₁ heq
      rw [heq] at hpwe
      simp only [bind, Except.bind] at h
      split at h
      · cases h
      · rename_i r hr
        obtain ⟨hown, hhas⟩ := saeDeriveCommit_own hr
        cases h
        exact ⟨.inr ⟨t, _, ht, hpwe.trans hown, rfl⟩, fun hok => ⟨_, rfl, hhas hok⟩⟩

theorem deref_ok {α : Type} {e : Fault} {o : Option α} {a : α} (h : deref e o = .ok a) :
    o = some a := by
  cases o with
  | none => cases h
  | some b => cases h; rfl

theorem deref_error {α : Type} {e e' : Fault} {o : Option α} (h : deref e o = .error e') :
    e' = e ∧ o = none := by
  cases o with
  | none => cases h; exact ⟨rfl, rfl⟩
  | some b => cases h

theorem saeWriteCommit_hasOwn {s : SaeData P} {token identifier : Option Bytes} {buf : Bytes}
    (h : saeWriteCommit s token identifier = .ok buf) {t : SaeTemporaryData P}
    (ht : s.tmp = some t) : t.HasOwn := by
  simp only [saeWriteCommit, ht] at h
  obtain ⟨scalar, hscalar, h⟩ := except_bind_ok h
  obtain ⟨element, helement, -⟩ := except_bind_ok h
  refine ⟨by simp [deref_ok hscalar], ?_⟩
  simp only [saeWriteCommitElement] at helement
  split at helement
  · rename_i ec hg
    obtain ⟨e, he, -⟩ := except_bind_ok helement
    simp [SaeTemporaryData.ownElement, SaeGroup.element, hg, deref_ok he]
  · rename_i hg
    obtain ⟨e, he, -⟩ := except_bind_ok helement
    cases hgr : t.group with
    | ecc ec => exact absurd hgr (hg ec)
    | unset => simp [SaeTemporaryData.ownElement, SaeGroup.element, hgr, deref_ok he]
    | ffc dh => simp [SaeTemporaryData.ownElement, SaeGroup.element, hgr, deref_ok he]

/-! ## Peer commit -/

/-- `t'` differs from `t` in what a received Commit carries only. -/
structure SaeTemporaryData.PeerUpdate (t t' : SaeTemporaryData P) : Prop where
  kck : t'.kck = t.kck
  group : t'.group = t.group
  ownScalar : t'.ownCommitScalar = t.ownCommitScalar
  ownEcc : t'.ownCommitElementEcc = t.ownCommitElementEcc
  ownFfc : t'.ownCommitElementFfc = t.ownCommitElementFfc

namespace SaeTemporaryData.PeerUpdate

variable {t t' t'' : SaeTemporaryData P}

theorem refl (t : SaeTemporaryData P) : t.PeerUpdate t := ⟨rfl, rfl, rfl, rfl, rfl⟩

theorem trans (h : t.PeerUpdate t') (h' : t'.PeerUpdate t'') : t.PeerUpdate t'' where
  kck := h'.kck.trans h.kck
  group := h'.group.trans h.group
  ownScalar := h'.ownScalar.trans h.ownScalar
  ownEcc := h'.ownEcc.trans h.ownEcc
  ownFfc := h'.ownFfc.trans h.ownFfc

theorem hasOwn (h : t.PeerUpdate t') (ho : t.HasOwn) : t'.HasOwn := by
  simpa only [HasOwn, ownElement, h.ownScalar, h.group, h.ownEcc, h.ownFfc] using ho

end SaeTemporaryData.PeerUpdate

/-- `s'` differs from `s` in the peer's commit only. -/
def SaeData.PeerUpdate (s s' : SaeData P) : Prop :=
  s' = s ∨ ∃ t t' ps, s.tmp = some t ∧ t.PeerUpdate t' ∧
    (s.peerCommitScalar.isSome → ps.isSome) ∧
    s' = { s with peerCommitScalar := ps, tmp := some t' }

def SaeData.HasPeer (s : SaeData P) : Prop :=
  s.peerCommitScalar.isSome ∧ ∃ t, s.tmp = some t ∧ t.peerElement.isSome

namespace SaeData.PeerUpdate

variable {s s' : SaeData P}

theorem state (h : s.PeerUpdate s') : s'.state = s.state := by
  obtain rfl | ⟨t, t', ps, -, -, -, rfl⟩ := h <;> rfl

theorem pmk (h : s.PeerUpdate s') : s'.pmk = s.pmk := by
  obtain rfl | ⟨t, t', ps, -, -, -, rfl⟩ := h <;> rfl

theorem tmp_none (h : s.PeerUpdate s') (ht : s.tmp = none) : s'.tmp = none := by
  obtain rfl | ⟨t, t', ps, ht', -, -, rfl⟩ := h
  · exact ht
  · rw [ht] at ht'
    cases ht'

theorem hasOwn (h : s.PeerUpdate s') (ho : s.HasOwn) : s'.HasOwn := by
  obtain rfl | ⟨t, t', ps, ht, hu, -, rfl⟩ := h
  · exact ho
  · obtain ⟨t₀, ht₀, ho⟩ := ho
    rw [ht] at ht₀
    cases ht₀
    exact ⟨t', rfl, hu.hasOwn ho⟩

end SaeData.PeerUpdate

theorem saeParseCommitElementEcc_peer {ec : CryptoEc P} {t t' : SaeTemporaryData P}
    {pos pos' : Bytes} {status : Nat} (hg : t.group = .ecc ec)
    (h : saeParseCommitElementEcc ec t pos = (status, t', pos')) :
    t.PeerUpdate t' ∧ (status = wlanStatusSuccess → t'.peerElement.isSome) := by
  unfold saeParseCommitElementEcc at h
  -- every exit of the function but the one that stores a point on the curve is a failure
  repeat' split at h
  all_goals
    simp only [Prod.mk.injEq] at h
    obtain ⟨rfl, rfl, -⟩ := h
    refine ⟨⟨rfl, rfl, rfl, rfl, rfl⟩, fun hs => ?_⟩
    first
      | exact absurd hs (by decide)
      | simp [SaeTemporaryData.peerElement, SaeGroup.element, hg]

theorem saeParseCommitElementFfc_peer {dh : DhGroup} {t t' : SaeTemporaryData P}
    {pos pos' : Bytes} {status : Nat} (hg : t.group = .ffc dh)
    (h : saeParseCommitElementFfc dh t pos = (status, t', pos')) :
    t.PeerUpdate t' ∧ (status = wlanStatusSuccess → t'.peerElement.isSome) := by
  simp only [saeParseCommitElementFfc] at h
  repeat' split at h
  all_goals
    simp only [Prod.mk.injEq] at h
    obtain ⟨rfl, rfl, -⟩ := h
    refine ⟨⟨rfl, rfl, rfl, rfl, rfl⟩, fun hs => ?_⟩
    first
      | exact absurd hs (by decide)
      | simp [SaeTemporaryData.peerElement, SaeGroup.element, hg]

theorem saeParseCommitElement_peer {t t' : SaeTemporaryData P} {pos pos' : Bytes} {status : Nat}
    (h : saeParseCommitElement t pos = (status, t', pos')) :
    t.PeerUpdate t' ∧ (status = wlanStatusSuccess → t'.peerElement.isSome) := by
  unfold saeParseCommitElement at h
  split at h
  · simp only [Prod.mk.injEq] at h
    obtain ⟨rfl, rfl, -⟩ := h
    exact ⟨.refl _, fun hs => absurd hs (by decide)⟩
  · rename_i ec hg
    exact saeParseCommitElementEcc_peer hg h
  · rename_i dh hg
    exact saeParseCommitElementFfc_peer hg h

theorem saeParsePasswordIdentifier_peer (t : SaeTemporaryData P) (pos : Bytes) :
    t.PeerUpdate (saeParsePasswordIdentifier t pos).2 ∧
      (saeParsePasswordIdentifier t pos).2.peerElement = t.peerElement := by
  simp only [saeParsePasswordIdentifier]
  repeat' split
  all_goals exact ⟨⟨rfl, rfl, rfl, rfl, rfl⟩, rfl⟩

theorem saeParseCommitTail_peer (s : SaeData P) (t : SaeTemporaryData P)
    (token : Option Bytes) (pos : Bytes) :
    ∃ t', t.PeerUpdate t' ∧ t'.peerElement = t.peerElement ∧
      (saeParseCommitTail s t token pos).sae = { s with tmp := some t' } := by
  obtain ⟨hu, he⟩ := saeParsePasswordIdentifier_peer t pos
  refine ⟨_, hu, he, ?_⟩
  simp only [saeParseCommitTail]
  split
  · rfl
  · split <;> rfl

theorem saeParseCommitScalar_cases {g : SaeGroup P} {s s' : SaeData P} {pos pos' : Bytes}
    {status : Nat} (h : saeParseCommitScalar g s pos = (status, s', pos')) :
    (status ≠ wlanStatusSuccess ∧ s' = s) ∨
      (status = wlanStatusSuccess ∧ ∃ n, s' = { s with peerCommitScalar := some n }) := by
  simp only [saeParseCommitScalar] at h
  repeat' split at h
  all_goals
    simp only [Prod.mk.injEq] at h
    obtain ⟨rfl, rfl, -⟩ := h
  · exact .inl ⟨by decide, rfl⟩
  · exact .inl ⟨by decide, rfl⟩
  · exact .inl ⟨by decide, rfl⟩
  · exact .inr ⟨rfl, _, rfl⟩

theorem saeParseCommitBody_peer {s : SaeData P} {t : SaeTemporaryData P} (ht : s.tmp = some t)
    (pos : Bytes) :
    s.PeerUpdate (saeParseCommitBody s t pos).sae ∧
      ((saeParseCommitBody s t pos).status = wlanStatusSuccess →
        (saeParseCommitBody s t pos).sae.HasPeer) := by
  unfold saeParseCommitBody
  generalize saeParseCommitToken t.group pos = tok
  obtain ⟨token, pos₁⟩ := tok
  simp only
  generalize hsc : saeParseCommitScalar t.group s pos₁ = r₁
  obtain ⟨status₁, s₁, pos₂⟩ := r₁
  obtain ⟨hst, rfl⟩ | ⟨hst, n, rfl⟩ := saeParseCommitScalar_cases hsc
  · rw [if_pos hst]
    exact ⟨.inl rfl, fun h => absurd h hst⟩
  · rw [if_neg (not_not.2 hst)]
    generalize hel : saeParseCommitElement t pos₂ = r₂
    obtain ⟨status₂, t₂, pos₃⟩ := r₂
    obtain ⟨hu, hsome⟩ := saeParseCommitElement_peer hel
    by_cases hst₂ : status₂ = wlanStatusSuccess
    · rw [if_neg (not_not.2 hst₂)]
      obtain ⟨t', hu', he, heq⟩ :=
        saeParseCommitTail_peer { s with peerCommitScalar := some n } t₂ token pos₃
      rw [heq]
      refine ⟨.inr ⟨t, t', some n, ht, hu.trans hu', fun _ => rfl, rfl⟩, fun _ => ⟨rfl, t', rfl, ?_⟩⟩
      rw [he]
      exact hsome hst₂
    · rw [if_pos hst₂]
      exact ⟨.inr ⟨t, t₂, some n, ht, hu, fun _ => rfl, rfl⟩, fun h => absurd h hst₂⟩

/-- The Commit names a group that is allowed and is not the one in use. -/
def NamesOtherGroup (allowedGroups : Option (List Int)) (data : Bytes) (s : SaeData P) : Prop :=
  2 ≤ data.length ∧ (getLe16 data : Int) ≠ s.group ∧
    (allowedGroups.any fun gs => !allowedGroupsHave (getLe16 data) gs) = false

theorem saeSetGroup_state (c : CryptoLib P) (group : Int) (s : SaeData P) :
    (saeSetGroup c group s).2.state = .nothing := by
  unfold saeSetGroup
  repeat' split
  all_goals rfl

theorem saeGroupAllowed_cases {c : CryptoLib P} {allowedGroups : Option (List Int)} {group : Nat}
    {s s' : SaeData P} {status : Nat} (h : saeGroupAllowed c allowedGroups group s = (status, s')) :
    s' = s ∨ ((group : Int) ≠ s.group ∧ s.state ≠ .committed ∧
      (allowedGroups.any fun gs => !allowedGroupsHave group gs) = false ∧
      s' = (saeSetGroup c group s).2) := by
  unfold saeGroupAllowed at h
  split at h
  · cases h; exact .inl rfl
  · rename_i hall
    split at h
    · cases h; exact .inl rfl
    · rename_i hcom
      by_cases hg : (group : Int) ≠ s.group
      · refine .inr ⟨hg, fun hs => hcom ⟨hs, hg⟩, by simpa using hall, ?_⟩
        simp only [hg, ne_eq, not_false_iff, if_true] at h
        repeat' split at h
        all_goals
          simp only [Prod.mk.injEq] at h
          exact h.2.symm
      · refine .inl ?_
        simp only [hg, if_false] at h
        repeat' split at h
        all_goals
          simp only [Prod.mk.injEq] at h
          exact h.2.symm

theorem saeGroupAllowed_tmp {c : CryptoLib P} {allowedGroups : Option (List Int)} {group : Nat}
    {s s' : SaeData P} {status : Nat} (h : saeGroupAllowed c allowedGroups group s = (status, s'))
    (hs : status = wlanStatusSuccess) : s'.tmp.isSome := by
  subst hs
  simp only [saeGroupAllowed] at h
  split at h
  · exact absurd (Prod.mk.inj h).1 (by decide)
  · split at h
    · exact absurd (Prod.mk.inj h).1 (by decide)
    · generalize (if (group : Int) ≠ s.group then saeSetGroup c group s else (true, s)) = r at h
      obtain ⟨supported, s₁⟩ := r
      simp only at h
      split at h
      · exact absurd (Prod.mk.inj h).1 (by decide)
      · cases ht : s₁.tmp with
        | none =>
          simp only [ht] at h
          exact absurd (Prod.mk.inj h).1 (by decide)
        | some t =>
          simp only [ht] at h
          split at h
          all_goals
            have heq : s₁ = s' := congrArg Prod.snd h
            rw [← heq, ht]
            rfl

/-- **`sae_parse_commit()`** stores the peer's values, or first starts over with another group.
A Commit that parses leaves both values of the peer behind. -/
theorem saeParseCommit_spec (c : CryptoLib P) (allowedGroups : Option (List Int)) (data : Bytes)
    (s : SaeData P) :
    (s.PeerUpdate (saeParseCommit c allowedGroups data s).sae ∨
      (NamesOtherGroup allowedGroups data s ∧ s.state ≠ .committed ∧
        (saeParseCommit c allowedGroups data s).sae.state = .nothing)) ∧
    ((saeParseCommit c allowedGroups data s).status = wlanStatusSuccess →
      (saeParseCommit c allowedGroups data s).sae.HasPeer) := by
  unfold saeParseCommit
  split
  · exact ⟨.inl (.inl rfl), fun h => absurd (show 1 = 0 from h) (by decide)⟩
  · rename_i hlen
    generalize hga : saeGroupAllowed c allowedGroups (getLe16 data) s = r
    obtain ⟨status, s₁⟩ := r
    have hcase := saeGroupAllowed_cases hga
    -- what holds of the instance the group check leaves holds after the body, too
    have hlift : ∀ s₂ : SaeData P, s₁.PeerUpdate s₂ →
        (s.PeerUpdate s₂ ∨ (NamesOtherGroup allowedGroups data s ∧ s.state ≠ .committed ∧
          s₂.state = .nothing)) := by
      intro s₂ hu
      obtain rfl | ⟨hg, hc, hall, rfl⟩ := hcase
      · exact .inl hu
      · exact .inr ⟨⟨by omega, hg, hall⟩, hc, hu.state.trans (saeSetGroup_state c _ s)⟩
    simp only
    cases ht : s₁.tmp with
    | none =>
      refine ⟨hlift s₁ (.inl rfl), fun hs => ?_⟩
      have hsome := saeGroupAllowed_tmp hga hs
      rw [ht] at hsome
      cases hsome
    | some t =>
      simp only
      split
      · rename_i hst
        exact ⟨hlift s₁ (.inl rfl), fun h => absurd h hst⟩
      · obtain ⟨hu, hp⟩ := saeParseCommitBody_peer ht (data.drop 2)
        exact ⟨hlift _ hu, hp⟩

/-! ## Keys and confirms -/

/-- The fault is a confirm function reading a value that is not there. -/
def Fault.OfConfirm (e : Fault) : Prop := e = .saeCheckConfirm ∨ e = .saeWriteConfirm

theorem saeDeriveK_ok {t : SaeTemporaryData P} {peerScalar : Option Nat} {k : Bytes}
    (h : saeDeriveK t peerScalar = .ok (some k)) : t.peerElement.isSome := by
  unfold saeDeriveK at h
  split at h
  · cases h
  · rename_i ec hg
    unfold saeDeriveKEcc at h
    obtain ⟨pwe, -, h⟩ := except_bind_ok h
    obtain ⟨scalar, -, h⟩ := except_bind_ok h
    split at h
    · cases h
    · obtain ⟨element, hel, h⟩ := except_bind_ok h
      simp [SaeTemporaryData.peerElement, SaeGroup.element, hg, deref_ok hel]
  · rename_i dh hg
    unfold saeDeriveKFfc at h
    obtain ⟨pwe, -, h⟩ := except_bind_ok h
    obtain ⟨scalar, -, h⟩ := except_bind_ok h
    obtain ⟨element, hel, h⟩ := except_bind_ok h
    simp [SaeTemporaryData.peerElement, SaeGroup.element, hg, deref_ok hel]

theorem saeDeriveK_error {t : SaeTemporaryData P} {peerScalar : Option Nat} {e : Fault}
    (h : saeDeriveK t peerScalar = .error e) : e = .saeProcessCommit := by
  unfold saeDeriveK at h
  split at h
  · cases h; rfl
  · unfold saeDeriveKEcc at h
    obtain h | ⟨pwe, -, h⟩ := except_bind_error h
    · exact (deref_error h).1
    obtain h | ⟨scalar, -, h⟩ := except_bind_error h
    · exact (deref_error h).1
    split at h
    · cases h
    obtain h | ⟨element, -, h⟩ := except_bind_error h
    · exact (deref_error h).1
    split at h
    · cases h
    obtain h | ⟨r, -, h⟩ := except_bind_error h
    · exact (deref_error h).1
    split at h
    · cases h
    · split at h <;> cases h
  · unfold saeDeriveKFfc at h
    obtain h | ⟨pwe, -, h⟩ := except_bind_error h
    · exact (deref_error h).1
    obtain h | ⟨scalar, -, h⟩ := except_bind_error h
    · exact (deref_error h).1
    obtain h | ⟨element, -, h⟩ := except_bind_error h
    · exact (deref_error h).1
    obtain h | ⟨r, -, h⟩ := except_bind_error h
    · exact (deref_error h).1
    simp only at h
    split at h <;> cases h

theorem saeBignumBuf_error {a len : Nat} {e : Fault} (h : saeBignumBuf a len = .error e) :
    e = .uninitialisedBuffer := by
  unfold saeBignumBuf at h
  obtain h | ⟨buf, -, h⟩ := except_bind_error h
  · exact (deref_error h).1
  · cases h

/-- **`sae_process_commit()`** fails and changes nothing, or stores keys for commit values that
are all there. -/
theorem saeProcessCommit_ok {c : CryptoLib P} {s s' : SaeData P} {ok : Bool}
    (h : saeProcessCommit c s = .ok (ok, s')) :
    (ok = false ∧ s' = s) ∨
      (ok = true ∧ ∃ t kck pmk pmkid, s.tmp = some t ∧ t.ownCommitScalar.isSome ∧ s.HasPeer ∧
        s' = { s with pmk := pmk, pmkid := pmkid, tmp := some { t with kck := kck } }) := by
  unfold saeProcessCommit at h
  split at h
  · cases h
    exact .inl ⟨rfl, rfl⟩
  · rename_i t ht
    obtain ⟨k?, hk, h⟩ := except_bind_ok h
    cases k? with
    | none =>
      cases h
      exact .inl ⟨rfl, rfl⟩
    | some k =>
      obtain ⟨own, hown, h⟩ := except_bind_ok h
      obtain ⟨peer, hpeer, h⟩ := except_bind_ok h
      obtain ⟨keys, -, h⟩ := except_bind_ok h
      cases h
      have hp : s.HasPeer := ⟨by simp [deref_ok hpeer], t, ht, saeDeriveK_ok hk⟩
      exact .inr ⟨rfl, t, keys.kck, keys.pmk, keys.pmkid, ht, by simp [deref_ok hown], hp, rfl⟩

theorem saeProcessCommit_error {c : CryptoLib P} {s : SaeData P} {e : Fault}
    (h : saeProcessCommit c s = .error e) : ¬ e.OfConfirm := by
  have hne : e = .saeProcessCommit ∨ e = .uninitialisedBuffer := by
    unfold saeProcessCommit at h
    split at h
    · cases h
    · obtain h | ⟨k?, -, h⟩ := except_bind_error h
      · exact .inl (saeDeriveK_error h)
      cases k? with
      | none => cases h
      | some k =>
        obtain h | ⟨own, -, h⟩ := except_bind_error h
        · exact .inl (deref_error h).1
        obtain h | ⟨peer, -, h⟩ := except_bind_error h
        · exact .inl (deref_error h).1
        obtain h | ⟨keys, -, h⟩ := except_bind_error h
        · unfold saeDeriveKeys at h
          obtain h | ⟨val, -, h⟩ := except_bind_error h
          · exact .inr (saeBignumBuf_error h)
          · cases h
        · cases h
  rintro (rfl | rfl) <;> simp at hne

theorem saeDeriveCommit_error {t : SaeTemporaryData P} {rand : Rand} {e : Fault}
    (h : saeDeriveCommit t rand = .error e) : e = .saePrepareCommit := by
  unfold saeDeriveCommit at h
  split at h
  · cases h; rfl
  · split at h
    · cases h
    · obtain h | ⟨r, -, h⟩ := except_bind_error h
      · unfold saeDeriveCommitElementEcc at h
        obtain h | ⟨pwe, -, h⟩ := except_bind_error h
        · exact (deref_error h).1
        · split at h
          · cases h
          · split at h <;> cases h
      · cases h
  · split at h
    · cases h
    · obtain h | ⟨r, -, h⟩ := except_bind_error h
      · unfold saeDeriveCommitElementFfc at h
        obtain h | ⟨pwe, -, h⟩ := except_bind_error h
        · exact (deref_error h).1
        · simp only at h
          split at h <;> cases h
      · cases h

theorem saePrepareCommit_error {c : CryptoLib P} {addr1 addr2 password : Bytes}
    {identifier : Option Bytes} {s : SaeData P} {rand : Rand} {e : Fault}
    (h : saePrepareCommit c addr1 addr2 password identifier s rand = .error e) :
    ¬ e.OfConfirm := by
  have hne : e = .saePrepareCommit := by
    unfold saePrepareCommit at h
    split at h
    · cases h
    · split at h
      · cases h
      · obtain h | ⟨r, -, h⟩ := except_bind_error h
        · exact saeDeriveCommit_error h
        · cases h
  rintro (rfl | rfl) <;> simp at hne

theorem saeWriteCommit_error {s : SaeData P} {token identifier : Option Bytes} {e : Fault}
    (h : saeWriteCommit s token identifier = .error e) : ¬ e.OfConfirm := by
  have hne : e = .saeWriteCommit := by
    unfold saeWriteCommit at h
    split at h
    · cases h
    · obtain h | ⟨scalar, -, h⟩ := except_bind_error h
      · exact (deref_error h).1
      obtain h | ⟨element, -, h⟩ := except_bind_error h
      · simp only [saeWriteCommitElement] at h
        split at h
        · obtain h | ⟨el, -, h⟩ := except_bind_error h
          · exact (deref_error h).1
          · cases h
        · obtain h | ⟨el, -, h⟩ := except_bind_error h
          · exact (deref_error h).1
          · cases h
      · cases h
  rintro (rfl | rfl) <;> simp at hne

theorem saeElementBuf_error {g : SaeGroup P} {x : SaeElement P} {e : Fault}
    (h : saeElementBuf g x = .error e) : e = .uninitialisedBuffer := by
  unfold saeElementBuf at h
  split at h
  · split at h
    · obtain h | ⟨xy, -, h⟩ := except_bind_error h
      · exact (deref_error h).1
      · cases h
    · cases h; rfl
  · exact saeBignumBuf_error h

theorem saeCnConfirm_error {c : CryptoLib P} {g : SaeGroup P} {kck sc : Bytes} {s1 s2 : Nat}
    {e1 e2 : SaeElement P} {e : Fault} (h : saeCnConfirm c g kck sc s1 e1 s2 e2 = .error e) :
    e = .uninitialisedBuffer := by
  unfold saeCnConfirm at h
  obtain h | ⟨b1, -, h⟩ := except_bind_error h
  · exact saeElementBuf_error h
  obtain h | ⟨b2, -, h⟩ := except_bind_error h
  · exact saeElementBuf_error h
  obtain h | ⟨b3, -, h⟩ := except_bind_error h
  · exact saeBignumBuf_error h
  obtain h | ⟨b4, -, h⟩ := except_bind_error h
  · exact saeBignumBuf_error h
  cases h

theorem exchange_isSome_iff {s : SaeData P} {t : SaeTemporaryData P} (ht : s.tmp = some t) :
    (t.exchange s.peerCommitScalar).isSome ↔ s.HasOwn ∧ s.HasPeer := by
  have hown : s.HasOwn ↔ t.HasOwn := by
    refine ⟨fun ⟨t₀, h, ho⟩ => ?_, fun ho => ⟨t, ht, ho⟩⟩
    rw [ht] at h
    cases h
    exact ho
  have hpeer : s.HasPeer ↔ s.peerCommitScalar.isSome ∧ t.peerElement.isSome := by
    refine ⟨fun ⟨hs, t₀, h, ho⟩ => ⟨hs, ?_⟩, fun ⟨hs, ho⟩ => ⟨hs, t, ht, ho⟩⟩
    rw [ht] at h
    cases h
    exact ho
  rw [hown, hpeer]
  unfold SaeTemporaryData.exchange SaeTemporaryData.HasOwn
  cases t.ownCommitScalar <;> cases t.ownElement <;> cases s.peerCommitScalar <;>
    cases t.peerElement <;> simp

/-- **`sae_write_confirm()`** changes the counter only. -/
theorem saeWriteConfirm_ok {c : CryptoLib P} {s s' : SaeData P} {buf : Bytes}
    (h : saeWriteConfirm c s = .ok (buf, s')) : ∃ n, s' = { s with sendConfirm := n } := by
  unfold saeWriteConfirm at h
  split at h
  · cases h
    exact ⟨s.sendConfirm, rfl⟩
  · obtain ⟨x, -, h⟩ := except_bind_ok h
    obtain ⟨confirm, -, h⟩ := except_bind_ok h
    cases h
    exact ⟨_, rfl⟩

theorem saeWriteConfirm_error {c : CryptoLib P} {s : SaeData P} {e : Fault}
    (hown : s.HasOwn) (hpeer : s.HasPeer) (h : saeWriteConfirm c s = .error e) :
    ¬ e.OfConfirm := by
  have hne : e = .uninitialisedBuffer := by
    unfold saeWriteConfirm at h
    split at h
    · cases h
    · rename_i t ht
      have hx := (exchange_isSome_iff ht).2 ⟨hown, hpeer⟩
      obtain h | ⟨x, -, h⟩ := except_bind_error h
      · rw [(deref_error h).2] at hx
        cases hx
      obtain h | ⟨confirm, -, h⟩ := except_bind_error h
      · exact saeCnConfirm_error h
      · cases h
  rintro (rfl | rfl) <;> simp at hne

/-- **`sae_check_confirm()`** accepts only the verifier of the commit values at hand. -/
theorem saeCheckConfirm_true {c : CryptoLib P} {data : Bytes} {s : SaeData P}
    (h : saeCheckConfirm c data s = .ok true) :
    2 + sha256MacLen ≤ data.length ∧
    ∃ t x, s.tmp = some t ∧ t.exchange s.peerCommitScalar = some x ∧
      saeVerifier c t.group t.kck (data.take 2) x = .ok (slice data 2 sha256MacLen) := by
  unfold saeCheckConfirm at h
  split at h
  · cases h
  · rename_i hlen
    split at h
    · cases h
    · rename_i t ht
      obtain ⟨x, hx, h⟩ := except_bind_ok h
      obtain ⟨verifier, hv, h⟩ := except_bind_ok h
      have heq : verifier = slice data 2 sha256MacLen := by
        simpa [pure, Except.pure] using h
      exact ⟨by omega, t, x, ht, deref_ok hx, by rw [hv, heq]⟩

theorem saeCheckConfirm_error {c : CryptoLib P} {data : Bytes} {s : SaeData P} {e : Fault}
    (h : saeCheckConfirm c data s = .error e) (he : e.OfConfirm) :
    2 + sha256MacLen ≤ data.length ∧ s.tmp.isSome ∧ ¬ (s.HasOwn ∧ s.HasPeer) := by
  unfold saeCheckConfirm at h
  split at h
  · cases h
  · rename_i hlen
    split at h
    · cases h
    · rename_i t ht
      refine ⟨by omega, by simp [ht], fun hboth => ?_⟩
      have hx := (exchange_isSome_iff ht).2 hboth
      obtain h | ⟨x, -, h⟩ := except_bind_error h
      · rw [(deref_error h).2] at hx
        cases hx
      obtain h | ⟨verifier, -, h⟩ := except_bind_error h
      · have hne : e = .uninitialisedBuffer := saeCnConfirm_error h
        rcases he with rfl | rfl <;> simp at hne
      · cases h

end Hostap
