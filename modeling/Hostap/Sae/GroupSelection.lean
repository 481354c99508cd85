import Hostap.Sae.SmallCurve
import Hostap.Sae.Steps

/-!
# Selecting a group

`sae_group_allowed()` called over and over on one instance, with any list of groups. The
instance remembers the group in `sae->group`, and a call that names this group takes the
temporary data as they are. A selection that failed leaves temporary data without group
parameters next to group zero, and zero is also what ends the list of allowed groups. So group
zero, named after a group the library does not know, is taken for one that is selected.
-/

namespace Hostap

open Octets Run

variable {P : Type}

/-- One call of `sae_group_allowed()`. -/
structure GroupCall where
  allowedGroups : Option (List Int)
  group : UInt16
  deriving DecidableEq, Repr

/-- The groups an `allowed_groups` array enables: the entries before the terminator. -/
def enabledGroups (allowedGroups : List Int) : List Int :=
  allowedGroups.takeWhile fun g => 0 < g

def SaeGroup.IsOf (c : CryptoLib P) (group : Int) : SaeGroup P → Prop
  | .unset => False
  | .ecc ec => c.ecInit group = some ec
  | .ffc dh => c.dhGroupsGet group = some dh

/-- What the library's tables promise: a group has a prime, and there is no group zero. -/
structure CryptoLib.GroupTables (c : CryptoLib P) : Prop where
  eccPrime : ∀ group ec, c.ecInit group = some ec → 0 < ec.primeLen
  ffcPrime : ∀ group dh, c.dhGroupsGet group = some dh → 0 < dh.prime.length
  eccZero : c.ecInit 0 = none
  ffcZero : c.dhGroupsGet 0 = none

/-- What a call that returns success says about the group and the instance it leaves. -/
structure GroupCall.Selects (c : CryptoLib P) (call : GroupCall) (sae : SaeData P) : Prop where
  positive : 0 < call.group.toNat
  listed : ∀ gs, call.allowedGroups = some gs → (call.group.toNat : Int) ∈ enabledGroups gs
  eccOnly : call.allowedGroups = none → ∃ ec, c.ecInit call.group.toNat = some ec
  recorded : sae.group = call.group.toNat
  context : ∃ t, sae.tmp = some t ∧ t.group.IsOf c call.group.toNat ∧ 0 < t.group.primeLen

/-- The call is right about the instance: success means that the group is selected. -/
def GroupCall.Sound (c : CryptoLib P) (call : GroupCall) (sae : SaeData P) : Prop :=
  (saeGroupAllowed c call.allowedGroups call.group.toNat sae).1 = wlanStatusSuccess →
    call.Selects c (saeGroupAllowed c call.allowedGroups call.group.toNat sae).2

def SaeData.HalfSelected (sae : SaeData P) : Prop :=
  ∃ t, sae.tmp = some t ∧ t.group = .unset

/-- The call names group zero, and the list of groups, when there is one, ends with zero. -/
def GroupCall.NamesTerminator (call : GroupCall) : Prop :=
  call.group = 0 ∧ (call.allowedGroups.any fun gs => !allowedGroupsHave 0 gs) = false

def groupCallStep (c : CryptoLib P) (sae : SaeData P) (call : GroupCall) :
    Except Fault (SaeData P) :=
  .ok (saeGroupAllowed c call.allowedGroups call.group.toNat sae).2

/-! ## The search through the list -/

theorem mem_enabledGroups {group : Nat} (hpos : 0 < group) {gs : List Int}
    (h : allowedGroupsHave group gs = true) : (group : Int) ∈ enabledGroups gs := by
  induction gs with
  | nil =>
    -- the implicit terminator is zero
    have hzero : group = 0 := by simpa [allowedGroupsHave] using h
    omega
  | cons g gs ih =>
    unfold allowedGroupsHave at h
    split at h
    · rename_i hg
      have hmem := ih h
      show (group : Int) ∈ List.takeWhile _ (g :: gs)
      rw [List.takeWhile_cons_of_pos (by simpa using hg.1)]
      exact List.mem_cons_of_mem g hmem
    · rename_i hg
      have heq : g = group := by simpa using h
      show (group : Int) ∈ List.takeWhile _ (g :: gs)
      rw [List.takeWhile_cons_of_pos (by simpa [heq] using hpos), heq]
      exact List.mem_cons_self

/-! ## One selection -/

theorem saeSetGroup_cases (c : CryptoLib P) (group : Int) (sae : SaeData P) :
    ((saeSetGroup c group sae).1 = true ∧ (saeSetGroup c group sae).2.group = group ∧
      ∃ t, (saeSetGroup c group sae).2.tmp = some t ∧ t.group.IsOf c group) ∨
    ((saeSetGroup c group sae).1 = false ∧ (saeSetGroup c group sae).2.group = 0 ∧
      ∀ t, (saeSetGroup c group sae).2.tmp = some t → t.group = .unset) := by
  unfold saeSetGroup
  dsimp only
  split
  · rename_i ec hec
    exact .inl ⟨rfl, rfl, _, rfl, hec⟩
  · split
    · rename_i dh hdh
      split
      · -- a prime that is too long: everything is cleared
        refine .inr ⟨rfl, rfl, fun t ht => ?_⟩
        cases ht
      · exact .inl ⟨rfl, rfl, _, rfl, hdh⟩
    · -- a group the library does not know: empty temporary data stay
      refine .inr ⟨rfl, rfl, fun t ht => ?_⟩
      cases ht
      rfl

/-- The temporary data belong to the recorded group, or they are those of a failed selection. -/
def SaeData.GroupConsistent (c : CryptoLib P) (sae : SaeData P) : Prop :=
  ∀ t, sae.tmp = some t →
    t.group.IsOf c sae.group ∨ (t.group = .unset ∧ sae.group = 0)

theorem SaeData.GroupConsistent.zeroed (c : CryptoLib P) :
    ({} : SaeData P).GroupConsistent c := by
  intro t ht
  cases ht

theorem saeSetGroup_consistent (c : CryptoLib P) (group : Int) (sae : SaeData P) :
    (saeSetGroup c group sae).2.GroupConsistent c := by
  intro t ht
  rcases saeSetGroup_cases c group sae with ⟨_, hg, t', ht', hof⟩ | ⟨_, hg, hunset⟩
  · rw [ht'] at ht
    cases ht
    rw [hg]
    exact .inl hof
  · exact .inr ⟨hunset t ht, hg⟩

theorem saeGroupAllowed_consistent {c : CryptoLib P} {allowedGroups : Option (List Int)}
    {group : Nat} {sae : SaeData P} (hcons : sae.GroupConsistent c)
    (hstate : sae.state ≠ .committed) :
    (saeGroupAllowed c allowedGroups group sae).2.GroupConsistent c ∧
      (saeGroupAllowed c allowedGroups group sae).2.state ≠ .committed := by
  generalize hga : saeGroupAllowed c allowedGroups group sae = r
  obtain ⟨status, sae'⟩ := r
  rcases saeGroupAllowed_cases hga with h | ⟨_, _, _, h⟩
  · rw [h]
    exact ⟨hcons, hstate⟩
  · rw [h, saeSetGroup_state]
    exact ⟨saeSetGroup_consistent c group sae, by decide⟩

theorem saeGroupAllowed_success {c : CryptoLib P} {allowedGroups : Option (List Int)}
    {group : Nat} {sae : SaeData P}
    (h : (saeGroupAllowed c allowedGroups group sae).1 = wlanStatusSuccess) :
    (allowedGroups.any fun gs => !allowedGroupsHave group gs) = false ∧
    ∃ t, (saeGroupAllowed c allowedGroups group sae).2.tmp = some t ∧
      (allowedGroups = none → ∀ dh, t.group ≠ .ffc dh) ∧
      (((group : Int) = sae.group ∧ (saeGroupAllowed c allowedGroups group sae).2 = sae) ∨
        ((group : Int) ≠ sae.group ∧ (saeSetGroup c group sae).1 = true ∧
          (saeGroupAllowed c allowedGroups group sae).2 = (saeSetGroup c group sae).2)) := by
  have hne : ¬ wlanStatusFiniteCyclicGroupNotSupported = wlanStatusSuccess := by decide
  have hne' : ¬ wlanStatusUnspecifiedFailure = wlanStatusSuccess := by decide
  unfold saeGroupAllowed at h ⊢
  split at h
  · exact absurd h hne
  rename_i hlist
  rw [if_neg hlist]
  split at h
  · exact absurd h hne
  rename_i hcommitted
  rw [if_neg hcommitted]
  refine ⟨by simpa using hlist, ?_⟩
  by_cases hg : (group : Int) ≠ sae.group
  · rw [if_pos hg] at h ⊢
    cases hset : saeSetGroup c group sae with
    | mk supported s =>
      rw [hset] at h
      cases supported with
      | false => exact absurd h hne
      | true =>
        cases htmp : s.tmp with
        | none =>
          simp only [Bool.not_true, Bool.false_eq_true, if_false, htmp] at h
          exact absurd h hne'
        | some t =>
          simp only [Bool.not_true, Bool.false_eq_true, if_false, htmp] at h ⊢
          cases hgr : t.group <;> cases allowedGroups <;> simp only [hgr] at h ⊢ <;>
            first
            | exact absurd h hne
            | exact ⟨t, htmp, by simp [hgr], .inr ⟨hg, trivial, trivial⟩⟩
  · rw [if_neg hg] at h ⊢
    cases htmp : sae.tmp with
    | none =>
      simp only [Bool.not_true, Bool.false_eq_true, if_false, htmp] at h
      exact absurd h hne'
    | some t =>
      simp only [Bool.not_true, Bool.false_eq_true, if_false, htmp] at h ⊢
      cases hgr : t.group <;> cases allowedGroups <;> simp only [hgr] at h ⊢ <;>
        first
        | exact absurd h hne
        | exact ⟨t, htmp, by simp [hgr], .inl ⟨not_not.mp hg, trivial⟩⟩

theorem saeGroupAllowed_halfSelected (c : CryptoLib P) {call : GroupCall} {sae : SaeData P}
    (hcall : call.NamesTerminator) (hgroup : sae.group = 0) (hhalf : sae.HalfSelected) :
    saeGroupAllowed c call.allowedGroups call.group.toNat sae = (wlanStatusSuccess, sae) := by
  obtain ⟨hzero, hlist⟩ := hcall
  obtain ⟨t, ht, hunset⟩ := hhalf
  have hnat : call.group.toNat = 0 := by
    rw [hzero]
    rfl
  have hsame : ¬ ((0 : Nat) : Int) ≠ sae.group := by
    rw [hgroup]
    omega
  unfold saeGroupAllowed
  rw [hnat, if_neg (by rw [hlist]; decide), if_neg fun h => hsame h.2, if_neg hsame]
  simp only [Bool.not_true, Bool.false_eq_true, if_false, ht, hunset]

theorem SaeGroup.IsOf.primeLen_pos {c : CryptoLib P} (htab : c.GroupTables) {group : Int}
    {g : SaeGroup P} (h : g.IsOf c group) : 0 < g.primeLen := by
  cases g with
  | unset => exact h.elim
  | ecc ec => exact htab.eccPrime group ec h
  | ffc dh => exact htab.ffcPrime group dh h

theorem SaeGroup.IsOf.group_ne_zero {c : CryptoLib P} (htab : c.GroupTables) {group : Int}
    {g : SaeGroup P} (h : g.IsOf c group) : group ≠ 0 := by
  rintro rfl
  cases g with
  | unset => exact h
  | ecc ec =>
    have hec : c.ecInit 0 = some ec := h
    rw [htab.eccZero] at hec
    cases hec
  | ffc dh =>
    have hdh : c.dhGroupsGet 0 = some dh := h
    rw [htab.ffcZero] at hdh
    cases hdh

theorem GroupCall.selects_of_context {c : CryptoLib P} (htab : c.GroupTables) {call : GroupCall}
    {sae : SaeData P} {t : SaeTemporaryData P} (ht : sae.tmp = some t)
    (hof : t.group.IsOf c call.group.toNat) (hgroup : sae.group = call.group.toNat)
    (hlist : (call.allowedGroups.any fun gs => !allowedGroupsHave call.group.toNat gs) = false)
    (hffc : call.allowedGroups = none → ∀ dh, t.group ≠ .ffc dh) : call.Selects c sae := by
  have hpos : 0 < call.group.toNat := by
    have hne := hof.group_ne_zero htab
    omega
  refine ⟨hpos, fun gs hgs => ?_, fun hnone => ?_, hgroup, t, ht, hof, hof.primeLen_pos htab⟩
  · apply mem_enabledGroups hpos
    simpa [hgs] using hlist
  · -- without a list a finite field is turned down, so the context is a curve
    cases hg : t.group with
    | unset => rw [hg] at hof; exact hof.elim
    | ecc ec => rw [hg] at hof; exact ⟨ec, hof⟩
    | ffc dh => exact absurd hg (hffc hnone dh)

theorem GroupCall.sound_iff {c : CryptoLib P} (htab : c.GroupTables) {call : GroupCall}
    {sae : SaeData P} (hcons : sae.GroupConsistent c) :
    call.Sound c sae ↔ ¬ (call.NamesTerminator ∧ sae.HalfSelected) := by
  constructor
  · rintro hsound ⟨hcall, hhalf⟩
    have hgroup : sae.group = 0 := by
      obtain ⟨t, ht, hunset⟩ := hhalf
      rcases hcons t ht with hof | ⟨_, hg⟩
      · rw [hunset] at hof
        exact hof.elim
      · exact hg
    have hcalled := saeGroupAllowed_halfSelected c hcall hgroup hhalf
    have hselects := hsound (by rw [hcalled])
    -- success with group zero, which is no positive group
    have hpos := hselects.positive
    rw [hcall.1] at hpos
    exact absurd hpos (by decide)
  · intro hno hsuccess
    obtain ⟨hlist, t, ht, hffc, hsel⟩ := saeGroupAllowed_success hsuccess
    rcases hsel with ⟨hgroup, hsame⟩ | ⟨_, hset, hsame⟩
    · -- the group was selected by an earlier call
      rw [hsame] at ht ⊢
      rcases hcons t ht with hof | ⟨hunset, hzero⟩
      · exact selects_of_context htab ht (hgroup ▸ hof) hgroup.symm hlist hffc
      · have hnat : call.group.toNat = 0 := by omega
        rw [hnat] at hlist
        exact absurd ⟨⟨UInt16.toNat_inj.mp hnat, hlist⟩, t, ht, hunset⟩ hno
    · -- this call selects it
      rw [hsame] at ht ⊢
      rcases saeSetGroup_cases c call.group.toNat sae with ⟨_, hg, t', ht', hof⟩ | ⟨hfail, _⟩
      · rw [ht'] at ht
        cases ht
        exact selects_of_context htab ht' hof hg hlist hffc
      · rw [hset] at hfail
        cases hfail

/-! ## Sequences of calls -/

theorem groupCalls_consistent {c : CryptoLib P} {sae₀ sae : SaeData P} {calls : List GroupCall}
    (hcons : sae₀.GroupConsistent c) (hstate : sae₀.state ≠ .committed)
    (hrun : Reach (groupCallStep c) always sae₀ calls sae) :
    sae.GroupConsistent c ∧ sae.state ≠ .committed := by
  apply hrun.invariant (I := fun s => s.GroupConsistent c ∧ s.state ≠ .committed)
  · exact ⟨hcons, hstate⟩
  · intro s call s' hinv _ hstep
    cases hstep
    exact saeGroupAllowed_consistent hinv.1 hinv.2

/-- **Sequences of `sae_group_allowed()` calls.** After any calls, with any lists, the next call
is right about the instance exactly when it does not name the list's terminator, group zero, on
temporary data a failed selection left behind. -/
theorem sae_group_selected {c : CryptoLib P} (htab : c.GroupTables) {sae₀ sae : SaeData P}
    {calls : List GroupCall} (hcons : sae₀.GroupConsistent c) (hstate : sae₀.state ≠ .committed)
    (hrun : Reach (groupCallStep c) always sae₀ calls sae) (call : GroupCall) :
    call.Sound c sae ↔ ¬ (call.NamesTerminator ∧ sae.HalfSelected) := by
  apply GroupCall.sound_iff htab
  exact (groupCalls_consistent hcons hstate hrun).1

theorem smallLib_groupTables : smallLib.GroupTables where
  eccPrime := by
    intro group ec h
    show 0 < numBytes ec.prime
    have hec : ec = smallCurve := by
      change (if group = 19 ∨ group = 20 then some smallCurve else none) = some ec at h
      split at h
      · exact (Option.some.inj h).symm
      · cases h
    rw [hec]
    decide
  ffcPrime := by
    intro group dh h
    cases h
  eccZero := rfl
  ffcZero := rfl

theorem sae_group_selected_small :
    GroupCall.Sound smallLib ⟨some [19, 0], 19⟩ ({} : SaeData (ZMod 5)) ↔
      ¬ (GroupCall.NamesTerminator ⟨some [19, 0], 19⟩ ∧ ({} : SaeData (ZMod 5)).HalfSelected) :=
  sae_group_selected smallLib_groupTables (.zeroed smallLib) (by decide) .start ⟨some [19, 0], 19⟩

/-- Without a list: group 7, which the library does not know, and then group zero. -/
theorem sae_group_zero_accepted :
    (saeGroupAllowed smallLib none 0
        (saeGroupAllowed smallLib none 7 ({} : SaeData (ZMod 5))).2).1 = wlanStatusSuccess ∧
    ¬ ∀ (calls : List GroupCall) (call : GroupCall) (sae : SaeData (ZMod 5)),
      Reach (groupCallStep smallLib) always {} calls sae → call.Sound smallLib sae := by
  refine ⟨by decide, fun hall => ?_⟩
  have hstep : groupCallStep smallLib ({} : SaeData (ZMod 5)) ⟨none, 7⟩ =
      .ok { tmp := some {} } := rfl
  have hsound := hall [⟨none, 7⟩] ⟨none, 0⟩ _ (.next .start trivial hstep)
  have hpos : 0 < (0 : UInt16).toNat := (hsound (by decide)).positive
  exact absurd hpos (by decide)

end Hostap
