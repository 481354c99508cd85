import Hostap.Sae.GroupSelection
import Hostap.Sae.Presence

/-!
# Re-used scalars

In state Accepted `sae_parse_commit_scalar()` refuses the scalar the instance was accepted with.
What it compares with is `peer_commit_scalar`, and the same function replaces this value before
the element, the identifier and the reflection of the Commit are looked at. A Commit that is
turned down for one of these, for its token or because none came along, leaves the station in
state Accepted with another scalar on record, and the old one is taken again.

The station refuses the old scalar in every run in which no Commit gets past the check of its
scalar while the station stays in state Accepted.
-/

namespace Hostap

open Octets Prog Run

variable {P : Type}

/-- The scalar of a Commit body, as the receiver reads it for a group: after the token. -/
def saeCommitScalar (g : SaeGroup P) (body : Bytes) : Option Nat :=
  let pos := (saeParseCommitToken g (body.drop 2)).2
  if pos.length < g.primeLen then none else some (beNat (pos.take g.primeLen))

/-- The body carries the scalar `s` for the group of the instance. -/
def SaeData.CarriesScalar (sae : SaeData P) (s : Nat) (body : Bytes) : Prop :=
  ∀ t, sae.tmp = some t → saeCommitScalar t.group body = some s

/-- The group is enabled and known; a finite field has to be in a list. -/
def UsableGroup (c : CryptoLib P) (allowedGroups : Option (List Int)) (group : Nat) : Prop :=
  (allowedGroups.any fun gs => !allowedGroupsHave group gs) = false ∧
    ((c.ecInit group).isSome ∨ (allowedGroups.isSome ∧ (c.dhGroupsGet group).isSome))

/-- The body gets past the check of its scalar: it names the group of the instance, and its
scalar is in range and not the one on record. -/
def SaeData.TakesScalar (allowedGroups : Option (List Int)) (sae : SaeData P) (body : Bytes) :
    Prop :=
  (getLe16 body : Int) = sae.group ∧
    (allowedGroups.any fun gs => !allowedGroupsHave (getLe16 body) gs) = false ∧
    ∃ t n, sae.tmp = some t ∧ (allowedGroups = none → ∀ dh, t.group ≠ .ffc dh) ∧
      saeCommitScalar t.group body = some n ∧ sae.peerCommitScalar ≠ some n ∧
      1 < n ∧ n < t.group.order

/-- The event is no Commit that gets past the check of its scalar. -/
def TakesNoScalar (conf : HostapdConf) (st : SaeAp P) : SaeEvent → Prop
  | .auth f _ => f.transaction = 1 → f.status = wlanStatusSuccess →
      ∀ sae, st.sae = some sae → ¬ sae.TakesScalar conf.saeGroups f.body
  | .retransmitTimer _ => True

def SaeAp.Accepted (st : SaeAp P) : Prop := ∃ sae, st.sae = some sae ∧ sae.state = .accepted

/-! ## Parsing in state Accepted -/

theorem saeParseCommitScalar_success {g : SaeGroup P} {sae : SaeData P} {pos : Bytes}
    (hacc : sae.state = .accepted)
    (h : (saeParseCommitScalar g sae pos).1 = wlanStatusSuccess) :
    g.primeLen ≤ pos.length ∧ sae.peerCommitScalar ≠ some (beNat (pos.take g.primeLen)) ∧
      1 < beNat (pos.take g.primeLen) ∧ beNat (pos.take g.primeLen) < g.order := by
  have hne : ¬ wlanStatusUnspecifiedFailure = wlanStatusSuccess := by decide
  unfold saeParseCommitScalar at h
  split at h
  · exact absurd h hne
  rename_i hlen
  dsimp only at h
  split at h
  · exact absurd h hne
  rename_i hreuse
  split at h
  · exact absurd h hne
  rename_i hrange
  have hfresh : sae.peerCommitScalar ≠ some (beNat (pos.take g.primeLen)) :=
    fun heq => hreuse ⟨hacc, heq⟩
  exact ⟨by omega, hfresh, by omega, by omega⟩

theorem saeParseCommitBody_refused {sae : SaeData P} {t : SaeTemporaryData P} {body : Bytes}
    (hacc : sae.state = .accepted)
    (hno : ∀ n, saeCommitScalar t.group body = some n →
      sae.peerCommitScalar ≠ some n → 1 < n → ¬ n < t.group.order) :
    (saeParseCommitBody sae t (body.drop 2)).status ≠ wlanStatusSuccess ∧
      (saeParseCommitBody sae t (body.drop 2)).sae = sae := by
  unfold saeParseCommitBody
  cases htok : saeParseCommitToken t.group (body.drop 2) with
  | mk token pos =>
    dsimp only
    cases hsc : saeParseCommitScalar t.group sae pos with
    | mk status r =>
      obtain ⟨sae', pos'⟩ := r
      rcases saeParseCommitScalar_cases hsc with ⟨hst, rfl⟩ | ⟨hst, _⟩
      · dsimp only
        rw [if_pos hst]
        exact ⟨hst, rfl⟩
      · -- a scalar that is taken is the one of the body
        obtain ⟨hlen, hfresh, hlow, hhigh⟩ :=
          saeParseCommitScalar_success hacc (by rw [hsc]; exact hst)
        have hscalar : saeCommitScalar t.group body = some (beNat (pos.take t.group.primeLen)) := by
          unfold saeCommitScalar
          rw [htok]
          dsimp only
          rw [if_neg (by omega)]
        exact absurd hhigh (hno _ hscalar hfresh hlow)

theorem saeParseCommit_refused {c : CryptoLib P} {allowedGroups : Option (List Int)}
    {sae : SaeData P} {body : Bytes} (hacc : sae.state = .accepted)
    (hno : ¬ sae.TakesScalar allowedGroups body) :
    ((saeParseCommit c allowedGroups body sae).status ≠ wlanStatusSuccess ∧
      (saeParseCommit c allowedGroups body sae).sae = sae) ∨
    ((getLe16 body : Int) ≠ sae.group ∧
      (saeParseCommit c allowedGroups body sae).sae.state = .nothing) := by
  have hne : wlanStatusUnspecifiedFailure ≠ wlanStatusSuccess := by decide
  unfold saeParseCommit
  split
  · exact .inl ⟨hne, rfl⟩
  cases hga : saeGroupAllowed c allowedGroups (getLe16 body) sae with
  | mk status sae' =>
    dsimp only
    rcases saeGroupAllowed_cases hga with rfl | ⟨hgroup, _, _, rfl⟩
    · -- the instance is as it was
      left
      cases ht : sae'.tmp with
      | none =>
        refine ⟨fun hs => ?_, rfl⟩
        have hsome := saeGroupAllowed_tmp hga hs
        rw [ht] at hsome
        cases hsome
      | some t =>
        dsimp only
        split
        · rename_i hst
          exact ⟨hst, rfl⟩
        rename_i hst
        have hsuccess := saeGroupAllowed_success (c := c) (by rw [hga]; exact not_not.mp hst)
        rw [hga] at hsuccess
        obtain ⟨hlist, t', ht', hffc, hsel⟩ := hsuccess
        rw [ht] at ht'
        cases ht'
        have hgroup : (getLe16 body : Int) = sae'.group := by
          rcases hsel with ⟨hg, _⟩ | ⟨_, _, hset⟩
          · exact hg
          · -- a selection would have ended state Accepted
            have hstate := saeSetGroup_state c (getLe16 body) sae'
            rw [← hset, hacc] at hstate
            cases hstate
        apply saeParseCommitBody_refused hacc
        intro n hscalar hfresh hlow hhigh
        exact hno ⟨hgroup, hlist, t, n, ht, hffc, hscalar, hfresh, hlow, hhigh⟩
    · -- another group was selected
      right
      refine ⟨hgroup, ?_⟩
      have hnothing := saeSetGroup_state c (getLe16 body) sae
      cases ht : (saeSetGroup c (getLe16 body) sae).2.tmp with
      | none => exact hnothing
      | some t =>
        dsimp only
        split
        · exact hnothing
        · exact (saeParseCommitBody_peer ht (body.drop 2)).1.state.trans hnothing

theorem saeParseCommit_unusable {c : CryptoLib P} {allowedGroups : Option (List Int)}
    {sae : SaeData P} {body : Bytes} (hgroup : (getLe16 body : Int) ≠ sae.group)
    (hno : ¬ UsableGroup c allowedGroups (getLe16 body)) :
    (saeParseCommit c allowedGroups body sae).status ≠ wlanStatusSuccess := by
  have hst : (saeGroupAllowed c allowedGroups (getLe16 body) sae).1 ≠ wlanStatusSuccess := by
    intro hs
    obtain ⟨hlist, t, ht, hffc, hsel⟩ := saeGroupAllowed_success hs
    rcases hsel with ⟨hg, _⟩ | ⟨_, hset, heq⟩
    · exact hgroup hg
    · rw [heq] at ht
      rcases saeSetGroup_cases c (getLe16 body) sae with ⟨_, _, t', ht', hof⟩ | ⟨hfail, _⟩
      · rw [ht] at ht'
        cases ht'
        apply hno
        cases hg : t.group with
        | unset => rw [hg] at hof; exact hof.elim
        | ecc ec =>
          rw [hg] at hof
          exact ⟨hlist, .inl (by rw [show c.ecInit _ = _ from hof]; rfl)⟩
        | ffc dh =>
          rw [hg] at hof
          refine ⟨hlist, .inr ⟨?_, by rw [show c.dhGroupsGet _ = _ from hof]; rfl⟩⟩
          rw [← Option.ne_none_iff_isSome]
          exact fun hnone => hffc hnone dh hg
      · rw [hset] at hfail
        cases hfail
  unfold saeParseCommit
  split
  · show wlanStatusUnspecifiedFailure ≠ wlanStatusSuccess
    decide
  cases hga : saeGroupAllowed c allowedGroups (getLe16 body) sae with
  | mk status sae' =>
    rw [hga] at hst
    dsimp only
    cases sae'.tmp with
    | none => exact hst
    | some t =>
      dsimp only
      rw [if_pos hst]
      exact hst

theorem saeParseCommit_reused {c : CryptoLib P} {allowedGroups : Option (List Int)}
    {sae : SaeData P} {s : Nat} {body : Bytes} (hacc : sae.state = .accepted)
    (hscalar : sae.peerCommitScalar = some s) (hcarries : sae.CarriesScalar s body)
    (hgroup : (getLe16 body : Int) = sae.group ∨ ¬ UsableGroup c allowedGroups (getLe16 body)) :
    (saeParseCommit c allowedGroups body sae).status ≠ wlanStatusSuccess := by
  by_cases heq : (getLe16 body : Int) = sae.group
  · have hno : ¬ sae.TakesScalar allowedGroups body := by
      rintro ⟨_, _, t, n, ht, _, hn, hfresh, _⟩
      rw [hcarries t ht] at hn
      cases hn
      exact hfresh hscalar
    rcases saeParseCommit_refused (c := c) hacc hno with ⟨hst, _⟩ | ⟨hother, _⟩
    · exact hst
    · exact absurd heq hother
  · exact saeParseCommit_unusable heq (hgroup.resolve_left heq)

/-! ## Events in state Accepted -/

/-- The scalar on record as long as the station is in state Accepted. -/
def SaeAp.HoldsScalar (s : Nat) (st : SaeAp P) : Prop :=
  ∀ sae, st.sae = some sae → sae.state = .accepted → sae.peerCommitScalar = some s

theorem SaeWorld.holdsScalar_of_state {s : Nat} {w : SaeWorld P}
    (h : w.sae.state ≠ .accepted) : w.leave.HoldsScalar s := by
  intro sae hsae hacc
  rw [(SaeWorld.leave_sae hsae).2] at hacc
  exact absurd hacc h

theorem SaeWorld.holdsScalar_of_eq {s : Nat} {w : SaeWorld P}
    (h : w.sae.peerCommitScalar = some s) : w.leave.HoldsScalar s := by
  intro sae hsae _
  rw [(SaeWorld.leave_sae hsae).2]
  exact h

theorem CommitResult.not_accepted {conf : HostapdConf} {w w' : SaeWorld P}
    (h : CommitResult conf w w') (hno : w.sae.state ≠ .accepted) :
    w'.sae.state ≠ .accepted := by
  cases h with
  | dropped _ hstate _ =>
    rw [hstate]
    exact hno
  | bigSync hstate =>
    rw [hstate]
    decide
  | failed _ _ _ hstate =>
    rcases hstate with h | ⟨h, _⟩ <;> rw [h] <;> decide
  | keyed _ hstate =>
    rcases hstate with h | ⟨h, _⟩ <;> rw [h] <;> decide

theorem HandleCommitPost.holdsScalar {c : CryptoLib P} {conf : HostapdConf} {f : AuthFrame}
    {w w' : SaeWorld P} {s : Nat} (h : HandleCommitPost c conf f w w')
    (hacc : w.sae.state = .accepted) (hscalar : w.sae.peerCommitScalar = some s)
    (hno : ¬ w.sae.TakesScalar conf.saeGroups f.body) : w'.leave.HoldsScalar s := by
  -- an infrastructure BSS starts over in state Committed only
  have hrestart : restartInfrastructure conf w.sae = w.sae := by
    unfold restartInfrastructure
    rw [if_neg]
    rw [hacc]
    exact fun h => absurd h.2 (by decide)
  have hparse := saeParseCommit_refused (c := c) hacc hno
  unfold HandleCommitPost parsedCommit at h
  rw [hrestart] at h
  rcases h with ⟨_, hsae | hsae⟩ | ⟨hst, hpost⟩
  · rcases hparse with ⟨_, hsame⟩ | ⟨_, hnothing⟩
    · apply SaeWorld.holdsScalar_of_eq
      rw [hsae, hsame]
      exact hscalar
    · apply SaeWorld.holdsScalar_of_state
      rw [hsae, hnothing]
      decide
  · apply SaeWorld.holdsScalar_of_state
    rw [hsae]
    show SaeState.nothing ≠ .accepted
    decide
  · -- a Commit that parses has ended the instance by naming another group
    rcases hparse with ⟨hrefused, _⟩ | ⟨_, hnothing⟩
    · exact absurd hst hrefused
    rcases hpost with ⟨_, _, hres⟩ | ⟨hfreed, _⟩
    · apply SaeWorld.holdsScalar_of_state
      apply hres.not_accepted
      show (saeParseCommit c conf.saeGroups f.body w.sae).sae.state ≠ .accepted
      rw [hnothing]
      decide
    · intro sae hsae _
      rw [(SaeWorld.leave_sae hsae).1] at hfreed
      cases hfreed

theorem ConfirmResult.scalar_kept {c : CryptoLib P} {conf : HostapdConf} {f : AuthFrame}
    {w w' : SaeWorld P} {s : Nat} (h : ConfirmResult c conf f w w')
    (hacc : w.sae.state = .accepted) (hscalar : w.sae.peerCommitScalar = some s) :
    w'.leave.HoldsScalar s := by
  cases h with
  | kept _ _ hsame _ _ =>
    apply SaeWorld.holdsScalar_of_eq
    rw [hsame]
    exact hscalar
  | bigSync _ _ hstate =>
    apply SaeWorld.holdsScalar_of_state
    rw [hstate]
    decide
  | repeated _ _ _ _ _ hsame =>
    apply SaeWorld.holdsScalar_of_eq
    rw [hsame]
    exact hscalar
  | accepted t x _ _ _ hs =>
    -- the station is accepted from state Committed or Confirmed
    rw [hacc] at hs
    rcases hs with hs | ⟨hs, _⟩ <;> cases hs

theorem saeApStep_holdsScalar {c : CryptoLib P} {conf : HostapdConf} {st st' : SaeAp P}
    {ev : SaeEvent} {s : Nat} (hacc : st.Accepted) (hholds : st.HoldsScalar s)
    (hno : TakesNoScalar conf st ev) (hstep : saeApStep c conf st ev = .ok st') :
    st'.HoldsScalar s := by
  obtain ⟨sae, hsae, hstate⟩ := hacc
  have hscalar := hholds sae hsae hstate
  cases ev with
  | auth f env =>
    have hown : st.OwnInv := by
      intro sae' hsae' hcommitted
      rw [hsae] at hsae'
      cases hsae'
      rw [hstate] at hcommitted
      cases hcommitted
    rcases handleAuthSae_cases hown hstep with ⟨hnone, _⟩ | ⟨w', hbody, rfl⟩
    · rw [hsae] at hnone
      cases hnone
    · rw [hsae] at hbody
      cases hbody with
      | same _ hsame =>
        apply SaeWorld.holdsScalar_of_eq
        rw [hsame.scalar]
        exact hscalar
      | cleared _ _ hnothing =>
        apply SaeWorld.holdsScalar_of_state
        rw [hnothing]
        decide
      | tokenSent _ _ hcommitted _ =>
        apply SaeWorld.holdsScalar_of_state
        rw [hcommitted]
        decide
      | commit htrans hstatus hpost =>
        exact hpost.holdsScalar hstate hscalar (hno htrans hstatus sae hsae)
      | confirm _ _ hres => exact hres.scalar_kept hstate hscalar
  | retransmitTimer env =>
    rcases authSaeRetransmitTimer_cases hstep with rfl | ⟨sae', w', hsae', rfl, _, _, hsame | hnothing⟩
    · exact hholds
    · rw [hsae] at hsae'
      cases hsae'
      apply SaeWorld.holdsScalar_of_eq
      rw [hsame.scalar]
      exact hscalar
    · apply SaeWorld.holdsScalar_of_state
      rw [hnothing]
      decide

/-- A step of a run that stays in state Accepted and takes no new scalar. -/
def StaysAccepted (conf : HostapdConf) (st : SaeAp P) (ev : SaeEvent) : Prop :=
  st.Accepted ∧ TakesNoScalar conf st ev

/-- **A re-used scalar is refused.** A station that was accepted with the peer scalar `s` and
stays in state Accepted refuses every Commit with this scalar in every run in which no Commit in
between got past the check of its scalar. -/
theorem sae_reused_scalar_refused {c : CryptoLib P} {conf : HostapdConf} {st₀ st : SaeAp P}
    {evs : List SaeEvent} {sae₀ sae : SaeData P} {s : Nat} (hsae₀ : st₀.sae = some sae₀)
    (hscalar₀ : sae₀.peerCommitScalar = some s)
    (hrun : Reach (saeApStep c conf) (StaysAccepted conf) st₀ evs st)
    (hsae : st.sae = some sae) (hacc : sae.state = .accepted) {body : Bytes}
    (hcarries : sae.CarriesScalar s body)
    (hgroup : (getLe16 body : Int) = sae.group ∨ ¬ UsableGroup c conf.saeGroups (getLe16 body)) :
    (saeParseCommit c conf.saeGroups body sae).status ≠ wlanStatusSuccess := by
  have hholds : st.HoldsScalar s := by
    apply hrun.invariant (I := SaeAp.HoldsScalar s)
    · intro sae' hsae' _
      rw [hsae₀] at hsae'
      cases hsae'
      exact hscalar₀
    · intro st ev st' hinv hcond hstep
      exact saeApStep_holdsScalar hcond.1 hinv hcond.2 hstep
  exact saeParseCommit_reused hacc (hholds sae hsae hacc) hcarries hgroup

def smallAcceptedThree : SaeAp (ZMod 5) :=
  smallAccepted 3 smallTag smallTag [2] smallCommitted.log

def smallAnswered (sae : SaeData (ZMod 5)) : SaeAp (ZMod 5) :=
  { smallAcceptedThree with sae := some sae, log := smallAcceptedThree.log ++ [.tx 1 1 []] }

def smallAcceptedSae : SaeData (ZMod 5) :=
  { smallInstance 3 smallTag smallTag [2] with state := .accepted, sendConfirm := 0xffff, rc := 1 }

theorem smallAcceptedSae_scalar (n : Nat)
    (h : saeCommitScalar (.ecc smallCurve) [19, 0, 3, 0, 1] = some n) : n = 3 := by
  have hthree : saeCommitScalar (.ecc smallCurve) [19, 0, 3, 0, 1] = some 3 := by decide +kernel
  rw [hthree] at h
  exact (Option.some.inj h).symm

/-- The scalar three, repeated twice. -/
theorem sae_reused_scalar_refused_small :
    (saeParseCommit smallLib none [19, 0, 3, 0, 1] smallAcceptedSae).status ≠
      wlanStatusSuccess := by
  have hstays : StaysAccepted smallConf smallAcceptedThree (smallCommit 3) := by
    refine ⟨⟨smallAcceptedSae, rfl, rfl⟩, fun _ _ sae hsae => ?_⟩
    cases hsae
    rintro ⟨_, _, t, n, ht, _, hn, hfresh, _⟩
    cases ht
    rw [smallAcceptedSae_scalar n hn] at hfresh
    exact hfresh rfl
  have hstep : saeApStep smallLib smallConf smallAcceptedThree (smallCommit 3) =
      .ok (smallAnswered smallAcceptedSae) := by rfl
  have hrun : Reach (saeApStep smallLib smallConf) (StaysAccepted smallConf) smallAcceptedThree
      [smallCommit 3] (smallAnswered smallAcceptedSae) := .next .start hstays hstep
  have hsae : smallAcceptedThree.sae = some smallAcceptedSae := rfl
  apply sae_reused_scalar_refused (s := 3) hsae rfl hrun rfl rfl
  · intro t ht
    cases ht
    decide +kernel
  · exact .inl rfl

def smallOffCurve : SaeEvent := .auth ⟨1, wlanStatusSuccess, [19, 0, 4, 1, 1]⟩ (smallEnv 2 2)

def smallOffCurveSae : SaeData (ZMod 5) :=
  { smallAcceptedSae with
    peerCommitScalar := some 4
    tmp := smallAcceptedSae.tmp.map fun t => { t with peerCommitElementEcc := none } }

/-- After a Commit that is refused for its element the station is still accepted, and it takes a
Commit with the scalar it was accepted with. -/
theorem sae_reused_scalar_taken :
    ∃ st sae, Reach (saeApStep smallLib smallConf) always smallAcceptedThree [smallOffCurve] st ∧
      (∃ sae₀, smallAcceptedThree.sae = some sae₀ ∧ sae₀.state = .accepted ∧
        sae₀.peerCommitScalar = some 3) ∧
      st.sae = some sae ∧ sae.state = .accepted ∧ sae.CarriesScalar 3 [19, 0, 3, 0, 1] ∧
      (getLe16 [19, 0, 3, 0, 1] : Int) = sae.group ∧
      (saeParseCommit smallLib smallConf.saeGroups [19, 0, 3, 0, 1] sae).status =
        wlanStatusSuccess := by
  have hstep : saeApStep smallLib smallConf smallAcceptedThree smallOffCurve =
      .ok (smallAnswered smallOffCurveSae) := by rfl
  refine ⟨_, smallOffCurveSae, .next .start trivial hstep, ⟨smallAcceptedSae, rfl, rfl, rfl⟩, rfl, rfl,
    ?_, rfl, ?_⟩
  · intro t ht
    cases ht
    decide +kernel
  · decide +kernel

end Hostap
