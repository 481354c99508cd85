import Hostap.Ft.Supplicant

/-!
# How often the keys of an exchange are installed

Responses and Reassociation Responses reach a station in any order, and any of them any number of times. A PTK
that the driver did not take with the response is given to it once more after the reassociation. One that it
took is not to be given to it again.

A response that passes has the PTK derived and installed. If it comes again the same PTK is installed again,
and since the flag of the reassociation is cleared with it, the group keys of the Reassociation Response can
be installed again as well. In runs without such responses (`FtFresh`) every key is installed once: the PTKs
the driver took are those of responses that passed, and a PTK that is still to be installed is not among them.
-/

namespace Hostap

open Octets

/-! ## Runs -/

/-- A station and, which is not in the source, what the PTKs of the responses that passed were derived from. -/
structure FtSta where
  sm : FtStaSm
  taken : List FtPtkInput := []
  deriving DecidableEq

inductive FtStaEvent
  | response (ies : Bytes) (ftAction : Bool) (targetAp : Bytes) (ricIes : Option Bytes) (env : FtStaEnv)
  | reassocResp (ies srcAddr : Bytes) (env : FtStaEnv)

/-- What the PTK of a response that passes the checks is derived from, if it can be derived. -/
def ftResponseInput (lib : FtLib) (sm : FtStaSm) (ies : Bytes) (ftAction : Bool) (targetAp : Bytes) :
    Option FtPtkInput :=
  match ftResponseChecked sm ies ftAction targetAp with
  | none => none
  | some (_, anonce, r1khId) =>
    match wpaDerivePmkR1 lib sm.pmkR0 sm.pmkR0Name r1khId sm.ownAddr with
    | none => none
    | some (pmkR1, name) =>
      if (wpaPmkR1ToPtk lib pmkR1 sm.snonce anonce sm.ownAddr targetAp name sm.keyMgmt (some sm.pairwiseCipher)
          sm.ptk).2 then
        some ⟨pmkR1, sm.snonce, anonce⟩
      else
        none

def ftStaStep (lib : FtLib) (wrap : AesKeyWrap) (w : FtSta) : FtStaEvent → Except Empty FtSta
  | .response ies ftAction targetAp ricIes env =>
    .ok { sm := (wpaFtProcessResponse lib env w.sm ies ftAction targetAp ricIes).1
          taken := (ftResponseInput lib w.sm ies ftAction targetAp).toList ++ w.taken }
  | .reassocResp ies srcAddr env =>
    .ok { w with sm := (wpaFtValidateReassocResp lib wrap env w.sm ies srcAddr).1 }

/-- A response that passes the checks comes before the reassociation is completed, and with a PMK-R1 and an
ANonce no other had. -/
def FtFresh (lib : FtLib) (w : FtSta) : FtStaEvent → Prop
  | .response ies ftAction targetAp _ _ =>
    ∀ input ∈ ftResponseInput lib w.sm ies ftAction targetAp,
      w.sm.ftReassocCompleted = false ∧ input ∉ w.taken
  | .reassocResp _ _ _ => True

instance (lib : FtLib) (w : FtSta) (ev : FtStaEvent) : Decidable (FtFresh lib w ev) := by
  unfold FtFresh
  split <;> infer_instance

/-- A station that has just prepared a request. What the driver was told before is not counted. -/
def ftStaStart (lib : FtLib) (env : FtStaEnv) (sm : FtStaSm) (mdie : Option Bytes) : FtSta where
  sm := { (wpaFtPrepareAuthRequest lib env sm mdie).1 with outputs := [] }

/-! ## What the driver was given -/

/-- A PTK that is given to the driver: what it was derived from, and whether it was taken. -/
def FtOutput.ptkCall : FtOutput → Option (Option FtPtkInput × Bool)
  | .setPtk input _ _ _ ok => some (input, ok)
  | _ => none

def FtOutput.isSetGtk : FtOutput → Bool
  | .setGtk _ _ _ _ _ => true
  | _ => false

def FtOutput.isSetIgtk : FtOutput → Bool
  | .setIgtk _ _ _ _ _ => true
  | _ => false

def FtStaSm.ptkCalls (sm : FtStaSm) : List (Option FtPtkInput × Bool) := sm.outputs.filterMap FtOutput.ptkCall

def FtStaSm.gtks (sm : FtStaSm) : Nat := sm.outputs.countP FtOutput.isSetGtk

def FtStaSm.igtks (sm : FtStaSm) : Nat := sm.outputs.countP FtOutput.isSetIgtk

/-- A PTK the driver took is not given to it again, and the group keys are given to it once. -/
structure FtStaSm.InstalledOnce (sm : FtStaSm) : Prop where
  ptks : sm.ptkCalls.Pairwise fun later earlier => earlier.2 = true → later.1 ≠ earlier.1
  gtks : sm.gtks ≤ 1
  igtks : sm.igtks ≤ 1

/-- The invariant. Before the reassociation there are no group keys, and a PTK that is to be installed after
it was not taken before. -/
structure FtSta.Inv (w : FtSta) : Prop where
  once : w.sm.InstalledOnce
  groups : w.sm.ftReassocCompleted = false → w.sm.gtks = 0 ∧ w.sm.igtks = 0
  ptks : w.sm.ftReassocCompleted = false → ∀ call ∈ w.sm.ptkCalls, call.2 = true → call.1 ∈ w.taken.map some
  pending : w.sm.ftReassocCompleted = false → w.sm.setPtkAfterAssoc = true →
    ∀ call ∈ w.sm.ptkCalls, call.2 = true → w.sm.ptkFrom ≠ call.1

/-! ## Steps -/

section

variable (sm : FtStaSm) (out : FtOutput)

theorem FtStaSm.ptkCalls_note : (sm.note out).ptkCalls = out.ptkCall.toList ++ sm.ptkCalls := by
  unfold FtStaSm.ptkCalls FtStaSm.note
  rw [List.filterMap_cons]
  cases out.ptkCall <;> rfl

theorem FtStaSm.gtks_note : (sm.note out).gtks = sm.gtks + if out.isSetGtk then 1 else 0 := by
  unfold FtStaSm.gtks FtStaSm.note
  exact List.countP_cons

theorem FtStaSm.igtks_note : (sm.note out).igtks = sm.igtks + if out.isSetIgtk then 1 else 0 := by
  unfold FtStaSm.igtks FtStaSm.note
  exact List.countP_cons

end

theorem wpaFtGenReqIes_fst (lib : FtLib) (env : FtStaEnv) (sm : FtStaSm) (anonce : Option Bytes)
    (pmkName : Bytes) (kck : Option Bytes) (targetAp : Bytes) (ricIes apMdie : Option Bytes) :
    (wpaFtGenReqIes lib env sm anonce pmkName kck targetAp ricIes apMdie).1 =
      { sm with ftCompleted := false, ftReassocCompleted := false } := by
  unfold wpaFtGenReqIes
  dsimp only
  split
  · rfl
  · split
    · rfl
    · split
      · rfl
      · split <;> rfl

/-- What becomes of the keys when the PTK is to be installed. With a cipher that has no keys the driver is not
asked. -/
structure FtStaSm.PtkTried (sm sm' : FtStaSm) (ok : Bool) : Prop where
  ptkCalls : sm'.ptkCalls = (sm.ptkFrom, ok) :: sm.ptkCalls ∨ ok = false ∧ sm'.ptkCalls = sm.ptkCalls
  gtks : sm'.gtks = sm.gtks
  igtks : sm'.igtks = sm.igtks
  ptkFrom : sm'.ptkFrom = sm.ptkFrom
  ftReassocCompleted : sm'.ftReassocCompleted = sm.ftReassocCompleted
  setPtkAfterAssoc : sm'.setPtkAfterAssoc = sm.setPtkAfterAssoc

theorem wpaFtStaInstallPtk_tried (env : FtStaEnv) (sm : FtStaSm) (bssid : Bytes) :
    sm.PtkTried (wpaFtStaInstallPtk env sm bssid).1 (wpaFtStaInstallPtk env sm bssid).2 := by
  unfold wpaFtStaInstallPtk
  split
  · exact ⟨.inr ⟨rfl, rfl⟩, rfl, rfl, rfl, rfl, rfl⟩
  · exact ⟨.inl (FtStaSm.ptkCalls_note _ _), FtStaSm.gtks_note _ _, FtStaSm.igtks_note _ _, rfl, rfl, rfl⟩

theorem ftResponseInstall_tried (lib : FtLib) (env : FtStaEnv) (mdie : Bytes) (ftAction : Bool)
    (targetAp : Bytes) (ricIes : Option Bytes) (sm : FtStaSm) :
    ∃ ok, { sm with ftReassocCompleted := false, setPtkAfterAssoc := !ok }.PtkTried
      (ftResponseInstall lib env mdie ftAction targetAp ricIes sm) ok := by
  unfold ftResponseInstall
  generalize hgen : wpaFtGenReqIes lib env sm (some sm.anonce) sm.pmkR1Name
    (some (ftKck sm.keyMgmt sm.ptk)) targetAp
    ricIes (some (element eidMobilityDomain mdie)) = gen
  have hfst : gen.1 = { sm with ftCompleted := false, ftReassocCompleted := false } := by
    rw [← hgen]
    exact wpaFtGenReqIes_fst lib env sm _ _ _ _ _ _
  obtain ⟨sm₁, ies⟩ := gen
  cases hfst
  dsimp only
  -- the other outputs are not keys
  generalize hsm : FtStaSm.note (Option.elim ies _ _) _ = sm₂
  have hcalls : sm₂.ptkCalls = sm.ptkCalls := by
    rw [← hsm, FtStaSm.ptkCalls_note]
    cases ies <;> rfl
  have hgtks : sm₂.gtks = sm.gtks := by
    rw [← hsm, FtStaSm.gtks_note]
    cases ies <;> rfl
  have higtks : sm₂.igtks = sm.igtks := by
    rw [← hsm, FtStaSm.igtks_note]
    cases ies <;> rfl
  have hfrom : sm₂.ptkFrom = sm.ptkFrom := by
    rw [← hsm]
    cases ies <;> rfl
  have hreassoc : sm₂.ftReassocCompleted = false := by
    rw [← hsm]
    cases ies <;> rfl
  have htried := wpaFtStaInstallPtk_tried env sm₂ targetAp
  refine ⟨(wpaFtStaInstallPtk env sm₂ targetAp).2, ?_, ?_, ?_, ?_, ?_, rfl⟩
  · rcases htried.ptkCalls with hcons | ⟨hok, hsame⟩
    · exact .inl (hcons.trans (by rw [hcalls, hfrom]; rfl))
    · exact .inr ⟨hok, hsame.trans hcalls⟩
  · exact htried.gtks.trans hgtks
  · exact htried.igtks.trans higtks
  · exact htried.ptkFrom.trans hfrom
  · exact htried.ftReassocCompleted.trans hreassoc

theorem wpaFtProcessResponse_dropped (lib : FtLib) (env : FtStaEnv) (sm : FtStaSm) (ies : Bytes)
    (ftAction : Bool)
    (targetAp : Bytes) (ricIes : Option Bytes) (h : ftResponseInput lib sm ies ftAction targetAp = none) :
    ∃ r1khId anonce pmkR1 pmkR1Name ptk,
      (wpaFtProcessResponse lib env sm ies ftAction targetAp ricIes).1 =
        { sm with r1khId, anonce, pmkR1, pmkR1Name, ptk } := by
  unfold ftResponseInput at h
  unfold wpaFtProcessResponse
  generalize ftResponseChecked sm ies ftAction targetAp = checked at h ⊢
  rcases checked with - | ⟨mdie, anonce, r1khId⟩
  · exact ⟨_, _, _, _, _, rfl⟩
  · dsimp only at h ⊢
    generalize wpaDerivePmkR1 lib sm.pmkR0 sm.pmkR0Name r1khId sm.ownAddr = r1 at h ⊢
    rcases r1 with - | ⟨pmkR1, name⟩
    · exact ⟨_, _, _, _, _, rfl⟩
    · dsimp only at h ⊢
      generalize wpaPmkR1ToPtk lib pmkR1 sm.snonce anonce sm.ownAddr targetAp name sm.keyMgmt
        (some sm.pairwiseCipher) sm.ptk = derived at h ⊢
      rcases derived with ⟨ptk, - | -⟩
      · exact ⟨_, _, _, _, _, rfl⟩
      · cases h

theorem wpaFtProcessResponse_tried (lib : FtLib) (env : FtStaEnv) (sm : FtStaSm) (ies : Bytes) (ftAction : Bool)
    (targetAp : Bytes) (ricIes : Option Bytes) {input : FtPtkInput}
    (h : ftResponseInput lib sm ies ftAction targetAp = some input) :
    ∃ ok, { sm with ptkFrom := some input, ftReassocCompleted := false, setPtkAfterAssoc := !ok }.PtkTried
      (wpaFtProcessResponse lib env sm ies ftAction targetAp ricIes).1 ok := by
  unfold ftResponseInput at h
  unfold wpaFtProcessResponse
  generalize ftResponseChecked sm ies ftAction targetAp = checked at h ⊢
  rcases checked with - | ⟨mdie, anonce, r1khId⟩
  · cases h
  · dsimp only at h ⊢
    generalize wpaDerivePmkR1 lib sm.pmkR0 sm.pmkR0Name r1khId sm.ownAddr = r1 at h ⊢
    rcases r1 with - | ⟨pmkR1, name⟩
    · cases h
    · dsimp only at h ⊢
      generalize wpaPmkR1ToPtk lib pmkR1 sm.snonce anonce sm.ownAddr targetAp name sm.keyMgmt
        (some sm.pairwiseCipher) sm.ptk = derived at h ⊢
      rcases derived with ⟨ptk, - | -⟩
      · cases h
      · cases h
        obtain ⟨ok, htried⟩ := ftResponseInstall_tried lib env mdie ftAction targetAp ricIes
          { sm with r1khId, anonce, pmkR1, pmkR1Name := name, ptk, ptkFrom := some ⟨pmkR1, sm.snonce, anonce⟩ }
        exact ⟨ok, htried.ptkCalls, htried.gtks, htried.igtks, htried.ptkFrom, htried.ftReassocCompleted,
          htried.setPtkAfterAssoc⟩

/-- A group key is given to the driver at most once, and nothing else changes. -/
structure FtStaSm.GroupTried (sm sm' : FtStaSm) (gtk igtk : Nat) : Prop where
  ptkCalls : sm'.ptkCalls = sm.ptkCalls
  gtks : sm'.gtks ≤ sm.gtks + gtk
  igtks : sm'.igtks ≤ sm.igtks + igtk
  ptkFrom : sm'.ptkFrom = sm.ptkFrom
  ftReassocCompleted : sm'.ftReassocCompleted = sm.ftReassocCompleted
  setPtkAfterAssoc : sm'.setPtkAfterAssoc = sm.setPtkAfterAssoc

theorem FtStaSm.GroupTried.refl (sm : FtStaSm) (gtk igtk : Nat) : sm.GroupTried sm gtk igtk :=
  ⟨rfl, Nat.le_add_right _ _, Nat.le_add_right _ _, rfl, rfl, rfl⟩

theorem wpaFtProcessGtkSubelem_tried (wrap : AesKeyWrap) (env : FtStaEnv) (sm : FtStaSm) (elem : Option Bytes) :
    sm.GroupTried (wpaFtProcessGtkSubelem wrap env sm elem).1 1 0 := by
  unfold wpaFtProcessGtkSubelem
  split
  · exact .refl sm 1 0
  · split
    · exact .refl sm 1 0
    · split
      · exact .refl sm 1 0
      · dsimp only
        split
        · exact .refl sm 1 0
        · split
          · exact .refl sm 1 0
          · split
            · exact .refl sm 1 0
            · refine ⟨FtStaSm.ptkCalls_note _ _, ?_, ?_, rfl, rfl, rfl⟩
              · rw [FtStaSm.gtks_note]
                split <;> omega
              · rw [FtStaSm.igtks_note]
                exact Nat.le_refl _

theorem wpaFtProcessIgtkSubelem_tried (wrap : AesKeyWrap) (env : FtStaEnv) (sm : FtStaSm)
    (elem : Option Bytes) :
    sm.GroupTried (wpaFtProcessIgtkSubelem wrap env sm elem).1 0 1 := by
  unfold wpaFtProcessIgtkSubelem
  split
  · exact .refl sm 0 1
  · split
    · exact .refl sm 0 1
    · dsimp only
      split
      · exact .refl sm 0 1
      · split
        · exact .refl sm 0 1
        · split
          · exact .refl sm 0 1
          · refine ⟨FtStaSm.ptkCalls_note _ _, ?_, ?_, rfl, rfl, rfl⟩
            · rw [FtStaSm.gtks_note]
              exact Nat.le_refl _
            · rw [FtStaSm.igtks_note]
              split <;> omega

/-- What a Reassociation Response can do to the keys: each group key once, and a PTK that is to be installed
after the reassociation. -/
structure FtStaSm.Reassociated (sm sm' : FtStaSm) : Prop where
  ptkCalls : sm'.ptkCalls = sm.ptkCalls ∨
    sm.setPtkAfterAssoc = true ∧ ∃ ok, sm'.ptkCalls = (sm.ptkFrom, ok) :: sm.ptkCalls
  gtks : sm'.gtks ≤ sm.gtks + 1
  igtks : sm'.igtks ≤ sm.igtks + 1
  ftReassocCompleted : sm'.ftReassocCompleted = sm.ftReassocCompleted

theorem ftReassocInstall_reassociated (wrap : AesKeyWrap) (env : FtStaEnv) (sm : FtStaSm) (srcAddr : Bytes)
    (parse : WpaFtIes) : sm.Reassociated (ftReassocInstall wrap env sm srcAddr parse).1 := by
  unfold ftReassocInstall
  have hgtk := wpaFtProcessGtkSubelem_tried wrap env sm parse.gtk
  generalize wpaFtProcessGtkSubelem wrap env sm parse.gtk = g at hgtk ⊢
  obtain ⟨sm₁, - | -⟩ := g
  · exact ⟨.inl hgtk.ptkCalls, hgtk.gtks, Nat.le_succ_of_le hgtk.igtks, hgtk.ftReassocCompleted⟩
  · have higtk := wpaFtProcessIgtkSubelem_tried wrap env sm₁ parse.igtk
    dsimp only
    generalize wpaFtProcessIgtkSubelem wrap env sm₁ parse.igtk = i at higtk ⊢
    obtain ⟨sm₂, ok⟩ := i
    have hcalls : sm₂.ptkCalls = sm.ptkCalls := higtk.ptkCalls.trans hgtk.ptkCalls
    have hgtks : sm₂.gtks ≤ sm.gtks + 1 := Nat.le_trans higtk.gtks hgtk.gtks
    have higtks : sm₂.igtks ≤ sm.igtks + 1 := by
      have h₁ := higtk.igtks
      have h₂ := hgtk.igtks
      dsimp only at h₁ h₂
      omega
    have hreassoc : sm₂.ftReassocCompleted = sm.ftReassocCompleted :=
      higtk.ftReassocCompleted.trans hgtk.ftReassocCompleted
    have hafter : sm₂.setPtkAfterAssoc = sm.setPtkAfterAssoc :=
      higtk.setPtkAfterAssoc.trans hgtk.setPtkAfterAssoc
    have hfrom : sm₂.ptkFrom = sm.ptkFrom := higtk.ptkFrom.trans hgtk.ptkFrom
    cases ok with
    | false => exact ⟨.inl hcalls, hgtks, higtks, hreassoc⟩
    | true =>
      dsimp only
      split
      · exact ⟨.inl hcalls, hgtks, higtks, hreassoc⟩
      · rename_i hset
        have htried := wpaFtStaInstallPtk_tried env sm₂ srcAddr
        generalize wpaFtStaInstallPtk env sm₂ srcAddr = t at htried ⊢
        have hptk : t.1.ptkCalls = sm.ptkCalls ∨
            sm.setPtkAfterAssoc = true ∧ ∃ ok, t.1.ptkCalls = (sm.ptkFrom, ok) :: sm.ptkCalls := by
          rcases htried.ptkCalls with hcons | ⟨-, hsame⟩
          · exact .inr ⟨hafter.symm.trans (not_not.1 hset), _, hcons.trans (by rw [hcalls, hfrom])⟩
          · exact .inl (hsame.trans hcalls)
        have hall : sm.Reassociated t.1 :=
          ⟨hptk, htried.gtks ▸ hgtks, htried.igtks ▸ higtks, htried.ftReassocCompleted.trans hreassoc⟩
        obtain ⟨sm₃, - | -⟩ := t
        · exact hall
        · exact ⟨hall.ptkCalls, hall.gtks, hall.igtks, hall.ftReassocCompleted⟩

theorem wpaFtValidateReassocResp_cases (lib : FtLib) (wrap : AesKeyWrap) (env : FtStaEnv) (sm : FtStaSm)
    (ies srcAddr : Bytes) :
    (wpaFtValidateReassocResp lib wrap env sm ies srcAddr).1 = sm ∨
      sm.ftReassocCompleted = false ∧
        { sm with ftReassocCompleted := true }.Reassociated
          (wpaFtValidateReassocResp lib wrap env sm ies srcAddr).1 := by
  unfold wpaFtValidateReassocResp
  split
  · exact .inl rfl
  · split
    · exact .inl rfl
    · rename_i hcompleted
      split
      · exact .inl rfl
      · rename_i parse hparse
        split
        · exact .inl rfl
        · exact .inr ⟨Bool.eq_false_iff.2 hcompleted, ftReassocInstall_reassociated wrap env _ srcAddr parse⟩

/-! ## Runs without repeated responses -/

section Run

variable {lib : FtLib} {wrap : AesKeyWrap}

theorem ftStaStart_inv (lib : FtLib) (env : FtStaEnv) (sm : FtStaSm) (mdie : Option Bytes) :
    (ftStaStart lib env sm mdie).Inv where
  once := ⟨List.Pairwise.nil, Nat.zero_le _, Nat.zero_le _⟩
  groups _ := ⟨rfl, rfl⟩
  ptks _ _ h := by cases h
  pending _ _ _ h := by cases h

theorem ftSta_response_inv {w : FtSta} (hinv : w.Inv) (ies : Bytes) (ftAction : Bool) (targetAp : Bytes)
    (ricIes : Option Bytes) (env : FtStaEnv)
    (hfresh : FtFresh lib w (.response ies ftAction targetAp ricIes env)) :
    FtSta.Inv { sm := (wpaFtProcessResponse lib env w.sm ies ftAction targetAp ricIes).1
                taken := (ftResponseInput lib w.sm ies ftAction targetAp).toList ++ w.taken } := by
  cases hinput : ftResponseInput lib w.sm ies ftAction targetAp with
  | none =>
    obtain ⟨r1khId, anonce, pmkR1, pmkR1Name, ptk, hsm⟩ :=
      wpaFtProcessResponse_dropped lib env w.sm ies ftAction targetAp ricIes hinput
    rw [hsm]
    exact ⟨⟨hinv.once.ptks, hinv.once.gtks, hinv.once.igtks⟩, hinv.groups, hinv.ptks, hinv.pending⟩
  | some input =>
    obtain ⟨hcompleted, hnew⟩ := hfresh input hinput
    obtain ⟨ok, htried⟩ := wpaFtProcessResponse_tried lib env w.sm ies ftAction targetAp ricIes hinput
    obtain ⟨hgtks, higtks⟩ := hinv.groups hcompleted
    have htaken := hinv.ptks hcompleted
    have hnot : ∀ call ∈ w.sm.ptkCalls, call.2 = true → some input ≠ call.1 := by
      intro call hcall hok heq
      obtain ⟨i, hi, hsome⟩ := List.mem_map.1 (htaken call hcall hok)
      rw [← hsome, Option.some.injEq] at heq
      exact hnew (heq ▸ hi)
    generalize wpaFtProcessResponse lib env w.sm ies ftAction targetAp ricIes = r at htried ⊢
    have hg : r.1.gtks = 0 := htried.gtks.trans hgtks
    have hi : r.1.igtks = 0 := htried.igtks.trans higtks
    have hcalls : r.1.ptkCalls = (some input, ok) :: w.sm.ptkCalls ∨ ok = false ∧ r.1.ptkCalls =
      w.sm.ptkCalls :=
      htried.ptkCalls
    refine ⟨⟨?_, hg ▸ Nat.zero_le 1, hi ▸ Nat.zero_le 1⟩, fun _ => ⟨hg, hi⟩, fun _ call hcall hok => ?_,
      fun _ hafter call hcall hok => ?_⟩
    · show r.1.ptkCalls.Pairwise _
      rcases hcalls with hcons | ⟨-, hsame⟩
      · rw [hcons]
        exact List.pairwise_cons.2 ⟨hnot, hinv.once.ptks⟩
      · rw [hsame]
        exact hinv.once.ptks
    · show call.1 ∈ (input :: w.taken).map some
      rw [List.map_cons]
      rcases hcalls with hcons | ⟨-, hsame⟩
      · rcases List.mem_cons.1 (hcons ▸ hcall : call ∈ (some input, ok) :: w.sm.ptkCalls) with rfl | hold
        · exact List.mem_cons_self
        · exact List.mem_cons_of_mem _ (htaken call hold hok)
      · exact List.mem_cons_of_mem _ (htaken call (hsame ▸ hcall) hok)
    · show r.1.ptkFrom ≠ call.1
      rw [htried.ptkFrom]
      -- the driver has not taken the PTK of this response, or it would not be pending
      have hnotOk : ok = false := by
        have hset : r.1.setPtkAfterAssoc = !ok := htried.setPtkAfterAssoc
        rw [show r.1.setPtkAfterAssoc = true from hafter] at hset
        cases ok with
        | true => cases hset
        | false => rfl
      rcases hcalls with hcons | ⟨-, hsame⟩
      · rcases List.mem_cons.1 (hcons ▸ hcall : call ∈ (some input, ok) :: w.sm.ptkCalls) with rfl | hold
        · exact absurd (hnotOk.symm.trans hok) (by decide)
        · exact hnot call hold hok
      · exact hnot call (hsame ▸ hcall) hok

theorem ftSta_reassocResp_inv {w : FtSta} (hinv : w.Inv) (ies srcAddr : Bytes) (env : FtStaEnv) :
    FtSta.Inv { w with sm := (wpaFtValidateReassocResp lib wrap env w.sm ies srcAddr).1 } := by
  rcases wpaFtValidateReassocResp_cases lib wrap env w.sm ies srcAddr with hsame | ⟨hcompleted, hre⟩
  · rw [hsame]
    exact hinv
  · obtain ⟨hgtks, higtks⟩ := hinv.groups hcompleted
    have hdone : (wpaFtValidateReassocResp lib wrap env w.sm ies srcAddr).1.ftReassocCompleted = true :=
      hre.ftReassocCompleted
    have hg : (wpaFtValidateReassocResp lib wrap env w.sm ies srcAddr).1.gtks ≤ 0 + 1 := hgtks ▸ hre.gtks
    have hi : (wpaFtValidateReassocResp lib wrap env w.sm ies srcAddr).1.igtks ≤ 0 + 1 := higtks ▸ hre.igtks
    refine ⟨⟨?_, hg, hi⟩, fun h => ?_, fun h => ?_, fun h => ?_⟩
    · show (wpaFtValidateReassocResp lib wrap env w.sm ies srcAddr).1.ptkCalls.Pairwise _
      rcases hre.ptkCalls with hsame | ⟨hafter, ok, hcons⟩
      · rw [hsame]
        exact hinv.once.ptks
      · rw [hcons]
        exact List.pairwise_cons.2 ⟨hinv.pending hcompleted hafter, hinv.once.ptks⟩
    all_goals exact absurd (hdone.symm.trans h) (by decide)

end Run

/-! ## A repeated response -/

def smallKeyWrap : AesKeyWrap where
  aesWrap key data := some (smallMac 8 key data ++ data)
  aesUnwrap key data :=
    if 8 ≤ data.length ∧ data.take 8 = smallMac 8 key (data.drop 8) then some (data.drop 8) else none
  aesWrap_length key data out h := by
    cases h
    simp [smallMac]
    omega
  aesUnwrap_length key data out h := by
    split at h
    · rename_i hlen
      cases h
      rw [List.length_drop]
      omega
    · cases h

def smallFtStaSm : FtStaSm where
  keyMgmt := .ftIeee8021x
  pairwiseCipher := .ccmp
  groupCipher := .ccmp
  mgmtGroupCipher := .aes128Cmac
  ownAddr := smallFtSta
  bssid := [2, 0, 0, 0, 0, 2]
  mobilityDomain := [1, 1]
  mdieFtCapab := 0
  r0khId := [0x71]
  r1khId := zeros 6
  pmkR0 := List.replicate 32 4
  pmkR0Name := List.replicate 16 1
  pmkR1 := []
  pmkR1Name := zeros 16
  snonce := zeros 32
  anonce := zeros 32
  ptk := {}
  ptkFrom := none
  targetAp := zeros 6
  ftCompleted := false
  ftReassocCompleted := false
  overTheDsInProgress := false
  setPtkAfterAssoc := false
  outputs := []

def smallFtResponse (anonce : UInt8) : FtStaEvent :=
  .response (smallFtIes (List.replicate 16 1) (smallFtie 0 (zeros 16) (smallNonce anonce) (smallNonce 2))) false
    smallFtConf.addr none {}

def smallFtApPtk (anonce : UInt8) : FtPtk :=
  (wpaPmkR1ToPtk smallFtLib (smallMac 32 (List.replicate 32 4) (smallFtConf.r1KeyHolder ++ smallFtSta))
    (smallNonce 2) (smallNonce anonce) smallFtSta smallFtConf.addr smallPmkR1Name .ftIeee8021x (some .ccmp)
    {}).1

def smallFtReassocResp (anonce : UInt8) : FtStaEvent :=
  let kek := ftKek .ftIeee8021x (smallFtApPtk anonce)
  let wrapped := smallMac 8 kek (List.replicate 16 7) ++ List.replicate 16 7
  let ftie (mic : Bytes) := smallFtie 3 mic (smallNonce anonce) (smallNonce 2) ++
    [2, 35] ++ [1, 0, 16] ++ zeros 8 ++ wrapped ++ [4, 33] ++ [4, 0] ++ zeros 6 ++ [16] ++ wrapped
  let mic := (wpaFtMic smallFtLib (ftKck .ftIeee8021x (smallFtApPtk anonce)) smallFtSta smallFtConf.addr 6
    (element eidMobilityDomain [1, 1, 0]) (element eidFastBssTransition (ftie (zeros 16)))
    (element eidRsn (smallFtRsn smallPmkR1Name)) none).getD []
  .reassocResp (smallFtIes smallPmkR1Name (ftie mic)) smallFtConf.addr {}

def smallFtStart : FtSta := ftStaStart smallFtLib { random := some (smallNonce 2) } smallFtStaSm none

end Hostap
