import Hostap.Eap.ServerInv

/-!
# The states of the EAP server

What each `SM_STATE` of the machine does to what the invariant is about. `Good` is what a step comes to: the
invariant holds after it, and if it raised `eapSuccess` it did so for one of the reasons that `Raised`
lists.
-/

namespace Hostap

namespace EapServer

open Octets Erp List

variable {π : Type}

/-! ## What the functions of the machine do -/

/-- A view without what `PROPOSE_METHOD` writes. -/
def View.apart (v : View π) : View π :=
  { v with m := none, currentMethod := typeNone, log := [], methodState := .proposed, decision := .success }

theorem View.of_apart {v w : View π} (h : v.apart = w.apart) :
    v = { w with
      m := v.m, currentMethod := v.currentMethod, log := v.log, methodState := v.methodState
      decision := v.decision } := by
  cases v
  cases w
  simp only [View.apart, View.mk.injEq] at h ⊢
  simp only [h, and_self]

namespace Sm

/-- What the parser of a packet establishes. -/
structure Parsed (sm sm' : Sm π) : Prop where
  view : sm'.view =
    { sm.view with rxResp := sm'.rxResp, rxInitiate := sm'.rxInitiate, respId := sm'.respId }
  eapSuccess : sm'.eapSuccess = sm.eapSuccess
  changed : sm'.changed = sm.changed
  respId : sm'.rxResp = true → sm'.respId = some ((sm.eapRespData.getD []).getD 1 0)
  initiate : sm'.rxInitiate = true → (sm.eapRespData.getD []).getD 0 0 = codeInitiate

theorem parseEapResp_parsed (sm : Sm π) : Parsed sm (parseEapResp sm) := by
  unfold parseEapResp
  dsimp only
  split
  · exact ⟨rfl, rfl, rfl, nofun, nofun⟩
  · have hinit : ∀ code : UInt8, (code != codeResponse && code == codeInitiate) = true → code =
      codeInitiate := by
      intro code h
      rw [Bool.and_eq_true, beq_iff_eq] at h
      exact h.2
    split
    · exact ⟨rfl, rfl, rfl, fun _ => rfl, hinit _⟩
    · split
      · exact ⟨rfl, rfl, rfl, fun _ => rfl, hinit _⟩
      · exact ⟨rfl, rfl, rfl, fun _ => rfl, hinit _⟩

/-- What a decision is about. -/
structure Decides (sm : Sm π) (r : Decision × Sm π) : Prop where
  view : r.2.view = { sm.view with startReauth := r.2.startReauth }
  eapSuccess : r.2.eapSuccess = sm.eapSuccess
  changed : r.2.changed = sm.changed
  success : r.1 = .success → ∃ s, sm.view.Working s ∧ s.method.isSuccess s.priv = true
  finished : ∀ s, sm.view.Working s → s.method.isDone s.priv = true →
    r.1 = .success ∨ r.1 = .failure ∨ r.1 = .passthrough
  startReauth : (sm.startReauth = true → sm.m = none) → r.2.startReauth = false
  continues : sm.conf.eapServer = false → (sm.startReauth = true → sm.currentId = none) → r.1 = .continue →
    sm.view.asksIdentity = true

/-- What looking up the user again leaves alone. -/
structure LooksUp (sm : Sm π) (r : Option Decision × Sm π) : Prop where
  view : r.2.view = sm.view
  eapSuccess : r.2.eapSuccess = sm.eapSuccess
  changed : r.2.changed = sm.changed
  failure : r.1 = none ∨ (r.1 = some .failure ∧ sm.startReauth = false)

theorem lookUpUser_looksUp (lib : EapServerLib π) (sm : Sm π) : LooksUp sm (sm.lookUpUser lib) := by
  unfold lookUpUser
  split
  · rename_i hlook
    have hstart : sm.startReauth = false := by simpa using hlook.2.2
    split
    · exact ⟨rfl, rfl, rfl, Or.inr ⟨rfl, hstart⟩⟩
    · dsimp only
      split
      · exact ⟨rfl, rfl, rfl, Or.inr ⟨rfl, hstart⟩⟩
      · exact ⟨rfl, rfl, rfl, Or.inl rfl⟩
  · exact ⟨rfl, rfl, rfl, Or.inl rfl⟩

theorem getDecision_decides (lib : EapServerLib π) (sm : Sm π) : Decides sm (sm.getDecision lib) := by
  unfold getDecision
  split
  · rename_i hpass
    have hstart : sm.startReauth = false := by simpa using hpass.2.2
    exact ⟨rfl, rfl, rfl, nofun, fun _ _ _ => Or.inr (Or.inr rfl), fun _ => hstart,
      nofun⟩
  rename_i hpass
  split
  · rename_i hsucc
    obtain ⟨hid, hany⟩ := hsucc
    obtain ⟨s, hs, hsuccess⟩ := (Option.any_eq_true _ _).mp hany
    refine ⟨rfl, rfl, rfl, fun _ => ⟨s, ⟨hs, hid⟩, hsuccess⟩, fun _ _ _ => Or.inl rfl, fun hstart => ?_,
      nofun⟩
    by_contra hne
    have hm := hstart (Bool.eq_true_of_not_eq_false hne)
    rw [hm] at hs
    cases hs
  rename_i hsucc
  split
  · rename_i hfail
    obtain ⟨s, hs, _⟩ := (Option.any_eq_true _ _).mp hfail
    refine ⟨rfl, rfl, rfl, nofun, fun _ _ _ => Or.inr (Or.inl rfl), fun hstart => ?_,
      nofun⟩
    by_contra hne
    have hm := hstart (Bool.eq_true_of_not_eq_false hne)
    rw [hm] at hs
    cases hs
  rename_i hfail
  -- a method that is done was decided on above
  have hfin : ∀ s, sm.view.Working s → ¬ s.method.isDone s.priv = true := by
    intro s hs hdone
    have hm : sm.m = some s := hs.1
    rw [hm] at hsucc hfail
    have hnot : ¬ s.method.isSuccess s.priv = true := fun hsuccess => hsucc ⟨hs.2, hsuccess⟩
    apply hfail
    rw [Option.any_some, hdone, Bool.eq_false_of_not_eq_true hnot]
    rfl
  have hlook := lookUpUser_looksUp lib sm
  generalize lookUpUser lib sm = r at hlook
  obtain ⟨decision, sm₁⟩ := r
  obtain ⟨hview, heap, hchanged, hfailure⟩ := hlook
  cases decision with
  | some decision =>
    rcases hfailure with hfailure | ⟨hfailure, hstart⟩
    · cases hfailure
    · cases hfailure
      have hstart₁ : sm₁.startReauth = false := (congrArg View.startReauth hview).trans hstart
      refine ⟨?_, heap, hchanged, nofun, fun s hs hdone => absurd hdone (hfin s hs),
        fun _ => hstart₁, nofun⟩
      show sm₁.view = { sm.view with startReauth := sm₁.startReauth }
      rw [← hview]
      rfl
  | none =>
    dsimp only at hview heap hchanged ⊢
    have hview' : ({ sm₁ with startReauth := false } : Sm π).view = { sm.view with startReauth := false } := by
      rw [← hview]
      rfl
    have hident : sm₁.identity = sm.identity := congrArg View.identity hview
    -- the machine is not asked to go on with a known identity unless a re-authentication starts
    have hasks : sm.conf.eapServer = false → (sm.startReauth = true → sm.currentId = none) →
        sm.view.asksIdentity = true := by
      intro hserver hstart
      show (sm.identity.isNone || sm.currentId.isNone) = true
      cases hid : sm.identity with
      | none => rfl
      | some identity =>
        have ht : sm.startReauth = true := by
          by_contra hne
          apply hpass
          rw [hserver, hid, Bool.eq_false_of_not_eq_true hne]
          exact ⟨rfl, rfl, rfl⟩
        rw [hstart ht]
        rfl
    split
    · exact ⟨hview', heap, hchanged, nofun, fun s hs hdone => absurd hdone (hfin s hs),
        fun _ => rfl, fun hserver hstart _ => hasks hserver hstart⟩
    · split
      · exact ⟨hview', heap, hchanged, nofun, fun s hs hdone => absurd hdone (hfin s hs),
          fun _ => rfl, nofun⟩
      · split
        · exact ⟨hview', heap, hchanged, nofun, fun s hs hdone => absurd hdone (hfin s hs),
            fun _ => rfl, fun hserver hstart _ => hasks hserver hstart⟩
        · exact ⟨hview', heap, hchanged, nofun, fun s hs hdone => absurd hdone (hfin s hs),
            fun _ => rfl, nofun⟩

/-- What proposing a method does. -/
structure Proposes (sm sm' : Sm π) : Prop where
  view : sm'.view.apart = sm.view.apart
  eapSuccess : sm'.eapSuccess = sm.eapSuccess
  changed : sm'.changed = sm.changed
  selected : ∀ s, sm'.m = some s → sm'.currentMethod = methodType s.method.id ∧
    (sm'.currentMethod ≠ typeIdentity → sm.view.asksIdentity = false ∧ Chosen s.method.id sm'.log)

end Sm

theorem MethodTable.get_id {t : MethodTable π} {id : MethodId} {m : EapMethod π}
    (h : t.get id = some m) : m.id = id := by
  have hm := find?_some h
  exact beq_iff_eq.mp hm

theorem MethodTable.get_none (t : MethodTable π) : t.get (vendorIetf, typeNone) = none := by
  unfold MethodTable.get
  rw [find?_eq_none]
  intro m hm heq
  exact t.typed m hm (beq_iff_eq.mp heq)

namespace Sm

/-- What the next method is. -/
structure Next (sm : Sm π) (r : MethodId × Sm π) : Prop where
  view : r.2.view = { sm.view with log := r.2.log }
  eapSuccess : r.2.eapSuccess = sm.eapSuccess
  changed : r.2.changed = sm.changed
  chosen : r.1 = (vendorIetf, typeIdentity) ∨ r.1 = (vendorIetf, typeNone) ∨
    sm.view.asksIdentity = false ∧ Chosen r.1 r.2.log

theorem getNextMethod_next (sm : Sm π) : Next sm sm.getNextMethod := by
  unfold getNextMethod
  split
  · exact ⟨rfl, rfl, rfl, Or.inl rfl⟩
  · rename_i hasks
    split
    · exact ⟨rfl, rfl, rfl, Or.inr (Or.inr ⟨Bool.eq_false_of_not_eq_true hasks, _, _, rfl, rfl⟩)⟩
    · exact ⟨rfl, rfl, rfl, Or.inr (Or.inl rfl)⟩

theorem proposeLoop_proposes (lib : EapServerLib π) {fuel : Nat} {sm sm' : Sm π}
    (h : proposeLoop lib fuel sm = .ok sm') : Proposes sm sm' := by
  induction fuel generalizing sm with
  | zero => cases h
  | succ fuel ih =>
    rw [proposeLoop] at h
    have hnext := getNextMethod_next sm
    generalize getNextMethod sm = r at h hnext
    obtain ⟨id, sm₁⟩ := r
    obtain ⟨hview, heap, hchanged, hchosen⟩ := hnext
    dsimp only at h hview heap hchanged hchosen
    have hapart : sm₁.view.apart = sm.view.apart := by
      rw [hview]
      rfl
    split at h
    · cases h
      exact ⟨hapart, heap, hchanged, fun s hs => by cases hs⟩
    · rename_i method hget
      have hid := MethodTable.get_id hget
      split at h
      · have ih := ih h
        refine ⟨ih.view.trans hapart, ih.eapSuccess.trans heap, ih.changed.trans hchanged,
          fun s hs => ?_⟩
        obtain ⟨htype, hsel⟩ := ih.selected s hs
        refine ⟨htype, fun hne => ?_⟩
        obtain ⟨hasks, hch⟩ := hsel hne
        refine ⟨?_, hch⟩
        rw [← hasks]
        show sm.view.asksIdentity = sm₁.view.asksIdentity
        rw [hview]
        rfl
      · cases h
        refine ⟨hapart, heap, hchanged, fun s hs => ?_⟩
        cases hs
        refine ⟨by rw [hid], fun hne => ?_⟩
        rcases hchosen with rfl | rfl | hch
        · exact absurd rfl hne
        · rw [MethodTable.get_none] at hget
          cases hget
        · rw [hid]
          exact hch

end Sm

/-! ## What raises `eapSuccess` -/

/-- A packet is an EAP-Initiate/Re-auth with a tag that verifies under the rIK of a stored key and a
sequence number that is larger than all that were accepted with the key. -/
structure Reauthenticates (lib : ErpLib) (sm : Sm π) (erp : ErpServerKey) (r : Reauth) : Prop where
  stored : erp ∈ sm.erpKeys
  named : erp.keynameNai = naiString r.keyname
  code : (sm.eapRespData.getD []).getD 0 0 = codeInitiate
  parsed : parseReauth sm.eapRespData = some r
  tagged : ∃ cryptosuite hashLen, Sm.hashLenOf cryptosuite = some hashLen ∧
    Tagged lib erp.rIK cryptosuite hashLen r.frame
  fresh : ∀ seq ∈ erp.accepted, seq < r.seq

/-- What a step that raises `eapSuccess` stands for. -/
inductive Raised (lib : EapServerLib π) (sm sm' : Sm π) : Prop
  /-- A method, and its key. -/
  | method (s : Selected π) : sm.m = some s → s.method.id ≠ (vendorIetf, typeIdentity) →
      Answered s.method.id sm.log → s.method.isSuccess s.priv = true →
      (sm'.eapKeyAvailable = true →
        ∃ key, lastDone sm.log = some (s.method.id, some key) ∧ sm'.eapKeyData = some key) →
      Raised lib sm sm'
  /-- The AAA server, and the key of its result. -/
  | aaa (key : Option Bytes) : sm.state = .aaaIdle → lastAaaSuccess sm.log = some key →
      (sm'.eapKeyAvailable = true → key.isSome = true ∧ sm'.eapKeyData = key) → Raised lib sm sm'
  /-- A re-authentication, and its rMSK. -/
  | erp (erp : ErpServerKey) (r : Reauth) : Reauthenticates lib.erp sm erp r →
      sm'.eapKeyData = some (rMSK lib.erp erp.rRK r.seq) → Raised lib sm sm'

/-- What every step comes to. -/
structure Good (lib : EapServerLib π) (sm sm' : Sm π) : Prop where
  inv : sm'.view.Inv
  settled : sm'.state.parsing = true → sm'.changed = true
  raised : sm'.eapSuccess = true → sm.eapSuccess = true ∨ Raised lib sm sm'

variable {lib : EapServerLib π} {sm sm' : Sm π}

theorem Good.of_inv (hinv : sm'.view.Inv) (hstate : sm'.state.parsing = false)
    (hsucc : sm'.eapSuccess = sm.eapSuccess) : Good lib sm sm' where
  inv := hinv
  settled := fun hst => by
    rw [hstate] at hst
    cases hst
  raised := fun hs => Or.inl (hsucc ▸ hs)

theorem Good.rests (h : sm.view.Inv) (r : View.Rests sm.view sm'.view)
    (hsucc : sm'.eapSuccess = sm.eapSuccess) :
    Good lib sm sm' :=
  Good.of_inv (h.rests r) (View.not_parsing r.busy) hsucc

theorem Good.move (h : sm.view.Inv) (hcalm : sm.view.Calm)
    (hview : sm'.view = { sm.view with state := sm'.state })
    (hbusy : sm'.state.busy = false) (hbare : sm'.state.bare = false)
    (hawaiting : sm'.state.awaiting = true → sm.state.awaiting = true ∨ sm.state.bare = true)
    (hsucc : sm'.eapSuccess = sm.eapSuccess) : Good lib sm sm' := by
  have hinv : sm'.view.Inv := by
    rw [hview]
    refine h.move hcalm hbusy (fun hb => ?_) fun ha s hs => ?_
    · rw [hbare] at hb
      cases hb
    · have hw := h.works s hs
      rcases hawaiting ha with ha | hb
      · exact hw.awaiting ha
      · have hb' : sm.state.bare = false := hw.allowed
        rw [hb'] at hb
        cases hb
  exact Good.of_inv hinv (View.not_parsing hbusy) hsucc

/-! ## Re-authentication -/

theorem erpGetKey_mem {keys : List ErpServerKey} {keyname : Bytes} {erp : ErpServerKey}
    (h : erpGetKey keys keyname = some erp) : erp ∈ keys ∧ erp.keynameNai = keyname := by
  unfold erpGetKey at h
  have hname := find?_some h
  exact ⟨mem_of_find?_eq_some h, beq_iff_eq.mp hname⟩

theorem erpUpdateKey_bounded {keys : List ErpServerKey} {keyname : Bytes} {f : ErpServerKey → ErpServerKey}
    (h : ∀ erp ∈ keys, erp.Bounded) (hf : ∀ erp, erpGetKey keys keyname = some erp → (f erp).Bounded) :
    ∀ erp ∈ erpUpdateKey keyname f keys, erp.Bounded := by
  induction keys with
  | nil => exact h
  | cons key keys ih =>
    rw [erpUpdateKey]
    unfold erpGetKey at hf
    rw [find?_cons] at hf
    by_cases hname : (key.keynameNai == keyname) = true
    · rw [hname] at hf
      rw [if_pos hname]
      intro erp herp
      rcases mem_cons.mp herp with rfl | herp
      · exact hf key rfl
      · exact h erp (mem_cons_of_mem _ herp)
    · rw [Bool.eq_false_of_not_eq_true hname] at hf
      rw [if_neg hname]
      intro erp herp
      rcases mem_cons.mp herp with rfl | herp
      · exact h erp mem_cons_self
      · exact ih (fun erp herp => h erp (mem_cons_of_mem _ herp)) hf erp herp

theorem erpGetKey_erpUpdateKey {keys : List ErpServerKey} {keyname : Bytes} {f : ErpServerKey → ErpServerKey}
    (hf : ∀ erp, (f erp).keynameNai = erp.keynameNai) :
    erpGetKey (erpUpdateKey keyname f keys) keyname = (erpGetKey keys keyname).map f := by
  induction keys with
  | nil => rfl
  | cons key keys ih =>
    rw [erpUpdateKey]
    unfold erpGetKey at ih ⊢
    rw [find?_cons]
    by_cases hname : (key.keynameNai == keyname) = true
    · rw [if_pos hname, hname, find?_cons, hf, hname]
      rfl
    · rw [if_neg hname, Bool.eq_false_of_not_eq_true hname, find?_cons, Bool.eq_false_of_not_eq_true hname]
      exact ih

theorem ErpServerKey.Bounded.fresh {erp : ErpServerKey} (h : erp.Bounded) {seq : Nat}
    (hseq : ¬ (erp.recvSeq.any fun recvSeq => seq ≤ recvSeq) = true) : ∀ s ∈ erp.accepted, s < seq := by
  intro s hs
  obtain ⟨recvSeq, hrecv, hle⟩ := h s hs
  rw [hrecv, Option.any_some, decide_eq_true_iff] at hseq
  omega

theorem ErpServerKey.Bounded.accept {erp : ErpServerKey} (h : erp.Bounded) {seq : Nat}
    (hseq : ¬ (erp.recvSeq.any fun recvSeq => seq ≤ recvSeq) = true) : (erp.accept seq).Bounded := by
  intro s hs
  refine ⟨seq, rfl, ?_⟩
  rcases mem_cons.mp hs with rfl | hs
  · exact Nat.le_refl _
  · exact Nat.le_of_lt (h.fresh hseq s hs)

theorem verifyTag_tagged {lib : ErpLib} {erp : ErpServerKey} {r : Reauth} {hashLen : Nat} {cryptosuite : UInt8}
    (hroom : r.afterKeyname.length ≤ r.frame.length) (h : verifyTag lib erp r = some (hashLen, cryptosuite)) :
    Sm.hashLenOf cryptosuite = some hashLen ∧ Tagged lib erp.rIK cryptosuite hashLen r.frame := by
  unfold verifyTag at h
  dsimp only at h
  by_cases hlen : r.afterKeyname.length < 1 + (if erp.cryptosuite = csHmacSha256256 then 32 else 16)
  · rw [if_pos hlen] at h
    cases h
  rw [if_neg hlen] at h
  by_cases hsuite : erp.cryptosuite = csHmacSha256256
  · rw [if_pos hsuite] at h hlen
    split at h
    · rename_i hok
      cases h
      exact ⟨rfl, tagged_iff.mpr ⟨by omega, hok⟩⟩
    · cases h
  · rw [if_neg hsuite] at h hlen
    split at h
    · split at h
      · rename_i hok
        cases h
        exact ⟨rfl, tagged_iff.mpr ⟨by omega, hok⟩⟩
      · cases h
    · split at h
      · rename_i hok
        cases h
        exact ⟨rfl, tagged_iff.mpr ⟨by omega, hok.2⟩⟩
      · split at h
        · rename_i hok
          cases h
          exact ⟨rfl, tagged_iff.mpr ⟨by omega, hok⟩⟩
        · cases h

theorem parseReauth_room {resp : Option Bytes} {r : Reauth} (h : parseReauth resp = some r) :
    r.afterKeyname.length ≤ r.frame.length := by
  unfold parseReauth at h
  simp only [Option.bind_eq_bind, Option.bind_eq_some_iff] at h
  obtain ⟨off, _, _, _, parse, hparse, keyname, _, _, _, h⟩ := h
  cases h
  refine erpParseTlvs_room hparse ?_ (Nat.zero_le _)
  rw [length_drop]
  exact Nat.sub_le _ _

namespace Sm

/-- What sending an EAP-Finish/Re-auth does. -/
structure Finishes (lib : ErpLib) (erp : Option ErpServerKey) (seq : Nat) (sm sm' : Sm π) : Prop where
  view : sm'.view =
    { sm.view with
      currentId := sm'.currentId, eapKeyData := sm'.eapKeyData, eapKeyAvailable := sm'.eapKeyAvailable }
  eapSuccess : sm'.eapSuccess = true → sm.eapSuccess = true ∨
    ∃ key, erp = some key ∧ sm'.eapKeyData = some (Erp.rMSK lib key.rRK seq)

theorem erpSendFinishReauth_finishes (lib : ErpLib) (sm : Sm π) (erp : Option ErpServerKey) (id flags : UInt8)
    (seq : Nat) (nai : Bytes) : Finishes lib erp seq sm (sm.erpSendFinishReauth lib erp id flags seq nai) := by
  unfold erpSendFinishReauth
  split
  · exact ⟨rfl, Or.inl⟩
  · dsimp only
    split
    · exact ⟨rfl, Or.inl⟩
    · split
      · exact ⟨rfl, Or.inl⟩
      · exact ⟨rfl, fun _ => Or.inr ⟨_, rfl, rfl⟩⟩

/-- What serving an EAP-Initiate/Re-auth does. -/
structure Serves (lib : ErpLib) (r : Reauth) (sm sm' : Sm π) : Prop where
  view : sm'.view =
    { sm.view with
      currentId := sm'.currentId, eapKeyData := sm'.eapKeyData, eapKeyAvailable := sm'.eapKeyAvailable
      ignore := sm'.ignore, erpKeys := sm'.erpKeys }
  bounded : (∀ erp ∈ sm.erpKeys, erp.Bounded) → ∀ erp ∈ sm'.erpKeys, erp.Bounded
  eapSuccess : (∀ erp ∈ sm.erpKeys, erp.Bounded) → sm'.eapSuccess = true → sm.eapSuccess = true ∨
    ∃ erp ∈ sm.erpKeys, erp.keynameNai = naiString r.keyname ∧
      (∃ cryptosuite hashLen, hashLenOf cryptosuite = some hashLen ∧
        Tagged lib erp.rIK cryptosuite hashLen r.frame) ∧
      (∀ seq ∈ erp.accepted, seq < r.seq) ∧ sm'.eapKeyData = some (Erp.rMSK lib erp.rRK r.seq)

theorem initiateServe_serves (lib : ErpLib) (sm : Sm π) {r : Reauth}
    (hroom : r.afterKeyname.length ≤ r.frame.length) :
    Serves lib r sm (sm.initiateServe lib r) := by
  unfold initiateServe
  dsimp only
  generalize (sm.eapRespData.getD []).getD 1 0 = id
  split
  · -- no key of this name: the failure is sent without a tag
    have hfin := erpSendFinishReauth_finishes lib sm none id 0x80 r.seq (naiString r.keyname)
    generalize sm.erpSendFinishReauth lib none _ _ _ _ = sm₁ at hfin
    obtain ⟨hview, hsucc⟩ := hfin
    have hkeys : sm₁.erpKeys = sm.erpKeys := congrArg View.erpKeys hview
    have hignore : sm₁.ignore = sm.ignore := congrArg View.ignore hview
    refine ⟨?_, fun hb => hkeys ▸ hb, fun _ hs => ?_⟩
    · rw [hkeys, hignore]
      exact hview
    · rcases hsucc hs with hs | ⟨_, hnone, _⟩
      · exact Or.inl hs
      · cases hnone
  · rename_i erp hget
    obtain ⟨hmem, hname⟩ := erpGetKey_mem hget
    split
    · exact ⟨rfl, fun hb => hb, fun _ => Or.inl⟩
    · rename_i hseq
      split
      · exact ⟨rfl, fun hb => hb, fun _ => Or.inl⟩
      · rename_i hashLen cryptosuite htag
        have hsuite : (∀ erp ∈ sm.erpKeys, erp.Bounded) →
            ∀ erp ∈ erpUpdateKey (naiString r.keyname) (fun erp => { erp with cryptosuite }) sm.erpKeys,
              erp.Bounded :=
          fun hb => erpUpdateKey_bounded hb fun key hkey => hb key (erpGetKey_mem hkey).1
        split
        · exact ⟨rfl, hsuite, fun _ => Or.inl⟩
        · have hfin := erpSendFinishReauth_finishes lib
            { sm with
              erpKeys := erpUpdateKey (naiString r.keyname) (fun erp => erp.accept r.seq)
                (erpUpdateKey (naiString r.keyname) (fun erp => { erp with cryptosuite }) sm.erpKeys) }
            (some ({ erp with cryptosuite }.accept r.seq)) id 0 r.seq (naiString r.keyname)
          generalize erpSendFinishReauth lib _ _ _ _ _ _ = sm₁ at hfin ⊢
          obtain ⟨hview, hsucc⟩ := hfin
          have hkeys : sm₁.erpKeys = erpUpdateKey (naiString r.keyname) (fun erp => erp.accept r.seq)
              (erpUpdateKey (naiString r.keyname) (fun erp => { erp with cryptosuite }) sm.erpKeys) :=
            congrArg View.erpKeys hview
          have hignore : sm₁.ignore = sm.ignore := congrArg View.ignore hview
          refine ⟨?_, fun hb => ?_, fun hb hs => ?_⟩
          · rw [hkeys, hignore]
            exact hview
          · rw [hkeys]
            refine erpUpdateKey_bounded (hsuite hb) fun key hkey => ?_
            rw [erpGetKey_erpUpdateKey (f := fun erp => { erp with cryptosuite }) fun _ => rfl, hget] at hkey
            cases hkey
            exact ErpServerKey.Bounded.accept (hb erp hmem) hseq
          · rcases hsucc hs with hs | ⟨key, hkey, hdata⟩
            · exact Or.inl hs
            · cases hkey
              exact Or.inr ⟨erp, hmem, hname, ⟨cryptosuite, hashLen, verifyTag_tagged hroom htag⟩,
                (hb erp hmem).fresh hseq, hdata⟩

end Sm

theorem erpKeysDone_bounded {lib : ErpLib} {emsk sessionId : Option Bytes} (h : ∀ erp ∈ sm.erpKeys,
    erp.Bounded) :
    ∀ erp ∈ Sm.erpKeysDone lib sm emsk sessionId, erp.Bounded := by
  unfold Sm.erpKeysDone
  split
  · intro erp herp
    rcases mem_append.mp herp with hnew | hold
    · rw [Option.mem_toList] at hnew
      unfold Sm.erpInit at hnew
      obtain ⟨domain, _, hnew⟩ := Option.bind_eq_some_iff.mp hnew
      split at hnew
      · cases hnew
      · cases hnew
        intro seq hseq
        cases hseq
    · exact h erp hold
  · exact h

/-! ## The states one by one -/

theorem initiateReceived_good (h : sm.view.Inv) (hcalm : sm.view.Calm)
    (hcode : (sm.eapRespData.getD []).getD 0 0 = codeInitiate) :
    Good lib sm ((sm.enter .initiateReceived).initiateReceived lib.erp) := by
  unfold Sm.initiateReceived
  dsimp only
  have hrest : ∀ w : View π, w = { sm.view with
      state := .initiateReceived, rxInitiate := false, currentId := w.currentId, eapKeyData := w.eapKeyData
      eapKeyAvailable := w.eapKeyAvailable, ignore := w.ignore, erpKeys := w.erpKeys, identity := w.identity } →
      (∀ erp ∈ w.erpKeys, erp.Bounded) → (w.eapKeyAvailable = true → sm.conf.eapServer = true) →
      View.Rests sm.view w := by
    intro w hw hkeys hkey
    generalize w.currentId = currentId, w.eapKeyData = eapKeyData, w.eapKeyAvailable = eapKeyAvailable,
      w.ignore = ignore, w.erpKeys = erpKeys, w.identity = identity at hw hkeys hkey
    subst hw
    exact {
      busy := rfl
      m := fun _ hs => hs
      currentMethod := rfl
      log := rfl
      conf := rfl
      bare := nofun
      awaiting := nofun
      reauth := Or.inl
      startReauth := fun hserver hstart => absurd hstart (hcalm.not_start hserver)
      rounds := fun hr => absurd hcalm.rounds (Nat.not_le.mpr hr)
      keyAvailable := hkey
      erpKeys := hkeys }
  have hnokey : sm.eapKeyAvailable = true → sm.conf.eapServer = true := fun hk => absurd hk hcalm.not_key
  split
  · exact Good.rests h (hrest _ rfl h.bounded hnokey) rfl
  · rename_i r hparse
    split
    · exact Good.rests h (hrest _ rfl h.bounded hnokey) rfl
    · rename_i hserver
      have hserver : sm.conf.eapServer = true := by simpa [Sm.enter] using hserver
      have hserves := Sm.initiateServe_serves lib.erp { sm.enter .initiateReceived with rxInitiate := false }
        (parseReauth_room hparse)
      generalize Sm.initiateServe lib.erp _ r = sm₁ at hserves ⊢
      obtain ⟨hview, hbounded, hsucc⟩ := hserves
      have hbounded₁ := hbounded h.bounded
      have hid : sm₁.identity = sm.identity := congrArg View.identity hview
      have hrests : View.Rests sm.view sm₁.view := by
        refine hrest _ ?_ hbounded₁ fun _ => hserver
        show sm₁.view = { sm.view with
          state := .initiateReceived, rxInitiate := false, currentId := sm₁.currentId, eapKeyData :=
          sm₁.eapKeyData
          eapKeyAvailable := sm₁.eapKeyAvailable, ignore := sm₁.ignore, erpKeys := sm₁.erpKeys
          identity := sm₁.identity }
        rw [hid]
        exact hview
      have hstate : sm₁.state = .initiateReceived := congrArg View.state hview
      refine ⟨h.rests hrests, fun hst => ?_, fun hs => ?_⟩
      · rw [hstate] at hst
        cases hst
      · rcases hsucc h.bounded hs with hs | ⟨erp, hmem, hname, htag, hfresh, hdata⟩
        · exact Or.inl hs
        · exact Or.inr (.erp erp r ⟨hmem, hname, hcode, hparse, htag, hfresh⟩ hdata)

theorem selectAction_good (h : sm.view.Inv) (hkey : sm.eapKeyAvailable = false)
    (hrounds : sm.numRounds ≤ eapMaxAuthRounds + 1) (hfin : ∀ s, sm.view.Working s → sm.view.Finished s)
    (hstart : sm.conf.eapServer = false → sm.startReauth = true → sm.m = none ∧ sm.currentId = none)
    {tryInitiateReauth : Bool} (htry : tryInitiateReauth = true → sm.tryInitiateReauth = true) :
    Good lib sm (({ sm with tryInitiateReauth }.enter .selectAction).selectAction lib) := by
  unfold Sm.selectAction
  have hdec := Sm.getDecision_decides lib ({ sm with tryInitiateReauth }.enter .selectAction)
  generalize Sm.getDecision lib ({ sm with tryInitiateReauth }.enter .selectAction) = r at hdec
  obtain ⟨decision, sm₁⟩ := r
  obtain ⟨hview, heap, hchanged, hsucc, hfinished, hst, hcont⟩ := hdec
  dsimp only at hview heap hchanged hsucc hfinished hst hcont ⊢
  refine Good.of_inv ?_ ?_ heap
  · have hv : ({ sm₁ with decision } : Sm π).view = { sm.view with
        state := .selectAction, decision, startReauth := sm₁.startReauth, tryInitiateReauth } := by
      show ({ sm₁.view with decision } : View π) = _
      rw [hview]
      rfl
    rw [hv]
    refine h.select hkey hrounds hfin hsucc hfinished (fun hserver => ?_) (fun hserver => ?_) htry
    · exact hst fun ht => (hstart hserver ht).1
    · exact hcont hserver fun ht => (hstart hserver ht).2
  · have hstate : sm₁.state = .selectAction := congrArg View.state hview
    show sm₁.state.parsing = false
    rw [hstate]
    rfl

theorem methodRequest_good (h : sm.view.Inv) (hcalm : sm.view.Calm) (rand : UInt8) :
    Good lib sm ((sm.enter .methodRequest).methodRequest rand) := by
  unfold Sm.methodRequest
  split
  · rename_i hm
    have hm : sm.m = none := hm
    refine Good.of_inv (h.move hcalm rfl nofun fun _ s hs => ?_) rfl rfl
    have hs : sm.m = some s := hs.1
    rw [hm] at hs
    cases hs
  · rename_i s hm
    exact Good.of_inv (h.request hcalm (s := s) hm _ _ _) rfl rfl

theorem methodResponse_good (h : sm.view.Inv) (hcalm : sm.view.Calm) (pending : MethodPending)
    (hans : ∀ s, sm.view.Working s →
      eapHdrLenValid sm.eapRespData 1 = true ∧ lastRequest sm.log = some ((sm.eapRespData.getD []).getD 1 0) ∨
        Answered s.method.id sm.log ∧ sm.methodState ≠ .ended)
    (hstep : { sm.enter .methodResponse with methodPending := pending }.methodResponse lib = .ok sm') :
    Good lib sm sm' := by
  unfold Sm.methodResponse at hstep
  split at hstep
  · rename_i hinvalid
    cases hstep
    have hinvalid : ¬ eapHdrLenValid sm.eapRespData 1 = true := by simpa [Sm.enter] using hinvalid
    have hagain : ∀ s, sm.view.Working s → Answered s.method.id sm.log ∧ sm.methodState ≠ .ended := by
      intro s hs
      rcases hans s hs with ⟨hvalid, _⟩ | hagain
      · exact absurd hvalid hinvalid
      · exact hagain
    refine Good.of_inv (h.respondAgain hcalm (fun s hs => (hagain s hs).1) ?_) rfl rfl
    by_cases hw : ∃ s, sm.view.Working s
    · obtain ⟨s, hs⟩ := hw
      exact Or.inl (hagain s hs).2
    · exact Or.inr (not_exists.mp hw)
  · split at hstep
    · cases hstep
    · rename_i s hm
      have hm : sm.m = some s := hm
      -- what the response adds to the log, and what being done adds
      have hadds : sm.view.Working s →
          Answered s.method.id (.processed s.method.id ((sm.eapRespData.getD []).getD 1 0) :: sm.log) ∧
            Chosen s.method.id (.processed s.method.id ((sm.eapRespData.getD []).getD 1 0) :: sm.log) := by
        intro hs
        have hchosen := (h.works s hs).chosen
        refine ⟨?_, hchosen.cons rfl⟩
        rcases hans s hs with ⟨_, hreq⟩ | ⟨hanswered, _⟩
        · exact hchosen.answered hreq
        · exact hanswered.cons rfl
      dsimp only at hstep
      split at hstep
      · rename_i hdone
        cases hstep
        refine Good.of_inv ?_ rfl rfl
        refine h.respond hcalm hm (fun hs => ?_) (fun _ => ⟨rfl, hdone⟩) ?_
        · exact ⟨(hadds hs).1.cons rfl, (hadds hs).2.cons rfl⟩
        · exact erpKeysDone_bounded h.bounded
      · cases hstep
        refine Good.of_inv ?_ rfl rfl
        exact h.respond hcalm hm hadds nofun h.bounded

theorem proposeMethod_good (h : sm.view.Inv) (hcalm : sm.view.Calm) (pending : MethodPending)
    (hasks : sm.conf.eapServer = false → sm.view.asksIdentity = true)
    (hstep : { sm.enter .proposeMethod with methodPending := pending }.proposeMethod lib = .ok sm') :
    Good lib sm sm' := by
  unfold Sm.proposeMethod at hstep
  have hp := Sm.proposeLoop_proposes lib hstep
  have hstate : sm'.state = .proposeMethod := congrArg View.state hp.view
  refine Good.of_inv ?_ ?_ hp.eapSuccess
  · rw [View.of_apart hp.view]
    exact h.propose hcalm hp.selected hasks
  · rw [hstate]
    rfl

theorem received_good (h : sm.view.Inv) (hcalm : sm.view.Calm) (hrounds : sm.numRounds ≤ eapMaxAuthRounds)
    (hawaiting : sm.state.awaiting = true) : Good lib sm (sm.enter .received).received := by
  have hparsed := Sm.parseEapResp_parsed (sm.enter .received)
  unfold Sm.received
  generalize Sm.parseEapResp (sm.enter .received) = sm₁ at hparsed ⊢
  obtain ⟨hview, heap, hchanged, hresp, hinit⟩ := hparsed
  have hnum : sm₁.numRounds = sm.numRounds := congrArg View.numRounds hview
  have hv : ({ sm₁ with numRounds := sm₁.numRounds + 1 } : Sm π).view = { sm.view with
      state := .received, rxResp := sm₁.rxResp, rxInitiate := sm₁.rxInitiate, respId := sm₁.respId
      numRounds := sm.numRounds + 1 } := by
    show ({ sm₁.view with numRounds := sm₁.numRounds + 1 } : View π) = _
    rw [hnum, hview]
    rfl
  refine ⟨?_, fun _ => hchanged, fun hs => Or.inl (heap ▸ hs)⟩
  rw [hv]
  exact h.receive hcalm rfl (Or.inl rfl) (fun s hs => (h.works s hs).awaiting hawaiting)
    (Nat.succ_le_succ hrounds)
    hresp nofun fun _ => hinit

theorem integrityCheck_good (h : sm.view.Inv) (hcalm : sm.view.Calm) (hstate : sm.state = .received)
    (hrx : sm.rxResp = true) (hid : sm.respId = sm.currentId)
    (hstep : (sm.enter .integrityCheck).integrityCheck = .ok sm') : Good lib sm sm' := by
  have hawaiting : ∀ s, sm.view.Working s → lastRequest sm.log = sm.currentId := by
    intro s hs
    refine (h.works s hs).awaiting ?_
    show sm.state.awaiting = true
    rw [hstate]
    rfl
  have hreceived := h.received (Or.inl hstate)
  unfold Sm.integrityCheck at hstep
  split at hstep
  · cases hstep
    refine ⟨?_, fun _ => rfl, Or.inl⟩
    exact h.receive hcalm rfl (Or.inr rfl) hawaiting hcalm.rounds hreceived
      (fun _ => ⟨hrx, hid, nofun⟩) nofun
  · rename_i hvalid
    have hvalid : eapHdrLenValid sm.eapRespData 1 = true := by simpa [Sm.enter] using hvalid
    split at hstep
    · cases hstep
    · cases hstep
      refine ⟨?_, fun _ => rfl, Or.inl⟩
      exact h.receive hcalm rfl (Or.inr rfl) hawaiting hcalm.rounds hreceived
        (fun _ => ⟨hrx, hid, fun _ => hvalid⟩) nofun

theorem received2_good (h : sm.view.Inv) (hcalm : sm.view.Calm) : Good lib sm
    (sm.enter .received2).received2 := by
  have hparsed := Sm.parseEapResp_parsed (sm.enter .received2)
  unfold Sm.received2
  generalize Sm.parseEapResp (sm.enter .received2) = sm₁ at hparsed ⊢
  obtain ⟨hview, heap, hchanged, hresp, hinit⟩ := hparsed
  refine Good.rests h ?_ heap
  rw [hview]
  exact View.Rests.of_calm hcalm rfl (fun _ hs => hs) rfl rfl rfl nofun
    nofun
    Or.inl rfl rfl rfl h.bounded

theorem success_good (h : sm.view.Inv) (hcalm : sm.view.Calm) (hstate : sm.state = .selectAction)
    (hdecision : sm.decision = .success) : Good lib sm (sm.enter .success).success := by
  obtain ⟨s, hs, hsuccess⟩ := h.succeeds hstate hdecision
  obtain ⟨hanswered, hdone, _⟩ := (h.works s hs).finished hstate
  refine ⟨?_, nofun, fun _ => Or.inr ?_⟩
  · exact h.halt rfl (Or.inl rfl) fun hr => absurd hcalm.rounds (Nat.not_le.mpr hr)
  · refine .method s hs.1 (fun hid => ?_) hanswered hsuccess fun hkey => ?_
    · have htype : sm.currentMethod = methodType s.method.id := h.selected s hs.1
      rw [hid] at htype
      exact hs.2 htype
    · have hkey : (sm.eapKeyAvailable || sm.eapKeyData.isSome) = true := hkey
      have hno : sm.eapKeyAvailable = false := hcalm.key
      rw [hno, Bool.false_or] at hkey
      obtain ⟨key, hdata⟩ := Option.isSome_iff_exists.mp hkey
      have hdone : lastDone sm.log = some (s.method.id, sm.eapKeyData) := hdone
      rw [hdata] at hdone
      exact ⟨key, hdone, hdata⟩

theorem success2_good (h : sm.view.Inv) (hcalm : sm.view.Calm) (hstate : sm.state = .aaaIdle)
    (haaa : sm.aaaSuccess = true) : Good lib sm (sm.enter .success2).success2 := by
  refine ⟨?_, nofun, fun _ => Or.inr ?_⟩
  · exact h.halt rfl (Or.inr (Or.inl rfl)) fun hr => absurd hcalm.rounds (Nat.not_le.mpr hr)
  · exact .aaa sm.aaaEapKeyData hstate (h.aaaSuccess hstate haaa) fun hkey => ⟨hkey, rfl⟩

theorem failure_good (h : sm.view.Inv) (hcalm : sm.view.Calm) : Good lib sm (sm.enter .failure).failure :=
  Good.move h hcalm rfl rfl rfl nofun rfl

theorem sendRequest_view (sm : Sm π) : sm.sendRequest.view = sm.view ∧ sm.sendRequest.eapSuccess =
    sm.eapSuccess := by
  unfold Sm.sendRequest
  dsimp only
  split
  · exact ⟨rfl, rfl⟩
  · exact ⟨rfl, rfl⟩

theorem retransmit_view (sm : Sm π) : sm.retransmit.view = sm.view ∧ sm.retransmit.eapSuccess =
    sm.eapSuccess := by
  unfold Sm.retransmit
  dsimp only
  split
  · exact ⟨rfl, rfl⟩
  · exact ⟨rfl, rfl⟩

theorem Good.enter (h : sm.view.Inv) (hcalm : sm.view.Calm) (state : EapState) {f : Sm π → Sm π}
    (hf : ∀ sm : Sm π, (f sm).view = sm.view ∧ (f sm).eapSuccess = sm.eapSuccess) (hbusy : state.busy = false)
    (hbare : state.bare = false) (hawaiting : state.awaiting = true → sm.state.awaiting = true ∨
    sm.state.bare = true) :
    Good lib sm (f (sm.enter state)) := by
  obtain ⟨hview, hsucc⟩ := hf (sm.enter state)
  have hstate : (f (sm.enter state)).state = state := congrArg View.state hview
  refine Good.move h hcalm ?_ (hstate.symm ▸ hbusy) (hstate.symm ▸ hbare) ?_ hsucc
  · rw [hstate]
    exact hview
  · rw [hstate]
    exact hawaiting

theorem stepMethodRequest_good (h : sm.view.Inv) (hcalm : sm.view.Calm) (hstate : sm.state = .methodRequest) :
    Good lib sm (stepMethodRequest sm) := by
  have hawaiting : sm.state.awaiting = true := by
    rw [hstate]
    rfl
  unfold stepMethodRequest
  split
  · exact failure_good h hcalm
  · dsimp only
    obtain ⟨hview, hsucc⟩ := sendRequest_view (sm.enter .sendRequest)
    split
    · refine Good.move h hcalm ?_ rfl rfl (fun _ => Or.inl hawaiting) hsucc
      show ({ (Sm.sendRequest (sm.enter .sendRequest)).view with state := .failure } : View π) = _
      rw [hview]
      rfl
    · exact Good.enter h hcalm .sendRequest sendRequest_view rfl rfl fun _ => Or.inl hawaiting

theorem nak_good (h : sm.view.Inv) (hcalm : sm.view.Calm) : Good lib sm (sm.enter .nak).nak := by
  unfold Sm.nak
  dsimp only
  split
  · exact Good.of_inv (h.drop hcalm _) rfl rfl
  · unfold Sm.policyUpdate
    split
    · split
      · exact Good.of_inv (h.drop hcalm _) rfl rfl
      · exact Good.of_inv (h.drop hcalm _) rfl rfl
    · exact Good.of_inv (h.drop hcalm _) rfl rfl

theorem pickUpMethod_good (h : sm.view.Inv) (hcalm : sm.view.Calm) (hstate : sm.state = .initialise) :
    Good lib sm ((sm.enter .pickUpMethod).pickUpMethod lib) := by
  have hm : sm.m = none := (h.initialised hstate).1
  have hnone : ∀ s, (none : Option (Selected π)) = some s →
      typeNone = methodType s.method.id ∧ typeNone = typeIdentity := nofun
  unfold Sm.pickUpMethod
  split
  · rename_i htype
    have htype : sm.respMethod = typeIdentity := htype
    split
    · exact Good.of_inv (h.pickUp hcalm hnone) rfl rfl
    · rename_i method hget
      split
      · exact Good.of_inv (h.pickUp hcalm hnone) rfl rfl
      · dsimp only
        split
        · exact Good.of_inv (h.pickUp hcalm hnone) rfl rfl
        · refine Good.of_inv (h.pickUp hcalm fun s hs => ?_) rfl rfl
          cases hs
          refine ⟨?_, htype⟩
          rw [MethodTable.get_id hget]
          show sm.respMethod = methodType (vendorIetf, sm.respMethod)
          rw [htype]
          rfl
  · refine Good.of_inv (h.pickUp hcalm fun s hs => ?_) rfl rfl
    have hs : sm.m = some s := hs
    rw [hm] at hs
    cases hs

theorem initiateReauthStart_good (h : sm.view.Inv) (hcalm : sm.view.Calm) (hstate : sm.state = .selectAction)
    (hdecision : sm.decision = .initiateReauthStart) (rand : UInt8) :
    Good lib sm ((sm.enter .initiateReauthStart).initiateReauthStart rand) := by
  -- the decision would have been about a method that works
  have hnone : ∀ s, ¬ sm.view.Working s := by
    intro s hs
    have hdecided := (h.works s hs).decided hstate
    have hd : sm.view.decision = .initiateReauthStart := hdecision
    rw [hd] at hdecided
    rcases hdecided with hdecided | hdecided | hdecided <;> cases hdecided
  refine Good.rests h ?_ rfl
  exact View.Rests.of_calm hcalm rfl (fun _ hs => hs) rfl rfl rfl (fun _ => hnone) nofun
    (fun _ => Or.inr hnone) rfl rfl rfl h.bounded

theorem stepAaaIdle_good (h : sm.view.Inv) (hcalm : sm.view.Calm) (hstate : sm.state = .aaaIdle) :
    Good lib sm (stepAaaIdle sm) := by
  unfold stepAaaIdle
  split
  · exact Good.move h hcalm rfl rfl rfl nofun rfl
  · split
    · rename_i haaa
      exact success2_good h hcalm hstate haaa
    · split
      · refine Good.rests h ?_ rfl
        exact View.Rests.of_calm hcalm rfl (fun _ hs => hs) rfl rfl rfl nofun
          nofun
          Or.inl rfl rfl rfl h.bounded
      · split
        · exact Good.move h hcalm rfl rfl rfl nofun rfl
        · refine Good.of_inv h ?_ rfl
          rw [hstate]
          rfl

end EapServer

end Hostap
