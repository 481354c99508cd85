import Hostap.Eap.ServerSm

/-!
# What the EAP server knows of its methods

The decision of `SELECT_ACTION`, the state of the method, the identifiers and the key are variables that
many states write and that outlive a session. `View.Inv` says what they mean in each state, over the part of
the machine that matters:

* a method other than Identity is `Working` only after `PROPOSE_METHOD` took it from the list of the user,
  and from then on `View.Works` says where the machine is with it: waiting for the response to its last
  request, or past it;
* a machine without a server of its own works with the Identity method only;
* a key is available in states that only `INITIALIZE` leaves.

There is one theorem for each kind of transition; `Rests` is the general one, for a state that asks for nothing
else.
-/

namespace Hostap

namespace EapServer

open Octets Erp

/-! ## The log -/

def Obs.requestId : Obs → Option UInt8
  | .request id => some id
  | _ => none

def Obs.proposal : Obs → Option (EapUser × Nat)
  | .proposed user idx => some (user, idx)
  | _ => none

def Obs.doneWith : Obs → Option (MethodId × Option Bytes)
  | .done method key => some (method, key)
  | _ => none

def Obs.aaaKey : Obs → Option (Option Bytes)
  | .aaaSuccess key => some key
  | _ => none

def lastRequest (log : List Obs) : Option UInt8 := log.findSome? Obs.requestId

/-- The entry that was last taken from the list of methods of a user. -/
def lastProposed (log : List Obs) : Option (EapUser × Nat) := log.findSome? Obs.proposal

def lastDone (log : List Obs) : Option (MethodId × Option Bytes) := log.findSome? Obs.doneWith

/-- The key of the last `aaaSuccess` that was signalled in `AAA_IDLE`. -/
def lastAaaSuccess (log : List Obs) : Option (Option Bytes) := log.findSome? Obs.aaaKey

/-- The method was taken from the list of methods of a user last. -/
def Chosen (method : MethodId) (log : List Obs) : Prop :=
  ∃ user idx, lastProposed log = some (user, idx) ∧ user.methodAt idx = method

/-- Since the method was taken from the list of methods of a user, it has processed a response that carried
the identifier of the last request. -/
def Answered (method : MethodId) (log : List Obs) : Prop :=
  ∃ newer id older, log = newer ++ .processed method id :: older ∧ lastRequest older = some id ∧
    Chosen method older ∧ lastProposed newer = none

theorem Chosen.cons {method : MethodId} {log : List Obs} (h : Chosen method log) {o : Obs}
    (ho : o.proposal = none) :
    Chosen method (o :: log) := by
  obtain ⟨user, idx, hlast, hat⟩ := h
  refine ⟨user, idx, ?_, hat⟩
  show List.findSome? _ _ = _
  rw [List.findSome?_cons, ho]
  exact hlast

theorem Answered.cons {method : MethodId} {log : List Obs} (h : Answered method log) {o : Obs}
    (ho : o.proposal = none) :
    Answered method (o :: log) := by
  obtain ⟨newer, id, older, hlog, hreq, hchosen, hnewer⟩ := h
  refine ⟨o :: newer, id, older, by rw [hlog, List.cons_append], hreq, hchosen, ?_⟩
  show List.findSome? _ _ = _
  rw [List.findSome?_cons, ho]
  exact hnewer

theorem Chosen.answered {method : MethodId} {log : List Obs} (h : Chosen method log) {id : UInt8}
    (hreq : lastRequest log = some id) : Answered method (.processed method id :: log) :=
  ⟨[], id, log, rfl, hreq, h, rfl⟩

/-! ## The invariant -/

/-- What the invariant is about. -/
structure View (π : Type) where
  conf : EapConf
  state : EapState
  m : Option (Selected π)
  currentMethod : Nat
  currentId : Option UInt8
  log : List Obs
  methodState : MethodState
  decision : Decision
  identity : Option Bytes
  startReauth : Bool
  tryInitiateReauth : Bool
  numRounds : Nat
  eapKeyAvailable : Bool
  eapKeyData : Option Bytes
  eapRespData : Option Bytes
  rxResp : Bool
  rxInitiate : Bool
  respId : Option UInt8
  ignore : Bool
  aaaSuccess : Bool
  aaaEapKeyData : Option Bytes
  erpKeys : List ErpServerKey

variable {π : Type}

def Sm.view (sm : Sm π) : View π where
  conf := sm.conf
  state := sm.state
  m := sm.m
  currentMethod := sm.currentMethod
  currentId := sm.currentId
  log := sm.log
  methodState := sm.methodState
  decision := sm.decision
  identity := sm.identity
  startReauth := sm.startReauth
  tryInitiateReauth := sm.tryInitiateReauth
  numRounds := sm.numRounds
  eapKeyAvailable := sm.eapKeyAvailable
  eapKeyData := sm.eapKeyData
  eapRespData := sm.eapRespData
  rxResp := sm.rxResp
  rxInitiate := sm.rxInitiate
  respId := sm.respId
  ignore := sm.ignore
  aaaSuccess := sm.aaaSuccess
  aaaEapKeyData := sm.aaaEapKeyData
  erpKeys := sm.erpKeys

/-- The states in which a request was sent and its response is still to be given to the method. -/
def EapState.awaiting : EapState → Bool
  | .methodRequest | .sendRequest | .idle | .retransmit | .received | .discard | .integrityCheck => true
  | _ => false

def EapState.bare : EapState → Bool
  | .initialise | .pickUpMethod | .nak | .initiateReauthStart => true
  | _ => false

/-- The states in which a packet was parsed and not used yet. -/
def EapState.parsing : EapState → Bool
  | .received | .integrityCheck => true
  | _ => false

def EapState.busy : EapState → Bool
  | .initialise | .received | .integrityCheck | .selectAction | .proposeMethod | .methodResponse | .aaaIdle =>
    true
  | _ => false

/-- Every sequence number accepted with the key is at most the one that is kept. -/
def ErpServerKey.Bounded (erp : ErpServerKey) : Prop :=
  ∀ seq ∈ erp.accepted, ∃ recvSeq, erp.recvSeq = some recvSeq ∧ seq ≤ recvSeq

namespace View

def Working (v : View π) (s : Selected π) : Prop := v.m = some s ∧ v.currentMethod ≠ typeIdentity

def asksIdentity (v : View π) : Bool := v.identity.isNone || v.currentId.isNone

/-- Nothing but `INITIALIZE` and `DISABLED` follows. -/
def halted (v : View π) : Bool :=
  match v.state with
  | .success | .success2 | .failure | .disabled => true
  | .initiateReceived => v.conf.eapServer
  | _ => false

/-- The method has processed a response to its last request, is done, and its key is the one that is there. -/
structure Finished (v : View π) (s : Selected π) : Prop where
  answered : Answered s.method.id v.log
  done : lastDone v.log = some (s.method.id, v.eapKeyData)
  isDone : s.method.isDone s.priv = true

/-- Where the machine is with a method other than Identity. -/
structure Works (v : View π) (s : Selected π) : Prop where
  chosen : Chosen s.method.id v.log
  allowed : v.state.bare = false
  awaiting : v.state.awaiting = true → lastRequest v.log = v.currentId
  answered : v.state = .methodResponse → Answered s.method.id v.log
  ended : v.state = .methodResponse → v.methodState = .ended → v.Finished s
  finished : v.state = .selectAction → v.Finished s
  decided : v.state = .selectAction → v.decision = .success ∨ v.decision = .failure ∨ v.decision = .passthrough

/-- A machine that leaves the authentication to another server. -/
structure IdentityOnly (v : View π) : Prop where
  idle : ∀ s, ¬ v.Working s
  startReauth : v.startReauth = true → v.halted = true ∨ v.state = .initialise
  decided : v.state = .selectAction → v.decision = .continue → v.asksIdentity = true
  proposes : v.state = .proposeMethod → v.asksIdentity = true

/-- The invariant. -/
structure Inv (v : View π) : Prop where
  selected : ∀ s, v.m = some s → v.currentMethod = methodType s.method.id
  works : ∀ s, v.Working s → v.Works s
  identityOnly : v.conf.eapServer = false → v.IdentityOnly
  reauth : v.tryInitiateReauth = true → ∀ s, ¬ v.Working s
  initialised : v.state = .initialise → v.m = none ∧ (v.conf.backendAuth = false → v.currentId = none)
  succeeds : v.state = .selectAction → v.decision = .success →
    ∃ s, v.Working s ∧ s.method.isSuccess s.priv = true
  received : v.state = .received ∨ v.state = .integrityCheck → v.rxResp = true →
    v.respId = some ((v.eapRespData.getD []).getD 1 0)
  checked : v.state = .integrityCheck → v.rxResp = true ∧ v.respId = v.currentId ∧
    (v.ignore = false → eapHdrLenValid v.eapRespData 1 = true)
  rounds : v.numRounds > eapMaxAuthRounds + 1 → v.state = .failure ∨ v.state = .success
  keyAvailable : v.eapKeyAvailable = true → v.halted = true
  aaaSuccess : v.state = .aaaIdle → v.aaaSuccess = true → lastAaaSuccess v.log = some v.aaaEapKeyData
  bounded : ∀ erp ∈ v.erpKeys, erp.Bounded
  initiate : v.state = .received → v.rxInitiate = true → (v.eapRespData.getD []).getD 0 0 = codeInitiate

/-- What holds of a machine whose next transition is one of its state. -/
structure Calm (v : View π) : Prop where
  key : v.eapKeyAvailable = false
  start : v.conf.eapServer = false → v.startReauth = false
  rounds : v.numRounds ≤ eapMaxAuthRounds + 1

theorem Inv.calm {v : View π} (h : v.Inv) (hhalted : v.halted = false) (hstate : v.state ≠ .initialise)
    (hrounds : v.numRounds ≤ eapMaxAuthRounds) : v.Calm where
  key := by
    by_contra hkey
    have hh := h.keyAvailable (Bool.eq_true_of_not_eq_false hkey)
    rw [hhalted] at hh
    cases hh
  start := by
    intro hserver
    by_contra hstart
    rcases (h.identityOnly hserver).startReauth (Bool.eq_true_of_not_eq_false hstart) with hh | hh
    · rw [hhalted] at hh
      cases hh
    · exact hstate hh
  rounds := by omega

theorem Calm.not_key {v : View π} (h : v.Calm) : ¬ v.eapKeyAvailable = true := by
  rw [h.key]
  decide

theorem Calm.not_start {v : View π} (h : v.Calm) (hserver : v.conf.eapServer = false) : ¬ v.startReauth =
    true := by
  rw [h.start hserver]
  decide

/-! ## Transitions -/

theorem busy_ne {state : EapState} (h : state.busy = false) : state ≠ .initialise ∧ state ≠ .received ∧
    state ≠ .integrityCheck ∧ state ≠ .selectAction ∧ state ≠ .proposeMethod ∧ state ≠ .methodResponse ∧
    state ≠ .aaaIdle := by
  refine ⟨?_, ?_, ?_, ?_, ?_, ?_, ?_⟩ <;> (rintro rfl; cases h)

theorem not_parsing {state : EapState} (h : state.busy = false) : state.parsing = false := by
  cases state <;> first | rfl | cases h

theorem Works.of_chosen {v : View π} {s : Selected π} (hchosen : Chosen s.method.id v.log)
    (hbare : v.state.bare = false) (hresponse : v.state ≠ .methodResponse) (hselect : v.state ≠ .selectAction)
    (hawaiting : v.state.awaiting = true → lastRequest v.log = v.currentId) : v.Works s where
  chosen := hchosen
  allowed := hbare
  awaiting := hawaiting
  answered := fun hst => absurd hst hresponse
  ended := fun hst => absurd hst hresponse
  finished := fun hst => absurd hst hselect
  decided := fun hst => absurd hst hselect

theorem Calm.inv {v w : View π} (hcalm : v.Calm)
    (hw : w.conf = v.conf ∧ w.startReauth = v.startReauth ∧ w.numRounds = v.numRounds ∧
      w.eapKeyAvailable = v.eapKeyAvailable)
    (hstate : w.state ≠ .initialise ∧ w.state ≠ .received ∧ w.state ≠ .integrityCheck ∧ w.state ≠ .selectAction)
    (hselected : ∀ s, w.m = some s → w.currentMethod = methodType s.method.id)
    (hworks : ∀ s, w.Working s → w.Works s) (hidle : v.conf.eapServer = false → ∀ s, ¬ w.Working s)
    (hproposes : w.state = .proposeMethod → v.conf.eapServer = false → w.asksIdentity = true)
    (hreauth : w.tryInitiateReauth = true → ∀ s, ¬ w.Working s)
    (haaa : w.state = .aaaIdle → w.aaaSuccess = true → lastAaaSuccess w.log = some w.aaaEapKeyData)
    (hkeys : ∀ erp ∈ w.erpKeys, erp.Bounded) : w.Inv := by
  obtain ⟨hconf, hstart, hrounds, hkey⟩ := hw
  obtain ⟨hinit, hrecv, hcheck, hselect⟩ := hstate
  exact {
    selected := hselected
    works := hworks
    identityOnly := fun hserver =>
      { idle := hidle (hconf ▸ hserver)
        startReauth := fun ht => absurd (hstart ▸ ht) (hcalm.not_start (hconf ▸ hserver))
        decided := fun hst => absurd hst hselect
        proposes := fun hst => hproposes hst (hconf ▸ hserver) }
    reauth := hreauth
    initialised := fun hst => absurd hst hinit
    succeeds := fun hst => absurd hst hselect
    received := fun hst => hst.elim (fun hst => absurd hst hrecv) fun hst => absurd hst hcheck
    checked := fun hst => absurd hst hcheck
    rounds := fun hr => absurd hcalm.rounds (Nat.not_le.mpr (hrounds ▸ hr))
    keyAvailable := fun hk => absurd (hkey ▸ hk) hcalm.not_key
    aaaSuccess := haaa
    bounded := hkeys
    initiate := fun hst => absurd hst hrecv }

/-- What a transition to a state that is not busy has to establish. -/
structure Rests (v w : View π) : Prop where
  busy : w.state.busy = false
  m : ∀ s, w.m = some s → v.m = some s
  currentMethod : w.currentMethod = v.currentMethod
  log : w.log = v.log
  conf : w.conf = v.conf
  bare : w.state.bare = true → ∀ s, ¬ w.Working s
  awaiting : w.state.awaiting = true → ∀ s, w.Working s → lastRequest w.log = w.currentId
  reauth : w.tryInitiateReauth = true → v.tryInitiateReauth = true ∨ ∀ s, ¬ v.Working s
  startReauth : w.conf.eapServer = false → w.startReauth = true → w.halted = true
  rounds : w.numRounds > eapMaxAuthRounds + 1 → w.state = .failure ∨ w.state = .success
  keyAvailable : w.eapKeyAvailable = true → w.halted = true
  erpKeys : ∀ erp ∈ w.erpKeys, erp.Bounded

theorem Rests.working {v w : View π} (r : Rests v w) {s : Selected π} (h : w.Working s) : v.Working s :=
  ⟨r.m s h.1, r.currentMethod ▸ h.2⟩

theorem Inv.rests {v w : View π} (h : v.Inv) (r : Rests v w) : w.Inv := by
  obtain ⟨hinit, hrecv, hcheck, hselect, hpropose, hresp, haaa⟩ := busy_ne r.busy
  exact {
    selected := fun s hs => by rw [r.currentMethod]; exact h.selected s (r.m s hs)
    works := fun s hs => by
      refine Works.of_chosen (r.log ▸ (h.works s (r.working hs)).chosen) ?_ hresp hselect
        fun ha => r.awaiting ha s hs
      by_contra hbare
      exact r.bare (Bool.eq_true_of_not_eq_false hbare) s hs
    identityOnly := fun hserver =>
      { idle := fun s hs => (h.identityOnly (r.conf ▸ hserver)).idle s (r.working hs)
        startReauth := fun hstart => Or.inl (r.startReauth hserver hstart)
        decided := fun hst => absurd hst hselect
        proposes := fun hst => absurd hst hpropose }
    reauth := fun htry s hs => by
      rcases r.reauth htry with htry | hnone
      · exact h.reauth htry s (r.working hs)
      · exact hnone s (r.working hs)
    initialised := fun hst => absurd hst hinit
    succeeds := fun hst => absurd hst hselect
    received := fun hst => hst.elim (fun hst => absurd hst hrecv) fun hst => absurd hst hcheck
    checked := fun hst => absurd hst hcheck
    rounds := r.rounds
    keyAvailable := r.keyAvailable
    aaaSuccess := fun hst => absurd hst haaa
    bounded := r.erpKeys
    initiate := fun hst => absurd hst hrecv }

theorem Inv.halt {v w : View π} (h : v.Inv)
    (hw : w = { v with
      state := w.state, numRounds := w.numRounds, startReauth := w.startReauth
      eapKeyAvailable := w.eapKeyAvailable, eapKeyData := w.eapKeyData })
    (hstate : w.state = .success ∨ w.state = .success2 ∨ w.state = .failure ∨ w.state = .disabled)
    (hrounds : w.numRounds > eapMaxAuthRounds + 1 → w.state = .failure ∨ w.state = .success) : w.Inv := by
  generalize w.state = state, w.numRounds = numRounds, w.startReauth = startReauth,
    w.eapKeyAvailable = eapKeyAvailable, w.eapKeyData = eapKeyData at *
  subst hw
  have hhalted : View.halted { v with state, numRounds, startReauth, eapKeyAvailable, eapKeyData } = true := by
    rcases hstate with rfl | rfl | rfl | rfl <;> rfl
  have hplain : state.busy = false ∧ state.bare = false ∧ state.awaiting = false := by
    rcases hstate with rfl | rfl | rfl | rfl <;> exact ⟨rfl, rfl, rfl⟩
  exact h.rests
    { busy := hplain.1
      m := fun _ hs => hs
      currentMethod := rfl
      log := rfl
      conf := rfl
      bare := fun hb => absurd (hplain.2.1.symm.trans hb) Bool.false_ne_true
      awaiting := fun ha => absurd (hplain.2.2.symm.trans ha) Bool.false_ne_true
      reauth := Or.inl
      startReauth := fun _ _ => hhalted
      rounds := hrounds
      keyAvailable := fun _ => hhalted
      erpKeys := h.bounded }

theorem Rests.of_calm {v w : View π} (hcalm : v.Calm) (hbusy : w.state.busy = false)
    (hm : ∀ s, w.m = some s → v.m = some s) (hmethod : w.currentMethod = v.currentMethod) (hlog : w.log = v.log)
    (hconf : w.conf = v.conf) (hbare : w.state.bare = true → ∀ s, ¬ w.Working s)
    (hawaiting : w.state.awaiting = true → ∀ s, w.Working s → lastRequest w.log = w.currentId)
    (hreauth : w.tryInitiateReauth = true → v.tryInitiateReauth = true ∨ ∀ s, ¬ v.Working s)
    (hstart : w.startReauth = v.startReauth) (hrounds : w.numRounds = v.numRounds)
    (hkey : w.eapKeyAvailable = v.eapKeyAvailable) (hkeys : ∀ erp ∈ w.erpKeys, erp.Bounded) : Rests v w where
  busy := hbusy
  m := hm
  currentMethod := hmethod
  log := hlog
  conf := hconf
  bare := hbare
  awaiting := hawaiting
  reauth := hreauth
  startReauth := fun hserver ht => absurd (hstart ▸ ht) (hcalm.not_start (hconf ▸ hserver))
  rounds := fun hr => absurd hcalm.rounds (Nat.not_le.mpr (hrounds ▸ hr))
  keyAvailable := fun hk => absurd (hkey ▸ hk) hcalm.not_key
  erpKeys := hkeys

theorem Inv.move {v : View π} (h : v.Inv) (hcalm : v.Calm) {state : EapState} (hbusy : state.busy = false)
    (hbare : state.bare = true → ∀ s, ¬ v.Working s)
    (hawaiting : state.awaiting = true → ∀ s, v.Working s → lastRequest v.log = v.currentId) :
    { v with state }.Inv :=
  h.rests (Rests.of_calm hcalm hbusy (fun _ hs => hs) rfl rfl rfl hbare hawaiting Or.inl rfl rfl rfl h.bounded)

theorem Inv.drop {v : View π} (h : v.Inv) (hcalm : v.Calm) (decision : Decision) :
    ({ v with state := .nak, m := none, decision } : View π).Inv :=
  h.rests (Rests.of_calm hcalm rfl nofun rfl rfl rfl (fun _ _ hs => by cases hs.1)
    nofun Or.inl rfl rfl rfl h.bounded)

theorem Inv.initialise {v w : View π} (h : v.Inv) (hstate : w.state = .initialise) (hm : w.m = none)
    (hid : w.conf.backendAuth = false → w.currentId = none) (hreauth : w.tryInitiateReauth = false)
    (hrounds : w.numRounds = 0) (hkey : w.eapKeyAvailable = false) (hkeys : w.erpKeys = v.erpKeys) : w.Inv where
  selected := fun s hs => by
    rw [hm] at hs
    cases hs
  works := fun s hs => by
    have hs := hs.1
    rw [hm] at hs
    cases hs
  identityOnly := fun _ =>
    { idle := fun s hs => by
        have hs := hs.1
        rw [hm] at hs
        cases hs
      startReauth := fun _ => Or.inr hstate
      decided := fun hst => by
        rw [hstate] at hst
        cases hst
      proposes := fun hst => by
        rw [hstate] at hst
        cases hst }
  reauth := fun htry => by
    rw [hreauth] at htry
    cases htry
  initialised := fun _ => ⟨hm, hid⟩
  succeeds := fun hst => by
    rw [hstate] at hst
    cases hst
  received := fun hst => by
    rw [hstate] at hst
    rcases hst with hst | hst <;> cases hst
  checked := fun hst => by
    rw [hstate] at hst
    cases hst
  rounds := fun hr => by omega
  keyAvailable := fun hk => by
    rw [hkey] at hk
    cases hk
  aaaSuccess := fun hst => by
    rw [hstate] at hst
    cases hst
  bounded := fun erp herp => h.bounded erp (hkeys ▸ herp)
  initiate := fun hst => by
    rw [hstate] at hst
    cases hst

theorem Inv.select {v : View π} (h : v.Inv) (hkey : v.eapKeyAvailable = false)
    (hrounds : v.numRounds ≤ eapMaxAuthRounds + 1) (hfin : ∀ s, v.Working s → v.Finished s)
    {decision : Decision}
    {startReauth : Bool} (hsucc : decision = .success → ∃ s, v.Working s ∧ s.method.isSuccess s.priv = true)
    (hdec : ∀ s, v.Working s → s.method.isDone s.priv = true →
      decision = .success ∨ decision = .failure ∨ decision = .passthrough)
    (hstart : v.conf.eapServer = false → startReauth = false)
    (hcont : v.conf.eapServer = false → decision = .continue → v.asksIdentity = true) {tryInitiateReauth : Bool}
    (htry : tryInitiateReauth = true → v.tryInitiateReauth = true) :
    ({ v with state := .selectAction, decision, startReauth, tryInitiateReauth } : View π).Inv where
  selected := h.selected
  works := fun s hs =>
    have hs : v.Working s := hs
    have hf := hfin s hs
    { chosen := (h.works s hs).chosen
      allowed := rfl
      awaiting := nofun
      answered := nofun
      ended := nofun
      finished := fun _ => ⟨hf.answered, hf.done, hf.isDone⟩
      decided := fun _ => hdec s hs hf.isDone }
  identityOnly := fun hserver =>
    { idle := fun s hs => (h.identityOnly hserver).idle s hs
      startReauth := fun ht => by
        have ht : startReauth = true := ht
        rw [hstart hserver] at ht
        cases ht
      decided := fun _ hd => hcont hserver hd
      proposes := nofun }
  reauth := fun ht s hs => h.reauth (htry ht) s hs
  initialised := nofun
  succeeds := fun _ hd => hsucc hd
  received := fun hst => by rcases hst with hst | hst <;> cases hst
  checked := nofun
  rounds := fun hr => absurd hrounds (Nat.not_le.mpr hr)
  keyAvailable := fun hk => by
    have hk : v.eapKeyAvailable = true := hk
    rw [hkey] at hk
    cases hk
  aaaSuccess := nofun
  bounded := h.bounded
  initiate := nofun

theorem Inv.request {v : View π} (h : v.Inv) (hcalm : v.Calm) {s : Selected π} (hm : v.m = some s) (priv : π)
    (id : UInt8) (identity : Option Bytes) :
    ({ v with
      state := .methodRequest, m := some ⟨s.method, priv⟩, currentId := some id, identity
      log := .request id :: v.log } : View π).Inv := by
  refine hcalm.inv ⟨rfl, rfl, rfl, rfl⟩ ⟨nofun, nofun, nofun, nofun⟩ (fun t ht => ?_) (fun t ht => ?_)
    (fun hserver t ht => (h.identityOnly hserver).idle s ⟨hm, ht.2⟩) nofun
    (fun htry t ht => h.reauth htry s ⟨hm, ht.2⟩) nofun h.bounded
  · cases ht
    exact h.selected s hm
  · obtain ⟨ht, hid⟩ := ht
    cases ht
    exact Works.of_chosen ((h.works s ⟨hm, hid⟩).chosen.cons rfl) rfl nofun nofun fun _ => rfl

theorem Inv.respond {v : View π} (h : v.Inv) (hcalm : v.Calm) {s : Selected π} (hm : v.m = some s) {priv : π}
    {identity eapKeyData : Option Bytes} {methodState : MethodState} {log : List Obs}
    {erpKeys : List ErpServerKey} (hans : v.Working s → Answered s.method.id log ∧ Chosen s.method.id log)
    (hended : methodState = .ended →
      lastDone log = some (s.method.id, eapKeyData) ∧ s.method.isDone priv = true)
    (hkeys : ∀ erp ∈ erpKeys, erp.Bounded) :
    ({ v with
      state := .methodResponse, m := some ⟨s.method, priv⟩, identity, eapKeyData, methodState, log, erpKeys }
      : View π).Inv := by
  refine hcalm.inv ⟨rfl, rfl, rfl, rfl⟩ ⟨nofun, nofun, nofun, nofun⟩ (fun t ht => ?_) (fun t ht => ?_)
    (fun hserver t ht => (h.identityOnly hserver).idle s ⟨hm, ht.2⟩) nofun
    (fun htry t ht => h.reauth htry s ⟨hm, ht.2⟩) nofun hkeys
  · cases ht
    exact h.selected s hm
  · obtain ⟨ht, hid⟩ := ht
    cases ht
    obtain ⟨hanswered, hchosen⟩ := hans ⟨hm, hid⟩
    exact {
      chosen := hchosen
      allowed := rfl
      awaiting := nofun
      answered := fun _ => hanswered
      ended := fun _ he => ⟨hanswered, (hended he).1, (hended he).2⟩
      finished := nofun
      decided := nofun }

theorem Inv.respondAgain {v : View π} (h : v.Inv) (hcalm : v.Calm)
    (hans : ∀ s, v.Working s → Answered s.method.id v.log) (hended : v.methodState ≠ .ended ∨ ∀ s,
    ¬ v.Working s) :
    ({ v with state := .methodResponse } : View π).Inv := by
  refine hcalm.inv ⟨rfl, rfl, rfl, rfl⟩ ⟨nofun, nofun, nofun, nofun⟩ h.selected (fun s hs => ?_)
    (fun hserver => (h.identityOnly hserver).idle) nofun h.reauth nofun h.bounded
  have hs : v.Working s := hs
  exact {
    chosen := (h.works s hs).chosen
    allowed := rfl
    awaiting := nofun
    answered := fun _ => hans s hs
    ended := fun _ he => by
      rcases hended with hended | hended
      · exact absurd he hended
      · exact absurd hs (hended s)
    finished := nofun
    decided := nofun }

theorem Inv.propose {v : View π} (h : v.Inv) (hcalm : v.Calm) {m : Option (Selected π)} {currentMethod : Nat}
    {log : List Obs} {methodState : MethodState} {decision : Decision}
    (hsel : ∀ s, m = some s → currentMethod = methodType s.method.id ∧
      (currentMethod ≠ typeIdentity → v.asksIdentity = false ∧ Chosen s.method.id log))
    (hasks : v.conf.eapServer = false → v.asksIdentity = true) :
    ({ v with
      state := .proposeMethod, tryInitiateReauth := false, m, currentMethod, log, methodState, decision }
      : View π).Inv := by
  refine hcalm.inv ⟨rfl, rfl, rfl, rfl⟩ ⟨nofun, nofun, nofun, nofun⟩ (fun s hs => (hsel s hs).1)
    (fun s hs => Works.of_chosen ((hsel s hs.1).2 hs.2).2 rfl nofun nofun nofun) (fun hserver s hs => ?_)
    (fun _ => hasks) nofun nofun h.bounded
  have hno := ((hsel s hs.1).2 hs.2).1
  rw [hasks hserver] at hno
  cases hno

theorem Inv.pickUp {v : View π} (h : v.Inv) (hcalm : v.Calm) {m : Option (Selected π)} {currentMethod : Nat}
    (hsel : ∀ s, m = some s → currentMethod = methodType s.method.id ∧ currentMethod = typeIdentity) :
    ({ v with state := .pickUpMethod, m, currentMethod } : View π).Inv := by
  have hnone : ∀ s, ¬ ({ v with state := .pickUpMethod, m, currentMethod } : View π).Working s :=
    fun s hs => hs.2 (hsel s hs.1).2
  exact hcalm.inv ⟨rfl, rfl, rfl, rfl⟩ ⟨nofun, nofun, nofun, nofun⟩ (fun s hs => (hsel s hs).1)
    (fun s hs => absurd hs (hnone s)) (fun _ => hnone) nofun (fun _ => hnone) nofun h.bounded

theorem Inv.receive {v w : View π} (h : v.Inv) (hcalm : v.Calm)
    (hw : w = { v with
      state := w.state, rxResp := w.rxResp, rxInitiate := w.rxInitiate, respId := w.respId, ignore := w.ignore
      numRounds := w.numRounds })
    (hstate : w.state = .received ∨ w.state = .integrityCheck)
    (hawaiting : ∀ s, v.Working s → lastRequest v.log = v.currentId)
    (hrounds : w.numRounds ≤ eapMaxAuthRounds + 1)
    (hreceived : w.rxResp = true → w.respId = some ((v.eapRespData.getD []).getD 1 0))
    (hchecked : w.state = .integrityCheck → w.rxResp = true ∧ w.respId = v.currentId ∧
      (w.ignore = false → eapHdrLenValid v.eapRespData 1 = true))
    (hinitiate : w.state = .received → w.rxInitiate = true → (v.eapRespData.getD []).getD 0 0 = codeInitiate) :
    w.Inv := by
  generalize w.state = state at *
  generalize w.rxResp = rxResp at *
  generalize w.rxInitiate = rxInitiate at *
  generalize w.respId = respId at *
  generalize w.ignore = ignore at *
  generalize w.numRounds = numRounds at *
  subst hw
  have hselect : state ≠ .selectAction := by rcases hstate with rfl | rfl <;> decide
  have hpropose : state ≠ .proposeMethod := by rcases hstate with rfl | rfl <;> decide
  have hresponse : state ≠ .methodResponse := by rcases hstate with rfl | rfl <;> decide
  have hinit : state ≠ .initialise := by rcases hstate with rfl | rfl <;> decide
  have haaa : state ≠ .aaaIdle := by rcases hstate with rfl | rfl <;> decide
  have hbare : state.bare = false := by rcases hstate with rfl | rfl <;> rfl
  exact {
    selected := h.selected
    works := fun s hs =>
      have hs : v.Working s := hs
      Works.of_chosen (h.works s hs).chosen hbare hresponse hselect fun _ => hawaiting s hs
    identityOnly := fun hserver =>
      { idle := fun s hs => (h.identityOnly hserver).idle s hs
        startReauth := fun hstart => absurd hstart (hcalm.not_start hserver)
        decided := fun hst => absurd hst hselect
        proposes := fun hst => absurd hst hpropose }
    reauth := fun htry s hs => h.reauth htry s hs
    initialised := fun hst => absurd hst hinit
    succeeds := fun hst => absurd hst hselect
    received := fun _ hr => hreceived hr
    checked := hchecked
    rounds := fun hr => absurd hrounds (Nat.not_le.mpr hr)
    keyAvailable := fun hk => absurd hk hcalm.not_key
    aaaSuccess := fun hst => absurd hst haaa
    bounded := h.bounded
    initiate := hinitiate }

theorem Inv.aaaIdle {v : View π} (h : v.Inv) (hcalm : v.Calm) :
    ({ v with state := .aaaIdle, aaaSuccess := false } : View π).Inv :=
  hcalm.inv ⟨rfl, rfl, rfl, rfl⟩ ⟨nofun, nofun, nofun, nofun⟩ h.selected
    (fun s hs => Works.of_chosen (h.works s hs).chosen rfl nofun nofun nofun)
    (fun hserver => (h.identityOnly hserver).idle) nofun h.reauth (fun _ => nofun) h.bounded

end View

end EapServer

end Hostap
