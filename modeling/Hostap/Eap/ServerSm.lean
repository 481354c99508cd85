import Hostap.Eap.Erp

/-!
# The state machine of the EAP server

`SM_STEP(EAP)` of `eap_server/eap_server.c` with all its states: the authenticator with its own methods, the
pass-through to an AAA server, and re-authentication with ERP. Methods, users and keys come from outside and
are parameters: a method is a record of functions on its private data, which see of the machine what
`EapShared` has and change it by a `MethodEffect`.

One `smStep` is one run of `SM_STEP`. `eap_server_sm_step()` repeats it as long as `changed` is set, and
everything else happens between two such calls: the events of `step` other than `smStep` are taken while
`changed` is not set.

The source dereferences the method in states which it should not be in without one; this is a fault here.
Memory does not run out. `log` is not part of the source: it is what has been done since `INITIALIZE`, the
last first.
-/

namespace Hostap

namespace EapServer

open Octets Erp

/-! ## Methods and users -/

abbrev MethodId : Type := Nat × Nat

/-- `EAP_MAX_METHODS`. -/
abbrev eapMaxMethods : Nat := 8

/-- `struct eap_user`, as far as the machine reads it. The list of methods is an array of `EAP_MAX_METHODS`
entries. -/
structure EapUser where
  methods : List MethodId
  phase2 : Bool := false
  deriving DecidableEq, Repr

/-- The entry of the list of methods; the unused ones are of `EAP_TYPE_NONE`. -/
def EapUser.methodAt (user : EapUser) (idx : Nat) : MethodId := user.methods.getD idx (vendorIetf, typeNone)

/-- `METHOD_PENDING_*`. -/
inductive MethodPending
  | none
  | wait
  | cont
  deriving DecidableEq, Repr

/-- What a method sees of the machine. -/
structure EapShared where
  identity : Option Bytes
  user : Option EapUser
  userEapMethodIndex : Nat
  methodPending : MethodPending

/-- What a method changes in the machine; it does not take the identity away. -/
structure MethodEffect where
  identity : Option Bytes := Option.none
  user : Option (Option EapUser) := Option.none
  userEapMethodIndex : Option Nat := Option.none
  updateUser : Option Bool := Option.none
  methodPending : Option MethodPending := Option.none

/-- `struct eap_method`, on private data of type `π`. The functions that set a method up may have it wait,
and leave the identity and the user alone. -/
structure EapMethod (π : Type) where
  id : MethodId
  init : EapShared → Option π × Option MethodPending
  initPickUp : Option (EapShared → Option π × Option MethodPending) := Option.none
  buildReq : EapShared → π → UInt8 → π × Option Bytes × MethodEffect
  getTimeout : Option (π → Nat) := Option.none
  check : Option (π → Bytes → Bool) := Option.none
  process : EapShared → π → Bytes → π × MethodEffect
  isDone : π → Bool
  getKey : Option (π → Option Bytes) := Option.none
  isSuccess : π → Bool
  getEmsk : Option (π → Option Bytes) := Option.none
  getSessionId : Option (π → Option Bytes) := Option.none

/-- A method in use with its private data. -/
structure Selected (π : Type) where
  method : EapMethod π
  priv : π

/-- The registered methods, none of which is `EAP_TYPE_NONE` of the IETF. -/
structure MethodTable (π : Type) where
  methods : List (EapMethod π)
  typed : ∀ m ∈ methods, m.id ≠ (vendorIetf, typeNone)

/-- `eap_server_get_eap_method()`. -/
def MethodTable.get {π : Type} (t : MethodTable π) (id : MethodId) : Option (EapMethod π) :=
  t.methods.find? fun m => m.id == id

/-- The value of `currentMethod` for a method. -/
def methodType (id : MethodId) : Nat := if id.1 = vendorIetf then id.2 else typeExpanded

/-! ## Keys -/

/-- `struct eap_server_erp_key`; without `recvSeq` none was received. What was accepted with the key is not
kept by the source. -/
structure ErpServerKey where
  keynameNai : Bytes
  rRK : Bytes
  rIK : Bytes
  recvSeq : Option Nat := none
  cryptosuite : UInt8 := 0
  accepted : List Nat := []
  deriving DecidableEq, Repr

/-- The `erp_get_key()` callback. -/
def erpGetKey (keys : List ErpServerKey) (keyname : Bytes) : Option ErpServerKey :=
  keys.find? fun erp => erp.keynameNai == keyname

/-- A change of the key that `erpGetKey` finds. -/
def erpUpdateKey (keyname : Bytes) (f : ErpServerKey → ErpServerKey) : List ErpServerKey → List ErpServerKey
  | [] => []
  | erp :: keys => if erp.keynameNai == keyname then f erp :: keys else erp :: erpUpdateKey keyname f keys

def ErpServerKey.accept (erp : ErpServerKey) (seq : Nat) : ErpServerKey :=
  { erp with recvSeq := some seq, accepted := seq :: erp.accepted }

/-! ## The machine -/

/-- `EAP_state`. -/
inductive EapState
  | disabled | initialise | idle | received | integrityCheck | methodResponse | methodRequest | proposeMethod
  | selectAction | sendRequest | discard | nak | retransmit | success | failure | timeoutFailure | pickUpMethod
  | initializePassthrough | idle2 | retransmit2 | received2 | discard2 | sendRequest2 | aaaRequest | aaaResponse
  | aaaIdle | timeoutFailure2 | failure2 | success2 | initiateReauthStart | initiateReceived
  deriving DecidableEq, Repr

/-- `METHOD_PROPOSED`, `METHOD_CONTINUE` and `METHOD_END`. -/
inductive MethodState
  | proposed | continue | ended
  deriving DecidableEq, Repr

/-- `DECISION_*`. -/
inductive Decision
  | success | failure | continue | passthrough | initiateReauthStart
  deriving DecidableEq, Repr

/-- What has been done since `INITIALIZE`. -/
inductive Obs
  /-- `PROPOSE_METHOD` took an entry of the list of methods of the user. -/
  | proposed (user : EapUser) (idx : Nat)
  /-- `METHOD_REQUEST` had a request built with an identifier. -/
  | request (id : UInt8)
  /-- `METHOD_RESPONSE` gave a packet with an identifier to a method. -/
  | processed (method : MethodId) (id : UInt8)
  /-- The method was done then and gave out a key. -/
  | done (method : MethodId) (key : Option Bytes)
  /-- `aaaSuccess` was signalled in `AAA_IDLE`, by a result with a key or without one. -/
  | aaaSuccess (key : Option Bytes)
  deriving DecidableEq, Repr

/-- The configuration of `eap_server_sm_init()` and of the callbacks. The RADIUS server sets `backend_auth`, and
`eap_server` with it; the authenticator does not set it. -/
structure EapConf where
  backendAuth : Bool
  eapServer : Bool
  served : backendAuth = true → eapServer = true
  erp : Bool := false
  erpSendReauthStart : Bool := false
  erpDomain : Option Bytes := none
  maxRetrans : Nat := 5

/-- What the machine calls: the methods, the user database and the cryptography. -/
structure EapServerLib (π : Type) where
  erp : ErpLib
  methods : MethodTable π
  getEapUser : Bytes → Option EapUser

/-- `struct eap_sm` with `struct eap_eapol_interface`. -/
structure Sm (π : Type) where
  conf : EapConf
  state : EapState := .disabled
  changed : Bool := false
  -- the interface to the lower layer
  portEnabled : Bool := false
  eapResp : Bool := false
  eapRestart : Bool := false
  retransWhile : Nat := 0
  eapRespData : Option Bytes := none
  eapReq : Bool := false
  eapNoReq : Bool := false
  eapSuccess : Bool := false
  eapFail : Bool := false
  eapTimeout : Bool := false
  eapReqData : Option Bytes := none
  eapKeyData : Option Bytes := none
  eapSessionId : Option Bytes := none
  eapKeyAvailable : Bool := false
  -- the interface to AAA; `aaaEapKeyAvailable` says that there is `aaaEapKeyData`
  aaaEapReq : Bool := false
  aaaEapNoReq : Bool := false
  aaaSuccess : Bool := false
  aaaFail : Bool := false
  aaaTimeout : Bool := false
  aaaEapResp : Bool := false
  aaaEapReqData : Option Bytes := none
  aaaEapRespData : Option Bytes := none
  aaaEapKeyData : Option Bytes := none
  aaaMethodTimeout : Nat := 0
  -- local variables
  currentMethod : Nat := typeNone
  currentId : Option UInt8 := some 0
  lastId : Option UInt8 := some 0
  methodState : MethodState := .proposed
  retransCount : Nat := 0
  lastReqData : Option Bytes := none
  methodTimeout : Nat := 0
  rxResp : Bool := false
  rxInitiate : Bool := false
  respId : Option UInt8 := some 0
  respMethod : Nat := typeNone
  respVendor : Nat := vendorIetf
  respVendorMethod : Nat := typeNone
  ignore : Bool := false
  decision : Decision := .success
  m : Option (Selected π) := none
  identity : Option Bytes := none
  user : Option EapUser := none
  userEapMethodIndex : Nat := 0
  updateUser : Bool := false
  numRounds : Nat := 0
  methodPending : MethodPending := .none
  startReauth : Bool := false
  initiateReauthStartSent : Bool := false
  tryInitiateReauth : Bool := false
  erpKeys : List ErpServerKey := []
  log : List Obs := []

/-- What the C code does not survive. -/
inductive EapFault
  /-- A function of the method is called without a method. -/
  | noMethod
  /-- `PROPOSE_METHOD` tries the Identity method over and over. -/
  | noReturn
  deriving DecidableEq, Repr

variable {π : Type}

namespace Sm

def shared (sm : Sm π) : EapShared where
  identity := sm.identity
  user := sm.user
  userEapMethodIndex := sm.userEapMethodIndex
  methodPending := sm.methodPending

def apply (sm : Sm π) (e : MethodEffect) : Sm π :=
  { sm with
    identity := e.identity.orElse fun _ => sm.identity
    user := e.user.getD sm.user
    userEapMethodIndex := e.userEapMethodIndex.getD sm.userEapMethodIndex
    updateUser := e.updateUser.getD sm.updateUser
    methodPending := e.methodPending.getD sm.methodPending }

/-- `SM_ENTRY` from a local rule. -/
def enter (sm : Sm π) (state : EapState) : Sm π := { sm with state, changed := true }

/-- `SM_ENTRY` from a global rule. -/
def enterGlobal (sm : Sm π) (state : EapState) : Sm π :=
  { sm with state, changed := sm.changed || decide (sm.state ≠ state) }

/-! ## Received packets -/

/-- `eap_sm_parseEapResp()`. -/
def parseEapResp (sm : Sm π) : Sm π :=
  let sm := { sm with
    rxResp := false
    rxInitiate := false
    respId := none
    respMethod := typeNone
    respVendor := vendorIetf
    respVendorMethod := typeNone }
  if sm.eapRespData.all fun resp => resp.length < 4 || resp.length < eapHdrLen resp then
    sm
  else
    let resp := sm.eapRespData.getD []
    let code := resp.getD 0 0
    let sm := { sm with
      respId := some (resp.getD 1 0)
      rxResp := code == codeResponse
      rxInitiate := code != codeResponse && code == codeInitiate }
    if eapHdrLen resp ≤ 4 then
      sm
    else
      let sm := { sm with respMethod := (resp.getD 4 0).toNat }
      if sm.respMethod ≠ typeExpanded ∨ eapHdrLen resp < 12 then
        sm
      else
        { sm with respVendor := beNat (slice resp 5 3), respVendorMethod := beNat (slice resp 8 4) }

def respIs (sm : Sm π) (type : Nat) : Bool :=
  sm.respMethod == type ||
    (sm.respMethod == typeExpanded && sm.respVendor == vendorIetf && sm.respVendorMethod == type)

/-- `eap_sm_getId()`. -/
def getId (data : Option Bytes) : Option UInt8 :=
  data.bind fun data => if data.length < 4 then none else some (data.getD 1 0)

/-- `eap_sm_nextId()`. -/
def nextId (sm : Sm π) (rand : UInt8) : UInt8 :=
  match sm.currentId with
  | none => if some rand ≠ sm.lastId then rand else rand + 1
  | some id => id + 1

/-- `eap_sm_calculateTimeout()`. -/
def calculateTimeout (sm : Sm π) : Nat :=
  if sm.tryInitiateReauth then 1
  else if sm.methodTimeout ≠ 0 then sm.methodTimeout
  else min 20 (3 * 2 ^ sm.retransCount)


/-- `sm->identity` is what `eap_sm_Policy_getNextMethod()` asks for, or the identifier is not known. -/
def asksIdentity (sm : Sm π) : Bool := sm.identity.isNone || sm.currentId.isNone

/-- There is an entry in the list of methods of the user at an index. -/
def hasMethodAt (user : Option EapUser) (idx : Nat) : Bool :=
  user.any fun user => idx < eapMaxMethods && user.methodAt idx != (vendorIetf, typeNone)

/-! ## Policy -/

/-- The loop of `eap_sm_process_nak()`, at an index, with the entries from there on. An entry that the peer
does not support is taken out of the list, and one of `EAP_TYPE_NONE` comes in at its end. -/
def processNak (nakList : Bytes) : List MethodId → List MethodId
  | [] => []
  | method :: methods =>
    if method = (vendorIetf, typeNone) then
      method :: methods
    else if method.1 = vendorIetf ∧ nakList.any (fun b => b.toNat == method.2) then
      method :: processNak nakList methods
    else
      processNak nakList methods ++ [(vendorIetf, typeNone)]

/-- `eap_sm_Policy_update()`. -/
def policyUpdate (sm : Sm π) (nakList : Option Bytes) : Sm π :=
  match nakList, sm.user with
  | some nakList, some user =>
    if user.phase2 then
      { sm with decision := .failure }
    else
      let idx := sm.userEapMethodIndex
      let methods := (List.range eapMaxMethods).map user.methodAt
      { sm with user := some { user with methods := methods.take idx ++ processNak nakList (methods.drop idx) } }
  | _, _ => sm

/-- `eap_sm_Policy_getNextMethod()`. -/
def getNextMethod (sm : Sm π) : MethodId × Sm π :=
  if sm.asksIdentity then
    ((vendorIetf, typeIdentity), { sm with updateUser := true })
  else if hasMethodAt sm.user sm.userEapMethodIndex then
    let user := sm.user.getD ⟨[], false⟩
    (user.methodAt sm.userEapMethodIndex,
      { sm with
        userEapMethodIndex := sm.userEapMethodIndex + 1
        log := .proposed user sm.userEapMethodIndex :: sm.log })
  else
    ((vendorIetf, typeNone), sm)

/-- The first entry of the list of methods of the user is the Identity method. -/
def identityFirst (user : Option EapUser) : Bool := user.any fun user => user.methodAt 0 == (vendorIetf,
    typeIdentity)

/-- The part of `eap_sm_Policy_getDecision()` that looks the user up again; without a result it goes on. -/
def lookUpUser (lib : EapServerLib π) (sm : Sm π) : Option Decision × Sm π :=
  if (sm.user.isNone ∨ sm.updateUser) ∧ sm.identity.isSome ∧ !sm.startReauth then
    let idReq := sm.currentMethod == typeIdentity && identityFirst sm.user
    match sm.identity.bind lib.getEapUser with
    | none => (some .failure, { sm with user := none })
    | some user =>
      let sm := { sm with user := some user, userEapMethodIndex := 0 }
      if idReq ∧ identityFirst sm.user then
        (some .failure, { sm with updateUser := true })
      else
        (none, { sm with updateUser := false })
  else
    (none, sm)

/-- `eap_sm_Policy_getDecision()`. -/
def getDecision (lib : EapServerLib π) (sm : Sm π) : Decision × Sm π :=
  if !sm.conf.eapServer ∧ sm.identity.isSome ∧ !sm.startReauth then
    (.passthrough, sm)
  else if sm.currentMethod ≠ typeIdentity ∧ sm.m.any fun s => s.method.isSuccess s.priv then
    (.success, { sm with updateUser := true })
  else if sm.m.any fun s => s.method.isDone s.priv && !s.method.isSuccess s.priv then
    (.failure, { sm with updateUser := true })
  else
    match lookUpUser lib sm with
    | (some decision, sm) => (decision, sm)
    | (none, sm) =>
      let sm := { sm with startReauth := false }
      if hasMethodAt sm.user sm.userEapMethodIndex then
        (.continue, sm)
      else if sm.identity.isNone ∧ sm.conf.erpSendReauthStart ∧ !sm.initiateReauthStartSent then
        (.initiateReauthStart, sm)
      else if sm.asksIdentity then
        (.continue, sm)
      else
        (.failure, sm)

/-! ## States -/

/-- `SM_STATE(EAP, DISABLED)`. -/
def disabled (sm : Sm π) : Sm π := { sm with numRounds := 0 }

/-- What `SM_STATE(EAP, INITIALIZE)` resets. -/
def resetVars (sm : Sm π) : Sm π :=
  { sm with
    identity := if sm.eapRestart ∧ !sm.conf.eapServer then none else sm.identity
    tryInitiateReauth := false
    currentId := none
    eapSuccess := false
    eapFail := false
    eapTimeout := false
    eapKeyData := none
    eapSessionId := none
    eapKeyAvailable := false
    eapRestart := false
    m := none
    userEapMethodIndex := 0
    numRounds := 0
    methodPending := .none
    log := [] }

/-- `SM_STATE(EAP, INITIALIZE)`. -/
def initialise (sm : Sm π) : Sm π :=
  let sm := sm.resetVars
  if sm.conf.backendAuth then
    let sm := parseEapResp { sm with currentMethod := typeNone }
    { sm with currentId := if sm.rxResp then sm.respId else none }
  else
    sm

/-- `SM_STATE(EAP, PICK_UP_METHOD)`. Only the Identity method is picked up. -/
def pickUpMethod (lib : EapServerLib π) (sm : Sm π) : Sm π :=
  if sm.respMethod = typeIdentity then
    match lib.methods.get (vendorIetf, sm.respMethod) with
    | none => { sm with m := none, currentMethod := typeNone }
    | some method =>
      match method.initPickUp with
      | none => { sm with m := none, currentMethod := typeNone }
      | some initPickUp =>
        let (priv, pending) := initPickUp sm.shared
        let sm := { sm with methodPending := pending.getD sm.methodPending }
        match priv with
        | none => { sm with m := none, currentMethod := typeNone }
        | some priv => { sm with m := some ⟨method, priv⟩, currentMethod := sm.respMethod }
  else
    sm

/-- `SM_STATE(EAP, IDLE)` and `SM_STATE(EAP, IDLE2)`. -/
def idle (sm : Sm π) : Sm π := { sm with retransWhile := sm.calculateTimeout }

/-- `SM_STATE(EAP, RETRANSMIT)` and `SM_STATE(EAP, RETRANSMIT2)`. -/
def retransmit (sm : Sm π) : Sm π :=
  let sm := { sm with retransCount := sm.retransCount + 1 }
  if sm.retransCount ≤ sm.conf.maxRetrans ∧ sm.lastReqData.isSome then
    { sm with eapReqData := sm.lastReqData, eapReq := true }
  else
    sm

/-- `SM_STATE(EAP, RECEIVED)`. -/
def received (sm : Sm π) : Sm π :=
  let sm := parseEapResp sm
  { sm with numRounds := sm.numRounds + 1 }

/-- `SM_STATE(EAP, DISCARD)` and `SM_STATE(EAP, DISCARD2)`. -/
def discard (sm : Sm π) : Sm π := { sm with eapResp := false, eapNoReq := true }

/-- `SM_STATE(EAP, SEND_REQUEST)` and `SM_STATE(EAP, SEND_REQUEST2)`. -/
def sendRequest (sm : Sm π) : Sm π :=
  let sm := { sm with retransCount := 0, eapResp := false }
  if sm.eapReqData.isSome then
    { sm with lastReqData := sm.eapReqData, eapReq := true }
  else
    { sm with eapReq := false, eapNoReq := true }

/-- `SM_STATE(EAP, INTEGRITY_CHECK)`. -/
def integrityCheck (sm : Sm π) : Except EapFault (Sm π) :=
  if !eapHdrLenValid sm.eapRespData 1 then
    .ok { sm with ignore := true }
  else
    match sm.m with
    | none => .error .noMethod
    | some s =>
      .ok { sm with ignore := s.method.check.elim sm.ignore fun check => check s.priv (sm.eapRespData.getD []) }

/-- `SM_STATE(EAP, METHOD_REQUEST)`. -/
def methodRequest (rand : UInt8) (sm : Sm π) : Sm π :=
  match sm.m with
  | none => sm
  | some s =>
    let id := sm.nextId rand
    let (priv, req, effect) := s.method.buildReq sm.shared s.priv id
    let sm := sm.apply effect
    { sm with
      currentId := some id
      lastId := some id
      eapReqData := req
      m := some ⟨s.method, priv⟩
      methodTimeout := s.method.getTimeout.elim 0 fun getTimeout => getTimeout priv
      log := .request id :: sm.log }

/-- The keys that `eap_server_erp_init()` stores. -/
def erpInit (lib : ErpLib) (conf : EapConf) (emsk sessionId : Bytes) : Option ErpServerKey :=
  conf.erpDomain.bind fun domain =>
    if 2 * 8 + 1 + domain.length > 253 ∨ emsk = [] ∨ emsk.length > erpMaxKeyLen then
      none
    else
      some
        { keynameNai := Erp.keynameNai lib sessionId domain
          rRK := Erp.rRK lib emsk
          rIK := Erp.rIK lib (Erp.rRK lib emsk) }

/-- The ERP keys after a method was done with an EMSK and a Session-Id. -/
def erpKeysDone (lib : ErpLib) (sm : Sm π) (emsk sessionId : Option Bytes) : List ErpServerKey :=
  match emsk, sessionId with
  | some emsk, some sessionId => (erpInit lib sm.conf emsk sessionId).toList ++ sm.erpKeys
  | _, _ => sm.erpKeys

/-- `SM_STATE(EAP, METHOD_RESPONSE)`. -/
def methodResponse (lib : EapServerLib π) (sm : Sm π) : Except EapFault (Sm π) :=
  if !eapHdrLenValid sm.eapRespData 1 then
    .ok sm
  else
    match sm.m with
    | none => .error .noMethod
    | some s =>
      let resp := sm.eapRespData.getD []
      let (priv, effect) := s.method.process sm.shared s.priv resp
      let sm := sm.apply effect
      let sm := { sm with m := some ⟨s.method, priv⟩, log := .processed s.method.id (resp.getD 1 0) :: sm.log }
      if s.method.isDone priv then
        let key := s.method.getKey.bind fun getKey => getKey priv
        let sessionId := s.method.getSessionId.bind fun getSessionId => getSessionId priv
        let emsk := if sm.conf.erp then s.method.getEmsk.bind fun getEmsk => getEmsk priv else none
        .ok { sm with
          eapKeyData := key
          eapSessionId := sessionId
          erpKeys := erpKeysDone lib.erp sm emsk sessionId
          methodState := .ended
          log := .done s.method.id key :: sm.log }
      else
        .ok { sm with methodState := .continue }

/-- The loop of `SM_STATE(EAP, PROPOSE_METHOD)`. -/
def proposeLoop (lib : EapServerLib π) : Nat → Sm π → Except EapFault (Sm π)
  | 0, _ => .error .noReturn
  | fuel + 1, sm =>
    let (id, sm) := sm.getNextMethod
    match lib.methods.get id with
    | none => .ok { sm with m := none, currentMethod := methodType id, decision := .failure }
    | some method =>
      let (priv, pending) := method.init sm.shared
      let sm := { sm with methodPending := pending.getD sm.methodPending }
      match priv with
      | none => proposeLoop lib fuel { sm with m := none, currentMethod := typeNone }
      | some priv =>
        .ok { sm with
          m := some ⟨method, priv⟩
          currentMethod := methodType id
          methodState :=
            if methodType id = typeIdentity ∨ methodType id = typeNotification then .continue else .proposed }

/-- `SM_STATE(EAP, PROPOSE_METHOD)`. The list of methods has an end, so that only the Identity method is tried
for ever. -/
def proposeMethod (lib : EapServerLib π) (sm : Sm π) : Except EapFault (Sm π) :=
  proposeLoop lib (eapMaxMethods + 1) { sm with tryInitiateReauth := false }

/-- `SM_STATE(EAP, NAK)`. -/
def nak (sm : Sm π) : Sm π :=
  let sm := { sm with m := none }
  if !eapHdrLenValid sm.eapRespData 1 then
    sm
  else
    let resp := sm.eapRespData.getD []
    sm.policyUpdate (if resp.getD 4 0 = 3 then some (slice resp 5 (eapHdrLen resp - 5)) else none)

/-- `SM_STATE(EAP, SELECT_ACTION)`. -/
def selectAction (lib : EapServerLib π) (sm : Sm π) : Sm π :=
  let (decision, sm) := sm.getDecision lib
  { sm with decision }

/-- `SM_STATE(EAP, TIMEOUT_FAILURE)` and `SM_STATE(EAP, TIMEOUT_FAILURE2)`. -/
def timeoutFailure (sm : Sm π) : Sm π := { sm with eapTimeout := true }

/-- The identifier of a message built without a request before is the one of `(u8) -1`. -/
def idOctet (id : Option UInt8) : UInt8 := id.getD 0xff

/-- `SM_STATE(EAP, FAILURE)`. -/
def failure (sm : Sm π) : Sm π :=
  { sm with
    eapReqData := some (eapHdr codeFailure (idOctet sm.currentId))
    lastReqData := none
    eapFail := true }

/-- `SM_STATE(EAP, SUCCESS)`. -/
def success (sm : Sm π) : Sm π :=
  { sm with
    eapReqData := some (eapHdr codeSuccess (idOctet sm.currentId))
    lastReqData := none
    eapKeyAvailable := sm.eapKeyAvailable || sm.eapKeyData.isSome
    eapSuccess := true }

/-- `eap_sm_buildInitiateReauthStart()`. -/
def buildInitiateReauthStart (conf : EapConf) (id : UInt8) : Bytes :=
  eapMsg typeReauthStart codeInitiate id
    (0 :: conf.erpDomain.elim [] fun domain => [4, UInt8.ofNat domain.length] ++ domain)

/-- `SM_STATE(EAP, INITIATE_REAUTH_START)`. -/
def initiateReauthStart (rand : UInt8) (sm : Sm π) : Sm π :=
  let id := sm.nextId rand
  { sm with
    initiateReauthStartSent := true
    tryInitiateReauth := true
    currentId := some id
    lastId := some id
    eapReqData := some (buildInitiateReauthStart sm.conf id)
    lastReqData := none }

def hashLenOf (cryptosuite : UInt8) : Option Nat :=
  if cryptosuite = csHmacSha256256 then some 32 else if cryptosuite = csHmacSha256128 then some 16 else none

/-- The message of `erp_send_finish_reauth()`. -/
def finishReauth (lib : ErpLib) (erp : Option ErpServerKey) (id flags : UInt8) (seq : Nat)
    (nai : Bytes) : Option Bytes :=
  let payload := [flags] ++ natBe 2 seq ++ [1, UInt8.ofNat nai.length] ++ nai
  match erp with
  | none => some (eapMsg typeReauth codeFinish id payload)
  | some erp =>
    (hashLenOf erp.cryptosuite).map fun hashLen =>
      let hdr := [codeFinish, id] ++ natBe 2 (5 + payload.length + 1 + hashLen) ++ [typeReauth]
      let msg := hdr ++ payload ++ [erp.cryptosuite]
      msg ++ (lib.hmacSha256 erp.rIK msg).take hashLen

/-- `erp_send_finish_reauth()`. -/
def erpSendFinishReauth (lib : ErpLib) (sm : Sm π) (erp : Option ErpServerKey) (id flags : UInt8) (seq : Nat)
    (nai : Bytes) : Sm π :=
  match finishReauth lib erp id flags seq nai with
  | none => sm
  | some msg =>
    let sm :=
      { sm with
        lastId := sm.currentId
        currentId := some id
        eapReqData := some msg
        lastReqData := none }
    match erp with
    | none => { sm with eapFail := true }
    | some erp =>
      if flags &&& 0x80 ≠ 0 then
        { sm with eapFail := true }
      else
        { sm with eapKeyData := some (Erp.rMSK lib erp.rRK seq), eapKeyAvailable := true, eapSuccess := true }

end Sm

/-! ## EAP-Initiate/Re-auth -/

/-- What `INITIATE_RECEIVED` reads from a packet: the packet up to the length in its header, its sequence
number, its TVs and TLVs with all that follows them, and the name of the key. -/
structure Reauth where
  frame : Bytes
  seq : Nat
  tlvs : Bytes
  keyname : Bytes
  afterKeyname : Bytes
  deriving DecidableEq, Repr

/-- The first part of `SM_STATE(EAP, INITIATE_RECEIVED)`, up to the key name. -/
def parseReauth (resp : Option Bytes) : Option Reauth := do
  let off ← eapHdrValidate typeReauth resp
  let frame := (resp.getD []).take (eapHdrLen (resp.getD []))
  guard (4 ≤ frame.length - off)
  let tlvs := frame.drop (off + 3)
  let parse ← parseTlvs true tlvs
  let keyname ← parse.keyname
  guard (keyname.length ≤ 253)
  some ⟨frame, getBe16 (frame.drop (off + 1)), tlvs, keyname, parse.afterKeyname⟩

/-- The part of `SM_STATE(EAP, INITIATE_RECEIVED)` that looks for a tag: the length of the one that
verifies, and the cryptosuite of the key from then on. -/
def verifyTag (lib : ErpLib) (erp : ErpServerKey) (r : Reauth) : Option (Nat × UInt8) :=
  let maxLen := r.afterKeyname.length
  if maxLen < 1 + (if erp.cryptosuite = csHmacSha256256 then 32 else 16) then
    none
  else if erp.cryptosuite = csHmacSha256256 then
    if suiteAt 32 r.frame = csHmacSha256256 ∧ tagMatches lib erp.rIK 32 r.frame then
      some (32, csHmacSha256256)
    else
      none
  else if erp.cryptosuite = csHmacSha256128 then
    if suiteAt 16 r.frame = csHmacSha256128 ∧ tagMatches lib erp.rIK 16 r.frame then
      some (16, csHmacSha256128)
    else
      none
  -- no suite is known for the key yet: any that is supported will do
  else if maxLen ≥ 33 ∧ suiteAt 32 r.frame = csHmacSha256256 ∧ tagMatches lib erp.rIK 32 r.frame then
    some (32, csHmacSha256256)
  else if suiteAt 16 r.frame = csHmacSha256128 ∧ tagMatches lib erp.rIK 16 r.frame then
    some (16, csHmacSha256128)
  else
    none

namespace Sm

/-- The part of `SM_STATE(EAP, INITIATE_RECEIVED)` that is left to the server itself. -/
def initiateServe (lib : ErpLib) (sm : Sm π) (r : Reauth) : Sm π :=
  let nai := naiString r.keyname
  let id := (sm.eapRespData.getD []).getD 1 0
  match erpGetKey sm.erpKeys nai with
  | none => sm.erpSendFinishReauth lib none id 0x80 r.seq nai
  | some erp =>
    if erp.recvSeq.any fun recvSeq => r.seq ≤ recvSeq then
      { sm with ignore := true }
    else
      match verifyTag lib erp r with
      | none => { sm with ignore := true }
      | some (hashLen, cryptosuite) =>
        let erp := { erp with cryptosuite }
        let sm := { sm with erpKeys := erpUpdateKey nai (fun erp => { erp with cryptosuite }) sm.erpKeys }
        match parseTlvs false (r.tlvs.take (r.tlvs.length - (1 + hashLen))) with
        | none => { sm with ignore := true }
        | some _ =>
          let sm := { sm with erpKeys := erpUpdateKey nai (fun erp => erp.accept r.seq) sm.erpKeys }
          sm.erpSendFinishReauth lib (some (erp.accept r.seq)) id 0 r.seq nai

/-- `SM_STATE(EAP, INITIATE_RECEIVED)`. -/
def initiateReceived (lib : ErpLib) (sm : Sm π) : Sm π :=
  let sm := { sm with rxInitiate := false }
  match parseReauth sm.eapRespData with
  | none => { sm with ignore := true }
  | some r =>
    if !sm.conf.eapServer then
      { sm with identity := some r.keyname }
    else
      sm.initiateServe lib r

/-- `SM_STATE(EAP, INITIALIZE_PASSTHROUGH)`. -/
def initializePassthrough (sm : Sm π) : Sm π := { sm with aaaEapRespData := none, tryInitiateReauth := false }

/-- `SM_STATE(EAP, RECEIVED2)`. -/
def received2 (sm : Sm π) : Sm π := parseEapResp sm

/-- `SM_STATE(EAP, AAA_REQUEST)`. -/
def aaaRequest (sm : Sm π) : Sm π :=
    { sm with aaaEapRespData := sm.eapRespData.orElse fun _ => sm.aaaEapRespData }

/-- `SM_STATE(EAP, AAA_RESPONSE)`. -/
def aaaResponse (sm : Sm π) : Sm π :=
  let sm := { sm with eapReqData := sm.aaaEapReqData.orElse fun _ => sm.eapReqData }
  { sm with currentId := getId sm.eapReqData, methodTimeout := sm.aaaMethodTimeout }

/-- `SM_STATE(EAP, AAA_IDLE)`. -/
def aaaIdle (sm : Sm π) : Sm π :=
  { sm with
    aaaFail := false
    aaaSuccess := false
    aaaEapReq := false
    aaaEapNoReq := false
    aaaEapResp := true }

/-- `SM_STATE(EAP, FAILURE2)`. -/
def failure2 (sm : Sm π) : Sm π :=
  { sm with eapReqData := sm.aaaEapReqData.orElse fun _ => sm.eapReqData, eapFail := true }

/-- `SM_STATE(EAP, SUCCESS2)`. -/
def success2 (sm : Sm π) : Sm π :=
  { sm with
    eapReqData := sm.aaaEapReqData.orElse fun _ => sm.eapReqData
    eapKeyAvailable := sm.aaaEapKeyData.isSome
    eapKeyData := sm.aaaEapKeyData
    eapSuccess := true
    startReauth := true }

end Sm

/-! ## `SM_STEP(EAP)` -/

variable (lib : EapServerLib π) (rand : UInt8)

/-- The rules of `METHOD_REQUEST`. Both transitions may be taken in one step. -/
def stepMethodRequest (sm : Sm π) : Sm π :=
  if sm.m.isNone then
    (sm.enter .failure).failure
  else
    let sm := (sm.enter .sendRequest).sendRequest
    if sm.eapNoReq ∧ !sm.eapReq then (sm.enter .failure).failure else sm

/-- The rules of `METHOD_RESPONSE`. -/
def stepMethodResponse (sm : Sm π) : Except EapFault (Sm π) :=
  if sm.methodState = .ended then
    .ok ((sm.enter .selectAction).selectAction lib)
  else
    match sm.methodPending with
    | .wait => .ok sm
    | .cont => { sm.enter .methodResponse with methodPending := .none }.methodResponse lib
    | .none => .ok ((sm.enter .methodRequest).methodRequest rand)

/-- The rules of `PROPOSE_METHOD`. -/
def stepProposeMethod (sm : Sm π) : Except EapFault (Sm π) :=
  match sm.methodPending with
  | .wait => .ok { sm with userEapMethodIndex := sm.userEapMethodIndex - 1 }
  | .cont => { sm.enter .proposeMethod with methodPending := .none }.proposeMethod lib
  | .none => .ok ((sm.enter .methodRequest).methodRequest rand)

/-- The rules of `RECEIVED`. -/
def stepReceived (sm : Sm π) : Except EapFault (Sm π) :=
  if sm.rxResp ∧ sm.respId = sm.currentId ∧ sm.respIs typeNak ∧ sm.methodState = .proposed then
    .ok (sm.enter .nak).nak
  else if sm.rxResp ∧ sm.respId = sm.currentId ∧ sm.respIs sm.currentMethod then
    (sm.enter .integrityCheck).integrityCheck
  else if sm.rxInitiate then
    .ok ((sm.enter .initiateReceived).initiateReceived lib.erp)
  else
    .ok (sm.enter .discard).discard

/-- The rules of `SELECT_ACTION`. -/
def stepSelectAction (sm : Sm π) : Except EapFault (Sm π) :=
  match sm.decision with
  | .failure => .ok (sm.enter .failure).failure
  | .success => .ok (sm.enter .success).success
  | .passthrough => .ok (sm.enter .initializePassthrough).initializePassthrough
  | .initiateReauthStart => .ok ((sm.enter .initiateReauthStart).initiateReauthStart rand)
  | .continue =>
    if sm.conf.eapServer ∧ sm.conf.erp ∧ sm.rxInitiate then
      .ok ((sm.enter .initiateReceived).initiateReceived lib.erp)
    else
      (sm.enter .proposeMethod).proposeMethod lib

/-- The rules of `AAA_IDLE`. -/
def stepAaaIdle (sm : Sm π) : Sm π :=
  if sm.aaaFail then (sm.enter .failure2).failure2
  else if sm.aaaSuccess then (sm.enter .success2).success2
  else if sm.aaaEapReq then (sm.enter .aaaResponse).aaaResponse
  else if sm.aaaTimeout then (sm.enter .timeoutFailure2).timeoutFailure
  else sm

def stepLocal (sm : Sm π) : Except EapFault (Sm π) :=
  match sm.state with
  | .initialise =>
    if !sm.conf.backendAuth ∨ !sm.rxResp then
      .ok ((sm.enter .selectAction).selectAction lib)
    else if sm.respIs typeNak then
      .ok (sm.enter .nak).nak
    else
      .ok ((sm.enter .pickUpMethod).pickUpMethod lib)
  | .pickUpMethod =>
    if sm.currentMethod = typeNone then
      .ok ((sm.enter .selectAction).selectAction lib)
    else
      (sm.enter .methodResponse).methodResponse lib
  | .disabled => if sm.portEnabled then .ok (sm.enter .initialise).initialise else .ok sm
  | .idle =>
    if sm.retransWhile = 0 then
      if sm.tryInitiateReauth then
        .ok (({ sm with tryInitiateReauth := false }.enter .selectAction).selectAction lib)
      else
        .ok (sm.enter .retransmit).retransmit
    else if sm.eapResp then
      .ok (sm.enter .received).received
    else
      .ok sm
  | .retransmit =>
    if sm.retransCount > sm.conf.maxRetrans then
      .ok (sm.enter .timeoutFailure).timeoutFailure
    else
      .ok (sm.enter .idle).idle
  | .received => stepReceived lib sm
  | .discard => .ok (sm.enter .idle).idle
  | .sendRequest => .ok (sm.enter .idle).idle
  | .integrityCheck =>
    if sm.ignore then .ok (sm.enter .discard).discard else (sm.enter .methodResponse).methodResponse lib
  | .methodRequest => .ok (stepMethodRequest sm)
  | .methodResponse => stepMethodResponse lib rand sm
  | .proposeMethod => stepProposeMethod lib rand sm
  | .nak => .ok ((sm.enter .selectAction).selectAction lib)
  | .selectAction => stepSelectAction lib rand sm
  | .initiateReauthStart => .ok (sm.enter .sendRequest).sendRequest
  | .initiateReceived =>
    if !sm.conf.eapServer then .ok ((sm.enter .selectAction).selectAction lib) else .ok sm
  | .timeoutFailure => .ok sm
  | .failure => .ok sm
  | .success => .ok sm
  | .initializePassthrough =>
    if sm.currentId.isNone then .ok (sm.enter .aaaIdle).aaaIdle else .ok (sm.enter .aaaRequest).aaaRequest
  | .idle2 =>
    if sm.eapResp then .ok (sm.enter .received2).received2
    else if sm.retransWhile = 0 then .ok (sm.enter .retransmit2).retransmit
    else .ok sm
  | .retransmit2 =>
    if sm.retransCount > sm.conf.maxRetrans then
      .ok (sm.enter .timeoutFailure2).timeoutFailure
    else
      .ok (sm.enter .idle2).idle
  | .received2 =>
    if sm.rxResp ∧ sm.respId = sm.currentId then
      .ok (sm.enter .aaaRequest).aaaRequest
    else
      .ok (sm.enter .discard2).discard
  | .discard2 => .ok (sm.enter .idle2).idle
  | .sendRequest2 => .ok (sm.enter .idle2).idle
  | .aaaRequest => .ok (sm.enter .aaaIdle).aaaIdle
  | .aaaResponse => .ok (sm.enter .sendRequest2).sendRequest
  | .aaaIdle => .ok (stepAaaIdle sm)
  | .timeoutFailure2 => .ok sm
  | .failure2 => .ok sm
  | .success2 => .ok sm

/-- `EAP_MAX_AUTH_ROUNDS`. -/
abbrev eapMaxAuthRounds : Nat := 50

/-- `SM_STEP(EAP)`, with the number that `rand()` gives. -/
def smStep (sm : Sm π) : Except EapFault (Sm π) :=
  let sm := { sm with changed := false }
  if sm.eapRestart ∧ sm.portEnabled then
    .ok (sm.enterGlobal .initialise).initialise
  else if !sm.portEnabled then
    .ok (sm.enterGlobal .disabled).disabled
  else if sm.numRounds > eapMaxAuthRounds then
    if sm.numRounds = eapMaxAuthRounds + 1 then
      .ok ({ sm with numRounds := sm.numRounds + 1 }.enterGlobal .failure).failure
    else
      .ok sm
  else
    stepLocal lib rand sm

/-! ## Runs -/

/-- What happens to the machine. -/
inductive Event
  /-- A round of `eap_server_sm_step()`. -/
  | smStep (rand : UInt8)
  /-- An EAP packet of the peer is there; the lower layer sets `eapResp` when it takes it. -/
  | receive (resp : Bytes)
  | eapResp
  /-- The lower layer has sent the request, or has seen that there is none. -/
  | clearEapReq
  | clearEapNoReq
  /-- The result was taken, or the key. -/
  | clearResult
  | clearKeyAvailable
  /-- A second of `retransWhile` has passed. -/
  | tick
  | eapRestart
  /-- `eap_server_clear_identity()`. -/
  | clearIdentity
  | portEnabled (enabled : Bool)
  /-- A request of the AAA server. -/
  | aaaEapReq (req : Option Bytes) (timeout : Nat)
  /-- The AAA server accepts the peer, with what is to be sent and with a key, if there are any. -/
  | aaaSuccess (req key : Option Bytes)
  | aaaFail (req : Option Bytes)
  | aaaTimeout
  /-- The lower layer has taken the message to the AAA server, and may have learnt an identity from it. -/
  | aaaSend (identity : Option Bytes)
  /-- `eap_sm_pending_cb()`. -/
  | pendingCb
  /-- `eap_sm_notify_cached()`. -/
  | notifyCached
  /-- Another machine stores a key of ERP, or accepts a sequence number with one. -/
  | erpAdd (keynameNai rRK rIK : Bytes)
  | erpAccept (keyname : Bytes) (seq : Nat) (cryptosuite : UInt8)
  | erpRemove (keyname : Bytes)
  deriving DecidableEq, Repr

namespace Sm

/-- The message that the AAA server wants sent, if there is one. -/
def aaaMessage (sm : Sm π) (req : Option Bytes) : Sm π :=
  { sm with
    aaaEapNoReq := req.isNone || sm.aaaEapNoReq
    aaaEapReqData := req.orElse fun _ => sm.aaaEapReqData }

/-- `aaaSuccess`, as the lower layer signals it. A result without a key leaves the key of an earlier one. -/
def signalAaaSuccess (sm : Sm π) (req key : Option Bytes) : Sm π :=
  let sm := sm.aaaMessage req
  { sm with
    aaaSuccess := true
    aaaEapReq := false
    aaaEapKeyData := key.orElse fun _ => sm.aaaEapKeyData
    log := if sm.state = .aaaIdle then .aaaSuccess key :: sm.log else sm.log }

/-- Another machine accepts a sequence number, as this one would. -/
def erpAccept (sm : Sm π) (keyname : Bytes) (seq : Nat) (cryptosuite : UInt8) : Sm π :=
  match erpGetKey sm.erpKeys keyname with
  | none => sm
  | some erp =>
    if erp.recvSeq.any fun recvSeq => seq ≤ recvSeq then
      sm
    else
      { sm with erpKeys := erpUpdateKey keyname (fun erp => { erp with cryptosuite }.accept seq) sm.erpKeys }

end Sm

def step (sm : Sm π) : Event → Except EapFault (Sm π)
  | .smStep rand => smStep lib rand sm
  | .receive resp => .ok { sm with eapRespData := some resp }
  | .eapResp => .ok { sm with eapResp := true, eapNoReq := false }
  | .clearEapReq => .ok { sm with eapReq := false }
  | .clearEapNoReq => .ok { sm with eapNoReq := false }
  | .clearResult => .ok (if sm.eapFail then { sm with eapFail := false } else { sm with eapSuccess := false })
  | .clearKeyAvailable => .ok { sm with eapKeyAvailable := false }
  | .tick => .ok { sm with retransWhile := sm.retransWhile - 1 }
  | .eapRestart => .ok { sm with eapRestart := true }
  | .clearIdentity => .ok { sm with identity := none }
  | .portEnabled enabled => .ok { sm with portEnabled := enabled }
  | .aaaEapReq req timeout => .ok { sm.aaaMessage req with aaaEapReq := true, aaaMethodTimeout := timeout }
  | .aaaSuccess req key => .ok (sm.signalAaaSuccess req key)
  | .aaaFail req => .ok { sm.aaaMessage req with aaaFail := true, aaaEapReq := false }
  | .aaaTimeout => .ok { sm with aaaTimeout := true }
  | .aaaSend identity => .ok { sm with aaaEapResp := false, identity := identity.orElse fun _ => sm.identity }
  | .pendingCb => .ok (if sm.methodPending = .wait then { sm with methodPending := .cont } else sm)
  | .notifyCached => .ok { sm with state := .success }
  | .erpAdd keynameNai rRK rIK => .ok { sm with erpKeys := { keynameNai, rRK, rIK } :: sm.erpKeys }
  | .erpAccept keyname seq cryptosuite => .ok (sm.erpAccept keyname seq cryptosuite)
  | .erpRemove keyname => .ok { sm with erpKeys := sm.erpKeys.filter fun erp => erp.keynameNai != keyname }

/-- When an event is taken: all but the rounds happen when the rounds have come to an end, and the message
to the AAA server is taken in `AAA_IDLE`. -/
def taken (sm : Sm π) : Event → Bool
  | .smStep _ => true
  | .aaaSend _ => !sm.changed && sm.state == .aaaIdle
  | _ => !sm.changed

/-- The machine after `eap_server_sm_init()`. -/
def initSm (conf : EapConf) : Sm π := { conf }

end EapServer

end Hostap
