import Hostap.Eap.Erp

/-!
# The state machine of the EAP peer

`SM_STEP(EAP)` of `eap_peer/eap.c` with all its states, and what the peer does with the messages of ERP.
Methods, smart cards and the user come from outside: a method is a record of functions on its private data,
which see of the machine what `EapShared` has and change it by a `MethodEffect`. What `eapol_get_bool()` and
`eapol_set_bool()` reach is in the same record.

One `smStep` is one run of `SM_STEP`. `eap_peer_sm_step()` repeats it as long as `changed` is set, and
everything else happens between two such calls: the events of `step` other than `smStep` are taken while
`changed` is not set.

`SUCCESS` dereferences the configuration, and the method for ERP; without one this is a fault here. Memory
does not run out. `log` is not part of the source: it is what has been done since `INITIALIZE`, the last
first.
-/

namespace Hostap

namespace EapPeer

open Octets Erp

/-! ## Methods and the configuration -/

abbrev MethodId : Type := Nat × Nat

/-- `EapDecision`. -/
inductive Decision
  | fail | condSucc | uncondSucc
  deriving DecidableEq, Repr

/-- `EapMethodState`. -/
inductive MethodState
  | none | init | cont | mayCont | done
  deriving DecidableEq, Repr

/-- `struct eap_method_ret`. -/
structure EapMethodRet where
  ignore : Bool
  methodState : MethodState
  decision : Decision
  allowNotifications : Bool
  deriving DecidableEq, Repr

/-- `struct eap_peer_config`, as far as the machine reads it, and where it is. -/
structure EapPeerConfig where
  address : Nat := 0
  identity : Option Bytes := Option.none
  anonymousIdentity : Option Bytes := Option.none
  phase1 : Option String := Option.none
  eapMethods : Option (List MethodId) := Option.none
  erp : Bool := false
  pendingReqPin : Bool := false
  pendingReqPassphrase : Bool := false
  deriving DecidableEq, Repr

/-- What a method sees of the machine; `outside` is all that comes from elsewhere, such as random numbers. -/
structure EapShared where
  config : Option EapPeerConfig
  workaround : Bool
  outside : Bytes

/-- What a method changes in the machine. -/
structure MethodEffect where
  ignore : Option Bool := Option.none
  leapDone : Option Bool := Option.none
  peapDone : Option Bool := Option.none
  clientTimeout : Option Nat := Option.none
  deriving DecidableEq, Repr

/-- The functions of a method that keeps data for the next authentication. -/
structure EapReauth (π : Type) where
  hasReauthData : π → Bool
  deinitForReauth : π → π
  initForReauth : EapShared → π → Option π × MethodEffect

/-- `struct eap_method`, on private data of type `π`. A method says that a key is available when `getKey()`
has one. A method that `deinit_for_reauth()` has set aside is `parked`: it ignores a request of
`EAP_TYPE_NONE`, as `eap_hdr_validate()` has every method do that checks the type before all else. -/
structure EapMethod (π : Type) where
  id : MethodId
  init : EapShared → Option π × MethodEffect
  process : EapShared → π → EapMethodRet → Bytes → π × EapMethodRet × Option Bytes × MethodEffect
  isKeyAvailable : Option (π → Bool) := Option.none
  getKey : Option (π → Option Bytes) := Option.none
  getEmsk : Option (π → Option Bytes) := Option.none
  getSessionId : Option (π → Option Bytes) := Option.none
  reauth : Option (EapReauth π) := Option.none
  parked : π → Bool
  keyed : ∀ available get priv, isKeyAvailable = some available → getKey = some get → available priv = true →
    (get priv).isSome = true
  parks : ∀ r priv, reauth = some r → parked (r.deinitForReauth priv) = true
  ignores : ∀ shared priv ret req, parked priv = true → req.getD 4 0 = 0 →
    (process shared priv ret req).2.1.ignore = true ∧ parked (process shared priv ret req).1 = true

/-- `sm->m` with `sm->eap_method_priv`. -/
structure Selected (π : Type) where
  method : EapMethod π
  priv : π

/-- The registered methods, none of which is `EAP_TYPE_NONE` of the IETF. -/
structure MethodTable (π : Type) where
  methods : List (EapMethod π)
  typed : ∀ m ∈ methods, m.id ≠ (vendorIetf, typeNone)

/-- `eap_peer_get_eap_method()`. -/
def MethodTable.get {π : Type} (t : MethodTable π) (id : MethodId) : Option (EapMethod π) :=
  t.methods.find? fun m => m.id == id

/-- `eap_allowed_method()`. -/
def eapAllowedMethod (config : Option EapPeerConfig) (id : MethodId) : Bool :=
  (config.bind EapPeerConfig.eapMethods).all fun methods => methods.contains id

/-- `os_strstr()` finds a string. -/
def strstr (haystack needle : List Char) : Bool := haystack.tails.any fun s => needle.isPrefixOf s

/-- `eap_peer_sm_allow_canned()`. -/
def allowCanned (config : Option EapPeerConfig) : Bool :=
  (config.bind EapPeerConfig.phase1).any fun phase1 => strstr phase1.toList "allow_canned_success=1".toList

/-! ## Keys of ERP -/

/-- `struct eap_erp_key`. -/
structure ErpKey where
  keynameNai : Bytes
  rRK : Bytes
  rIK : Bytes
  nextSeq : Nat := 0
  deriving DecidableEq, Repr

/-- What follows the first `@`, if there is one. -/
def afterAt (s : Bytes) : Option Bytes := if s.contains 0x40 then some
    ((s.dropWhile (· != 0x40)).drop 1) else Option.none

/-- `eap_home_realm()`, without an IMSI. -/
def eapHomeRealm (config : Option EapPeerConfig) : Option Bytes :=
  (config.bind fun config =>
    (config.identity.bind afterAt).orElse fun _ => config.anonymousIdentity.bind afterAt).map naiString

def ErpKey.ofRealm (erp : ErpKey) (realm : Bytes) : Bool := afterAt erp.keynameNai == some realm

/-- `eap_erp_get_key()`. -/
def eapErpGetKey (keys : List ErpKey) (realm : Bytes) : Option ErpKey := keys.find? fun erp => erp.ofRealm realm

/-- `eap_erp_get_key_nai()`. -/
def eapErpGetKeyNai (keys : List ErpKey) (nai : Bytes) : Option ErpKey :=
    keys.find? fun erp => erp.keynameNai == nai

/-- The sequence number of the key that `eapErpGetKey` finds is used. -/
def useSeq (realm : Bytes) : List ErpKey → List ErpKey
  | [] => []
  | erp :: keys =>
    if erp.ofRealm realm then { erp with nextSeq := erp.nextSeq + 1 } :: keys else erp :: useSeq realm keys

/-- The keys after `eap_peer_erp_init()` for a session with an EMSK and a Session-Id. -/
def eapPeerErpInit (lib : ErpLib) (config : Option EapPeerConfig) (keys : List ErpKey)
    (emsk sessionId : Option Bytes) :
    List ErpKey :=
  match eapHomeRealm config with
  | none => keys
  | some realm =>
    let keys := keys.filter fun erp => !erp.ofRealm realm
    let emsk := emsk.getD []
    let sessionId := sessionId.getD []
    if 2 * 8 + 1 + realm.length > 253 ∨ emsk = [] ∨ emsk.length > erpMaxKeyLen ∨ sessionId = [] then
      keys
    else
      { keynameNai := Erp.keynameNai lib sessionId realm
        rRK := Erp.rRK lib emsk
        rIK := Erp.rIK lib (Erp.rRK lib emsk) } :: keys

/-- The message of `eap_peer_build_erp_reauth_start()`. -/
def reauthMessage (lib : ErpLib) (erp : ErpKey) (id : UInt8) : Bytes :=
  let payload := [0x20] ++ natBe 2 erp.nextSeq ++ [1, UInt8.ofNat erp.keynameNai.length] ++ erp.keynameNai
  let msg := [codeInitiate, id] ++ natBe 2
    (5 + payload.length + 1 + 16) ++ [typeReauth] ++ payload ++ [csHmacSha256128]
  msg ++ (lib.hmacSha256 erp.rIK msg).take 16

def reauthSeq (frame : Bytes) : Nat := getBe16 (frame.drop 6)

/-! ## The machine -/

/-- `EAP_state`. -/
inductive EapState
  | initialise | disabled | idle | received | getMethod | method | sendResponse | discard | identity |
  notification
  | retransmit | success | failure
  deriving DecidableEq, Repr

/-- What has been done since `INITIALIZE`. -/
inductive Obs
  /-- `METHOD` had a packet processed that was not ignored, with this decision. -/
  | processed (method : MethodId) (decision : Decision)
  /-- `METHOD` took this key from the method. -/
  | keyed (method : MethodId) (key : Option Bytes)
  /-- `SEND_RESPONSE` sent this EAP-Initiate/Re-auth. -/
  | initiated (msg : Bytes)
  /-- An EAP-Finish/Re-auth was accepted with one of the keys that are stored. -/
  | finished (stored : List ErpKey) (erp : ErpKey) (frame : Bytes)
  deriving DecidableEq, Repr

/-- What the machine calls. -/
structure EapPeerLib (π : Type) where
  erp : ErpLib
  sha1 : Bytes → Bytes
  methods : MethodTable π
  /-- `eap_sm_buildIdentity()`, which may ask a method, a smart card or the user. -/
  buildIdentity : EapShared → Option (Selected π) → UInt8 → Option Bytes

/-- `EAP_CLIENT_TIMEOUT_DEFAULT`. -/
abbrev eapClientTimeoutDefault : Nat := 60

/-- `EAP_MAX_AUTH_ROUNDS`. -/
abbrev eapMaxAuthRounds : Nat := 50

/-- `(u32) -1`, which is not a SEQ. -/
abbrev noErpSeq : Nat := 2 ^ 32 - 1

/-- `struct eap_sm` with what it reads and writes of `struct eapol_sm`. Without `lastId` it is `-1`. -/
structure Sm (π : Type) where
  state : EapState := .initialise
  changed : Bool := false
  -- the configuration of `eap_get_config()` and the parameters
  config : Option EapPeerConfig := none
  fastReauth : Bool := false
  workaround : Bool := false
  forceDisabled : Bool := false
  -- the variables of the EAPOL state machines
  portEnabled : Bool := false
  eapRestart : Bool := false
  eapReq : Bool := false
  eapReqData : Option Bytes := none
  eapResp : Bool := false
  eapNoResp : Bool := false
  eapSuccess : Bool := false
  eapFail : Bool := false
  eapTriggerStart : Bool := false
  altAccept : Bool := false
  altReject : Bool := false
  idleWhile : Nat := 0
  -- local variables
  selectedMethod : Nat := typeNone
  methodState : MethodState := .none
  lastId : Option UInt8 := some 0
  lastRespData : Option Bytes := none
  decision : Decision := .fail
  rxReq : Bool := false
  rxResp : Bool := false
  rxSuccess : Bool := false
  rxFailure : Bool := false
  reqId : UInt8 := 0
  reqMethod : Nat := typeNone
  reqVendor : Nat := vendorIetf
  reqVendorMethod : Nat := typeNone
  ignore : Bool := false
  clientTimeout : Nat := eapClientTimeoutDefault
  allowNotifications : Bool := false
  eapRespData : Option Bytes := none
  eapKeyAvailable : Bool := false
  eapKeyData : Option Bytes := none
  eapSessionId : Option Bytes := none
  m : Option (Selected π) := none
  reauthInit : Bool := false
  erpSeq : Nat := 0
  leapDone : Bool := false
  peapDone : Bool := false
  reqSha1 : Bytes := List.replicate 20 0
  lastSha1 : Bytes := List.replicate 20 0
  numRounds : Nat := 0
  prevFailure : Bool := false
  lastConfig : Option Nat := none
  erpKeys : List ErpKey := []
  log : List Obs := []

/-- What the C code does not survive. -/
inductive EapFault
  /-- `SUCCESS` without a configuration, or with ERP and without a method. -/
  | nullPointer
  deriving DecidableEq, Repr

variable {π : Type}

namespace Sm

def shared (sm : Sm π) (outside : Bytes) : EapShared where
  config := sm.config
  workaround := sm.workaround
  outside := outside

def apply (sm : Sm π) (e : MethodEffect) : Sm π :=
  { sm with
    ignore := e.ignore.getD sm.ignore
    leapDone := e.leapDone.getD sm.leapDone
    peapDone := e.peapDone.getD sm.peapDone
    clientTimeout := e.clientTimeout.getD sm.clientTimeout }

/-- `SM_ENTRY` from a local rule. -/
def enter (sm : Sm π) (state : EapState) : Sm π := { sm with state, changed := true }

/-- `SM_ENTRY` from a global rule. -/
def enterGlobal (sm : Sm π) (state : EapState) : Sm π :=
  { sm with state, changed := sm.changed || decide (sm.state ≠ state) }

/-! ## EAP-Initiate and EAP-Finish -/

/-- `eap_peer_erp_reauth_start()`. -/
def erpReauthStart (lib : ErpLib) (sm : Sm π) (id : UInt8) : Option (Sm π) := do
  let realm ← eapHomeRealm sm.config
  let erp ← eapErpGetKey sm.erpKeys realm
  guard (erp.nextSeq < 65536)
  some
    { sm with
      eapRespData := some (reauthMessage lib erp id)
      reauthInit := true
      erpSeq := erp.nextSeq
      erpKeys := useSeq realm sm.erpKeys }

/-- `eap_peer_initiate()`. -/
def initiate (lib : ErpLib) (sm : Sm π) (frame : Bytes) : Sm π :=
  if frame.length < 6 ∨ frame.getD 4 0 ≠ typeReauthStart then
    sm
  else
    match parseTlvs false (frame.drop 6) with
    | none => { sm with eapTriggerStart := true }
    | some _ => (sm.erpReauthStart lib (frame.getD 1 0)).getD { sm with eapTriggerStart := true }

/-- The part of `eap_peer_finish()` up to the key: the key and what follows its name. -/
def finishKey (sm : Sm π) (frame : Bytes) : Option (ErpKey × Bytes) := do
  guard (8 ≤ frame.length ∧ frame.getD 4 0 = typeReauth)
  guard (reauthSeq frame = sm.erpSeq)
  let parse ← parseTlvs true (frame.drop 8)
  let keyname ← parse.keyname
  guard (keyname.length ≤ 253)
  let erp ← eapErpGetKeyNai sm.erpKeys (naiString keyname)
  some (erp, parse.afterKeyname)

def rFlag (frame : Bytes) : Bool := frame.getD 5 0 &&& 0x80 != 0

/-- The part of `eap_peer_finish()` that looks for the tag: whether it verifies. Without a result the packet is
dropped. -/
def finishTag (lib : ErpLib) (erp : ErpKey) (frame after : Bytes) : Option Bool :=
  if after.length < 1 + 16 ∨ suiteAt 16 frame ≠ csHmacSha256128 then
    if rFlag frame then some false else none
  else if tagMatches lib erp.rIK 16 frame then
    some true
  else
    none

/-- `eap_peer_finish()`. -/
def finish (lib : ErpLib) (sm : Sm π) (frame : Bytes) : Sm π :=
  match sm.finishKey frame with
  | none => sm
  | some (erp, after) =>
    match finishTag lib erp frame after with
    | none => sm
    | some authTagOk =>
      let tlvs := (frame.drop 8).take (frame.length - 8 - if authTagOk then 17 else 0)
      match parseTlvs false tlvs with
      | none => sm
      | some _ =>
        if rFlag frame ∨ !authTagOk then
          { sm with
            eapFail := true
            eapReq := false
            eapNoResp := true
            prevFailure := true
            erpKeys := sm.erpKeys.erase erp }
        else
          { sm with
            eapKeyData := some (Erp.rMSK lib erp.rRK (reauthSeq frame))
            eapKeyAvailable := true
            eapSuccess := true
            eapReq := false
            eapNoResp := true
            log := .finished sm.erpKeys erp frame :: sm.log }

/-! ## Received packets -/

/-- The part of `eap_sm_parseEapReq()` for a Request. -/
def parseRequest (sm : Sm π) (frame : Bytes) : Sm π :=
  if frame.length < 5 then
    sm
  else
    let sm := { sm with rxReq := true, reqMethod := (frame.getD 4 0).toNat }
    if sm.reqMethod ≠ typeExpanded ∨ frame.length < 12 then
      sm
    else
      { sm with reqVendor := beNat (slice frame 5 3), reqVendorMethod := beNat (slice frame 8 4) }

/-- The part of `eap_sm_parseEapReq()` for a Response, which is for LEAP only. -/
def parseResponse (sm : Sm π) (frame : Bytes) : Sm π :=
  if sm.selectedMethod ≠ typeLeap ∨ frame.length < 5 then
    sm
  else
    { sm with rxResp := true, reqMethod := (frame.getD 4 0).toNat }

/-- The part of `eap_sm_parseEapReq()` for a packet of a code, up to the length in its header. -/
def parsePacket (lib : EapPeerLib π) (sm : Sm π) (code : UInt8) (frame : Bytes) : Sm π :=
  if code = codeRequest then sm.parseRequest frame
  else if code = codeResponse then sm.parseResponse frame
  else if code = codeSuccess then { sm with rxSuccess := true }
  else if code = codeFailure then { sm with rxFailure := true }
  else if code = codeInitiate then sm.initiate lib.erp frame
  else if code = codeFinish then sm.finish lib.erp frame
  else sm

/-- `eap_sm_parseEapReq()`. -/
def parseEapReq (lib : EapPeerLib π) (sm : Sm π) : Sm π :=
  let sm := { sm with
    rxReq := false
    rxResp := false
    rxSuccess := false
    rxFailure := false
    reqId := 0
    reqMethod := typeNone
    reqVendor := vendorIetf
    reqVendorMethod := typeNone }
  match sm.eapReqData with
  | none => sm
  | some req =>
    if req.length < 4 ∨ req.length < eapHdrLen req then
      sm
    else
      let frame := req.take (eapHdrLen req)
      let sm := { sm with
        reqId := req.getD 1 0
        reqSha1 := if sm.workaround then lib.sha1 frame else sm.reqSha1 }
      sm.parsePacket lib (req.getD 0 0) frame

/-! ## States -/

def hasReauthData (s : Selected π) : Bool := s.method.reauth.any fun r => r.hasReauthData s.priv

/-- The method that `INITIALIZE` keeps is set aside. -/
def park (s : Selected π) : Selected π :=
  { s with priv := s.method.reauth.elim s.priv fun r => r.deinitForReauth s.priv }

/-- `SM_STATE(EAP, INITIALIZE)`. -/
def initialise (sm : Sm π) : Sm π :=
  let configAt := sm.config.map EapPeerConfig.address
  let keeps := sm.fastReauth && sm.m.any hasReauthData && !sm.prevFailure && sm.lastConfig == configAt
  { sm with
    m := if keeps then sm.m.map park else none
    lastConfig := configAt
    selectedMethod := typeNone
    methodState := .none
    allowNotifications := true
    decision := .fail
    clientTimeout := eapClientTimeoutDefault
    idleWhile := eapClientTimeoutDefault
    eapSuccess := false
    eapFail := false
    eapKeyData := none
    eapSessionId := none
    eapKeyAvailable := false
    eapRestart := false
    lastId := none
    eapResp := false
    eapNoResp := false
    ignore := false
    numRounds := 0
    prevFailure := false
    reauthInit := false
    erpSeq := noErpSeq
    log := [] }

/-- `SM_STATE(EAP, DISABLED)`. -/
def disabled (sm : Sm π) : Sm π := { sm with numRounds := 0, idleWhile := 0 }

/-- `SM_STATE(EAP, RECEIVED)`. -/
def received (lib : EapPeerLib π) (sm : Sm π) : Sm π :=
  let sm := parseEapReq lib sm
  { sm with numRounds := sm.numRounds + 1 }

/-- The methods that a Nak offers: the registered ones that are allowed, without the one that was asked for. -/
def nakMethods (lib : EapPeerLib π) (sm : Sm π) (current : MethodId) : List MethodId :=
  (lib.methods.methods.map EapMethod.id).filter fun id => id != current && eapAllowedMethod sm.config id

/-- The types in a legacy Nak: the types of the IETF, and the expanded type once. -/
def legacyTypes (expandedFound : Bool) : List MethodId → Bytes
  | [] => []
  | id :: ids =>
    if id.1 = vendorIetf then UInt8.ofNat id.2 :: legacyTypes expandedFound ids
    else if expandedFound then legacyTypes expandedFound ids
    else UInt8.ofNat typeExpanded :: legacyTypes true ids

def expandedType (id : MethodId) : Bytes := [UInt8.ofNat typeExpanded] ++ natBe 3 id.1 ++ natBe 4 id.2

/-- `eap_sm_buildNak()`. -/
def buildNak (lib : EapPeerLib π) (sm : Sm π) : Option Bytes :=
  if lib.methods.methods = [] then
    none
  else if sm.reqMethod = typeExpanded then
    let ids := sm.nakMethods lib (sm.reqVendor, sm.reqVendorMethod)
    let ids := if ids = [] then [(vendorIetf, typeNone)] else ids
    some (eapMsg 254 codeResponse sm.reqId (natBe 3 vendorIetf ++ natBe 4 typeNak ++ ids.flatMap expandedType))
  else
    let ids := sm.nakMethods lib (vendorIetf, sm.reqMethod)
    some (eapMsg 3 codeResponse sm.reqId (if ids = [] then [0] else legacyTypes false ids))

/-- `nak:` of `SM_STATE(EAP, GET_METHOD)`. -/
def nak (lib : EapPeerLib π) (sm : Sm π) : Sm π := { sm with eapRespData := sm.buildNak lib }

/-- The method that `GET_METHOD` sets up again. -/
def reinits (sm : Sm π) (id : MethodId) : Option (EapMethod π × EapReauth π × π) := do
  let s ← sm.m
  let r ← s.method.reauth
  guard (sm.fastReauth ∧ s.method.id = id ∧ r.hasReauthData s.priv)
  some (s.method, r, s.priv)

/-- The end of `SM_STATE(EAP, GET_METHOD)`, with a method and with its private data, if it could be set up. -/
def gotMethod (lib : EapPeerLib π) (sm : Sm π) (method : EapMethod π) (priv : Option π)
    (effect : MethodEffect) : Sm π :=
  let sm := { sm with clientTimeout := eapClientTimeoutDefault }.apply effect
  match priv with
  | none =>
    let sm := { sm with m := none, methodState := .none, selectedMethod := typeNone }
    -- the PIN or the passphrase may still be entered for this request
    if sm.reqMethod = typeTls ∧
      sm.config.any fun config => config.pendingReqPin || config.pendingReqPassphrase then
      sm
    else
      sm.nak lib
  | some priv => { sm with m := some ⟨method, priv⟩, methodState := .init }

def requested (sm : Sm π) : MethodId :=
  (sm.reqVendor, if sm.reqMethod = typeExpanded then sm.reqVendorMethod else sm.reqMethod)

/-- `SM_STATE(EAP, GET_METHOD)`. -/
def getMethod (lib : EapPeerLib π) (outside : Bytes) (sm : Sm π) : Sm π :=
  match lib.methods.get sm.requested with
  | none => sm.nak lib
  | some eapMethod =>
    if !eapAllowedMethod sm.config sm.requested then
      sm.nak lib
    else
      match sm.reinits sm.requested with
      | some (method, r, priv) =>
        let (priv, effect) := r.initForReauth (sm.shared outside) priv
        { sm with selectedMethod := sm.reqMethod }.gotMethod lib method priv effect
      | none =>
        let (priv, effect) := eapMethod.init (sm.shared outside)
        { sm with selectedMethod := sm.reqMethod }.gotMethod lib eapMethod priv effect

def keyAvailable (s : Selected π) : Bool :=
  s.method.getKey.isSome && s.method.isKeyAvailable.any fun isKeyAvailable => isKeyAvailable s.priv

/-- The part of `SM_STATE(EAP, METHOD)` that takes the key. -/
def takeKey (sm : Sm π) (s : Selected π) : Sm π :=
  if keyAvailable s then
    let key := s.method.getKey.bind fun getKey => getKey s.priv
    { sm with
      eapKeyData := key
      eapSessionId := s.method.getSessionId.bind fun getSessionId => getSessionId s.priv
      log := .keyed s.method.id key :: sm.log }
  else
    sm

/-- The payload that a packet for a method has at least; LEAP takes an EAP-Success, which has none. -/
def minLen (s : Selected π) : Nat := if s.method.id = (vendorIetf, typeLeap) then 0 else 1

/-- The `ret` that a method is called with. -/
def methodRet (sm : Sm π) : EapMethodRet where
  ignore := sm.ignore
  methodState := sm.methodState
  decision := sm.decision
  allowNotifications := sm.allowNotifications

/-- `SM_STATE(EAP, METHOD)`. -/
def method (outside : Bytes) (sm : Sm π) : Sm π :=
  match sm.m with
  | none => sm
  | some s =>
    if !eapHdrLenValid sm.eapReqData (minLen s) then
      sm
    else
      let (priv, ret, resp, effect) :=
        s.method.process (sm.shared outside) s.priv sm.methodRet (sm.eapReqData.getD [])
      let s : Selected π := ⟨s.method, priv⟩
      let sm := { sm.apply effect with m := some s, eapRespData := resp, ignore := ret.ignore }
      if ret.ignore then
        sm
      else
        let sm := { sm with
          methodState := ret.methodState
          decision := ret.decision
          allowNotifications := ret.allowNotifications
          log := .processed s.method.id ret.decision :: sm.log }
        sm.takeKey s

/-- `SM_STATE(EAP, SEND_RESPONSE)`. -/
def sendResponse (sm : Sm π) : Sm π :=
  let sm :=
    match sm.eapRespData with
    | some resp =>
      { sm with
        lastSha1 := if sm.workaround then sm.reqSha1 else sm.lastSha1
        lastId := some sm.reqId
        lastRespData := some resp
        eapResp := true
        log := if sm.reauthInit then .initiated resp :: sm.log else sm.log }
    | none => { sm with lastRespData := none }
  { sm with eapReq := false, idleWhile := sm.clientTimeout, reauthInit := false }

/-- `SM_STATE(EAP, DISCARD)`. -/
def discard (sm : Sm π) : Sm π := { sm with eapReq := false, eapNoResp := true }

/-- `SM_STATE(EAP, IDENTITY)`. -/
def identity (lib : EapPeerLib π) (outside : Bytes) (sm : Sm π) : Sm π :=
  if !eapHdrLenValid sm.eapReqData 1 then
    sm
  else
    { sm with eapRespData := lib.buildIdentity (sm.shared outside) sm.m sm.reqId }

/-- `SM_STATE(EAP, NOTIFICATION)`. -/
def notification (sm : Sm π) : Sm π :=
  if !eapHdrLenValid sm.eapReqData 1 then
    sm
  else
    { sm with eapRespData := some (eapMsg 2 codeResponse sm.reqId []) }

/-- `SM_STATE(EAP, RETRANSMIT)`. -/
def retransmit (sm : Sm π) : Sm π := { sm with eapRespData := sm.lastRespData }

/-- The keys of ERP that `SUCCESS` leaves, with a configuration and a method. -/
def erpKeysDone (lib : EapPeerLib π) (sm : Sm π) (s : Selected π) : List ErpKey :=
  if sm.eapSessionId.isSome ∧ s.method.isKeyAvailable.any fun isKeyAvailable => isKeyAvailable s.priv then
    match s.method.getEmsk with
    | none => sm.erpKeys
    | some getEmsk => eapPeerErpInit lib.erp sm.config sm.erpKeys (getEmsk s.priv) sm.eapSessionId
  else
    sm.erpKeys

/-- `SM_STATE(EAP, SUCCESS)`. -/
def success (lib : EapPeerLib π) (sm : Sm π) : Except EapFault (Sm π) :=
  let sm := { sm with
    eapKeyAvailable := sm.eapKeyAvailable || sm.eapKeyData.isSome
    eapSuccess := true
    eapReq := false
    eapNoResp := true }
  match sm.config with
  | none => .error .nullPointer
  | some config =>
    if config.erp then
      match sm.m with
      | none => .error .nullPointer
      | some s => .ok { sm with erpKeys := sm.erpKeysDone lib s }
    else
      .ok sm

/-- `SM_STATE(EAP, FAILURE)`. -/
def failure (sm : Sm π) : Sm π :=
  { sm with eapFail := true, eapReq := false, eapNoResp := true, prevFailure := true }

/-! ## Conditions of the rules -/

/-- `eap_success_workaround()`. An identifier of `-1` is followed by 0 and 1. -/
def successWorkaround (sm : Sm π) : Bool :=
  sm.workaround && (sm.reqId == sm.lastId.getD 0xff + 1 || sm.reqId == sm.lastId.getD 0xff + 2)

/-- The identifier of an EAP-Success or EAP-Failure will do. -/
def idMatches (sm : Sm π) : Bool := some sm.reqId == sm.lastId || sm.successWorkaround

/-- `eap_peer_req_is_duplicate()`. -/
def reqIsDuplicate (sm : Sm π) : Bool :=
  some sm.reqId == sm.lastId && sm.rxReq && !(sm.workaround && sm.reqSha1 != sm.lastSha1)

end Sm

/-! ## `SM_STEP(EAP)` -/

variable (lib : EapPeerLib π) (outside : Bytes)

/-- `eap_peer_sm_step_idle()`. -/
def stepIdle (sm : Sm π) : Except EapFault (Sm π) :=
  if sm.eapReq then
    .ok ((sm.enter .received).received lib)
  else if sm.altAccept ∧ sm.decision ≠ .fail ∨ sm.idleWhile = 0 ∧ sm.decision = .uncondSucc then
    (sm.enter .success).success lib
  else if sm.altReject ∨ sm.idleWhile = 0 ∧ sm.decision ≠ .uncondSucc ∨
      sm.altAccept ∧ sm.methodState ≠ .cont ∧ sm.decision = .fail then
    .ok (sm.enter .failure).failure
  else if sm.selectedMethod = typeLeap ∧ sm.leapDone ∧ sm.decision ≠ .fail ∧ sm.methodState = .done then
    (sm.enter .success).success lib
  else if sm.selectedMethod = typePeap ∧ sm.peapDone ∧ sm.decision ≠ .fail ∧ sm.methodState = .done then
    (sm.enter .success).success lib
  else
    .ok sm

/-- `eap_peer_sm_step_received()`. -/
def stepReceived (sm : Sm π) : Except EapFault (Sm π) :=
  let duplicate := sm.reqIsDuplicate
  if sm.rxSuccess ∧ sm.decision ≠ .fail ∧ sm.idMatches then
    (sm.enter .success).success lib
  else if sm.workaround ∧ sm.lastId = none ∧ sm.rxSuccess ∧ !sm.rxFailure ∧ !sm.rxReq ∧
  allowCanned sm.config then
    (sm.enter .success).success lib
  else if sm.workaround ∧ sm.lastId = none ∧ sm.rxFailure ∧ !sm.rxReq ∧ sm.methodState ≠ .cont ∧
      allowCanned sm.config then
    .ok (sm.enter .failure).failure
  else if sm.workaround ∧ sm.rxSuccess ∧ !sm.rxFailure ∧ !sm.rxReq ∧ sm.methodState ≠ .cont ∧
      allowCanned sm.config then
    (sm.enter .success).success lib
  else if sm.methodState ≠ .cont ∧
      (sm.rxFailure ∧ sm.decision ≠ .uncondSucc ∨
        sm.rxSuccess ∧ sm.decision = .fail ∧ (sm.selectedMethod ≠ typeLeap ∨ sm.methodState ≠ .mayCont)) ∧
      sm.idMatches then
    .ok (sm.enter .failure).failure
  else if sm.rxReq ∧ duplicate then
    .ok (sm.enter .retransmit).retransmit
  else if sm.rxReq ∧ !duplicate ∧ sm.reqMethod = typeNotification ∧ sm.allowNotifications then
    .ok (sm.enter .notification).notification
  else if sm.rxReq ∧ !duplicate ∧ sm.selectedMethod = typeNone ∧ sm.reqMethod = typeIdentity then
    .ok ((sm.enter .identity).identity lib outside)
  else if sm.rxReq ∧ !duplicate ∧ sm.selectedMethod = typeNone ∧ sm.reqMethod ≠ typeIdentity ∧
      sm.reqMethod ≠ typeNotification then
    .ok ((sm.enter .getMethod).getMethod lib outside)
  else if sm.rxReq ∧ !duplicate ∧ sm.reqMethod = sm.selectedMethod ∧ sm.methodState ≠ .done then
    .ok ((sm.enter .method).method outside)
  else if sm.selectedMethod = typeLeap ∧ (sm.rxSuccess ∨ sm.rxResp) then
    .ok ((sm.enter .method).method outside)
  else if sm.reauthInit then
    .ok (sm.enter .sendResponse).sendResponse
  else
    .ok (sm.enter .discard).discard

/-- `eap_peer_sm_step_local()`. -/
def stepLocal (sm : Sm π) : Except EapFault (Sm π) :=
  match sm.state with
  | .initialise => .ok (sm.enter .idle)
  | .disabled => if sm.portEnabled ∧ !sm.forceDisabled then .ok (sm.enter .initialise).initialise else .ok sm
  | .idle => stepIdle lib sm
  | .received => stepReceived lib outside sm
  | .getMethod =>
    if sm.selectedMethod = sm.reqMethod then
      .ok ((sm.enter .method).method outside)
    else
      .ok (sm.enter .sendResponse).sendResponse
  | .method =>
    if sm.ignore then
      .ok (sm.enter .discard).discard
    else if sm.methodState = .done ∧ sm.decision = .fail ∧ sm.eapRespData.isNone then
      .ok (sm.enter .failure).failure
    else
      .ok (sm.enter .sendResponse).sendResponse
  | .sendResponse => .ok (sm.enter .idle)
  | .discard => .ok (sm.enter .idle)
  | .identity => .ok (sm.enter .sendResponse).sendResponse
  | .notification => .ok (sm.enter .sendResponse).sendResponse
  | .retransmit => .ok (sm.enter .sendResponse).sendResponse
  | .success => .ok sm
  | .failure => .ok sm

/-- `SM_STEP(EAP)`. -/
def smStep (sm : Sm π) : Except EapFault (Sm π) :=
  let sm := { sm with changed := false }
  if sm.eapRestart ∧ sm.portEnabled then
    .ok (sm.enterGlobal .initialise).initialise
  else if !sm.portEnabled ∨ sm.forceDisabled then
    .ok (sm.enterGlobal .disabled).disabled
  else if sm.numRounds > eapMaxAuthRounds then
    if sm.numRounds = eapMaxAuthRounds + 1 then
      .ok ({ sm with numRounds := sm.numRounds + 1 }.enterGlobal .failure).failure
    else
      .ok sm
  else
    stepLocal lib outside sm

/-! ## Runs -/

/-- What happens to the machine. -/
inductive Event
  /-- A round of `eap_peer_sm_step()`, with what methods get from outside. -/
  | smStep (outside : Bytes)
  /-- An EAP packet is there, or none; the lower layer sets `eapReq` when it is to be processed. -/
  | receive (req : Option Bytes)
  | eapReq
  /-- The lower layer has taken the response, or has seen that there is none, or that it should start. -/
  | takeResp
  | clearNoResp
  | clearTriggerStart
  /-- The results of other authentications. -/
  | altAccept (accept : Bool)
  | altReject (reject : Bool)
  /-- A second of `idleWhile` has passed. -/
  | tick
  /-- `eapRestart`, which clears an earlier `altAccept`. -/
  | eapRestart
  | portEnabled (enabled : Bool)
  | forceDisabled (disabled : Bool)
  /-- The configuration changes. -/
  | config (config : Option EapPeerConfig)
  | fastReauth (enabled : Bool)
  | workaround (enabled : Bool)
  /-- `eap_notify_lower_layer_success()`. -/
  | lowerLayerSuccess
  /-- `eap_invalidate_cached_session()`. -/
  | invalidateCachedSession
  deriving DecidableEq, Repr

/-- `eap_notify_lower_layer_success()`. -/
def notifyLowerLayerSuccess (sm : Sm π) : Sm π :=
  if sm.eapSuccess ∨ sm.decision = .fail ∨ (sm.methodState ≠ .mayCont ∧ sm.methodState ≠ .done) then
    sm
  else
    { sm with eapKeyAvailable := sm.eapKeyAvailable || sm.eapKeyData.isSome, eapSuccess := true }

def step (sm : Sm π) : Event → Except EapFault (Sm π)
  | .smStep outside => smStep lib outside sm
  | .receive req => .ok { sm with eapReqData := req }
  | .eapReq => .ok { sm with eapReq := true }
  | .takeResp => .ok { sm with eapResp := false, eapRespData := none }
  | .clearNoResp => .ok { sm with eapNoResp := false }
  | .clearTriggerStart => .ok { sm with eapTriggerStart := false }
  | .altAccept accept => .ok { sm with altAccept := accept }
  | .altReject reject => .ok { sm with altReject := reject }
  | .tick => .ok { sm with idleWhile := sm.idleWhile - 1 }
  | .eapRestart =>
    .ok { sm with eapRestart := true, eapSuccess := sm.eapSuccess && !sm.altAccept, altAccept := false }
  | .portEnabled enabled => .ok { sm with portEnabled := enabled }
  | .forceDisabled disabled => .ok { sm with forceDisabled := disabled }
  | .config config => .ok { sm with config }
  | .fastReauth enabled => .ok { sm with fastReauth := enabled }
  | .workaround enabled => .ok { sm with workaround := enabled }
  | .lowerLayerSuccess => .ok (notifyLowerLayerSuccess sm)
  | .invalidateCachedSession => .ok { sm with m := none }

/-- When an event is taken: all but the rounds happen when the rounds have come to an end. -/
def taken (sm : Sm π) : Event → Bool
  | .smStep _ => true
  | _ => !sm.changed

/-- The machine after `eap_peer_sm_init()`. -/
def initSm : Sm π := {}

end EapPeer

end Hostap
