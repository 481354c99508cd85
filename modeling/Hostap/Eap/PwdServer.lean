import Hostap.Eap.PwdCommon
import Hostap.Lib.Run

/-!
# EAP-pwd server

`src/eap_server/eap_server_pwd.c`: the requests for the three exchanges, `eap_pwd_check()` and
`eap_pwd_process()` for the responses. The state machine of the EAP server calls them in turn; here a
run is any sequence of the two.

What a failed exchange leaves behind is kept where it can still be read. A Commit that fails ends in
`failure` and is not; an ID response that fails stays in `idReq` with the identity and the group set,
and every later one is then ignored.
-/

namespace Hostap

open Octets

variable {P : Type}

/-! ## State -/

/-- The states of the server. -/
inductive PwdServerState
  | idReq
  | commitReq
  | confirmReq
  | success
  | failure
  deriving DecidableEq

/-- What `eap_pwd_init()` takes from the user entry and the configuration. -/
structure PwdServerConf where
  groupNum : Nat
  idServer : Bytes
  password : Bytes
  passwordHash : Bool := false
  salt : Bytes := []
  mtu : Nat := 1020

/-- `struct eap_pwd_data` of the server. `verified` is not in the source: the Confirm that was
accepted. -/
structure PwdServer (P : Type) where
  state : PwdServerState := .idReq
  idPeer : Option Bytes := none
  token : Bytes := zeros 4
  passwordPrep : Nat := 0
  grp : Option (PwdGroup P) := none
  inbuf : PwdInbuf := {}
  outbuf : Option Bytes := none
  outFragPos : Nat := 0
  k : Option Nat := none
  privateValue : Option Nat := none
  peerScalar : Option Nat := none
  myScalar : Option Nat := none
  myElement : Option P := none
  peerElement : Option P := none
  myConfirm : Bytes := zeros sha256MacLen
  keys : PwdKeys := {}
  verified : Option Bytes := none

/-- What a call gets from outside: random numbers, and whether memory can be allocated for its values
and for the message it returns. -/
structure PwdEnv where
  token : Option Bytes := none
  rand : PwdRand := []
  alloc : Bool := true
  msgAlloc : Bool := true

/-! ## Requests -/

/-- `EAP_PWD_PREP_*` for a configured password; none for a salted one of unknown length. -/
def serverPrep (conf : PwdServerConf) : Option Nat :=
  if conf.salt.length ≠ 0 then
    match conf.password.length with
    | 20 => some 3
    | 32 => some 4
    | 64 => some 5
    | _ => none
  else if conf.passwordHash then
    some 1
  else
    some 0

/-- `eap_pwd_build_id_req()`. -/
def eapPwdBuildIdReq (conf : PwdServerConf) (env : PwdEnv) (d : PwdServer P) : PwdServer P :=
  if d.outFragPos ≠ 0 then
    d
  else if ¬ env.alloc then
    { d with outbuf := none, state := .failure }
  else
    match env.token with
    | none => { d with outbuf := none, state := .failure }
    | some token =>
      match serverPrep conf with
      | none => { d with token, outbuf := some [], state := .failure }
      | some prep =>
        { d with
          token
          passwordPrep := prep
          outbuf := some (be16 conf.groupNum ++ [1, 1] ++ token ++ [UInt8.ofNat prep] ++ conf.idServer) }

def PwdServer.buildFailed (d : PwdServer P) : PwdServer P :=
  if d.outbuf.isNone then { d with state := .failure } else d

/-- `eap_pwd_build_commit_req()`. -/
def eapPwdBuildCommitReq (conf : PwdServerConf) (env : PwdEnv) (d : PwdServer P) :
    Except PwdFault (PwdServer P) :=
  if d.outFragPos ≠ 0 then
    .ok d
  else do
    let grp ← pwdDeref d.grp
    let pwe ← pwdDeref grp.pwe
    if ¬ env.alloc then
      return d.buildFailed
    match pwdOwnCommit grp.ec pwe env.rand with
    | none => return { d with state := .failure }
    | some own =>
      let d := { d with
        privateValue := some own.privateValue
        myScalar := some own.scalar
        myElement := some own.element }
      match commitOctets grp.ec own.scalar own.element with
      | none => return d.buildFailed
      | some octets =>
        let salt := if conf.salt.length ≠ 0 then UInt8.ofNat conf.salt.length :: conf.salt else []
        return { d with outbuf := some (salt ++ octets) }

/-- `eap_pwd_build_confirm_req()`. -/
def eapPwdBuildConfirmReq (lib : PwdLib P) (conf : PwdServerConf) (env : PwdEnv) (d : PwdServer P) :
    Except PwdFault (PwdServer P) :=
  if d.outFragPos ≠ 0 then
    .ok d
  else do
    let grp ← pwdDeref d.grp
    if ¬ env.alloc then
      return d.buildFailed
    let k ← pwdDeref d.k
    let myElement ← pwdDeref d.myElement
    let myScalar ← pwdDeref d.myScalar
    let peerElement ← pwdDeref d.peerElement
    let peerScalar ← pwdDeref d.peerScalar
    match pwdConfirm lib grp.ec conf.groupNum k myElement myScalar peerElement peerScalar with
    | none => return d.buildFailed
    | some octets => return { d with myConfirm := octets, outbuf := some octets }

def PwdServerState.exchange : PwdServerState → PwdExchange
  | .idReq => .id
  | .commitReq => .commit
  | .confirmReq => .confirm
  | .success => .unknown
  | .failure => .unknown

/-- The next fragment of a request: what is left of the data and the request. -/
def sendRequest (conf : PwdServerConf) (env : PwdEnv) (exch : PwdExchange) (d : PwdServer P) :
    Except PwdFault (PwdServer P × Option Bytes) := do
  let outbuf ← pwdDeref d.outbuf
  let len := outbuf.length - d.outFragPos
  let fragment := conf.mtu < len + 1
  let first := d.outFragPos = 0
  if fragment ∧ conf.mtu < (if first then 3 else 1) then
    .error .lengthWraps
  else if ¬ env.msgAlloc then
    return ({ d with state := .failure }, none)
  else
    let hdr : Bytes := if fragment then
        if first then [exch.code ||| 0xc0] ++ be16 (outbuf.length + 3) else [exch.code ||| 0x40]
      else [exch.code]
    let len := if fragment then if first then conf.mtu - 3 else conf.mtu - 1 else len
    let d := { d with outFragPos := d.outFragPos + len }
    let req := hdr ++ slice outbuf (d.outFragPos - len) len
    if outbuf.length ≤ d.outFragPos then
      return ({ d with outbuf := none, outFragPos := 0 }, some req)
    else
      return (d, some req)

def buildExchangeReq (lib : PwdLib P) (conf : PwdServerConf) (env : PwdEnv) (d : PwdServer P) :
    Except PwdFault (PwdServer P) :=
  match d.state with
  | .idReq => .ok (eapPwdBuildIdReq conf env d)
  | .commitReq => eapPwdBuildCommitReq conf env d
  | .confirmReq => eapPwdBuildConfirmReq lib conf env d
  | _ => .ok { d with state := .failure }

/-- `eap_pwd_build_req()`: the request from the octet with the flags on. -/
def eapPwdBuildReq (lib : PwdLib P) (conf : PwdServerConf) (env : PwdEnv) (d : PwdServer P) :
    Except PwdFault (PwdServer P × Option Bytes) :=
  if d.inbuf.fragPos ≠ 0 then
    if ¬ env.msgAlloc then
      .ok ({ d with state := .failure }, none)
    else
      match d.state with
      | .idReq | .commitReq | .confirmReq => .ok (d, some [d.state.exchange.code])
      | _ => .ok ({ d with state := .failure }, none)
  else do
    let exch := d.state.exchange
    let d ← buildExchangeReq lib conf env d
    if d.state = .failure then
      return (d, none)
    else
      sendRequest conf env exch d

/-! ## Responses -/

/-- `eap_pwd_check()`: the message is to be ignored. -/
def eapPwdCheck (d : PwdServer P) (msg : Bytes) : Bool :=
  match eapHdrValidate msg with
  | none => true
  | some [] => true
  | some (lmExch :: _) =>
    match d.state, getExchange lmExch with
    | .idReq, .id => false
    | .commitReq, .commit => false
    | .confirmReq, .confirm => false
    | _, _ => true

def serverPassword (lib : PwdLib P) (conf : PwdServerConf) (prep : Nat) : Option Bytes :=
  if prep = 1 then lib.hashNtPasswordHash conf.password else some conf.password

/-- `eap_pwd_process_id_resp()`. -/
def eapPwdProcessIdResp (lib : PwdLib P) (conf : PwdServerConf) (env : PwdEnv) (payload : Bytes)
    (d : PwdServer P) : PwdServer P :=
  if payload.length < 9 then
    d
  else if conf.groupNum ≠ getBe16 payload ∨ payload.getD 2 0 ≠ 1 ∨ slice payload 4 4 ≠ d.token ∨
      payload.getD 3 0 ≠ 1 ∨ (payload.getD 8 0).toNat ≠ d.passwordPrep then
    { d with state := .failure }
  else if d.idPeer.isSome ∨ d.grp.isSome then
    d
  else if ¬ env.alloc then
    d
  else
    let idPeer := payload.drop 9
    let d := { d with idPeer := some idPeer }
    match lib.ecInit conf.groupNum with
    | none => d
    | some ec =>
      let d := { d with grp := some { ec } }
      match serverPassword lib conf d.passwordPrep with
      | none => d
      | some password =>
        match computePasswordElement lib ec password conf.idServer idPeer d.token env.rand with
        | none => d
        | some (pwe, _) => { d with grp := some { ec, pwe := some pwe }, state := .commitReq }

/-- `eap_pwd_process_commit_resp()`. -/
def eapPwdProcessCommitResp (lib : PwdLib P) (env : PwdEnv) (payload : Bytes) (d : PwdServer P) :
    Except PwdFault (PwdServer P) := do
  let grp ← pwdDeref d.grp
  let ec := grp.ec
  if payload.length ≠ commitLen ec ∨ ¬ env.alloc then
    return { d with state := .failure }
  match lib.ecCofactor ec with
  | none => return { d with k := some 0, state := .failure }
  | some cofactor =>
    match ec.pointFromBin payload with
    | none => return { d with k := some 0, state := .failure }
    | some element =>
      let scalar := commitScalar ec payload
      let pwe ← pwdDeref grp.pwe
      let privateValue ← pwdDeref d.privateValue
      let d := { d with peerElement := some element, peerScalar := some scalar }
      match pwdSharedKey ec cofactor pwe privateValue scalar element with
      | none => return { d with k := some 0, state := .failure }
      | some k => return { d with k := some k, state := .confirmReq }

/-- `eap_pwd_process_confirm_resp()`. -/
def eapPwdProcessConfirmResp (lib : PwdLib P) (conf : PwdServerConf) (env : PwdEnv) (payload : Bytes)
    (d : PwdServer P) : Except PwdFault (PwdServer P) := do
  let grp ← pwdDeref d.grp
  if payload.length ≠ sha256MacLen ∨ ¬ env.alloc then
    return d
  let k ← pwdDeref d.k
  let peerElement ← pwdDeref d.peerElement
  let peerScalar ← pwdDeref d.peerScalar
  let myElement ← pwdDeref d.myElement
  let myScalar ← pwdDeref d.myScalar
  match pwdConfirm lib grp.ec conf.groupNum k peerElement peerScalar myElement myScalar with
  | none => return d
  | some octets =>
    if octets ≠ payload then
      return d
    else
      return { d with
        keys := computeKeys lib grp.ec conf.groupNum k peerScalar myScalar octets d.myConfirm
        state := .success
        verified := some payload }

def serverExchange (lib : PwdLib P) (conf : PwdServerConf) (env : PwdEnv) (exch : PwdExchange)
    (payload : Bytes) (d : PwdServer P) : Except PwdFault (PwdServer P) :=
  match exch with
  | .id => .ok (eapPwdProcessIdResp lib conf env payload d)
  | .commit => eapPwdProcessCommitResp lib env payload d
  | .confirm => eapPwdProcessConfirmResp lib conf env payload d
  | .unknown => .ok d

/-- What becomes of a response before it is looked at; nothing if it is not one, or if it is the
acknowledgement of a fragment. -/
def serverInput (env : PwdEnv) (msg : Bytes) (d : PwdServer P) : Option (PwdExchange × PwdInput) :=
  match eapHdrValidate msg with
  | none => none
  | some [] => none
  | some (lmExch :: data) =>
    if d.outFragPos ≠ 0 then none
    else some (getExchange lmExch, pwdReassemble env.alloc d.inbuf lmExch data)

/-- `eap_pwd_process()`. -/
def eapPwdProcess (lib : PwdLib P) (conf : PwdServerConf) (env : PwdEnv) (msg : Bytes)
    (d : PwdServer P) : Except PwdFault (PwdServer P) :=
  match serverInput env msg d with
  | none => .ok d
  | some (_, .dropped) => .ok d
  | some (_, .nullBuffer) => .error .nullDereference
  | some (_, .more inbuf) => .ok { d with inbuf }
  | some (_, .overflow inbuf) => .ok { d with inbuf, state := .failure }
  | some (exch, .whole inbuf payload) => do
    let d ← serverExchange lib conf env exch payload { d with inbuf }
    return { d with inbuf := d.inbuf.release }

/-- `eap_pwd_getkey()`. -/
def eapPwdGetkey (d : PwdServer P) : Option Bytes := if d.state = .success then some d.keys.msk else none

/-! ## Runs -/

/-- What happens to the server. -/
inductive PwdServerEvent
  | buildReq (env : PwdEnv)
  | resp (msg : Bytes) (env : PwdEnv)

def pwdServerStep (lib : PwdLib P) (conf : PwdServerConf) (d : PwdServer P) :
    PwdServerEvent → Except PwdFault (PwdServer P)
  | .buildReq env => (eapPwdBuildReq lib conf env d).map Prod.fst
  | .resp msg env => if eapPwdCheck d msg then .ok d else eapPwdProcess lib conf env msg d

end Hostap
