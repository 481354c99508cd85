import Hostap.Eap.PwdServer

/-!
# EAP-pwd peer

`src/eap_peer/eap_pwd.c`: `eap_pwd_process()` and the three exchanges. A request is answered in the
same call, so there is one kind of step.

Every exchange ends in a common exit that goes by whether there is a response: without one the peer
fails, with one it goes on to the next state. `outbuf` is also what is still to be sent of an earlier
response, and it is not freed when no message can be allocated for it. From then on the exit takes it
for the response of whatever comes next, also of a request in the wrong state. `PwdPeer.finish` is this
exit.
-/

namespace Hostap

open Octets

variable {P : Type}

/-! ## State -/

/-- The states of the peer. -/
inductive PwdPeerState
  | idReq
  | commitReq
  | confirmReq
  | successOnFragCompletion
  | success
  | failure
  deriving DecidableEq

/-- What `eap_pwd_init()` takes from the configuration. -/
structure PwdPeerConf where
  idPeer : Bytes
  password : Bytes
  passwordHash : Bool := false
  mtu : Nat := 1020

/-- `struct eap_pwd_data` of the peer. `salt` and `verified` are not in the source: the salt of the
Commit, and the Confirm that was accepted. -/
structure PwdPeer (P : Type) where
  state : PwdPeerState := .idReq
  idServer : Option Bytes := none
  groupNum : Nat := 0
  prep : Nat := 0
  token : Bytes := zeros 4
  grp : Option (PwdGroup P) := none
  inbuf : PwdInbuf := {}
  outbuf : Option Bytes := none
  outFragPos : Nat := 0
  k : Option Nat := none
  privateValue : Option Nat := none
  serverScalar : Option Nat := none
  myScalar : Option Nat := none
  myElement : Option P := none
  serverElement : Option P := none
  keys : PwdKeys := {}
  salt : Bytes := []
  verified : Option Bytes := none

/-- The exit of an exchange that goes on to `next`. -/
def PwdPeer.finish (next : PwdPeerState) (d : PwdPeer P) : PwdPeer P :=
  { d with state := if d.outbuf.isNone then .failure else next }

/-! ## Exchanges -/

/-- `eap_pwd_perform_id_exchange()`. -/
def eapPwdPerformIdExchange (lib : PwdLib P) (conf : PwdPeerConf) (env : PwdEnv) (payload : Bytes)
    (d : PwdPeer P) : PwdPeer P :=
  if d.state ≠ .idReq ∨ payload.length < 9 then
    { d with state := .failure }
  else
    let prep := (payload.getD 8 0).toNat
    let d := { d with groupNum := getBe16 payload }
    if payload.getD 2 0 ≠ 1 ∨ payload.getD 3 0 ≠ 1 then
      { d with state := .failure }
    else if prep ∉ [0, 1, 3, 4, 5] then
      { d with state := .failure }
    else if prep = 0 ∧ conf.passwordHash then
      { d with state := .failure }
    else
      let d := { d with prep, token := slice payload 4 4 }
      if d.idServer.isSome ∨ d.grp.isSome ∨ ¬ env.alloc then
        { d with state := .failure }
      else
        let d := { d with idServer := some (payload.drop 9) }
        match lib.ecInit d.groupNum with
        | none => { d with state := .failure }
        | some ec =>
          { d with
            grp := some { ec }
            outbuf := some (be16 d.groupNum ++ [1, 1] ++ d.token ++ [UInt8.ofNat prep] ++ conf.idPeer)
            state := .commitReq }

/-- The Commit of a request and the salt before it, if the length fits. A salt is there for the salted
ways to prepare a password, and is not empty. -/
def splitCommit (ec : CryptoEc P) (prep : Nat) (payload : Bytes) : Option (Bytes × Bytes) :=
  if prep = 0 ∨ prep = 1 then
    if payload.length ≠ commitLen ec then none else some ([], payload)
  else if payload.length < 1 ∨ payload.getD 0 0 = 0 then
    none
  else
    let saltLen := (payload.getD 0 0).toNat
    if payload.length ≠ 1 + saltLen + commitLen ec then none
    else some (slice payload 1 saltLen, payload.drop (1 + saltLen))

def peerPassword (lib : PwdLib P) (conf : PwdPeerConf) (prep : Nat) (salt : Bytes) : Option Bytes :=
  match prep with
  | 0 => some conf.password
  | 1 =>
    if conf.passwordHash then lib.hashNtPasswordHash conf.password
    else (lib.ntPasswordHash conf.password).bind lib.hashNtPasswordHash
  | 3 => lib.sha1Vector (conf.password ++ salt)
  | 4 => lib.sha256Vector (conf.password ++ salt)
  | 5 => lib.sha512Vector (conf.password ++ salt)
  | _ => none

/-- From the password on, in `eap_pwd_perform_commit_exchange()`. The first half of the random numbers
goes into the password element. -/
def peerCommitWith (lib : PwdLib P) (env : PwdEnv) (ec : CryptoEc P) (pwe : P) (rand : PwdRand)
    (commit : Bytes) (d : PwdPeer P) : PwdPeer P :=
  let next := PwdPeer.finish .confirmReq
  if ¬ env.alloc then
    next d
  else
    match lib.ecCofactor ec with
    | none => next d
    | some cofactor =>
      match pwdOwnCommit ec pwe rand with
      | none => next { d with state := .failure }
      | some own =>
        let d := { d with
          privateValue := some own.privateValue
          myScalar := some own.scalar
          myElement := some own.element
          k := some 0 }
        match ec.pointFromBin commit with
        | none => next d
        | some element =>
          let scalar := commitScalar ec commit
          let d := { d with serverElement := some element, serverScalar := some scalar }
          match pwdSharedKey ec cofactor pwe own.privateValue scalar element with
          | none => next d
          | some k =>
            let d := { d with k := some k }
            match commitOctets ec own.scalar own.element with
            | none => next d
            | some octets => next { d with outbuf := some octets }

/-- `eap_pwd_perform_commit_exchange()`. -/
def eapPwdPerformCommitExchange (lib : PwdLib P) (conf : PwdPeerConf) (env : PwdEnv) (payload : Bytes)
    (d : PwdPeer P) : PwdPeer P :=
  if d.state ≠ .commitReq then
    d.finish .confirmReq
  else
    match d.grp with
    | none => d.finish .confirmReq
    | some grp =>
      if d.prep ∉ [0, 1, 3, 4, 5] ∨ d.prep = 0 ∧ conf.passwordHash then
        { d with state := .failure }
      else
        match splitCommit grp.ec d.prep payload with
        | none => d.finish .confirmReq
        | some (salt, commit) =>
          match peerPassword lib conf d.prep salt with
          | none => if d.prep = 1 then { d with state := .failure } else d.finish .confirmReq
          | some password =>
            if grp.pwe.isSome then
              { d with state := .failure }
            else
              match computePasswordElement lib grp.ec password (d.idServer.getD []) conf.idPeer d.token
                env.rand with
              | none => { d with state := .failure }
              | some (pwe, rand) =>
                peerCommitWith lib env grp.ec pwe rand commit
                  { d with grp := some { grp with pwe := some pwe }, salt }

/-- `eap_pwd_perform_confirm_exchange()`. -/
def eapPwdPerformConfirmExchange (lib : PwdLib P) (env : PwdEnv) (payload : Bytes) (d : PwdPeer P) :
    Except PwdFault (PwdPeer P) :=
  let next := PwdPeer.finish .successOnFragCompletion
  if d.state ≠ .confirmReq then
    .ok (next d)
  else if payload.length ≠ sha256MacLen ∨ ¬ env.alloc then
    .ok (next d)
  else do
    let grp ← pwdDeref d.grp
    let k ← pwdDeref d.k
    let serverElement ← pwdDeref d.serverElement
    let serverScalar ← pwdDeref d.serverScalar
    let myElement ← pwdDeref d.myElement
    let myScalar ← pwdDeref d.myScalar
    match pwdConfirm lib grp.ec d.groupNum k serverElement serverScalar myElement myScalar with
    | none => return next d
    | some octets =>
      if octets ≠ payload then
        return next d
      else
        match pwdConfirm lib grp.ec d.groupNum k myElement myScalar serverElement serverScalar with
        | none => return next d
        | some own =>
          return next { d with
            keys := computeKeys lib grp.ec d.groupNum k myScalar serverScalar own payload
            outbuf := some own
            verified := some payload }

/-! ## Messages -/

def peerExchange (lib : PwdLib P) (conf : PwdPeerConf) (env : PwdEnv) (exch : PwdExchange)
    (payload : Bytes) (d : PwdPeer P) : Except PwdFault (PwdPeer P) :=
  match exch with
  | .id => .ok (eapPwdPerformIdExchange lib conf env payload d)
  | .commit => .ok (eapPwdPerformCommitExchange lib conf env payload d)
  | .confirm => eapPwdPerformConfirmExchange lib env payload d
  | .unknown => .ok d

/-- The end of a fragmented response is taken for the end of the exchange. -/
def PwdPeer.complete (d : PwdPeer P) : PwdPeer P :=
  if d.state = .successOnFragCompletion then { d with state := .success } else d

/-- A further fragment of the response, for a request that acknowledges the one before. -/
def sendFragment (conf : PwdPeerConf) (env : PwdEnv) (lmExch : UInt8) (d : PwdPeer P) :
    Except PwdFault (PwdPeer P × Option Bytes) := do
  let outbuf ← pwdDeref d.outbuf
  let len := outbuf.length - d.outFragPos
  let more := conf.mtu < len + 1
  if more ∧ conf.mtu < 1 then
    .error .lengthWraps
  else if ¬ env.msgAlloc then
    return (d, none)
  else
    let len := if more then conf.mtu - 1 else len
    let resp := (if more then lmExch ||| 0x40 else lmExch) :: slice outbuf d.outFragPos len
    let d := { d with outFragPos := d.outFragPos + len }
    let d := if outbuf.length ≤ d.outFragPos then { d with outbuf := none, outFragPos := 0 } else d
    return (d.complete, some resp)

def sendResponse (conf : PwdPeerConf) (env : PwdEnv) (lmExch : UInt8) (d : PwdPeer P) :
    Except PwdFault (PwdPeer P × Option Bytes) :=
  match d.outbuf with
  | none => .ok (d, none)
  | some outbuf =>
    let code := lmExch &&& 0x3f
    if ¬ env.msgAlloc then
      .ok (d, none)
    else if conf.mtu < outbuf.length + 1 then
      if conf.mtu < 3 then
        .error .lengthWraps
      else
        let resp := [code ||| 0xc0] ++ be16 outbuf.length ++ outbuf.take (conf.mtu - 3)
        let d := { d with outFragPos := conf.mtu - 3 }
        if d.outFragPos = 0 then .ok (PwdPeer.complete { d with outbuf := none }, some resp)
        else .ok (d, some resp)
    else
      .ok (PwdPeer.complete { d with outbuf := none }, some (code :: outbuf))

/-- What becomes of a request that does not acknowledge a fragment, and its flags. -/
def peerInput (env : PwdEnv) (msg : Bytes) (d : PwdPeer P) : Option (UInt8 × PwdInput) :=
  match eapHdrValidate msg with
  | none => none
  | some [] => none
  | some (lmExch :: data) => some (lmExch, pwdReassemble env.alloc d.inbuf lmExch data)

/-- `eap_pwd_process()`: the response from the octet with the flags on. -/
def eapPwdPeerProcess (lib : PwdLib P) (conf : PwdPeerConf) (env : PwdEnv) (msg : Bytes) (d : PwdPeer P) :
    Except PwdFault (PwdPeer P × Option Bytes) :=
  match peerInput env msg d with
  | none => .ok (d, none)
  | some (lmExch, input) =>
    if d.outFragPos ≠ 0 then
      sendFragment conf env lmExch d
    else
      match input with
      | .dropped => .ok (d, none)
      | .nullBuffer => .error .nullDereference
      | .more inbuf =>
        .ok ({ d with inbuf }, if env.msgAlloc then some [lmExch &&& 0x3f] else none)
      | .overflow _ => .ok ({ d with inbuf := {} }, none)
      | .whole inbuf payload => do
        let d ← peerExchange lib conf env (getExchange lmExch) payload { d with inbuf }
        sendResponse conf env lmExch { d with inbuf := d.inbuf.release }

/-- `eap_pwd_key_available()` and `eap_pwd_getkey()`. -/
def eapPwdPeerGetkey (d : PwdPeer P) : Option Bytes := if d.state = .success then some d.keys.msk else none

/-! ## Runs -/

/-- A request, and what the call gets from outside. -/
structure PwdPeerEvent where
  msg : Bytes
  env : PwdEnv

def pwdPeerStep (lib : PwdLib P) (conf : PwdPeerConf) (d : PwdPeer P) (ev : PwdPeerEvent) :
    Except PwdFault (PwdPeer P) :=
  (eapPwdPeerProcess lib conf ev.env ev.msg d).map Prod.fst

end Hostap
