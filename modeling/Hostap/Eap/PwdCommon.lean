import Hostap.Rsn.Common
import Hostap.Sae.Data

/-!
# EAP-pwd: shared routines

`src/eap_common/eap_pwd_common.c`: the random function, the key derivation function, the password
element by hunting and pecking, and the session keys. What `eap_server_pwd.c` and `eap_pwd.c` both have
in line is here as well: the header of a message and the reassembly of its fragments, the own Commit,
the shared key that is computed from a received Commit, and the octets a Confirm is over.

Random numbers are drawn from a list. An exhausted list is a generator that fails.
-/

namespace Hostap

open Octets

variable {P : Type}

/-! ## Library -/

/-- The functions of `src/crypto` that EAP-pwd uses. -/
structure PwdLib (P : Type) extends CryptoLib P where
  /-- `crypto_ec_cofactor()`. -/
  ecCofactor : CryptoEc P → Option Nat
  sha1Vector : Bytes → Option Bytes
  sha256Vector : Bytes → Option Bytes
  sha512Vector : Bytes → Option Bytes
  ntPasswordHash : Bytes → Option Bytes
  hashNtPasswordHash : Bytes → Option Bytes

/-- `crypto_ec_order_len()`. -/
def CryptoEc.orderLen (ec : CryptoEc P) : Nat := numBytes ec.order

/-- `crypto_ec_point_x()`. -/
def CryptoEc.pointX (ec : CryptoEc P) (p : P) : Option Nat := (ec.affineCoordinates p).map Prod.fst

abbrev PwdRand := List (Option Nat)

/-- `crypto_bignum_rand()`: a number below the modulus. -/
def cryptoBignumRand (m : Nat) : PwdRand → Option Nat × PwdRand
  | [] => (none, [])
  | none :: rand => (none, rand)
  | some v :: rand => (if m = 0 then none else some (v % m), rand)

/-- The random function `H`: `eap_pwd_h_init()`, `eap_pwd_h_update()` and `eap_pwd_h_final()`. -/
def eapPwdH (lib : PwdLib P) (data : Bytes) : Bytes := lib.hmacSha256 (zeros sha256MacLen) data

/-- The loop of `eap_pwd_kdf()`; every round writes at least one octet. -/
def eapPwdKdfLoop (hmac : Bytes → Bytes → Bytes) (key label : Bytes) (bits : Nat) :
    (fuel ctr : Nat) → (digest : Bytes) → (left : Nat) → Bytes
  | 0, _, _, _ => []
  | fuel + 1, ctr, digest, left =>
    if left = 0 then
      []
    else
      let digest := hmac key (digest ++ be16 ctr ++ label ++ be16 (bits % 65536))
      digest.take left ++ eapPwdKdfLoop hmac key label bits fuel (ctr + 1) digest (left - digest.length)

/-- `eap_pwd_kdf()`. -/
def eapPwdKdf (lib : PwdLib P) (key label : Bytes) (bits : Nat) : Bytes :=
  let len := (bits + 7) / 8
  maskLastOctet bits (eapPwdKdfLoop lib.hmacSha256 key label bits len 1 [] len)

/-! ## Password element -/

/-- The loop for a random quadratic residue and a nonresidue. -/
def getQrQnr (prime : Nat) : (qr qnr : Option Nat) → PwdRand → Option (Nat × Nat × PwdRand)
  | some qr, some qnr, rand => some (qr, qnr, rand)
  | _, _, [] => none
  | _, _, none :: _ => none
  | qr, qnr, some v :: rand =>
    if prime = 0 then
      none
    else
      let tmp := v % prime
      let res := cryptoBignumLegendre tmp prime
      if qr.isNone ∧ res = 1 then getQrQnr prime (some tmp) qnr rand
      else if qnr.isNone ∧ res = -1 then getQrQnr prime qr (some tmp) rand
      else getQrQnr prime qr qnr rand

/-- The variables of the hunting-and-pecking loop. -/
structure PwdHunt (P : Type) where
  pwe : P
  found : Bool := false
  rand : PwdRand

/-- `"EAP-pwd Hunting And Pecking"`. -/
def huntLabel : Bytes := label "EAP-pwd Hunting And Pecking"

def xCandidate (lib : PwdLib P) (ec : CryptoEc P) (pweDigest : Bytes) : Nat :=
  let bits := ec.primeLenBits
  let x := beNat (eapPwdKdf lib pweDigest huntLabel bits)
  if bits % 8 = 0 then x else x >>> (8 - bits % 8)

/-- A candidate that was a residue becomes the password element, unless it is not usable. -/
def takeCandidate (ec : CryptoEc P) (cofactor x : Nat) (isOdd : Bool) (st : PwdHunt P) : PwdHunt P :=
  if st.found then
    st
  else
    match ec.pointSolveYCoord x isOdd with
    | none => st
    | some p =>
      if ¬ ec.pointIsOnCurve p then
        { st with pwe := p }
      else if cofactor = 1 then
        { st with pwe := p, found := true }
      else
        match ec.pointMul p cofactor with
        | none => { st with pwe := p }
        | some q => if ec.pointIsAtInfinity q then { st with pwe := q } else
            { st with pwe := q, found := true }

/-- A round of the loop; `none` if it fails. -/
def huntRound (lib : PwdLib P) (ec : CryptoEc P) (cofactor qr qnr : Nat) (seed : Bytes)
    (st : PwdHunt P) (ctr : Nat) : Option (PwdHunt P) :=
  let pweDigest := eapPwdH lib (seed ++ [UInt8.ofNat ctr])
  let x := xCandidate lib ec pweDigest
  if ec.prime ≤ x then
    some st
  else
    match cryptoBignumRand (ec.prime - 1) st.rand with
    | (none, _) => none
    | (some r, rand) =>
      let st := { st with rand }
      let tmp := cryptoBignumMulmod (cryptoBignumMulmod (ec.pointComputeYSqr x) r ec.prime) r ec.prime
      let isResidue := if r % 2 = 1 then
          cryptoBignumLegendre (cryptoBignumMulmod tmp qr ec.prime) ec.prime = 1
        else
          cryptoBignumLegendre (cryptoBignumMulmod tmp qnr ec.prime) ec.prime = -1
      if isResidue then some (takeCandidate ec cofactor x (beNat pweDigest % 2 = 1) st) else some st

/-- `compute_password_element()` for a group that has none yet. -/
def computePasswordElement (lib : PwdLib P) (ec : CryptoEc P)
    (password idServer idPeer token : Bytes) (rand : PwdRand) : Option (P × PwdRand) := do
  let cofactor ← lib.ecCofactor ec
  let (qr, qnr, rand) ← getQrQnr ec.prime none none rand
  let seed := token ++ idPeer ++ idServer ++ password
  let st ← ((List.range 40).map (· + 1)).foldlM (huntRound lib ec cofactor qr qnr seed)
    { pwe := ec.pointInit, rand }
  if st.found then some (st.pwe, st.rand) else none

/-! ## Commit -/

/-- An own Commit: what is drawn and what is sent. -/
structure PwdOwn (P : Type) where
  privateValue : Nat
  mask : Nat
  scalar : Nat
  element : P

def pwdOwnCommit (ec : CryptoEc P) (pwe : P) (rand : PwdRand) : Option (PwdOwn P) :=
  match cryptoBignumRand ec.order rand with
  | (none, _) => none
  | (some privateValue, rand) =>
    match cryptoBignumRand ec.order rand with
    | (none, _) => none
    | (some mask, _) => do
      let element ← ec.pointMul pwe mask
      let element ← ec.pointInvert element
      return { privateValue, mask, scalar := (privateValue + mask) % ec.order, element }

def commitOctets (ec : CryptoEc P) (scalar : Nat) (element : P) : Option Bytes :=
  (ec.pointToBin element).map fun (x, y) => x ++ y ++ natBe ec.orderLen scalar

def commitLen (ec : CryptoEc P) : Nat := 2 * ec.primeLen + ec.orderLen

def commitScalar (ec : CryptoEc P) (payload : Bytes) : Nat :=
  beNat (slice payload (2 * ec.primeLen) ec.orderLen)

/-- The point a received Commit and the own values multiply to, with its x coordinate. The element is
checked not to be in a small sub-group, and the result not to be at infinity. -/
def pwdSharedKey (ec : CryptoEc P) (cofactor : Nat) (pwe : P) (privateValue scalar : Nat) (element : P) :
    Option Nat := do
  if cofactor ≠ 1 then
    let point ← ec.pointMul element cofactor
    if ec.pointIsAtInfinity point then none
  let K ← ec.pointMul pwe scalar
  let K ← ec.pointAdd K element
  let K ← ec.pointMul K privateValue
  let K ← if cofactor ≠ 1 then ec.pointMul K cofactor else some K
  if ec.pointIsAtInfinity K then none
  ec.pointX K

/-! ## Confirm -/

def pwdCiphersuite (groupNum : Nat) : Bytes := be16 groupNum ++ [1, 1]

/-- The octets a Confirm is over: `k`, then the Commit of its sender, then that of its receiver. -/
def confirmOctets (ec : CryptoEc P) (groupNum k : Nat) (element₁ : P) (scalar₁ : Nat) (element₂ : P)
    (scalar₂ : Nat) : Option Bytes := do
  let (x₁, y₁) ← ec.pointToBin element₁
  let (x₂, y₂) ← ec.pointToBin element₂
  return natBe ec.primeLen k ++ (x₁ ++ y₁) ++ natBe ec.orderLen scalar₁ ++ (x₂ ++ y₂) ++
    natBe ec.orderLen scalar₂ ++ pwdCiphersuite groupNum

def pwdConfirm (lib : PwdLib P) (ec : CryptoEc P) (groupNum k : Nat) (element₁ : P) (scalar₁ : Nat)
    (element₂ : P) (scalar₂ : Nat) : Option Bytes :=
  (confirmOctets ec groupNum k element₁ scalar₁ element₂ scalar₂).map (eapPwdH lib)

/-- What `compute_keys()` derives. -/
structure PwdKeys where
  msk : Bytes := zeros 64
  emsk : Bytes := zeros 64
  sessionId : Bytes := zeros 33

/-- `compute_keys()`. -/
def computeKeys (lib : PwdLib P) (ec : CryptoEc P) (groupNum k peerScalar serverScalar : Nat)
    (confirmPeer confirmServer : Bytes) : PwdKeys :=
  let sessionId := [52] ++ eapPwdH lib (pwdCiphersuite groupNum ++ natBe ec.orderLen peerScalar ++
    natBe ec.orderLen serverScalar)
  let mk := eapPwdH lib (natBe ec.primeLen k ++ confirmPeer ++ confirmServer)
  let mskEmsk := eapPwdKdf lib mk sessionId (128 * 8)
  { msk := mskEmsk.take 64, emsk := mskEmsk.drop 64, sessionId }

/-! ## Messages -/

/-- `eap_hdr_validate()` for EAP-pwd: what follows the type. -/
def eapHdrValidate (msg : Bytes) : Option Bytes :=
  let len := getBe16 (msg.drop 2)
  if msg.length < 4 then
    none
  else if len < 5 ∨ msg.length < len then
    none
  else if msg.getD 4 0 = 254 then
    if len < 12 then none
    else if beNat (slice msg 5 3) ≠ 0 ∨ beNat (slice msg 8 4) ≠ 52 then none
    else some (slice msg 12 (len - 12))
  else if msg.getD 4 0 ≠ 52 then
    none
  else
    some (slice msg 5 (len - 5))

/-- `EAP_PWD_GET_LENGTH_BIT()`. -/
def lengthBit (lmExch : UInt8) : Bool := lmExch &&& 0x80 ≠ 0

/-- `EAP_PWD_GET_MORE_BIT()`. -/
def moreBit (lmExch : UInt8) : Bool := lmExch &&& 0x40 ≠ 0

/-- `EAP_PWD_OPCODE_*`. -/
inductive PwdExchange
  | id
  | commit
  | confirm
  | unknown
  deriving DecidableEq

/-- `EAP_PWD_GET_EXCHANGE()`. -/
def getExchange (lmExch : UInt8) : PwdExchange :=
  match (lmExch &&& 0x3f).toNat with
  | 1 => .id
  | 2 => .commit
  | 3 => .confirm
  | _ => .unknown

def PwdExchange.code : PwdExchange → UInt8
  | .id => 1
  | .commit => 2
  | .confirm => 3
  | .unknown => 0

/-- `inbuf` with its size, and `in_frag_pos`. -/
structure PwdInbuf where
  buf : Option (Nat × Bytes) := none
  fragPos : Nat := 0

/-- What a fragment does to the buffer. -/
inductive PwdInput
  /-- The message is not looked at. -/
  | dropped
  /-- There is no buffer to put a fragment in, and it is read nevertheless. -/
  | nullBuffer
  /-- More fragments are to come. -/
  | more (inbuf : PwdInbuf)
  /-- More comes in than the buffer holds. -/
  | overflow (inbuf : PwdInbuf)
  /-- A whole message. -/
  | whole (inbuf : PwdInbuf) (payload : Bytes)

/-- The reassembly both sides make of a message, from the octet with the flags on; `alloc` says whether
a buffer can be allocated. -/
def pwdReassemble (alloc : Bool) (inbuf : PwdInbuf) (lmExch : UInt8) (data : Bytes) : PwdInput :=
  if lengthBit lmExch ∧ (data.length < 2 ∨ 15000 < getBe16 data ∨ inbuf.buf.isSome ∨ ¬ alloc) then
    .dropped
  else
    let start : PwdInbuf × Bytes := if lengthBit lmExch then
        ({ buf := some (getBe16 data, []), fragPos := 0 }, data.drop 2)
      else
        (inbuf, data)
    let inbuf := start.1
    let data := start.2
    if moreBit lmExch ∨ inbuf.fragPos ≠ 0 then
      match inbuf.buf with
      | none => .nullBuffer
      | some (size, buffered) =>
        if size < inbuf.fragPos + data.length then
          .overflow inbuf
        else
          let inbuf : PwdInbuf :=
            { buf := some (size, buffered ++ data), fragPos := inbuf.fragPos + data.length }
          if moreBit lmExch then .more inbuf
          else if inbuf.fragPos ≠ 0 then .whole inbuf ((buffered ++ data).take inbuf.fragPos)
          else .whole inbuf data
    else
      .whole inbuf data

def PwdInbuf.release (inbuf : PwdInbuf) : PwdInbuf := if inbuf.fragPos ≠ 0 then {} else inbuf

/-- `EAP_PWD_group`. -/
structure PwdGroup (P : Type) where
  ec : CryptoEc P
  pwe : Option P := none

/-- The values of an exchange as one side has them: the group and its password element, the own Commit,
the scalar and the element of the other side, and the shared key. -/
structure PwdTranscript (P : Type) where
  ec : CryptoEc P
  pwe : P
  own : PwdOwn P
  scalar : Nat
  element : P
  k : Nat

/-- Faults of the source: a pointer that is not set is read, or a length wraps around. -/
inductive PwdFault
  | nullDereference
  | lengthWraps
  deriving DecidableEq

def pwdDeref {α : Type} : Option α → Except PwdFault α
  | none => .error .nullDereference
  | some a => .ok a

end Hostap
