import Hostap.Lib.Tlv

/-!
# Attributes, keys and hashes of DPP

What the authentication exchange of `src/common/dpp.c` is made of: the attributes of a frame, the curves
with the lengths that go with them, and key pairs on them. Octets of a frame are a list of attributes
(`dppAttrFormat`).

What the TLS library does is a parameter (`DppLib`). A point has the type `P`. Which key a point belongs to,
and on which curve it is, is known to the code (`DppPkey`), as it is to an `EVP_PKEY`.
-/

namespace Hostap

open Octets

/-! ## Attributes -/

abbrev dppAttrFormat : Tlv.Format UInt16 := Tlv.le16Format

/-- `DPP_ATTR_STATUS`. -/
abbrev dppAttrStatus : UInt16 := 0x1000
/-- `DPP_ATTR_I_BOOTSTRAP_KEY_HASH`. -/
abbrev dppAttrIBootstrapKeyHash : UInt16 := 0x1001
/-- `DPP_ATTR_R_BOOTSTRAP_KEY_HASH`. -/
abbrev dppAttrRBootstrapKeyHash : UInt16 := 0x1002
/-- `DPP_ATTR_I_PROTOCOL_KEY`. -/
abbrev dppAttrIProtocolKey : UInt16 := 0x1003
/-- `DPP_ATTR_WRAPPED_DATA`. -/
abbrev dppAttrWrappedData : UInt16 := 0x1004
/-- `DPP_ATTR_I_NONCE`. -/
abbrev dppAttrINonce : UInt16 := 0x1005
/-- `DPP_ATTR_I_CAPABILITIES`. -/
abbrev dppAttrICapabilities : UInt16 := 0x1006
/-- `DPP_ATTR_R_NONCE`. -/
abbrev dppAttrRNonce : UInt16 := 0x1007
/-- `DPP_ATTR_R_CAPABILITIES`. -/
abbrev dppAttrRCapabilities : UInt16 := 0x1008
/-- `DPP_ATTR_R_PROTOCOL_KEY`. -/
abbrev dppAttrRProtocolKey : UInt16 := 0x1009
/-- `DPP_ATTR_I_AUTH_TAG`. -/
abbrev dppAttrIAuthTag : UInt16 := 0x100a
/-- `DPP_ATTR_R_AUTH_TAG`. -/
abbrev dppAttrRAuthTag : UInt16 := 0x100b
/-- `DPP_ATTR_CHANNEL`. -/
abbrev dppAttrChannel : UInt16 := 0x1018

/-- `DPP_STATUS_OK`. -/
abbrev dppStatusOk : UInt8 := 0
/-- `DPP_STATUS_NOT_COMPATIBLE`. -/
abbrev dppStatusNotCompatible : UInt8 := 1
/-- `DPP_STATUS_AUTH_FAILURE`. -/
abbrev dppStatusAuthFailure : UInt8 := 2
/-- `DPP_STATUS_RESPONSE_PENDING`. -/
abbrev dppStatusResponsePending : UInt8 := 6

/-- `DPP_CAPAB_ENROLLEE`. -/
abbrev dppCapabEnrollee : UInt8 := 1
/-- `DPP_CAPAB_CONFIGURATOR`. -/
abbrev dppCapabConfigurator : UInt8 := 2
/-- `DPP_CAPAB_ROLE_MASK`. -/
abbrev dppCapabRoleMask : UInt8 := 3

/-- `DPP_MAX_SHARED_SECRET_LEN`. -/
abbrev dppMaxSharedSecretLen : Nat := 66

/-- The loop of `dpp_get_attr()`; `off` octets were gone through. -/
def dppGetAttrFrom (reqId : UInt16) : (fuel off : Nat) → Bytes → Option (Nat × Bytes)
  | 0, _, _ => none
  | fuel + 1, off, buf =>
    match Tlv.next dppAttrFormat buf with
    | none => none
    | some (id, value, rest) =>
      if id = reqId then some (off, value) else dppGetAttrFrom reqId fuel (off + 4 + value.length) rest

/-- `dpp_get_attr()`: the value of the first attribute of a type, and how many octets stand before the
attribute. -/
def dppGetAttr (buf : Bytes) (reqId : UInt16) : Option (Nat × Bytes) := dppGetAttrFrom reqId buf.length 0 buf

/-- The loop of `dpp_check_attrs()`. -/
def dppCheckAttrsFrom : (fuel : Nat) → (wrappedData : Bool) → Bytes → Bool
  | 0, _, buf => buf.isEmpty
  | fuel + 1, wrappedData, buf =>
    if buf.length < 4 then buf.isEmpty
    else
      match Tlv.next dppAttrFormat buf with
      | none => false
      | some (id, _, rest) =>
        if wrappedData then false else dppCheckAttrsFrom fuel (id = dppAttrWrappedData) rest

/-- `dpp_check_attrs()`: the attributes fill the buffer, and nothing follows the Wrapped Data. -/
def dppCheckAttrs (buf : Bytes) : Bool := dppCheckAttrsFrom buf.length false buf

/-! ## Frames -/

/-- `enum dpp_public_action_frame_type`, the frames of the authentication. -/
inductive DppFrameType
  | authenticationReq
  | authenticationResp
  | authenticationConf
  deriving DecidableEq

def DppFrameType.num : DppFrameType → UInt8
  | .authenticationReq => 0
  | .authenticationResp => 1
  | .authenticationConf => 2

/-- `dpp_alloc_msg()`: what stands before the attributes. -/
def dppAllocMsg (type : DppFrameType) : Bytes := [4, 9, 0x50, 0x6f, 0x9a, 0x1a, 1, type.num]

/-- OUI, OUI type, crypto suite and frame type, `hdr` of the functions that receive a frame. -/
def dppHdr (type : DppFrameType) : Bytes := (dppAllocMsg type).drop 2

/-! ## Curves and keys -/

/-- `struct dpp_curve_params`. -/
structure DppCurve where
  name : String
  hashLen : Nat
  nonceLen : Nat
  primeLen : Nat
  deriving DecidableEq

/-- The group behind a curve (`EC_GROUP`) with the operations on its points. -/
structure DppEc (P : Type) where
  /-- Octets of a field element. -/
  fieldLen : Nat
  /-- `EC_GROUP_get_order()`. -/
  order : Nat
  generator : P
  /-- `EC_POINT_mul()`. -/
  pointMul : Nat → P → P
  /-- `EC_POINT_add()`. -/
  pointAdd : P → P → P
  /-- `EC_POINT_get_affine_coordinates_GFp()`. -/
  affineCoordinates : P → Option (Nat × Nat)
  /-- `EC_POINT_set_affine_coordinates_GFp()`, with the checks that the point is on the curve and is not the
  point at infinity. -/
  pointFromCoordinates : Nat → Nat → Option P

/-- `EVP_PKEY` with an EC key: the public key of a peer has no private part. -/
structure DppPkey (P : Type) where
  curve : DppCurve
  priv : Option Nat
  pub : P

/-- What is taken from the TLS library and from `src/crypto`. Hashes are picked by their length. -/
structure DppLib (P : Type) where
  ec : DppCurve → DppEc P
  /-- `sha256_vector()` and its siblings, of the concatenation. -/
  sha : Nat → Bytes → Bytes
  sha_length : ∀ len data, (sha len data).length = len
  /-- `hmac_sha256_vector()` and its siblings. -/
  hmac : Nat → Bytes → Bytes → Bytes
  /-- `hmac_sha256_kdf()` and its siblings, by key, seed and length of the output. -/
  kdf : Nat → Bytes → String → Nat → Bytes
  kdf_length : ∀ len key seed outlen, (kdf len key seed outlen).length = outlen
  /-- `aes_siv_encrypt()`, by key, data and associated data. -/
  aesSivEncrypt : Bytes → Bytes → List Bytes → Option Bytes
  /-- `aes_siv_decrypt()`. -/
  aesSivDecrypt : Bytes → Bytes → List Bytes → Option Bytes
  /-- `dpp_bootstrap_key_der()`. -/
  bootstrapKeyDer : DppPkey P → Bytes

section

variable {P : Type}

/-- `dpp_hash_vector()`. -/
def dppHashVector (lib : DppLib P) (curve : DppCurve) (data : Bytes) : Option Bytes :=
  if curve.hashLen = 32 ∨ curve.hashLen = 48 ∨ curve.hashLen = 64 then some (lib.sha curve.hashLen data)
  else none

/-- `dpp_hkdf_expand()`. -/
def dppHkdfExpand (lib : DppLib P) (hashLen : Nat) (secret : Bytes) (label : String) (outlen : Nat) :
    Option Bytes :=
  if hashLen = 32 ∨ hashLen = 48 ∨ hashLen = 64 then some (lib.kdf hashLen secret label outlen) else none

/-- `dpp_hmac_vector()` and `dpp_hmac()`. -/
def dppHmac (lib : DppLib P) (hashLen : Nat) (key data : Bytes) : Option Bytes :=
  if hashLen = 32 ∨ hashLen = 48 ∨ hashLen = 64 then some (lib.hmac hashLen key data) else none

/-- `dpp_bn2bin_pad()`. -/
def dppBn2binPad (bn len : Nat) : Option Bytes :=
  if len < numBytes bn then none else some (zeros (len - numBytes bn) ++ natBe (numBytes bn) bn)

/-- `dpp_get_pubkey_point()` without the prefix: the two coordinates. -/
def dppGetPubkeyPoint (lib : DppLib P) (key : DppPkey P) : Option Bytes :=
  match (lib.ec key.curve).affineCoordinates key.pub with
  | none => none
  | some (x, y) => some (natBe (lib.ec key.curve).fieldLen x ++ natBe (lib.ec key.curve).fieldLen y)

/-- `dpp_set_pubkey_point()`: a public key on the curve of another key. -/
def dppSetPubkeyPoint (lib : DppLib P) (groupKey : DppPkey P) (buf : Bytes) : Option (DppPkey P) :=
  if buf.length % 2 = 1 then none
  else
    match (lib.ec groupKey.curve).pointFromCoordinates (beNat (buf.take (buf.length / 2)))
      (beNat (buf.drop (buf.length / 2))) with
    | none => none
    | some p => some ⟨groupKey.curve, none, p⟩

/-- `dpp_gen_keypair()`, where the generator of keys draws `d`. -/
def dppGenKeypair (lib : DppLib P) (curve : DppCurve) (d : Nat) : DppPkey P :=
  ⟨curve, some d, (lib.ec curve).pointMul d (lib.ec curve).generator⟩

/-- `EVP_PKEY_derive()` and the check of the length: the x coordinate of the shared point. -/
def dppDerive (lib : DppLib P) (own peer : DppPkey P) : Option Bytes :=
  match own.priv with
  | none => none
  | some d =>
    if own.curve ≠ peer.curve then none
    else
      match (lib.ec own.curve).affineCoordinates ((lib.ec own.curve).pointMul d peer.pub) with
      | none => none
      | some (x, _) =>
        if dppMaxSharedSecretLen < (lib.ec own.curve).fieldLen then none
        else some (natBe (lib.ec own.curve).fieldLen x)

/-- `enum dpp_bootstrap_type`. -/
inductive DppBootstrapType
  | qrCode
  | pkex
  deriving DecidableEq

/-- `struct dpp_bootstrap_info`. -/
structure DppBootstrap (P : Type) where
  type : DppBootstrapType
  freq : List Nat
  pubkey : DppPkey P
  pubkeyHash : Bytes
  curve : DppCurve
  pubkeyHash_length : pubkeyHash.length = 32

/-- `dpp_keygen()` for a bootstrapping key that is generated along the way. -/
def dppKeygen (lib : DppLib P) (curve : DppCurve) (d : Nat) : DppBootstrap P where
  type := .qrCode
  freq := []
  pubkey := dppGenKeypair lib curve d
  pubkeyHash := lib.sha 32 (lib.bootstrapKeyDer (dppGenKeypair lib curve d))
  curve := curve
  pubkeyHash_length := lib.sha_length 32 _

/-! ## Intermediate keys -/

def dppHkdf (lib : DppLib P) (hashLen : Nat) (ikm : Bytes) (info : String) : Option Bytes :=
  (dppHmac lib hashLen (zeros hashLen) ikm).bind fun prk => dppHkdfExpand lib hashLen prk info hashLen

/-- `dpp_derive_k1()`. -/
def dppDeriveK1 (lib : DppLib P) (mx : Bytes) (hashLen : Nat) : Option Bytes :=
  dppHkdf lib hashLen mx "first intermediate key"

/-- `dpp_derive_k2()`. -/
def dppDeriveK2 (lib : DppLib P) (nx : Bytes) (hashLen : Nat) : Option Bytes :=
  dppHkdf lib hashLen nx "second intermediate key"

end

end Hostap
