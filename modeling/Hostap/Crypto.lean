import Hostap.Lib.Octets

/-!
# The crypto interface

The functions of `src/crypto` that the protocol code calls. Bignums are natural numbers and
their operations are embedded as `crypto_openssl.c` computes them. What that file takes from
the TLS library itself is a parameter of the development:

* `CryptoEc P`: a curve handle with the operations on its points, which have the type `P`;
  an operation that fails returns `none`;
* `CryptoLib P`: HMAC-SHA256, the table of curves behind `crypto_ec_init` and the table of
  finite-field groups behind `dh_groups_get`.

`random_get_bytes` reads a list of draws. A draw is a failure (`none`) or a source that gives
as many octets as the caller asks for; an exhausted list is a failing generator.
-/

namespace Hostap

open Octets

/-- Undefined behaviour the source can run into, with the function it happens in. -/
inductive Fault
  /-- `sae_write_commit` reads a value that is not there. -/
  | saeWriteCommit
  /-- `sae_write_confirm` reads a value that is not there. -/
  | saeWriteConfirm
  /-- `sae_check_confirm` reads a value that is not there. -/
  | saeCheckConfirm
  /-- `sae_process_commit` reads a value that is not there. -/
  | saeProcessCommit
  /-- `sae_prepare_commit` runs without group parameters. -/
  | saePrepareCommit
  /-- A buffer is read that a failed `crypto_bignum_to_bin` never filled. -/
  | uninitialisedBuffer
  deriving DecidableEq, Repr

/-! ## Bignums -/

/-- `crypto_bignum_to_bin()`: left-padded to `padlen` octets; fails when the padding or the
number does not fit into a buffer of `buflen` octets. -/
def cryptoBignumToBin (a buflen padlen : Nat) : Option Bytes :=
  if buflen < padlen then
    none
  else if buflen < numBytes a then
    none
  else
    some (zeros (padlen - numBytes a) ++ natBe (numBytes a) a)

/-- `crypto_bignum_exptmod()`. -/
def cryptoBignumExptmod (a b c : Nat) : Nat := a ^ b % c

/-- `crypto_bignum_mulmod()`. -/
def cryptoBignumMulmod (a b c : Nat) : Nat := a * b % c

/-- `crypto_bignum_inverse()`: the residue whose product with `a` is one, if there is any. -/
def cryptoBignumInverse (a b : Nat) : Option Nat :=
  (List.range b).find? fun c => a * c % b == 1 % b

/-- `crypto_bignum_legendre()`: the power `a ^ ((p - 1) / 2)` told apart into one, zero and
anything else. -/
def cryptoBignumLegendre (a p : Nat) : Int :=
  if a ^ ((p - 1) / 2) % p = 1 then 1
  else if a ^ ((p - 1) / 2) % p = 0 then 0
  else -1

/-! ## Groups -/

/-- A curve handle (`struct crypto_ec`): the field prime, the order and the coefficients of the
curve, and the point operations of the TLS library. -/
structure CryptoEc (P : Type) where
  /-- Field prime. -/
  prime : Nat
  /-- Order of the group of points. -/
  order : Nat
  /-- Coefficients of `y^2 = x^3 + a x + b`. -/
  a : Nat
  /-- See `a`. -/
  b : Nat
  /-- `crypto_ec_point_init()`. -/
  pointInit : P
  /-- `crypto_ec_point_mul()`. -/
  pointMul : P → Nat → Option P
  /-- `crypto_ec_point_add()`. -/
  pointAdd : P → P → Option P
  /-- `crypto_ec_point_invert()`. -/
  pointInvert : P → Option P
  /-- `crypto_ec_point_is_at_infinity()`. -/
  pointIsAtInfinity : P → Bool
  /-- The affine coordinates behind `crypto_ec_point_to_bin()`. -/
  affineCoordinates : P → Option (Nat × Nat)
  /-- `crypto_ec_point_from_bin()` on the two coordinates. -/
  pointFromCoordinates : Nat → Nat → Option P
  /-- `crypto_ec_point_is_on_curve()`. -/
  pointIsOnCurve : P → Bool
  /-- `crypto_ec_point_solve_y_coord()`. -/
  pointSolveYCoord : Nat → Bool → Option P
  /-- `crypto_ec_point_cmp()` returns zero. -/
  pointCmpEq : P → P → Bool

/-- `crypto_ec_prime_len()`. -/
def CryptoEc.primeLen {P : Type} (ec : CryptoEc P) : Nat := numBytes ec.prime

/-- `crypto_ec_prime_len_bits()`. -/
def CryptoEc.primeLenBits {P : Type} (ec : CryptoEc P) : Nat := numBits ec.prime

/-- `BN_mod_add_quick()`: one subtraction of the modulus at most. -/
def bnModAddQuick (a b m : Nat) : Nat := if m ≤ a + b then a + b - m else a + b

/-- `crypto_ec_point_compute_y_sqr()`: `x^3 + a x + b`. -/
def CryptoEc.pointComputeYSqr {P : Type} (ec : CryptoEc P) (x : Nat) : Nat :=
  let tmp := x * x % ec.prime * x % ec.prime
  let tmp2 := ec.a * x % ec.prime
  bnModAddQuick (bnModAddQuick tmp2 tmp ec.prime) ec.b ec.prime

/-- `crypto_ec_point_to_bin()`, both coordinates. They are residues of the field prime, so
`prime_len` octets hold each of them. -/
def CryptoEc.pointToBin {P : Type} (ec : CryptoEc P) (p : P) : Option (Bytes × Bytes) :=
  (ec.affineCoordinates p).map fun (x, y) => (natBe ec.primeLen x, natBe ec.primeLen y)

/-- `crypto_ec_point_from_bin()`. -/
def CryptoEc.pointFromBin {P : Type} (ec : CryptoEc P) (val : Bytes) : Option P :=
  ec.pointFromCoordinates (beNat (val.take ec.primeLen)) (beNat (slice val ec.primeLen ec.primeLen))

/-- A finite-field group (`struct dh_group`); the generator is not used by SAE. -/
structure DhGroup where
  /-- The prime, as its octets. -/
  prime : Bytes
  /-- The order of the subgroup, as its octets. -/
  order : Bytes
  /-- The order is `(p - 1) / 2`. -/
  safePrime : Bool
  deriving DecidableEq, Repr

/-- The library side: keyed hash, curves and finite-field groups. -/
structure CryptoLib (P : Type) where
  /-- HMAC-SHA256 of the concatenation of a vector of buffers. -/
  hmacSha256 : Bytes → Bytes → Bytes
  /-- The tag has 32 octets. -/
  hmacSha256_length : ∀ key data, (hmacSha256 key data).length = 32
  /-- `crypto_ec_init()`. -/
  ecInit : Int → Option (CryptoEc P)
  /-- `dh_groups_get()`. -/
  dhGroupsGet : Int → Option DhGroup

/-- `SHA256_MAC_LEN`. -/
def sha256MacLen : Nat := 32

/-- The loop of `sha256_prf_bits()`: whole tags while they fit, then the front of one more.
Every round writes at least one octet, so the number of octets asked for bounds the rounds. -/
def sha256PrfLoop (hmac : Bytes → Bytes → Bytes) (key label data : Bytes) (bits : Nat) :
    (fuel counter left : Nat) → Bytes
  | 0, _, _ => []
  | fuel + 1, counter, left =>
    let tag := hmac key (le16 (counter % 65536) ++ label ++ data ++ le16 (bits % 65536))
    if left = 0 then
      []
    else if sha256MacLen ≤ left then
      tag ++ sha256PrfLoop hmac key label data bits fuel (counter + 1) (left - sha256MacLen)
    else
      tag.take left

/-- `buf[pos - 1] &= mask`: clears the bits of the last octet that are not part of the output. -/
def maskLastOctet (bits : Nat) (buf : Bytes) : Bytes :=
  if bits % 8 = 0 then
    buf
  else
    buf.dropLast ++ [buf.getLastD 0 &&& UInt8.ofNat (255 * 2 ^ (8 - bits % 8))]

/-- `sha256_prf_bits()`. -/
def sha256PrfBits (hmac : Bytes → Bytes → Bytes) (key label data : Bytes) (bits : Nat) : Bytes :=
  let bufLen := (bits + 7) / 8
  maskLastOctet bits (sha256PrfLoop hmac key label data bits bufLen 1 bufLen)

/-- `sha256_prf()`. -/
def sha256Prf (hmac : Bytes → Bytes → Bytes) (key label data : Bytes) (len : Nat) : Bytes :=
  sha256PrfBits hmac key label data (len * 8)

/-! ## Random octets -/

abbrev Rand := List (Option (Nat → UInt8))

/-- `random_get_bytes()`: `none` when it fails. -/
def randomGetBytes (len : Nat) : Rand → Option Bytes × Rand
  | [] => (none, [])
  | none :: rand => (none, rand)
  | some source :: rand => (some ((List.range len).map source), rand)

end Hostap
