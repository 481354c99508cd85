import Hostap.Crypto

/-!
# SAE data and the commit side

`src/common/sae.c` up to the derivation of the keys: the protocol instance `SaeData` with its
temporary data, the selection of a group, the hunting-and-pecking derivation of the password
element for curves and for finite fields, the own commit and the shared keys.

The source keeps `ec`, `dh`, `prime`, `order` and `prime_len` side by side and sets all of them
in `sae_set_group()` only: either a curve, or a finite-field group, or (after a failed
selection) neither. `SaeGroup` has one constructor for each of the three, so that a handle
that contradicts the prime next to it cannot be built.

Pointers that may be `NULL` are options. Where the source reads through such a pointer without
a check, the embedding stops with the `Fault` of the function it happens in.
-/

namespace Hostap

open Octets

/-- `enum sae_state`. -/
inductive SaeState
  | nothing
  | committed
  | confirmed
  | accepted
  deriving DecidableEq, Repr

/-- The group of the temporary data: `tmp->ec`, `tmp->dh` or none of them. -/
inductive SaeGroup (P : Type)
  | unset
  | ecc (ec : CryptoEc P)
  | ffc (dh : DhGroup)

/-- `tmp->prime_len`. -/
def SaeGroup.primeLen {P : Type} : SaeGroup P → Nat
  | .unset => 0
  | .ecc ec => ec.primeLen
  | .ffc dh => dh.prime.length

/-- `tmp->order`; zero stands for the pointer that is not set. -/
def SaeGroup.order {P : Type} : SaeGroup P → Nat
  | .unset => 0
  | .ecc ec => ec.order
  | .ffc dh => beNat dh.order

/-- `SAE_KCK_LEN`. -/
def saeKckLen : Nat := 32

/-- `SAE_PMK_LEN`. -/
def saePmkLen : Nat := 32

/-- `SAE_PMKID_LEN`. -/
def saePmkidLen : Nat := 16

/-- `SAE_MAX_PRIME_LEN`. -/
def saeMaxPrimeLen : Nat := 512

/-- `SAE_MAX_ECC_PRIME_LEN`. -/
def saeMaxEccPrimeLen : Nat := 66

/-- `struct sae_temporary_data`, zeroed by default. -/
structure SaeTemporaryData (P : Type) where
  kck : Bytes := zeros saeKckLen
  ownCommitScalar : Option Nat := none
  ownCommitElementFfc : Option Nat := none
  ownCommitElementEcc : Option P := none
  peerCommitElementFfc : Option Nat := none
  peerCommitElementEcc : Option P := none
  pweEcc : Option P := none
  pweFfc : Option Nat := none
  saeRand : Option Nat := none
  group : SaeGroup P := .unset
  antiCloggingToken : Option Bytes := none
  /-- The octets before the terminating NUL the parser appends. -/
  pwId : Option Bytes := none

/-- `struct sae_data`, zeroed by default. -/
structure SaeData (P : Type) where
  state : SaeState := .nothing
  sendConfirm : Nat := 0
  pmk : Bytes := zeros saePmkLen
  pmkid : Bytes := zeros saePmkidLen
  peerCommitScalar : Option Nat := none
  group : Int := 0
  sync : Nat := 0
  rc : Nat := 0
  tmp : Option (SaeTemporaryData P) := none

variable {P : Type}

def deref {α : Type} (fault : Fault) : Option α → Except Fault α
  | none => .error fault
  | some a => .ok a

def cString (bs : Bytes) : Bytes := bs.takeWhile (· != 0)

def label (s : String) : Bytes := s.toList.map fun c => UInt8.ofNat c.toNat

/-! ## Group selection -/

/-- `sae_clear_temp_data()`. -/
def saeClearTempData (sae : SaeData P) : SaeData P := { sae with tmp := none }

/-- `sae_clear_data()`: frees the temporary data and zeroes the instance. -/
def saeClearData (_ : SaeData P) : SaeData P := {}

/-- `sae_set_group()`. A group the library does not know leaves temporary data without
group parameters behind. -/
def saeSetGroup (c : CryptoLib P) (group : Int) (sae : SaeData P) : Bool × SaeData P :=
  let sae := saeClearData sae
  match c.ecInit group with
  | some ec => (true, { sae with group := group, tmp := some { group := .ecc ec } })
  | none =>
    match c.dhGroupsGet group with
    | some dh =>
      if saeMaxPrimeLen < dh.prime.length then
        (false, saeClearData sae)
      else
        (true, { sae with group := group, tmp := some { group := .ffc dh } })
    | none => (false, { sae with tmp := some {} })

/-! ## Random scalars -/

/-- `buf_shift_right()` for the octets after `prev`. -/
def bufShiftRightFrom (bits : Nat) (prev : UInt8) : Bytes → Bytes
  | [] => []
  | b :: bs =>
    (prev <<< UInt8.ofNat (8 - bits) ||| b >>> UInt8.ofNat bits) :: bufShiftRightFrom bits b bs

/-- `buf_shift_right()`, by less than an octet. The first octet has nothing before it. -/
def bufShiftRight (bits : Nat) : Bytes → Bytes
  | [] => []
  | b :: bs => b >>> UInt8.ofNat bits :: bufShiftRightFrom bits b bs

/-- Drops the excess bits of a buffer drawn for a number of `bits` bits. -/
def trimBits (bits : Nat) (buf : Bytes) : Bytes :=
  if bits % 8 = 0 then buf else bufShiftRight (8 - bits % 8) buf

/-- The loop of `sae_get_rand()`, with the draws left before it gives up. -/
def saeGetRandLoop (order : Nat) : (fuel : Nat) → Rand → Option Nat × Rand
  | 0, rand => (none, rand)
  | fuel + 1, rand =>
    match randomGetBytes (numBytes order) rand with
    | (none, rand) => (none, rand)
    | (some val, rand) =>
      let bn := beNat (trimBits (numBits order) val)
      if bn = 0 ∨ bn = 1 ∨ order ≤ bn then
        saeGetRandLoop order fuel rand
      else
        (some bn, rand)

/-- `sae_get_rand()`. -/
def saeGetRand (order : Nat) (rand : Rand) : Option Nat × Rand :=
  if saeMaxPrimeLen < numBytes order then (none, rand) else saeGetRandLoop order 101 rand

/-- `sae_get_rand_and_mask()`: the mask, and the temporary data with the new `sae_rand`. -/
def saeGetRandAndMask (t : SaeTemporaryData P) (rand : Rand) :
    Option Nat × SaeTemporaryData P × Rand :=
  match saeGetRand t.group.order rand with
  | (none, rand) => (none, { t with saeRand := none }, rand)
  | (some r, rand) =>
    let (mask, rand) := saeGetRand t.group.order rand
    (mask, { t with saeRand := some r }, rand)

/-! ## Password element -/

/-- `sae_pwd_seed_key()`: the greater address first. -/
def saePwdSeedKey (addr1 addr2 : Bytes) : Bytes :=
  if memcmp addr1 addr2 = .gt then addr1 ++ addr2 else addr2 ++ addr1

/-- `get_rand_1_to_p_1()`: the number and whether it is odd. -/
def getRand1ToP1 (prime : Bytes) (bits : Nat) : Rand → Option (Nat × Bool) × Rand
  | [] => (none, [])
  | none :: rand => (none, rand)
  | some source :: rand =>
    let tmp := trimBits bits ((List.range prime.length).map source)
    if memcmp tmp prime ≠ .lt then
      getRand1ToP1 prime bits rand
    else if beNat tmp = 0 then
      getRand1ToP1 prime bits rand
    else
      (some (beNat tmp, tmp.getLastD 0 &&& 1 = 1), rand)

/-- `is_quadratic_residue_blind()`: `none` when no blinding value could be drawn. -/
def isQuadraticResidueBlind (p : Nat) (prime : Bytes) (bits qr qnr ySqr : Nat) (rand : Rand) :
    Option Bool × Rand :=
  match getRand1ToP1 prime bits rand with
  | (none, rand) => (none, rand)
  | (some (r, rOdd), rand) =>
    let num := cryptoBignumMulmod (cryptoBignumMulmod ySqr r p) r p
    if rOdd then
      (some (cryptoBignumLegendre (cryptoBignumMulmod num qr p) p = 1), rand)
    else
      (some (cryptoBignumLegendre (cryptoBignumMulmod num qnr p) p = -1), rand)

/-- What testing one password seed gives. -/
inductive SeedTest
  /-- The test itself failed. -/
  | failed
  /-- The seed gives no group element. -/
  | no
  /-- The seed gives this value. -/
  | yes (value : Nat)
  deriving DecidableEq, Repr

/-- `sae_test_pwd_seed_ecc()`. Only the `prime_len` octets the PRF wrote matter after the
shift: every octet depends on itself and the one before it. -/
def saeTestPwdSeedEcc (c : CryptoLib P) (ec : CryptoEc P) (pwdSeed prime : Bytes)
    (qr qnr : Nat) (rand : Rand) : SeedTest × Rand :=
  let bits := ec.primeLenBits
  let pwdValue := trimBits bits
    (sha256PrfBits c.hmacSha256 pwdSeed (label "SAE Hunting and Pecking") prime bits)
  if memcmp pwdValue prime ≠ .lt then
    (.no, rand)
  else
    let xCand := beNat pwdValue
    match isQuadraticResidueBlind ec.prime prime bits qr qnr (ec.pointComputeYSqr xCand) rand with
    | (none, rand) => (.failed, rand)
    | (some false, rand) => (.no, rand)
    | (some true, rand) => (.yes xCand, rand)

/-- `get_random_qr_qnr()`: a residue and a non-residue, keeping the first of each. -/
def getRandomQrQnr (p : Nat) (prime : Bytes) (bits : Nat) :
    (qr qnr : Option Nat) → Rand → Option (Nat × Nat) × Rand
  | some qr, some qnr, rand => (some (qr, qnr), rand)
  | _, _, [] => (none, [])
  | _, _, none :: rand => (none, rand)
  | qr, qnr, some source :: rand =>
    let tmp := trimBits bits ((List.range prime.length).map source)
    if memcmp tmp prime ≠ .lt then
      getRandomQrQnr p prime bits qr qnr rand
    else
      let q := beNat tmp
      let res := cryptoBignumLegendre q p
      if res = 1 ∧ qr.isNone then
        getRandomQrQnr p prime bits (some q) qnr rand
      else if res = -1 ∧ qnr.isNone then
        getRandomQrQnr p prime bits qr (some q) rand
      else
        getRandomQrQnr p prime bits qr qnr rand

/-- The octets hashed for one counter value: `password [|| identifier] || counter`. -/
def pwdSeedInput (password : Bytes) (identifier : Option Bytes) (counter : Nat) : Bytes :=
  password ++ (identifier.map cString).getD [] ++ [UInt8.ofNat counter]

/-- The number of rounds `sae_derive_pwe_ecc()` always makes. -/
def saePweMinRounds : Nat := 40

/-- The loop of `sae_derive_pwe_ecc()`; `fuel` counts the rounds left before the counter
passes 200. A found value is kept and later rounds run on the dummy password. -/
def saeDerivePweEccLoop (c : CryptoLib P) (ec : CryptoEc P) (addrs prime : Bytes) (qr qnr : Nat)
    (identifier : Option Bytes) (dummyPassword : Bytes) :
    (fuel counter : Nat) → (x : Option (Nat × Bool)) → (password : Bytes) → Rand →
    Option (Option (Nat × Bool)) × Rand
  | 0, _, x, _, rand => (some x, rand)
  | fuel + 1, counter, x, password, rand =>
    if saePweMinRounds < counter ∧ x.isSome then
      (some x, rand)
    else
      let pwdSeed := c.hmacSha256 addrs (pwdSeedInput password identifier counter)
      match saeTestPwdSeedEcc c ec pwdSeed prime qr qnr rand with
      | (.failed, rand) => (none, rand)
      | (.no, rand) =>
        saeDerivePweEccLoop c ec addrs prime qr qnr identifier dummyPassword fuel (counter + 1)
          x password rand
      | (.yes xCand, rand) =>
        match x with
        | none =>
          saeDerivePweEccLoop c ec addrs prime qr qnr identifier dummyPassword fuel (counter + 1)
            (some (xCand, pwdSeed.getLastD 0 &&& 1 = 1)) dummyPassword rand
        | some _ =>
          saeDerivePweEccLoop c ec addrs prime qr qnr identifier dummyPassword fuel (counter + 1)
            x password rand

/-- `sae_derive_pwe_ecc()`. -/
def saeDerivePweEcc (c : CryptoLib P) (ec : CryptoEc P) (addr1 addr2 password : Bytes)
    (identifier : Option Bytes) (t : SaeTemporaryData P) (rand : Rand) :
    Bool × SaeTemporaryData P × Rand :=
  match randomGetBytes (min password.length 32) rand with
  | (none, rand) => (false, t, rand)
  | (some dummyPassword, rand) =>
    match cryptoBignumToBin ec.prime saeMaxEccPrimeLen ec.primeLen with
    | none => (false, t, rand)
    | some prime =>
      match getRandomQrQnr ec.prime prime ec.primeLenBits none none rand with
      | (none, rand) => (false, t, rand)
      | (some (qr, qnr), rand) =>
        match saeDerivePweEccLoop c ec (saePwdSeedKey addr1 addr2) prime qr qnr identifier
            dummyPassword 200 1 none password rand with
        | (none, rand) => (false, t, rand)
        | (some none, rand) => (false, t, rand)
        | (some (some (x, odd)), rand) =>
          match ec.pointSolveYCoord x odd with
          | some pwe => (true, { t with pweEcc := some pwe }, rand)
          | none => (false, { t with pweEcc := some (t.pweEcc.getD ec.pointInit) }, rand)

/-- `sae_test_pwd_seed_ffc()`: the test and the value `pwe` has afterwards. -/
def saeTestPwdSeedFfc (c : CryptoLib P) (dh : DhGroup) (pwdSeed : Bytes) (pwe : Nat) :
    SeedTest × Nat :=
  let pwdValue := sha256PrfBits c.hmacSha256 pwdSeed (label "SAE Hunting and Pecking") dh.prime
    (dh.prime.length * 8)
  if memcmp pwdValue dh.prime ≠ .lt then
    (.no, pwe)
  else if ¬ dh.safePrime ∧ beNat dh.order = 0 then
    (.failed, pwe)
  else
    let b := if dh.safePrime then 2 else (beNat dh.prime - 1) / beNat dh.order
    let pwe := cryptoBignumExptmod (beNat pwdValue) b (beNat dh.prime)
    if pwe = 0 ∨ pwe = 1 then (.no, pwe) else (.yes pwe, pwe)

/-- The loop of `sae_derive_pwe_ffc()`: whether an element was found, and `pwe_ffc`. -/
def saeDerivePweFfcLoop (c : CryptoLib P) (dh : DhGroup) (addrs password : Bytes)
    (identifier : Option Bytes) : (fuel counter pwe : Nat) → Bool × Nat
  | 0, _, pwe => (false, pwe)
  | fuel + 1, counter, pwe =>
    let pwdSeed := c.hmacSha256 addrs (pwdSeedInput password identifier counter)
    match saeTestPwdSeedFfc c dh pwdSeed pwe with
    | (.failed, pwe) => (false, pwe)
    | (.no, pwe) => saeDerivePweFfcLoop c dh addrs password identifier fuel (counter + 1) pwe
    | (.yes _, pwe) => (true, pwe)

/-- `sae_derive_pwe_ffc()`. -/
def saeDerivePweFfc (c : CryptoLib P) (dh : DhGroup) (addr1 addr2 password : Bytes)
    (identifier : Option Bytes) (t : SaeTemporaryData P) : Bool × SaeTemporaryData P :=
  let (found, pwe) := saeDerivePweFfcLoop c dh (saePwdSeedKey addr1 addr2) password identifier
    200 1 (t.pweFfc.getD 0)
  (found, { t with pweFfc := some pwe })

/-! ## Own commit -/

/-- `sae_derive_commit_element_ecc()`. -/
def saeDeriveCommitElementEcc (ec : CryptoEc P) (mask : Nat) (t : SaeTemporaryData P) :
    Except Fault (Bool × SaeTemporaryData P) := do
  let pwe ← deref .saePrepareCommit t.pweEcc
  match ec.pointMul pwe mask with
  | none =>
    pure (false, { t with ownCommitElementEcc := some (t.ownCommitElementEcc.getD ec.pointInit) })
  | some q =>
    match ec.pointInvert q with
    | none => pure (false, { t with ownCommitElementEcc := some q })
    | some e => pure (true, { t with ownCommitElementEcc := some e })

/-- `sae_derive_commit_element_ffc()`. -/
def saeDeriveCommitElementFfc (dh : DhGroup) (mask : Nat) (t : SaeTemporaryData P) :
    Except Fault (Bool × SaeTemporaryData P) := do
  let pwe ← deref .saePrepareCommit t.pweFfc
  let q := cryptoBignumExptmod pwe mask (beNat dh.prime)
  match cryptoBignumInverse q (beNat dh.prime) with
  | none => pure (false, { t with ownCommitElementFfc := some q })
  | some e => pure (true, { t with ownCommitElementFfc := some e })

/-- The `do`/`while` loop of `sae_derive_commit()`: the mask for a scalar above one. -/
def saeDeriveCommitLoop : (fuel : Nat) → SaeTemporaryData P → Rand →
    Option Nat × SaeTemporaryData P × Rand
  | 0, t, rand => (none, t, rand)
  | fuel + 1, t, rand =>
    match saeGetRandAndMask t rand with
    | (none, t, rand) => (none, t, rand)
    | (some mask, t, rand) =>
      let scalar := (t.saeRand.getD 0 + mask) % t.group.order
      let t := { t with ownCommitScalar := some scalar }
      if scalar = 0 ∨ scalar = 1 then
        saeDeriveCommitLoop fuel t rand
      else
        (some mask, t, rand)

/-- `sae_derive_commit()`. -/
def saeDeriveCommit (t : SaeTemporaryData P) (rand : Rand) :
    Except Fault (Bool × SaeTemporaryData P × Rand) :=
  match t.group with
  | .unset => .error .saePrepareCommit
  | .ecc ec =>
    match saeDeriveCommitLoop 100 t rand with
    | (none, t, rand) => .ok (false, t, rand)
    | (some mask, t, rand) => do
      let (ok, t) ← saeDeriveCommitElementEcc ec mask t
      pure (ok, t, rand)
  | .ffc dh =>
    match saeDeriveCommitLoop 100 t rand with
    | (none, t, rand) => .ok (false, t, rand)
    | (some mask, t, rand) => do
      let (ok, t) ← saeDeriveCommitElementFfc dh mask t
      pure (ok, t, rand)

/-- The derivation of the password element for the group in use. -/
def saeDerivePwe (c : CryptoLib P) (addr1 addr2 password : Bytes) (identifier : Option Bytes)
    (t : SaeTemporaryData P) (rand : Rand) : Bool × SaeTemporaryData P × Rand :=
  match t.group with
  | .unset => (true, t, rand)
  | .ecc ec => saeDerivePweEcc c ec addr1 addr2 password identifier t rand
  | .ffc dh =>
    let (ok, t) := saeDerivePweFfc c dh addr1 addr2 password identifier t
    (ok, t, rand)

/-- `sae_prepare_commit()`. -/
def saePrepareCommit (c : CryptoLib P) (addr1 addr2 password : Bytes)
    (identifier : Option Bytes) (sae : SaeData P) (rand : Rand) :
    Except Fault (Bool × SaeData P × Rand) :=
  match sae.tmp with
  | none => .ok (false, sae, rand)
  | some t =>
    match saeDerivePwe c addr1 addr2 password identifier t rand with
    | (false, t, rand) => .ok (false, { sae with tmp := some t }, rand)
    | (true, t, rand) => do
      let (ok, t, rand) ← saeDeriveCommit t rand
      pure (ok, { sae with tmp := some t }, rand)

/-! ## Shared keys -/

/-- `sae_derive_k_ecc()`: the x coordinate of `K`, or nothing when `K` is the identity or an
operation fails. -/
def saeDeriveKEcc (ec : CryptoEc P) (t : SaeTemporaryData P) (peerScalar : Option Nat) :
    Except Fault (Option Bytes) := do
  let pwe ← deref .saeProcessCommit t.pweEcc
  let scalar ← deref .saeProcessCommit peerScalar
  match ec.pointMul pwe scalar with
  | none => pure none
  | some k =>
    let element ← deref .saeProcessCommit t.peerCommitElementEcc
    match ec.pointAdd k element with
    | none => pure none
    | some k =>
      let r ← deref .saeProcessCommit t.saeRand
      match ec.pointMul k r with
      | none => pure none
      | some k =>
        if ec.pointIsAtInfinity k then
          pure none
        else
          pure ((ec.pointToBin k).map Prod.fst)

/-- `sae_derive_k_ffc()`. -/
def saeDeriveKFfc (dh : DhGroup) (t : SaeTemporaryData P) (peerScalar : Option Nat) :
    Except Fault (Option Bytes) := do
  let pwe ← deref .saeProcessCommit t.pweFfc
  let scalar ← deref .saeProcessCommit peerScalar
  let element ← deref .saeProcessCommit t.peerCommitElementFfc
  let r ← deref .saeProcessCommit t.saeRand
  let p := beNat dh.prime
  let k := cryptoBignumExptmod (cryptoBignumMulmod (cryptoBignumExptmod pwe scalar p) element p) r p
  if k = 1 then
    pure none
  else
    pure (cryptoBignumToBin k saeMaxPrimeLen dh.prime.length)

/-- A bignum in a buffer of `SAE_MAX_PRIME_LEN` octets of which the first `primeLen` are used,
by a caller that does not look at the result of `crypto_bignum_to_bin()`. -/
def saeBignumBuf (a primeLen : Nat) : Except Fault Bytes := do
  let buf ← deref .uninitialisedBuffer (cryptoBignumToBin a saeMaxPrimeLen primeLen)
  pure (buf.take primeLen)

/-- The keys `sae_derive_keys()` computes. -/
structure SaeKeys where
  kck : Bytes
  pmk : Bytes
  pmkid : Bytes
  deriving DecidableEq, Repr

/-- `sae_derive_keys()`. The PMKID is the front of the scalar sum's buffer. -/
def saeDeriveKeys (c : CryptoLib P) (g : SaeGroup P) (k : Bytes) (own peer : Nat) :
    Except Fault SaeKeys := do
  let keyseed := c.hmacSha256 (zeros 32) (k.take g.primeLen)
  let val ← saeBignumBuf ((own + peer) % g.order) g.primeLen
  let keys := sha256Prf c.hmacSha256 keyseed (label "SAE KCK and PMK") val
    (saeKckLen + saePmkLen)
  pure ⟨keys.take saeKckLen, slice keys saeKckLen saePmkLen, val.take saePmkidLen⟩

/-- The `k` of the group in use. -/
def saeDeriveK (t : SaeTemporaryData P) (peerScalar : Option Nat) :
    Except Fault (Option Bytes) :=
  match t.group with
  | .unset => .error .saeProcessCommit
  | .ecc ec => saeDeriveKEcc ec t peerScalar
  | .ffc dh => saeDeriveKFfc dh t peerScalar

/-- `sae_process_commit()`. Nothing changes when it fails. -/
def saeProcessCommit (c : CryptoLib P) (sae : SaeData P) : Except Fault (Bool × SaeData P) :=
  match sae.tmp with
  | none => .ok (false, sae)
  | some t => do
    match ← saeDeriveK t sae.peerCommitScalar with
    | none => pure (false, sae)
    | some k =>
      let own ← deref .saeProcessCommit t.ownCommitScalar
      let peer ← deref .saeProcessCommit sae.peerCommitScalar
      let keys ← saeDeriveKeys c t.group k own peer
      pure (true, { sae with
        pmk := keys.pmk, pmkid := keys.pmkid, tmp := some { t with kck := keys.kck } })

end Hostap
