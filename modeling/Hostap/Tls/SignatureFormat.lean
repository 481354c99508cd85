import Hostap.Tls.Pkcs1

/-!
# The format of a signature

`pkcs1_v15_sig_ver()` and `x509_check_signature()` accept the block of a signer. They also accept blocks that no
signer makes, as some of the octets are not looked at: the parameters of the algorithm may be anything, and a
number whose cube ends and starts as a block has to is a signature for the exponent 3. `rsaSignature_format_iff`
says what a block has to have that the code does not ask for.
-/

namespace Hostap

open Octets Der List

/-! ## Blocks -/

theorem DigestInfoParts.Tight.strict {alg : List Nat} {p : DigestInfoParts} (h : p.Tight alg) {k : Nat}
    (hk : 8 ≤ k) : StrictBlock alg p.digest (paddedBlock k p.octets) := by
  have hoid : Element 0x06 (Der.oid alg) (p.oidHdr ++ p.oid) := by
    rw [← h.oid]
    exact .mk h.oidHdr
  have halgorithm : Element 0x30 (p.oidHdr ++ p.oid ++ p.params) (p.algHdr ++ p.algContent) := by
    rw [append_assoc]
    exact .mk h.algHdr
  have hinfo : Element 0x30 (p.algHdr ++ p.algContent ++ (p.digestHdr ++ p.digest)) p.octets := by
    unfold DigestInfoParts.octets
    rw [← append_assoc p.algHdr]
    refine .mk ?_
    rw [length_append, length_append, length_append]
    exact h.infoHdr
  exact .mk hk (.mk hoid h.params halgorithm (.mk h.digestHdr) hinfo)

theorem identifier_sequence (s : Bytes) : asn1Identifier (0x30 :: s) = some (0, 16, s) := rfl

theorem identifier_oid (s : Bytes) : asn1Identifier (0x06 :: s) = some (0, 6, s) := rfl

theorem identifier_octetString (s : Bytes) : asn1Identifier (0x04 :: s) = some (0, 4, s) := rfl

theorem DigestInfoParts.Lax.tight {accept : List Nat → Bool} {alg : List Nat} {p : DigestInfoParts}
    (hlax : p.Lax accept) {octets : Bytes} (hinfo : DigestInfoDer alg p.digest octets)
    (heq : p.octets = octets) : p.Tight alg := by
  obtain ⟨n, hread, _, _⟩ := hlax.infoHdr
  cases hinfo with
  | mk hoid hparams halgorithm hdigest hinfo =>
  cases hoid with
  | mk hoidHdr =>
  cases halgorithm with
  | mk halgHdr =>
  cases hdigest with
  | mk hdigestHdr =>
  cases hinfo with
  | mk hinfoHdr =>
  -- one header after the other is the one in the shortest form
  obtain ⟨rfl, hrest, _⟩ := header_eq_of_isHeader identifier_sequence hread hinfoHdr heq
  rw [append_assoc] at hrest
  obtain ⟨rfl, hrest, halgLen⟩ := header_eq_of_isHeader identifier_sequence hlax.algHdr halgHdr hrest
  obtain ⟨halg, hrest⟩ := append_inj hrest halgLen
  obtain ⟨rfl, -, -⟩ := header_eq_of_isHeader identifier_octetString hlax.digestHdr hdigestHdr hrest
  have hcontent := halg
  rw [append_assoc] at halg
  obtain ⟨rfl, halg, hoidLen⟩ := header_eq_of_isHeader identifier_oid hlax.oidHdr hoidHdr halg
  obtain ⟨hoid, rfl⟩ := append_inj halg hoidLen
  refine ⟨?_, ?_, ?_, hoid, hparams, hdigestHdr⟩
  · rw [hcontent, ← length_append, ← length_append, ← length_append]
    exact hinfoHdr
  · rw [hcontent]
    exact halgHdr
  · rw [hoid]
    exact hoidHdr

/-- Where the code finds a DigestInfo with the hash behind the padding, nothing that it skips, and no form that
it lets pass, is other than a signer has it. -/
def NothingLoose (accept : List Nat → Bool) (alg : List Nat) (hash block : Bytes) : Prop :=
  ∀ (k : Nat) (p : DigestInfoParts), 8 ≤ k → 16 ≤ p.octets.length → block = paddedBlock k p.octets →
    p.digest = hash → p.Lax accept → p.Tight alg

theorem strict_iff_nothingLoose {accept : List Nat → Bool} {alg : List Nat} {hash plain : Bytes} :
    ((∃ data, pkcs1StripPadding plain = some data ∧ digestInfoDigest accept data = some hash) →
        StrictBlock alg hash plain) ↔
      NothingLoose accept alg hash plain := by
  constructor
  · rintro h k p hk hlen rfl rfl hlax
    have hstrict := h ⟨p.octets, pkcs1StripPadding_paddedBlock hk hlen, hlax.found⟩
    generalize hblock : paddedBlock k p.octets = block at hstrict
    cases hstrict with
    | mk hk' hinfo => exact hlax.tight hinfo (paddedBlock_unique hblock)
  · rintro h ⟨data, hstrip, hdigest⟩
    obtain ⟨k, hk, hlen, rfl⟩ := pkcs1StripPadding_iff.mp hstrip
    obtain ⟨p, rfl, rfl, hlax⟩ := digestInfoDigest_iff.mp hdigest
    exact (h k p hk hlen rfl rfl hlax).strict hk

/-! ## OIDs -/

theorem asn1OidValue_oidHigh (val : Nat) (rest : Bytes) :
    asn1OidValue 0 (oidHigh val ++ rest) = asn1OidValue (val % 2 ^ 64) rest := by
  induction val using Nat.strongRecOn generalizing rest with
  | ind val ih =>
    by_cases hzero : val = 0
    · rw [hzero, oidHigh_zero]
      rfl
    · have hval : (UInt8.ofNat (128 + val % 128)).toNat = 128 + val % 128 := by
        rw [UInt8.toNat_ofNat']
        omega
      have hmore : ¬ UInt8.ofNat (128 + val % 128) &&& 0x80 = 0 := fun h => by
        have hlt := (high_bit_iff _).mp h
        omega
      rw [oidHigh_pos (Nat.pos_of_ne_zero hzero), append_assoc, ih (val / 128) (by omega),
        singleton_append, asn1OidValue, if_pos hmore, hval]
      congr 1
      omega

theorem asn1OidValue_oidValue {val : Nat} (hval : val < 2 ^ 64) (rest : Bytes) :
    asn1OidValue 0 (oidValue val ++ rest) = some (val, rest) := by
  have hlow : (UInt8.ofNat (val % 128)).toNat = val % 128 := by
    rw [UInt8.toNat_ofNat']
    omega
  have hlast : UInt8.ofNat (val % 128) &&& 0x80 = 0 := (high_bit_iff _).mpr (by omega)
  unfold oidValue
  rw [append_assoc, asn1OidValue_oidHigh, singleton_append, asn1OidValue,
    if_neg (not_not.mpr hlast), hlow, show (val / 128 % 2 ^ 64 * 128 + val % 128 % 128) % 2 ^ 64 = val by omega]

theorem oidValue_ne_nil (val : Nat) : oidValue val ≠ [] := by
  simp [oidValue]

/-! ## Signatures -/

def signatureDigestOid (alg : Nat) : List Nat :=
  if alg = 4 then [1, 2, 840, 113549, 2, 5]
  else if alg = 5 then [1, 3, 14, 3, 2, 26]
  else if alg = 11 then [2, 16, 840, 1, 101, 3, 4, 2, 1]
  else if alg = 12 then [2, 16, 840, 1, 101, 3, 4, 2, 2]
  else if alg = 13 then [2, 16, 840, 1, 101, 3, 4, 2, 3]
  else []

theorem pkcs1DecryptPublicKey_eq_some {key : CryptoRsaKey} {crypt data : Bytes} :
    pkcs1DecryptPublicKey key crypt = some data ↔
      ∃ block, cryptoRsaExptmod crypt crypt.length key = some block ∧ pkcs1StripPadding block = some data := by
  unfold pkcs1DecryptPublicKey
  cases cryptoRsaExptmod crypt crypt.length key with
  | none => simp
  | some block => simp

theorem pkcs1V15SigVer_eq_true {pk : CryptoRsaKey} {s : Bytes} {hashAlg : List Nat} {hash : Bytes} :
    pkcs1V15SigVer pk s hashAlg hash = true ↔ ∃ data, pkcs1DecryptPublicKey pk s = some data ∧
      digestInfoDigest (· = hashAlg) data = some hash := by
  unfold pkcs1V15SigVer
  cases pkcs1DecryptPublicKey pk s with
  | none => simp
  | some data =>
    cases hdigest : digestInfoDigest (· = hashAlg) data with
    | none => simp [hdigest]
    | some digest => simp [hdigest]

theorem x509CheckSignature_eq_true {hashes : X509Crypto} {issuer : X509Certificate} {oid : List Nat}
    {signValue signedData : Bytes} :
    x509CheckSignature hashes.internal issuer oid signValue signedData = true ↔
      (oid.take 6 = [1, 2, 840, 113549, 1, 1] ∧ oid.length = 7) ∧ ∃ key data hash,
        cryptoRsaImportPublicKey issuer.publicKey = some key ∧ pkcs1DecryptPublicKey key signValue = some data ∧
        hashes.hash (oid.getD 6 0) signedData = some hash ∧
        digestInfoDigest (fun o => x509DigestSignature o = some (oid.getD 6 0)) data = some hash := by
  unfold x509CheckSignature
  by_cases hoid : oid.take 6 = [1, 2, 840, 113549, 1, 1] ∧ oid.length = 7
  swap
  · rw [if_pos hoid]
    simp [hoid]
  rw [if_neg (not_not.mpr hoid)]
  dsimp only
  generalize oid.getD 6 0 = alg
  have hhash : hashes.internal.hash alg signedData = hashes.hash alg signedData := rfl
  have hdecrypt : hashes.internal.decryptPkcs1 issuer.publicKey signValue =
      (cryptoRsaImportPublicKey issuer.publicKey).bind fun key => pkcs1DecryptPublicKey key signValue := rfl
  simp only [hhash, hdecrypt, x509DigestInfo_eq]
  cases cryptoRsaImportPublicKey issuer.publicKey with
  | none => simp
  | some key =>
    cases hplain : pkcs1DecryptPublicKey key signValue with
    | none => simp [hplain]
    | some data =>
      cases hdigest : digestInfoDigest (fun o => x509DigestSignature o = some alg) data with
      | none => simp [hplain, hdigest]
      | some digest =>
        cases hashes.hash alg signedData with
        | none => simp [hplain, hdigest]
        | some hash => simp [hplain, hdigest, hoid]

/-- A signature that is accepted is a block of a signer, if and only if the block has all that is not asked. For
`pkcs1_v15_sig_ver()` the digest and the hash are given, for `x509_check_signature()` they are those of the
signature algorithm. -/
theorem rsaSignature_format_iff (pk : CryptoRsaKey) (s : Bytes) (hashAlg : List Nat) (hash : Bytes)
    (hashes : X509Crypto) (issuer : X509Certificate) (oid : List Nat) (signValue signedData : Bytes) :
    ((pkcs1V15SigVer pk s hashAlg hash = true →
        ∃ block, cryptoRsaExptmod s s.length pk = some block ∧ StrictBlock hashAlg hash block) ↔
      ∀ block, cryptoRsaExptmod s s.length pk = some block → NothingLoose (· = hashAlg) hashAlg hash block) ∧
    ((x509CheckSignature hashes.internal issuer oid signValue signedData = true →
        ∃ key block hash, cryptoRsaImportPublicKey issuer.publicKey = some key ∧
          cryptoRsaExptmod signValue signValue.length key = some block ∧
          hashes.hash (oid.getD 6 0) signedData = some hash ∧
          StrictBlock (signatureDigestOid (oid.getD 6 0)) hash block) ↔
      (oid.take 6 = [1, 2, 840, 113549, 1, 1] ∧ oid.length = 7 → ∀ key block hash,
        cryptoRsaImportPublicKey issuer.publicKey = some key →
        cryptoRsaExptmod signValue signValue.length key = some block →
        hashes.hash (oid.getD 6 0) signedData = some hash →
        NothingLoose (fun o => x509DigestSignature o = some (oid.getD 6 0)) (signatureDigestOid (oid.getD 6 0))
          hash block)) := by
  constructor
  · constructor
    · intro h block hblock
      refine strict_iff_nothingLoose.mp ?_
      rintro ⟨data, hstrip, hdigest⟩
      obtain ⟨block', hblock', hstrict⟩ := h (pkcs1V15SigVer_eq_true.mpr
        ⟨data, pkcs1DecryptPublicKey_eq_some.mpr ⟨block, hblock, hstrip⟩, hdigest⟩)
      rw [hblock] at hblock'
      cases hblock'
      exact hstrict
    · intro h haccept
      obtain ⟨data, hplain, hdigest⟩ := pkcs1V15SigVer_eq_true.mp haccept
      obtain ⟨block, hblock, hstrip⟩ := pkcs1DecryptPublicKey_eq_some.mp hplain
      exact ⟨block, hblock, strict_iff_nothingLoose.mpr (h block hblock) ⟨data, hstrip, hdigest⟩⟩
  · constructor
    · intro h hoid key block hash hkey hblock hhash
      refine strict_iff_nothingLoose.mp ?_
      rintro ⟨data, hstrip, hdigest⟩
      obtain ⟨key', block', hash', hkey', hblock', hhash', hstrict⟩ := h (x509CheckSignature_eq_true.mpr
        ⟨hoid, key, data, hash, hkey, pkcs1DecryptPublicKey_eq_some.mpr ⟨block, hblock, hstrip⟩, hhash,
          hdigest⟩)
      rw [hkey] at hkey'
      cases hkey'
      rw [hblock] at hblock'
      cases hblock'
      rw [hhash] at hhash'
      cases hhash'
      exact hstrict
    · intro h haccept
      obtain ⟨hoid, key, data, hash, hkey, hplain, hhash, hdigest⟩ := x509CheckSignature_eq_true.mp haccept
      obtain ⟨block, hblock, hstrip⟩ := pkcs1DecryptPublicKey_eq_some.mp hplain
      exact ⟨key, block, hash, hkey, hblock, hhash,
        strict_iff_nothingLoose.mpr (h hoid key block hash hkey hblock hhash) ⟨data, hstrip, hdigest⟩⟩

/-! ## A number that is a signature of any key

The cube of `forgedNumber` starts and ends as a block has to, and the octets between are parameters. It is less
than the modulus, so that the primes play no part. -/

def forgedNumber : Nat :=
  0x32cbfd4a7adc7905583d78e7a2566de148ef6b173a1dee18683c8d44ec9d59905414874ca3d7612dbb2e7dce19

def forgedKey : CryptoRsaKey where
  n := 0xb5691a776980698f1b5baa7af7ffaec30dee9788dcaddd746bcdf4276b6c3f7d10b4733d41c41bd9256abd * 256 ^ 93 +
    0x9c8321495d95770eb77889465205d9a8e2fed88becd11d97960f4a058b5ccb958e2ef2cbfacca7080007a42dd5 * 256 ^ 48 +
    0xd306c202db3d9055bf6c5f96d677f9f49c65c3f1b96aa8c9d38cd444cb0591d10ba604b292b09703be70ceb35aa11b75
  e := 3

def forgedHash : Bytes :=
  [0xda, 0x39, 0xa3, 0xee, 0x5e, 0x6b, 0x4b, 0x0d, 0x32, 0x55, 0xbf, 0xef, 0x95, 0x60, 0x18, 0x90, 0xaf, 0xd8,
    0x07, 0x09]

def forgedBlock : Bytes := natBe 136 (forgedNumber ^ 3)

/-- The pieces of the block: ninety octets in front of the digest are an OCTET STRING of parameters. -/
def forgedParts : DigestInfoParts where
  infoHdr := [0x30, 0x7b]
  algHdr := [0x30, 0x63]
  oidHdr := [0x06, 0x05]
  oid := [0x2b, 0x0e, 0x03, 0x02, 0x1a]
  params := slice forgedBlock 22 92
  digestHdr := [0x04, 0x14]
  digest := forgedHash

theorem forgedParts_lax : forgedParts.Lax (· = [1, 3, 14, 3, 2, 26]) where
  infoHdr := ⟨0x7b, by decide +kernel⟩
  algHdr := by decide +kernel
  oidHdr := by decide +kernel
  oid_ne_nil := by decide
  accepted := ⟨[1, 3, 14, 3, 2, 26], by decide +kernel⟩
  digestHdr := by decide +kernel

theorem pkcs1V15SigVer_forged : ¬ ∀ (pk : CryptoRsaKey) (s : Bytes) (hashAlg : List Nat) (hash : Bytes),
    pkcs1V15SigVer pk s hashAlg hash = true →
      ∃ block, cryptoRsaExptmod s s.length pk = some block ∧ StrictBlock hashAlg hash block := by
  intro h
  obtain ⟨block, hblock, hstrict⟩ := h forgedKey (natBe 136 forgedNumber) [1, 3, 14, 3, 2, 26] forgedHash
    (by decide +kernel)
  have hrecovered : cryptoRsaExptmod (natBe 136 forgedNumber) (natBe 136 forgedNumber).length forgedKey =
      some forgedBlock := by decide +kernel
  rw [hrecovered] at hblock
  rw [← Option.some_inj.mp hblock] at hstrict
  -- what is read from it has parameters that no signer writes
  have hloose : NothingLoose (· = [1, 3, 14, 3, 2, 26]) [1, 3, 14, 3, 2, 26] forgedHash forgedBlock :=
    strict_iff_nothingLoose.mp fun _ => hstrict
  have htight := hloose 8 forgedParts (by decide) (by decide +kernel) (by decide +kernel) rfl forgedParts_lax
  exact absurd htight.params (by decide +kernel)

end Hostap
