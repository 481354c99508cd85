import Hostap.Tls.Asn1Header
import Hostap.Tls.X509

/-!
# RSA signatures

The public key operation (`tls/rsa.c`), the padding that is taken off what it recovers and the DigestInfo behind
it (`tls/pkcs1.c`), with which `pkcs1_v15_sig_ver()` and `x509_check_signature()` check a signature.

`StrictBlock` is the block that a signer makes. The code reads more than that: `DigestInfoParts` are the pieces
of what it reads, and `Lax` is what it asks of them. The parameters of the algorithm are skipped, whatever they
are. That the first SEQUENCE ends with the block is not asked, and a header or an OID need not be in the
shortest form. `Tight` is what is left to ask.
-/

namespace Hostap

open Octets Der List

/-! ## The public key operation -/

/-- `struct crypto_rsa_key`, a public one. -/
structure CryptoRsaKey where
  n : Nat
  e : Nat
deriving DecidableEq

/-- `crypto_rsa_parse_integer()`: the number and what follows. -/
def cryptoRsaParseInteger (pos : Bytes) (len : Nat) : Option (Nat × Bytes) :=
  (asn1GetUniversal 2 pos len).map fun hdr => (beNat hdr.content, hdr.next)

/-- `crypto_rsa_import_public_key()`. -/
def cryptoRsaImportPublicKey (buf : Bytes) : Option CryptoRsaKey :=
  match asn1GetUniversal 16 buf buf.length with
  | none => none
  | some hdr =>
    let left (pos : Bytes) := hdr.length - (hdr.payload.length - pos.length)
    match cryptoRsaParseInteger hdr.payload hdr.length with
    | none => none
    | some (n, pos) =>
      match cryptoRsaParseInteger pos (left pos) with
      | none => none
      | some (e, pos) => if left pos ≠ 0 then none else some { n, e }

/-- `crypto_rsa_exptmod()` with a public key. The output has as many octets as the modulus. -/
def cryptoRsaExptmod (input : Bytes) (outlen : Nat) (key : CryptoRsaKey) : Option Bytes :=
  let tmp := beNat input
  -- a number above the modulus is too large, the modulus itself is not
  if key.n < tmp then none
  else if outlen < numBytes key.n then none
  else some (natBe (numBytes key.n) (tmp ^ key.e % key.n))

/-- The end of `pkcs1_decrypt_public_key()`: what is behind the padding. -/
def pkcs1StripPadding (plain : Bytes) : Option Bytes :=
  if plain.length < 3 + 8 + 16 ∨ plain.getD 0 0 ≠ 0 ∨ plain.getD 1 0 ≠ 1 then none
  else if plain.getD 2 0 ≠ 0xff then none
  else
    let pos := 3 + ((plain.drop 3).takeWhile (· = 0xff)).length
    if pos - 2 < 8 then none
    else if plain.length ≤ pos + 16 ∨ plain.getD pos 0 ≠ 0 then none
    else some (plain.drop (pos + 1))

/-- `pkcs1_decrypt_public_key()`. -/
def pkcs1DecryptPublicKey (key : CryptoRsaKey) (crypt : Bytes) : Option Bytes :=
  match cryptoRsaExptmod crypt crypt.length key with
  | none => none
  | some plain => pkcs1StripPadding plain

/-! ## The DigestInfo -/

/-- The digest in a DigestInfo whose algorithm is accepted, and nothing after it. -/
def digestInfoDigest (accept : List Nat → Bool) (data : Bytes) : Option Bytes :=
  match asn1GetUniversal 16 data data.length with
  | none => none
  | some info =>
    match asn1GetUniversal 16 info.payload info.length with
    | none => none
    | some algorithm =>
      match asn1GetOid algorithm.payload algorithm.length with
      | none => none
      | some (oid, _) =>
        if ¬ accept oid then none
        else
          -- what is between the OID and the end of the algorithm is not looked at
          match asn1GetUniversal 4 algorithm.next algorithm.next.length with
          | none => none
          | some digest => if digest.next ≠ [] then none else some digest.content

/-- `pkcs1_v15_sig_ver()`. -/
def pkcs1V15SigVer (pk : CryptoRsaKey) (s : Bytes) (hashAlg : List Nat) (hash : Bytes) : Bool :=
  match pkcs1DecryptPublicKey pk s with
  | none => false
  | some decrypted =>
    match digestInfoDigest (· = hashAlg) decrypted with
    | none => false
    | some digest => digest = hash

/-- The RSA of `crypto_internal-rsa.c` with hashes. -/
def X509Crypto.internal (hashes : X509Crypto) : X509Crypto :=
  { hashes with decryptPkcs1 := fun publicKey signValue =>
      (cryptoRsaImportPublicKey publicKey).bind fun key => pkcs1DecryptPublicKey key signValue }

theorem x509DigestInfo_eq (alg : Nat) (data : Bytes) :
    x509DigestInfo alg data = digestInfoDigest (fun oid => x509DigestSignature oid = some alg) data := by
  unfold x509DigestInfo digestInfoDigest
  cases asn1GetUniversal 16 data data.length with
  | none => rfl
  | some info =>
    dsimp only
    cases asn1GetUniversal 16 info.payload info.length with
    | none => rfl
    | some algorithm =>
      dsimp only
      cases asn1GetOid algorithm.payload algorithm.length with
      | none => rfl
      | some oid =>
        cases asn1GetUniversal 4 algorithm.next algorithm.next.length with
        | none => by_cases hoid : x509DigestSignature oid.1 = some alg <;> simp [hoid]
        | some digest => by_cases hoid : x509DigestSignature oid.1 = some alg <;> simp [hoid]

/-! ## The block of a signer -/

/-- The octets of a DigestInfo. -/
inductive DigestInfoDer (alg : List Nat) (hash : Bytes) : Bytes → Prop
  | mk {oid params algorithm digest info : Bytes} (hoid : Element 0x06 (Der.oid alg) oid)
      (hparams : params = [] ∨ params = [0x05, 0x00]) (halgorithm : Element 0x30 (oid ++ params) algorithm)
      (hdigest : Element 0x04 hash digest) (hinfo : Element 0x30 (algorithm ++ digest) info) :
      DigestInfoDer alg hash info

/-- Padding of `k` octets and what is behind it. -/
def paddedBlock (k : Nat) (data : Bytes) : Bytes := 0x00 :: 0x01 :: (List.replicate k 0xff ++ 0x00 :: data)

/-- The block of a signature. -/
inductive StrictBlock (alg : List Nat) (hash : Bytes) : Bytes → Prop
  | mk {k : Nat} {info : Bytes} (hk : 8 ≤ k) (hinfo : DigestInfoDer alg hash info) :
      StrictBlock alg hash (paddedBlock k info)

/-! ## What the code reads -/

/-- The pieces of a DigestInfo. -/
structure DigestInfoParts where
  infoHdr : Bytes
  algHdr : Bytes
  oidHdr : Bytes
  oid : Bytes
  params : Bytes
  digestHdr : Bytes
  digest : Bytes
deriving DecidableEq

namespace DigestInfoParts

def algContent (p : DigestInfoParts) : Bytes := p.oidHdr ++ (p.oid ++ p.params)

def octets (p : DigestInfoParts) : Bytes :=
  p.infoHdr ++ (p.algHdr ++ (p.algContent ++ (p.digestHdr ++ p.digest)))

/-- What the code asks of the pieces: the first SEQUENCE ends with the algorithm or behind it. -/
structure Lax (accept : List Nat → Bool) (p : DigestInfoParts) : Prop where
  infoHdr : ∃ n, IsHeader 0 16 n p.infoHdr ∧ p.algHdr.length + p.algContent.length ≤ n ∧
    n ≤ p.algHdr.length + p.algContent.length + (p.digestHdr.length + p.digest.length)
  algHdr : IsHeader 0 16 p.algContent.length p.algHdr
  oidHdr : IsHeader 0 6 p.oid.length p.oidHdr
  oid_ne_nil : p.oid ≠ []
  accepted : ∃ oid, asn1ParseOid p.oid = some oid ∧ accept oid
  digestHdr : IsHeader 0 4 p.digest.length p.digestHdr

/-- What it does not ask. -/
structure Tight (alg : List Nat) (p : DigestInfoParts) : Prop where
  infoHdr : Header 0x30 (p.algHdr.length + p.algContent.length + (p.digestHdr.length + p.digest.length))
    p.infoHdr
  algHdr : Header 0x30 p.algContent.length p.algHdr
  oidHdr : Header 0x06 p.oid.length p.oidHdr
  oid : p.oid = Der.oid alg
  params : p.params = [] ∨ p.params = [0x05, 0x00]
  digestHdr : Header 0x04 p.digest.length p.digestHdr

end DigestInfoParts

/-! ## The padding -/

theorem takeWhile_run {c : UInt8} (hc : c ≠ 0xff) (k : Nat) (rest : Bytes) :
    (List.replicate k 0xff ++ c :: rest).takeWhile (· = 0xff) = List.replicate k 0xff := by
  induction k with
  | zero => exact takeWhile_cons_of_neg (by simpa using hc)
  | succ k ih =>
    rw [replicate_succ, cons_append, takeWhile_cons_of_pos (by decide), ih]

theorem run_append_drop (rest : Bytes) :
    rest = List.replicate (rest.takeWhile (· = 0xff)).length 0xff ++
      rest.drop (rest.takeWhile (· = 0xff)).length := by
  induction rest with
  | nil => rfl
  | cons c rest ih =>
    by_cases hc : c = 0xff
    · rw [takeWhile_cons_of_pos (by simpa using hc), length_cons, replicate_succ,
        cons_append, drop_succ_cons, ← ih, hc]
    · rw [takeWhile_cons_of_neg (by simpa using hc)]
      rfl

theorem pkcs1StripPadding_paddedBlock {k : Nat} {data : Bytes} (hk : 8 ≤ k) (hdata : 16 ≤ data.length) :
    pkcs1StripPadding (paddedBlock k data) = some data := by
  obtain ⟨j, rfl⟩ : ∃ j, k = j + 1 := ⟨k - 1, by omega⟩
  have hrun : ((paddedBlock (j + 1) data).drop 3).takeWhile (· = 0xff) = List.replicate j 0xff :=
    takeWhile_run (by decide) j data
  have hlen : (paddedBlock (j + 1) data).length = 3 + j + 1 + data.length := by
    simp [paddedBlock]
    omega
  have hzero : (paddedBlock (j + 1) data).getD (3 + j) 0 = 0 := by
    rw [Nat.add_comm 3 j]
    show (List.replicate j (0xff : UInt8) ++ 0 :: data).getD j 0 = 0
    rw [getD_eq_getElem?_getD, getElem?_append_right (by simp)]
    simp
  have hdrop : (paddedBlock (j + 1) data).drop (3 + j + 1) = data := by
    rw [show 3 + j + 1 = (j + 1) + 3 by omega]
    show (List.replicate j (0xff : UInt8) ++ 0 :: data).drop (j + 1) = data
    rw [← singleton_append, ← append_assoc]
    exact drop_left' (by simp)
  unfold pkcs1StripPadding
  rw [hrun, length_replicate]
  dsimp only
  rw [hzero, hdrop, if_neg, if_neg, if_neg, if_neg]
  · rw [hlen]
    simp
    omega
  · omega
  · show ¬ (0xff : UInt8) ≠ 0xff
    decide
  · rw [hlen]
    show ¬ (_ ∨ (0 : UInt8) ≠ 0 ∨ (1 : UInt8) ≠ 1)
    simp
    omega

theorem pkcs1StripPadding_iff {plain data : Bytes} : pkcs1StripPadding plain = some data ↔
    ∃ k, 8 ≤ k ∧ 16 ≤ data.length ∧ plain = paddedBlock k data := by
  constructor
  · intro h
    unfold pkcs1StripPadding at h
    by_cases hhead : plain.length < 3 + 8 + 16 ∨ plain.getD 0 0 ≠ 0 ∨ plain.getD 1 0 ≠ 1
    · rw [if_pos hhead] at h
      cases h
    by_cases hps : plain.getD 2 0 ≠ 0xff
    · rw [if_neg hhead, if_pos hps] at h
      cases h
    rw [if_neg hhead, if_neg hps] at h
    push Not at hhead hps
    obtain ⟨hlen, h0, h1⟩ := hhead
    match plain, hlen, h0, h1, hps, h with
    | a :: b :: c :: rest, hlen, h0, h1, hps, h =>
      obtain rfl : a = 0 := h0
      obtain rfl : b = 1 := h1
      obtain rfl : c = 0xff := hps
      have hsplit := run_append_drop rest
      rw [show (List.drop 3 (0 :: 1 :: 0xff :: rest)) = rest from rfl] at h
      generalize (rest.takeWhile (· = 0xff)).length = t at h hsplit
      by_cases hshort : 3 + t - 2 < 8
      · rw [if_pos hshort] at h
        cases h
      by_cases hend : (0 :: 1 :: 0xff :: rest).length ≤ 3 + t + 16 ∨ (0 :: 1 :: 0xff :: rest).getD (3 + t) 0 ≠ 0
      · rw [if_neg hshort, if_pos hend] at h
        cases h
      rw [if_neg hshort, if_neg hend, Option.some_inj] at h
      push Not at hend
      obtain ⟨hroom, hzero⟩ := hend
      rw [length_cons, length_cons, length_cons] at hroom
      rw [Nat.add_comm 3 t] at hzero h
      have hzero : rest.getD t 0 = 0 := hzero
      have hdata : rest.drop (t + 1) = data := h
      have hroom : t < rest.length := by omega
      rw [getD_eq_getElem?_getD, getElem?_eq_getElem hroom] at hzero
      have hcons : rest.drop t = 0 :: data := by
        rw [drop_eq_getElem_cons hroom, hdata]
        exact congrArg (· :: data) hzero
      refine ⟨t + 1, by omega, ?_, ?_⟩
      · rw [← hdata, length_drop]
        omega
      · rw [hcons] at hsplit
        rw [hsplit]
        rfl
  · rintro ⟨k, hk, hdata, rfl⟩
    exact pkcs1StripPadding_paddedBlock hk hdata

theorem paddedBlock_unique {k k' : Nat} {data data' : Bytes} (h : paddedBlock k data = paddedBlock k' data') :
    data = data' := by
  unfold paddedBlock at h
  have hrest := tail_eq_of_cons_eq (tail_eq_of_cons_eq h)
  have hrun := takeWhile_run (c := 0) (by decide) k data
  rw [hrest, takeWhile_run (by decide)] at hrun
  rw [hrun] at hrest
  exact tail_eq_of_cons_eq (append_cancel_left hrest)

/-! ## What is read is what is asked -/

theorem asn1GetOid_iff {pos rest : Bytes} {len : Nat} {oid : List Nat} : asn1GetOid pos len = some (oid, rest) ↔
    ∃ hdr, asn1GetUniversal 6 pos len = some hdr ∧ hdr.length ≠ 0 ∧ asn1ParseOid hdr.content = some oid ∧
      hdr.next = rest := by
  unfold asn1GetOid
  cases hhdr : asn1GetUniversal 6 pos len with
  | none => simp
  | some hdr =>
    by_cases hzero : hdr.length = 0
    · simp [hzero]
    · simp [hzero, Option.map_eq_some_iff]

theorem digestInfoDigest_elements {accept : List Nat → Bool} {data digest : Bytes} :
    digestInfoDigest accept data = some digest ↔ ∃ info algorithm oidHdr digestHdr oid,
      asn1GetUniversal 16 data data.length = some info ∧
      asn1GetUniversal 16 info.payload info.length = some algorithm ∧
      asn1GetUniversal 6 algorithm.payload algorithm.length = some oidHdr ∧ oidHdr.length ≠ 0 ∧
      asn1ParseOid oidHdr.content = some oid ∧ accept oid ∧
      asn1GetUniversal 4 algorithm.next algorithm.next.length = some digestHdr ∧ digestHdr.next = [] ∧
      digestHdr.content = digest := by
  unfold digestInfoDigest
  constructor
  · intro h
    cases hinfo : asn1GetUniversal 16 data data.length with
    | none => rw [hinfo] at h; cases h
    | some info =>
    rw [hinfo] at h
    cases halgorithm : asn1GetUniversal 16 info.payload info.length with
    | none => simp only [halgorithm] at h; cases h
    | some algorithm =>
    simp only [halgorithm] at h
    cases hgot : asn1GetOid algorithm.payload algorithm.length with
    | none => rw [hgot] at h; cases h
    | some found =>
    obtain ⟨oid, next⟩ := found
    rw [hgot] at h
    dsimp only at h
    by_cases haccept : accept oid
    · rw [if_neg (not_not.mpr haccept)] at h
      cases hdigest : asn1GetUniversal 4 algorithm.next algorithm.next.length with
      | none => rw [hdigest] at h; cases h
      | some digestHdr =>
      rw [hdigest] at h
      dsimp only at h
      by_cases hnext : digestHdr.next = []
      · rw [if_neg (not_not.mpr hnext), Option.some_inj] at h
        obtain ⟨oidHdr, hoid, hlen, hparse, _⟩ := asn1GetOid_iff.mp hgot
        exact ⟨info, algorithm, oidHdr, digestHdr, oid, rfl, halgorithm, hoid, hlen, hparse, haccept, hdigest,
          hnext, h⟩
      · rw [if_pos hnext] at h
        cases h
    · rw [if_pos haccept] at h
      cases h
  · rintro ⟨info, algorithm, oidHdr, digestHdr, oid, hinfo, halgorithm, hoid, hlen, hparse, haccept, hdigest,
      hnext, rfl⟩
    have hgot := asn1GetOid_iff.mpr ⟨oidHdr, hoid, hlen, hparse, rfl⟩
    simp only [hinfo, halgorithm, hgot, hdigest]
    rw [if_neg (not_not.mpr haccept), if_neg (not_not.mpr hnext)]

theorem parts_of_digestInfoDigest {accept : List Nat → Bool} {data digest : Bytes}
    (h : digestInfoDigest accept data = some digest) :
    ∃ p : DigestInfoParts, p.octets = data ∧ p.digest = digest ∧ p.Lax accept := by
  obtain ⟨info, algorithm, oidHdr, digestHdr, oid, hinfo, halgorithm, hoid, hlen, hparse, haccept, hdigest,
    hnext, rfl⟩ := digestInfoDigest_elements.mp h
  obtain ⟨infoHdr, hih, hdata, hin, hipay, _, _⟩ := asn1GetUniversal_iff.mp hinfo
  obtain ⟨algHdr, hah, hpay, han, hapay, _, _⟩ := asn1GetUniversal_iff.mp halgorithm
  obtain ⟨oidH, hoh, hapayload, hon, hopay, _, _⟩ := asn1GetUniversal_iff.mp hoid
  obtain ⟨digH, hdh, hanext, hdn, hdpay, _, _⟩ := asn1GetUniversal_iff.mp hdigest
  -- the algorithm is the header of the OID, the OID and what is left
  have hcontent : algorithm.content =
      oidH ++ (oidHdr.content ++ algorithm.content.drop (oidH.length + oidHdr.length)) := by
    have htake : algorithm.content.take (oidH.length + oidHdr.length) = oidH ++ oidHdr.content := by
      unfold Asn1Hdr.content
      rw [take_take, Nat.min_eq_left hon, hapayload, take_append, take_of_length_le (by omega),
        Nat.add_sub_cancel_left]
    rw [← append_assoc, ← htake, take_append_drop]
  have hdigestLen : digestHdr.content.length = digestHdr.length := length_take_of_le hdpay
  have hwhole : digestHdr.payload = digestHdr.content := by
    have hsplit := take_append_drop digestHdr.length digestHdr.payload
    rw [show digestHdr.payload.drop digestHdr.length = [] from hnext, append_nil] at hsplit
    exact hsplit.symm
  have halgLen : algorithm.content.length = algorithm.length := length_take_of_le hapay
  have hoidLen : oidHdr.content.length = oidHdr.length := length_take_of_le hopay
  have hsplit : algorithm.payload = algorithm.content ++ (digH ++ digestHdr.content) := by
    rw [← hwhole, ← hanext]
    exact (take_append_drop _ _).symm
  let p : DigestInfoParts := ⟨infoHdr, algHdr, oidH, oidHdr.content,
    algorithm.content.drop (oidH.length + oidHdr.length), digH, digestHdr.content⟩
  have hp : p.algContent = algorithm.content := hcontent.symm
  refine ⟨p, ?_, rfl, ?_⟩
  · show infoHdr ++ (algHdr ++ (p.algContent ++ (digH ++ digestHdr.content))) = data
    rw [hp, ← hsplit, ← hpay, ← hdata]
  · have hpayLen := congrArg List.length hpay
    rw [hsplit, length_append, length_append, length_append] at hpayLen
    refine ⟨⟨info.length, hih, ?_, ?_⟩, ?_, ?_, ?_, ⟨oid, hparse, haccept⟩, ?_⟩
    · rw [hp, halgLen]
      exact han
    · rw [hp]
      show _ ≤ algHdr.length + _ + (digH.length + digestHdr.content.length)
      omega
    · rw [hp, halgLen]
      exact hah
    · show IsHeader 0 6 oidHdr.content.length oidH
      rw [hoidLen]
      exact hoh
    · intro hnil
      exact hlen (by rw [← hoidLen, show oidHdr.content = [] from hnil]; rfl)
    · show IsHeader 0 4 digestHdr.content.length digH
      rw [hdigestLen]
      exact hdh

theorem DigestInfoParts.Lax.found {accept : List Nat → Bool} {p : DigestInfoParts} (h : p.Lax accept) :
    digestInfoDigest accept p.octets = some p.digest := by
  obtain ⟨n, hinfo, hfrom, hto⟩ := h.infoHdr
  obtain ⟨oid, hparse, haccept⟩ := h.accepted
  let tail := p.digestHdr ++ p.digest
  let algorithm : Asn1Hdr := ⟨0, 16, p.algContent.length, p.algContent ++ tail⟩
  let oidHdr : Asn1Hdr := ⟨0, 6, p.oid.length, p.oid ++ (p.params ++ tail)⟩
  have htail : tail.length = p.digestHdr.length + p.digest.length := length_append
  have hoid : oidHdr.content = p.oid := take_left' rfl
  have hnext : algorithm.next = tail := drop_left' rfl
  refine digestInfoDigest_elements.mpr ⟨⟨0, 16, n, p.algHdr ++ algorithm.payload⟩, algorithm, oidHdr,
    ⟨0, 4, p.digest.length, p.digest⟩, oid, ?_, ?_, ?_, ?_, ?_, haccept, ?_, ?_, ?_⟩
  · refine asn1GetUniversal_iff.mpr ⟨p.infoHdr, hinfo, rfl, ?_, ?_, rfl, rfl⟩
    · show p.infoHdr.length + n ≤ (p.infoHdr ++ (p.algHdr ++ (p.algContent ++ tail))).length
      rw [length_append, length_append, length_append]
      omega
    · show n ≤ (p.algHdr ++ (p.algContent ++ tail)).length
      rw [length_append, length_append]
      omega
  · refine asn1GetUniversal_iff.mpr ⟨p.algHdr, h.algHdr, rfl, hfrom, ?_, rfl, rfl⟩
    show _ ≤ (p.algContent ++ tail).length
    rw [length_append]
    exact Nat.le_add_right _ _
  · refine asn1GetUniversal_iff.mpr ⟨p.oidHdr, h.oidHdr, ?_, ?_, ?_, rfl, rfl⟩
    · show (p.oidHdr ++ (p.oid ++ p.params)) ++ tail = p.oidHdr ++ (p.oid ++ (p.params ++ tail))
      rw [append_assoc, append_assoc]
    · show p.oidHdr.length + p.oid.length ≤ (p.oidHdr ++ (p.oid ++ p.params)).length
      rw [length_append, length_append]
      omega
    · show p.oid.length ≤ (p.oid ++ (p.params ++ tail)).length
      rw [length_append]
      exact Nat.le_add_right _ _
  · exact fun hzero => h.oid_ne_nil (length_eq_zero_iff.mp hzero)
  · rw [hoid]
    exact hparse
  · rw [hnext]
    exact asn1GetUniversal_iff.mpr ⟨p.digestHdr, h.digestHdr, rfl, htail.ge, le_refl _, rfl, rfl⟩
  · exact drop_length
  · exact take_length

theorem digestInfoDigest_iff {accept : List Nat → Bool} {data digest : Bytes} :
    digestInfoDigest accept data = some digest ↔
      ∃ p : DigestInfoParts, p.octets = data ∧ p.digest = digest ∧ p.Lax accept := by
  constructor
  · exact parts_of_digestInfoDigest
  · rintro ⟨p, rfl, rfl, hlax⟩
    exact hlax.found

end Hostap
