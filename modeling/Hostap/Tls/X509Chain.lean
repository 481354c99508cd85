import Hostap.Lib.Except
import Hostap.Tls.X509

/-!
# What a valid chain is

`X509ChainValid` says of a position in a chain that the certificates up to it are issued one by the next and
that the last of them is issued by a trusted certificate. `x509_certificate_chain_validate()` accepts a chain
only with such a position. The loop is followed from any index on, since the path length is compared
with the index.

What an issuer within the chain is, is a parameter. With BasicConstraints asked of every one of them the
statement is not true: a certificate of version 1 has none.
-/

namespace Hostap

open Octets

/-! ## Parsed certificates -/

/-- A certificate without any of the extensions that are looked at. -/
structure X509Certificate.Plain (cert : X509Certificate) : Prop where
  basicConstraints : cert.basicConstraintsPresent = false
  pathLenConstraint : cert.pathLenConstraintPresent = false
  keyUsage : cert.keyUsagePresent = false

/-- A certificate as `x509_certificate_parse()` makes it. Times are not before 1970, and there are extensions in
version 3 only. -/
structure X509Certificate.Parsed (cert : X509Certificate) : Prop where
  notBefore : 0 ≤ cert.notBefore ∧ cert.notBefore < 2 ^ 63
  notAfter : 0 ≤ cert.notAfter ∧ cert.notAfter < 2 ^ 63
  extensions : cert.Plain ∨ cert.version = .v3 ∧ ∃ other pos len base, X509Certificate.Plain base ∧
    x509ParseExtensions other pos len base = some cert

/-- A time that fits in `os_time_t`. -/
def OsTime (t : Int) : Prop := -2 ^ 63 ≤ t ∧ t < 2 ^ 63

theorem toUnsignedLong_of_nonneg {t : Int} (h : 0 ≤ t) (hlt : t < 2 ^ 63) : (toUnsignedLong t : Int) = t := by
  unfold toUnsignedLong
  omega

theorem period_of_unsigned {now : Int} {cert : X509Certificate} (hnow : OsTime now) (hcert : cert.Parsed)
    (hbefore : ¬ toUnsignedLong now < toUnsignedLong cert.notBefore)
    (hafter : ¬ toUnsignedLong cert.notAfter < toUnsignedLong now) :
    cert.notBefore ≤ now ∧ now ≤ cert.notAfter := by
  have hb := toUnsignedLong_of_nonneg hcert.notBefore.1 hcert.notBefore.2
  have ha := toUnsignedLong_of_nonneg hcert.notAfter.1 hcert.notAfter.2
  obtain ⟨hlow, hhigh⟩ := hnow
  have halt := hcert.notAfter.2
  unfold toUnsignedLong at *
  omega

/-! ## Issuers -/

section

variable (crypto : X509Crypto) (alloc : Bool)

/-- The names match and the signature verifies. -/
structure X509IssuedBy (cert issuer : X509Certificate) : Prop where
  name : x509NameCompare alloc cert.issuer issuer.subject = .eq
  signature : x509CertificateCheckSignature crypto issuer cert = true

def X509Certificate.CaByConstraints (cert : X509Certificate) : Prop :=
  cert.basicConstraintsPresent = true ∧ cert.ca ≠ 0

/-- The usage of the key, if it is given, is to sign certificates. -/
def X509Certificate.KeySigns (cert : X509Certificate) : Prop :=
  cert.keyUsagePresent = true → cert.keyUsage.testBit 5 = true

/-- From the certificate at `idx` on: the certificates up to the one at `k` are in their validity period and
issued one by the next, which is a CA and allows a path of that length, and the last of them is issued by a
trusted certificate. -/
structure X509ChainValid (isCa : X509Certificate → Prop) (trusted : List X509Certificate) (now : Int)
    (idx : Nat) (chain : List X509Certificate) (k : Nat) : Prop where
  lt : k < chain.length
  period : ∀ i cert, i ≤ k → chain[i]? = some cert → cert.notBefore ≤ now ∧ now ≤ cert.notAfter
  issued : ∀ i cert next, i < k → chain[i]? = some cert → chain[i + 1]? = some next →
    X509IssuedBy crypto alloc cert next ∧ isCa next ∧ next.KeySigns ∧
      (next.pathLenConstraintPresent = true → idx + i ≤ next.pathLenConstraint)
  anchor : ∀ cert, chain[k]? = some cert → ∃ trust ∈ trusted,
    X509IssuedBy crypto alloc cert trust ∧ x509ValidIssuer trust = true

end

/-- What an issuer in the chain is: without BasicConstraints it is a certificate that can have none. -/
def X509Certificate.Ca (cert : X509Certificate) : Prop :=
  cert.CaByConstraints ∨ cert.version ≠ .v3 ∧ cert.basicConstraintsPresent = false

theorem x509ValidIssuer_spec {cert : X509Certificate} (h : x509ValidIssuer cert = true) :
    cert.Ca ∧ cert.KeySigns := by
  unfold x509ValidIssuer at h
  split at h
  · cases h
  · rename_i hca
    split at h
    · cases h
    · rename_i hversion
      split at h
      · cases h
      · rename_i husage
        refine ⟨?_, fun hpresent => ?_⟩
        · cases hbasic : cert.basicConstraintsPresent with
          | true => exact .inl ⟨hbasic, fun hzero => hca ⟨hbasic, hzero⟩⟩
          | false =>
            refine .inr ⟨fun hv3 => hversion ⟨hv3, ?_⟩, hbasic⟩
            rw [hbasic]
            decide
        · by_contra hbit
          exact husage ⟨hpresent, hbit⟩

section Loop

variable {crypto : X509Crypto} {alloc : Bool} {trusted : List X509Certificate} {now : Int}
variable {cert next : X509Certificate} {idx : Nat}

theorem x509CheckNext_ok (h : x509CheckNext crypto alloc idx cert next = .ok ()) :
    X509IssuedBy crypto alloc cert next ∧ next.Ca ∧ next.KeySigns ∧
      (next.pathLenConstraintPresent = true → idx ≤ next.pathLenConstraint) := by
  unfold x509CheckNext at h
  split at h
  · cases h
  · rename_i hname
    split at h
    · cases h
    · rename_i hissuer
      split at h
      · cases h
      · rename_i hpath
        split at h
        · cases h
        · rename_i hsignature
          obtain ⟨hca, hsigns⟩ := x509ValidIssuer_spec (not_not.1 hissuer)
          refine ⟨⟨not_not.1 hname, not_not.1 hsignature⟩, hca, hsigns, fun hpresent => ?_⟩
          exact Nat.le_of_not_lt fun hlt => hpath ⟨hpresent, hlt⟩

theorem x509CheckTrusted_true (h : x509CheckTrusted crypto alloc trusted cert = .ok true) :
    ∃ trust ∈ trusted, X509IssuedBy crypto alloc cert trust ∧ x509ValidIssuer trust = true := by
  unfold x509CheckTrusted at h
  split at h
  · cases h
  · rename_i trust hfind
    split at h
    · cases h
    · rename_i hissuer
      split at h
      · cases h
      · rename_i hsignature
        have hname : x509NameCompare alloc cert.issuer trust.subject = .eq := by
          simpa using List.find?_some hfind
        exact ⟨trust, List.mem_of_find?_eq_some hfind, ⟨hname, not_not.1 hsignature⟩, not_not.1 hissuer⟩

theorem x509ChainLoop_cons {rest : List X509Certificate} {found : Option Nat}
    (h : x509ChainLoop crypto alloc trusted now false idx (cert :: rest) = .ok found) :
    ¬ toUnsignedLong now < toUnsignedLong cert.notBefore ∧ ¬ toUnsignedLong cert.notAfter < toUnsignedLong now ∧
    (∀ next tail, rest = next :: tail → x509CheckNext crypto alloc idx cert next = .ok ()) ∧
    (x509CheckTrusted crypto alloc trusted cert = .ok true ∧ found = some idx ∨
      x509ChainLoop crypto alloc trusted now false (idx + 1) rest = .ok found) := by
  unfold x509ChainLoop at h
  split at h
  · cases h
  · rename_i htime
    rw [not_and_or, not_or, not_not] at htime
    obtain ⟨hbefore, hafter⟩ := htime.resolve_left (by decide)
    refine ⟨hbefore, hafter, ?_⟩
    -- what is done with the answer of the search is the same with and without a next certificate
    have hsearch : ∀ {rest : List X509Certificate},
        (do
          if ← x509CheckTrusted crypto alloc trusted cert then
            return some idx
          x509ChainLoop crypto alloc trusted now false (idx + 1) rest) = .ok found →
        (x509CheckTrusted crypto alloc trusted cert = .ok true ∧ found = some idx ∨
          x509ChainLoop crypto alloc trusted now false (idx + 1) rest = .ok found) := by
      intro rest h
      obtain ⟨trustFound, htrusted, h⟩ := except_bind_ok h
      cases trustFound with
      | true =>
        cases h
        exact .inl ⟨htrusted, rfl⟩
      | false => exact .inr h
    cases rest with
    | nil => exact ⟨fun next tail hrest => absurd hrest (by intro h; cases h), hsearch h⟩
    | cons next rest =>
      obtain ⟨u, hnext, h⟩ := except_bind_ok h
      refine ⟨fun next tail hrest => ?_, hsearch h⟩
      cases hrest
      exact hnext

theorem x509ChainLoop_valid {chain : List X509Certificate} {k : Nat} (hnow : OsTime now)
    (hparsed : ∀ cert ∈ chain, X509Certificate.Parsed cert)
    (h : x509ChainLoop crypto alloc trusted now false idx chain = .ok (some k)) :
    ∃ j, k = idx + j ∧ X509ChainValid crypto alloc X509Certificate.Ca trusted now idx chain j := by
  induction chain generalizing idx with
  | nil =>
    cases h
  | cons cert rest ih =>
    obtain ⟨hbefore, hafter, hnext, hfound⟩ := x509ChainLoop_cons h
    have hperiod := period_of_unsigned hnow (hparsed cert List.mem_cons_self) hbefore hafter
    rcases hfound with ⟨htrusted, hk⟩ | hrest
    · cases hk
      refine ⟨0, rfl, Nat.succ_pos _, fun i c hi hc => ?_, fun i _ _ hi => absurd hi (Nat.not_lt_zero i),
        fun c hc => ?_⟩
      · obtain rfl := Nat.le_zero.1 hi
        cases hc
        exact hperiod
      · cases hc
        exact x509CheckTrusted_true htrusted
    · obtain ⟨j, hk, hvalid⟩ := ih (fun c hc => hparsed c (List.mem_cons_of_mem _ hc)) hrest
      refine ⟨j + 1, by omega, Nat.succ_lt_succ hvalid.lt, fun i c hi hc => ?_, fun i c n hi hc hn => ?_,
        fun c hc => hvalid.anchor c hc⟩
      · cases i with
        | zero =>
          cases hc
          exact hperiod
        | succ i => exact hvalid.period i c (Nat.le_of_succ_le_succ hi) hc
      · cases i with
        | zero =>
          cases hc
          cases hrestEq : rest with
          | nil =>
            rw [hrestEq] at hn
            cases hn
          | cons next tail =>
            rw [hrestEq] at hn
            cases hn
            exact x509CheckNext_ok (hnext _ tail hrestEq)
        | succ i =>
          obtain ⟨hissued, hca, hsigns, hpath⟩ := hvalid.issued i c n (Nat.lt_of_succ_lt_succ hi) hc hn
          refine ⟨hissued, hca, hsigns, fun hpresent => ?_⟩
          have := hpath hpresent
          omega

end Loop

/-- **A chain that is accepted is valid up to a position.** Each certificate up to it is in its validity
period and issued by the next one, which is a CA by its BasicConstraints or has none since it is not of
version 3, and the last one is issued by a trusted certificate. -/
theorem x509_chain_sound (crypto : X509Crypto) (alloc : Bool) (trusted chain : List X509Certificate) (now : Int)
    (hnow : OsTime now) (htrusted : trusted ≠ []) (hparsed : ∀ cert ∈ chain, X509Certificate.Parsed cert)
    (h : x509CertificateChainValidate crypto alloc trusted chain now false = .ok ()) :
    ∃ k, X509ChainValid crypto alloc X509Certificate.Ca trusted now 0 chain k := by
  obtain ⟨found, hloop, h⟩ := except_bind_ok h
  cases found with
  | none =>
    rw [if_pos ⟨rfl, htrusted⟩] at h
    cases h
  | some k =>
    obtain ⟨j, -, hvalid⟩ := x509ChainLoop_valid hnow hparsed hloop
    exact ⟨j, hvalid⟩

/-! ## A small chain -/

def smallX509Crypto : X509Crypto where
  decryptPkcs1 key sig := if sig.take key.length = key then some (sig.drop key.length) else none
  md5 data := (data ++ zeros 32).take 32
  sha1 data := (data ++ zeros 32).take 32
  sha256 data := (data ++ zeros 32).take 32
  sha384 data := (data ++ zeros 32).take 32
  sha512 data := (data ++ zeros 32).take 32

def smallDigestInfo (digest : Bytes) : Bytes :=
  [0x30, 0x31, 0x30, 0x0d, 0x06, 0x09, 0x60, 0x86, 0x48, 0x01, 0x65, 0x03, 0x04, 0x02, 0x01, 0x05, 0x00, 0x04,
    0x20] ++ digest

def smallCertificate (version : X509Version) (subject issuer : UInt8) : X509Certificate where
  version := version
  signatureOid := [1, 2, 840, 113549, 1, 1, 11]
  issuer := { attr := [(.cn, [issuer])] }
  subject := { attr := [(.cn, [subject])] }
  notBefore := 100
  notAfter := 200
  publicKey := [subject]
  signValue := issuer :: smallDigestInfo (smallX509Crypto.sha256 [subject])
  tbsCert := [subject]

def smallCaExtensions : Bytes :=
  [0x30, 0x14, 0x30, 0x12, 0x06, 0x03, 0x55, 0x1d, 0x13, 0x01, 0x01, 0xff, 0x04, 0x08, 0x30, 0x06, 0x01, 0x01,
    0xff, 0x02, 0x01, 0x00]

def smallCa (subject issuer : UInt8) : X509Certificate :=
  { smallCertificate .v3 subject issuer with
    basicConstraintsPresent := true, pathLenConstraintPresent := true, ca := 0xff }

theorem smallCertificate_parsed (version : X509Version) (subject issuer : UInt8) :
    (smallCertificate version subject issuer).Parsed where
  notBefore := show (0 : Int) ≤ 100 ∧ (100 : Int) < 2 ^ 63 by decide
  notAfter := show (0 : Int) ≤ 200 ∧ (200 : Int) < 2 ^ 63 by decide
  extensions := .inl ⟨rfl, rfl, rfl⟩

theorem smallCa_parsed : (smallCa 0x49 0x52).Parsed := by
  refine ⟨by constructor <;> decide, by constructor <;> decide, .inr ⟨rfl, ?_⟩⟩
  refine ⟨fun _ _ => true, smallCaExtensions, smallCaExtensions.length, smallCertificate .v3 0x49 0x52,
    ⟨rfl, rfl, rfl⟩, ?_⟩
  decide +kernel

theorem x509_chain_sound_small :
    ∃ k, X509ChainValid smallX509Crypto true X509Certificate.Ca [smallCa 0x52 0x52] 150 0
      [smallCertificate .v3 0x4c 0x49, smallCa 0x49 0x52] k := by
  refine x509_chain_sound smallX509Crypto true [smallCa 0x52 0x52]
    [smallCertificate .v3 0x4c 0x49, smallCa 0x49 0x52] 150 ⟨by decide, by decide⟩ (List.cons_ne_nil _ _) ?_
    (by decide +kernel)
  exact List.forall_mem_cons.2 ⟨smallCertificate_parsed .v3 0x4c 0x49,
    List.forall_mem_singleton.2 smallCa_parsed⟩

/-- An issuer of version 1 is accepted within the chain. It has no BasicConstraints. -/
theorem x509_chain_issuer_v1 :
    (∀ cert ∈ [smallCertificate .v3 0x4c 0x49, smallCertificate .v1 0x49 0x52], X509Certificate.Parsed cert) ∧
    x509CertificateChainValidate smallX509Crypto true [smallCa 0x52 0x52]
      [smallCertificate .v3 0x4c 0x49, smallCertificate .v1 0x49 0x52] 150 false = .ok () ∧
    ¬ ∃ k, X509ChainValid smallX509Crypto true X509Certificate.CaByConstraints [smallCa 0x52 0x52] 150 0
      [smallCertificate .v3 0x4c 0x49, smallCertificate .v1 0x49 0x52] k := by
  refine ⟨?_, by decide +kernel, ?_⟩
  · exact List.forall_mem_cons.2 ⟨smallCertificate_parsed .v3 0x4c 0x49,
      List.forall_mem_singleton.2 (smallCertificate_parsed .v1 0x49 0x52)⟩
  · rintro ⟨k, hvalid⟩
    cases k with
    | zero =>
      -- the issuer of the first certificate is not the trusted one
      obtain ⟨trust, htrust, hissued, -⟩ := hvalid.anchor _ rfl
      obtain rfl := List.mem_singleton.1 htrust
      exact absurd hissued.name (by decide)
    | succ k =>
      have hca := (hvalid.issued 0 _ _ (Nat.succ_pos k) rfl rfl).2.1
      exact absurd hca.1 (by decide)

end Hostap
