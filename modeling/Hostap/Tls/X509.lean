import Hostap.Tls.Asn1

/-!
# X.509 certificates

The parts of `tls/x509v3.c` that a chain is validated with: names and how they are compared, the extensions
that are looked at, the check of a signature, and `x509_certificate_chain_validate()`. A certificate has the
fields that these functions read. RSA and the hashes are outside.

A certificate of version 3 is an issuer only with BasicConstraints. One of version 1 or 2 has no extensions
and is an issuer without them.
-/

namespace Hostap

open Octets

/-! ## Names -/

/-- `enum x509_name_attr_type`. -/
inductive X509NameAttrType
  | notUsed
  | dc
  | cn
  | c
  | l
  | st
  | o
  | ou
deriving DecidableEq

def X509NameAttrType.num : X509NameAttrType → Nat
  | .notUsed => 0
  | .dc => 1
  | .cn => 2
  | .c => 3
  | .l => 4
  | .st => 5
  | .o => 6
  | .ou => 7

/-- `struct x509_name`, as far as names are compared. The values are strings without a zero. -/
structure X509Name where
  attr : List (X509NameAttrType × Bytes) := []
  email : Option Bytes := none
deriving DecidableEq

/-- `x509_whitespace()`. -/
def x509Whitespace (c : UInt8) : Bool := c = 0x20 ∨ c = 0x09

/-- The loop of `x509_str_strip_whitespace()`: of whitespace in a row the first is left, and none of what
follows whitespace that was left or the start. -/
def x509CollapseWhitespace (remove : Bool) : Bytes → Bytes
  | [] => []
  | c :: rest =>
    if remove ∧ x509Whitespace c then x509CollapseWhitespace remove rest
    else c :: x509CollapseWhitespace (x509Whitespace c) rest

/-- `x509_str_strip_whitespace()`: whitespace at the end goes, unless it is all there is. -/
def x509StrStripWhitespace (a : Bytes) : Bytes :=
  let a := x509CollapseWhitespace true a
  if 1 < a.length ∧ x509Whitespace (a.getLastD 0) then a.dropLast else a

/-- `tolower()` of the C locale. -/
def tolower (c : UInt8) : UInt8 := if 0x41 ≤ c ∧ c ≤ 0x5a then c + 0x20 else c

/-- `strcasecmp()`. -/
def strcasecmp (a b : Bytes) : Ordering :=
  (memcmp (a.map tolower) (b.map tolower)).then (compare a.length b.length)

/-- `x509_str_compare()`. Without memory for the copies the strings are compared as they are. -/
def x509StrCompare (alloc : Bool) : Option Bytes → Option Bytes → Ordering
  | none, none => .eq
  | none, some _ => .lt
  | some _, none => .gt
  | some a, some b =>
    if alloc then strcasecmp (x509StrStripWhitespace a) (x509StrStripWhitespace b) else strcasecmp a b

/-- The loop of `x509_name_compare()` over attributes of one number. -/
def x509AttrCompare (alloc : Bool) : List (X509NameAttrType × Bytes) → List (X509NameAttrType × Bytes) →
    Ordering
  | (ta, va) :: as, (tb, vb) :: bs =>
    -- types that differ either way give -1
    if ta.num < tb.num then .lt
    else if tb.num < ta.num then .lt
    else (x509StrCompare alloc (some va) (some vb)).then (x509AttrCompare alloc as bs)
  | _, _ => .eq

/-- `x509_name_compare()`. -/
def x509NameCompare (alloc : Bool) (a b : X509Name) : Ordering :=
  if a.attr.length < b.attr.length then .lt
  else if b.attr.length < a.attr.length then .gt
  else (x509AttrCompare alloc a.attr b.attr).then (x509StrCompare alloc a.email b.email)

/-! ## Certificates -/

inductive X509Version
  | v1
  | v2
  | v3
deriving DecidableEq

/-- `struct x509_certificate`. The bits of `extensions_present` are fields of their own. -/
structure X509Certificate where
  version : X509Version := .v3
  signatureOid : List Nat := []
  issuer : X509Name := {}
  subject : X509Name := {}
  notBefore : Int := 0
  notAfter : Int := 0
  publicKey : Bytes := []
  signValue : Bytes := []
  tbsCert : Bytes := []
  basicConstraintsPresent : Bool := false
  pathLenConstraintPresent : Bool := false
  keyUsagePresent : Bool := false
  ca : UInt8 := 0
  pathLenConstraint : Nat := 0
  keyUsage : Nat := 0
deriving DecidableEq

/-- `x509_parse_ext_key_usage()`. -/
def x509ParseExtKeyUsage (pos : Bytes) (len : Nat) (cert : X509Certificate) : Option X509Certificate :=
  match asn1GetUniversal 3 pos len with
  | none => none
  | some hdr =>
    if hdr.length < 1 then none
    else some { cert with keyUsagePresent := true, keyUsage := asn1BitStringToLong hdr.content }

/-- The end of `x509_parse_ext_basic_constraints()`: the INTEGER, of which the last 64 bits are kept. -/
def x509ParsePathLenConstraint (hdr : Asn1Hdr) (cert : X509Certificate) : Option X509Certificate :=
  if hdr.tag ≠ 2 then none
  else some { cert with pathLenConstraint := beNat hdr.content % 2 ^ 64, pathLenConstraintPresent := true }

/-- `x509_parse_ext_basic_constraints()`. -/
def x509ParseExtBasicConstraints (pos : Bytes) (len : Nat) (cert : X509Certificate) : Option X509Certificate :=
  match asn1GetUniversal 16 pos len with
  | none => none
  | some seq =>
    let cert := { cert with basicConstraintsPresent := true }
    if seq.length = 0 then
      some cert
    else
      match (asn1GetNext seq.payload seq.length).filter fun hdr => hdr.cls = 0 with
      | none => none
      | some hdr =>
        if hdr.tag = 1 then
          if hdr.length ≠ 1 then
            none
          else
            let cert := { cert with ca := hdr.payload.headD 0 }
            if hdr.length = len - (pos.length - hdr.payload.length) then
              some cert
            else
              -- the octets before the BOOLEAN are not taken from the number of those that are left
              match (asn1GetNext hdr.next (len - hdr.length)).filter fun hdr => hdr.cls = 0 with
              | none => none
              | some hdr => x509ParsePathLenConstraint hdr cert
        else
          x509ParsePathLenConstraint hdr cert

/-- `x509_parse_extension_data()`. The other known extensions set fields that are not modelled, or fail. What is
returned is nothing for a failure, and whether the extension is known. -/
def x509ParseExtensionData (other : Nat → Bytes → Bool) (oid : List Nat) (pos : Bytes) (len : Nat)
    (cert : X509Certificate) : Option (X509Certificate × Bool) :=
  if ¬ (4 ≤ oid.length ∧ oid.take 3 = [2, 5, 29]) then
    some (cert, false)
  else
    let ext := oid.getD 3 0
    if ext = 15 then (x509ParseExtKeyUsage pos len cert).map (·, true)
    else if ext = 19 then (x509ParseExtBasicConstraints pos len cert).map (·, true)
    else if ext = 17 ∨ ext = 18 ∨ ext = 37 then if other ext (pos.take len) then some (cert, true) else none
    else some (cert, false)

/-- `x509_parse_extension()`: the certificate and what follows. After a BOOLEAN the OCTET STRING is looked
for from the value of the BOOLEAN on: 0xff and the tag make an extended tag of the private class. -/
def x509ParseExtension (other : Nat → Bytes → Bool) (pos : Bytes) (len : Nat) (cert : X509Certificate) :
    Option (X509Certificate × Bytes) :=
  match asn1GetUniversal 16 pos len with
  | none => none
  | some ext =>
    match asn1GetOid ext.payload ext.length with
    | none => none
    | some (oid, pos) =>
      let left (pos : Bytes) := ext.length - (ext.payload.length - pos.length)
      match (asn1GetNext pos (left pos)).filter fun hdr => hdr.cls = 0 ∧ (hdr.tag = 1 ∨ hdr.tag = 4) with
      | none => none
      | some hdr =>
        let value : Option (Asn1Hdr × Bool) :=
          if hdr.tag ≠ 1 then
            some (hdr, false)
          else if hdr.length ≠ 1 then
            none
          else
            ((asn1GetNext hdr.payload (left hdr.payload)).filter fun hdr =>
              (hdr.cls = 0 ∨ hdr.cls = 3) ∧ hdr.tag = 4).map (·, hdr.payload.headD 0 ≠ 0)
        match value with
        | none => none
        | some (value, critical) =>
          match x509ParseExtensionData other oid value.payload value.length cert with
          | none => none
          | some (cert, known) => if ¬ known ∧ critical then none else some (cert, ext.next)

/-- The loop of `x509_parse_extensions()`. Every extension takes octets. -/
def x509ParseExtensionList (other : Nat → Bytes → Bool) : Nat → Bytes → Nat → X509Certificate →
    Option X509Certificate
  | _, _, 0, cert => some cert
  | 0, _, _ + 1, _ => none
  | n + 1, pos, len + 1, cert =>
    match x509ParseExtension other pos (len + 1) cert with
    | none => none
    | some (cert, next) => x509ParseExtensionList other n next (len + 1 - (pos.length - next.length)) cert

/-- `x509_parse_extensions()`. -/
def x509ParseExtensions (other : Nat → Bytes → Bool) (pos : Bytes) (len : Nat) (cert : X509Certificate) :
    Option X509Certificate :=
  match asn1GetUniversal 16 pos len with
  | none => none
  | some hdr => x509ParseExtensionList other hdr.length hdr.payload hdr.length cert

/-! ## Signatures -/

/-- RSA and the hashes. -/
structure X509Crypto where
  /-- `crypto_public_key_import()` and `crypto_public_key_decrypt_pkcs1()`. -/
  decryptPkcs1 : Bytes → Bytes → Option Bytes
  md5 : Bytes → Bytes
  sha1 : Bytes → Bytes
  sha256 : Bytes → Bytes
  sha384 : Bytes → Bytes
  sha512 : Bytes → Bytes

/-- The last value of the OID of the signature that goes with the OID of a digest. -/
def x509DigestSignature (oid : List Nat) : Option Nat :=
  if oid = [1, 3, 14, 3, 2, 26] then some 5
  else if oid = [2, 16, 840, 1, 101, 3, 4, 2, 1] then some 11
  else if oid = [2, 16, 840, 1, 101, 3, 4, 2, 2] then some 12
  else if oid = [2, 16, 840, 1, 101, 3, 4, 2, 3] then some 13
  else if 5 ≤ oid.length ∧ oid.take 5 = [1, 2, 840, 113549, 2] ∧ oid.getD 5 0 = 5 then some 4
  else none

def X509Crypto.hash (crypto : X509Crypto) (alg : Nat) (data : Bytes) : Option Bytes :=
  if alg = 4 then some (crypto.md5 data)
  else if alg = 5 then some (crypto.sha1 data)
  else if alg = 11 then some (crypto.sha256 data)
  else if alg = 12 then some (crypto.sha384 data)
  else if alg = 13 then some (crypto.sha512 data)
  else none

/-- The digest in a DigestInfo whose algorithm goes with the signature algorithm, and nothing after it. -/
def x509DigestInfo (alg : Nat) (data : Bytes) : Option Bytes :=
  match asn1GetUniversal 16 data data.length with
  | none => none
  | some info =>
    match asn1GetUniversal 16 info.payload info.length with
    | none => none
    | some algorithm =>
      match asn1GetOid algorithm.payload algorithm.length with
      | none => none
      | some (oid, _) =>
        if x509DigestSignature oid ≠ some alg then none
        else
          match asn1GetUniversal 4 algorithm.next algorithm.next.length with
          | none => none
          | some digest => if digest.next ≠ [] then none else some digest.content

/-- `x509_check_signature()`. -/
def x509CheckSignature (crypto : X509Crypto) (issuer : X509Certificate) (oid : List Nat)
    (signValue signedData : Bytes) : Bool :=
  if ¬ (oid.take 6 = [1, 2, 840, 113549, 1, 1] ∧ oid.length = 7) then
    false
  else
    let alg := oid.getD 6 0
    match crypto.decryptPkcs1 issuer.publicKey signValue with
    | none => false
    | some data =>
      match x509DigestInfo alg data, crypto.hash alg signedData with
      | some digest, some hash => digest = hash
      | _, _ => false

/-- `x509_certificate_check_signature()`. -/
def x509CertificateCheckSignature (crypto : X509Crypto) (issuer cert : X509Certificate) : Bool :=
  x509CheckSignature crypto issuer cert.signatureOid cert.signValue cert.tbsCert

/-! ## Chains -/

/-- `X509_VALIDATE_*`. -/
inductive X509Reason
  | badCertificate
  | certificateExpired
  | certificateUnknown
  | unknownCa
deriving DecidableEq

/-- `x509_valid_issuer()`. -/
def x509ValidIssuer (cert : X509Certificate) : Bool :=
  if cert.basicConstraintsPresent ∧ cert.ca = 0 then false
  else if cert.version = .v3 ∧ ¬ cert.basicConstraintsPresent then false
  else if cert.keyUsagePresent ∧ ¬ cert.keyUsage.testBit 5 then false
  else true

/-- A time as `unsigned long`. -/
def toUnsignedLong (t : Int) : Nat := (t % 2 ^ 64).toNat

/-- The checks of a certificate against the one that follows it. -/
def x509CheckNext (crypto : X509Crypto) (alloc : Bool) (idx : Nat) (cert next : X509Certificate) :
    Except X509Reason Unit :=
  if x509NameCompare alloc cert.issuer next.subject ≠ .eq then .error .certificateUnknown
  else if ¬ x509ValidIssuer next then .error .badCertificate
  else if next.pathLenConstraintPresent ∧ next.pathLenConstraint < idx then .error .badCertificate
  else if ¬ x509CertificateCheckSignature crypto next cert then .error .badCertificate
  else .ok ()

/-- The search for a trusted certificate that is the issuer: whether there is one. -/
def x509CheckTrusted (crypto : X509Crypto) (alloc : Bool) (trusted : List X509Certificate)
    (cert : X509Certificate) : Except X509Reason Bool :=
  match trusted.find? fun trust => x509NameCompare alloc cert.issuer trust.subject = .eq with
  | none => .ok false
  | some trust =>
    if ¬ x509ValidIssuer trust then .error .badCertificate
    else if ¬ x509CertificateCheckSignature crypto trust cert then .error .badCertificate
    else .ok true

/-- The loop of `x509_certificate_chain_validate()`: the position of the certificate whose issuer is
trusted. The certificates after it are not looked at. -/
def x509ChainLoop (crypto : X509Crypto) (alloc : Bool) (trusted : List X509Certificate) (now : Int)
    (disableTimeChecks : Bool) (idx : Nat) : List X509Certificate → Except X509Reason (Option Nat)
  | [] => .ok none
  | cert :: rest =>
    if ¬ disableTimeChecks ∧ (toUnsignedLong now < toUnsignedLong cert.notBefore ∨
        toUnsignedLong cert.notAfter < toUnsignedLong now) then
      .error .certificateExpired
    else do
      match rest with
      | [] => pure ()
      | next :: _ => x509CheckNext crypto alloc idx cert next
      if ← x509CheckTrusted crypto alloc trusted cert then
        return some idx
      x509ChainLoop crypto alloc trusted now disableTimeChecks (idx + 1) rest

/-- `x509_certificate_chain_validate()`. -/
def x509CertificateChainValidate (crypto : X509Crypto) (alloc : Bool) (trusted chain : List X509Certificate)
    (now : Int) (disableTimeChecks : Bool) : Except X509Reason Unit := do
  let found ← x509ChainLoop crypto alloc trusted now disableTimeChecks 0 chain
  if found.isNone ∧ trusted ≠ [] then .error .unknownCa else return ()

end Hostap
